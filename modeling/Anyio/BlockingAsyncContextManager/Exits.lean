import Anyio.BlockingAsyncContextManager.Model

/-!
# The wrapped manager is exited once

The body of the `with` statement runs between the two calls of the wrapped
manager: after `__aenter__()` has returned, and `__aexit__()` is called once for
it, with the exception of the body unless a cancellation got there first. What
`__exit__()` returns or raises is what `__aexit__()` did, except that a
`CancelledError` of the backend cancels the future, so that the thread gets
that of `concurrent.futures`.
-/

namespace Anyio.BlockingAsyncContextManager

open Library Concurrent BlockingPortal

/-- What the wrapped manager and the body did: the end of `__aenter__()`, the end of the body, the
exceptions that the calls of `__aexit__()` were given, and their ends. -/
structure History (ρ ε : Type*) where
  aenter : Option (Except (Thrown ε) ρ)
  body : Option (Option ε)
  aexits : List (Option ε)
  aexitEnds : List (Except (Thrown ε) Bool)
  interrupted : Bool
  deriving DecidableEq

def History.empty (ρ ε : Type*) : History ρ ε := ⟨none, none, [], [], false⟩

variable {ρ ε : Type*}

def record (h : History ρ ε) (s : State ρ ε) (a : Action ρ ε) (_ : Unit) : History ρ ε :=
  match a with
  | .aenterEnds r => { h with aenter := some r }
  | .bodyEnds exc => { h with body := some exc }
  | .wake => { h with aexits := h.aexits ++ [s.exitExcInfo] }
  | .interrupt => { h with aexits := h.aexits ++ [s.exitExcInfo], interrupted := true }
  | .aexitEnds r => { h with aexitEnds := h.aexitEnds ++ [r] }
  | _ => h

abbrev recorded (ρ ε : Type*) :
    Machine (State ρ ε × History ρ ε) (Action ρ ε) Unit :=
  (machine ρ ε).withHistory record

variable {s s' : State ρ ε} {h : History ρ ε} {a : Action ρ ε} {o : Unit}

/-- What a thread gets from a future that `_call_func()` has completed with the end of a call. -/
def relayed {α : Type*} : Except (Thrown ε) α → Except (Failure ε) α
  | .ok value => .ok value
  | .error .cancelledError => .error .futureCancelled
  | .error e => .error (.thrown e)

@[simp] theorem result_settle {α : Type*} (r : Except (Thrown ε) α) :
    result (settle .pending r) = some (relayed r) := by
  cases r with
  | ok value => rfl
  | error e => cases e <;> rfl

/-- The steps of the thread, of the task and of the portal. -/
inductive Change (s : State ρ ε) : Action ρ ε → State ρ ε → Prop
  | enter (thread : s.thread = .before) (running : s.portalRunning = true) :
      Change s .enter { s with thread := .spawning }
  | enterFails (thread : s.thread = .before) :
      Change s .enter { s with thread := .notEntered .notRunning }
  | spawn (thread : s.thread = .spawning) :
      Change s .spawn { s with thread := .entering, task := .spawned }
  | refuseEnter (thread : s.thread = .spawning) (running : s.portalRunning = false) :
      Change s .refuse { s with thread := .notEntered .notActive }
  | refuseExit (thread : s.thread = .setting) (running : s.portalRunning = false)
      (task : s.task = .absent ∨ s.task = .ended) :
      Change s .refuse { s with thread := .exited (.error .notActive) }
  | start (task : s.task = .spawned) : Change s .start { s with task := .entering }
  | aenterReturns {value : ρ} {f : Future (Except (Thrown ε) ρ)} (task : s.task = .entering)
      (complete : s.enterFuture.complete (.ok value) = some f) :
      Change s (.aenterEnds (.ok value)) { s with enterFuture := f, task := .waiting }
  | aenterRaises {e : Thrown ε} {f : Future (Except (Thrown ε) ρ)} (task : s.task = .entering)
      (complete : s.enterFuture.complete (.error e) = some f) :
      Change s (.aenterEnds (.error e))
        { s with enterFuture := f, exitFuture := settle s.exitFuture (.error e), task := .ended }
  | entered {value : ρ} (thread : s.thread = .entering)
      (result : result s.enterFuture = some (.ok value)) :
      Change s .entered { s with thread := .body value }
  | enterRaises {e : Failure ε} (thread : s.thread = .entering)
      (result : result s.enterFuture = some (.error e)) :
      Change s .entered { s with thread := .notEntered e }
  | bodyEnds {value : ρ} {exc : Option ε} (thread : s.thread = .body value)
      (running : s.portalRunning = true) :
      Change s (.bodyEnds exc) { s with exitExcInfo := exc, thread := .setting }
  | exitFails {value : ρ} {exc : Option ε} (thread : s.thread = .body value)
      (running : s.portalRunning = false) :
      Change s (.bodyEnds exc)
        { s with exitExcInfo := exc, thread := .exited (.error .notRunning) }
  | setEvent (thread : s.thread = .setting) :
      Change s .setEvent { s with exitEvent := true, thread := .joining }
  | wake (task : s.task = .waiting) (event : s.exitEvent = true) :
      Change s .wake { s with task := .exiting }
  | interrupt (task : s.task = .waiting) : Change s .interrupt { s with task := .exiting }
  | aexitEnds {r : Except (Thrown ε) Bool} (task : s.task = .exiting) :
      Change s (.aexitEnds r) { s with exitFuture := settle s.exitFuture r, task := .ended }
  | join {r : Except (Failure ε) Bool} (thread : s.thread = .joining)
      (result : result s.exitFuture = some r) : Change s .join { s with thread := .exited r }
  | stop : Change s .stop { s with portalRunning := false }

theorem step_change (hs : step s a = some (s', o)) : Change s a s' := by
  cases a with
  | enter =>
      simp only [step] at hs
      split at hs
      · rename_i hthread
        split_ifs at hs with hrunning
        · cases hs
          exact .enter hthread hrunning
        · cases hs
          exact .enterFails hthread
      · cases hs
  | spawn =>
      simp only [step] at hs
      split at hs
      · rename_i hthread
        cases hs
        exact .spawn hthread
      · cases hs
  | refuse =>
      simp only [step, Option.ite_none_right_eq_some] at hs
      obtain ⟨⟨hrunning, htask⟩, hs⟩ := hs
      split at hs
      · rename_i hthread
        cases hs
        exact .refuseEnter hthread hrunning
      · rename_i hthread
        cases hs
        exact .refuseExit hthread hrunning htask
      · cases hs
  | start =>
      simp only [step, Option.ite_none_right_eq_some, Option.some.injEq] at hs
      obtain ⟨htask, hs⟩ := hs
      cases hs
      exact .start htask
  | aenterEnds r =>
      simp only [step, Option.ite_none_right_eq_some] at hs
      obtain ⟨htask, hs⟩ := hs
      split at hs
      · cases hs
      · rename_i f hcomplete
        cases r with
        | ok value =>
            cases hs
            exact .aenterReturns htask hcomplete
        | error e =>
            cases hs
            exact .aenterRaises htask hcomplete
  | entered =>
      simp only [step] at hs
      split at hs
      · rename_i hthread hresult
        cases hs
        exact .entered hthread hresult
      · rename_i hthread hresult
        cases hs
        exact .enterRaises hthread hresult
      · cases hs
  | bodyEnds exc =>
      simp only [step] at hs
      split at hs
      · rename_i hthread
        split_ifs at hs with hrunning
        · cases hs
          exact .bodyEnds hthread hrunning
        · cases hs
          exact .exitFails hthread (Bool.eq_false_iff.mpr hrunning)
      · cases hs
  | setEvent =>
      simp only [step] at hs
      split at hs
      · rename_i hthread
        cases hs
        exact .setEvent hthread
      · cases hs
  | wake =>
      simp only [step, Option.ite_none_right_eq_some, Option.some.injEq] at hs
      obtain ⟨⟨htask, hevent⟩, hs⟩ := hs
      cases hs
      exact .wake htask hevent
  | interrupt =>
      simp only [step, Option.ite_none_right_eq_some, Option.some.injEq] at hs
      obtain ⟨htask, hs⟩ := hs
      cases hs
      exact .interrupt htask
  | aexitEnds r =>
      simp only [step, Option.ite_none_right_eq_some, Option.some.injEq] at hs
      obtain ⟨htask, hs⟩ := hs
      cases hs
      exact .aexitEnds htask
  | join =>
      simp only [step] at hs
      split at hs
      · rename_i hthread hresult
        cases hs
        exact .join hthread hresult
      · cases hs
  | stop =>
      cases hs
      exact .stop

/-- What the wrapped manager was called with and did. -/
def History.Says (h : History ρ ε) (aenter : Option (Except (Thrown ε) ρ))
    (aexits : List (Option ε)) (aexitEnds : List (Except (Thrown ε) Bool)) : Prop :=
  h.aenter = aenter ∧ h.aexits = aexits ∧ h.aexitEnds = aexitEnds

/-- The wrapped manager as the task has left it. -/
def TaskInv (s : State ρ ε) (h : History ρ ε) : Prop :=
  match s.task with
  | .absent | .spawned | .entering =>
      s.enterFuture = .pending ∧ s.exitFuture = .pending ∧ h.Says none [] []
  | .waiting => ∃ value, s.enterFuture = .finished (.ok value) ∧ s.exitFuture = .pending ∧
      h.Says (some (.ok value)) [] []
  | .exiting => ∃ value info, s.enterFuture = .finished (.ok value) ∧ s.exitFuture = .pending ∧
      h.Says (some (.ok value)) [info] []
  | .ended =>
      (∃ e, s.enterFuture = .finished (.error e) ∧ s.exitFuture = settle .pending (.error e) ∧
        h.Says (some (.error e)) [] []) ∨
      ∃ value info r, s.enterFuture = .finished (.ok value) ∧ s.exitFuture = settle .pending r ∧
        h.Says (some (.ok value)) [info] [r]

/-- The body has not ended. -/
def Fresh (s : State ρ ε) (h : History ρ ε) : Prop :=
  s.exitEvent = false ∧ s.exitExcInfo = none ∧ h.body = none

/-- The body has ended after `__aenter__()` had returned. -/
def Over (s : State ρ ε) (h : History ρ ε) : Prop :=
  (∃ value, s.enterFuture = .finished (.ok value)) ∧ h.body = some s.exitExcInfo

/-- The `with` statement as the thread has left it. -/
def ThreadInv (s : State ρ ε) (h : History ρ ε) : Prop :=
  match s.thread with
  | .before | .spawning => s.task = .absent ∧ Fresh s h
  | .entering => s.task ≠ .absent ∧ Fresh s h
  | .body value => s.enterFuture = .finished (.ok value) ∧ Fresh s h
  | .setting => Over s h ∧ s.exitEvent = false
  | .joining => Over s h ∧ s.exitEvent = true
  | .notEntered (.thrown e) => s.enterFuture = .finished (.error e) ∧ Fresh s h
  | .notEntered .futureCancelled => False
  | .notEntered _ => s.task = .absent ∧ Fresh s h
  | .exited (.error .notRunning) => Over s h ∧ s.exitEvent = false
  | .exited (.error .notActive) => Over s h ∧ s.task = .ended
  | .exited r => Over s h ∧ result s.exitFuture = some r

structure Inv (s : State ρ ε) (h : History ρ ε) : Prop where
  task : TaskInv s h
  thread : ThreadInv s h
  given : ∀ info ∈ h.aexits, h.interrupted = true ∧ info = none ∨ h.body = some info
  event : s.exitEvent = true → h.body = some s.exitExcInfo

theorem inv_initial : Inv (initial ρ ε) (History.empty ρ ε) where
  task := ⟨rfl, rfl, rfl, rfl, rfl⟩
  thread := ⟨rfl, rfl, rfl, rfl⟩
  given _ hmem := absurd hmem List.not_mem_nil
  event hevent := absurd hevent Bool.false_ne_true

/-- A step of the task leaves the thread where it is. -/
theorem ThreadInv.task {h' : History ρ ε} (thread : ThreadInv s h)
    (hthread : s'.thread = s.thread) (hevent : s'.exitEvent = s.exitEvent)
    (hinfo : s'.exitExcInfo = s.exitExcInfo) (hbody : h'.body = h.body)
    (htask : s.task ≠ .absent ∧ s.task ≠ .ended ∧ s'.task ≠ .absent)
    (henter : ∀ r, s.enterFuture = .finished r → s'.enterFuture = .finished r)
    (hexit : ∀ r, result s.exitFuture = some r → result s'.exitFuture = some r) :
    ThreadInv s' h' := by
  have fresh : Fresh s h → Fresh s' h' := by
    rintro ⟨h1, h2, h3⟩
    exact ⟨hevent.trans h1, hinfo.trans h2, hbody.trans h3⟩
  have ended : Over s h → Over s' h' := by
    rintro ⟨⟨value, hvalue⟩, hb⟩
    exact ⟨⟨value, henter _ hvalue⟩, by rw [hbody, hb, hinfo]⟩
  unfold ThreadInv at thread ⊢
  rw [hthread]
  split at thread
  · exact absurd thread.1 htask.1
  · exact absurd thread.1 htask.1
  · exact ⟨htask.2.2, fresh thread.2⟩
  · exact ⟨henter _ thread.1, fresh thread.2⟩
  · exact ⟨ended thread.1, hevent.trans thread.2⟩
  · exact ⟨ended thread.1, hevent.trans thread.2⟩
  · exact ⟨henter _ thread.1, fresh thread.2⟩
  · exact thread
  · exact absurd thread.1 htask.1
  · exact ⟨ended thread.1, hevent.trans thread.2⟩
  · exact absurd thread.2 htask.2.1
  · exact ⟨ended thread.1, hexit _ thread.2⟩

/-- A step of the task. -/
theorem Inv.taskStep {h' : History ρ ε} (inv : Inv s h) (task : TaskInv s' h')
    (hthread : s'.thread = s.thread) (hevent : s'.exitEvent = s.exitEvent)
    (hinfo : s'.exitExcInfo = s.exitExcInfo) (hbody : h'.body = h.body)
    (htask : s.task ≠ .absent ∧ s.task ≠ .ended ∧ s'.task ≠ .absent)
    (henter : ∀ r, s.enterFuture = .finished r → s'.enterFuture = .finished r)
    (hexit : ∀ r, result s.exitFuture = some r → result s'.exitFuture = some r)
    (hgiven : ∀ info ∈ h'.aexits, h'.interrupted = true ∧ info = none ∨ h'.body = some info) :
    Inv s' h' where
  task := task
  thread := inv.thread.task hthread hevent hinfo hbody htask henter hexit
  given := hgiven
  event he := by rw [hbody, hinfo, inv.event (hevent ▸ he)]

/-- A call of `__aexit__()`, with the exception that is there. -/
theorem Inv.aexit {h' : History ρ ε} (inv : Inv s h) (htask : s.task = .waiting)
    (hh : h' = { h with aexits := h.aexits ++ [s.exitExcInfo], interrupted := h'.interrupted })
    (hgiven : h'.interrupted = true ∧ s.exitExcInfo = none ∨ h.body = some s.exitExcInfo) :
    Inv { s with task := .exiting } h' := by
  have task := inv.task
  rw [TaskInv, htask] at task
  obtain ⟨value, henter, hexit, haenter, haexits, hends⟩ := task
  have haexits' : h'.aexits = [s.exitExcInfo] := by rw [hh, haexits, List.nil_append]
  apply inv.taskStep
  · refine ⟨value, s.exitExcInfo, henter, hexit, ?_, haexits', ?_⟩
    · rw [hh, haenter]
    · rw [hh, hends]
  · rfl
  · rfl
  · rfl
  · rw [hh]
  · simp [htask]
  · exact fun _ => id
  · exact fun _ => id
  · intro info hmem
    rw [haexits', List.mem_singleton] at hmem
    subst hmem
    rw [hh]
    exact hgiven

/-- The thread gets what `run_async_cm()` has put into the first future. -/
theorem Inv.enterFuture {r : Except (Failure ε) ρ} (inv : Inv s h)
    (hr : result s.enterFuture = some r) :
    ∃ ended, s.enterFuture = .finished ended ∧ r = ended.mapError .thrown := by
  have task := inv.task
  unfold TaskInv at task
  split at task
  · simp [task.1, result] at hr
  · simp [task.1, result] at hr
  · simp [task.1, result] at hr
  · obtain ⟨value, hf, -⟩ := task
    rw [hf] at hr
    exact ⟨_, hf, (Option.some.inj hr).symm⟩
  · obtain ⟨value, info, hf, -⟩ := task
    rw [hf] at hr
    exact ⟨_, hf, (Option.some.inj hr).symm⟩
  · obtain ⟨e, hf, -⟩ | ⟨value, info, r', hf, -⟩ := task
    · rw [hf] at hr
      exact ⟨_, hf, (Option.some.inj hr).symm⟩
    · rw [hf] at hr
      exact ⟨_, hf, (Option.some.inj hr).symm⟩

/-- A cancellation finds no exception before the body has ended. -/
theorem Inv.info (inv : Inv s h) : s.exitExcInfo = none ∨ h.body = some s.exitExcInfo := by
  have thread := inv.thread
  unfold ThreadInv at thread
  split at thread
  all_goals first
    | exact .inl thread.2.2.1
    | exact .inr thread.1.2
    | exact thread.elim

/-- No check of the portal fails in the task. -/
theorem Inv.exitFuture_ne (inv : Inv s h) (failure : Failure ε)
    (hf : failure ∈ [.notRunning, .notActive]) : result s.exitFuture ≠ some (.error failure) := by
  have relayed_ne : ∀ ended : Except (Thrown ε) Bool, relayed ended ≠ .error failure := by
    intro ended he
    cases ended with
    | ok _ => cases he
    | error e => cases e <;> cases he <;> simp at hf
  have task := inv.task
  unfold TaskInv at task
  split at task
  · simp [task.2.1, result]
  · simp [task.2.1, result]
  · simp [task.2.1, result]
  · obtain ⟨_, -, hexit, -⟩ := task
    simp [hexit, result]
  · obtain ⟨_, _, -, hexit, -⟩ := task
    simp [hexit, result]
  · obtain ⟨e, -, hexit, -⟩ | ⟨_, _, r, -, hexit, -⟩ := task
    · rw [hexit, result_settle]
      simpa using relayed_ne (.error e)
    · rw [hexit, result_settle]
      simpa using relayed_ne r

/-- The end of the body, after which `__aexit__()` gets its exception. -/
theorem Inv.bodyEnds {value : ρ} (inv : Inv s h) (hthread : s.thread = .body value)
    (exc : Option ε) (p : ThreadPoint ρ ε)
    (hp : Over { s with exitExcInfo := exc, thread := p } { h with body := some exc } →
      s.exitEvent = false →
      ThreadInv { s with exitExcInfo := exc, thread := p } { h with body := some exc }) :
    Inv { s with exitExcInfo := exc, thread := p } { h with body := some exc } := by
  have thread := inv.thread
  rw [ThreadInv, hthread] at thread
  obtain ⟨hfuture, hevent, -, hbody⟩ := thread
  have task : TaskInv s { h with body := some exc } := by
    have task := inv.task
    unfold TaskInv at task ⊢
    split at task
    · simp [task.1] at hfuture
    · simp [task.1] at hfuture
    · simp [task.1] at hfuture
    · exact task
    · exact task
    · exact task
  refine ⟨task, hp ⟨⟨value, hfuture⟩, rfl⟩ hevent, ?_, fun he => ?_⟩
  · intro info hmem
    rcases inv.given info hmem with hcancelled | hgiven
    · exact .inl hcancelled
    · rw [hbody] at hgiven
      cases hgiven
  · exact absurd (hevent.symm.trans he) Bool.false_ne_true

theorem Inv.step (inv : Inv s h) (change : Change s a s') : Inv s' (record h s a o) := by
  cases change with
  | enter hthread _ =>
      have thread := inv.thread
      rw [ThreadInv, hthread] at thread
      exact ⟨inv.task, thread, inv.given, inv.event⟩
  | enterFails hthread =>
      have thread := inv.thread
      rw [ThreadInv, hthread] at thread
      exact ⟨inv.task, thread, inv.given, inv.event⟩
  | spawn hthread =>
      have thread := inv.thread
      rw [ThreadInv, hthread] at thread
      have task := inv.task
      rw [TaskInv, thread.1] at task
      exact ⟨task, ⟨TaskPoint.noConfusion, thread.2⟩, inv.given, inv.event⟩
  | refuseEnter hthread _ =>
      have thread := inv.thread
      rw [ThreadInv, hthread] at thread
      exact ⟨inv.task, thread, inv.given, inv.event⟩
  | refuseExit hthread _ htask =>
      have thread := inv.thread
      rw [ThreadInv, hthread] at thread
      obtain ⟨⟨⟨value, hvalue⟩, hbody⟩, -⟩ := thread
      have hended : s.task = .ended := by
        apply htask.resolve_left
        intro habsent
        have task := inv.task
        rw [TaskInv, habsent] at task
        simp [task.1] at hvalue
      exact ⟨inv.task, ⟨⟨⟨value, hvalue⟩, hbody⟩, hended⟩, inv.given, inv.event⟩
  | start htask =>
      have task := inv.task
      rw [TaskInv, htask] at task
      apply inv.taskStep
      · exact task
      · rfl
      · rfl
      · rfl
      · rfl
      · simp [htask]
      · exact fun _ => id
      · exact fun _ => id
      · exact inv.given
  | @aenterReturns value f htask hcomplete =>
      have task := inv.task
      rw [TaskInv, htask] at task
      obtain ⟨henter, hexit, hh⟩ := task
      rw [henter] at hcomplete
      cases hcomplete
      apply inv.taskStep
      · exact ⟨value, rfl, hexit, rfl, hh.2⟩
      · rfl
      · rfl
      · rfl
      · rfl
      · simp [htask]
      · simp [henter]
      · exact fun _ => id
      · exact inv.given
  | @aenterRaises e f htask hcomplete =>
      have task := inv.task
      rw [TaskInv, htask] at task
      obtain ⟨henter, hexit, hh⟩ := task
      rw [henter] at hcomplete
      cases hcomplete
      apply inv.taskStep
      · exact .inl ⟨e, rfl, by rw [hexit], rfl, hh.2⟩
      · rfl
      · rfl
      · rfl
      · rfl
      · simp [htask]
      · simp [henter]
      · simp [hexit, result]
      · exact inv.given
  | entered hthread hresult =>
      have thread := inv.thread
      rw [ThreadInv, hthread] at thread
      obtain ⟨ended, hf, hr⟩ := inv.enterFuture hresult
      cases ended with
      | ok _ =>
          cases hr
          exact ⟨inv.task, ⟨hf, thread.2⟩, inv.given, inv.event⟩
      | error _ => cases hr
  | enterRaises hthread hresult =>
      have thread := inv.thread
      rw [ThreadInv, hthread] at thread
      obtain ⟨ended, hf, hr⟩ := inv.enterFuture hresult
      cases ended with
      | ok _ => cases hr
      | error _ =>
          cases hr
          exact ⟨inv.task, ⟨hf, thread.2⟩, inv.given, inv.event⟩
  | bodyEnds hthread _ => exact inv.bodyEnds hthread _ _ fun ended hevent => ⟨ended, hevent⟩
  | exitFails hthread _ => exact inv.bodyEnds hthread _ _ fun ended hevent => ⟨ended, hevent⟩
  | setEvent hthread =>
      have thread := inv.thread
      rw [ThreadInv, hthread] at thread
      exact ⟨inv.task, ⟨thread.1, rfl⟩, inv.given, fun _ => thread.1.2⟩
  | wake htask hevent => exact inv.aexit htask rfl (.inr (inv.event hevent))
  | interrupt htask =>
      apply inv.aexit htask rfl
      rcases inv.info with hnone | hbody
      · exact .inl ⟨rfl, hnone⟩
      · exact .inr hbody
  | @aexitEnds r htask =>
      have task := inv.task
      rw [TaskInv, htask] at task
      obtain ⟨value, info, henter, hexit, haenter, haexits, hends⟩ := task
      apply inv.taskStep
      · refine .inr ⟨value, info, r, henter, by rw [hexit], haenter, haexits, ?_⟩
        change h.aexitEnds ++ [r] = [r]
        rw [hends, List.nil_append]
      · rfl
      · rfl
      · rfl
      · rfl
      · simp [htask]
      · exact fun _ => id
      · simp [hexit, result]
      · exact inv.given
  | @join r hthread hresult =>
      have thread := inv.thread
      rw [ThreadInv, hthread] at thread
      refine ⟨inv.task, ?_, inv.given, inv.event⟩
      change ThreadInv { s with thread := .exited r } h
      unfold ThreadInv
      split
      all_goals rename_i heq
      all_goals cases heq
      · exact absurd hresult (inv.exitFuture_ne .notRunning (by simp))
      · exact absurd hresult (inv.exitFuture_ne .notActive (by simp))
      · exact ⟨thread.1, hresult⟩
  | stop => exact ⟨inv.task, inv.thread, inv.given, inv.event⟩

theorem inv_of_run
    (run : (recorded ρ ε).Reachable Machine.anyStep (initial ρ ε, .empty ρ ε) (s, h)) :
    Inv s h := by
  apply run.invariant_history inv_initial
  intro s h a s' o inv _ hs
  exact inv.step (step_change hs)

/-- The number of calls of `__aexit__()`. -/
theorem Inv.once (inv : Inv s h) :
    h.aexits.length ≤ 1 ∧ (h.aexits ≠ [] → ∃ value, h.aenter = some (.ok value)) := by
  have task := inv.task
  unfold TaskInv at task
  split at task
  · simp [task.2.2.2.1]
  · simp [task.2.2.2.1]
  · simp [task.2.2.2.1]
  · obtain ⟨value, -, -, -, haexits, -⟩ := task
    simp [haexits]
  · obtain ⟨value, info, -, -, haenter, haexits, -⟩ := task
    simp [haenter, haexits]
  · obtain ⟨e, -, -, -, haexits, -⟩ | ⟨value, info, r, -, -, haenter, haexits, -⟩ := task
    · simp [haexits]
    · simp [haenter, haexits]

/-- What is in the first future is what `__aenter__()` did. -/
theorem Inv.aenter {r : Except (Thrown ε) ρ} (inv : Inv s h)
    (hf : s.enterFuture = .finished r) : h.aenter = some r := by
  have task := inv.task
  unfold TaskInv at task
  split at task
  · simp [task.1] at hf
  · simp [task.1] at hf
  · simp [task.1] at hf
  · obtain ⟨value, hvalue, -, haenter, -⟩ := task
    rw [hvalue] at hf
    cases hf
    exact haenter
  · obtain ⟨value, info, hvalue, -, haenter, -⟩ := task
    rw [hvalue] at hf
    cases hf
    exact haenter
  · obtain ⟨e, hvalue, -, haenter, -⟩ | ⟨value, info, r', hvalue, -, haenter, -⟩ := task
    · rw [hvalue] at hf
      cases hf
      exact haenter
    · rw [hvalue] at hf
      cases hf
      exact haenter

/-- What is in the second future after `__aenter__()` has returned is what `__aexit__()` did. -/
theorem Inv.exits {r : Except (Failure ε) Bool} (inv : Inv s h) (ended : Over s h)
    (hr : result s.exitFuture = some r) :
    h.aexits.length = 1 ∧ ∃ ended, h.aexitEnds = [ended] ∧ r = relayed ended := by
  obtain ⟨⟨value, hvalue⟩, -⟩ := ended
  have task := inv.task
  unfold TaskInv at task
  split at task
  · simp [task.1] at hvalue
  · simp [task.1] at hvalue
  · simp [task.1] at hvalue
  · obtain ⟨_, -, hexit, -⟩ := task
    simp [hexit, result] at hr
  · obtain ⟨_, _, -, hexit, -⟩ := task
    simp [hexit, result] at hr
  · obtain ⟨e, hf, -⟩ | ⟨_, info, r', -, hexit, -, haexits, hends⟩ := task
    · rw [hf] at hvalue
      cases hvalue
    · rw [hexit, result_settle] at hr
      exact ⟨by rw [haexits, List.length_singleton], r', hends, (Option.some.inj hr).symm⟩

/-- A task that waits for an exit event that nobody will set goes on waiting. -/
theorem waiting_of_left
    (run : (machine ρ ε).Reachable (fun _ a => a ≠ .interrupt) s s')
    (hleft : s.thread = .exited (.error .notRunning) ∧ s.exitEvent = false ∧
      s.task = .waiting) : s'.task = .waiting := by
  refine (run.invariant (I := fun s => s.thread = .exited (.error .notRunning) ∧
    s.exitEvent = false ∧ s.task = .waiting) hleft ?_).2.2
  intro s a s' o left ok hs
  obtain ⟨hthread, hevent, htask⟩ := left
  cases step_change hs with
  | stop => exact ⟨hthread, hevent, htask⟩
  | interrupt _ => exact absurd rfl ok
  | wake _ he => exact absurd (hevent.symm.trans he) Bool.false_ne_true
  | start h | aenterReturns h _ | aenterRaises h _ | aexitEnds h =>
      rw [htask] at h
      cases h
  | enter h _ | enterFails h | spawn h | refuseEnter h _ | refuseExit h _ _ | entered h _
  | enterRaises h _ | bodyEnds h _ | exitFails h _ | setEvent h | join h _ =>
      rw [hthread] at h
      cases h

/-- The wrapped manager is at work, or the task or the thread has a step of its own to take. -/
def Goes (s : State ρ ε) : Prop :=
  s.task = .entering ∨ s.task = .exiting ∨
    ∃ a ∈ [Action.start, .wake, .entered, .join], (step s a).isSome

/-- `__enter__()` waits for a task that is on its way, or returns. -/
theorem Inv.entering (inv : Inv s h) (hthread : s.thread = .entering) : Goes s := by
  have thread := inv.thread
  rw [ThreadInv, hthread] at thread
  have returns : ∀ r, s.enterFuture = .finished r → Goes s := by
    intro r hr
    refine .inr (.inr ⟨.entered, by simp, ?_⟩)
    cases r <;> simp [BlockingAsyncContextManager.step, hthread, hr, result, Except.mapError]
  have task := inv.task
  cases htask : s.task with
  | absent => exact absurd htask thread.1
  | spawned =>
      exact .inr (.inr ⟨.start, by simp, by simp [BlockingAsyncContextManager.step, htask]⟩)
  | entering => exact .inl htask
  | waiting =>
      rw [TaskInv, htask] at task
      obtain ⟨value, hf, -⟩ := task
      exact returns _ hf
  | exiting => exact .inr (.inl htask)
  | ended =>
      rw [TaskInv, htask] at task
      obtain ⟨e, hf, -⟩ | ⟨value, info, r, hf, -⟩ := task
      · exact returns _ hf
      · exact returns _ hf

/-- `__exit__()` waits for a task that is on its way, or returns. -/
theorem Inv.joining (inv : Inv s h) (hthread : s.thread = .joining) : Goes s := by
  have thread := inv.thread
  rw [ThreadInv, hthread] at thread
  obtain ⟨⟨⟨value, hvalue⟩, -⟩, hevent⟩ := thread
  have returns : ∀ r, result s.exitFuture = some r → Goes s := by
    intro r hr
    refine .inr (.inr ⟨.join, by simp, ?_⟩)
    simp [BlockingAsyncContextManager.step, hthread, hr]
  have task := inv.task
  cases htask : s.task with
  | absent =>
      rw [TaskInv, htask] at task
      simp [task.1] at hvalue
  | spawned =>
      exact .inr (.inr ⟨.start, by simp, by simp [BlockingAsyncContextManager.step, htask]⟩)
  | entering => exact .inl htask
  | waiting =>
      refine .inr (.inr ⟨.wake, by simp, ?_⟩)
      simp [BlockingAsyncContextManager.step, htask, hevent]
  | exiting => exact .inr (.inl htask)
  | ended =>
      rw [TaskInv, htask] at task
      obtain ⟨e, -, hf, -⟩ | ⟨value, info, r, -, hf, -⟩ := task
      · exact returns _ (by rw [hf, result_settle])
      · exact returns _ (by rw [hf, result_settle])

/-- A thread that waits for a future does not wait in vain: the wrapped manager is at work, or
the task or the thread has a step of its own. The task waits in vain exactly if the portal was
stopped before the end of the body, and then until it is cancelled. -/
theorem waits_end
    (run : (recorded ρ ε).Reachable Machine.anyStep (initial ρ ε, .empty ρ ε) (s, h)) :
    (s.thread = .entering ∨ s.thread = .joining → Goes s) ∧
    ∀ r, s.thread = .exited r → s.task = .waiting → r = .error .notRunning ∧
      ∀ s', (machine ρ ε).Reachable (fun _ a => a ≠ .interrupt) s s' → s'.task = .waiting := by
  have inv := inv_of_run run
  constructor
  · rintro (hthread | hthread)
    · exact inv.entering hthread
    · exact inv.joining hthread
  · intro r hthread htask
    have task := inv.task
    rw [TaskInv, htask] at task
    obtain ⟨value, -, hexit, -⟩ := task
    have thread := inv.thread
    match r with
    | .error .notRunning =>
        rw [ThreadInv, hthread] at thread
        exact ⟨rfl, fun s' later => waiting_of_left later ⟨hthread, thread.2, htask⟩⟩
    | .error .notActive =>
        rw [ThreadInv, hthread, htask] at thread
        cases thread.2
    | .error .futureCancelled | .error (.thrown _) | .ok _ =>
        rw [ThreadInv, hthread, hexit] at thread
        cases thread.2

/-- The portal is stopped while the thread is in the body. -/
def stoppedEarly : List (Action Nat Nat) :=
  [.enter, .spawn, .start, .aenterEnds (.ok 7), .entered, .stop, .bodyEnds none]

theorem stoppedEarly_run : ((recorded Nat Nat).exec Machine.anyStep
    (initial Nat Nat, .empty Nat Nat) stoppedEarly).isSome := by
  decide

theorem waits_end_stoppedEarly :
    let p := ((recorded Nat Nat).exec Machine.anyStep
      (initial Nat Nat, .empty Nat Nat) stoppedEarly).get stoppedEarly_run
    p.1.thread = .exited (.error .notRunning) ∧
      ∀ s', (machine Nat Nat).Reachable (fun _ a => a ≠ .interrupt) p.1 s' →
        s'.task = .waiting := by
  have run := Machine.exec_get_reachable (initial Nat Nat, History.empty Nat Nat) stoppedEarly
    stoppedEarly_run
  exact ⟨by decide, ((waits_end run).2 (.error .notRunning) (by decide) (by decide)).2⟩

end Anyio.BlockingAsyncContextManager
