import Anyio.CancelScope.Charge

/-!
# Steps of runs with fresh scopes

What a step can change, by the kind of its action. From it the links between
tasks and scopes hold in every run, so that the assertions of `task_done` and
the removals from sets never fail, and misuse is refused without a trace.
-/

namespace Anyio.CancelScope

open Asyncio Library

variable {τ : Type*}

inductive Kind
  | nests
  | delivers
  | places
  | schedules
  deriving DecidableEq

/-- What an action is about. -/
def Action.kind : Action τ → Kind
  | .enter _ | .exit _ _ => .nests
  | .cancel _ | .setShield _ _ | .setDeadline _ _ | .timeout _ _ | .deliverCancellation _ _ =>
      .delivers
  | .spawn _ _ | .taskWrapper _ | .finish | .taskDone _ _ => .places
  | .createTask _ | .resume _ | .sleep | .await _ | .nativeCancel _ | .createFuture
  | .setResult _ | .setTime _ => .schedules

/-- The `origin` of each `_deliver_cancellation(origin)` that a step runs, if it runs any: the
scope that the action is about, or the one that `_restart_cancellation_in_parent()` finds. -/
def deliveryOrigin (w : World τ) : Action τ → Option ScopeId
  | .enter c | .cancel c | .setDeadline c _ | .timeout _ c | .deliverCancellation _ c => some c
  | .exit c _ | .setShield c _ => w.nearestCancelled (w.scope c).parentScope
  | _ => none

/-- Only the registration of task `t` changes, and where it stands. -/
structure Placed (w : World τ) (t : τ) (w' : World τ) : Prop where
  scope : ∀ d, w'.scope d = { w.scope d with tasks := (w'.scope d).tasks }
  others : ∀ u, u ≠ t → w'.currentScope u = w.currentScope u ∧ w'.loop.point u = w.loop.point u
  ended : w.loop.point t = .finished → w'.loop.point t = .finished
  moves : w'.loop.point t = w.loop.point t ∨ w'.loop.point t = .created ∨
    w'.loop.point t = .finished
  requests : ∀ u, (w'.loop.task u).cancelling = (w.loop.task u).cancelling ∧
    (w'.loop.task u).mustCancel = (w.loop.task u).mustCancel
  future : w'.loop.future = w.loop.future ∧ w'.loop.nextFuture = w.loop.nextFuture
  entered : w'.entered = w.entered
  current : ∀ u, w'.current = some u → w.current = some u
  callbacks : w'.callbacks = w.callbacks
  pythonMinor : w'.pythonMinor = w.pythonMinor

/-- Only the loop changes; no task is created twice or comes back to life. -/
structure Scheduled (w w' : World τ) : Prop where
  scope : w'.scope = w.scope
  unborn : ∀ u, w'.loop.point u = .unborn → w.loop.point u = .unborn
  ended : ∀ u, w.loop.point u = .finished → w'.loop.point u = .finished
  running : ∀ u, w'.current = some u → w'.loop.point u = .running
  entered : w'.entered = w.entered
  taskState : w'.taskState = w.taskState
  groups : w'.groupTasks = w.groupTasks ∧ w'.doneCallbacks = w.doneCallbacks ∧
    w'.placedScope = w.placedScope
  callbacks : w'.callbacks = w.callbacks
  pythonMinor : w'.pythonMinor = w.pythonMinor

variable [DecidableEq τ]

/-- What one step of a run with fresh scopes changes. -/
inductive Change (w : World τ) : Action τ → World τ → Answer → Prop
  | refused {a e} (he : (a.kind = .nests ∧ ∃ message, e = .runtimeError message) ∨
      (∃ f, a = .setResult f) ∧ e = .invalidStateError) : Change w a w (.error e)
  | entered {c host mid} (hcur : w.current = some host) (fresh : c ∉ w.entered)
      (h : Entered w c host mid) : Change w (.enter c) (mid.activate c host) (.ok none)
  | left {c host exc mid} (hcur : w.current = some host) (active : (w.scope c).active = true)
      (hosted : (w.scope c).hostTask = some host) (inside : w.currentScope host = some c)
      (h : Left w c host mid) :
      Change w (.exit c exc) (mid.conclude c host exc).1 (.ok (some (mid.conclude c host exc).2))
  | charged {a w' shielded origin}
      (ha : a.kind = .delivers ∧ (deliveryOrigin w a = some origin ∨ w'.loop = w.loop))
      (links : SameLinks w w')
      (hshield : ∀ c, shielded = some c → ∃ value, a = .setShield c value)
      (h : Charged none shielded origin w w') : Change w a w' (.ok none)
  | placed {a w' t} (ha : a.kind = .places) (h : Placed w t w')
      (ht : (∃ c, a = .spawn c t ∧ w.loop.point t = .unborn) ∨
        (∃ c, a = .taskWrapper c ∧ w.current = some t ∧ w.taskState t = none) ∨
        (a = .finish ∧ w.current = some t ∧ w'.currentScope t = w.currentScope t) ∨
        ∃ group, a = .taskDone t group ∧ w.loop.point t = .finished) : Change w a w' (.ok none)
  | scheduled {a w'} (ha : a.kind = .schedules) (h : Scheduled w w') : Change w a w' (.ok none)

/-- Deliveries are queued for cancelled scopes only. -/
def Called (w : World τ) : Prop := ∀ e ∈ w.callbacks, (w.scope e.2).cancelCalled = true

variable {w w' : World τ} {a : Action τ} {o : Answer} {c : ScopeId} {t u host : τ}

theorem spawn_placed (c : ScopeId) (ht : w.loop.point t = .unborn) :
    Placed w t (w.spawn c t) where
  scope d := by
    by_cases hd : d = c <;> simp [World.spawn, hd]
  others u hu := by simp [World.spawn, World.currentScope, hu]
  ended h := by simp [ht] at h
  moves := .inr (.inl (by simp [World.spawn]))
  requests u := by simp [World.spawn]
  future := ⟨rfl, rfl⟩
  entered := rfl
  current _ := id
  callbacks := rfl
  pythonMinor := rfl

omit [DecidableEq τ] in
/-- Changes of the registration that leave the loop alone. -/
theorem Placed.of_loop
    (hscope : ∀ d, w'.scope d = { w.scope d with tasks := (w'.scope d).tasks })
    (hothers : ∀ u, u ≠ t → w'.currentScope u = w.currentScope u) (hloop : w'.loop = w.loop)
    (hentered : w'.entered = w.entered) (hcurrent : w'.current = w.current)
    (hcallbacks : w'.callbacks = w.callbacks) (hminor : w'.pythonMinor = w.pythonMinor) :
    Placed w t w' where
  scope := hscope
  others u hu := ⟨hothers u hu, hloop ▸ rfl⟩
  ended h := hloop ▸ h
  moves := .inl (hloop ▸ rfl)
  requests _ := hloop ▸ ⟨rfl, rfl⟩
  future := hloop ▸ ⟨rfl, rfl⟩
  entered := hentered
  current _ h := hcurrent ▸ h
  callbacks := hcallbacks
  pythonMinor := hminor

theorem taskWrapper_placed (w : World τ) (c : ScopeId) (t : τ) :
    Placed w t (w.taskWrapper c t) := by
  apply Placed.of_loop
  · intro d
    by_cases hd : d = c <;> simp [World.taskWrapper, hd]
  · intro u hu
    simp [World.taskWrapper, World.currentScope, hu]
  all_goals rfl

theorem finish_placed (w : World τ) (t : τ) : Placed w t (w.finish t) := by
  have hscope : ∀ d, (w.finish t).scope d =
      { w.scope d with tasks := ((w.finish t).scope d).tasks } := by
    intro d
    unfold World.finish
    cases w.placedScope t with
    | none => rfl
    | some c => by_cases hd : d = c <;> simp [hd]
  have hrest : (w.finish t).taskState = w.taskState ∧
      (w.finish t).loop = w.loop.moveTo t .finished ∧ (w.finish t).entered = w.entered ∧
      (w.finish t).callbacks = w.callbacks ∧ (w.finish t).pythonMinor = w.pythonMinor := by
    unfold World.finish
    cases w.placedScope t <;> exact ⟨rfl, rfl, rfl, rfl, rfl⟩
  obtain ⟨hstate, hloop, hentered, hcallbacks, hminor⟩ := hrest
  refine ⟨hscope, fun u hu => ⟨?_, ?_⟩, ?_, ?_, fun u => ?_, ?_, hentered, ?_, hcallbacks, hminor⟩
  · simp [World.currentScope, hstate]
  · simp [hloop, hu]
  · simp [hloop]
  · simp [hloop]
  · simp [hloop]
  · rw [hloop]
    exact ⟨rfl, rfl⟩
  · intro u hu
    cases hu

theorem taskDone_placed (w : World τ) (t : τ) (group : ScopeId) :
    Placed w t (w.taskDone t group).1 := by
  have hscope : ∀ d, ((w.taskDone t group).1.scope d) =
      { w.scope d with tasks := ((w.taskDone t group).1.scope d).tasks } := by
    intro d
    unfold World.taskDone
    simp only
    split
    · rfl
    · rfl
    · rename_i c _
      split_ifs
      · by_cases hd : d = c <;> simp [World.modify, hd]
      · by_cases hd : d = c <;> simp [World.modify, hd]
      · rfl
  have hothers : ∀ u, u ≠ t → (w.taskDone t group).1.currentScope u = w.currentScope u := by
    intro u hu
    unfold World.taskDone
    simp only
    split
    · rfl
    · rfl
    · split_ifs
      · simp [World.currentScope, hu]
      · rfl
      · rfl
  have hrest : (w.taskDone t group).1.loop = w.loop ∧
      (w.taskDone t group).1.entered = w.entered ∧ (w.taskDone t group).1.current = w.current ∧
      (w.taskDone t group).1.callbacks = w.callbacks ∧
      (w.taskDone t group).1.pythonMinor = w.pythonMinor := by
    unfold World.taskDone
    simp only
    split
    · exact ⟨rfl, rfl, rfl, rfl, rfl⟩
    · exact ⟨rfl, rfl, rfl, rfl, rfl⟩
    · split_ifs <;> exact ⟨rfl, rfl, rfl, rfl, rfl⟩
  exact .of_loop hscope hothers hrest.1 hrest.2.1 hrest.2.2.1 hrest.2.2.2.1 hrest.2.2.2.2

omit [DecidableEq τ] in
/-- Taking a callback or a timer out of its queue makes no request. -/
theorem erase_charged (origin : ScopeId) (w : World τ)
    (callbacks timers : List (HandleId × ScopeId))
    (h : ∀ e ∈ callbacks, e ∈ w.callbacks) :
    SameLinks w { w with callbacks := callbacks, timers := timers } ∧
      Charged none none origin w { w with callbacks := callbacks, timers := timers } :=
  ⟨⟨fun _ => rfl, rfl, rfl, ⟨rfl, rfl, rfl⟩, fun _ => rfl, rfl⟩,
    .of_loop origin rfl rfl (fun _ => ⟨rfl, rfl, fun _ => rfl, fun _ => rfl, rfl, id⟩)
      (fun e he => .inl (h e he)) rfl⟩

omit [DecidableEq τ] in
/-- Changes of the loop that move no task. -/
theorem Registered.scheduled (reg : Registered w) (now : Int) {l : Loop τ Point}
    (hl : ∀ u, l.point u = w.loop.point u) : Scheduled w { w with loop := l, now := now } where
  scope := rfl
  unborn u hu := hl u ▸ hu
  ended u hu := (hl u).trans hu
  running u hu := (hl u).trans (reg.running u hu)
  entered := rfl
  taskState := rfl
  groups := ⟨rfl, rfl, rfl⟩
  callbacks := rfl
  pythonMinor := rfl

/-- One task moves to the point `q`. -/
theorem Registered.scheduledTask (reg : Registered w) (t : τ) (q : Point) (current : Option τ)
    {l : Loop τ Point} (hl : ∀ u, l.point u = if u = t then q else w.loop.point u)
    (hborn : q = .unborn → w.loop.point t = .unborn) (halive : w.loop.point t ≠ .finished)
    (hcur : ∀ u, current = some u → u = t ∧ q = .running ∨ u ≠ t ∧ w.current = some u) :
    Scheduled w { w with loop := l, current := current } where
  scope := rfl
  unborn u hu := by
    rw [hl] at hu
    split_ifs at hu with hut
    · exact hut ▸ hborn hu
    · exact hu
  ended u hu := by
    have hut : u ≠ t := by
      rintro rfl
      exact halive hu
    rw [hl, if_neg hut, hu]
  running u hu := by
    change l.point u = .running
    rw [hl]
    rcases hcur u hu with ⟨rfl, hq⟩ | ⟨hut, hu⟩
    · rw [if_pos rfl, hq]
    · rw [if_neg hut]
      exact reg.running u hu
  entered := rfl
  taskState := rfl
  groups := ⟨rfl, rfl, rfl⟩
  callbacks := rfl
  pythonMinor := rfl

omit [DecidableEq τ] in
/-- The shield of a scope is not looked at by a walk that starts at its parent. -/
theorem Registered.nearestCancelled_modify_shield (reg : Registered w) (c : ScopeId)
    (value : Bool) :
    (w.modify c fun s => { s with shield := value }).nearestCancelled (w.scope c).parentScope =
      w.nearestCancelled (w.scope c).parentScope := by
  unfold World.nearestCancelled
  apply nearest_congr_on (P := fun y => w.entered.idxOf y < w.entered.idxOf c)
  · intro p hp
    exact (reg.older c p hp).1
  · intro y hy
    have hyc : y ≠ c := by
      rintro rfl
      exact absurd hy (Nat.lt_irrefl _)
    simp only [World.modify_scope, if_neg hyc, true_and]
    intro p hp
    exact Nat.lt_trans (reg.older y p hp).1 hy

/-- A step is one of the changes. -/
theorem step_change (reg : Registered w) (called : Called w) (ok : Fresh w a)
    (h : step w a = some (w', o)) : Change w a w' o := by
  cases a with
  | enter c =>
      simp only [step] at h
      split at h
      · cases h
      · rename_i host hcur
        rcases reg.enter_cases hcur ok with heq | ⟨fresh, mid, hmid, heq⟩
        · rw [heq] at h
          cases h
          exact .refused (.inl ⟨rfl, _, rfl⟩)
        · rw [heq] at h
          cases h
          exact .entered hcur fresh hmid
  | exit c exc =>
      simp only [step] at h
      split at h
      · cases h
      · rename_i host hcur
        rcases reg.exit_cases hcur c exc with ⟨message, heq⟩ | ⟨hactive, hhost, hin, mid, hmid, heq⟩
        · rw [heq] at h
          cases h
          exact .refused (.inl ⟨rfl, _, rfl⟩)
        · rw [heq] at h
          cases h
          exact .left hcur hactive hhost hin hmid
  | cancel c =>
      cases h
      have hc : Charged none none c w (w.cancel c) := cancel_charged w c
      exact .charged ⟨rfl, .inl rfl⟩ (cancel_links w c) (by simp) hc
  | setShield c value =>
      cases h
      obtain ⟨origin, hcharged, horigin⟩ : ∃ origin, Charged none (some c) origin _ _ ∧ _ :=
        setShield_charged w c value
      rw [reg.nearestCancelled_modify_shield] at horigin
      exact .charged ⟨rfl, horigin⟩ (setShield_links w c value) (by simp) hcharged
  | setDeadline c value =>
      cases h
      have hc : Charged none none c w (w.setDeadline c value) := setDeadline_charged w c value
      exact .charged ⟨rfl, .inl rfl⟩ (setDeadline_links w c value) (by simp) hc
  | timeout g c =>
      obtain ⟨-, h⟩ := Option.ite_none_right_eq_some.mp h
      cases h
      obtain ⟨hl, hc⟩ := erase_charged c w w.callbacks (w.timers.erase (g, c)) fun _ => id
      exact .charged ⟨rfl, .inl rfl⟩ (hl.trans (timeout_links _ c)) (by simp)
        (hc.trans (timeout_charged _ c) (.inr rfl))
  | deliverCancellation g c =>
      obtain ⟨⟨-, hmem⟩, h⟩ := Option.ite_none_right_eq_some.mp h
      cases h
      obtain ⟨hl, hc⟩ := erase_charged c w (w.callbacks.erase (g, c)) w.timers fun _ =>
        List.mem_of_mem_erase
      exact .charged ⟨rfl, .inl rfl⟩ (hl.trans (deliver_links _ c)) (by simp)
        (hc.deliver (called _ hmem))
  | spawn c t =>
      obtain ⟨hp, h⟩ := Option.ite_none_right_eq_some.mp h
      cases h
      exact .placed rfl (spawn_placed c hp) (.inl ⟨c, rfl, hp⟩)
  | taskWrapper c =>
      simp only [step] at h
      split at h
      · cases h
      · rename_i t hcur
        obtain ⟨⟨hstate, -⟩, h⟩ := Option.ite_none_right_eq_some.mp h
        cases h
        exact .placed rfl (taskWrapper_placed w c t) (.inr (.inl ⟨c, rfl, hcur, hstate⟩))
  | finish =>
      simp only [step] at h
      split at h
      · cases h
      · rename_i t hcur
        cases h
        refine .placed rfl (finish_placed w t) (.inr (.inr (.inl ⟨rfl, hcur, ?_⟩)))
        unfold World.finish
        cases w.placedScope t <;> rfl
  | taskDone t group =>
      obtain ⟨⟨hcur, hp, hmem⟩, h⟩ := Option.ite_none_right_eq_some.mp h
      have hdone := (reg.taskDone hp hmem (by simp [hcur])).2
      simp only [hdone] at h
      cases h
      exact .placed rfl (taskDone_placed w t group) (.inr (.inr (.inr ⟨group, rfl, hp⟩)))
  | createTask t =>
      obtain ⟨hp, h⟩ := Option.ite_none_right_eq_some.mp h
      cases h
      refine .scheduled rfl (reg.scheduledTask t .created w.current (fun u => by simp)
        (by simp) (by simp [hp]) fun u hu => .inr ⟨?_, hu⟩)
      rintro rfl
      rw [reg.running u hu] at hp
      cases hp
  | resume t =>
      obtain ⟨⟨-, hw⟩, h⟩ := Option.ite_none_right_eq_some.mp h
      cases h
      refine .scheduled rfl (reg.scheduledTask t .running (some t) (fun u => by simp)
        (by simp) (fun hp => ?_) fun u hu => .inl ⟨by simpa [eq_comm] using hu, rfl⟩)
      simp [Loop.wakeUpQueued, Loop.waits, hp, Coroutine.waits] at hw
  | sleep =>
      simp only [step] at h
      split at h
      · cases h
      · rename_i t hcur
        cases h
        exact .scheduled rfl (reg.scheduledTask t .yielding none (fun u => by simp)
          (by simp) (by simp [reg.running t hcur]) (by simp))
  | await f =>
      simp only [step] at h
      split at h
      · cases h
      · rename_i t hcur
        obtain ⟨-, h⟩ := Option.ite_none_right_eq_some.mp h
        cases h
        exact .scheduled rfl (reg.scheduledTask t (.awaiting f) none (fun u => by simp)
          (by simp) (by simp [reg.running t hcur]) (by simp))
  | nativeCancel t =>
      obtain ⟨-, h⟩ := Option.ite_none_right_eq_some.mp h
      cases h
      exact .scheduled rfl (reg.scheduled w.now fun u => by simp)
  | createFuture =>
      cases h
      exact .scheduled rfl (reg.scheduled w.now fun _ => rfl)
  | setResult f =>
      simp only [step] at h
      split at h
      · cases h
        exact .refused (.inr ⟨⟨f, rfl⟩, rfl⟩)
      · rename_i l hl
        cases h
        obtain ⟨-, rfl⟩ := Loop.setResult_eq_some.mp hl
        exact .scheduled rfl (reg.scheduled w.now fun _ => rfl)
  | setTime now =>
      obtain ⟨-, h⟩ := Option.ite_none_right_eq_some.mp h
      cases h
      exact .scheduled rfl (reg.scheduled now fun _ => rfl)

theorem Called.step (called : Called w) (h : Change w a w' o) : Called w' := by
  cases h with
  | refused => exact called
  | @entered c host mid hcur fresh hmid =>
      have hc : Charged (some c) none c mid (mid.activate c host) := activate_charged mid c host
      intro e he
      rcases hc.queued e he with he | he
      · apply hc.called
        rw [(hmid.flags e.2).2]
        exact called e (hmid.callbacks ▸ he)
      · exact he
  | @left c host exc mid hcur _ _ _ hmid =>
      obtain ⟨undone, restarted, origin, hundone, hc, -, -, -, heq⟩ :=
        conclude_stages mid c host exc
      obtain ⟨_, _, hscope⟩ := hundone.scope
      rw [heq]
      intro e he
      have hcalled : (restarted.scope e.2).cancelCalled = true := by
        rcases hc.queued e he with he | he
        · apply hc.called
          rw [hscope]
          change (mid.scope e.2).cancelCalled = true
          rw [(hmid.flags e.2).2]
          exact called e (hmid.callbacks ▸ hundone.callbacks ▸ he)
        · exact he
      rw [World.modify_scope]
      split_ifs with hd
      · exact hd ▸ hcalled
      · exact hcalled
  | charged _ _ _ hc =>
      intro e he
      exact (hc.queued e he).elim (fun he => hc.called e.2 (called e he)) id
  | placed _ hp _ =>
      intro e he
      rw [hp.scope]
      exact called e (hp.callbacks ▸ he)
  | scheduled _ hs =>
      intro e he
      rw [hs.scope]
      exact called e (hs.callbacks ▸ he)

omit [DecidableEq τ] in
theorem Registered.schedule (reg : Registered w) (h : Scheduled w w') : Registered w' := by
  have hmoved : Registered { w with loop := w'.loop, current := w'.current } :=
    reg.move h.unborn h.ended h.running
  refine hmoved.congr ⟨fun c => ?_, h.entered, h.taskState, h.groups, fun _ => rfl, rfl⟩
  rw [h.scope]

/-- A task that has ended does not come back. -/
theorem Change.ended (change : Change w a w' o) (ht : w.loop.point t = .finished) :
    w'.loop.point t = .finished := by
  cases change with
  | refused => exact ht
  | @entered c host mid _ _ hmid =>
      rw [(activate_links mid c host).point]
      exact hmid.loop ▸ ht
  | @left c host exc mid _ _ _ _ hmid =>
      rw [(conclude_links mid c host exc).point]
      exact hmid.loop ▸ ht
  | charged _ hl _ _ => rwa [hl.point]
  | @placed _ _ u _ hp _ =>
      by_cases htu : t = u
      · exact htu ▸ hp.ended (htu ▸ ht)
      · rwa [(hp.others t htu).2]
  | scheduled _ hs => exact hs.ended t ht

theorem Registered.step (reg : Registered w) (called : Called w) (ok : Fresh w a)
    (h : step w a = some (w', o)) : Registered w' := by
  cases step_change reg called ok h with
  | refused => exact reg
  | @entered c host mid hcur fresh hmid =>
      exact (hmid.registered reg fresh hcur).congr (activate_links mid c host)
  | @left c host exc mid hcur _ hhost hin hmid =>
      exact (hmid.registered reg hin hhost hcur).congr (conclude_links mid c host exc)
  | charged _ hl _ _ => exact reg.congr hl
  | scheduled _ hs => exact reg.schedule hs
  | placed ha _ _ =>
      cases a with
      | spawn c t =>
          obtain ⟨hp, h⟩ := Option.ite_none_right_eq_some.mp h
          cases h
          exact reg.spawn hp ok
      | taskWrapper c =>
          simp only [CancelScope.step] at h
          split at h
          · cases h
          · rename_i t hcur
            obtain ⟨⟨ht, -⟩, h⟩ := Option.ite_none_right_eq_some.mp h
            cases h
            exact reg.taskWrapper hcur ht ok
      | finish =>
          simp only [CancelScope.step] at h
          split at h
          · cases h
          · rename_i t hcur
            cases h
            exact reg.finish hcur
      | taskDone t group =>
          obtain ⟨⟨hcur, hp, hmem⟩, h⟩ := Option.ite_none_right_eq_some.mp h
          obtain ⟨rfl, -⟩ := Prod.mk.inj (Option.some.inj h)
          exact (reg.taskDone hp hmem (by simp [hcur])).1
      | enter _ | exit _ _ | cancel _ | setShield _ _ | setDeadline _ _ | timeout _ _
      | deliverCancellation _ _ | createTask _ | resume _ | sleep | await _ | nativeCancel _
      | createFuture | setResult _ | setTime _ => cases ha

omit [DecidableEq τ] in
theorem Registered.initial (minor : Nat) : Registered (initial τ minor) where
  inside _ _ _ h := by simp [CancelScope.initial, World.currentScope] at h
  only _ _ h := by simp [CancelScope.initial] at h
  distinct _ := by simp [CancelScope.initial]
  child _ _ := by simp [CancelScope.initial]
  older _ _ h := by simp [CancelScope.initial] at h
  located _ _ h := by simp [CancelScope.initial, World.currentScope] at h
  known _ h := by simp [CancelScope.initial] at h
  hosted _ := by simp [CancelScope.initial]
  grouped _ _ := by simp [CancelScope.initial]
  groupsDistinct := by simp [CancelScope.initial]
  spawned _ _ h := by simp [CancelScope.initial] at h
  unborn _ _ := by simp [CancelScope.initial]
  running _ h := by simp [CancelScope.initial] at h

/-- The states of the runs with fresh scopes. -/
theorem registered_of_run {minor : Nat}
    (run : (machine τ).Reachable Fresh (initial τ minor) w) : Registered w ∧ Called w := by
  refine run.invariant (I := fun v => Registered v ∧ Called v)
    ⟨.initial minor, fun _ h => nomatch h⟩ fun v a v' o hv ok h => ?_
  exact ⟨hv.1.step hv.2 ok h, hv.2.step (step_change hv.1 hv.2 ok h)⟩

/-- In every run in which scopes are entered once, tasks and scopes are
registered where they are and nowhere else, the parents form no cycle, no
removal and no assertion fails, and misuse is refused and changes nothing. -/
theorem scope_tree_invariant {minor : Nat}
    (run : (machine τ).Reachable Fresh (initial τ minor) w) :
    (∀ t s, w.loop.point t ≠ .finished → w.taskState t = some (some s) →
      t ∈ (w.scope s).tasks ∧ ∀ x, x ≠ s → t ∉ (w.scope x).tasks) ∧
    (∀ p x, x ∈ (w.scope p).childScopes ↔
      (w.scope x).active = true ∧ (w.scope x).parentScope = some p) ∧
    (∀ x, ¬ Relation.TransGen (fun y p => (w.scope y).parentScope = some p) x x) ∧
    (∀ a w' o, Fresh w a → step w a = some (w', o) →
      o ≠ .error .keyError ∧ o ≠ .error .assertionError) ∧
    ∀ t c, w.current = some t →
      ((w.scope c).active = false ∨ (w.scope c).hostTask ≠ some t ∨
          w.taskState t ≠ some (some c) →
        ∀ exc, ∃ message, step w (.exit c exc) = some (w, .error (.runtimeError message))) ∧
      ((w.scope c).active = true →
        ∃ message, step w (.enter c) = some (w, .error (.runtimeError message))) := by
  obtain ⟨reg, called⟩ := registered_of_run run
  refine ⟨fun t s alive hs => ?_, reg.child, reg.acyclic, fun a w' o ok h => ?_, fun t c hcur => ?_⟩
  · have hscope : w.currentScope t = some s := by simp [World.currentScope, hs]
    refine ⟨reg.inside t s (.inl alive) hscope, fun x hx hmem => hx ?_⟩
    exact Option.some.inj ((reg.only t x hmem).symm.trans hscope)
  · cases step_change reg called ok h with
    | refused he => rcases he with ⟨-, message, rfl⟩ | ⟨-, rfl⟩ <;> simp
    | entered | left | charged | placed | scheduled => simp
  · constructor
    · intro hmisuse exc
      rcases reg.exit_cases hcur c exc with ⟨message, heq⟩ | ⟨hactive, hhost, hin, -⟩
      · exact ⟨message, by simp [step, hcur, heq, Except.map]⟩
      · have hstate : w.taskState t = some (some c) := by
          simpa [World.currentScope, Option.join_eq_some_iff] using hin
        simp [hactive, hhost, hstate] at hmisuse
    · intro hactive
      have heq : step w (.enter c) = some (w, .error usedTwice) := by
        simp [step, hcur, World.enter, hactive, Except.map]
      exact ⟨_, heq⟩

/-- Task 0 opens scope 1 inside scope 0, tries to leave the outer one first, and
task 1, spawned into scope 0, tries to leave scope 1 and ends inside scope 2. -/
def tangled : World (Fin 2) :=
  ((machine (Fin 2)).exec Fresh (initial (Fin 2) 12)
    [.createTask 0, .resume 0, .enter 0, .spawn 0 1, .enter 1, .exit 0 none, .enter 1, .sleep,
      .resume 1, .enter 2, .exit 1 none, .finish, .taskDone 1 0, .resume 0]).get (by decide)

theorem scope_tree_invariant_tangled :
    (tangled.scope 1).active = true ∧ tangled.taskState 0 = some (some 1) ∧
      0 ∈ (tangled.scope 1).tasks ∧
      ∃ message, step tangled (.exit 0 none) = some (tangled, .error (.runtimeError message)) := by
  have run : (machine (Fin 2)).Reachable Fresh (initial (Fin 2) 12) tangled :=
    Machine.exec_get_reachable _ _ _
  obtain ⟨hinside, -, -, -, hmisuse⟩ := scope_tree_invariant run
  have hstate : tangled.taskState 0 = some (some 1) := by decide
  exact ⟨by decide, hstate, (hinside 0 1 (by decide) hstate).1,
    (hmisuse 0 0 (by decide)).1 (.inr (.inr (by simp [hstate]))) none⟩

end Anyio.CancelScope
