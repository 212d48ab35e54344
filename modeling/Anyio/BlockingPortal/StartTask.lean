import Anyio.BlockingPortal.Exits

/-!
# `BlockingPortal.start_task()`

The thread that calls `start_task()` waits for a second future, which the task
completes with `task_status.started()`, or the callback `task_done()` with the
end of the first one. `start_task()` always ends with what came first.

## Implementation notes

The call of `_call_func()` is that of `CallFunc`. Nobody else has its future
before `start_task()` has returned it. `task_status` is used in the event loop
thread, where nothing else runs between two awaits.
-/

namespace Anyio.BlockingPortal

open Library Concurrent

/-- What `task_status_future` is completed with besides a value. -/
inductive NotStarted (ε : Type*)
  | thrown (exc : Thrown ε)
  | taskExited
  deriving DecidableEq, Repr

structure Starting (ρ ε ν : Type*) where
  call : State ρ ε
  status : Future (Except (NotStarted ε) ν)
  returned : Bool

def Starting.initial (ρ ε ν : Type*) : Starting ρ ε ν where
  call := BlockingPortal.initial ρ ε
  status := .pending
  returned := false

inductive StartAction (ρ ε ν : Type*)
  | call (action : Action ρ ε)
  | started (value : ν)
  | ends
  deriving DecidableEq, Repr

variable {ρ ε ν : Type*}

/-- `task_done()`, which `future` calls when it is done. -/
def taskDone (future : Future (Except (Thrown ε) ρ)) (status : Future (Except (NotStarted ε) ν)) :
    Future (Except (NotStarted ε) ν) :=
  if status.runsCallbacks then status
  else
    match future with
    | .cancelled | .cancelledAndNotified => status.cancel
    | .finished (.error exc) => (status.complete (.error (.thrown exc))).getD status
    | .finished (.ok _) => (status.complete (.error .taskExited)).getD status
    | _ => status

def Action.isCancel : Action ρ ε → Bool
  | .cancel _ => true
  | _ => false

namespace Starting

/-- A second `started()` raises `InvalidStateError` in the task. `ends` is the end of
`start_task()`. -/
def step (s : Starting ρ ε ν) : StartAction ρ ε ν → Option (Starting ρ ε ν × Unit)
  | .call action =>
      if action.isCancel = true ∧ s.returned = false then none
      else
        (BlockingPortal.step s.call action).map fun r =>
          ({ s with
              call := r.1
              status :=
                if s.call.future.runsCallbacks then s.status else taskDone r.1.future s.status },
            ())
  | .started value =>
      if s.call.point.yields then
        some ({ s with status := (s.status.complete (.ok value)).getD s.status }, ())
      else none
  | .ends =>
      if s.status.runsCallbacks = true ∧ s.returned = false then
        some ({ s with returned := true }, ())
      else none

abbrev machine (ρ ε ν : Type*) : Machine (Starting ρ ε ν) (StartAction ρ ε ν) Unit where
  step := step

/-- What has happened in the call, and the value of the first `started()` that came in time. -/
structure Seen (ν : Type*) where
  call : History
  first : Option ν
  deriving DecidableEq, Repr

def see (h : Seen ν) (s : Starting ρ ε ν) : StartAction ρ ε ν → Unit → Seen ν
  | .call action, _ => { h with call := record h.call s.call action () }
  | .started value, _ =>
      if s.status.runsCallbacks then h else { h with first := h.first.or (some value) }
  | .ends, _ => h

abbrev recorded (ρ ε ν : Type*) :
    Machine (Starting ρ ε ν × Seen ν) (StartAction ρ ε ν) Unit :=
  (machine ρ ε ν).withHistory see

end Starting

/-- What `start_task()` answers if the task never calls `started()`. -/
def answerOf : Future (Except (Thrown ε) ρ) → Future (Except (NotStarted ε) ν)
  | .cancelled | .cancelledAndNotified => .cancelled
  | .finished (.error exc) => .finished (.error (.thrown exc))
  | .finished (.ok _) => .finished (.error .taskExited)
  | _ => .pending

theorem runsCallbacks_answerOf (f : Future (Except (Thrown ε) ρ)) :
    (answerOf f : Future (Except (NotStarted ε) ν)).runsCallbacks = f.runsCallbacks := by
  cases f with
  | finished result => cases result <;> rfl
  | _ => rfl

/-- The callback gives the answer. -/
theorem taskDone_pending (f : Future (Except (Thrown ε) ρ)) :
    taskDone f (.pending : Future (Except (NotStarted ε) ν)) = answerOf f := by
  cases f with
  | finished result => cases result <;> rfl
  | _ => rfl

theorem answerOf_not_done {f : Future (Except (Thrown ε) ρ)} (h : f.runsCallbacks = false) :
    (answerOf f : Future (Except (NotStarted ε) ν)) = .pending := by
  cases f <;> first | rfl | cases h

variable {c c' : State ρ ε} {a : Action ρ ε} {o : Unit}

theorem cancel_of_done {f : Future (Except (Thrown ε) ρ)} (h : f.runsCallbacks = true) :
    f.cancel = f := by
  cases f <;> first | rfl | cases h

theorem isCancelled_complete {α : Type*} {f f' : Future α} {result : α}
    (h : f.complete result = some f') : f'.isCancelled = false := by
  cases f with
  | pending | running =>
      rw [← Option.some.inj h]
      rfl
  | _ => cases h

/-- The steps other than `future.cancel()` and those at the end of `_call_func()` leave the
future. -/
theorem advance_future (hs : advance c = some c') :
    c'.future = c.future ∨ (∃ result, c.future.complete result = some c'.future) ∨
      c'.future = c.future.cancel ∧ c'.point = .notifying ∨
      c.future.setRunningOrNotifyCancel = some c'.future ∧ c.point = .notifying := by
  have hcomplete : ∀ result p, complete c result p = c' →
      c'.future = c.future ∨ ∃ result, c.future.complete result = some c'.future := by
    intro result p h
    rw [complete] at h
    split at h
    · rename_i hf
      rw [← h]
      exact .inr ⟨result, hf⟩
    · rw [← h]
      exact .inl rfl
  cases hp : c.point with
  | created => simp [advance, hp] at hs
  | calling => simp [advance, hp] at hs
  | awaiting => simp [advance, hp] at hs
  | ended raised => simp [advance, hp] at hs
  | entered | addingCallback | checkingResult retval | checkingException exc =>
      simp only [advance, hp] at hs
      split_ifs at hs <;> cases hs <;> exact .inl rfl
  | settingResult retval =>
      cases retval with
      | none =>
          simp only [advance, hp, Option.some.injEq] at hs
          rw [← hs]
          exact .inl rfl
      | some value =>
          simp only [advance, hp, Option.some.injEq] at hs
          exact (hcomplete _ _ hs).imp_right .inl
  | settingException exc =>
      simp only [advance, hp, Option.some.injEq] at hs
      exact (hcomplete _ _ hs).imp_right .inl
  | cancelling =>
      simp only [advance, hp, Option.some.injEq] at hs
      rw [← hs]
      exact .inr (.inr (.inl ⟨rfl, rfl⟩))
  | notifying =>
      simp only [advance, hp] at hs
      split at hs
      · rename_i hf
        cases hs
        exact .inr (.inr (.inr ⟨hf, rfl⟩))
      · cases hs
        exact .inl rfl

theorem advance_notifying (hp : c.point = .notifying) (hs : advance c = some c') :
    c'.point.isEnded = true := by
  simp only [advance, hp] at hs
  split at hs <;> cases hs <;> rfl

/-- The other steps, apart from `future.cancel()`. -/
theorem step_future (hs : step c a = some (c', o)) (hcancel : a.isCancel = false) :
    a = .advance ∧ advance c = some c' ∨ c'.future = c.future ∧
      (c.point = .notifying ∨ c.point.isEnded = true → c'.point = c.point) := by
  cases a with
  | start =>
      right
      cases hp : c.point <;> simp only [step, hp] at hs <;> cases hs
      exact ⟨rfl, by simp [Point.isEnded]⟩
  | returnsAwaitable =>
      right
      cases hp : c.point <;> simp only [step, hp] at hs <;> cases hs
      exact ⟨rfl, by simp [Point.isEnded]⟩
  | returns value =>
      obtain ⟨hp, ⟨⟩⟩ := Option.ite_none_right_eq_some.mp hs
      have hopen := Point.inFunction_open hp
      refine .inr ⟨rfl, ?_⟩
      rintro (h | h)
      · rw [h] at hp
        cases hp
      · rw [hopen] at h
        cases h
  | raises exc =>
      obtain ⟨hp, ⟨⟩⟩ := Option.ite_none_right_eq_some.mp hs
      have hopen := Point.inFunction_open hp
      refine .inr ⟨rfl, ?_⟩
      rintro (h | h)
      · rw [h] at hp
        cases hp
      · rw [hopen] at h
        cases h
  | swallowed =>
      right
      cases hp : c.point <;> simp only [step, hp] at hs <;> try cases hs
      obtain ⟨-, ⟨⟩⟩ := Option.ite_none_right_eq_some.mp hs
      exact ⟨rfl, by simp [Point.isEnded]⟩
  | advance =>
      obtain ⟨_, hadvance, ⟨⟩⟩ := Option.map_eq_some_iff.mp hs
      exact .inl ⟨rfl, hadvance⟩
  | cancel loopThread => cases hcancel
  | cancelScope =>
      obtain ⟨-, ⟨⟩⟩ := Option.ite_none_right_eq_some.mp hs
      exact .inr ⟨rfl, fun _ => rfl⟩
  | stop =>
      cases hs
      exact .inr ⟨rfl, fun _ => rfl⟩

/-- A future that is done keeps its answer. -/
theorem answerOf_step (hs : step c a = some (c', o)) (hdone : c.future.runsCallbacks = true) :
    (answerOf c'.future : Future (Except (NotStarted ε) ν)) = answerOf c.future := by
  by_cases hcancel : a.isCancel = true
  · cases a with
    | cancel loopThread =>
        obtain ⟨-, ⟨⟩⟩ := Option.ite_none_right_eq_some.mp hs
        change answerOf c.future.cancel = _
        rw [cancel_of_done hdone]
    | _ => cases hcancel
  · rw [Bool.not_eq_true] at hcancel
    rcases step_future hs hcancel with ⟨-, hadvance⟩ | ⟨hsame, -⟩
    · rcases advance_future hadvance with hsame | ⟨result, hresult⟩ | ⟨hcancelled, -⟩ | ⟨hset, -⟩
      · rw [hsame]
      · cases hf : c.future <;> rw [hf] at hresult hdone <;> first | cases hresult | cases hdone
      · rw [hcancelled, cancel_of_done hdone]
      · cases hf : c.future with
        | cancelled =>
            rw [hf] at hset
            rw [← Option.some.inj hset]
            rfl
        | pending | running =>
            rw [hf] at hdone
            cases hdone
        | cancelledAndNotified | finished result =>
            rw [hf] at hset
            cases hset
    · rw [hsame]

namespace Starting

variable {s s' : Starting ρ ε ν} {h : Seen ν} {act : StartAction ρ ε ν}

/-- What holds of `start_task()` and its two futures at every step. -/
structure Answered (s : Starting ρ ε ν) (h : Seen ν) : Prop where
  accounted : Accounted s.call h.call.exitedCancelled
  windowed : Windowed s.call h.call.raced
  value : ∀ v, h.first = some v → s.status = .finished (.ok v)
  without : h.first = none → s.status = answerOf s.call.future
  alone : s.returned = false → h.call.exitedCancelled = false ∧ h.call.raced = false ∧
    (s.call.future.isCancelled = true → s.call.point = .notifying ∨ s.call.point.isEnded = true)

theorem Answered.initial : Answered (initial ρ ε ν) ⟨.empty, none⟩ where
  accounted := .initial
  windowed := .initial
  value v hv := by cases hv
  without _ := rfl
  alone _ := ⟨rfl, rfl, fun hcancelled => by cases hcancelled⟩

/-- As long as nobody else has the future, it is cancelled only at the end of `_call_func()`. -/
theorem alone_step {c c' : State ρ ε} {a : Action ρ ε} {o : Unit}
    (hs : BlockingPortal.step c a = some (c', o)) (hcancel : a.isCancel = false)
    (halone : c.future.isCancelled = true → c.point = .notifying ∨ c.point.isEnded = true) :
    exitsCancelled c a = false ∧ races c a = false ∧
      (c'.future.isCancelled = true → c'.point = .notifying ∨ c'.point.isEnded = true) := by
  refine ⟨?_, ?_, ?_⟩
  · cases a with
    | advance =>
        rw [exitsCancelled, Bool.and_eq_false_iff]
        by_cases hcancelled : c.future.isCancelled = true
        · left
          rcases halone hcancelled with hp | hended
          · rw [hp]
            rfl
          · cases hp : c.point <;> rw [hp] at hended <;> first | rfl | cases hended
        · exact .inr (Bool.eq_false_iff.mpr hcancelled)
    | _ => rfl
  · cases a <;> first | rfl | cases hcancel
  · intro hcancelled
    rcases step_future hs hcancel with ⟨-, hadvance⟩ | ⟨hsame, hpoint⟩
    · rcases advance_future hadvance with hsame | ⟨result, hresult⟩ | ⟨-, hp⟩ | ⟨-, hp⟩
      · rw [hsame] at hcancelled
        rcases halone hcancelled with hp | hended
        · exact .inr (advance_notifying hp hadvance)
        · cases hp : c.point <;> rw [hp] at hended <;> cases hended
          simp [advance, hp] at hadvance
      · rw [isCancelled_complete hresult] at hcancelled
        cases hcancelled
      · exact .inl hp
      · exact .inr (advance_notifying hp hadvance)
    · rw [hsame] at hcancelled
      rw [hpoint (halone hcancelled)]
      exact halone hcancelled

theorem Answered.call (inv : Answered s h) {a : Action ρ ε} {c' : State ρ ε} {o : Unit}
    (hs : BlockingPortal.step s.call a = some (c', o))
    (hcancel : s.returned = false → a.isCancel = false) :
    Answered
      { s with
        call := c'
        status := if s.call.future.runsCallbacks then s.status else taskDone c'.future s.status }
      { h with call := record h.call s.call a () } where
  accounted := inv.accounted.step hs
  windowed := inv.windowed.step inv.accounted hs
  value v hv := by
    have hstatus := inv.value v hv
    simp [taskDone, hstatus, Future.runsCallbacks]
  without hfirst := by
    have hstatus := inv.without hfirst
    dsimp only
    by_cases hdone : s.call.future.runsCallbacks = true
    · rw [if_pos hdone, hstatus, answerOf_step hs hdone]
    · rw [if_neg hdone, hstatus, answerOf_not_done (Bool.eq_false_iff.mpr hdone),
        taskDone_pending]
  alone hreturned := by
    obtain ⟨hexited, hraced, halone⟩ := inv.alone hreturned
    obtain ⟨hexits, hraces, hnext⟩ := alone_step hs (hcancel hreturned) halone
    exact ⟨by simp [record, hexited, hexits], by simp [record, hraced, hraces], hnext⟩

theorem Answered.started (inv : Answered s h) (value : ν) :
    Answered { s with status := (s.status.complete (.ok value)).getD s.status }
      (see h s (.started value) ()) := by
  by_cases hdone : s.status.runsCallbacks = true
  · have hstatus : (s.status.complete (.ok value)).getD s.status = s.status := by
      cases hf : s.status <;> rw [hf] at hdone <;> first | rfl | cases hdone
    rw [hstatus]
    simpa only [see, if_pos hdone] using inv
  · have hfirst : h.first = none := by
      by_contra hsome
      obtain ⟨v, hv⟩ := Option.ne_none_iff_exists'.mp hsome
      rw [inv.value v hv] at hdone
      exact hdone rfl
    have hstatus : (s.status.complete (.ok value)).getD s.status = .finished (.ok value) := by
      cases hf : s.status <;> rw [hf] at hdone <;> first | rfl | exact absurd rfl hdone
    rw [hstatus]
    simp only [see, if_neg hdone, hfirst, Option.none_or]
    constructor
    · exact inv.accounted
    · exact inv.windowed
    · exact fun v hv => by rw [Option.some.inj hv]
    · exact fun hnone => by cases hnone
    · exact inv.alone

theorem Answered.step (inv : Answered s h) {o : Unit} (hs : step s act = some (s', o)) :
    Answered s' (see h s act ()) := by
  cases act with
  | call a =>
      obtain ⟨hnot, hs⟩ := Option.ite_none_left_eq_some.mp hs
      obtain ⟨⟨c', o'⟩, hr, heq⟩ := Option.map_eq_some_iff.mp hs
      cases heq
      apply inv.call hr
      intro hreturned
      by_contra hcancel
      exact hnot ⟨Bool.not_eq_false _ ▸ hcancel, hreturned⟩
  | started value =>
      obtain ⟨-, ⟨⟩⟩ := Option.ite_none_right_eq_some.mp hs
      exact inv.started value
  | ends =>
      obtain ⟨-, ⟨⟩⟩ := Option.ite_none_right_eq_some.mp hs
      exact ⟨inv.accounted, inv.windowed, inv.value, inv.without, fun h => by cases h⟩

/-- In every run, `start_task()` can end once the task has ended, and it ends with what came
first: the value of the first `started()`, or else the exception of the task, its cancellation, or
a `RuntimeError` if the task just returned. Until it has ended nothing has gone wrong in
`_call_func()`, and a task that ends before it leaves the future it returns notified. -/
theorem start_task_answers
    (run : (recorded ρ ε ν).Reachable Machine.anyStep (initial ρ ε ν, ⟨.empty, none⟩) (s, h)) :
    s.status = h.first.elim (answerOf s.call.future) (fun v => .finished (.ok v)) ∧
      (s.call.point.isEnded = true → s.status.runsCallbacks = true) ∧
      (s.returned = false → (s.call.point.isEnded = true → s.call.future.isNotified = true) ∧
        s.call.point ≠ .ended (some .invalidStateError)) := by
  have inv : Answered s h := by
    apply run.invariant_history (I := Answered) .initial
    intro s h a s' o inv _ hs
    exact inv.step hs
  have hstatus : s.status = h.first.elim (answerOf s.call.future) fun v => .finished (.ok v) := by
    cases hfirst : h.first with
    | none => exact inv.without hfirst
    | some v => exact inv.value v hfirst
  refine ⟨hstatus, ?_, ?_⟩
  · intro hended
    rw [hstatus]
    cases h.first with
    | some v => rfl
    | none =>
        rw [Option.elim_none, runsCallbacks_answerOf]
        rcases inv.accounted.ended hended with ⟨-, hnotified⟩ | ⟨-, hcancelled⟩
        · cases hf : s.call.future <;> rw [hf] at hnotified <;> first | rfl | cases hnotified
        · rw [hcancelled]
          rfl
  · intro hreturned
    obtain ⟨hexited, hraced, -⟩ := inv.alone hreturned
    constructor
    · intro hended
      rcases inv.accounted.ended hended with ⟨-, hnotified⟩ | ⟨hlate, -⟩
      · exact hnotified
      · rw [hexited] at hlate
        cases hlate
    · intro hp
      have hafter := (inv.windowed.after _ hp).mp rfl
      rw [hraced] at hafter
      cases hafter

/-- A task that raises an exception after `started()`, and one that raises before. -/
theorem start_task_answers_raised :
    (∃ s h, (recorded Unit Nat Nat).Reachable Machine.anyStep
        (initial Unit Nat Nat, ⟨.empty, none⟩) (s, h) ∧
      s.call.future = .finished (.error (.exception 1)) ∧ s.status = .finished (.ok 5)) ∧
    ∃ s h, (recorded Unit Nat Nat).Reachable Machine.anyStep
        (initial Unit Nat Nat, ⟨.empty, none⟩) (s, h) ∧
      s.status = .finished (.error (.thrown (.exception 1))) := by
  have early : (recorded Unit Nat Nat).Reachable Machine.anyStep
      (initial Unit Nat Nat, ⟨.empty, none⟩) _ :=
    Machine.exec_get_reachable _
      [.call .start, .started 5, .ends, .call (.raises (.exception 1)), .call .advance,
        .call .advance] rfl
  have late : (recorded Unit Nat Nat).Reachable Machine.anyStep
      (initial Unit Nat Nat, ⟨.empty, none⟩) _ :=
    Machine.exec_get_reachable _
      [.call .start, .call (.raises (.exception 1)), .call .advance, .call .advance,
        .started 5] rfl
  exact ⟨⟨_, _, early, rfl, (start_task_answers early).1⟩, _, _, late,
    (start_task_answers late).1⟩

end Starting

end Anyio.BlockingPortal
