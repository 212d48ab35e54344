import Anyio.BlockingPortal.CallFunc

/-!
# How a call through a portal ends

The future of a call ends notified unless `_call_func()` leaves through its
`else` branch or its general handler while the future is cancelled, and
`_call_func()` raises `InvalidStateError` exactly when the future is cancelled
between the test and the call that completes it.
-/

namespace Anyio.BlockingPortal

open Library Concurrent

variable {ρ ε : Type*} {s s' : State ρ ε} {a : Action ρ ε} {o : Unit} {late raced : Bool}

/-- The branches that test whether the future is cancelled and complete it if it is not. -/
def Point.completes : Point ρ ε → Bool
  | .checkingResult _ => true
  | .settingResult _ => true
  | .checkingException _ => true
  | .settingException _ => true
  | _ => false

/-- `_call_func()` goes on in one of these branches although the future is cancelled. -/
def exitsCancelled (s : State ρ ε) : Action ρ ε → Bool
  | .advance => s.point.completes && s.future.isCancelled
  | _ => false

/-- `_call_func()` has tested the future and is about to complete it. -/
def Point.sets : Point ρ ε → Bool
  | .settingResult _ => true
  | .settingException _ => true
  | _ => false

/-- The future is cancelled between the test and the call that completes it. -/
def races (s : State ρ ε) : Action ρ ε → Bool
  | .cancel _ => s.point.sets
  | _ => false

/-- Whether these two things have happened in a run. -/
structure History where
  exitedCancelled : Bool
  raced : Bool
  deriving DecidableEq, Repr

def History.empty : History := ⟨false, false⟩

def record (h : History) (s : State ρ ε) (a : Action ρ ε) (_ : Unit) : History where
  exitedCancelled := h.exitedCancelled || exitsCancelled s a
  raced := h.raced || races s a

abbrev recorded (ρ ε : Type*) : Machine (State ρ ε × History) (Action ρ ε) Unit :=
  (machine ρ ε).withHistory record

/-- What holds of a call and its future at every step. -/
structure Accounted (s : State ρ ε) (late : Bool) : Prop where
  going : s.point.isEnded = false → late = false ∧ (s.future = .pending ∨ s.future = .cancelled)
  ended : s.point.isEnded = true →
    late = false ∧ s.future.isNotified = true ∨ late = true ∧ s.future = .cancelled
  scope : s.scopeCancelled = true ∨ s.cancelRequested = true → s.future.isCancelled = true
  unbound : s.point = .checkingResult none ∨ s.point = .settingResult none →
    s.future.isCancelled = true
  notifying : s.point = .notifying → s.future = .cancelled

theorem Accounted.initial : Accounted (initial ρ ε) false where
  going _ := ⟨rfl, .inl rfl⟩
  ended h := by cases h
  scope h := by simp [BlockingPortal.initial] at h
  unbound h := by simp [BlockingPortal.initial] at h
  notifying h := by cases h

/-- A step inside of `_call_func()` that leaves the future as it is. -/
theorem Accounted.walk (acc : Accounted s late) (hopen : s.point.isEnded = false)
    (hfuture : s'.future = s.future) (hp : s'.point.isEnded = false)
    (hscope : s'.scopeCancelled = true ∨ s'.cancelRequested = true → s.future.isCancelled = true)
    (hunbound : s'.point = .checkingResult none ∨ s'.point = .settingResult none →
      s.future.isCancelled = true)
    (hnotifying : s'.point ≠ .notifying) : Accounted s' late where
  going _ := hfuture ▸ acc.going hopen
  ended hended := by simp [hp] at hended
  scope := hfuture ▸ hscope
  unbound := hfuture ▸ hunbound
  notifying h := absurd h hnotifying

/-- The last step of `_call_func()`. -/
theorem Accounted.finish {future : Future (Except (Thrown ε) ρ)} {p : Point ρ ε}
    (hp : p.isEnded = true)
    (hended : late = false ∧ future.isNotified = true ∨ late = true ∧ future = .cancelled)
    (hscope : s.scopeCancelled = true ∨ s.cancelRequested = true → future.isCancelled = true) :
    Accounted { s with future := future, point := p } late where
  going hopen := by simp [hp] at hopen
  ended _ := hended
  scope := hscope
  unbound h := by rcases h with rfl | rfl <;> simp [Point.isEnded] at hp
  notifying h := by
    change p = _ at h
    simp [h, Point.isEnded] at hp

theorem leave_isEnded (exc : Thrown ε) : (leave exc : Point ρ ε).isEnded = true := by
  cases exc <;> rfl

/-- While the call goes on, its future is cancelled or pending. -/
theorem Accounted.future_eq (acc : Accounted s late) (hopen : s.point.isEnded = false) :
    s.future = if s.future.isCancelled then .cancelled else .pending := by
  rcases (acc.going hopen).2 with h | h <;> rw [h] <;> rfl

/-- A branch that finds the future cancelled leaves it without a notification. -/
theorem Accounted.dropped (acc : Accounted s late) (hopen : s.point.isEnded = false)
    (hcancelled : s.future.isCancelled = true) {p : Point ρ ε} (hp : p.isEnded = true) :
    Accounted { s with point := p } true := by
  have hfuture := acc.future_eq hopen
  rw [if_pos hcancelled] at hfuture
  exact .finish hp (.inr ⟨rfl, hfuture⟩) acc.scope

/-- A branch that completes the future raises when the future is cancelled. -/
theorem Accounted.completed (acc : Accounted s late) (hopen : s.point.isEnded = false)
    (hpoint : s.point.completes = true) {p : Point ρ ε} (hp : p.isEnded = true)
    (result : Except (Thrown ε) ρ) :
    Accounted (complete s result p) (late || exitsCancelled s .advance) := by
  have hfuture := acc.future_eq hopen
  rw [complete]
  by_cases hcancelled : s.future.isCancelled = true
  · have hnone : s.future.complete result = none := by
      rw [hfuture, if_pos hcancelled]
      rfl
    rw [hnone]
    simpa [exitsCancelled, hpoint, hcancelled] using
      acc.dropped hopen hcancelled (p := .ended (some .invalidStateError)) rfl
  · have hsome : s.future.complete result = some (.finished result) := by
      rw [hfuture, if_neg hcancelled]
      rfl
    rw [hsome]
    refine .finish hp (.inl ⟨?_, rfl⟩) fun h => absurd (acc.scope h) hcancelled
    simp [exitsCancelled, (acc.going hopen).1, hcancelled]

/-- A branch that tests the future goes on only while it is pending. -/
theorem Accounted.checked (acc : Accounted s late) (hopen : s.point.isEnded = false)
    (hpoint : s.point.completes = true) (hs : advance s = some s') {p q : Point ρ ε}
    (hp : p.isEnded = true) (hq : q.isEnded = false) (hnotifying : q ≠ .notifying)
    (hunbound : q = .checkingResult none ∨ q = .settingResult none → s.future.isCancelled = true)
    (hadvance : advance s =
      if s.future.isCancelled then some { s with point := p } else some { s with point := q }) :
    Accounted s' (late || exitsCancelled s .advance) := by
  rw [hadvance] at hs
  split_ifs at hs with hcancelled
  · cases hs
    simpa [exitsCancelled, hpoint, hcancelled] using acc.dropped hopen hcancelled hp
  · cases hs
    have hlate : (late || exitsCancelled s .advance) = late := by simp [exitsCancelled, hcancelled]
    rw [hlate]
    exact acc.walk hopen rfl hq acc.scope hunbound hnotifying

theorem Accounted.advance (acc : Accounted s late) (hs : advance s = some s') :
    Accounted s' (late || exitsCancelled s .advance) := by
  cases hp : s.point with
  | created => simp [BlockingPortal.advance, hp] at hs
  | calling => simp [BlockingPortal.advance, hp] at hs
  | awaiting => simp [BlockingPortal.advance, hp] at hs
  | ended raised => simp [BlockingPortal.advance, hp] at hs
  | entered =>
      have hopen : s.point.isEnded = false := by rw [hp]; rfl
      simp only [exitsCancelled, hp, Point.completes, Bool.false_and, Bool.or_false]
      simp only [BlockingPortal.advance, hp] at hs
      split_ifs at hs with hcancelled
      · cases hs
        exact acc.walk hopen rfl rfl (fun _ => hcancelled) (by simp) (by simp)
      · cases hs
        exact acc.walk hopen rfl rfl acc.scope (by simp) (by simp)
  | addingCallback =>
      have hopen : s.point.isEnded = false := by rw [hp]; rfl
      simp only [exitsCancelled, hp, Point.completes, Bool.false_and, Bool.or_false]
      simp only [BlockingPortal.advance, hp] at hs
      split_ifs at hs <;> cases hs <;>
        exact acc.walk hopen rfl rfl acc.scope (by simp) (by simp)
  | checkingResult retval =>
      have hopen : s.point.isEnded = false := by rw [hp]; rfl
      refine acc.checked hopen (by rw [hp]; rfl) hs (p := .ended none)
        (q := .settingResult retval) rfl rfl (by simp) ?_
        (by simp only [BlockingPortal.advance, hp])
      rintro (h | h)
      · cases h
      · cases h
        exact acc.unbound (.inl hp)
  | settingResult retval =>
      have hopen : s.point.isEnded = false := by rw [hp]; rfl
      cases retval with
      | none =>
          -- the test has found the future cancelled, so this point is not reached
          have hcancelled := acc.unbound (.inr hp)
          simp only [BlockingPortal.advance, hp, Option.some.injEq] at hs
          rw [← hs]
          simpa [exitsCancelled, hp, Point.completes, hcancelled] using
            acc.dropped hopen hcancelled (p := .ended (some .unboundLocalError)) rfl
      | some value =>
          simp only [BlockingPortal.advance, hp, Option.some.injEq] at hs
          exact hs ▸ acc.completed hopen (by rw [hp]; rfl) rfl (.ok value)
  | checkingException exc =>
      have hopen : s.point.isEnded = false := by rw [hp]; rfl
      exact acc.checked hopen (by rw [hp]; rfl) hs (leave_isEnded exc)
        (q := .settingException exc) rfl (by simp) (by simp)
        (by simp only [BlockingPortal.advance, hp])
  | settingException exc =>
      have hopen : s.point.isEnded = false := by rw [hp]; rfl
      simp only [BlockingPortal.advance, hp, Option.some.injEq] at hs
      exact hs ▸ acc.completed hopen (by rw [hp]; rfl) (leave_isEnded exc) (.error exc)
  | cancelling =>
      have hopen : s.point.isEnded = false := by rw [hp]; rfl
      have hfuture : s.future.cancel = .cancelled := by
        rcases (acc.going hopen).2 with h | h <;> rw [h] <;> rfl
      simp only [exitsCancelled, hp, Point.completes, Bool.false_and, Bool.or_false]
      simp only [BlockingPortal.advance, hp, Option.some.injEq] at hs
      rw [← hs]
      constructor
      case going => exact fun _ => ⟨(acc.going hopen).1, .inr hfuture⟩
      case ended => exact fun h => by cases h
      case scope => exact fun _ => congrArg Future.isCancelled hfuture
      case unbound => exact fun _ => congrArg Future.isCancelled hfuture
      case notifying => exact fun _ => hfuture
  | notifying =>
      have hopen : s.point.isEnded = false := by rw [hp]; rfl
      simp only [exitsCancelled, hp, Point.completes, Bool.false_and, Bool.or_false]
      simp only [BlockingPortal.advance, hp, acc.notifying hp, Future.setRunningOrNotifyCancel,
        Option.some.injEq] at hs
      rw [← hs]
      exact .finish rfl (.inl ⟨(acc.going hopen).1, rfl⟩) fun _ => rfl

theorem Accounted.cancel (acc : Accounted s late) (loopThread : Bool) :
    Accounted (cancel s loopThread) late where
  going hopen := by
    refine (acc.going hopen).imp_right fun h => .inr ?_
    rcases h with h | h <;> simp [BlockingPortal.cancel, h, Future.cancel]
  ended hended := by
    refine (acc.ended hended).imp (And.imp_right fun h => ?_) (And.imp_right fun h => ?_)
    · simpa [BlockingPortal.cancel] using h
    · simp [BlockingPortal.cancel, h, Future.cancel]
  scope h := by
    simp only [BlockingPortal.cancel, Bool.or_eq_true, Bool.and_eq_true] at h ⊢
    rcases h with h | h | h
    · exact Future.isCancelled_cancel (acc.scope (.inl h))
    · exact Future.isCancelled_cancel (acc.scope (.inr h))
    · exact h.1.1.1.2
  unbound h := Future.isCancelled_cancel (acc.unbound h)
  notifying h := by simp [BlockingPortal.cancel, acc.notifying h, Future.cancel]

theorem Point.inFunction_open {p : Point ρ ε} (h : p.inFunction = true) : p.isEnded = false := by
  cases p <;> first | rfl | cases h

theorem Accounted.step (acc : Accounted s late) (hs : step s a = some (s', o)) :
    Accounted s' (late || exitsCancelled s a) := by
  cases a with
  | start =>
      simp only [exitsCancelled, Bool.or_false]
      cases hp : s.point <;> simp only [BlockingPortal.step, hp] at hs <;> cases hs
      exact acc.walk (by rw [hp]; rfl) rfl rfl acc.scope (by simp) (by simp)
  | returnsAwaitable =>
      simp only [exitsCancelled, Bool.or_false]
      cases hp : s.point <;> simp only [BlockingPortal.step, hp] at hs <;> cases hs
      exact acc.walk (by rw [hp]; rfl) rfl rfl acc.scope (by simp) (by simp)
  | returns value =>
      simp only [exitsCancelled, Bool.or_false]
      obtain ⟨hp, ⟨⟩⟩ := Option.ite_none_right_eq_some.mp hs
      exact acc.walk (Point.inFunction_open hp) rfl rfl acc.scope (by simp) (by simp)
  | raises exc =>
      simp only [exitsCancelled, Bool.or_false]
      obtain ⟨hp, ⟨⟩⟩ := Option.ite_none_right_eq_some.mp hs
      refine acc.walk (Point.inFunction_open hp) rfl ?_ acc.scope ?_ ?_ <;>
        cases exc <;> simp [handler, Point.isEnded]
  | swallowed =>
      simp only [exitsCancelled, Bool.or_false]
      cases hp : s.point <;> simp only [BlockingPortal.step, hp] at hs <;> try cases hs
      obtain ⟨hscope, ⟨⟩⟩ := Option.ite_none_right_eq_some.mp hs
      exact acc.walk (by rw [hp]; rfl) rfl rfl acc.scope (fun _ => acc.scope (.inl hscope))
        (by simp)
  | advance =>
      obtain ⟨_, hadvance, ⟨⟩⟩ := Option.map_eq_some_iff.mp hs
      exact acc.advance hadvance
  | cancel loopThread =>
      simp only [exitsCancelled, Bool.or_false]
      obtain ⟨-, ⟨⟩⟩ := Option.ite_none_right_eq_some.mp hs
      exact acc.cancel loopThread
  | cancelScope =>
      simp only [exitsCancelled, Bool.or_false]
      obtain ⟨hrequested, ⟨⟩⟩ := Option.ite_none_right_eq_some.mp hs
      exact ⟨acc.going, acc.ended, fun _ => acc.scope (.inr hrequested), acc.unbound,
        acc.notifying⟩
  | stop =>
      simp only [exitsCancelled, Bool.or_false]
      cases hs
      exact ⟨acc.going, acc.ended, acc.scope, acc.unbound, acc.notifying⟩

/-- What holds of the window between the test and the call that completes the future. -/
structure Windowed (s : State ρ ε) (raced : Bool) : Prop where
  window : s.point.sets = true → s.future = if raced then .cancelled else .pending
  before : s.point.sets = false → s.point.isEnded = false → raced = false
  after : ∀ raised, s.point = .ended raised → (raised = some .invalidStateError ↔ raced = true)
  bound : s.point ≠ .settingResult none

theorem Windowed.initial : Windowed (initial ρ ε) false where
  window h := by cases h
  before _ _ := rfl
  after _ h := by cases h
  bound h := by cases h

/-- A step from outside of the window to a point that is neither in it nor the end. -/
theorem Windowed.walk (win : Windowed s raced) (hsets : s.point.sets = false)
    (hopen : s.point.isEnded = false) (hsets' : s'.point.sets = false)
    (hopen' : s'.point.isEnded = false) : Windowed s' raced where
  window h := by simp [hsets'] at h
  before _ _ := win.before hsets hopen
  after raised h := by simp [h, Point.isEnded] at hopen'
  bound h := by simp [h, Point.sets] at hsets'

theorem Windowed.of_ended {raised : Option (Raised ε)} (hp : s'.point = .ended raised)
    (hraised : raised = some .invalidStateError ↔ raced = true) : Windowed s' raced where
  window h := by simp [hp, Point.sets] at h
  before _ h := by simp [hp, Point.isEnded] at h
  after r h := by
    obtain rfl : raised = r := Point.ended.inj (hp.symm.trans h)
    exact hraised
  bound h := by simp [hp] at h

/-- The end of `_call_func()` outside of the window. -/
theorem Windowed.finish (win : Windowed s raced) (hsets : s.point.sets = false)
    (hopen : s.point.isEnded = false) {raised : Option (Raised ε)}
    (hp : s'.point = .ended raised) (hraised : raised ≠ some .invalidStateError) :
    Windowed s' raced := by
  apply Windowed.of_ended hp
  rw [win.before hsets hopen]
  exact iff_of_false hraised Bool.false_ne_true

theorem exists_leave (exc : Thrown ε) :
    ∃ raised, (leave exc : Point ρ ε) = .ended raised ∧ raised ≠ some .invalidStateError := by
  cases exc with
  | cancelledError => exact ⟨none, rfl, by simp⟩
  | exception error => exact ⟨none, rfl, by simp⟩
  | baseException error => exact ⟨_, rfl, by simp⟩

/-- The window opens when the test finds the future pending. -/
theorem Windowed.open (win : Windowed s raced) (acc : Accounted s late)
    (hsets : s.point.sets = false) (hopen : s.point.isEnded = false)
    (hcancelled : s.future.isCancelled ≠ true) (hfuture : s'.future = s.future)
    (hpoint : s'.point.sets = true) (hbound : s'.point ≠ .settingResult none) :
    Windowed s' raced where
  window _ := by
    rw [hfuture, acc.future_eq hopen, if_neg hcancelled, win.before hsets hopen]
    rfl
  before h := by simp [hpoint] at h
  after raised h := by simp [h, Point.sets] at hpoint
  bound := hbound

/-- At the end of the window the call that completes the future raises if it was raced. -/
theorem Windowed.completed (win : Windowed s raced) (hsets : s.point.sets = true)
    (result : Except (Thrown ε) ρ) {raised : Option (Raised ε)}
    (hraised : raised ≠ some .invalidStateError) :
    Windowed (complete s result (.ended raised)) raced := by
  have hfuture := win.window hsets
  cases raced with
  | false =>
      rw [if_neg Bool.false_ne_true] at hfuture
      simp only [complete, hfuture, Future.complete]
      exact .of_ended rfl (iff_of_false hraised Bool.false_ne_true)
  | true =>
      rw [if_pos rfl] at hfuture
      simp only [complete, hfuture, Future.complete]
      exact .of_ended rfl (iff_of_true rfl rfl)

theorem Windowed.advance (win : Windowed s raced) (acc : Accounted s late)
    (hs : advance s = some s') : Windowed s' raced := by
  cases hp : s.point with
  | created => simp [BlockingPortal.advance, hp] at hs
  | calling => simp [BlockingPortal.advance, hp] at hs
  | awaiting => simp [BlockingPortal.advance, hp] at hs
  | ended raised => simp [BlockingPortal.advance, hp] at hs
  | entered =>
      simp only [BlockingPortal.advance, hp] at hs
      split_ifs at hs <;> cases hs <;>
        exact win.walk (by rw [hp]; rfl) (by rw [hp]; rfl) rfl rfl
  | addingCallback =>
      simp only [BlockingPortal.advance, hp] at hs
      split_ifs at hs <;> cases hs <;>
        exact win.walk (by rw [hp]; rfl) (by rw [hp]; rfl) rfl rfl
  | cancelling =>
      simp only [BlockingPortal.advance, hp, Option.some.injEq] at hs
      rw [← hs]
      exact win.walk (by rw [hp]; rfl) (by rw [hp]; rfl) rfl rfl
  | notifying =>
      simp only [BlockingPortal.advance, hp, acc.notifying hp, Future.setRunningOrNotifyCancel,
        Option.some.injEq] at hs
      rw [← hs]
      exact win.finish (by rw [hp]; rfl) (by rw [hp]; rfl) rfl (by simp)
  | checkingResult retval =>
      simp only [BlockingPortal.advance, hp] at hs
      split_ifs at hs with hcancelled
      · cases hs
        exact win.finish (by rw [hp]; rfl) (by rw [hp]; rfl) rfl (by simp)
      · cases hs
        refine win.open acc (by rw [hp]; rfl) (by rw [hp]; rfl) hcancelled rfl rfl ?_
        rintro ⟨⟩
        exact hcancelled (acc.unbound (.inl hp))
  | checkingException exc =>
      simp only [BlockingPortal.advance, hp] at hs
      split_ifs at hs with hcancelled
      · cases hs
        obtain ⟨raised, hleave, hraised⟩ := exists_leave (ρ := ρ) exc
        exact win.finish (by rw [hp]; rfl) (by rw [hp]; rfl) hleave hraised
      · cases hs
        exact win.open acc (by rw [hp]; rfl) (by rw [hp]; rfl) hcancelled rfl rfl (by simp)
  | settingResult retval =>
      cases retval with
      | none => exact absurd hp win.bound
      | some value =>
          simp only [BlockingPortal.advance, hp, Option.some.injEq] at hs
          exact hs ▸ win.completed (by rw [hp]; rfl) (.ok value) (by simp)
  | settingException exc =>
      simp only [BlockingPortal.advance, hp, Option.some.injEq] at hs
      obtain ⟨raised, hleave, hraised⟩ := exists_leave (ρ := ρ) exc
      rw [hleave] at hs
      exact hs ▸ win.completed (by rw [hp]; rfl) (.error exc) hraised

theorem Windowed.cancel (win : Windowed s raced) (loopThread : Bool) :
    Windowed (cancel s loopThread) (raced || s.point.sets) where
  window h := by
    change s.point.sets = true at h
    have hfuture := win.window h
    rw [h, Bool.or_true, if_pos rfl]
    cases raced <;> simp [BlockingPortal.cancel, hfuture, Future.cancel]
  before hsets hopen := by
    change s.point.sets = false at hsets
    rw [hsets, Bool.or_false]
    exact win.before hsets hopen
  after raised h := by
    change s.point = .ended raised at h
    simpa [h, Point.sets] using win.after raised h
  bound := win.bound

theorem Point.inFunction_not_sets {p : Point ρ ε} (h : p.inFunction = true) : p.sets = false := by
  cases p <;> first | rfl | cases h

theorem Windowed.step (win : Windowed s raced) (acc : Accounted s late)
    (hs : step s a = some (s', o)) : Windowed s' (raced || races s a) := by
  cases a with
  | start =>
      simp only [races, Bool.or_false]
      cases hp : s.point <;> simp only [BlockingPortal.step, hp] at hs <;> cases hs
      exact win.walk (by rw [hp]; rfl) (by rw [hp]; rfl) rfl rfl
  | returnsAwaitable =>
      simp only [races, Bool.or_false]
      cases hp : s.point <;> simp only [BlockingPortal.step, hp] at hs <;> cases hs
      exact win.walk (by rw [hp]; rfl) (by rw [hp]; rfl) rfl rfl
  | returns value =>
      simp only [races, Bool.or_false]
      obtain ⟨hp, ⟨⟩⟩ := Option.ite_none_right_eq_some.mp hs
      exact win.walk (Point.inFunction_not_sets hp) (Point.inFunction_open hp) rfl rfl
  | raises exc =>
      simp only [races, Bool.or_false]
      obtain ⟨hp, ⟨⟩⟩ := Option.ite_none_right_eq_some.mp hs
      refine win.walk (Point.inFunction_not_sets hp) (Point.inFunction_open hp) ?_ ?_ <;>
        cases exc <;> rfl
  | swallowed =>
      simp only [races, Bool.or_false]
      cases hp : s.point <;> simp only [BlockingPortal.step, hp] at hs <;> try cases hs
      obtain ⟨-, ⟨⟩⟩ := Option.ite_none_right_eq_some.mp hs
      exact win.walk (by rw [hp]; rfl) (by rw [hp]; rfl) rfl rfl
  | advance =>
      simp only [races, Bool.or_false]
      obtain ⟨_, hadvance, ⟨⟩⟩ := Option.map_eq_some_iff.mp hs
      exact win.advance acc hadvance
  | cancel loopThread =>
      obtain ⟨-, ⟨⟩⟩ := Option.ite_none_right_eq_some.mp hs
      exact win.cancel loopThread
  | cancelScope =>
      simp only [races, Bool.or_false]
      obtain ⟨-, ⟨⟩⟩ := Option.ite_none_right_eq_some.mp hs
      exact ⟨win.window, win.before, win.after, win.bound⟩
  | stop =>
      simp only [races, Bool.or_false]
      cases hs
      exact ⟨win.window, win.before, win.after, win.bound⟩

section Runs
variable {h : History}

theorem of_run (run : (recorded ρ ε).Reachable Machine.anyStep (initial ρ ε, .empty) (s, h)) :
    Accounted s h.exitedCancelled ∧ Windowed s h.raced := by
  refine run.invariant_history
    (I := fun s h => Accounted s h.exitedCancelled ∧ Windowed s h.raced)
    ⟨.initial, .initial⟩ ?_
  rintro s h a s' o ⟨acc, win⟩ - hs
  exact ⟨acc.step hs, win.step acc hs⟩

/-- In every run, a call that has ended has left its future finished or cancelled with a
notification, unless `_call_func()` went on in its `else` branch or its general handler while the
future was cancelled; if it did, it leaves the future cancelled and nobody is notified. -/
theorem future_notified
    (run : (recorded ρ ε).Reachable Machine.anyStep (initial ρ ε, .empty) (s, h))
    (hended : s.point.isEnded = true) :
    s.future.isNotified = true ↔ h.exitedCancelled = false := by
  rcases (of_run run).1.ended hended with ⟨hlate, hnotified⟩ | ⟨hlate, hcancelled⟩
  · simp [hlate, hnotified]
  · simp [hlate, hcancelled, Future.isNotified]

/-- A user cancels the future of a task that sleeps, and the portal is cancelled meanwhile: the
error leaves the scope, and the handler notifies those that wait for the future. -/
theorem future_notified_cancelled :
    ∃ s h, (recorded Unit Unit).Reachable Machine.anyStep (initial Unit Unit, .empty) (s, h) ∧
      s.point.isEnded = true ∧ s.scopeCancelled = true ∧ s.future.isNotified = true := by
  have run : (recorded Unit Unit).Reachable Machine.anyStep (initial Unit Unit, .empty) _ :=
    Machine.exec_get_reachable _
      [.start, .returnsAwaitable, .advance, .advance, .cancel false, .cancelScope,
        .raises .cancelledError, .advance, .advance] rfl
  exact ⟨_, _, run, rfl, rfl, (future_notified run rfl).mpr rfl⟩

/-- A user cancels the future of a task that sleeps: the scope swallows the cancellation, and the
`else` branch leaves the future cancelled, without a notification. -/
theorem future_not_notified :
    ∃ s h, (recorded Unit Unit).Reachable Machine.anyStep (initial Unit Unit, .empty) (s, h) ∧
      s.point.isEnded = true ∧ s.future = .cancelled ∧ s.future.isNotified = false := by
  have run : (recorded Unit Unit).Reachable Machine.anyStep (initial Unit Unit, .empty) _ :=
    Machine.exec_get_reachable _
      [.start, .returnsAwaitable, .advance, .advance, .cancel false, .cancelScope, .swallowed,
        .advance] rfl
  exact ⟨_, _, run, rfl, rfl, rfl⟩

/-- In every run, a call that has ended has raised `InvalidStateError` exactly if the future was
cancelled between a test and the call that completes it. -/
theorem no_invalid_state
    (run : (recorded ρ ε).Reachable Machine.anyStep (initial ρ ε, .empty) (s, h))
    {raised : Option (Raised ε)} (hended : s.point = .ended raised) :
    raised ≠ some .invalidStateError ↔ h.raced = false := by
  rw [Ne, (of_run run).2.after raised hended, Bool.not_eq_true]

/-- A plain function returns, and a user cancels the future before `_call_func()` has tested it. -/
theorem no_invalid_state_cancelled :
    ∃ s h, (recorded Unit Unit).Reachable Machine.anyStep (initial Unit Unit, .empty) (s, h) ∧
      s.point = .ended none ∧ none ≠ some (Raised.invalidStateError (ε := Unit)) := by
  have run : (recorded Unit Unit).Reachable Machine.anyStep (initial Unit Unit, .empty) _ :=
    Machine.exec_get_reachable _ [.start, .returns (), .cancel false, .advance] rfl
  exact ⟨_, _, run, rfl, (no_invalid_state run rfl).mpr rfl⟩

/-- A plain function returns, and a user cancels the future between the test and
`set_result()`. -/
theorem invalid_state_raised :
    ∃ s h, (recorded Unit Unit).Reachable Machine.anyStep (initial Unit Unit, .empty) (s, h) ∧
      s.point = .ended (some .invalidStateError) := by
  have run : (recorded Unit Unit).Reachable Machine.anyStep (initial Unit Unit, .empty) _ :=
    Machine.exec_get_reachable _ [.start, .returns (), .advance, .cancel false, .advance] rfl
  exact ⟨_, _, run, rfl⟩

end Runs

end Anyio.BlockingPortal
