import Anyio.CapacityLimiter.Tokens
import Mathlib.Data.Finset.SDiff

/-!
# Failed calls of `acquire_on_behalf_of()`

A call that raises has to leave `_borrowers` as if it had not been made. One
that is interrupted at its shielded checkpoint has taken a token already, and
gives it back by `self.release()`: this names the current task, and not the
borrower of the call.

## Implementation notes

Other tasks go on while a call is suspended. What they do to `_borrowers` is
replayed on the borrowers that the call found, so that a call is compared with
what the limiter would be without it.
-/

namespace Anyio.CapacityLimiter

open Asyncio Library

variable {τ β : Type*}

/-- The task whose call makes the step. -/
def Action.caller : Action τ β → Option τ
  | .acquireOnBehalfOf t _ _ => some t
  | .cancel t => some t
  | .resume t => some t
  | _ => none

/-- A call: its borrower, the borrowers that there would be without it, and whether anybody else
added or removed its borrower since. -/
structure Call (β : Type*) where
  borrower : β
  expected : Finset β
  touched : Bool

/-- The last call of every task. -/
abbrev Calls (τ β : Type*) := τ → Option (Call β)

variable [DecidableEq β]

/-- Make on `expected` the changes that lead from `before` to `after`. -/
def replay (before after expected : Finset β) : Finset β :=
  (expected ∪ (after \ before)) \ (before \ after)

/-- Somebody else changed the borrowers. -/
def Call.follow (c : Call β) (before after : Finset β) : Call β where
  borrower := c.borrower
  expected := replay before after c.expected
  touched := c.touched || decide (¬(c.borrower ∈ before ↔ c.borrower ∈ after))

/-- A call is right to leave the borrowers `now`, while it stands at a point. -/
def Call.Agrees (c : Call β) (now : Finset β) : Point β → Prop
  | .outside => True
  | .shieldedCheckpoint =>
      if c.touched then now = c.expected
      else c.borrower ∉ c.expected ∧ now = insert c.borrower c.expected
  | _ => now = c.expected

section Replay
variable {before after expected : Finset β} {b : β} {c : Call β}

theorem replay_self (before after : Finset β) : replay before after before = after := by
  ext x
  simp only [replay, Finset.mem_sdiff, Finset.mem_union]
  tauto

/-- The changes are the same on a set that differs in a borrower that they do not touch. -/
theorem replay_insert (hb : b ∉ expected) (hsame : b ∈ after) :
    b ∉ replay (insert b expected) after expected ∧
      after = insert b (replay (insert b expected) after expected) := by
  constructor
  · simp [replay, hb]
  · ext x
    simp only [replay, Finset.mem_insert, Finset.mem_sdiff, Finset.mem_union]
    by_cases hx : x = b
    · simp [hx, hsame]
    · simp only [hx, false_or]
      tauto

/-- Without its borrower, the changes lead to the same set. -/
theorem replay_erase (hb : b ∉ expected) (hgone : b ∉ after) :
    replay (insert b expected) after expected = after := by
  ext x
  simp only [replay, Finset.mem_insert, Finset.mem_sdiff, Finset.mem_union]
  by_cases hx : x = b
  · simp [hx, hb, hgone]
  · simp only [hx, false_or]
    tauto

/-- The record of a call follows what the others do. -/
theorem Call.Agrees.follow {p : Point β} (agrees : c.Agrees before p) (after : Finset β) :
    (c.follow before after).Agrees after p := by
  have hsame : before = c.expected → after = (c.follow before after).expected := by
    rintro rfl
    exact (replay_self c.expected after).symm
  cases p with
  | outside => trivial
  | checkpointIfCancelled => exact hsame agrees
  | waiting => exact hsame agrees
  | shieldedCheckpoint =>
      unfold Agrees at agrees ⊢
      simp only at agrees ⊢
      by_cases htouched : c.touched = true
      · rw [if_pos htouched] at agrees
        rw [if_pos (by simp [Call.follow, htouched])]
        exact hsame agrees
      · rw [if_neg htouched] at agrees
        obtain ⟨hnew, rfl⟩ := agrees
        by_cases hafter : c.borrower ∈ after
        · rw [if_neg (by simp [Call.follow, htouched, hafter])]
          exact replay_insert hnew hafter
        · rw [if_pos (by simp [Call.follow, hafter])]
          exact (replay_erase hnew hafter).symm

end Replay

variable [DecidableEq τ]

section Record
variable (currentTask : τ → β)

/-- A call finds the borrowers as they are, and follows what the others do to them. -/
def recordCall (h : Calls τ β) (s : State τ β) (a : Action τ β) (_ : Outcome (Point β) Unit) :
    Calls τ β := fun u =>
  if a.caller = some u then
    match a with
    | .acquireOnBehalfOf _ b _ => some ⟨b, s.borrowers, false⟩
    | _ => h u
  else
    match step currentTask s a with
    | some r => (h u).map fun c => c.follow s.borrowers r.1.borrowers
    | none => h u

/-- The limiter with the record of the calls. -/
abbrev callRecorded : Machine (State τ β × Calls τ β) (Action τ β) (Outcome (Point β) Unit) :=
  (machine currentTask).withHistory (recordCall currentTask)

/-- The borrowers that there would be without the call that makes a step. -/
def withoutCall (h : Calls τ β) (s : State τ β) : Action τ β → Option (Finset β)
  | .acquireOnBehalfOf _ _ _ => some s.borrowers
  | .resume t => (h t).map Call.expected
  | _ => none

/-- The exception that a call has to pass on: the one of `acquire_on_behalf_of_nowait()`, or the
one that is thrown into an await. -/
def original (s : State τ β) : Action τ β → Option Error
  | .acquireOnBehalfOf _ b _ =>
      match acquireOnBehalfOfNowait s b with
      | .ok _ => none
      | .error e => some e
  | .resume _ => some .cancelledError
  | _ => none

/-- A call that raises `e` leaves the borrowers as they would be without it, and passes on the
original exception. -/
def AllOrNothing (h : Calls τ β) (s : State τ β) (a : Action τ β) (s' : State τ β) (e : Error) :
    Prop :=
  withoutCall h s a = some s'.borrowers ∧ original s a = some e

/-- The call does not end at its shielded checkpoint, or its borrower is the current task and
nobody else gave back the token. -/
def Spared (h : Calls τ β) (s : State τ β) : Action τ β → Prop
  | .resume t => s.loop.point t = .shieldedCheckpoint →
      ∃ c, h t = some c ∧ c.borrower = currentTask t ∧ c.touched = false
  | _ => True

end Record

variable {currentTask : τ → β} {s s' : State τ β} {h : Calls τ β} {t u : τ} {a : Action τ β}
  {e : Error}

/-- The other tasks stay where they are. -/
theorem Effect.point (effect : Effect currentTask s a s') (hu : a.caller ≠ some u) :
    s'.loop.point u = s.loop.point u := by
  have hne : ∀ {t : τ}, some t ≠ some u → u ≠ t := fun ht hut => ht (hut ▸ rfl)
  cases effect with
  | refused => rfl
  | parked => simp [hne hu]
  | granted => simp [hne hu]
  | queued => simp [hne hu]
  | grantedNowait => rfl
  | released => simp
  | adjusted => simp
  | cancelled => simp
  | left => simp [hne hu]
  | gaveBack => simp [hne hu]
  | took => simp [hne hu]
  | withdrew => simp [hne hu]

/-- Every suspended call is recorded, and right about the borrowers. -/
def Accounted (s : State τ β) (h : Calls τ β) : Prop :=
  ∀ t, s.loop.point t ≠ .outside → ∃ c, h t = some c ∧ c.Agrees s.borrowers (s.loop.point t)

theorem recordCall_of_ne {o : Outcome (Point β) Unit} (hs : step currentTask s a = some (s', o))
    (hu : a.caller ≠ some u) :
    recordCall currentTask h s a o u = (h u).map fun c => c.follow s.borrowers s'.borrowers := by
  simp only [recordCall, hs]
  exact if_neg hu

/-- A call up to its first await is right about the borrowers. -/
theorem agrees_of_acquire (hp : s.loop.point t = .outside) (b : β) (c : Bool) :
    Call.Agrees ⟨b, s.borrowers, false⟩ (acquireOnBehalfOf s t b c).1.borrowers
      ((acquireOnBehalfOf s t b c).1.loop.point t) := by
  unfold acquireOnBehalfOf
  cases c with
  | true => simp [Call.Agrees]
  | false =>
      rw [if_neg Bool.false_ne_true]
      split
      · rename_i s'' hs''
        obtain ⟨grants, rfl⟩ := nowait_ok hs''
        simp [Call.Agrees, grants.1]
      · simp [Call.Agrees]
      · simp [hp, Call.Agrees]

/-- A call that goes on waiting when it is woken waits for its cancellation. -/
theorem resume_stays (hwake : s.loop.wakeUpQueued t = true)
    (hp : (resume currentTask s t).1.loop.point t ≠ .outside) :
    s.loop.point t = .checkpointIfCancelled ∧
      (resume currentTask s t).1 = { s with loop := s.loop.resumeAt t .checkpointIfCancelled } := by
  unfold resume at hp ⊢
  cases hpt : s.loop.point t with
  | outside => simp [Loop.wakeUpQueued, Loop.waits, hpt, Coroutine.waits] at hwake
  | checkpointIfCancelled =>
      simp only [hpt] at hp ⊢
      split_ifs at hp ⊢
      · simp at hp
      · exact ⟨trivial, rfl⟩
  | shieldedCheckpoint =>
      simp only [hpt] at hp
      unfold releaseOnBehalfOf at hp
      split_ifs at hp <;> simp at hp
  | waiting b f =>
      simp only [hpt] at hp
      split_ifs at hp <;> simp at hp

/-- A task whose call makes the step and goes on is right about the borrowers. -/
theorem Accounted.caller {o : Outcome (Point β) Unit} (acc : Accounted s h)
    (hs : step currentTask s a = some (s', o)) (hu : a.caller = some u)
    (hp : s'.loop.point u ≠ .outside) :
    ∃ c, recordCall currentTask h s a o u = some c ∧ c.Agrees s'.borrowers (s'.loop.point u) := by
  cases a with
  | acquireOnBehalfOfNowait => cases hu
  | releaseOnBehalfOf => cases hu
  | setTotalTokens => cases hu
  | acquireOnBehalfOf t b c =>
      obtain rfl : t = u := Option.some.inj hu
      obtain ⟨hout, hs⟩ := Option.ite_none_right_eq_some.mp hs
      have agrees := agrees_of_acquire hout b c
      rw [Option.some.inj hs] at agrees
      exact ⟨_, if_pos rfl, agrees⟩
  | cancel t =>
      obtain rfl : t = u := Option.some.inj hu
      obtain ⟨hin, hs⟩ := Option.ite_none_right_eq_some.mp hs
      cases hs
      obtain ⟨c, hc, agrees⟩ := acc t hin
      exact ⟨c, (if_pos rfl).trans hc, by simpa using agrees⟩
  | resume t =>
      obtain rfl : t = u := Option.some.inj hu
      obtain ⟨hwake, hs⟩ := Option.ite_none_right_eq_some.mp hs
      have hstays : (resume currentTask s t).1.loop.point t ≠ .outside → _ := resume_stays hwake
      rw [Option.some.inj hs] at hstays
      obtain ⟨hfrom, rfl⟩ := hstays hp
      obtain ⟨c, hc, agrees⟩ := acc t (by simp [hfrom])
      exact ⟨c, (if_pos rfl).trans hc, by simpa [hfrom] using agrees⟩

theorem Accounted.step {o : Outcome (Point β) Unit} (acc : Accounted s h)
    (hs : step currentTask s a = some (s', o)) :
    Accounted s' (recordCall currentTask h s a o) := by
  intro u hp
  by_cases hu : a.caller = some u
  · exact acc.caller hs hu hp
  · -- what the step does to the borrowers is the doing of somebody else
    have hpoint := (effect_of_step hs).point hu
    rw [hpoint] at hp ⊢
    obtain ⟨c, hc, agrees⟩ := acc u hp
    apply Exists.intro (c.follow s.borrowers s'.borrowers)
    rw [recordCall_of_ne hs hu, hc]
    exact ⟨rfl, agrees.follow s'.borrowers⟩

/-- A call that is interrupted at its shielded checkpoint gives back the token of the current
task. -/
theorem interrupted_checkpoint (hp : s.loop.point t = .shieldedCheckpoint)
    (hs : resume currentTask s t = (s', .raised e)) :
    (currentTask t ∈ s.borrowers ∧ s'.borrowers = s.borrowers.erase (currentTask t) ∧
        e = .cancelledError) ∨
      (currentTask t ∉ s.borrowers ∧ s'.borrowers = s.borrowers ∧ e = notHolding) := by
  unfold resume at hs
  simp only [hp] at hs
  split_ifs at hs
  · unfold releaseOnBehalfOf at hs
    split_ifs at hs with hb
    · cases hs
      exact .inl ⟨hb, notifyIfFree_borrowers _, rfl⟩
    · cases hs
      exact .inr ⟨hb, rfl, rfl⟩
  · cases hs

/-- A call that is interrupted at another await leaves the borrowers alone. -/
theorem interrupted_elsewhere (hwake : s.loop.wakeUpQueued t = true)
    (hp : s.loop.point t ≠ .shieldedCheckpoint)
    (hs : resume currentTask s t = (s', .raised e)) :
    s'.borrowers = s.borrowers ∧ e = .cancelledError := by
  unfold resume at hs
  cases hpt : s.loop.point t with
  | outside => simp [Loop.wakeUpQueued, Loop.waits, hpt, Coroutine.waits] at hwake
  | checkpointIfCancelled =>
      simp only [hpt] at hs
      split_ifs at hs
      · cases hs
        exact ⟨rfl, rfl⟩
      · cases hs
  | shieldedCheckpoint => exact absurd hpt hp
  | waiting b f =>
      simp only [hpt] at hs
      split_ifs at hs
      · cases hs
        exact ⟨rfl, rfl⟩
      · cases hs

/-- A call that took its token and is interrupted undoes what it did exactly if its borrower is the
current task and the token is still there. -/
theorem undone_iff {c : Call β} (hp : s.loop.point t = .shieldedCheckpoint)
    (agrees : c.Agrees s.borrowers .shieldedCheckpoint)
    (hs : resume currentTask s t = (s', .raised e)) :
    (c.expected = s'.borrowers ∧ .cancelledError = e) ↔
      c.borrower = currentTask t ∧ c.touched = false := by
  have hne : notHolding ≠ .cancelledError := by simp [notHolding]
  unfold Call.Agrees at agrees
  simp only at agrees
  by_cases htouched : c.touched = true
  · -- somebody else has given back the token already
    rw [if_pos htouched] at agrees
    simp only [htouched, Bool.true_eq_false, and_false, iff_false]
    rintro ⟨hborrowers, herror⟩
    rcases interrupted_checkpoint hp hs with ⟨hin, heq, -⟩ | ⟨-, -, he⟩
    · rw [← hborrowers, agrees] at heq
      rw [agrees, heq] at hin
      exact absurd hin (Finset.notMem_erase _ _)
    · exact hne (he.symm.trans herror.symm)
  · rw [if_neg htouched] at agrees
    obtain ⟨hnew, hnow⟩ := agrees
    have huntouched : c.touched = false := by simpa using htouched
    simp only [huntouched, and_true]
    constructor
    · rintro ⟨hborrowers, herror⟩
      rcases interrupted_checkpoint hp hs with ⟨-, heq, -⟩ | ⟨-, -, he⟩
      · by_contra hother
        apply hnew
        rw [hborrowers, heq, hnow]
        exact Finset.mem_erase.mpr ⟨hother, Finset.mem_insert_self _ _⟩
      · exact absurd (he.symm.trans herror.symm) hne
    · intro hown
      have hin : currentTask t ∈ s.borrowers := by
        rw [hnow, ← hown]
        exact Finset.mem_insert_self _ _
      rcases interrupted_checkpoint hp hs with ⟨-, heq, herror⟩ | ⟨hout, -, -⟩
      · refine ⟨?_, herror.symm⟩
        rw [heq, hnow, ← hown, Finset.erase_insert hnew]
      · exact absurd hin hout

/-- A call that raises before its first await has done nothing. -/
theorem acquire_raised {b : β} {c : Bool}
    (hs : acquireOnBehalfOf s t b c = (s', .raised e)) :
    s' = s ∧ acquireOnBehalfOfNowait s b = .error e := by
  unfold acquireOnBehalfOf at hs
  split_ifs at hs
  · cases hs
  · split at hs
    · cases hs
    · cases hs
    · cases hs
      exact ⟨rfl, ‹_›⟩

/-- A call of `acquire_on_behalf_of()` that raises leaves the borrowers as they would be without
it, and raises the original exception, exactly if it was not cancelled at its shielded checkpoint,
or was made for the current task and nobody else has given back its token. -/
theorem failed_call_undone {value : Number} {start : State τ β}
    (hcreate : create τ β value = .ok start)
    (run : (callRecorded currentTask).Reachable Machine.anyStep (start, fun _ => none) (s, h))
    (hcall : a.caller = some t) (hs : step currentTask s a = some (s', .raised e)) :
    AllOrNothing h s a s' e ↔ Spared currentTask h s a := by
  have acc : Accounted s h := by
    refine run.invariant_history (I := Accounted) ?_ fun s h a s' o acc _ hs => acc.step hs
    obtain ⟨total, rfl⟩ := create_ok hcreate
    intro t hp
    simp [Loop.initial, Loop.point] at hp
  cases a with
  | acquireOnBehalfOfNowait => cases hcall
  | releaseOnBehalfOf => cases hcall
  | setTotalTokens => cases hcall
  | cancel u =>
      obtain ⟨-, hs⟩ := Option.ite_none_right_eq_some.mp hs
      cases hs
  | acquireOnBehalfOf u b c =>
      obtain ⟨-, hs⟩ := Option.ite_none_right_eq_some.mp hs
      obtain ⟨rfl, hnowait⟩ := acquire_raised (Option.some.inj hs)
      simp [AllOrNothing, withoutCall, original, hnowait, Spared]
  | resume u =>
      obtain ⟨hwake, hs⟩ := Option.ite_none_right_eq_some.mp hs
      have hresume := Option.some.inj hs
      have hin : s.loop.point u ≠ .outside := by
        intro hout
        simp [Loop.wakeUpQueued, Loop.waits, hout, Coroutine.waits] at hwake
      obtain ⟨c, hc, agrees⟩ := acc u hin
      by_cases hp : s.loop.point u = .shieldedCheckpoint
      · rw [hp] at agrees
        simpa [AllOrNothing, withoutCall, original, Spared, hp, hc] using
          undone_iff hp agrees hresume
      · obtain ⟨hborrowers, rfl⟩ := interrupted_elsewhere hwake hp hresume
        have hexpected : s.borrowers = c.expected := by
          cases hpt : s.loop.point u with
          | outside => exact absurd hpt hin
          | shieldedCheckpoint => exact absurd hpt hp
          | checkpointIfCancelled => simpa [hpt, Call.Agrees] using agrees
          | waiting => simpa [hpt, Call.Agrees] using agrees
        have hwithout : withoutCall h s (.resume u) = some s'.borrowers := by
          rw [hborrowers, hexpected]
          exact congrArg (Option.map Call.expected) hc
        exact iff_of_true ⟨hwithout, rfl⟩ fun hshielded => absurd hshielded hp

/-- Task 0 has acquired a token for itself and is cancelled at its checkpoint. -/
def cancelledOwn : State (Fin 2) (Fin 2) × Calls (Fin 2) (Fin 2) :=
  ((callRecorded id).exec Machine.anyStep (oneToken (Fin 2) (Fin 2), fun _ => none)
    [.acquireOnBehalfOf 0 0 false, .cancel 0]).get (by decide)

theorem failed_call_undone_own :
    create (Fin 2) (Fin 2) (.int 1) = .ok (oneToken (Fin 2) (Fin 2)) ∧
      ∃ s' e, step id cancelledOwn.1 (.resume 0) = some (s', .raised e) ∧
        AllOrNothing cancelledOwn.2 cancelledOwn.1 (.resume 0) s' e := by
  have run : (callRecorded id).Reachable Machine.anyStep
      (oneToken (Fin 2) (Fin 2), fun _ => none) cancelledOwn := Machine.exec_get_reachable _ _ _
  have created : create (Fin 2) (Fin 2) (.int 1) = .ok (oneToken (Fin 2) (Fin 2)) := rfl
  have undone := failed_call_undone (s := cancelledOwn.1) (h := cancelledOwn.2) created run
    (a := .resume 0) (t := 0) rfl (e := .cancelledError) rfl
  exact ⟨created, _, _, rfl, undone.mpr fun _ => ⟨_, rfl, rfl, rfl⟩⟩

/-- Task 0 has acquired a token for borrower 1 and is cancelled at its checkpoint. -/
def cancelledOther : State (Fin 2) (Fin 2) :=
  ((machine id).exec Machine.anyStep (oneToken (Fin 2) (Fin 2))
    [.acquireOnBehalfOf 0 1 false, .cancel 0]).get (by decide)

/-- The failed call leaves borrower 1 with the token, and raises another exception. -/
theorem failed_call_keeps_token :
    create (Fin 2) (Fin 2) (.int 1) = .ok (oneToken (Fin 2) (Fin 2)) ∧
      (oneToken (Fin 2) (Fin 2)).borrowers = ∅ ∧
      (machine id).Reachable Machine.anyStep (oneToken (Fin 2) (Fin 2)) cancelledOther ∧
      (step id cancelledOther (.resume 0)).map (fun r => (r.1.borrowers, r.2)) =
        some ({1}, .raised notHolding) :=
  ⟨rfl, rfl, Machine.exec_get_reachable _ _ _, by decide⟩

end Anyio.CapacityLimiter
