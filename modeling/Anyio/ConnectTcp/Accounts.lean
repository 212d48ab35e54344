import Anyio.ConnectTcp.Progress

/-!
# The books of `connect_tcp()`

The stored stream is the only one that stays open, an attempt that raised has
told the group or is about to, and the group collects no other exceptions.
-/

namespace Anyio.ConnectTcp

open Asyncio Library
open TaskGroup (Exc)

variable {α ε : Type*} {s s' : State α ε} {i j : Nat} {reached : List Nat}

/-- What the task of an attempt raises, by how the attempt ended. A stream that came too late may
be closed by a task that was cancelled. -/
def Raises : Ends ε → Option (Exc ε) → Prop
  | .connected, exc => exc = none ∨ exc = some (.cancelled true)
  | .osError _, exc => exc = none
  | .other e, exc => exc = some (.other e)
  | .cancelled, exc => exc = some (.cancelled true)

/-- What is stored, closed and collected agrees with how the attempts ended. -/
structure Accounts (s : State α ε) : Prop where
  opened : ∀ i, s.stream i = .opened ↔ s.connectedStream = some i
  late : ∀ i b, s.attempt i = .closing b → s.connectedStream ≠ none
  won : ∀ i, s.attempt i = .ended .connected → s.connectedStream ≠ none
  outcome : ∀ i how, s.attempt i = .ended how → Raises how (s.group.exception (.attempt i))
  failed : ∀ i e, s.attempt i = .ended (.other e) →
    .attempt i ∈ s.group.tasks ∨ s.group.exceptions ≠ some []
  interrupted : OnlyAnyio s.group
  others : OnlyOthers s.group
  listed : s.group.exceptions = none → s.group.phase = .left

theorem Attempt.interrupt_closing {a : Attempt ε} {b : Bool} (h : a.interrupt = .closing b) :
    ∃ b', a = .closing b' := by
  cases a <;> simp [Attempt.interrupt] at h ⊢

theorem Accounts.signalled (accounts : Accounts s) (signalled : Signalled s s') :
    Accounts s' where
  opened i := by rw [signalled.stream, signalled.connectedStream, accounts.opened]
  late i b h := by
    rw [signalled.connectedStream]
    obtain heq | heq := signalled.attempt i
    · exact accounts.late i b (heq ▸ h)
    · obtain ⟨b', hb'⟩ := Attempt.interrupt_closing (heq ▸ h)
      exact accounts.late i b' hb'
  won i h := by
    rw [signalled.connectedStream]
    obtain heq | heq := signalled.attempt i <;>
      exact accounts.won i (by simpa [heq] using h)
  outcome i how h := by
    rw [signalled.exception]
    obtain heq | heq := signalled.attempt i <;>
      exact accounts.outcome i how (by simpa [heq] using h)
  failed i e h := by
    rw [signalled.tasks, signalled.exceptions]
    obtain heq | heq := signalled.attempt i <;>
      exact accounts.failed i e (by simpa [heq] using h)
  interrupted := by
    rw [OnlyAnyio, signalled.excVal]
    exact accounts.interrupted
  others := by
    rw [OnlyOthers, signalled.exceptions]
    exact accounts.others
  listed := by
    rw [signalled.exceptions, signalled.phase]
    exact accounts.listed

/-- An attempt moves on, and nothing is booked. -/
theorem Accounts.moves (accounts : Accounts s) {a : Attempt ε}
    (hattempt : s'.attempt = Function.update s.attempt i a) (hended : ∀ how, a ≠ .ended how)
    (hlate : ∀ b, a = .closing b → s'.connectedStream ≠ none)
    (hstored : s'.connectedStream = s.connectedStream)
    (hopened : ∀ j, s'.stream j = .opened ↔ s.stream j = .opened)
    (hgroup : s'.group.exceptions = s.group.exceptions ∧
      s'.group.exception = s.group.exception ∧ s'.group.phase = s.group.phase)
    (htasks : ∀ u ∈ s.group.tasks, u ∈ s'.group.tasks)
    (hexcVal : OnlyAnyio s'.group) : Accounts s' := by
  obtain ⟨hexcs, hexc, hphase⟩ := hgroup
  have hkeep : ∀ j how, s'.attempt j = .ended how → s.attempt j = .ended how := by
    intro j how h
    rw [hattempt, Function.update_apply] at h
    split_ifs at h
    · exact absurd h (hended how)
    · exact h
  refine ⟨?_, ?_, ?_, ?_, ?_, hexcVal, ?_, ?_⟩
  · intro j
    rw [hopened, hstored, accounts.opened]
  · intro j b h
    rw [hattempt, Function.update_apply] at h
    split_ifs at h
    · exact hlate b h
    · rw [hstored]
      exact accounts.late j b h
  · intro j h
    rw [hstored]
    exact accounts.won j (hkeep j _ h)
  · intro j how h
    rw [hexc]
    exact accounts.outcome j how (hkeep j how h)
  · intro j e h
    rw [hexcs]
    exact (accounts.failed j e (hkeep j _ h)).imp_left (htasks _)
  · rw [OnlyOthers, hexcs]
    exact accounts.others
  · rw [hexcs, hphase]
    exact accounts.listed

/-- The task of an attempt ends as the attempt does. -/
theorem Accounts.finishAttempt (accounts : Accounts s) {how : Ends ε} {exc : Option (Exc ε)}
    (hraises : Raises how exc) (hwon : how = .connected → s.connectedStream ≠ none)
    (hmem : .attempt i ∈ s.group.tasks) : Accounts (finishAttempt s i how exc) := by
  have hcases : ∀ j how', (ConnectTcp.finishAttempt s i how exc).attempt j = .ended how' →
      (j = i ∧ how' = how) ∨ (j ≠ i ∧ s.attempt j = .ended how') := by
    intro j how' h
    simp only [ConnectTcp.finishAttempt, push_attempt, Function.update_apply] at h
    split_ifs at h with hj
    · exact .inl ⟨hj, (Attempt.ended.inj h).symm⟩
    · exact .inr ⟨hj, h⟩
  refine ⟨accounts.opened, ?_, ?_, ?_, ?_, accounts.interrupted, accounts.others,
    accounts.listed⟩
  · intro j b h
    simp only [ConnectTcp.finishAttempt, push_attempt, Function.update_apply] at h
    split_ifs at h
    exact accounts.late j b h
  · intro j h
    obtain ⟨-, hhow⟩ | ⟨-, h⟩ := hcases j _ h
    · exact hwon hhow.symm
    · exact accounts.won j h
  · intro j how' h
    simp only [ConnectTcp.finishAttempt, push_group]
    obtain ⟨hj, hhow⟩ | ⟨hj, h⟩ := hcases j how' h
    · rw [hj, hhow, Function.update_self]
      exact hraises
    · rw [Function.update_of_ne (by simpa using hj)]
      exact accounts.outcome j how' h
  · intro j e h
    obtain ⟨hj, -⟩ | ⟨-, h⟩ := hcases j _ h
    · exact .inl (hj ▸ hmem)
    · exact accounts.failed j e h

/-- The first stream is stored. -/
theorem Accounts.stores (accounts : Accounts s) (hnone : s.connectedStream = none) (i : Nat) :
    Accounts { s with
      connectedStream := some i
      stream := Function.update s.stream i .opened } where
  opened j := by
    have hclosed : s.stream j ≠ .opened := by
      rw [ne_eq, accounts.opened, hnone]
      simp
    simp only [Function.update_apply]
    split_ifs with hj
    · simp [hj]
    · simp [hclosed, Ne.symm hj]
  late _ _ _ := by simp
  won _ _ := by simp
  outcome := accounts.outcome
  failed := accounts.failed
  interrupted := accounts.interrupted
  others := accounts.others
  listed := accounts.listed

theorem Raises.other {how : Ends ε} {exc : Exc ε} (h : Raises how (some exc))
    (hcancelled : exc.isCancelled = false) : ∃ e, exc = .other e := by
  cases how with
  | connected =>
      obtain h | h := h
      · cases h
      · cases h
        cases hcancelled
  | osError e => cases h
  | other e => exact ⟨e, Option.some.inj h⟩
  | cancelled =>
      cases h
      cases hcancelled

/-- The group hears of the end of an attempt. -/
theorem Accounts.taskDone (accounts : Accounts s) {how : Ends ε} (hi : s.attempt i = .ended how)
    (outerCancelled : Bool) :
    Accounts { s with
      group := (TaskGroup.taskDone s.group (.attempt i) none outerCancelled).1 } := by
  have hraises := accounts.outcome i how hi
  have main : ∀ excs called, (∀ l, excs = some l → ∀ x ∈ l, ∃ e, x = .other e) →
      (excs = none → s.group.phase = .left) → (s.group.exceptions ≠ some [] → excs ≠ some []) →
      (∀ e, how = .other e → excs ≠ some []) → Accounts { s with
        group := { TaskGroup.removed s.group (.attempt i) with
          exceptions := excs
          cancelCalled := called } } := by
    intro excs called hothers hnone hkept hother
    refine ⟨accounts.opened, accounts.late, accounts.won, accounts.outcome, ?_,
      accounts.interrupted, hothers, hnone⟩
    intro j e h
    obtain hmem | hexcs := accounts.failed j e h
    · cases eq_or_ne j i with
      | inl hj =>
          right
          apply hother e
          rw [hj, hi] at h
          exact Attempt.ended.inj h
      | inr hj => exact .inl ((List.mem_erase_of_ne (by simpa using hj)).mpr hmem)
    · exact .inr (hkept hexcs)
  obtain ⟨excs, called, hreported, heq⟩ := taskDone_cases s.group (.attempt i) outerCancelled
  rw [heq]
  cases hreported with
  | nothing he =>
      apply main _ _ accounts.others accounts.listed id
      rintro e rfl
      rw [he] at hraises
      cases hraises
  | cancelled he =>
      apply main _ _ accounts.others accounts.listed id
      rintro e rfl
      rw [he] at hraises
      cases hraises
  | late he hnone =>
      apply main
      · rintro l ⟨⟩
      · exact fun _ => accounts.listed hnone
      · simp
      · simp
  | listed he hcancelled hsome =>
      rename_i exc excs
      apply main
      · rintro l ⟨⟩ x hx
        obtain hx | hx := List.mem_append.mp hx
        · exact accounts.others _ hsome x hx
        · rw [List.mem_singleton.mp hx]
          rw [he] at hraises
          exact hraises.other hcancelled
      · rintro ⟨⟩
      · simp
      · simp

/-- The host moves on in the group. -/
theorem Accounts.hostMoves (accounts : Accounts s) (hattempt : s'.attempt = s.attempt)
    (hstored : s'.connectedStream = s.connectedStream) (hstream : s'.stream = s.stream)
    (hexc : s'.group.exception = s.group.exception)
    (htasks : ∀ u ∈ s.group.tasks, u ∈ s'.group.tasks)
    (hexcs : s'.group.exceptions = s.group.exceptions ∧
        (s.group.phase = .left → s'.group.phase = .left) ∨
      s'.group.exceptions = none ∧ s'.group.phase = .left)
    (hexcVal : OnlyAnyio s'.group) : Accounts s' where
  opened i := by rw [hstream, hstored, accounts.opened]
  late i b h := by
    rw [hstored]
    exact accounts.late i b (hattempt ▸ h)
  won i h := by
    rw [hstored]
    exact accounts.won i (hattempt ▸ h)
  outcome i how h := by
    rw [hexc]
    exact accounts.outcome i how (hattempt ▸ h)
  failed i e h := by
    obtain ⟨heq, -⟩ | ⟨hnone, -⟩ := hexcs
    · rw [heq]
      exact (accounts.failed i e (hattempt ▸ h)).imp_left (htasks _)
    · exact .inr (by simp [hnone])
  interrupted := hexcVal
  others := by
    obtain ⟨heq, -⟩ | ⟨hnone, -⟩ := hexcs
    · rw [OnlyOthers, heq]
      exact accounts.others
    · intro l hl
      rw [hnone] at hl
      cases hl
  listed hnone := by
    obtain ⟨heq, hphase⟩ | ⟨-, hleft⟩ := hexcs
    · exact hphase (accounts.listed (heq ▸ hnone))
    · exact hleft

theorem aexit_task (group : TaskGroup.State Party ε) (exc : Option (Exc ε)) {u : Party}
    (hu : u ≠ .host) :
    (TaskGroup.aexit group .host exc).1.loop.task u = group.loop.task u := by
  rw [aexit_group]
  split_ifs <;> simp [Loop.moveTo_task_of_ne hu]

/-- The call in `__aexit__()`, before its first await. -/
def entersExit (s : State α ε) (exc : Option (Exc ε)) : State α ε :=
  { s with
    host := .exiting
    waitShielded := false
    group := (TaskGroup.aexit s.group .host exc).1 }

theorem exitGroup_none (s : State α ε) : exitGroup s none reached = suspended (entersExit s none) :=
  rfl

theorem exitGroup_some (s : State α ε) (exc : Exc ε) :
    exitGroup s (some exc) reached =
      suspended (entersExit (cancelScope s false reached) (some exc)) := rfl

theorem entersExit_ended (agree : Agree s) (exc : Option (Exc ε)) (i : Nat)
    (h : (entersExit s exc).group.loop.point (.attempt i) = .finished) :
    ∃ how, (entersExit s exc).attempt i = .ended how := by
  have hpoint : (entersExit s exc).group.loop.point (.attempt i) = s.group.loop.point (.attempt i) :=
    TaskGroup.point_congr (aexit_task s.group exc (by simp))
  rw [hpoint, agree.points] at h
  exact Attempt.point_finished.mp h

theorem Accounts.entersExit (accounts : Accounts s) (exc : Option (Exc ε))
    (hexc : exc = none ∨ exc = some (.cancelled true)) (hphase : s.group.phase ≠ .left) :
    Accounts (entersExit s exc) := by
  apply accounts.hostMoves
  · rfl
  · rfl
  · rfl
  · simp only [ConnectTcp.entersExit, aexit_group]
    split_ifs <;> simp
  · simp only [ConnectTcp.entersExit, aexit_group]
    split_ifs <;> simp
  · left
    refine ⟨?_, fun h => absurd h hphase⟩
    simp only [ConnectTcp.entersExit, aexit_group]
    obtain rfl | rfl := hexc <;> split_ifs <;> rfl
  · simp only [OnlyAnyio, ConnectTcp.entersExit, aexit_group]
    split_ifs <;> simpa [exiting_excVal] using hexc

theorem Accounts.nextAddress (accounts : Accounts s) (agree : Agree s) (block : InBlock s i)
    (expired : Bool) : Accounts (nextAddress s i expired) := by
  rw [ConnectTcp.nextAddress]
  split
  · rw [startSoon_group block]
    apply accounts.moves (a := .created) (i := i)
    · rfl
    · simp
    · simp
    · rfl
    · exact fun _ => Iff.rfl
    · exact ⟨rfl, rfl, rfl⟩
    · intro u hu
      exact List.mem_insert_of_mem hu
    · exact accounts.interrupted
  · rw [exitGroup_none]
    have hexit := accounts.entersExit none (.inl rfl) (by simp [block.phase])
    exact hexit.signalled (.suspended (entersExit_ended agree none))

theorem Accounts.exitCancelled (accounts : Accounts s) (linked : Linked s)
    (block : InBlock s i) (reached : List Nat) :
    Accounts (exitGroup s (some (.cancelled true)) reached) := by
  have hcancel := accounts.signalled (.cancelScope s false reached)
  rw [exitGroup_some]
  have hexit := hcancel.entersExit (some (.cancelled true)) (.inr rfl) (by
    rw [cancelScope_group]
    simp [block.phase])
  exact hexit.signalled (.suspended (entersExit_ended (linked.cancelScope false reached).toAgree _))

theorem Accounts.resumeExit (accounts : Accounts s) (linked : Linked s) (hs : s.host = .exiting)
    (reached : List Nat) : Accounts (resumeExit s reached) := by
  have hnoticed := accounts.signalled (.noticed s reached)
  have hgroup := noticed_group s reached
  cases htasks : s.group.tasks with
  | nil =>
      obtain ⟨x, hends⟩ :=
        resumeExit_ends linked hs accounts.interrupted accounts.others htasks reached
      rw [hends]
      apply hnoticed.hostMoves
      · rfl
      · rfl
      · rfl
      · rw [hgroup]
        rfl
      · rw [hgroup, htasks]
        simp
      · exact .inr ⟨rfl, rfl⟩
      · exact .inl rfl
  | cons u rest =>
      have hsome : s.group.tasks ≠ [] := by simp [htasks]
      rw [resumeExit_waits linked hs accounts.interrupted hsome reached]
      have hwaits := linked.goesOn hs hsome reached
      apply Accounts.signalled _ (.suspended hwaits.toAgree.finished)
      apply hnoticed.hostMoves
      · rfl
      · rfl
      · rfl
      · rw [hgroup]
        rfl
      · rw [hgroup]
        exact fun _ h => h
      · rw [hgroup]
        exact .inl ⟨rfl, id⟩
      · exact excAtExit_cases accounts.interrupted

end Anyio.ConnectTcp
