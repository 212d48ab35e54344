import Anyio.RunProcess.Outcome

/-!
# `run_process()` does not deadlock with its child

A child that writes to a full pipe waits for the reader, and a reader of an
empty pipe waits for the child. Because both outputs are read while the input is
written, `run_process()` never waits for a child that waits for it.
-/

namespace Anyio.RunProcess

open Library

variable {o : Options} {s s' : State} {a : Action} {u : Unit}

/-- The steps that `run_process()` takes by itself. -/
def Action.isOwn : Action → Bool
  | .sendEnds | .sendFails | .stdinCloses | .waitEnds | .receives _ _ | .drains _ | .joins
  | .interrupt | .closeEnds | .reaps => true
  | _ => false

/-- `run_process()` waits. -/
def Quiet (o : Options) (s : State) : Prop := ∀ a : Action, a.isOwn = true → step o s a = none

/-- The child gets the end of the input once `drain()` has returned. -/
def StdinInv (s : State) : Prop :=
  s.stdinOpen = true → s.main ≠ .sending → s.failure ≠ none

theorem stdinInv_of_run (run : (machine o).Reachable Machine.anyStep (initial o) s) :
    StdinInv s := by
  apply run.invariant (I := StdinInv)
  · intro hopen hmain
    cases hempty : o.input.isEmpty <;> simp [initial, hempty] at hopen hmain
  · intro s a s' _ inv _ hs
    cases step_change hs with
    | writes _ _ | closes _ | reads | closesStdin | exits _ | cancel | receives _ _ _
    | drains _ _ _ _ =>
        exact inv
    | sendEnds _ | closeFinishes _ _ | closeReaps _ =>
        intro hopen
        cases hopen
    | aborts _ => exact fun _ _ => Option.some_ne_none _
    | kills _ _ => exact fun _ _ => Option.some_ne_none _
    | stdinCloses hmain | waitEnds hmain | joins hmain _ _ | killFails hmain _ =>
        exact fun hopen _ => inv hopen (by simp [hmain])
    | reaps hmain _ =>
        intro hopen _
        apply inv hopen
        rcases hmain with hmain | hmain <;> simp [hmain]

/-- A step of the program is one of its group or of `aclose()`. -/
theorem step_own (hown : a.isOwn = true) :
    step o s a = (if s.main.inGroup then inGroup o s a else inClose o s a).map
      fun s' => (s', ()) := by
  have henv : environment o s a = none := by
    cases a <;> first | rfl | cases hown
  rw [step, henv]
  rfl

theorem Quiet.inGroup (quiet : Quiet o s) (hgroup : s.main.inGroup = true)
    (hown : a.isOwn = true) : RunProcess.inGroup o s a = none := by
  have h := quiet a hown
  rwa [step_own hown, if_pos hgroup, Option.map_eq_none_iff] at h

theorem Quiet.inClose (quiet : Quiet o s) (hgroup : s.main.inGroup = false)
    (hown : a.isOwn = true) : RunProcess.inClose o s a = none := by
  have h := quiet a hown
  rwa [step_own hown, hgroup, if_neg Bool.false_ne_true, Option.map_eq_none_iff] at h

/-- What is in a pipe has been read. -/
theorem Quiet.unread (quiet : Quiet o s) (inv : Inv o s) (hfailure : s.failure = none)
    {out : Output} {p : Pipe} (hp : s.pipe out = some p) : p.unread = [] := by
  have hpipe := inv.pipes out
  rw [hp] at hpipe
  cases hreader : s.reader out with
  | absent =>
      rw [hreader] at hpipe
      exact hpipe.elim
  | drained contents =>
      rw [hreader] at hpipe
      exact hpipe.2.1
  | stopped =>
      rw [hreader] at hpipe
      exact absurd hfailure hpipe
  | reading buffer =>
      have hgroup : s.main.inGroup = true := by
        by_contra hnot
        have hdone := inv.joined (Bool.eq_false_iff.mpr hnot) hfailure out
        rw [hreader] at hdone
        cases hdone
      have hnone := quiet.inGroup hgroup (a := .receives out 1) rfl
      simp only [RunProcess.inGroup, hreader, hp] at hnone
      by_contra hne
      have hpos := List.length_pos_iff.mpr hne
      rw [if_pos (by omega)] at hnone
      cases hnone

/-- A reader that waits at the end of the group waits for a pipe that is open. -/
theorem Quiet.opened (quiet : Quiet o s) (inv : Inv o s) (hfailure : s.failure = none)
    (hgroup : s.main.inGroup = true) {out : Output} (hbusy : (s.reader out).isDone = false) :
    ∃ p, s.pipe out = some p ∧ p.opened = true := by
  have hpipe := inv.pipes out
  cases hreader : s.reader out with
  | absent | drained contents =>
      rw [hreader] at hbusy
      cases hbusy
  | stopped =>
      rw [hreader] at hpipe
      cases hp : s.pipe out with
      | none =>
          rw [hp] at hpipe
          cases hpipe
      | some p =>
          rw [hp] at hpipe
          exact absurd hfailure hpipe
  | reading buffer =>
      cases hp : s.pipe out with
      | none =>
          rw [hp, hreader] at hpipe
          cases hpipe
      | some p =>
          refine ⟨p, rfl, ?_⟩
          by_contra hclosed
          have hdrains := quiet.inGroup hgroup (a := .drains out) rfl
          have hreceives := quiet.inGroup hgroup (a := .receives out 1) rfl
          simp only [RunProcess.inGroup, hreader, hp] at hdrains hreceives
          have hunread : p.unread = [] := by
            by_contra hne
            have hpos := List.length_pos_iff.mpr hne
            rw [if_pos (by omega)] at hreceives
            cases hreceives
          rw [if_pos ⟨hunread, Bool.eq_false_iff.mpr hclosed⟩] at hdrains
          cases hdrains

/-- `run_process()` waits for the child or for somebody who has an end of a pipe. -/
theorem Quiet.waits (quiet : Quiet o s) (inv : Inv o s) (hfailure : s.failure = none)
    (hmain : ∀ r, s.main ≠ .ended r) :
    s.returncode = none ∨ s.stdinTaken = true ∨
      ∃ out p, s.pipe out = some p ∧ p.opened = true := by
  cases hpoint : s.main with
  | sending =>
      have hnone := quiet.inGroup (by simp [hpoint, Point.inGroup]) (a := .sendFails) rfl
      simp only [RunProcess.inGroup, hpoint, true_and] at hnone
      by_cases htaken : s.stdinTaken = true
      · exact .inr (.inl htaken)
      · rw [if_pos (Bool.eq_false_iff.mpr htaken)] at hnone
        cases hnone
  | closingStdin =>
      have hnone := quiet.inGroup (by simp [hpoint, Point.inGroup]) (a := .stdinCloses) rfl
      simp [RunProcess.inGroup, hpoint] at hnone
  | waiting =>
      have hnone := quiet.inGroup (by simp [hpoint, Point.inGroup]) (a := .waitEnds) rfl
      simpa [RunProcess.inGroup, hpoint, Option.ne_none_iff_isSome] using Or.inl hnone
  | joining =>
      have hgroup : s.main.inGroup = true := by simp [hpoint, Point.inGroup]
      have hnone := quiet.inGroup hgroup (a := .joins) rfl
      simp only [RunProcess.inGroup, hpoint, true_and] at hnone
      obtain ⟨out, hbusy⟩ : ∃ out, (s.reader out).isDone = false := by
        by_contra hdone
        push Not at hdone
        simp only [ne_eq, Bool.not_eq_false] at hdone
        rw [if_pos ⟨hdone .stdout, hdone .stderr⟩] at hnone
        cases hnone
      exact .inr (.inr ⟨out, quiet.opened inv hfailure hgroup hbusy⟩)
  | closing =>
      have hnone := quiet.inClose (by simp [hpoint, Point.inGroup]) (a := .closeEnds) rfl
      simp only [RunProcess.inClose, hpoint, if_true] at hnone
      split at hnone <;> cases hnone
  | reaping =>
      have hnone := quiet.inClose (by simp [hpoint, Point.inGroup]) (a := .reaps) rfl
      simp only [RunProcess.inClose, hpoint, true_or, if_true, Option.map_eq_none_iff] at hnone
      exact .inl hnone
  | killing =>
      have hnone := quiet.inClose (by simp [hpoint, Point.inGroup]) (a := .reaps) rfl
      simp only [RunProcess.inClose, hpoint, or_true, if_true, Option.map_eq_none_iff] at hnone
      exact .inl hnone
  | ended r => exact absurd hpoint (hmain r)

/-- A `run_process()` that can take no step, and whose block was left by no exception, waits for
the child or for others who hold its pipes, and for nothing that waits for it: whatever these
write has room, and who reads the input finds some of it or its end. -/
theorem waits_for_child
    (run : (machine o).Reachable Machine.anyStep (initial o) s) (quiet : Quiet o s)
    (hmain : ∀ r, s.main ≠ .ended r) (hfailure : s.failure = none) :
    (s.returncode = none ∨ s.stdinTaken = true ∨
      ∃ out p, s.pipe out = some p ∧ p.opened = true) ∧
    (∀ out p bytes, s.pipe out = some p → p.opened = true → bytes ≠ [] →
      bytes.length ≤ o.capacity → (step o s (.writes out bytes)).isSome) ∧
    (s.pending = [] → s.stdinOpen = false) := by
  have inv := inv_of_run run
  refine ⟨quiet.waits inv hfailure hmain, ?_, ?_⟩
  · intro out p bytes hp hopened hne hroom
    have hunread := quiet.unread inv hfailure hp
    simp [step, environment, hp, hopened, hne, hunread, hroom]
  · intro hpending
    by_contra hopen
    rw [Bool.not_eq_false] at hopen
    by_cases hsending : s.main = .sending
    · have hnone := quiet.inGroup (by simp [hsending, Point.inGroup]) (a := .sendEnds) rfl
      simp [inGroup, hsending, hpending] at hnone
    · exact stdinInv_of_run run hopen hsending hfailure

/-- A child that writes before it reads anything. -/
def slowChild : State :=
  ((machine filterOptions).exec Machine.anyStep (initial filterOptions)
    [.writes .stdout [1, 2, 3, 4], .receives .stdout 4]).get (by decide)

theorem slowChild_quiet : Quiet filterOptions slowChild := by
  intro a hown
  cases a with
  | receives out n =>
      cases out with
      | stdout =>
          have hreader : slowChild.reader .stdout = .reading [1, 2, 3, 4] := by decide
          have hpipe : slowChild.pipe .stdout = some ⟨[1, 2, 3, 4], [], true⟩ := by decide
          have hgroup : slowChild.main.inGroup = true := by decide
          rw [step_own rfl, if_pos hgroup, Option.map_eq_none_iff]
          simp only [inGroup, hreader, hpipe]
          apply if_neg
          simp only [List.length_nil]
          omega
      | stderr => rfl
  | drains out => cases out <;> rfl
  | sendEnds | sendFails | stdinCloses | waitEnds | joins | interrupt | closeEnds | reaps => rfl
  | _ => cases hown

theorem waits_for_child_slow :
    slowChild.pending = [1, 2] ∧
      (step filterOptions slowChild (.writes .stdout [5, 6, 7, 8])).isSome := by
  have run : (machine filterOptions).Reachable Machine.anyStep (initial filterOptions)
      slowChild := Machine.exec_get_reachable _ _ _
  have hmain : slowChild.main = .sending := by decide
  have waits := waits_for_child run slowChild_quiet (by simp [hmain]) (by decide)
  have hpipe : slowChild.pipe .stdout = some ⟨[1, 2, 3, 4], [], true⟩ := by decide
  refine ⟨by decide, waits.2.1 .stdout _ [5, 6, 7, 8] hpipe rfl (by simp) ?_⟩
  decide

end Anyio.RunProcess
