import Anyio.RunProcess.Model
import Mathlib.Tactic.Common

/-!
# What `run_process()` leaves behind

However `run_process()` ends, the child has ended before. If it ends without an
exception from its block, the outputs are all that was written to the pipes, and
the return code decides between the two ways to report them.
-/

namespace Anyio.RunProcess

open Library

variable {o : Options} {s s' : State} {a : Action} {u : Unit}

/-- The steps. `aborts` is an exception that leaves the task group. -/
inductive Change (o : Options) (s : State) : Action → State → Prop
  | writes {out : Output} {bytes : Bytes} {p : Pipe} (pipe : s.pipe out = some p)
      (opened : p.opened = true) :
      Change o s (.writes out bytes) (setPipe s out
        { p with written := p.written ++ bytes, unread := p.unread ++ bytes })
  | closes {out : Output} {p : Pipe} (pipe : s.pipe out = some p) :
      Change o s (.closes out) (setPipe s out { p with opened := false })
  | reads {n : Nat} :
      Change o s (.reads n)
        { s with received := s.received ++ s.pending.take n, pending := s.pending.drop n }
  | closesStdin : Change o s .closesStdin { s with stdinTaken := false }
  | exits {rc : Int} (returncode : s.returncode = none) :
      Change o s (.exits rc) { s with returncode := some rc }
  | cancel : Change o s .cancel { s with cancelled := true }
  | sendEnds (main : s.main = .sending) :
      Change o s .sendEnds { s with stdinOpen := false, main := .closingStdin }
  | aborts {a : Action} {f : Failure} (group : s.main.inGroup = true) : Change o s a (abort s f)
  | stdinCloses (main : s.main = .closingStdin) :
      Change o s .stdinCloses { s with main := .waiting }
  | waitEnds (main : s.main = .waiting) : Change o s .waitEnds { s with main := .joining }
  | receives {out : Output} {n : Nat} {buffer : Bytes} {p : Pipe}
      (group : s.main.inGroup = true) (reader : s.reader out = .reading buffer) (pipe : s.pipe out = some p) :
      Change o s (.receives out n)
        (setPipe (setReader s out (.reading (buffer ++ p.unread.take n))) out
          { p with unread := p.unread.drop n })
  | drains {out : Output} {buffer : Bytes} {p : Pipe} (group : s.main.inGroup = true)
      (reader : s.reader out = .reading buffer) (pipe : s.pipe out = some p) (unread : p.unread = []) (opened : p.opened = false) :
      Change o s (.drains out) (setReader s out (.drained buffer))
  | joins (main : s.main = .joining) (stdout : (s.reader .stdout).isDone = true)
      (stderr : (s.reader .stderr).isDone = true) :
      Change o s .joins { s with main := .closing }
  | closeFinishes {rc : Int} (main : s.main = .closing) (returncode : s.returncode = some rc) :
      Change o s .closeEnds (finish o { s with stdinOpen := false } rc)
  | closeReaps (main : s.main = .closing) :
      Change o s .closeEnds { s with stdinOpen := false, main := .reaping }
  | kills (main : s.main = .reaping) (cancelled : s.cancelled = true) :
      Change o s .interrupt
        { s with main := .killing, failure := some .cancelled, killed := true }
  | killFails {rc : Int} (main : s.main = .reaping) (returncode : s.returncode = some rc) :
      Change o s .killFails { s with main := .ended (.raised .processLookupError) }
  | reaps {rc : Int} (main : s.main = .reaping ∨ s.main = .killing)
      (returncode : s.returncode = some rc) :
      Change o s .reaps (finish o s rc)

/-- The steps of the environment. -/
theorem environment_change (hs : environment o s a = some s') : Change o s a s' := by
  cases a with
  | writes out bytes =>
      simp only [environment] at hs
      split at hs
      · rename_i p hp
        simp only [Option.ite_none_right_eq_some, Option.some.injEq] at hs
        obtain ⟨⟨hopened, -⟩, rfl⟩ := hs
        exact .writes hp hopened
      · cases hs
  | closes out =>
      simp only [environment] at hs
      split at hs
      · rename_i p hp
        simp only [Option.ite_none_right_eq_some, Option.some.injEq] at hs
        obtain ⟨-, rfl⟩ := hs
        exact .closes hp
      · cases hs
  | reads n =>
      simp only [environment, Option.ite_none_right_eq_some, Option.some.injEq] at hs
      obtain ⟨-, rfl⟩ := hs
      exact .reads
  | closesStdin =>
      simp only [environment, Option.ite_none_right_eq_some, Option.some.injEq] at hs
      obtain ⟨-, rfl⟩ := hs
      exact .closesStdin
  | exits rc =>
      simp only [environment, Option.ite_none_right_eq_some, Option.some.injEq] at hs
      obtain ⟨hnone, rfl⟩ := hs
      exact .exits hnone
  | cancel =>
      simp only [environment, Option.ite_none_left_eq_some, Option.some.injEq] at hs
      obtain ⟨-, rfl⟩ := hs
      exact .cancel
  | sendEnds | sendFails | stdinCloses | waitEnds | receives _ _ | drains _ | readFails _ | joins
  | interrupt | killFails | closeEnds | reaps =>
      simp [environment] at hs

/-- The steps of the task group. -/
theorem inGroup_change (hgroup : s.main.inGroup = true) (hs : inGroup o s a = some s') :
    Change o s a s' := by
  cases a with
  | sendEnds =>
      simp only [inGroup, Option.ite_none_right_eq_some, Option.some.injEq] at hs
      obtain ⟨⟨hmain, -⟩, rfl⟩ := hs
      exact .sendEnds hmain
  | sendFails =>
      simp only [inGroup, Option.ite_none_right_eq_some, Option.some.injEq] at hs
      obtain ⟨-, rfl⟩ := hs
      exact .aborts hgroup
  | stdinCloses =>
      simp only [inGroup, Option.ite_none_right_eq_some, Option.some.injEq] at hs
      obtain ⟨hmain, rfl⟩ := hs
      exact .stdinCloses hmain
  | waitEnds =>
      simp only [inGroup, Option.ite_none_right_eq_some, Option.some.injEq] at hs
      obtain ⟨⟨hmain, -⟩, rfl⟩ := hs
      exact .waitEnds hmain
  | receives out n =>
      simp only [inGroup] at hs
      split at hs
      · rename_i buffer p hreader hp
        simp only [Option.ite_none_right_eq_some, Option.some.injEq] at hs
        obtain ⟨-, rfl⟩ := hs
        exact .receives hgroup hreader hp
      · cases hs
  | drains out =>
      simp only [inGroup] at hs
      split at hs
      · rename_i buffer p hreader hp
        simp only [Option.ite_none_right_eq_some, Option.some.injEq] at hs
        obtain ⟨⟨hunread, hopened⟩, rfl⟩ := hs
        exact .drains hgroup hreader hp hunread hopened
      · cases hs
  | readFails out =>
      simp only [inGroup] at hs
      split at hs
      · cases hs
        exact .aborts hgroup
      · cases hs
  | joins =>
      simp only [inGroup, Option.ite_none_right_eq_some, Option.some.injEq] at hs
      obtain ⟨⟨hmain, hstdout, hstderr⟩, rfl⟩ := hs
      exact .joins hmain hstdout hstderr
  | interrupt =>
      simp only [inGroup, Option.ite_none_right_eq_some, Option.some.injEq] at hs
      obtain ⟨-, rfl⟩ := hs
      exact .aborts hgroup
  | writes _ _ | closes _ | reads _ | closesStdin | exits _ | cancel | killFails | closeEnds
  | reaps =>
      simp [inGroup] at hs

/-- The steps of `aclose()`. -/
theorem inClose_change (hs : inClose o s a = some s') : Change o s a s' := by
  cases a with
  | closeEnds =>
      simp only [inClose, Option.ite_none_right_eq_some] at hs
      obtain ⟨hmain, hs⟩ := hs
      split at hs
      · rename_i rc hrc
        cases hs
        exact .closeFinishes hmain hrc
      · cases hs
        exact .closeReaps hmain
  | interrupt =>
      simp only [inClose, Option.ite_none_right_eq_some, Option.some.injEq] at hs
      obtain ⟨⟨hmain, hcancelled⟩, rfl⟩ := hs
      exact .kills hmain hcancelled
  | killFails =>
      simp only [inClose, Option.ite_none_right_eq_some, Option.some.injEq] at hs
      obtain ⟨⟨hmain, -, hsome⟩, rfl⟩ := hs
      obtain ⟨rc, hrc⟩ := Option.isSome_iff_exists.mp hsome
      exact .killFails hmain hrc
  | reaps =>
      simp only [inClose, Option.ite_none_right_eq_some, Option.map_eq_some_iff] at hs
      obtain ⟨hmain, rc, hrc, rfl⟩ := hs
      exact .reaps hmain hrc
  | writes _ _ | closes _ | reads _ | closesStdin | exits _ | cancel | sendEnds | sendFails
  | stdinCloses | waitEnds | receives _ _ | drains _ | readFails _ | joins =>
      simp [inClose] at hs

theorem step_change (hs : step o s a = some (s', u)) : Change o s a s' := by
  simp only [step, Option.map_eq_some_iff, Prod.mk.injEq] at hs
  obtain ⟨t, ht, rfl, -⟩ := hs
  cases henv : environment o s a with
  | some t' =>
      rw [henv] at ht
      cases ht
      exact environment_change henv
  | none =>
      rw [henv] at ht
      change (if s.main.inGroup then inGroup o s a else inClose o s a) = some t at ht
      split_ifs at ht with hgroup
      · exact inGroup_change hgroup ht
      · exact inClose_change ht

/-- A reader has what is not in its pipe any more, and stops only for an exception. -/
def PipeInv (failure : Option Failure) : Option Pipe → Reader → Prop
  | none, r => r = .absent
  | some _, .absent => False
  | some p, .reading buffer => buffer ++ p.unread = p.written
  | some p, .drained contents => contents = p.written ∧ p.unread = [] ∧ p.opened = false
  | some _, .stopped => failure ≠ none

structure Inv (o : Options) (s : State) : Prop where
  input : s.received ++ s.pending = o.input
  pipes : ∀ out, PipeInv s.failure (s.pipe out) (s.reader out)
  joined : s.main.inGroup = false → s.failure = none → ∀ out, (s.reader out).isDone = true
  ended : ∀ r, s.main = .ended r → ∃ rc, s.returncode = some rc ∧
    (r = .raised .processLookupError ∨ s.main = (finish o s rc).main)
  killed : s.killed = true → s.cancelled = true ∧ s.failure ≠ none

theorem inv_initial (o : Options) : Inv o (initial o) where
  input := rfl
  pipes out := by
    cases hpipe : o.isPipe out <;> simp [initial, hpipe, PipeInv]
  joined hgroup := by
    cases hempty : o.input.isEmpty <;> simp [initial, hempty, Point.inGroup] at hgroup
  ended r hr := by
    cases hempty : o.input.isEmpty <;> simp [initial, hempty] at hr
  killed hkilled := absurd hkilled Bool.false_ne_true

/-- A pipe in which something happens for its reader. -/
theorem pipes_update (out : Output) {p : Pipe} {r : Reader}
    (pipes : ∀ out, PipeInv s.failure (s.pipe out) (s.reader out))
    (hnew : PipeInv s.failure (some p) r) (out' : Output) :
    PipeInv s.failure (Function.update s.pipe out (some p) out')
      (Function.update s.reader out r out') := by
  by_cases h : out' = out
  · subst h
    simpa using hnew
  · simpa [h] using pipes out'

/-- The child or the holder of a pipe does something to it. -/
theorem Inv.setPipe {out : Output} {p' : Pipe} (inv : Inv o s)
    (hnew : PipeInv s.failure (some p') (s.reader out)) : Inv o (setPipe s out p') := by
  have pipes := pipes_update out inv.pipes hnew
  rw [Function.update_eq_self] at pipes
  refine ⟨inv.input, pipes, inv.joined, ?_, inv.killed⟩
  intro r hr
  exact inv.ended r hr

/-- A pipe that stays as it is. -/
theorem setPipe_same {out : Output} {p : Pipe} {r : Reader} (hp : s.pipe out = some p) :
    RunProcess.setPipe (setReader s out r) out p = setReader s out r := by
  have h : Function.update s.pipe out (some p) = s.pipe := by
    rw [← hp, Function.update_eq_self]
  simp only [RunProcess.setPipe, setReader, h]

/-- Neither the pipes nor the readers change, and the program goes on. -/
theorem Inv.goesOn {main : Point} {stdinOpen : Bool} (inv : Inv o s)
    (hgroup : main.inGroup = false → s.failure = none → ∀ out, (s.reader out).isDone = true)
    (hmain : ∀ r, main ≠ .ended r) :
    Inv o { s with main := main, stdinOpen := stdinOpen } where
  input := inv.input
  pipes := inv.pipes
  joined := hgroup
  ended r hr := absurd hr (hmain r)
  killed := inv.killed

theorem Inv.finish {rc : Int} (inv : Inv o s) (hgroup : s.main.inGroup = false)
    (hrc : s.returncode = some rc) : Inv o (finish o s rc) where
  input := inv.input
  pipes := inv.pipes
  joined _ := inv.joined hgroup
  ended _ _ := ⟨rc, hrc, .inr rfl⟩
  killed := inv.killed

/-- A reader takes a step inside of the task group. -/
theorem Inv.reads {out : Output} {p : Pipe} {r : Reader} (inv : Inv o s)
    (hgroup : s.main.inGroup = true) (hnew : PipeInv s.failure (some p) r) :
    Inv o (RunProcess.setPipe (setReader s out r) out p) where
  input := inv.input
  pipes := pipes_update out inv.pipes hnew
  joined h := absurd (h.symm.trans hgroup) Bool.false_ne_true
  ended r' hr := by
    change s.main = .ended r' at hr
    simp [hr, Point.inGroup] at hgroup
  killed := inv.killed

theorem fail_pipe {failure : Option Failure} {f : Failure} {p : Option Pipe} {r : Reader}
    (h : PipeInv failure p r) : PipeInv (some f) p r := by
  cases p with
  | none => exact h
  | some p =>
      cases r with
      | stopped => exact Option.some_ne_none f
      | absent | reading buffer | drained contents => exact h

theorem stop_pipe {failure : Option Failure} {f : Failure} {p : Option Pipe} {r : Reader}
    (h : PipeInv failure p r) : PipeInv (some f) p r.stop := by
  cases r with
  | reading buffer =>
      cases p with
      | none => cases h
      | some p => exact Option.some_ne_none f
  | absent | drained contents | stopped => exact fail_pipe h

theorem Inv.step (inv : Inv o s) (change : Change o s a s') : Inv o s' := by
  cases change with
  | @writes out bytes p hp hopened =>
      apply inv.setPipe
      have old := inv.pipes out
      rw [hp] at old
      cases hreader : s.reader out with
      | absent => simp [hreader, PipeInv] at old
      | reading buffer =>
          rw [hreader, PipeInv] at old
          change buffer ++ (p.unread ++ bytes) = p.written ++ bytes
          rw [← List.append_assoc, old]
      | drained contents =>
          rw [hreader, PipeInv, hopened] at old
          exact absurd old.2.2 Bool.true_eq_false.mp
      | stopped =>
          rw [hreader] at old
          exact old
  | @closes out p hp =>
      apply inv.setPipe
      have old := inv.pipes out
      rw [hp] at old
      cases hreader : s.reader out with
      | drained contents =>
          rw [hreader, PipeInv] at old
          exact ⟨old.1, old.2.1, rfl⟩
      | absent | reading buffer | stopped =>
          rw [hreader] at old
          exact old
  | @reads n =>
      refine ⟨?_, inv.pipes, inv.joined, inv.ended, inv.killed⟩
      change (s.received ++ s.pending.take n) ++ s.pending.drop n = o.input
      rw [List.append_assoc, List.take_append_drop, inv.input]
  | closesStdin => exact ⟨inv.input, inv.pipes, inv.joined, inv.ended, inv.killed⟩
  | exits hnone =>
      refine ⟨inv.input, inv.pipes, inv.joined, fun r hr => ?_, inv.killed⟩
      obtain ⟨rc, hrc, -⟩ := inv.ended r hr
      rw [hnone] at hrc
      cases hrc
  | cancel =>
      refine ⟨inv.input, inv.pipes, inv.joined, inv.ended, fun hkilled => ?_⟩
      exact ⟨rfl, (inv.killed hkilled).2⟩
  | sendEnds _ => exact inv.goesOn (by simp [Point.inGroup]) (by simp)
  | @aborts _ f _ =>
      refine ⟨inv.input, fun out => stop_pipe (inv.pipes out), ?_, ?_, ?_⟩
      · intro _ h
        cases h
      · intro r hr
        cases hr
      · exact fun hkilled => ⟨(inv.killed hkilled).1, Option.some_ne_none f⟩
  | stdinCloses _ => exact inv.goesOn (by simp [Point.inGroup]) (by simp)
  | waitEnds _ => exact inv.goesOn (by simp [Point.inGroup]) (by simp)
  | @receives out n buffer p hgroup hreader hp =>
      apply inv.reads hgroup
      have old := inv.pipes out
      rw [hp, hreader, PipeInv] at old
      change (buffer ++ p.unread.take n) ++ p.unread.drop n = p.written
      rw [List.append_assoc, List.take_append_drop, old]
  | @drains out buffer p hgroup hreader hp hunread hopened =>
      have old := inv.pipes out
      rw [hp, hreader, PipeInv, hunread, List.append_nil] at old
      have next : Inv o (RunProcess.setPipe (setReader s out (.drained buffer)) out p) :=
        inv.reads hgroup ⟨old, hunread, hopened⟩
      rwa [setPipe_same hp] at next
  | joins _ hstdout hstderr =>
      apply inv.goesOn
      · intro _ _ out
        cases out with
        | stdout => exact hstdout
        | stderr => exact hstderr
      · simp
  | closeFinishes hmain hrc =>
      have mid : Inv o { s with stdinOpen := false } :=
        ⟨inv.input, inv.pipes, inv.joined, inv.ended, inv.killed⟩
      exact mid.finish (by simp [hmain, Point.inGroup]) hrc
  | closeReaps hmain =>
      exact inv.goesOn (fun _ => inv.joined (by simp [hmain, Point.inGroup])) (by simp)
  | kills _ hcancelled =>
      refine ⟨inv.input, fun out => fail_pipe (inv.pipes out), ?_, ?_, ?_⟩
      · intro _ h
        cases h
      · intro r hr
        cases hr
      · exact fun _ => ⟨hcancelled, Option.some_ne_none _⟩
  | @killFails rc hmain hrc =>
      refine ⟨inv.input, inv.pipes, fun _ => inv.joined (by simp [hmain, Point.inGroup]), ?_,
        inv.killed⟩
      intro r hr
      cases hr
      exact ⟨rc, hrc, .inl rfl⟩
  | reaps hmain hrc =>
      apply inv.finish _ hrc
      rcases hmain with hmain | hmain <;> simp [hmain, Point.inGroup]

theorem inv_of_run (run : (machine o).Reachable Machine.anyStep (initial o) s) : Inv o s := by
  apply run.invariant (I := Inv o) (inv_initial o)
  intro s a s' _ inv _ hs
  exact inv.step (step_change hs)

/-- Everything that was written to the pipes was read, and nobody can write more. -/
def Drained (s : State) : Prop :=
  ∀ out p, s.pipe out = some p → p.unread = [] ∧ p.opened = false

/-- The output of a pipe is all that was written to it. -/
def State.output (s : State) (out : Output) : Option Bytes := (s.pipe out).map Pipe.written

/-- What a result says about the child. -/
def Reports (o : Options) (s : State) (rc : Int) : Result → Prop
  | .completed returncode stdout stderr => returncode = rc ∧ (o.check = true → rc = 0) ∧
      stdout = s.output .stdout ∧ stderr = s.output .stderr ∧ Drained s
  | .calledProcessError returncode stdout stderr => returncode = rc ∧ o.check = true ∧ rc ≠ 0 ∧
      stdout = s.output .stdout ∧ stderr = s.output .stderr ∧ Drained s
  | .raised _ => True

/-- A reader that is done has read all of its pipe. -/
theorem contents_of_done {failure : Option Failure} {p : Option Pipe} {r : Reader}
    (h : PipeInv failure p r) (hdone : r.isDone = true) :
    r.contents = p.map Pipe.written ∧ ∀ q, p = some q → q.unread = [] ∧ q.opened = false := by
  cases p with
  | none =>
      rw [PipeInv] at h
      rw [h]
      exact ⟨rfl, fun q hq => by cases hq⟩
  | some p =>
      cases r with
      | absent => exact h.elim
      | reading buffer => cases hdone
      | drained contents =>
          obtain ⟨rfl, hunread, hopened⟩ := h
          refine ⟨rfl, fun q hq => ?_⟩
          cases hq
          exact ⟨hunread, hopened⟩
      | stopped => cases hdone

/-- In every run, `run_process()` ends after its child has ended, which it has killed only if it
was cancelled, and the child has read a prefix of the input by then. A result that is no exception
from the block has all of the output of the child, with the return code on which it depends. -/
theorem run_process_outcome {r : Result}
    (run : (machine o).Reachable Machine.anyStep (initial o) s) (hr : s.main = .ended r) :
    s.received <+: o.input ∧ (s.killed = true → s.cancelled = true) ∧
      ∃ rc, s.returncode = some rc ∧ Reports o s rc r := by
  have inv := inv_of_run run
  refine ⟨⟨s.pending, inv.input⟩, fun hkilled => (inv.killed hkilled).1, ?_⟩
  obtain ⟨rc, hrc, rfl | hfinish⟩ := inv.ended r hr
  · exact ⟨rc, hrc, trivial⟩
  · refine ⟨rc, hrc, ?_⟩
    have hgroup : s.main.inGroup = false := by simp [hr, Point.inGroup]
    rw [hr] at hfinish
    cases hfailure : s.failure with
    | some f =>
        simp only [finish, hfailure, Point.ended.injEq] at hfinish
        rw [hfinish]
        trivial
    | none =>
        have done := inv.joined hgroup hfailure
        have hout : ∀ out, (s.reader out).contents = s.output out := fun out =>
          (contents_of_done (inv.pipes out) (done out)).1
        have hdrained : Drained s := fun out =>
          (contents_of_done (inv.pipes out) (done out)).2
        simp only [finish, hfailure, Point.ended.injEq] at hfinish
        rw [hfinish]
        split_ifs with hcheck
        · exact ⟨rfl, hcheck.1, hcheck.2, hout .stdout, hout .stderr, hdrained⟩
        · refine ⟨rfl, fun h => ?_, hout .stdout, hout .stderr, hdrained⟩
          by_contra hne
          exact hcheck ⟨h, hne⟩

/-- A filter with one pipe that echoes a part of its input and fails. -/
def filterOptions : Options where
  input := [1, 2]
  isPipe := fun out => out = .stdout
  check := true
  capacity := 4
  highWater := 1

def filterRun : List Action :=
  [.reads 1, .sendEnds, .stdinCloses, .writes .stdout [1, 7], .receives .stdout 1, .exits 3,
    .waitEnds, .receives .stdout 1, .closes .stdout, .drains .stdout, .joins, .closeEnds]

theorem filterRun_isSome :
    ((machine filterOptions).exec Machine.anyStep (initial filterOptions) filterRun).isSome := by
  decide

theorem run_process_outcome_filter :
    let s := ((machine filterOptions).exec Machine.anyStep (initial filterOptions)
      filterRun).get filterRun_isSome
    s.main = .ended (.calledProcessError 3 (some [1, 7]) none) ∧ s.received <+: [1, 2] ∧
      ∃ rc, s.returncode = some rc ∧
        Reports filterOptions s rc (.calledProcessError 3 (some [1, 7]) none) := by
  have run := Machine.exec_get_reachable (initial filterOptions) filterRun filterRun_isSome
  have hmain : (((machine filterOptions).exec Machine.anyStep (initial filterOptions)
      filterRun).get filterRun_isSome).main =
        .ended (.calledProcessError 3 (some [1, 7]) none) := by decide
  obtain ⟨hreceived, -, hreports⟩ := run_process_outcome run hmain
  exact ⟨hmain, hreceived, hreports⟩

end Anyio.RunProcess
