import Anyio.TestRunner.Model

/-!
# The exceptions of callbacks are reported once

What the exception handler of the loop and a failing test put into `_exceptions`
is raised by the calls of the runner in the same order, each once. Something is
left for the next call only by a call that raised an exception of its own.
-/

namespace Anyio.TestRunner

open Library

variable {ρ ε : Type*}

/-- The exceptions that were put into `_exceptions`, those that were raised out of it, and whether
the last call raised an exception of its own. -/
structure Account (ε : Type*) where
  recorded : List (Raised ε)
  reported : List (Raised ε)
  ownRaised : Bool
  deriving DecidableEq

def Account.empty (ε : Type*) : Account ε := ⟨[], [], false⟩

/-- The exception that `run_test()` catches. -/
def caught : Operation × Except (Raised ε) ρ → List (Raised ε)
  | (.test, .error e) => if e.isException then [e] else []
  | _ => []

/-- What a step puts into `_exceptions`. -/
def puts (s : State ρ ε) : Action ρ ε → List (Raised ε)
  | .call op =>
      match sendNowait (createTask s) with
      | .ok _ => []
      | .error e => caught (ρ := ρ) (op, .error e)
  | .returns => ((answer s).map caught).getD []
  | .callbackRaises error => [.exception error]
  | _ => []

/-- What `_raise_async_exceptions()` raises. -/
def Reply.reported : Reply ρ ε → List (Raised ε)
  | .reraised e => [e]
  | .raisedGroup es => es
  | _ => []

/-- The call is over, and has raised an exception of its own or not. -/
def Reply.raisesOwn : Reply ρ ε → Option Bool
  | .none => .none
  | .raised _ | .didNotStop => some true
  | .returned _ | .reraised _ | .raisedGroup _ => some false

def account (k : Account ε) (s : State ρ ε) (a : Action ρ ε) (o : Reply ρ ε) : Account ε where
  recorded := k.recorded ++ puts s a
  reported := k.reported ++ o.reported
  ownRaised := o.raisesOwn.getD k.ownRaised

abbrev accounted (ρ ε : Type*) :
    Machine (State ρ ε × Account ε) (Action ρ ε) (Reply ρ ε) :=
  (machine ρ ε).withHistory account

variable {s s' : State ρ ε} {k : Account ε} {a : Action ρ ε} {o : Reply ρ ε}

/-- What is in `_exceptions` is raised in its order, and nothing is left. -/
theorem raise_reported (s : State ρ ε) (value : Option ρ) :
    (raiseAsyncExceptions s value).2.reported = s.exceptions ∧
      (raiseAsyncExceptions s value).1.exceptions = [] ∧
      (raiseAsyncExceptions s value).2.raisesOwn = some false := by
  unfold raiseAsyncExceptions
  split
  · rename_i h
    exact ⟨h.symm, h, rfl⟩
  · rename_i e h
    exact ⟨h.symm, rfl, rfl⟩
  · exact ⟨rfl, rfl, rfl⟩

/-- A call that ends with `es` in `_exceptions`: it raises all of them, or one of its own and none
of them, or it is not over. -/
def Settles (es : List (Raised ε)) (r : State ρ ε × Reply ρ ε) : Prop :=
  es = r.2.reported ++ r.1.exceptions ∧ (r.2.raisesOwn = some false → r.1.exceptions = []) ∧
    (r.2.raisesOwn = none → r.1.main ≠ .idle)

theorem settles_raise (s : State ρ ε) (value : Option ρ) :
    Settles s.exceptions (raiseAsyncExceptions s value) := by
  obtain ⟨hreported, hempty, hown⟩ := raise_reported s value
  refine ⟨?_, fun _ => hempty, fun hnone => ?_⟩
  · rw [hreported, hempty, List.append_nil]
  · rw [hown] at hnone
    cases hnone

theorem settles_raised (s : State ρ ε) (e : Raised ε) :
    Settles s.exceptions (s, (.raised e : Reply ρ ε)) :=
  ⟨rfl, (fun h => by cases h), fun h => by cases h⟩

/-- What a failing test has raised is the last of the exceptions that are raised for it. -/
theorem settles_finish (s : State ρ ε) (op : Operation) (ans : Except (Raised ε) ρ) :
    Settles (s.exceptions ++ caught (op, ans)) (finish s op ans) := by
  have own : ∀ (t : State ρ ε) (e : Raised ε), t.exceptions = s.exceptions →
      Settles (s.exceptions ++ []) (t, (.raised e : Reply ρ ε)) := by
    intro t e h
    rw [List.append_nil, ← h]
    exact settles_raised t e
  have raise : ∀ (t : State ρ ε) value, t.exceptions = s.exceptions →
      Settles (s.exceptions ++ []) (raiseAsyncExceptions t value) := by
    intro t value h
    rw [List.append_nil, ← h]
    exact settles_raise t value
  cases op with
  | test =>
      cases ans with
      | ok value => exact raise _ _ rfl
      | error e =>
          cases hexception : e.isException with
          | false =>
              simp only [caught, finish, hexception, Bool.false_eq_true, if_false]
              exact own _ _ rfl
          | true =>
              simp only [caught, finish, hexception, if_true]
              exact settles_raise { s with main := .idle, exceptions := s.exceptions ++ [e] } none
  | fixture =>
      cases ans with
      | ok value => exact raise _ _ rfl
      | error e => exact own _ _ rfl
  | setup =>
      cases ans with
      | ok value => exact raise _ _ rfl
      | error e => exact own _ _ rfl
  | teardown =>
      cases ans with
      | ok value =>
          refine ⟨?_, ?_, ?_⟩
          · simp [caught, finish, Reply.reported]
          · simp [finish, Reply.raisesOwn]
          · simp [finish]
      | error e =>
          cases e with
          | stopAsyncIteration => exact raise _ _ rfl
          | _ => exact own _ _ rfl

/-- The books: everything that was recorded is reported or waits for the next call, and between
two calls something waits only after a call that raised an exception of its own. -/
structure Balanced (s : State ρ ε) (k : Account ε) : Prop where
  balance : k.recorded = k.reported ++ s.exceptions
  left : s.main = .idle → k.ownRaised = false → s.exceptions = []

theorem Balanced.settles {es : List (Raised ε)} {r : State ρ ε × Reply ρ ε}
    (balanced : Balanced s k) (settles : Settles (s.exceptions ++ es) r) :
    Balanced r.1 ⟨k.recorded ++ es, k.reported ++ r.2.reported,
      r.2.raisesOwn.getD k.ownRaised⟩ := by
  obtain ⟨hbalance, hempty, hmain⟩ := settles
  constructor
  · change k.recorded ++ es = k.reported ++ r.2.reported ++ r.1.exceptions
    rw [balanced.balance, List.append_assoc, hbalance, List.append_assoc]
  · intro hidle hown
    cases hreply : r.2.raisesOwn with
    | none => exact absurd hidle (hmain hreply)
    | some own =>
        simp only [hreply, Option.getD_some] at hown
        exact hempty (hown ▸ hreply)

/-- A step inside of a call. -/
theorem Balanced.inside {es : List (Raised ε)} (balanced : Balanced s k)
    (hexceptions : s'.exceptions = s.exceptions ++ es) (hmain : s'.main ≠ .idle) :
    Balanced s' ⟨k.recorded ++ es, k.reported ++ [], k.ownRaised⟩ where
  balance := by
    change k.recorded ++ es = (k.reported ++ []) ++ s'.exceptions
    rw [balanced.balance, hexceptions, List.append_nil, List.append_assoc]
  left hidle := absurd hidle hmain

theorem sendNowait_exceptions {t : State ρ ε} (ht : sendNowait s = .ok t) :
    t.exceptions = s.exceptions := by
  unfold sendNowait at ht
  split at ht
  · cases ht
  · cases ht
    rfl
  · split_ifs at ht
    cases ht
    rfl

theorem createTask_exceptions (s : State ρ ε) : (createTask s).exceptions = s.exceptions := by
  unfold createTask
  split_ifs <;> rfl

theorem complete_same (s : State ρ ε) (r : RequestId) (result : Except (Raised ε) ρ) :
    (complete s r result).exceptions = s.exceptions ∧ (complete s r result).main = s.main := by
  unfold complete
  split <;> exact ⟨rfl, rfl⟩

theorem Balanced.call (balanced : Balanced s k) (op : Operation) :
    Balanced (call s op).1 (account k s (.call op) (call s op).2) := by
  unfold account TestRunner.call puts
  have hcreated := createTask_exceptions s
  cases hsend : sendNowait (createTask s) with
  | ok t =>
      have hsent := sendNowait_exceptions hsend
      apply balanced.inside
      · rw [List.append_nil, ← hcreated, ← hsent]
      · simp
  | error e =>
      apply balanced.settles
      rw [← hcreated]
      exact settles_finish (createTask s) op (.error e)

/-- A step of the event loop. -/
theorem Balanced.quiet (balanced : Balanced s k) (hrecorded : puts s a = [])
    (hexceptions : s'.exceptions = s.exceptions) (hmain : s'.main ≠ .idle) :
    Balanced s' (account k s a .none) := by
  unfold account
  rw [hrecorded]
  apply balanced.inside
  · rw [List.append_nil, hexceptions]
  · exact hmain

theorem Balanced.step (balanced : Balanced s k) (hs : step s a = some (s', o)) :
    Balanced s' (account k s a o) := by
  cases a with
  | call op =>
      simp only [TestRunner.step, Option.ite_none_right_eq_some, Option.some.injEq] at hs
      have hcall := balanced.call op
      rwa [hs.2] at hcall
  | look =>
      simp only [TestRunner.step, Option.ite_none_right_eq_some] at hs
      obtain ⟨⟨hmain, -⟩, hs⟩ := hs
      split at hs <;> cases hs <;> exact balanced.quiet rfl rfl hmain
  | wake =>
      simp only [TestRunner.step] at hs
      split at hs
      · simp only [Option.ite_none_right_eq_some, Option.some.injEq] at hs
        obtain ⟨hmain, hs⟩ := hs
        cases hs
        exact balanced.quiet rfl rfl hmain
      · cases hs
  | ends result =>
      simp only [TestRunner.step] at hs
      split at hs
      · rename_i r _
        simp only [Option.ite_none_right_eq_some, Option.some.injEq] at hs
        obtain ⟨hmain, hs⟩ := hs
        cases hs
        obtain ⟨hexceptions, hmain'⟩ := complete_same s r result
        exact balanced.quiet rfl hexceptions (hmain'.trans_ne hmain)
      · cases hs
  | cancelTask =>
      simp only [TestRunner.step] at hs
      split at hs
      iterate 3
        · simp only [Option.ite_none_right_eq_some, Option.some.injEq] at hs
          obtain ⟨hmain, hs⟩ := hs
          cases hs
          exact balanced.quiet rfl rfl hmain
      · cases hs
  | cancelMain =>
      simp only [TestRunner.step] at hs
      split at hs
      · rename_i hmain
        split at hs
        · cases hs
          exact balanced.quiet rfl rfl (by simp [hmain])
        · cases hs
          exact balanced.quiet rfl rfl (by simp)
      · cases hs
  | returns =>
      simp only [TestRunner.step, Option.map_eq_some_iff] at hs
      obtain ⟨⟨op, ans⟩, hanswer, hs⟩ := hs
      have hsettled := balanced.settles (settles_finish s op ans)
      unfold account puts
      rw [hs] at hsettled
      simpa [hanswer] using hsettled
  | acloseEnds exc =>
      simp only [TestRunner.step, Option.ite_none_right_eq_some] at hs
      obtain ⟨-, hs⟩ := hs
      have own : ∀ o : Reply ρ ε, o.reported = [] → o.raisesOwn = some true →
          Balanced { s with main := .idle } (account k s (.acloseEnds exc) o) := by
        intro o hreported hown
        have settled : Settles (s.exceptions ++ [])
            (({ s with main := .idle }, o) : State ρ ε × Reply ρ ε) := by
          rw [List.append_nil]
          exact ⟨by rw [hreported, List.nil_append], by simp [hown], by simp [hown]⟩
        exact balanced.settles settled
      split at hs
      · cases hs
        exact own _ rfl rfl
      · cases hs
        exact own _ rfl rfl
  | callbackRaises error =>
      simp only [TestRunner.step, Option.ite_none_right_eq_some, Option.some.injEq] at hs
      obtain ⟨hmain, hs⟩ := hs
      cases hs
      exact balanced.inside rfl hmain

/-- A call that ends without an exception of its own leaves nothing in `_exceptions`. -/
theorem exceptions_of_end (hs : step s a = some (s', o)) (ho : o.raisesOwn = some false) :
    s'.exceptions = [] := by
  cases a with
  | call op =>
      simp only [step, Option.ite_none_right_eq_some, Option.some.injEq] at hs
      obtain ⟨-, hs⟩ := hs
      unfold call at hs
      split at hs
      · cases hs
        cases ho
      · rename_i e _
        have hsettled := settles_finish (createTask s) op (.error e : Except (Raised ε) ρ)
        rw [hs] at hsettled
        exact hsettled.2.1 ho
  | returns =>
      simp only [step, Option.map_eq_some_iff] at hs
      obtain ⟨⟨op, ans⟩, -, hs⟩ := hs
      have hsettled := settles_finish s op ans
      rw [hs] at hsettled
      exact hsettled.2.1 ho
  | acloseEnds exc =>
      simp only [step, Option.ite_none_right_eq_some] at hs
      obtain ⟨-, hs⟩ := hs
      split at hs <;> cases hs <;> cases ho
  | look | wake | ends result | cancelTask | cancelMain | callbackRaises error =>
      have hnone : o = .none := by
        simp only [step] at hs
        grind
      rw [hnone] at ho
      cases ho

/-- In every run, what was put into `_exceptions` is raised in the same order and once, or is
still there. A call that returns leaves nothing there, and a call that finds something there has
been preceded by one that raised an exception of its own. -/
theorem callback_exceptions_once
    (run : (accounted ρ ε).Reachable Machine.anyStep (initial ρ ε, .empty ε) (s, k)) :
    k.recorded = k.reported ++ s.exceptions ∧
    (∀ a s' value, step s a = some (s', .returned value) →
      s'.exceptions = [] ∧ k.recorded ++ puts s a = k.reported) ∧
    (s.main = .idle → s.exceptions ≠ [] → k.ownRaised = true) := by
  have balanced : Balanced s k := by
    apply run.invariant_history (I := Balanced) ⟨rfl, fun _ _ => rfl⟩
    intro s k a s' o balanced _ hs
    exact balanced.step hs
  refine ⟨balanced.balance, ?_, ?_⟩
  · intro a s' value hs
    have hempty := exceptions_of_end hs rfl
    have hbalance := (balanced.step hs).balance
    simp only [account, Reply.reported, hempty, List.append_nil] at hbalance
    exact ⟨hempty, hbalance⟩
  · intro hidle hne
    by_contra hown
    exact hne (balanced.left hidle (Bool.eq_false_iff.mpr hown))

/-- A fixture fails, and what a callback raised meanwhile is left for the next test. -/
def failedFixture : List (Action Nat Nat) :=
  [.call .fixture, .callbackRaises 1, .look, .ends (.error (.exception 2)), .returns]

theorem failedFixture_run : ((accounted Nat Nat).exec Machine.anyStep
    (initial Nat Nat, .empty Nat) failedFixture).isSome := by
  decide

theorem callback_exceptions_once_failedFixture :
    let p := ((accounted Nat Nat).exec Machine.anyStep
      (initial Nat Nat, .empty Nat) failedFixture).get failedFixture_run
    p.1.exceptions = [.exception 1] ∧ p.2.recorded = p.2.reported ++ p.1.exceptions ∧
      p.2.ownRaised = true := by
  have run := Machine.exec_get_reachable (initial Nat Nat, Account.empty Nat) failedFixture
    failedFixture_run
  obtain ⟨hbalance, -, hleft⟩ := callback_exceptions_once run
  exact ⟨by decide, hbalance, hleft (by decide) (by decide)⟩

end Anyio.TestRunner
