import Anyio.TestRunner.Requests

/-!
# Every call of the runner is answered

As long as no coroutine ends with an exception that the runner task does not
survive, and neither this task nor a call is cancelled from outside, every call
finds the runner task ready, gets the answer of its own coroutine, and does not
hang.
-/

namespace Anyio.TestRunner

open Library

variable {ρ ε : Type*} {s s' t : State ρ ε} {h : History ρ ε} {a : Action ρ ε} {o : Reply ρ ε}

/-- Nothing is cancelled, and the runner task survives its coroutines. -/
def Calm (_ : State ρ ε × History ρ ε) : Action ρ ε → Prop
  | .cancelTask | .cancelMain => False
  | .ends (.error e) => e.isSurvived = true
  | _ => True

instance (p : State ρ ε × History ρ ε) (a : Action ρ ε) : Decidable (Calm p a) :=
  match a with
  | .cancelTask | .cancelMain => .isFalse id
  | .ends (.error e) => inferInstanceAs (Decidable (e.isSurvived = true))
  | .ends (.ok _) | .call _ | .look | .wake | .returns | .acloseEnds _ | .callbackRaises _ =>
      .isTrue trivial

/-- The request of a call is on its way, or it was answered last. -/
def Answering (s : State ρ ε) (h : History ρ ε) (r : RequestId) : Prop :=
  s.future r = .pending ∧ s.queue ++ s.task.current = [r] ∨
    ∃ x, s.future r = .finished x ∧ s.queue ++ s.task.current = [] ∧
      h.ended.getLast? = some (r, x)

/-- The runner task has nothing to do except for the call that is under way. -/
structure Served (s : State ρ ε) (h : History ρ ε) : Prop where
  alive : s.task ≠ .ended
  fresh : ∀ r, s.nextRequest ≤ r → s.future r = .pending
  waiting : s.task = .waiting → s.buffer = []
  absent : s.task = .absent → s.buffer = []
  free : (∀ op r c, s.main ≠ .awaiting op r c) → s.queue ++ s.task.current = []
  answering : ∀ op r c, s.main = .awaiting op r c → c = false ∧ r < s.nextRequest ∧
    Answering s h r

theorem served_initial : Served (initial ρ ε) (.empty ρ ε) where
  alive := TaskPoint.noConfusion
  fresh _ _ := rfl
  waiting _ := rfl
  absent _ := rfl
  free _ := rfl
  answering _ _ _ hmain := by cases hmain

/-- A step of the main program only. -/
theorem Served.mainStep (served : Served s h) (same : SameTask s s')
    (hfuture : s'.future = s.future) (hmain : ∀ op r c, s'.main ≠ .awaiting op r c)
    (hidle : s.queue ++ s.task.current = []) : Served s' h := by
  obtain ⟨htask, hbuffer, hnext⟩ := same
  constructor
  · exact htask ▸ served.alive
  · rw [hnext, hfuture]
    exact served.fresh
  · rw [htask, hbuffer]
    exact served.waiting
  · rw [htask, hbuffer]
    exact served.absent
  · intro _
    rw [State.queue, htask, hbuffer]
    exact hidle
  · exact fun op r c hawaiting => absurd hawaiting (hmain op r c)

/-- A ready runner task accepts a request. -/
theorem sendNowait_of_ready (halive : t.task ≠ .ended) (hqueue : t.queue = []) :
    ∃ t', sendNowait t = .ok t' := by
  have hbuffer : t.buffer = [] := (List.append_eq_nil_iff.mp hqueue).2
  unfold sendNowait
  split
  · rename_i hended
    exact absurd hended halive
  · exact ⟨_, rfl⟩
  · simp [hbuffer]

theorem sendNowait_absent {t' : State ρ ε} (ht : sendNowait t = .ok t')
    (habsent : t.task ≠ .absent) : t'.task ≠ .absent := by
  unfold sendNowait at ht
  split at ht
  · cases ht
  · cases ht
    exact TaskPoint.noConfusion
  · split_ifs at ht
    cases ht
    exact habsent

theorem createTask_absent (s : State ρ ε) : (createTask s).task ≠ .absent := by
  unfold createTask
  split_ifs with habsent
  · exact TaskPoint.noConfusion
  · exact habsent

/-- A call that starts while the runner task is ready. -/
theorem Served.call (served : Served s h) (hmain : s.main = .idle) (op : Operation) :
    (call s op).2 = .none ∧ Served (call s op).1 h := by
  have hidle : s.queue ++ s.task.current = [] := served.free (by simp [hmain])
  obtain ⟨hqueue, hcurrent⟩ := List.append_eq_nil_iff.mp hidle
  obtain ⟨hnext, hfuture⟩ := createTask_next s
  obtain ⟨hcreated, hcreated'⟩ := createTask_queue s
  obtain ⟨halive, hwaiting⟩ := createTask_alive s
  obtain ⟨t, ht⟩ :=
    sendNowait_of_ready (halive.mpr served.alive) (hcreated.trans hqueue)
  obtain ⟨-, hopen, hcurrent', hqueue', hnext', hfuture'⟩ := sendNowait_ok ht
  obtain ⟨hq, hw⟩ := hqueue' (hwaiting served.waiting)
  rw [hcreated, hqueue, List.nil_append, hnext] at hq
  rw [hnext] at hnext'
  have hfutures : ∀ r, s.nextRequest ≤ r → t.future r = .pending := by
    intro r hr
    rw [hfuture', hfuture]
    exact served.fresh r hr
  have hnot := sendNowait_absent ht (createTask_absent s)
  rw [TestRunner.call, ht]
  refine ⟨rfl, hopen, ?_, hw, fun habsent => absurd habsent hnot, ?_, ?_⟩
  · intro r hr
    apply hfutures
    exact Nat.le_of_succ_le (hnext'.symm.trans_le hr)
  · exact fun h => absurd rfl (h op s.nextRequest false)
  · intro op' r c hawaiting
    cases hawaiting
    refine ⟨rfl, (Nat.lt_succ_self _).trans_eq hnext'.symm, .inl ⟨hfutures _ le_rfl, ?_⟩⟩
    change t.queue ++ t.task.current = [s.nextRequest]
    rw [hq, hcurrent', hcreated', hcurrent, List.append_nil]

theorem raise_main (s : State ρ ε) (value : Option ρ) :
    (raiseAsyncExceptions s value).1.main = s.main := by
  rw [raiseAsyncExceptions]
  split <;> rfl

/-- A call that has its answer does not wait for another one. -/
theorem finish_main (s : State ρ ε) (op : Operation) (answer : Except (Raised ε) ρ) :
    ∀ op' r c, (finish s op answer).1.main ≠ .awaiting op' r c := by
  intro op' r c
  unfold finish
  dsimp only
  split
  · simp [raise_main]
  · split_ifs <;> simp [raise_main]
  · simp
  · simp [raise_main]
  · simp [raise_main]
  · simp

/-- The runner task turns to the request of the call. -/
theorem Served.starts {r : RequestId} {rest : List RequestId} {h' : History ρ ε}
    (served : Served s h) (hqueue : s.queue = r :: rest) (hcurrent : s.task.current = []) :
    Served { s with task := .running r, buffer := rest } h' := by
  have hsame : s.queue ++ s.task.current ≠ [] := by simp [hqueue]
  constructor
  · simp
  · exact served.fresh
  · simp
  · simp
  · exact fun hfree => absurd (served.free hfree) hsame
  · intro op r' c hawaiting
    obtain ⟨hc, hr, hanswering⟩ := served.answering op r' c hawaiting
    refine ⟨hc, hr, ?_⟩
    obtain ⟨hpending, hone⟩ | ⟨x, -, hnone, -⟩ := hanswering
    · rw [hqueue, hcurrent, List.append_nil] at hone
      obtain ⟨rfl, rfl⟩ := List.cons_eq_cons.mp hone
      exact .inl ⟨hpending, rfl⟩
    · exact absurd hnone hsame

theorem complete_of_pending {r : RequestId} {result : Except (Raised ε) ρ}
    (hpending : s.future r = .pending) (hresult : result ≠ .error .cancelledError) :
    complete s r result =
      { s with future := Function.update s.future r (.finished result) } := by
  unfold complete
  split
  · rename_i hcancelled
    rw [hpending] at hcancelled
    cases hcancelled
  · exact absurd rfl hresult
  · rfl

/-- The coroutine that runs is the one of the call that is under way. -/
theorem Served.running {r : RequestId} (served : Served s h) (htask : s.task = .running r) :
    s.buffer = [] ∧ s.future r = .pending ∧ r < s.nextRequest ∧
      ∃ op, s.main = .awaiting op r false := by
  have hcurrent : s.task.current = [r] := by rw [htask]; rfl
  have hinHand : s.task.inHand = [] := by rw [htask]; rfl
  have hbusy : s.queue ++ s.task.current ≠ [] := by simp [hcurrent]
  obtain ⟨op, r', c, hmain⟩ : ∃ op r' c, s.main = .awaiting op r' c := by
    by_contra hfree
    push Not at hfree
    exact hbusy (served.free hfree)
  obtain ⟨rfl, hr, hanswering⟩ := served.answering op r' c hmain
  obtain ⟨hpending, hone⟩ | ⟨x, -, hnone, -⟩ := hanswering
  · rw [State.queue, hinHand, hcurrent, List.nil_append] at hone
    have hlength := congrArg List.length hone
    simp only [List.length_append, List.length_singleton] at hlength
    have hbuffer : s.buffer = [] := List.length_eq_zero_iff.mp (by omega)
    rw [hbuffer] at hone
    obtain rfl := List.singleton_inj.mp hone
    exact ⟨hbuffer, hpending, hr, op, hmain⟩
  · exact absurd hnone hbusy

/-- The coroutine of the call ends, and its future gets what it did. -/
theorem Served.ends {r : RequestId} (served : Served s h) (htask : s.task = .running r)
    {result : Except (Raised ε) ρ} (hlooks : goesOn result = .looking)
    (hresult : result ≠ .error .cancelledError) :
    Served { complete s r result with task := goesOn result }
      { h with ended := h.ended ++ [(r, result)] } := by
  obtain ⟨hbuffer, hpending, hr, op, hmain⟩ := served.running htask
  rw [complete_of_pending hpending hresult, hlooks]
  constructor
  · simp
  · intro r' hr'
    change Function.update s.future r (.finished result) r' = .pending
    rw [Function.update_of_ne (hr.trans_le hr').ne']
    exact served.fresh r' hr'
  · simp
  · simp
  · exact fun hfree => absurd hmain (hfree op r false)
  · intro op' r' c hawaiting
    change s.main = .awaiting op' r' c at hawaiting
    rw [hmain] at hawaiting
    cases hawaiting
    refine ⟨rfl, hr, .inr ⟨result, Function.update_self .., ?_, ?_⟩⟩
    · simp [State.queue, TaskPoint.inHand, TaskPoint.current, hbuffer]
    · exact List.getLast?_concat

/-- The answer of a call is what its coroutine did, which ended last. -/
theorem Served.answer {op : Operation} {ans : Except (Raised ε) ρ} (served : Served s h)
    (hanswer : answer s = some (op, ans)) : ∃ r, s.main = .awaiting op r false ∧
      s.queue ++ s.task.current = [] ∧ h.ended.getLast? = some (r, ans) := by
  unfold TestRunner.answer at hanswer
  split at hanswer
  · rename_i op' r c hmain
    obtain ⟨rfl, -, hanswering⟩ := served.answering op' r c hmain
    obtain ⟨hpending, -⟩ | ⟨x, hx, hidle, hlast⟩ := hanswering
    · simp [hpending] at hanswer
    · simp only [hx, Bool.false_eq_true, if_false, Option.some.injEq, Prod.mk.injEq] at hanswer
      obtain ⟨rfl, rfl⟩ := hanswer
      exact ⟨r, hmain, hidle, hlast⟩
  · cases hanswer

theorem Served.step (served : Served s h) (ok : Calm (s, h) a)
    (hs : step s a = some (s', o)) : Served s' (record h s a o) := by
  cases a with
  | call op =>
      simp only [TestRunner.step, Option.ite_none_right_eq_some, Option.some.injEq] at hs
      obtain ⟨hmain, hs⟩ := hs
      have hcall := (served.call hmain op).2
      rwa [hs] at hcall
  | look =>
      simp only [TestRunner.step, Option.ite_none_right_eq_some] at hs
      obtain ⟨⟨-, htask⟩, hs⟩ := hs
      have hinHand : s.task.inHand = [] := by rw [htask]; rfl
      have hcurrent : s.task.current = [] := by rw [htask]; rfl
      split at hs
      · rename_i hbuffer
        cases hs
        have hrecord : record h s .look (.none : Reply ρ ε) = h := by simp [record, hbuffer]
        rw [hrecord]
        have hsame : s.queue ++ s.task.current = [] := by
          rw [State.queue, hinHand, hcurrent, hbuffer]
          rfl
        refine ⟨by simp, served.fresh, fun _ => hbuffer, fun _ => hbuffer, fun _ => ?_,
          fun op r c hm => ?_⟩
        · simp [State.queue, TaskPoint.inHand, TaskPoint.current, hbuffer]
        · obtain ⟨hc, hr, hanswering⟩ := served.answering op r c hm
          refine ⟨hc, hr, ?_⟩
          obtain ⟨-, hone⟩ | ⟨x, hx, -, hlast⟩ := hanswering
          · rw [hsame] at hone
            cases hone
          · refine .inr ⟨x, hx, ?_, hlast⟩
            simp [State.queue, TaskPoint.inHand, TaskPoint.current, hbuffer]
      · rename_i r rest hbuffer
        cases hs
        apply served.starts _ hcurrent
        rw [State.queue, hinHand, hbuffer, List.nil_append]
  | wake =>
      simp only [TestRunner.step] at hs
      split at hs
      · rename_i r htask
        simp only [Option.ite_none_right_eq_some, Option.some.injEq] at hs
        obtain ⟨-, hs⟩ := hs
        cases hs
        have hqueue : s.queue = r :: s.buffer := by
          rw [State.queue, htask]
          rfl
        apply served.starts hqueue
        rw [htask]
        rfl
      · cases hs
  | ends result =>
      simp only [TestRunner.step] at hs
      split at hs
      · rename_i r htask
        simp only [Option.ite_none_right_eq_some, Option.some.injEq] at hs
        obtain ⟨-, hs⟩ := hs
        cases hs
        have hrecord : record h s (.ends result) (.none : Reply ρ ε) =
            { h with ended := h.ended ++ [(r, result)] } := by
          simp [record, htask]
        rw [hrecord]
        cases result with
        | ok value => exact served.ends htask rfl (by simp)
        | error e =>
            have hsurvived : e.isSurvived = true := ok
            apply served.ends htask
            · rw [goesOn, if_pos hsurvived]
            · intro h
              obtain rfl := Except.error.inj h
              cases hsurvived
      · cases hs
  | cancelTask => exact ok.elim
  | cancelMain => exact ok.elim
  | returns =>
      simp only [TestRunner.step, Option.map_eq_some_iff] at hs
      obtain ⟨⟨op, ans⟩, hanswer, hs⟩ := hs
      obtain ⟨r, -, hidle, -⟩ := served.answer hanswer
      obtain ⟨same, hfuture⟩ := sameTask_finish s op ans
      have hnot := finish_main s op ans
      rw [hs] at same hfuture hnot
      exact served.mainStep same hfuture hnot hidle
  | acloseEnds exc =>
      simp only [TestRunner.step, Option.ite_none_right_eq_some] at hs
      obtain ⟨hmain, hs⟩ := hs
      have hidle := served.free (by simp [hmain])
      split at hs <;> cases hs <;> exact served.mainStep ⟨rfl, rfl, rfl⟩ rfl (by simp) hidle
  | callbackRaises error =>
      simp only [TestRunner.step, Option.ite_none_right_eq_some, Option.some.injEq] at hs
      obtain ⟨-, hs⟩ := hs
      cases hs
      exact ⟨served.alive, served.fresh, served.waiting, served.absent, served.free,
        served.answering⟩

/-- A call does not hang in `run_until_complete()`. -/
theorem Served.goes {op : Operation} {r : RequestId} {c : Bool} (served : Served s h)
    (hmain : s.main = .awaiting op r c) :
    (∃ r, s.task = .running r) ∨
      ∃ a ∈ [Action.look, .wake, .returns], (TestRunner.step s a).isSome := by
  have hbusy : s.main ≠ .idle := by simp [hmain]
  obtain ⟨-, -, ⟨-, hone⟩ | ⟨x, hx, -, -⟩⟩ := served.answering op r c hmain
  · cases htask : s.task with
    | absent =>
        rw [State.queue, htask, served.absent htask] at hone
        cases hone
    | looking =>
        refine .inr ⟨.look, by simp, ?_⟩
        cases hbuffer : s.buffer <;> simp [TestRunner.step, hbusy, htask, hbuffer]
    | waiting =>
        rw [State.queue, htask, served.waiting htask] at hone
        cases hone
    | handed r' => exact .inr ⟨.wake, by simp, by simp [TestRunner.step, hbusy, htask]⟩
    | running r' => exact .inl ⟨r', rfl⟩
    | ended => exact absurd htask served.alive
  · exact .inr ⟨.returns, by simp, by simp [TestRunner.step, TestRunner.answer, hmain, hx]⟩

/-- In a run in which nothing is cancelled and the runner task survives every coroutine, each
call is accepted, ends with what its own coroutine did last, and never waits for nothing. -/
theorem calls_answered
    (run : (recorded ρ ε).Reachable Calm (initial ρ ε, .empty ρ ε) (s, h)) :
    (∀ op, s.main = .idle → ∃ s', step s (.call op) = some (s', .none)) ∧
    (∀ s' o, step s .returns = some (s', o) → ∃ op r x, s.main = .awaiting op r false ∧
      h.ended.getLast? = some (r, x) ∧ (s', o) = finish s op x) ∧
    ∀ op r c, s.main = .awaiting op r c →
      (∃ r, s.task = .running r) ∨ ∃ a ∈ [Action.look, .wake, .returns], (step s a).isSome := by
  have served : Served s h := by
    apply run.invariant_history served_initial
    intro s h a s' o served ok hs
    exact served.step ok hs
  refine ⟨?_, ?_, fun op r c hmain => served.goes hmain⟩
  · intro op hmain
    refine ⟨(call s op).1, ?_⟩
    rw [step, if_pos hmain, ← (served.call hmain op).1]
  · intro s' o hs
    simp only [step, Option.map_eq_some_iff] at hs
    obtain ⟨⟨op, ans⟩, hanswer, hs⟩ := hs
    obtain ⟨r, hmain, -, hlast⟩ := served.answer hanswer
    exact ⟨op, r, ans, hmain, hlast, hs.symm⟩

/-- The setup of a generator fixture, a failing test and the teardown. -/
def generatorFixture : List (Action Nat Nat) :=
  [.call .setup, .look, .ends (.ok 5), .returns, .call .test, .callbackRaises 8, .look,
    .ends (.error (.exception 9)), .returns, .call .teardown, .look,
    .ends (.error .stopAsyncIteration)]

theorem generatorFixture_run : ((recorded Nat Nat).exec Calm
    (initial Nat Nat, .empty Nat Nat) generatorFixture).isSome := by
  decide

theorem calls_answered_generatorFixture :
    let p := ((recorded Nat Nat).exec Calm
      (initial Nat Nat, .empty Nat Nat) generatorFixture).get generatorFixture_run
    p.1.main = .awaiting .teardown 2 false ∧
      ∃ op r x, p.1.main = .awaiting op r false ∧ p.2.ended.getLast? = some (r, x) ∧
        finish p.1 op x = finish p.1 .teardown (.error .stopAsyncIteration) := by
  have run := Machine.exec_get_reachable (initial Nat Nat, History.empty Nat Nat)
    generatorFixture generatorFixture_run
  refine ⟨by decide, ?_⟩
  obtain ⟨op, r, x, hmain, hlast, hfinish⟩ := (calls_answered run).2.1 _ _ rfl
  exact ⟨op, r, x, hmain, hlast, hfinish.symm⟩

end Anyio.TestRunner
