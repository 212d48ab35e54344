import Anyio.TestRunner.Model
import Mathlib.Data.List.Range

/-!
# The runner task serves every request in its turn

All coroutines of the tests and fixtures run in one task, one after the other
and in the order in which they were handed over, and a future gets what its own
coroutine did. A coroutine that ends with a cancellation, or with an exception
that is neither an `Exception` nor an outcome of pytest, is the last one.
-/

namespace Anyio.TestRunner

open Library

/-- The coroutines that were started, and what those that ended did. -/
structure History (ρ ε : Type*) where
  started : List RequestId
  ended : List (RequestId × Except (Raised ε) ρ)
  deriving DecidableEq

def History.empty (ρ ε : Type*) : History ρ ε := ⟨[], []⟩

variable {ρ ε : Type*}

def record (h : History ρ ε) (s : State ρ ε) (a : Action ρ ε) (_ : Reply ρ ε) : History ρ ε :=
  match a, s.task, s.buffer with
  | .look, _, r :: _ => { h with started := h.started ++ [r] }
  | .wake, .handed r, _ => { h with started := h.started ++ [r] }
  | .ends result, .running r, _ => { h with ended := h.ended ++ [(r, result)] }
  | _, _, _ => h

abbrev recorded (ρ ε : Type*) :
    Machine (State ρ ε × History ρ ε) (Action ρ ε) (Reply ρ ε) :=
  (machine ρ ε).withHistory record

/-- The coroutine that runs. -/
def TaskPoint.current : TaskPoint → List RequestId
  | .running r => [r]
  | _ => []

/-- The request in the hands of the receiver. -/
def TaskPoint.inHand : TaskPoint → List RequestId
  | .handed r => [r]
  | _ => []

/-- The requests that were accepted and whose coroutines were not started. -/
def State.queue (s : State ρ ε) : List RequestId := s.task.inHand ++ s.buffer

variable {s s' : State ρ ε} {h : History ρ ε} {a : Action ρ ε} {o : Reply ρ ε}

/-- The part of a state on which the order of the requests depends. -/
structure SameTask (s s' : State ρ ε) : Prop where
  task : s'.task = s.task
  buffer : s'.buffer = s.buffer
  nextRequest : s'.nextRequest = s.nextRequest

theorem sameTask_raise (s : State ρ ε) (value : Option ρ) :
    SameTask s (raiseAsyncExceptions s value).1 ∧
      (raiseAsyncExceptions s value).1.future = s.future := by
  rw [raiseAsyncExceptions]
  split <;> exact ⟨⟨rfl, rfl, rfl⟩, rfl⟩

/-- The end of a call does not touch the runner task. -/
theorem sameTask_finish (s : State ρ ε) (op : Operation) (answer : Except (Raised ε) ρ) :
    SameTask s (finish s op answer).1 ∧ (finish s op answer).1.future = s.future := by
  have raise : ∀ (t : State ρ ε) value, SameTask s t → t.future = s.future →
      SameTask s (raiseAsyncExceptions t value).1 ∧
        (raiseAsyncExceptions t value).1.future = s.future := by
    intro t value same hfuture
    obtain ⟨same', hfuture'⟩ := sameTask_raise t value
    exact ⟨⟨same'.task.trans same.task, same'.buffer.trans same.buffer,
      same'.nextRequest.trans same.nextRequest⟩, hfuture'.trans hfuture⟩
  unfold finish
  dsimp only
  split
  · exact raise _ _ ⟨rfl, rfl, rfl⟩ rfl
  · split_ifs
    · exact raise _ _ ⟨rfl, rfl, rfl⟩ rfl
    · exact ⟨⟨rfl, rfl, rfl⟩, rfl⟩
  · exact ⟨⟨rfl, rfl, rfl⟩, rfl⟩
  · exact raise _ _ ⟨rfl, rfl, rfl⟩ rfl
  · exact raise _ _ ⟨rfl, rfl, rfl⟩ rfl
  · exact ⟨⟨rfl, rfl, rfl⟩, rfl⟩

/-- What a step does to the runner task and its requests. -/
inductive Change (s : State ρ ε) : Action ρ ε → State ρ ε → Prop
  | kept {a : Action ρ ε} {s' : State ρ ε} (same : SameTask s s') (future : s'.future = s.future)
      (quiet : ∀ h o, record h s a o = h) : Change s a s'
  | created {op : Operation} {s' : State ρ ε} (absent : s.task = .absent)
      (task : s'.task = .looking) (buffer : s'.buffer = s.buffer)
      (next : s'.nextRequest = s.nextRequest) (future : s'.future = s.future) :
      Change s (.call op) s'
  | accepted {op : Operation} {s' : State ρ ε} (alive : s.task ≠ .ended ∧ s'.task ≠ .ended)
      (current : s'.task.current = s.task.current)
      (queue : (s.task = .waiting → s.buffer = []) →
        s'.queue = s.queue ++ [s.nextRequest] ∧ (s'.task = .waiting → s'.buffer = []))
      (next : s'.nextRequest = s.nextRequest + 1) (future : s'.future = s.future) :
      Change s (.call op) s'
  | waits (task : s.task = .looking) (buffer : s.buffer = []) :
      Change s .look { s with task := .waiting }
  | takes {r : RequestId} {rest : List RequestId} (task : s.task = .looking)
      (buffer : s.buffer = r :: rest) :
      Change s .look { s with task := .running r, buffer := rest }
  | wakes {r : RequestId} (task : s.task = .handed r) :
      Change s .wake { s with task := .running r }
  | ends {r : RequestId} {result : Except (Raised ε) ρ} (task : s.task = .running r) :
      Change s (.ends result) { complete s r result with task := goesOn result }
  | cancelled (task : s.task.current = []) (open' : s.task ≠ .ended) :
      Change s .cancelTask { s with task := .ended }
  | cancelledMain {r : RequestId} (future : s.future r = .pending) :
      Change s .cancelMain { s with future := Function.update s.future r .cancelled }

/-- `send_nowait()` adds the request at the end of the queue. -/
theorem sendNowait_ok {t : State ρ ε} (ht : sendNowait s = .ok t) :
    s.task ≠ .ended ∧ t.task ≠ .ended ∧ t.task.current = s.task.current ∧
      ((s.task = .waiting → s.buffer = []) →
        t.queue = s.queue ++ [s.nextRequest] ∧ (t.task = .waiting → t.buffer = [])) ∧
      t.nextRequest = s.nextRequest + 1 ∧ t.future = s.future := by
  unfold sendNowait at ht
  split at ht
  · cases ht
  · rename_i htask
    cases ht
    refine ⟨by simp [htask], by simp, by simp [htask, TaskPoint.current], fun hempty => ?_, rfl, rfl⟩
    simp [State.queue, htask, hempty htask, TaskPoint.inHand]
  · rename_i hended hwaiting
    split_ifs at ht
    cases ht
    refine ⟨hended, hended, rfl, fun _ => ⟨?_, fun h => absurd h hwaiting⟩, rfl, rfl⟩
    simp [State.queue]

/-- A task that was just created looks into the stream first. -/
theorem createTask_cases (s : State ρ ε) :
    s.task = .absent ∧ createTask s = { s with task := .looking } ∨ createTask s = s := by
  unfold createTask
  by_cases habsent : s.task = .absent
  · exact .inl ⟨habsent, if_pos habsent⟩
  · exact .inr (if_neg habsent)

theorem createTask_queue (s : State ρ ε) : (createTask s).queue = s.queue ∧
    (createTask s).task.current = s.task.current := by
  obtain ⟨habsent, h⟩ | h := createTask_cases s
  · rw [h, State.queue, State.queue, habsent]
    exact ⟨rfl, rfl⟩
  · rw [h]
    exact ⟨rfl, rfl⟩

theorem createTask_next (s : State ρ ε) : (createTask s).nextRequest = s.nextRequest ∧
    (createTask s).future = s.future := by
  obtain ⟨-, h⟩ | h := createTask_cases s <;> rw [h] <;> exact ⟨rfl, rfl⟩

theorem createTask_alive (s : State ρ ε) :
    ((createTask s).task ≠ .ended ↔ s.task ≠ .ended) ∧
      ((s.task = .waiting → s.buffer = []) →
        (createTask s).task = .waiting → (createTask s).buffer = []) := by
  obtain ⟨habsent, h⟩ | h := createTask_cases s
  · rw [h, habsent]
    simp
  · rw [h]
    exact ⟨Iff.rfl, id⟩

theorem change_of_call (s : State ρ ε) (op : Operation) :
    Change s (.call op) (call s op).1 := by
  unfold call
  obtain ⟨hnext, hfuture⟩ := createTask_next s
  obtain ⟨hqueue, hcurrent⟩ := createTask_queue s
  obtain ⟨halive, hwaiting⟩ := createTask_alive s
  cases hsend : sendNowait (createTask s) with
  | error e =>
      obtain ⟨same, hfuture'⟩ :=
        sameTask_finish (createTask s) op (.error e : Except (Raised ε) ρ)
      obtain ⟨habsent, h⟩ | h := createTask_cases s
      · rw [h] at same hfuture' ⊢
        exact .created habsent same.task same.buffer same.nextRequest hfuture'
      · rw [h] at same hfuture' ⊢
        exact .kept same hfuture' fun _ _ => rfl
  | ok t =>
      obtain ⟨hopen, hopen', hcurrent', hqueue', hnext', hfuture'⟩ := sendNowait_ok hsend
      refine .accepted ⟨halive.mp hopen, hopen'⟩ (hcurrent'.trans hcurrent) (fun hempty => ?_)
        (hnext'.trans (congrArg Nat.succ hnext)) (hfuture'.trans hfuture)
      obtain ⟨hq, hw⟩ := hqueue' (hwaiting hempty)
      exact ⟨by rw [← hqueue, ← hnext]; exact hq, hw⟩

theorem step_change (hs : step s a = some (s', o)) : Change s a s' := by
  cases a with
  | call op =>
      simp only [step, Option.ite_none_right_eq_some, Option.some.injEq] at hs
      have change := change_of_call s op
      rwa [hs.2] at change
  | look =>
      simp only [step, Option.ite_none_right_eq_some] at hs
      obtain ⟨⟨-, htask⟩, hs⟩ := hs
      split at hs
      · rename_i hbuffer
        cases hs
        exact .waits htask hbuffer
      · rename_i hbuffer
        cases hs
        exact .takes htask hbuffer
  | wake =>
      simp only [step] at hs
      split at hs
      · rename_i htask
        simp only [Option.ite_none_right_eq_some, Option.some.injEq] at hs
        obtain ⟨-, hs⟩ := hs
        cases hs
        exact .wakes htask
      · cases hs
  | ends result =>
      simp only [step] at hs
      split at hs
      · rename_i htask
        simp only [Option.ite_none_right_eq_some, Option.some.injEq] at hs
        obtain ⟨-, hs⟩ := hs
        cases hs
        exact .ends htask
      · cases hs
  | cancelTask =>
      simp only [step] at hs
      split at hs
      · rename_i htask
        simp only [Option.ite_none_right_eq_some, Option.some.injEq] at hs
        obtain ⟨-, hs⟩ := hs
        cases hs
        exact .cancelled (by simp [htask, TaskPoint.current]) (by simp [htask])
      · rename_i htask
        simp only [Option.ite_none_right_eq_some, Option.some.injEq] at hs
        obtain ⟨-, hs⟩ := hs
        cases hs
        exact .cancelled (by simp [htask, TaskPoint.current]) (by simp [htask])
      · rename_i htask
        simp only [Option.ite_none_right_eq_some, Option.some.injEq] at hs
        obtain ⟨-, hs⟩ := hs
        cases hs
        exact .cancelled (by simp [htask, TaskPoint.current]) (by simp [htask])
      · cases hs
  | cancelMain =>
      simp only [step] at hs
      split at hs
      · split at hs
        · rename_i hfuture
          cases hs
          exact .cancelledMain hfuture
        · cases hs
          exact .kept ⟨rfl, rfl, rfl⟩ rfl fun _ _ => rfl
      · cases hs
  | returns =>
      simp only [step, Option.map_eq_some_iff] at hs
      obtain ⟨⟨op, ans⟩, -, hs⟩ := hs
      obtain ⟨same, hfuture⟩ := sameTask_finish s op ans
      rw [hs] at same hfuture
      exact .kept same hfuture fun _ _ => rfl
  | acloseEnds exc =>
      simp only [step, Option.ite_none_right_eq_some] at hs
      obtain ⟨-, hs⟩ := hs
      split at hs <;> cases hs <;> exact .kept ⟨rfl, rfl, rfl⟩ rfl fun _ _ => rfl
  | callbackRaises error =>
      simp only [step, Option.ite_none_right_eq_some, Option.some.injEq] at hs
      obtain ⟨-, hs⟩ := hs
      cases hs
      exact .kept ⟨rfl, rfl, rfl⟩ rfl fun _ _ => rfl

/-- The requests are numbered in the order in which they are accepted; the queue holds the ones
that were not started, as long as anybody looks into it. -/
structure Inv (s : State ρ ε) (h : History ρ ε) : Prop where
  started : h.started = List.range h.started.length
  bounded : h.started.length ≤ s.nextRequest
  queued : s.task ≠ .ended → h.started ++ s.queue = List.range s.nextRequest
  ended : h.ended.map Prod.fst ++ s.task.current = h.started
  answered : ∀ r x, s.future r = .finished x → (r, x) ∈ h.ended
  waiting : s.task = .waiting → s.buffer = []
  survived : ∀ r e, (r, .error e) ∈ h.ended → e.isSurvived = false → s.task = .ended

theorem inv_initial : Inv (initial ρ ε) (.empty ρ ε) where
  started := rfl
  bounded := Nat.le_refl 0
  queued _ := rfl
  ended := rfl
  answered _ _ hf := by cases hf
  waiting _ := rfl
  survived _ _ hmem := absurd hmem List.not_mem_nil

theorem Inv.same (inv : Inv s h) (same : SameTask s s') (hfuture : s'.future = s.future) :
    Inv s' h := by
  obtain ⟨htask, hbuffer, hnext⟩ := same
  constructor
  · exact inv.started
  · exact hnext ▸ inv.bounded
  · rw [State.queue, htask, hbuffer, hnext]
    exact inv.queued
  · exact htask ▸ inv.ended
  · exact hfuture ▸ inv.answered
  · rw [htask, hbuffer]
    exact inv.waiting
  · exact htask ▸ inv.survived

/-- No request is started before its turn. -/
theorem range_of_prefix {l m : List Nat} {n : Nat} (h : l ++ m = List.range n) :
    l = List.range l.length ∧ l.length ≤ n := by
  have hlength : l.length ≤ n := by
    have := congrArg List.length h
    rw [List.length_append, List.length_range] at this
    omega
  refine ⟨?_, hlength⟩
  calc l = (l ++ m).take l.length := (List.take_left' rfl).symm
    _ = (List.range n).take l.length := by rw [h]
    _ = List.range (min l.length n) := List.take_range
    _ = List.range l.length := by rw [Nat.min_eq_left hlength]

/-- The next coroutine of the queue is started by a task that runs none. -/
theorem Inv.starts {r : RequestId} {rest : List RequestId} (inv : Inv s h)
    (hqueue : s.queue = r :: rest) (hcurrent : s.task.current = []) (hopen : s.task ≠ .ended) :
    Inv { s with task := .running r, buffer := rest }
      { h with started := h.started ++ [r] } := by
  have hrange : (h.started ++ [r]) ++ rest = List.range s.nextRequest := by
    rw [List.append_assoc, ← inv.queued hopen, hqueue, List.singleton_append]
  obtain ⟨hstarted, hbound⟩ := range_of_prefix hrange
  constructor
  · exact hstarted
  · exact hbound
  · exact fun _ => hrange
  · change h.ended.map Prod.fst ++ [r] = h.started ++ [r]
    rw [← inv.ended, hcurrent, List.append_nil]
  · exact inv.answered
  · simp
  · intro r' e hmem hsurvived
    exact absurd (inv.survived r' e hmem hsurvived) hopen

theorem goesOn_inHand (result : Except (Raised ε) ρ) :
    (goesOn result).inHand = [] ∧ (goesOn result).current = [] ∧
      goesOn result ≠ .waiting := by
  cases result with
  | ok value => exact ⟨rfl, rfl, TaskPoint.noConfusion⟩
  | error e =>
      rw [goesOn]
      split_ifs <;> exact ⟨rfl, rfl, TaskPoint.noConfusion⟩

theorem complete_future {r r' : RequestId} {result x : Except (Raised ε) ρ}
    (hx : (complete s r result).future r' = .finished x) :
    s.future r' = .finished x ∨ r' = r ∧ x = result := by
  unfold complete at hx
  split at hx
  · exact .inl hx
  · dsimp only at hx
    by_cases hr : r' = r
    · simp [hr] at hx
    · rw [Function.update_of_ne hr] at hx
      exact .inl hx
  · dsimp only at hx
    by_cases hr : r' = r
    · rw [hr, Function.update_self] at hx
      cases hx
      exact .inr ⟨hr, rfl⟩
    · rw [Function.update_of_ne hr] at hx
      exact .inl hx

@[simp] theorem complete_task (s : State ρ ε) (r : RequestId) (result : Except (Raised ε) ρ) :
    SameTask s (complete s r result) := by
  unfold complete
  split <;> exact ⟨rfl, rfl, rfl⟩

theorem Inv.ends {r : RequestId} (inv : Inv s h) (htask : s.task = .running r)
    (result : Except (Raised ε) ρ) :
    Inv { complete s r result with task := goesOn result }
      { h with ended := h.ended ++ [(r, result)] } := by
  obtain ⟨-, hbuffer, hnext⟩ := complete_task s r result
  obtain ⟨hinHand, hcurrent, hwaiting⟩ := goesOn_inHand result
  have hopen : s.task ≠ .ended := by simp [htask]
  constructor
  · exact inv.started
  · exact hnext ▸ inv.bounded
  · intro _
    change h.started ++ ((goesOn result).inHand ++ (complete s r result).buffer) =
      List.range (complete s r result).nextRequest
    rw [hinHand, hbuffer, hnext, ← inv.queued hopen, State.queue, htask]
    rfl
  · change (h.ended ++ [(r, result)]).map Prod.fst ++ (goesOn result).current = h.started
    rw [hcurrent, ← inv.ended, htask, List.map_append, List.append_nil]
    rfl
  · intro r' x hx
    rcases complete_future hx with hold | ⟨rfl, rfl⟩
    · exact List.mem_append_left _ (inv.answered r' x hold)
    · exact List.mem_append_right _ (List.mem_singleton_self _)
  · exact fun h => absurd h hwaiting
  · intro r' e hmem hsurvived
    rcases List.mem_append.mp hmem with hmem | hmem
    · exact absurd (inv.survived r' e hmem hsurvived) hopen
    · have hlast := List.mem_singleton.mp hmem
      simp only [Prod.mk.injEq] at hlast
      change goesOn result = .ended
      rw [← hlast.2, goesOn, hsurvived]
      rfl

theorem Inv.step (inv : Inv s h) (change : Change s a s') : Inv s' (record h s a o) := by
  cases change with
  | kept same hfuture quiet =>
      rw [quiet]
      exact inv.same same hfuture
  | created habsent htask hbuffer hnext hfuture =>
      have hqueue : s'.queue = s.queue := by
        rw [State.queue, State.queue, htask, habsent, hbuffer]
        rfl
      constructor
      · exact inv.started
      · exact hnext ▸ inv.bounded
      · intro _
        change h.started ++ s'.queue = _
        rw [hqueue, hnext]
        exact inv.queued (by simp [habsent])
      · change h.ended.map Prod.fst ++ s'.task.current = h.started
        rw [htask, ← inv.ended, habsent]
        rfl
      · exact hfuture ▸ inv.answered
      · simp [htask]
      · intro r e hmem hsurvived
        have hended := inv.survived r e hmem hsurvived
        rw [habsent] at hended
        cases hended
  | accepted alive hcurrent hqueue hnext hfuture =>
      obtain ⟨hq, hw⟩ := hqueue inv.waiting
      constructor
      · exact inv.started
      · rw [hnext]
        exact Nat.le_succ_of_le inv.bounded
      · intro _
        change h.started ++ s'.queue = _
        rw [hq, hnext, List.range_succ, ← inv.queued alive.1, List.append_assoc]
      · exact hcurrent ▸ inv.ended
      · exact hfuture ▸ inv.answered
      · exact hw
      · intro r e hmem hsurvived
        exact absurd (inv.survived r e hmem hsurvived) alive.1
  | waits htask hbuffer =>
      have hopen : s.task ≠ .ended := by simp [htask]
      have hrecord : record h s .look o = h := by simp [record, hbuffer]
      rw [hrecord]
      constructor
      · exact inv.started
      · exact inv.bounded
      · intro _
        have hqueued := inv.queued hopen
        rwa [State.queue, htask] at hqueued
      · have hended := inv.ended
        rwa [htask] at hended
      · exact inv.answered
      · exact fun _ => hbuffer
      · intro r e hmem hsurvived
        exact absurd (inv.survived r e hmem hsurvived) hopen
  | @takes r rest htask hbuffer =>
      have hrecord : record h s .look o = { h with started := h.started ++ [r] } := by
        simp [record, hbuffer]
      rw [hrecord]
      apply inv.starts
      · rw [State.queue, htask, hbuffer]
        rfl
      · rw [htask]
        rfl
      · simp [htask]
  | @wakes r htask =>
      have hrecord : record h s .wake o = { h with started := h.started ++ [r] } := by
        simp [record, htask]
      rw [hrecord]
      have hqueue : s.queue = r :: s.buffer := by
        rw [State.queue, htask]
        rfl
      apply inv.starts hqueue
      · rw [htask]
        rfl
      · simp [htask]
  | @ends r result htask =>
      have hrecord : record h s (.ends result) o =
          { h with ended := h.ended ++ [(r, result)] } := by
        simp [record, htask]
      rw [hrecord]
      exact inv.ends htask result
  | cancelled hcurrent hopen =>
      constructor
      · exact inv.started
      · exact inv.bounded
      · exact fun h => absurd rfl h
      · have hended := inv.ended
        rwa [hcurrent] at hended
      · exact inv.answered
      · exact fun h => by cases h
      · exact fun _ _ _ _ => rfl
  | @cancelledMain r hpending =>
      constructor
      · exact inv.started
      · exact inv.bounded
      · exact inv.queued
      · exact inv.ended
      · intro r' x hx
        by_cases hr : r' = r
        · simp [hr] at hx
        · change Function.update s.future r .cancelled r' = .finished x at hx
          rw [Function.update_of_ne hr] at hx
          exact inv.answered r' x hx
      · exact inv.waiting
      · exact inv.survived

theorem inv_of_run
    (run : (recorded ρ ε).Reachable Machine.anyStep (initial ρ ε, .empty ρ ε) (s, h)) :
    Inv s h := by
  apply run.invariant_history inv_initial
  intro s h a s' o inv _ hs
  exact inv.step (step_change hs)

/-- A runner task that is over starts nothing more. -/
theorem started_of_ended {h' : History ρ ε} (hended : s.task = .ended)
    (run : (recorded ρ ε).Reachable Machine.anyStep (s, h) (s', h')) :
    s'.task = .ended ∧ h'.started = h.started := by
  apply run.invariant_history (I := fun t k => t.task = .ended ∧ k.started = h.started)
    ⟨hended, rfl⟩
  intro t k a t' o inv _ hs
  obtain ⟨htask, hstarted⟩ := inv
  cases step_change hs with
  | kept same _ quiet =>
      rw [quiet]
      exact ⟨same.task.trans htask, hstarted⟩
  | cancelledMain _ => exact ⟨htask, hstarted⟩
  | accepted alive _ _ _ _ => exact absurd htask alive.1
  | cancelled _ hopen => exact absurd htask hopen
  | created h _ _ _ _ | waits h _ | takes h _ | wakes h | ends h =>
      rw [htask] at h
      cases h

/-- In every run the coroutines are started one after the other in the order of their requests,
and all that were accepted are started or in the queue while the runner task is alive. A future
has only what its own coroutine did, and nothing is started after a coroutine by which the task
does not survive. -/
theorem requests_in_turn
    (run : (recorded ρ ε).Reachable Machine.anyStep (initial ρ ε, .empty ρ ε) (s, h)) :
    (h.started = List.range h.started.length ∧
      h.ended.map Prod.fst ++ s.task.current = h.started) ∧
    (s.task ≠ .ended → h.started ++ s.queue = List.range s.nextRequest) ∧
    (∀ r x, s.future r = .finished x → (r, x) ∈ h.ended) ∧
    ∀ r e, (r, .error e) ∈ h.ended → e.isSurvived = false → s.task = .ended ∧
      ∀ s' h', (recorded ρ ε).Reachable Machine.anyStep (s, h) (s', h') →
        h'.started = h.started := by
  have inv := inv_of_run run
  refine ⟨⟨inv.started, inv.ended⟩, inv.queued, inv.answered, ?_⟩
  intro r e hmem hsurvived
  have hended := inv.survived r e hmem hsurvived
  exact ⟨hended, fun s' h' later => (started_of_ended hended later).2⟩

/-- A call is cancelled while its coroutine runs; the next one waits its turn, and its coroutine
ends the runner task. -/
def cancelledCall : List (Action Nat Nat) :=
  [.call .test, .look, .cancelMain, .returns, .call .test, .ends (.ok 0), .look,
    .ends (.error (.baseException 1))]

theorem cancelledCall_run : ((recorded Nat Nat).exec Machine.anyStep
    (initial Nat Nat, .empty Nat Nat) cancelledCall).isSome := by
  decide

theorem requests_in_turn_cancelledCall :
    let p := ((recorded Nat Nat).exec Machine.anyStep
      (initial Nat Nat, .empty Nat Nat) cancelledCall).get cancelledCall_run
    p.2.started = [0, 1] ∧ p.1.future 0 = .cancelled ∧ p.1.task = .ended := by
  have run := Machine.exec_get_reachable (initial Nat Nat, History.empty Nat Nat) cancelledCall
    cancelledCall_run
  refine ⟨by decide, by decide, ?_⟩
  exact ((requests_in_turn run).2.2.2 1 (.baseException 1) (by decide) rfl).1

end Anyio.TestRunner
