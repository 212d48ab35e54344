import Anyio.WorkerThread.Model
import Mathlib.Data.List.Count
import Mathlib.Data.List.ReduceOption

/-!
# The places of a worker

A worker is idle, or carries one work item, or neither. The item is in its
queue, or in the hands of its thread, or in a `_report_result()` callback. A
queue has room for the commands to stop, because a worker is stopped at most
once by pruning, and then it carries nothing, and at most once as a callback.
-/

namespace Anyio.WorkerThread

open Library

/-- The item that a thread has taken from its queue. -/
def Point.item : Point → Option ItemId
  | .getting => none
  | .checking item => some item
  | .running item => some item
  | .finishing item => some item
  | .reporting item => some item
  | .ended => none

/-- The items in the queue of a worker and in the hands of its thread. -/
def Worker.items (v : Worker) : List ItemId :=
  v.queue.reduceOption ++ v.point.item.toList

/-- The items of the callbacks that a worker has scheduled. -/
def reportedBy (w : WorkerId) (reports : List (WorkerId × ItemId)) : List ItemId :=
  (reports.filter fun r => r.1 = w).map Prod.snd

def State.carried (s : State) (w : WorkerId) : List ItemId :=
  (s.worker w).items ++ reportedBy w s.reports

/-- The number of commands to stop that the callback can still put into the queue. -/
def Callback.commands : Callback → Nat
  | .gone => 0
  | _ => 1

/-- A worker that works has its callback, and one that stops has room for the commands. -/
structure Law (v : Worker) : Prop where
  working : v.stopping = false → none ∉ v.queue ∧ v.callback.commands = 1
  stopping : v.stopping = true → v.queue.length + v.callback.commands ≤ 2

/-- What holds of the workers and the deque. -/
structure Pool (s : State) : Prop where
  law : ∀ w, Law (s.worker w)
  token : ∀ w, s.idleWorkers.count w + (s.carried w).length ≤ 1
  idle : ∀ w ∈ s.idleWorkers, (s.worker w).stopping = false
  born : ∀ w, s.nextWorker ≤ w →
    s.worker w = unborn ∧ w ∉ s.idleWorkers ∧ reportedBy w s.reports = []

variable {s s' : State} {v : Worker} {w u : WorkerId} {item : ItemId} {x : Option ItemId}

/-- A step changes at most one worker. -/
theorem Pool.update (pool : Pool s) (hw : w < s.nextWorker)
    (hothers : ∀ u, u ≠ w → s'.worker u = s.worker u ∧
      s'.idleWorkers.count u = s.idleWorkers.count u ∧
      reportedBy u s'.reports = reportedBy u s.reports)
    (hnext : s'.nextWorker = s.nextWorker) (hlaw : Law (s'.worker w))
    (htoken : s'.idleWorkers.count w + (s'.carried w).length ≤ 1)
    (hidle : w ∈ s'.idleWorkers → (s'.worker w).stopping = false) : Pool s' where
  law u := by
    by_cases hu : u = w
    · exact hu ▸ hlaw
    · exact (hothers u hu).1 ▸ pool.law u
  token u := by
    by_cases hu : u = w
    · exact hu ▸ htoken
    · obtain ⟨hworker, hcount, hreports⟩ := hothers u hu
      simpa only [State.carried, hworker, hcount, hreports] using pool.token u
  idle u hmem := by
    by_cases hu : u = w
    · exact hu ▸ hidle (hu ▸ hmem)
    · obtain ⟨hworker, hcount, -⟩ := hothers u hu
      rw [hworker]
      refine pool.idle u (List.count_pos_iff.mp ?_)
      rw [← hcount]
      exact List.count_pos_iff.mpr hmem
  born u hu := by
    have hne : u ≠ w := (Nat.lt_of_lt_of_le hw (hnext ▸ hu)).ne'
    obtain ⟨hworker, hcount, hreports⟩ := hothers u hne
    obtain ⟨hunborn, hnot, hnone⟩ := pool.born u (hnext ▸ hu)
    refine ⟨hworker.trans hunborn, ?_, hreports.trans hnone⟩
    rwa [← List.count_eq_zero, hcount, List.count_eq_zero]

/-- An idle worker carries nothing. -/
theorem Pool.carried_of_idle (pool : Pool s) (hw : w ∈ s.idleWorkers) : s.carried w = [] := by
  have htoken := pool.token w
  have hpos := List.count_pos_iff.mpr hw
  exact List.length_eq_zero_iff.mp (by omega)

/-- A worker that is not stopping has only items in its queue. -/
theorem Law.length_eq (law : Law v) (hv : v.stopping = false) :
    v.queue.reduceOption.length = v.queue.length := by
  rw [List.reduceOption_length_eq_iff]
  intro x hx
  cases x with
  | none => exact absurd hx (law.working hv).1
  | some item => rfl

theorem length_queue_le (s : State) (w : WorkerId) :
    (s.worker w).queue.reduceOption.length ≤ (s.carried w).length := by
  simp only [State.carried, Worker.items, List.length_append]
  omega

/-- The queue of an idle worker is empty. -/
theorem Pool.queue_of_idle (pool : Pool s) (hw : w ∈ s.idleWorkers) :
    (s.worker w).queue = [] := by
  have hlength := (pool.law w).length_eq (pool.idle w hw)
  have hle := length_queue_le s w
  rw [pool.carried_of_idle hw] at hle
  exact List.length_eq_zero_iff.mp (by simpa [hlength] using hle)

theorem Pool.lt_of_idle (pool : Pool s) (hw : w ∈ s.idleWorkers) : w < s.nextWorker := by
  by_contra hge
  exact (pool.born w (Nat.le_of_not_lt hge)).2.1 hw

/-- A worker that is not unborn has a number below the next one. -/
theorem Pool.lt_of_ne (pool : Pool s) (hw : s.worker w ≠ unborn) : w < s.nextWorker := by
  by_contra hge
  exact hw (pool.born w (Nat.le_of_not_lt hge)).1

@[simp] theorem modify_self (s : State) (w : WorkerId) (f : Worker → Worker) :
    (modify s w f).worker w = f (s.worker w) :=
  Function.update_self ..

@[simp] theorem modify_of_ne (s : State) {w u : WorkerId} (hu : u ≠ w) (f : Worker → Worker) :
    (modify s w f).worker u = s.worker u :=
  Function.update_of_ne hu ..

/-- The worker after `stop()`. -/
def Worker.stopped (v : Worker) : Worker :=
  { v with stopping := true, queue := v.queue ++ [none] }

/-- The state after `stop()`. -/
def afterStop (s : State) (w : WorkerId) : State :=
  { modify s w Worker.stopped with
    workers := s.workers.erase w
    idleWorkers := s.idleWorkers.erase w }

/-- `stop()` returns when there is room in the queue. -/
theorem stop_eq (h : (s.worker w).queue.length < 2) : stop s w = (afterStop s w, true) := by
  simp only [stop, modify_self, putNowait, if_pos h]
  simp [afterStop, modify, Worker.stopped]

/-- Stopping a worker keeps the law when there is room for one more command. -/
theorem law_stopped (h : v.queue.length + v.callback.commands ≤ 1) : Law v.stopped where
  working hv := by cases hv
  stopping _ := by
    change (v.queue ++ [none]).length + v.callback.commands ≤ 2
    rw [List.length_append, List.length_singleton]
    omega

/-- A worker that was stopped is not idle, and the others are as they were. -/
theorem Pool.stop {l : List WorkerId} {f : Worker → Worker} (pool : Pool s)
    (hw : w < s.nextWorker) (hitems : (f (s.worker w)).items = (s.worker w).items)
    (hl : ∀ u, u ≠ w → l.count u = s.idleWorkers.count u) (hlw : l.count w ≤ 1)
    (h : (f (s.worker w)).queue.length + (f (s.worker w)).callback.commands ≤ 1) :
    Pool (afterStop (modify { s with idleWorkers := l } w f) w) := by
  have hworker : (afterStop (modify { s with idleWorkers := l } w f) w).worker w =
      (f (s.worker w)).stopped := by
    simp [afterStop]
  have hstopped : (f (s.worker w)).stopped.items = (s.worker w).items := by
    rw [← hitems]
    simp [Worker.items, Worker.stopped, List.reduceOption_append]
  have hcount : (afterStop (modify { s with idleWorkers := l } w f) w).idleWorkers.count w = 0 := by
    change (l.erase w).count w = 0
    rw [List.count_erase_self]
    omega
  refine pool.update (w := w) hw (fun u hu => ⟨?_, ?_, rfl⟩) rfl ?_ ?_ fun hmem => ?_
  · simp [afterStop, hu]
  · exact (List.count_erase_of_ne hu).trans (hl u hu)
  · exact hworker ▸ law_stopped h
  · rw [hcount, State.carried, hworker, hstopped, Nat.zero_add]
    exact (Nat.le_add_left _ _).trans (pool.token w)
  · exact absurd hmem (List.count_eq_zero.mp hcount)

/-- A worker has room for the command of its callback. -/
theorem Pool.room (pool : Pool s) (hw : (s.worker w).callback.commands = 1) :
    (s.worker w).queue.length ≤ 1 := by
  cases hstop : (s.worker w).stopping with
  | false =>
      rw [← (pool.law w).length_eq hstop]
      exact (length_queue_le s w).trans ((Nat.le_add_left _ _).trans (pool.token w))
  | true =>
      have := (pool.law w).stopping hstop
      omega

theorem count_idle_le (pool : Pool s) (w : WorkerId) : s.idleWorkers.count w ≤ 1 :=
  (Nat.le_add_right _ _).trans (pool.token w)

/-- The callback `stop()` of a root task returns. -/
theorem Pool.runStop (pool : Pool s) (hw : (s.worker w).callback = .scheduled) :
    let s' := modify s w fun v => { v with callback := .gone }
    Pool (afterStop s' w) ∧ WorkerThread.stop s' w = (afterStop s' w, true) := by
  have hroom := pool.room (w := w) (by rw [hw]; rfl)
  have hlt : w < s.nextWorker := pool.lt_of_ne fun h => by simp [h, unborn] at hw
  constructor
  · exact pool.stop hlt rfl (fun _ _ => rfl) (count_idle_le pool w) hroom
  · exact stop_eq (by rw [modify_self]; exact Nat.lt_succ_of_le hroom)

theorem removeDoneCallback_queue (v : Worker) : (removeDoneCallback v).queue = v.queue := by
  rw [removeDoneCallback]
  split_ifs <;> rfl

theorem removeDoneCallback_items (v : Worker) : (removeDoneCallback v).items = v.items := by
  rw [removeDoneCallback]
  split_ifs <;> rfl

theorem commands_le (c : Callback) : c.commands ≤ 1 := by
  cases c <;> decide

/-- One round of the pruning: the oldest idle worker is stopped. -/
theorem Pool.pruneOne (pool : Pool s) {rest : List WorkerId} (hidle : s.idleWorkers = w :: rest) :
    let s' := modify { s with idleWorkers := rest } w removeDoneCallback
    Pool (afterStop s' w) ∧ WorkerThread.stop s' w = (afterStop s' w, true) := by
  have hmem : w ∈ s.idleWorkers := hidle ▸ List.mem_cons_self
  have hqueue := pool.queue_of_idle hmem
  constructor
  · refine pool.stop (pool.lt_of_idle hmem) (removeDoneCallback_items _) (fun u hu => ?_) ?_ ?_
    · rw [hidle, List.count_cons_of_ne (Ne.symm hu)]
    · refine le_trans ?_ (count_idle_le pool w)
      rw [hidle]
      exact (List.sublist_cons_self w rest).count_le w
    · rw [removeDoneCallback_queue, hqueue]
      exact (Nat.zero_add _).trans_le (commands_le _)
  · exact stop_eq (by simp [removeDoneCallback_queue, hqueue])

/-- What calls of `stop()` leave as it is. -/
structure Stops (s s' : State) : Prop where
  items : ∀ u, (s'.worker u).queue.reduceOption = (s.worker u).queue.reduceOption ∧
    (s'.worker u).point = (s.worker u).point
  kept : ∀ u, (s'.worker u).stopping = false →
    s'.worker u = s.worker u ∧ s'.idleWorkers.count u = s.idleWorkers.count u
  workers : ∀ u ∈ s'.workers, u ∈ s.workers
  reports : s'.reports = s.reports
  future : s'.future = s.future
  nextItem : s'.nextItem = s.nextItem
  nextWorker : s'.nextWorker = s.nextWorker

theorem Stops.refl (s : State) : Stops s s :=
  ⟨fun _ => ⟨rfl, rfl⟩, fun _ _ => ⟨rfl, rfl⟩, fun _ => id, rfl, rfl, rfl, rfl⟩

/-- `stop()` is never taken back. -/
theorem Stops.stopping (stops : Stops s s') (u : WorkerId) (hu : (s.worker u).stopping = true) :
    (s'.worker u).stopping = true := by
  by_contra hfalse
  have hkept := (stops.kept u (Bool.eq_false_iff.mpr hfalse)).1
  rw [hkept] at hfalse
  exact hfalse hu

theorem Stops.trans {t : State} (first : Stops s s') (second : Stops s' t) : Stops s t where
  items u :=
    ⟨(second.items u).1.trans (first.items u).1, (second.items u).2.trans (first.items u).2⟩
  kept u hu := by
    obtain ⟨hworker, hcount⟩ := second.kept u hu
    obtain ⟨hworker', hcount'⟩ := first.kept u (hworker ▸ hu)
    exact ⟨hworker.trans hworker', hcount.trans hcount'⟩
  workers u hu := first.workers u (second.workers u hu)
  reports := second.reports.trans first.reports
  future := second.future.trans first.future
  nextItem := second.nextItem.trans first.nextItem
  nextWorker := second.nextWorker.trans first.nextWorker

theorem Stops.afterStop {l : List WorkerId} {f : Worker → Worker}
    (hqueue : (f (s.worker w)).queue = (s.worker w).queue)
    (hpoint : (f (s.worker w)).point = (s.worker w).point)
    (hl : ∀ u, u ≠ w → l.count u = s.idleWorkers.count u) :
    Stops s (afterStop (modify { s with idleWorkers := l } w f) w) := by
  refine ⟨fun u => ?_, fun u hu => ?_, fun u hu => List.mem_of_mem_erase hu, rfl, rfl, rfl, rfl⟩
  · by_cases hu : u = w
    · simp [hu, WorkerThread.afterStop, Worker.stopped, hqueue, hpoint, List.reduceOption_append]
    · simp [hu, WorkerThread.afterStop]
  · have hne : u ≠ w := by
      rintro rfl
      simp [WorkerThread.afterStop, Worker.stopped] at hu
    exact ⟨by simp [hne, WorkerThread.afterStop],
      (List.count_erase_of_ne hne).trans (hl u hne)⟩

/-- The pruning returns, and does not touch a worker that is not idle. -/
theorem Pool.prune (pool : Pool s) (n : Nat) :
    ∃ s', prune n s = (s', true) ∧ Pool s' ∧ Stops s s' ∧
      (∀ u ∈ s'.idleWorkers, u ∈ s.idleWorkers) ∧
      ∀ u, u ∉ s.idleWorkers → s'.worker u = s.worker u := by
  induction n generalizing s with
  | zero => exact ⟨s, rfl, pool, .refl s, fun _ => id, fun _ _ => rfl⟩
  | succ n ih =>
      cases hidle : s.idleWorkers with
      | nil =>
          refine ⟨s, ?_, pool, .refl s, fun u hu => hidle ▸ hu, fun _ _ => rfl⟩
          simp only [WorkerThread.prune, hidle]
      | cons w rest =>
          by_cases hrecent : s.now - (s.worker w).idleSince < maxIdleTime
          · refine ⟨s, ?_, pool, .refl s, fun u hu => hidle ▸ hu, fun _ _ => rfl⟩
            simp only [WorkerThread.prune, hidle, if_pos hrecent]
          · obtain ⟨hpool, hstop⟩ := pool.pruneOne hidle
            obtain ⟨s', hs', hpool', hstops, hsub, hsame⟩ := ih hpool
            have hothers : ∀ u, u ≠ w → rest.count u = s.idleWorkers.count u := fun u hu => by
              rw [hidle, List.count_cons_of_ne (Ne.symm hu)]
            refine ⟨s', ?_, hpool', ?_, fun u hu => ?_, fun u hu => ?_⟩
            · simp only [WorkerThread.prune, hidle, if_neg hrecent, hstop]
              exact hs'
            · refine Stops.trans (.afterStop (removeDoneCallback_queue _) ?_ hothers) hstops
              rw [removeDoneCallback]
              split_ifs <;> rfl
            · exact List.mem_cons_of_mem w (List.mem_of_mem_erase (hsub u hu))
            · rw [hsame u fun hmem => hu (List.mem_cons_of_mem w (List.mem_of_mem_erase hmem))]
              have hne : u ≠ w := fun h => hu (h ▸ List.mem_cons_self)
              simp [WorkerThread.afterStop, hne]

/-- A worker that a call is about to give an item. -/
structure Ready (s : State) (w : WorkerId) : Prop where
  pool : Pool s
  born : w < s.nextWorker
  notIdle : w ∉ s.idleWorkers
  empty : s.carried w = []
  working : (s.worker w).stopping = false

/-- The state after `queue.put_nowait()` of a new item. -/
def afterGive (s : State) (w : WorkerId) : State :=
  { modify s w (fun v => { v with queue := v.queue ++ [some s.nextItem] }) with
    future := Function.update s.future s.nextItem .pending
    nextItem := s.nextItem + 1 }

/-- The queue of a worker that is about to get an item is empty. -/
theorem Ready.queue (ready : Ready s w) : (s.worker w).queue = [] := by
  have hlength := (ready.pool.law w).length_eq ready.working
  have hle := length_queue_le s w
  rw [ready.empty] at hle
  exact List.length_eq_zero_iff.mp (by simpa [hlength] using hle)

theorem Ready.give (ready : Ready s w) :
    give s w = (afterGive s w, .gave w s.nextItem) := by
  have hroom : (s.worker w).queue.length < 2 := by simp [ready.queue]
  simp only [WorkerThread.give, putNowait, if_pos hroom]
  rfl

theorem Ready.afterGive (ready : Ready s w) : Pool (afterGive s w) := by
  have hworker : (WorkerThread.afterGive s w).worker w =
      { s.worker w with queue := (s.worker w).queue ++ [some s.nextItem] } := by
    simp [WorkerThread.afterGive]
  refine ready.pool.update ready.born (fun u hu => ⟨?_, rfl, rfl⟩) rfl ?_ ?_ ?_
  · simp [WorkerThread.afterGive, hu]
  · rw [hworker, ready.queue]
    exact ⟨fun _ => ⟨by simp, ((ready.pool.law w).working ready.working).2⟩,
      fun h => by simp [ready.working] at h⟩
  · have hempty := ready.empty
    simp only [State.carried, List.append_eq_nil_iff, Worker.items] at hempty
    have hcount := List.count_eq_zero.mpr ready.notIdle
    change s.idleWorkers.count w + _ ≤ 1
    rw [hcount, State.carried, hworker, Worker.items]
    simp [List.reduceOption_append, hempty, show reportedBy w
      (WorkerThread.afterGive s w).reports = [] from hempty.2]
  · exact fun h => absurd h ready.notIdle

/-- A popped worker is ready. -/
theorem Pool.pop (pool : Pool s) (hw : s.idleWorkers.getLast? = some w) :
    Ready { s with idleWorkers := s.idleWorkers.dropLast } w := by
  have hsplit := List.dropLast_append_getLast? w hw
  have hmem : w ∈ s.idleWorkers := by
    rw [← hsplit]
    exact List.mem_append_right _ (List.mem_singleton_self w)
  have hcount : ∀ u, u ≠ w → s.idleWorkers.dropLast.count u = s.idleWorkers.count u := by
    intro u hu
    rw [← hsplit, List.count_append, List.dropLast_concat,
      List.count_eq_zero.mpr fun h => hu (List.mem_singleton.mp h), Nat.add_zero]
  have hnone : s.idleWorkers.dropLast.count w = 0 := by
    have hle := count_idle_le pool w
    rw [← hsplit, List.count_append, List.count_singleton_self] at hle
    omega
  refine ⟨?_, pool.lt_of_idle hmem, List.count_eq_zero.mp hnone, pool.carried_of_idle hmem,
    pool.idle w hmem⟩
  refine pool.update (pool.lt_of_idle hmem) (fun u hu => ⟨rfl, hcount u hu, rfl⟩) rfl
    (pool.law w) ?_ fun _ => pool.idle w hmem
  change s.idleWorkers.dropLast.count w + (s.carried w).length ≤ 1
  rw [hnone, pool.carried_of_idle hmem]
  exact Nat.zero_le 1

theorem create_worker_self (s : State) (root : RootId) :
    (create s root).worker s.nextWorker =
      { rootTask := root, idleSince := s.now, stopping := false, queue := [], point := .getting
        callback := if s.rootDone root then .scheduled else .registered } :=
  Function.update_self ..

theorem create_worker_of_ne (s : State) (root : RootId) {u : WorkerId} (hu : u ≠ s.nextWorker) :
    (create s root).worker u = s.worker u :=
  Function.update_of_ne hu ..

/-- A new worker is ready. -/
theorem Pool.create (pool : Pool s) (root : RootId) : Ready (create s root) s.nextWorker := by
  obtain ⟨hunborn, hnot, hnone⟩ := pool.born s.nextWorker (Nat.le_refl _)
  have hself := create_worker_self s root
  have hothers := fun u (hu : u ≠ s.nextWorker) => create_worker_of_ne s root hu
  have hempty : (WorkerThread.create s root).carried s.nextWorker = [] := by
    rw [State.carried, hself]
    exact hnone
  refine ⟨⟨fun u => ?_, fun u => ?_, fun u hu => ?_, fun u hu => ?_⟩, Nat.lt_succ_self _, hnot,
    hempty, by rw [hself]⟩
  · by_cases hu : u = s.nextWorker
    · rw [hu, hself]
      refine ⟨fun _ => ⟨List.not_mem_nil, ?_⟩, fun h => by cases h⟩
      dsimp only
      split_ifs <;> rfl
    · exact hothers u hu ▸ pool.law u
  · by_cases hu : u = s.nextWorker
    · rw [hu, hempty]
      exact count_idle_le pool s.nextWorker
    · rw [State.carried, hothers u hu]
      exact pool.token u
  · have hne : u ≠ s.nextWorker := fun h => hnot (h ▸ hu)
    exact hothers u hne ▸ pool.idle u hu
  · have hne : u ≠ s.nextWorker := (Nat.lt_of_succ_le hu).ne'
    exact hothers u hne ▸ pool.born u (Nat.le_of_succ_le hu)

/-- What a call has left as it was when it is about to give worker `w` the item. -/
structure Prepared (s s' : State) (w : WorkerId) : Prop where
  ready : Ready s' w
  queue : ∀ u, (s'.worker u).queue.reduceOption = (s.worker u).queue.reduceOption
  item : ∀ u, (s'.worker u).point.item = (s.worker u).point.item
  checking : ∀ u i, (s'.worker u).point = .checking i → (s.worker u).point = .checking i
  kept : ∀ u ∈ s'.workers, u ≠ w → (s'.worker u).stopping = false →
    u ∈ s.workers ∧ s'.worker u = s.worker u ∧ s'.idleWorkers.count u = s.idleWorkers.count u
  stopping : ∀ u < s.nextWorker, (s.worker u).stopping = true → (s'.worker u).stopping = true
  reports : s'.reports = s.reports
  future : s'.future = s.future
  nextItem : s'.nextItem = s.nextItem

/-- Every call gives its item to a worker: to the one that was idle for the shortest time, or to a
new one. -/
theorem Pool.call (pool : Pool s) (root : RootId) :
    ∃ s' w, call s root = (WorkerThread.afterGive s' w, .gave w s'.nextItem) ∧
      Prepared s s' w := by
  cases hlast : s.idleWorkers.getLast? with
  | none =>
      have ready := pool.create root
      obtain ⟨hunborn, -, -⟩ := pool.born s.nextWorker (Nat.le_refl _)
      have hself := create_worker_self s root
      have hothers := fun u (hu : u ≠ s.nextWorker) => create_worker_of_ne s root hu
      refine ⟨WorkerThread.create s root, s.nextWorker, ?_, ready, fun u => ?_, fun u => ?_,
        fun u i hu => ?_, fun u hmem hu _ => ?_, fun u hu h => ?_, rfl, rfl, rfl⟩
      · simp only [WorkerThread.call, hlast, ready.give]
      · by_cases hu : u = s.nextWorker
        · rw [hu, hself, hunborn]
          rfl
        · rw [hothers u hu]
      · by_cases hu : u = s.nextWorker
        · rw [hu, hself, hunborn]
          rfl
        · rw [hothers u hu]
      · by_cases hut : u = s.nextWorker
        · rw [hut, hself] at hu
          cases hu
        · exact hothers u hut ▸ hu
      · refine ⟨?_, hothers u hu, rfl⟩
        rcases List.mem_append.mp hmem with hmem | hmem
        · exact hmem
        · exact absurd (List.mem_singleton.mp hmem) hu
      · rwa [hothers u hu.ne]
  | some w =>
      have popped := pool.pop hlast
      obtain ⟨s', hprune, hpool, hstops, hsub, hsame⟩ := popped.pool.prune s.idleWorkers.length
      have hworker := hsame w popped.notIdle
      have ready : Ready s' w := by
        refine ⟨hpool, ?_, fun h => popped.notIdle (hsub w h), ?_, ?_⟩
        · rw [hstops.nextWorker]
          exact popped.born
        · rw [State.carried, hworker, hstops.reports]
          exact popped.empty
        · rw [hworker]
          exact popped.working
      refine ⟨s', w, ?_, ready, fun u => (hstops.items u).1, fun u => ?_, fun u i hu => ?_,
        fun u hmem hu hstop => ?_, fun u _ h => hstops.stopping u h, hstops.reports, hstops.future,
        hstops.nextItem⟩
      · simp only [WorkerThread.call, hlast, hprune, ready.give]
      · rw [(hstops.items u).2]
      · exact (hstops.items u).2 ▸ hu
      · obtain ⟨hkept, hcount⟩ := hstops.kept u hstop
        refine ⟨hstops.workers u hmem, hkept, hcount.trans ?_⟩
        have hsplit := List.dropLast_append_getLast? w hlast
        change s.idleWorkers.dropLast.count u = s.idleWorkers.count u
        rw [← hsplit, List.count_append, List.dropLast_concat,
          List.count_eq_zero.mpr fun h => hu (List.mem_singleton.mp h), Nat.add_zero]

/-- What a worker has left to do never makes it break the law. -/
theorem Law.shrink {v' : Worker} (law : Law v) (hqueue : v'.queue.Sublist v.queue)
    (hstopping : v'.stopping = v.stopping) (hcallback : v'.callback = v.callback) : Law v' where
  working hv := by
    obtain ⟨hnone, hcommands⟩ := law.working (hstopping ▸ hv)
    exact ⟨fun h => hnone (hqueue.subset h), hcallback ▸ hcommands⟩
  stopping hv := by
    have hle := law.stopping (hstopping ▸ hv)
    rw [hcallback]
    exact (Nat.add_le_add_right hqueue.length_le _).trans hle

/-- A step of a thread that schedules nothing. -/
theorem Pool.work (pool : Pool s) (hw : w < s.nextWorker) {f : Worker → Worker}
    (hqueue : (f (s.worker w)).queue.Sublist (s.worker w).queue)
    (hstopping : (f (s.worker w)).stopping = (s.worker w).stopping)
    (hcallback : (f (s.worker w)).callback = (s.worker w).callback)
    (hitems : (f (s.worker w)).items.length ≤ (s.worker w).items.length) :
    Pool (modify s w f) := by
  refine pool.update hw (fun u hu => ⟨modify_of_ne s hu f, rfl, rfl⟩) rfl ?_ ?_ fun hmem => ?_
  · rw [modify_self]
    exact (pool.law w).shrink hqueue hstopping hcallback
  · have htoken := pool.token w
    simp only [State.carried, List.length_append, modify_self] at htoken ⊢
    change s.idleWorkers.count w + (_ + (reportedBy w s.reports).length) ≤ 1
    omega
  · rw [modify_self, hstopping]
    exact pool.idle w hmem

end Anyio.WorkerThread
