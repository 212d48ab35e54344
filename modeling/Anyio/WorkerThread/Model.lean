import Anyio.Library.Machine
import Mathlib.Data.Rat.Defs
import Mathlib.Logic.Function.Basic

/-!
# Worker threads

`run_sync_in_worker_thread()` of the asyncio backend and the `WorkerThread`
objects of its pool: the calls, the threads, the `_report_result()` callbacks
that the threads leave in the event loop, and `stop()`, which is called for
expired workers and as a callback of the root task.

## Implementation notes

A call does not await between taking a worker and `await future`, so it is one
step of the event loop; a thread takes a step of its own wherever it looks at
something that the event loop changes. A work item is identified with its
future, and what its function returns is left out. The event loop runs the
`_report_result()` callbacks in the order in which they were scheduled.
-/

namespace Anyio.WorkerThread

open Library

abbrev WorkerId := Nat

abbrev ItemId := Nat

abbrev RootId := Nat

/-- `MAX_IDLE_TIME`, in seconds. -/
def maxIdleTime : Rat := 10

/-- Where the loop of `run()` stands. -/
inductive Point
  | getting
  | checking (item : ItemId)
  | running (item : ItemId)
  | finishing (item : ItemId)
  | reporting (item : ItemId)
  | ended
  deriving DecidableEq, Repr

/-- What has become of the callback `stop()` of the root task. -/
inductive Callback
  | registered
  | scheduled
  | gone
  deriving DecidableEq, Repr

/-- A worker; `None` in the queue is the command to shut down. -/
structure Worker where
  rootTask : RootId
  idleSince : Rat
  stopping : Bool
  queue : List (Option ItemId)
  point : Point
  callback : Callback

inductive FutureState
  | pending
  | finished
  | cancelled
  deriving DecidableEq, Repr

structure State where
  worker : WorkerId → Worker
  nextWorker : WorkerId
  workers : List WorkerId
  idleWorkers : List WorkerId
  future : ItemId → FutureState
  nextItem : ItemId
  reports : List (WorkerId × ItemId)
  rootDone : RootId → Bool
  now : Rat
  closed : Bool

/-- A worker that does not exist yet; it takes no items. -/
def unborn : Worker where
  rootTask := 0
  idleSince := 0
  stopping := true
  queue := []
  point := .ended
  callback := .gone

/-- An event loop in which no worker thread has been used. -/
def initial : State where
  worker := fun _ => unborn
  nextWorker := 0
  workers := []
  idleWorkers := []
  future := fun _ => .pending
  nextItem := 0
  reports := []
  rootDone := fun _ => false
  now := 0
  closed := false

/-- `root` is the answer of `find_root_task()`. -/
inductive Action
  | call (root : RootId)
  | cancel (item : ItemId)
  | thread (worker : WorkerId)
  | report
  | rootEnds (root : RootId)
  | runStop (worker : WorkerId)
  | pass (seconds : Rat)
  | close
  deriving DecidableEq, Repr

/-- What a step amounts to, for those who count. `full` is `queue.Full`. -/
inductive Reply
  | none
  | gave (worker : WorkerId) (item : ItemId)
  | full
  | ran (item : ItemId)
  | completed (item : ItemId)
  | invalidStateError
  | loopClosed
  deriving DecidableEq, Repr

/-- Change one worker. -/
def modify (s : State) (w : WorkerId) (f : Worker → Worker) : State :=
  { s with worker := Function.update s.worker w (f (s.worker w)) }

/-- `queue.put_nowait()` of a `Queue(2)`, or nothing where it raises `Full`. -/
def putNowait (w : Worker) (x : Option ItemId) : Option Worker :=
  if w.queue.length < 2 then some { w with queue := w.queue ++ [x] } else none

/-- `stop()`, and whether it returned. -/
def stop (s : State) (w : WorkerId) : State × Bool :=
  let s' := modify s w fun v => { v with stopping := true }
  match putNowait (s'.worker w) none with
  | none => (s', false)
  | some v =>
      ({ modify s' w (fun _ => v) with
        workers := s'.workers.erase w
        idleWorkers := s'.idleWorkers.erase w }, true)

/-- `root_task.remove_done_callback(worker.stop)`. -/
def removeDoneCallback (v : Worker) : Worker :=
  if v.callback = .registered then { v with callback := .gone } else v

/-- The loop that prunes the workers that have been idle for too long, and whether it got to its
end. Every round takes a worker out of the deque. -/
def prune : Nat → State → State × Bool
  | 0, s => (s, true)
  | n + 1, s =>
      match s.idleWorkers with
      | [] => (s, true)
      | w :: rest =>
          if s.now - (s.worker w).idleSince < maxIdleTime then (s, true)
          else
            match stop (modify { s with idleWorkers := rest } w removeDoneCallback) w with
            | (s', true) => prune n s'
            | r => r

/-- A new future, and `worker.queue.put_nowait()` of the item. -/
def give (s : State) (w : WorkerId) : State × Reply :=
  match putNowait (s.worker w) (some s.nextItem) with
  | some v =>
      ({ modify s w (fun _ => v) with
        future := Function.update s.future s.nextItem .pending
        nextItem := s.nextItem + 1 }, .gave w s.nextItem)
  | none => (s, .full)

/-- `WorkerThread(root_task, ...)`, started and added to the workers. A done root task schedules
the new callback at once. -/
def create (s : State) (root : RootId) : State :=
  { s with
    worker := Function.update s.worker s.nextWorker
      { rootTask := root
        idleSince := s.now
        stopping := false
        queue := []
        point := .getting
        callback := if s.rootDone root then .scheduled else .registered }
    nextWorker := s.nextWorker + 1
    workers := s.workers ++ [s.nextWorker] }

/-- `run_sync_in_worker_thread()` up to `await future`. -/
def call (s : State) (root : RootId) : State × Reply :=
  match s.idleWorkers.getLast? with
  | none => give (create s root) s.nextWorker
  | some w =>
      match prune s.idleWorkers.length { s with idleWorkers := s.idleWorkers.dropLast } with
      | (s', true) => give s' w
      | (s', false) => (s', .full)

/-- The first half of `_report_result()`: the worker is idle again, unless it is stopping. -/
def recycle (s : State) (w : WorkerId) : State :=
  let s' := modify s w fun v => { v with idleSince := s.now }
  if (s'.worker w).stopping then s' else { s' with idleWorkers := s'.idleWorkers ++ [w] }

/-- `_report_result()`. -/
def reportResult (s : State) (w : WorkerId) (item : ItemId) : State × Reply :=
  let s' := recycle s w
  match s'.future item with
  | .cancelled => (s', .none)
  | .finished => (s', .invalidStateError)
  | .pending =>
      ({ s' with future := Function.update s'.future item .finished }, .completed item)

def moveTo (s : State) (w : WorkerId) (p : Point) : State :=
  modify s w fun v => { v with point := p }

/-- The next step of a thread. -/
def thread (s : State) (w : WorkerId) : Option (State × Reply) :=
  match (s.worker w).point with
  | .getting =>
      match (s.worker w).queue with
      | [] => none
      | none :: rest =>
          some (modify s w fun v => { v with queue := rest, point := .ended }, .none)
      | some item :: rest =>
          some (modify s w fun v => { v with queue := rest, point := .checking item }, .none)
  | .checking item =>
      if s.future item = .cancelled then some (moveTo s w .getting, .none)
      else some (moveTo s w (.running item), .ran item)
  | .running item => some (moveTo s w (.finishing item), .none)
  | .finishing item =>
      if s.closed then some (moveTo s w .getting, .none)
      else some (moveTo s w (.reporting item), .none)
  | .reporting item =>
      if s.closed then some (moveTo s w .ended, .loopClosed)
      else some ({ moveTo s w .getting with reports := s.reports ++ [(w, item)] }, .none)
  | .ended => none

/-- The steps of the event loop need an event loop that is not closed. -/
def step (s : State) : Action → Option (State × Reply)
  | .call root => if s.closed then none else some (call s root)
  | .cancel item =>
      if s.closed = false ∧ item < s.nextItem ∧ s.future item = .pending then
        some ({ s with future := Function.update s.future item .cancelled }, .none)
      else none
  | .thread w => thread s w
  | .report =>
      if s.closed then none
      else
        match s.reports with
        | [] => none
        | (w, item) :: rest => some (reportResult { s with reports := rest } w item)
  | .rootEnds root =>
      if s.closed = false ∧ s.rootDone root = false then
        some ({ s with
          rootDone := Function.update s.rootDone root true
          worker := fun w =>
            if (s.worker w).rootTask = root ∧ (s.worker w).callback = .registered then
              { s.worker w with callback := .scheduled }
            else s.worker w }, .none)
      else none
  | .runStop w =>
      if s.closed = false ∧ (s.worker w).callback = .scheduled then
        match stop (modify s w fun v => { v with callback := .gone }) w with
        | (s', true) => some (s', .none)
        | (s', false) => some (s', .full)
      else none
  | .pass seconds => if 0 ≤ seconds then some ({ s with now := s.now + seconds }, .none) else none
  | .close => if s.closed then none else some ({ s with closed := true }, .none)

/-- The machine of the thread pool of an event loop. -/
abbrev machine : Machine State Action Reply where
  step := step

end Anyio.WorkerThread
