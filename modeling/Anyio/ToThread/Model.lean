import Anyio.CapacityLimiter.Model
import Anyio.WorkerThread.Model

/-!
# Calls that run in a worker thread under a limiter

`run_sync_in_worker_thread()` as a whole: the `async with` block of its
`CapacityLimiter` around the call that takes a worker of the pool and awaits
the result. The limiter and the pool are the machines of their own modules.

## Implementation notes

A call starts after its first checkpoint. The borrower of its token is its
task. A call is inside of one of the two machines at a time: it enters the
limiter, and then it waits for the future of its work item. The limiter may
also be used by others, and the threads and the callbacks of the pool take
their steps at any time. Nothing of the event loop runs after it was closed.
A cancellation request that reaches a call whose future is done changes only
what the call ends with, and is left out.
-/

namespace Anyio.ToThread

open Library

/-- Where a task stands in `run_sync_in_worker_thread()`. -/
inductive Phase
  | outside
  | entering (root : WorkerThread.RootId)
  | waiting (item : WorkerThread.ItemId)
  deriving DecidableEq, Repr

def Phase.isWaiting : Phase → Bool
  | .waiting _ => true
  | _ => false

structure State (τ β : Type*) where
  limiter : CapacityLimiter.State τ β
  pool : WorkerThread.State
  phase : τ → Phase

/-- `root` is the answer of `find_root_task()`. `limiter` is a use of the limiter by somebody
else, and `pool` a step of a thread or of a callback. -/
inductive Action (τ β : Type*)
  | runSync (task : τ) (root : WorkerThread.RootId) (scopeCancelled : Bool)
  | cancel (task : τ)
  | resume (task : τ)
  | limiter (use : CapacityLimiter.Action τ β)
  | pool (event : WorkerThread.Action)
  deriving DecidableEq, Repr

/-- What a call returns is left out. -/
abbrev Answer := Outcome Phase Unit

def queueFull : Error := .other "queue.Full"

/-- The task that uses the limiter, if it suspends in it or is suspended there. -/
def userOf {τ β : Type*} : CapacityLimiter.Action τ β → Option τ
  | .acquireOnBehalfOf t _ _ | .cancel t | .resume t => some t
  | _ => none

/-- The steps that no call takes itself. -/
def spontaneous : WorkerThread.Action → Bool
  | .call _ | .cancel _ => false
  | _ => true

variable {τ β : Type*} [DecidableEq τ] [DecidableEq β] (currentTask : τ → β)

/-- No call is under way. -/
def initial (limiter : CapacityLimiter.State τ β) : State τ β where
  limiter := limiter
  pool := WorkerThread.initial
  phase := fun _ => .outside

def setPhase (s : State τ β) (t : τ) (p : Phase) : State τ β :=
  { s with phase := Function.update s.phase t p }

/-- The end of the `async with` block: `release()`, and then the end of the call. -/
def leave (s : State τ β) (t : τ) (o : Answer) : State τ β × Answer :=
  match CapacityLimiter.releaseOnBehalfOf s.limiter (currentTask t) with
  | .ok limiter => (setPhase { s with limiter := limiter } t .outside, o)
  | .error e => (setPhase s t .outside, .raised e)

/-- The body of the `async with` block up to `await future`. -/
def call (s : State τ β) (t : τ) (root : WorkerThread.RootId) : State τ β × Answer :=
  match WorkerThread.call s.pool root with
  | (pool, .gave _ item) =>
      (setPhase { s with pool := pool } t (.waiting item), .suspended (.waiting item))
  | (pool, _) => leave currentTask { s with pool := pool } t (.raised queueFull)

/-- A piece of the `acquire()` of the limiter, and what follows it. -/
def enter (s : State τ β) (t : τ) (root : WorkerThread.RootId)
    (r : CapacityLimiter.State τ β × Outcome (CapacityLimiter.Point β) Unit) :
    State τ β × Answer :=
  match r with
  | (limiter, .returned ()) => call currentTask { s with limiter := limiter } t root
  | (limiter, .raised e) => (setPhase { s with limiter := limiter } t .outside, .raised e)
  | (limiter, .suspended _) =>
      (setPhase { s with limiter := limiter } t (.entering root), .suspended (.entering root))

/-- The piece of a call that follows the wake-up of its task. -/
def resume (s : State τ β) (t : τ) : Option (State τ β × Answer) :=
  match s.phase t with
  | .outside => none
  | .entering root =>
      if s.limiter.loop.wakeUpQueued t then
        some (enter currentTask s t root (CapacityLimiter.resume currentTask s.limiter t))
      else none
  | .waiting item =>
      match s.pool.future item with
      | .pending => none
      | .finished => some (leave currentTask s t (.returned ()))
      | .cancelled => some (leave currentTask s t (.raised .cancelledError))

/-- `Task.cancel()` of a task that is inside of a call. -/
def cancel (s : State τ β) (t : τ) : Option (State τ β × Answer) :=
  match s.phase t with
  | .outside => none
  | .entering _ =>
      (CapacityLimiter.step currentTask s.limiter (.cancel t)).map fun r =>
        ({ s with limiter := r.1 }, .suspended (s.phase t))
  | .waiting item =>
      (WorkerThread.step s.pool (.cancel item)).map fun r =>
        ({ s with pool := r.1 }, .suspended (s.phase t))

def step (s : State τ β) : Action τ β → Option (State τ β × Answer)
  | .runSync t root scopeCancelled =>
      if s.pool.closed = false ∧ s.phase t = .outside ∧ s.limiter.loop.point t = .outside then
        some (enter currentTask s t root
          (CapacityLimiter.acquireOnBehalfOf s.limiter t (currentTask t) scopeCancelled))
      else none
  | .cancel t => if s.pool.closed then none else cancel currentTask s t
  | .resume t => if s.pool.closed then none else resume currentTask s t
  | .limiter use =>
      if s.pool.closed = false ∧ ∀ t ∈ userOf use, s.phase t = .outside then
        (CapacityLimiter.step currentTask s.limiter use).map fun r =>
          ({ s with limiter := r.1 }, .returned ())
      else none
  | .pool event =>
      if spontaneous event then
        (WorkerThread.step s.pool event).map fun r => ({ s with pool := r.1 }, .returned ())
      else none

def machine : Machine (State τ β) (Action τ β) Answer where
  step := step currentTask

end Anyio.ToThread
