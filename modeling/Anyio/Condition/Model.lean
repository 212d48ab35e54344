import Anyio.Lock.Model

/-!
# Conditions

A `Condition` with the asyncio `Lock` it owns. `acquire()` and `wait()` are cut
at their `await`s, and what they do inside `Lock.acquire()` are steps of the
lock.

## Implementation notes

A task is suspended either in the lock or at an await of the condition itself,
so the state has the loop of the lock next to a loop for the other awaits; a
task that is inside `Lock.acquire()` waits for nothing in the second one. The
event of a waiting call has one waiting task, so it is identified with the
future on which that task is suspended, and it stands in the deque with the
task that created it.

`TaskInfo` objects are compared by `id`, the `id()` of the task. Nothing keeps the
task alive, so a task that is created after another one has ended may have the
same `id()`. The ids are part of the state, and no step changes them.

A cancel scope interrupts a task only while the future it awaits is not done,
and does not reach the shielded `acquire()` at the end of `wait()`.
-/

namespace Anyio.Condition

open Asyncio Library

/-- The `id` of a `TaskInfo`. -/
abbrev TaskId := Nat

/-- Where a call stands. The last point is the `finally` block of `wait()`, with the exception
that is raised after it. -/
inductive Point
  | outside
  | acquiring
  | waitCheckpoint
  | waiting (event : FutureId)
  | reacquiring (event : FutureId) (error : Option Error)
  deriving DecidableEq, Repr

instance : Coroutine Point where
  waits
    | .outside => .nothing
    | .acquiring => .nothing
    | .waitCheckpoint => .step
    | .waiting event => .future event
    | .reacquiring _ _ => .nothing

/-- The call is inside `Lock.acquire()`. -/
def Point.inLock : Point → Bool
  | .acquiring => true
  | .reacquiring _ _ => true
  | _ => false

structure State (τ : Type*) where
  taskId : τ → TaskId
  lock : Lock.State τ
  ownerTask : Option TaskId
  waiters : List (τ × FutureId)
  isSet : FutureId → Bool
  loop : Loop τ Point

/-- A fresh condition with a fresh lock; all tasks are outside of it. -/
def initial {τ : Type*} (taskId : τ → TaskId) (fastAcquire : Bool) : State τ where
  taskId := taskId
  lock := Lock.initial τ fastAcquire
  ownerTask := none
  waiters := []
  isSet := fun _ => false
  loop := Loop.initial .outside

inductive Action (τ : Type*)
  | acquire (task : τ) (scopeCancelled : Bool)
  | acquireNowait (task : τ)
  | release (task : τ)
  | wait (task : τ)
  | notify (task : τ) (n : Int)
  | notifyAll (task : τ)
  | interrupt (task : τ)
  | resume (task : τ)
  deriving DecidableEq, Repr

def notHolding : Error := .runtimeError "The current task is not holding the underlying lock"

def notInDeque : Error := .valueError "deque.remove(x): x not in deque"

variable {τ : Type*}

/-- `Event.set()`. -/
def setEvent (s : State τ) (event : FutureId) : State τ :=
  { s with isSet := Function.update s.isSet event true, loop := s.loop.setEvent event }

/-- `Event.set()` on each of the events. -/
def setEvents (s : State τ) (events : List (τ × FutureId)) : State τ :=
  events.foldl (fun s e => setEvent s e.2) s

/-- The loop of `notify()`: take events from the left, and set them. -/
def popAndSet : Nat → State τ → State τ
  | 0, s => s
  | n + 1, s =>
      match s.waiters with
      | [] => s
      | (_, event) :: rest => popAndSet n (setEvent { s with waiters := rest } event)

/-- A cancel scope cancels a suspended task only while the future it awaits is not done. -/
def interruptible (l : Loop τ Point) (t : τ) : Bool :=
  match l.waits t with
  | .nothing => false
  | .step => true
  | .future fut => l.future fut = .pending

/-- How `wait()` ends after its `finally` block. -/
def finish : Option Error → Outcome Point Unit
  | none => .returned ()
  | some e => .raised e

variable [DecidableEq τ]

/-- Task `t` runs again, outside of any await. -/
def wake (s : State τ) (t : τ) : State τ :=
  { s with loop := s.loop.resumeAt t .outside }

/-- What follows a step of the lock inside `acquire()`: the task goes on waiting at point `p`,
or becomes the owner and the call ends as `done`. -/
def afterLock (s : State τ) (t : τ) (p : Point) (done : Outcome Point Unit) :
    Lock.State τ × Outcome Lock.Point Unit → State τ × Outcome Point Unit
  | (lock, .returned _) => ({ wake s t with lock := lock, ownerTask := some (s.taskId t) }, done)
  | (lock, .raised e) => ({ wake s t with lock := lock }, .raised e)
  | (lock, .suspended _) =>
      ({ s with lock := lock, loop := s.loop.moveTo t p }, .suspended p)

def acquire (s : State τ) (t : τ) (scopeCancelled : Bool) : State τ × Outcome Point Unit :=
  afterLock s t .acquiring (.returned ()) (Lock.acquire s.lock t scopeCancelled)

def acquireNowait (s : State τ) (t : τ) : State τ × Outcome Point Unit :=
  afterLock s t .acquiring (.returned ()) (Lock.acquireNowait s.lock t)

def release (s : State τ) (t : τ) : Except Error (State τ) :=
  (Lock.release s.lock t).map fun lock => { s with lock := lock }

def notify (s : State τ) (t : τ) (n : Int) : State τ × Outcome Point Unit :=
  if s.ownerTask ≠ some (s.taskId t) then (s, .raised notHolding)
  else (popAndSet n.toNat s, .returned ())

def notifyAll (s : State τ) (t : τ) : State τ × Outcome Point Unit :=
  if s.ownerTask ≠ some (s.taskId t) then (s, .raised notHolding)
  else ({ setEvents s s.waiters with waiters := [] }, .returned ())

/-- `wait()` from its checkpoint up to the next await. The event stays in the deque when
`release()` raises. -/
def waitAfterCheckpoint (s : State τ) (t : τ) : State τ × Outcome Point Unit :=
  let event := s.loop.nextFuture
  let s' := { s with
    waiters := s.waiters ++ [(t, event)]
    isSet := Function.update s.isSet event false
    loop := s.loop.createFuture }
  match release s' t with
  | .ok s'' => ({ s'' with loop := s''.loop.moveTo t (.waiting event) },
      .suspended (.waiting event))
  | .error e => (s', .raised e)

/-- The `except` block of `wait()`, and the exception that leaves it. -/
def forget (s : State τ) (t : τ) (event : FutureId) : State τ × Error :=
  if s.isSet event then (s, .cancelledError)
  else if (t, event) ∈ s.waiters then
    ({ s with waiters := s.waiters.erase (t, event) }, .cancelledError)
  else (s, notInDeque)

/-- The `finally` block of `wait()`, in a shielded scope. -/
def reacquire (s : State τ) (t : τ) (event : FutureId) (error : Option Error) :
    State τ × Outcome Point Unit :=
  afterLock s t (.reacquiring event error) (finish error) (Lock.acquire s.lock t false)

/-- The step that follows the wake-up of task `t`. -/
def resume (s : State τ) (t : τ) : State τ × Outcome Point Unit :=
  let thrown := s.loop.throws t
  match s.loop.point t with
  | .outside => (s, .returned ())
  | .acquiring => afterLock s t .acquiring (.returned ()) (Lock.resume s.lock t)
  | .waitCheckpoint =>
      if thrown then (wake s t, .raised .cancelledError) else waitAfterCheckpoint (wake s t) t
  | .waiting event =>
      if thrown then
        match forget (wake s t) t event with
        | (s', e) => reacquire s' t event (some e)
      else reacquire (wake s t) t event none
  | .reacquiring event error =>
      afterLock s t (.reacquiring event error) (finish error) (Lock.resume s.lock t)

/-- The wake-up of a task is queued, in the lock or outside of it. -/
def wakeUpQueued (s : State τ) (t : τ) : Bool :=
  if (s.loop.point t).inLock then s.lock.loop.wakeUpQueued t else s.loop.wakeUpQueued t

/-- Calls are made by tasks outside of them. -/
def step (s : State τ) : Action τ → Option (State τ × Outcome Point Unit)
  | .acquire t c => if s.loop.point t = .outside then some (acquire s t c) else none
  | .acquireNowait t => if s.loop.point t = .outside then some (acquireNowait s t) else none
  | .release t =>
      if s.loop.point t = .outside then
        match release s t with
        | .ok s' => some (s', .returned ())
        | .error e => some (s, .raised e)
      else none
  | .wait t =>
      if s.loop.point t = .outside then
        some ({ s with loop := s.loop.moveTo t .waitCheckpoint }, .suspended .waitCheckpoint)
      else none
  | .notify t n => if s.loop.point t = .outside then some (notify s t n) else none
  | .notifyAll t => if s.loop.point t = .outside then some (notifyAll s t) else none
  | .interrupt t =>
      if s.loop.point t = .acquiring then
        (Lock.step s.lock (.cancel t)).map fun r =>
          ({ s with lock := r.1 }, .suspended .acquiring)
      else if interruptible s.loop t then
        some ({ s with loop := s.loop.cancel t }, .suspended (s.loop.point t))
      else none
  | .resume t => if wakeUpQueued s t then some (resume s t) else none

def machine (τ : Type*) [DecidableEq τ] : Machine (State τ) (Action τ) (Outcome Point Unit) where
  step := step

end Anyio.Condition
