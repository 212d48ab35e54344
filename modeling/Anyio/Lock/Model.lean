import Anyio.Asyncio.Loop
import Anyio.Exceptions
import Anyio.Library.Machine

/-!
# The asyncio `Lock`

`Lock.acquire`, `acquire_nowait` and `release` of the asyncio backend, cut at
their `await`s. A task is either outside `acquire()` or suspended at one of its
three awaits; everything between two awaits is one step.

## Implementation notes

Whether the scope of the calling task is cancelled when it enters `acquire()`
is a choice of the environment, made in the action. `checkpoint_if_cancelled`
yields again and again once it has found a cancelled scope, since
`cancel_called` is never reset; only a `CancelledError` ends it.
-/

namespace Anyio.Lock

open Asyncio Library

/-- The awaits of `acquire()`, with the local variable that lives across each. -/
inductive Point
  | outside
  | checkpointIfCancelled
  | shieldedCheckpoint
  | waiting (fut : FutureId)
  deriving DecidableEq, Repr

instance : Coroutine Point where
  waits
    | .outside => .nothing
    | .checkpointIfCancelled => .step
    | .shieldedCheckpoint => .step
    | .waiting fut => .future fut

/-- A `Lock` object with the event loop it lives in. -/
structure State (τ : Type*) where
  fastAcquire : Bool
  ownerTask : Option τ
  waiters : List (τ × FutureId)
  loop : Loop τ Point

/-- A fresh lock; all tasks are outside of it. -/
def initial (τ : Type*) (fastAcquire : Bool) : State τ where
  fastAcquire := fastAcquire
  ownerTask := none
  waiters := []
  loop := Loop.initial .outside

inductive Action (τ : Type*)
  | acquire (task : τ) (scopeCancelled : Bool)
  | acquireNowait (task : τ)
  | release (task : τ)
  | cancel (task : τ)
  | resume (task : τ)
  deriving DecidableEq, Repr

variable {τ : Type*} [DecidableEq τ]

def alreadyHeld : Error := .runtimeError "Attempted to acquire an already held Lock"

def notHolding : Error := .runtimeError "The current task is not holding this lock"

/-- `acquire()` up to its first await. -/
def acquire (s : State τ) (t : τ) (scopeCancelled : Bool) : State τ × Outcome Point Unit :=
  if s.ownerTask = none ∧ s.waiters = [] then
    if scopeCancelled then
      ({ s with loop := s.loop.moveTo t .checkpointIfCancelled }, .suspended .checkpointIfCancelled)
    else if s.fastAcquire then
      ({ s with ownerTask := some t }, .returned ())
    else
      ({ s with ownerTask := some t, loop := s.loop.moveTo t .shieldedCheckpoint },
        .suspended .shieldedCheckpoint)
  else if s.ownerTask = some t then
    (s, .raised alreadyHeld)
  else
    let fut := s.loop.nextFuture
    ({ s with
        waiters := s.waiters ++ [(t, fut)]
        loop := s.loop.createFuture.moveTo t (.waiting fut) },
      .suspended (.waiting fut))

def acquireNowait (s : State τ) (t : τ) : State τ × Outcome Point Unit :=
  if s.ownerTask = none ∧ s.waiters = [] then ({ s with ownerTask := some t }, .returned ())
  else if s.ownerTask = some t then (s, .raised alreadyHeld)
  else (s, .raised .wouldBlock)

/-- `release()`: hand the lock to the first waiter whose future is not cancelled. -/
def release (s : State τ) (t : τ) : Except Error (State τ) :=
  if s.ownerTask ≠ some t then .error notHolding
  else
    match s.waiters.find? fun item => s.loop.future item.2 ≠ .cancelled with
    | some (task, fut) =>
        match s.loop.setResult fut with
        | some loop => .ok { s with ownerTask := some task, loop := loop }
        | none => .error .invalidStateError
    | none => .ok { s with ownerTask := none }

/-- The `except CancelledError` blocks of `acquire()`: release, then raise again. -/
def releaseAndRaise (s : State τ) (t : τ) : State τ × Outcome Point Unit :=
  match release s t with
  | .ok s' => (s', .raised .cancelledError)
  | .error e => (s, .raised e)

/-- The step of `acquire()` that follows the wake-up of task `t`. -/
def resume (s : State τ) (t : τ) : State τ × Outcome Point Unit :=
  let thrown := s.loop.throws t
  let outside := { s with loop := s.loop.resumeAt t .outside }
  match s.loop.point t with
  | .outside => (s, .returned ())
  | .checkpointIfCancelled =>
      if thrown then (outside, .raised .cancelledError)
      else ({ s with loop := s.loop.resumeAt t .checkpointIfCancelled },
        .suspended .checkpointIfCancelled)
  | .shieldedCheckpoint =>
      if thrown then releaseAndRaise outside t else (outside, .returned ())
  | .waiting fut =>
      let left := { outside with waiters := s.waiters.erase (t, fut) }
      if thrown then
        if s.ownerTask = some t then releaseAndRaise left t else (left, .raised .cancelledError)
      else (left, .returned ())

/-- One step of the lock. Calls are made by tasks outside `acquire()`, a
cancellation request reaches a task suspended in it, and a wake-up is run once
it is queued. -/
def step (s : State τ) : Action τ → Option (State τ × Outcome Point Unit)
  | .acquire t scopeCancelled =>
      if s.loop.point t = .outside then some (acquire s t scopeCancelled) else none
  | .acquireNowait t => if s.loop.point t = .outside then some (acquireNowait s t) else none
  | .release t =>
      if s.loop.point t = .outside then
        match release s t with
        | .ok s' => some (s', .returned ())
        | .error e => some (s, .raised e)
      else none
  | .cancel t =>
      if s.loop.point t ≠ .outside then
        some ({ s with loop := s.loop.cancel t }, .suspended (s.loop.point t))
      else none
  | .resume t => if s.loop.wakeUpQueued t then some (resume s t) else none

def machine (τ : Type*) [DecidableEq τ] : Machine (State τ) (Action τ) (Outcome Point Unit) where
  step := step

end Anyio.Lock
