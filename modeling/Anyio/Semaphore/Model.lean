import Anyio.Asyncio.Loop
import Anyio.Exceptions
import Anyio.Library.Machine

/-!
# The asyncio `Semaphore`

The constructor checks of `Semaphore.__init__` and the calls `acquire`,
`acquire_nowait` and `release` of the asyncio backend, cut at their `await`s.

## Implementation notes

`_value` is an integer, as in the source: that it is never negative is a
result and not a choice of the type. A future is removed from `_waiters` by
the `release()` that completes it, so a waiter that was handed a permit is no
longer in the deque when it resumes.
-/

namespace Anyio.Semaphore

open Asyncio Library

/-- The awaits of `acquire()`, with the local variable that lives across each. -/
inductive Point
  | outside
  | checkpointIfCancelled
  | shieldedCheckpoint
  | waiting (fut : FutureId)
  deriving DecidableEq, Repr

instance : Coroutine Point where
  waits
    | .outside => .nothing
    | .checkpointIfCancelled => .step
    | .shieldedCheckpoint => .step
    | .waiting fut => .future fut

/-- A `Semaphore` object with the event loop it lives in. -/
structure State (τ : Type*) where
  fastAcquire : Bool
  maxValue : Option Int
  value : Int
  waiters : List FutureId
  loop : Loop τ Point

def negativeInitial : Error := .valueError "initial_value must be >= 0"

def maxBelowInitial : Error :=
  .valueError "max_value must be equal to or higher than initial_value"

def releasedTooOften : Error := .valueError "semaphore released too many times"

/-- `Semaphore(initial_value, max_value=…, fast_acquire=…)`. -/
def create (τ : Type*) (initialValue : Int) (maxValue : Option Int) (fastAcquire : Bool) :
    Except Error (State τ) :=
  if initialValue < 0 then .error negativeInitial
  else if maxValue.any (· < initialValue) then .error maxBelowInitial
  else .ok {
    fastAcquire := fastAcquire
    maxValue := maxValue
    value := initialValue
    waiters := []
    loop := Loop.initial .outside }

inductive Action (τ : Type*)
  | acquire (task : τ) (scopeCancelled : Bool)
  | acquireNowait (task : τ)
  | release (task : τ)
  | cancel (task : τ)
  | resume (task : τ)
  deriving DecidableEq, Repr

variable {τ : Type*}

def acquireNowait (s : State τ) : State τ × Outcome Point Unit :=
  if s.value = 0 then (s, .raised .wouldBlock)
  else ({ s with value := s.value - 1 }, .returned ())

/-- `release()`: hand a permit to the first waiter whose future is not
cancelled, and take that future out of the deque. -/
def release (s : State τ) : Except Error (State τ) :=
  if s.maxValue = some s.value then .error releasedTooOften
  else
    match s.waiters.find? fun fut => s.loop.future fut ≠ .cancelled with
    | some fut =>
        match s.loop.setResult fut with
        | some loop => .ok { s with waiters := s.waiters.erase fut, loop := loop }
        | none => .error .invalidStateError
    | none => .ok { s with value := s.value + 1 }

/-- The `except` blocks of `acquire()`: release, then raise again. -/
def releaseAndRaise (s : State τ) : State τ × Outcome Point Unit :=
  match release s with
  | .ok s' => (s', .raised .cancelledError)
  | .error e => (s, .raised e)

variable [DecidableEq τ]

/-- `acquire()` up to its first await. -/
def acquire (s : State τ) (t : τ) (scopeCancelled : Bool) : State τ × Outcome Point Unit :=
  if 0 < s.value ∧ s.waiters = [] then
    if scopeCancelled then
      ({ s with loop := s.loop.moveTo t .checkpointIfCancelled }, .suspended .checkpointIfCancelled)
    else if s.fastAcquire then
      ({ s with value := s.value - 1 }, .returned ())
    else
      ({ s with value := s.value - 1, loop := s.loop.moveTo t .shieldedCheckpoint },
        .suspended .shieldedCheckpoint)
  else
    let fut := s.loop.nextFuture
    ({ s with
        waiters := s.waiters ++ [fut]
        loop := s.loop.createFuture.moveTo t (.waiting fut) },
      .suspended (.waiting fut))

/-- The step of `acquire()` that follows the wake-up of task `t`. -/
def resume (s : State τ) (t : τ) : State τ × Outcome Point Unit :=
  let thrown := s.loop.throws t
  let outside := { s with loop := s.loop.resumeAt t .outside }
  match s.loop.point t with
  | .outside => (s, .returned ())
  | .checkpointIfCancelled =>
      if thrown then (outside, .raised .cancelledError)
      else ({ s with loop := s.loop.resumeAt t .checkpointIfCancelled },
        .suspended .checkpointIfCancelled)
  | .shieldedCheckpoint =>
      if thrown then releaseAndRaise outside else (outside, .returned ())
  | .waiting fut =>
      if thrown then
        -- `deque.remove` raises `ValueError` if a release has taken the future out
        if fut ∈ s.waiters then
          ({ outside with waiters := s.waiters.erase fut }, .raised .cancelledError)
        else releaseAndRaise outside
      else (outside, .returned ())

/-- One step of the semaphore. Calls are made by tasks outside `acquire()`, a
cancellation request reaches a task suspended in it, and a wake-up is run once
it is queued. -/
def step (s : State τ) : Action τ → Option (State τ × Outcome Point Unit)
  | .acquire t scopeCancelled =>
      if s.loop.point t = .outside then some (acquire s t scopeCancelled) else none
  | .acquireNowait t => if s.loop.point t = .outside then some (acquireNowait s) else none
  | .release t =>
      if s.loop.point t = .outside then
        match release s with
        | .ok s' => some (s', .returned ())
        | .error e => some (s, .raised e)
      else none
  | .cancel t =>
      if s.loop.point t ≠ .outside then
        some ({ s with loop := s.loop.cancel t }, .suspended (s.loop.point t))
      else none
  | .resume t => if s.loop.wakeUpQueued t then some (resume s t) else none

def machine (τ : Type*) [DecidableEq τ] : Machine (State τ) (Action τ) (Outcome Point Unit) where
  step := step

end Anyio.Semaphore
