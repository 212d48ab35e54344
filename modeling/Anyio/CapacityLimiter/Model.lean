import Anyio.Asyncio.Loop
import Anyio.Bound
import Anyio.Exceptions
import Anyio.Library.Machine
import Anyio.Library.OrderedDict
import Mathlib.Data.Finset.Card

/-!
# The asyncio `CapacityLimiter`

The calls of the asyncio `CapacityLimiter`, cut at their `await`s, and the
setter of `total_tokens`. `acquire()`, `acquire_nowait()` and `release()` are
the calls on behalf of the current task.

## Implementation notes

The event of a waiter has one waiting task from the moment it is registered,
so it is identified with the future on which that task is suspended. The
borrower is a local variable of the wait only: no other await of
`acquire_on_behalf_of` is followed by a use of it.
-/

namespace Anyio.CapacityLimiter

open Asyncio Library

/-- The awaits of `acquire_on_behalf_of()`. -/
inductive Point (β : Type*)
  | outside
  | checkpointIfCancelled
  | shieldedCheckpoint
  | waiting (borrower : β) (event : FutureId)
  deriving DecidableEq, Repr

instance {β : Type*} : Coroutine (Point β) where
  waits
    | .outside => .nothing
    | .checkpointIfCancelled => .step
    | .shieldedCheckpoint => .step
    | .waiting _ event => .future event

def totalNotInt : Error := .typeError "total_tokens must be an int or math.inf"

def totalTooSmall : Error := .valueError "total_tokens must be >= 1"

def totalTooLarge : Error := .overflowError "int too large to convert to float"

def alreadyHolding : Error :=
  .runtimeError "this borrower is already holding one of this CapacityLimiter's tokens"

def notHolding : Error :=
  .runtimeError "this borrower isn't holding any of this CapacityLimiter's tokens"

/-- The checks of the `total_tokens` setter. -/
def checkTotal : Number → Except Error Bound
  | .int z => if z < 1 then .error totalTooSmall else .ok (.count z.toNat)
  | .posInf => .ok .inf
  | .negInf => .error totalTooSmall
  | .otherFloat => .error totalNotInt

/-- A `CapacityLimiter` object with the event loop it lives in. -/
structure State (τ β : Type*) where
  totalTokens : Bound
  borrowers : Finset β
  waitQueue : OrderedDict β FutureId
  loop : Loop τ (Point β)

inductive Action (τ β : Type*)
  | acquireOnBehalfOf (task : τ) (borrower : β) (scopeCancelled : Bool)
  | acquireOnBehalfOfNowait (borrower : β)
  | releaseOnBehalfOf (borrower : β)
  | setTotalTokens (value : Number)
  | cancel (task : τ)
  | resume (task : τ)
  deriving DecidableEq, Repr

variable {τ β : Type*}

/-- Pop the oldest entry of the queue and set its event. -/
def notifyNext (s : State τ β) : State τ β :=
  match s.waitQueue.popItem with
  | none => s
  | some (entry, rest) => { s with waitQueue := rest, loop := s.loop.setEvent entry.2 }

/-- `max(value - self._total_tokens, 0)`, as the number of entries the setter
pops. Against `math.inf` the difference never counts down to zero, be it
`math.inf` or `nan`: then the whole queue is popped. -/
def waitersToNotify (s : State τ β) : Bound → Nat
  | .inf => s.waitQueue.entries.length
  | .count n =>
      match s.totalTokens with
      | .inf => 0
      | .count old => n - old

/-- The setter up to the assignment: its checks, and the subtraction. -/
def newTotal (s : State τ β) (value : Number) : Except Error Bound :=
  (checkTotal value).bind fun total =>
    if total.overflows s.totalTokens then .error totalTooLarge else .ok total

/-- The setter from the assignment on. -/
def adjustTotal (s : State τ β) (value : Bound) : State τ β :=
  notifyNext^[waitersToNotify s value] { s with totalTokens := value }

def setTotalTokens (s : State τ β) (value : Number) : Except Error (State τ β) :=
  (newTotal s value).map (adjustTotal s)

/-- `CapacityLimiter(total_tokens)`: the setter, over the class attribute 0. -/
def create (τ β : Type*) (value : Number) : Except Error (State τ β) :=
  setTotalTokens {
    totalTokens := .count 0
    borrowers := ∅
    waitQueue := .empty
    loop := Loop.initial .outside } value

variable [DecidableEq β]

def acquireOnBehalfOfNowait (s : State τ β) (b : β) : Except Error (State τ β) :=
  if b ∈ s.borrowers then .error alreadyHolding
  else if s.waitQueue.entries ≠ [] ∨ ¬s.totalTokens.covers (s.borrowers.card + 1) then
    .error .wouldBlock
  else .ok { s with borrowers := insert b s.borrowers }

/-- "Notify the next task in line if this limiter has free capacity now". -/
def notifyIfFree (s : State τ β) : State τ β :=
  if s.waitQueue.entries ≠ [] ∧ s.totalTokens.covers (s.borrowers.card + 1) then notifyNext s
  else s

def releaseOnBehalfOf (s : State τ β) (b : β) : Except Error (State τ β) :=
  if b ∈ s.borrowers then .ok (notifyIfFree { s with borrowers := s.borrowers.erase b })
  else .error notHolding

variable [DecidableEq τ]

/-- `acquire_on_behalf_of()` up to its first await. -/
def acquireOnBehalfOf (s : State τ β) (t : τ) (b : β) (scopeCancelled : Bool) :
    State τ β × Outcome (Point β) Unit :=
  if scopeCancelled then
    ({ s with loop := s.loop.moveTo t .checkpointIfCancelled }, .suspended .checkpointIfCancelled)
  else
    match acquireOnBehalfOfNowait s b with
    | .ok s' =>
        ({ s' with loop := s'.loop.moveTo t .shieldedCheckpoint }, .suspended .shieldedCheckpoint)
    | .error .wouldBlock =>
        let event := s.loop.nextFuture
        ({ s with
            waitQueue := s.waitQueue.assign b event
            loop := s.loop.createFuture.moveTo t (.waiting b event) },
          .suspended (.waiting b event))
    | .error e => (s, .raised e)

/-- The step of `acquire_on_behalf_of()` that follows the wake-up of task `t`.
`currentTask` gives the task object as a borrower: after a cancelled
checkpoint the token is released as `self.release()`. -/
def resume (currentTask : τ → β) (s : State τ β) (t : τ) :
    State τ β × Outcome (Point β) Unit :=
  let thrown := s.loop.throws t
  let outside := { s with loop := s.loop.resumeAt t .outside }
  match s.loop.point t with
  | .outside => (s, .returned ())
  | .checkpointIfCancelled =>
      if thrown then (outside, .raised .cancelledError)
      else ({ s with loop := s.loop.resumeAt t .checkpointIfCancelled },
        .suspended .checkpointIfCancelled)
  | .shieldedCheckpoint =>
      if thrown then
        match releaseOnBehalfOf outside (currentTask t) with
        | .ok s' => (s', .raised .cancelledError)
        | .error e => (outside, .raised e)
      else (outside, .returned ())
  | .waiting b _ =>
      if thrown then
        ({ outside with waitQueue := s.waitQueue.pop b }, .raised .cancelledError)
      else
        -- the token is taken without looking at `_total_tokens` again
        ({ outside with borrowers := insert b s.borrowers }, .returned ())

/-- One step of the limiter. `acquire_on_behalf_of` is called by a task
outside of it, a cancellation request reaches a task suspended in it, and a
wake-up is run once it is queued. -/
def step (currentTask : τ → β) (s : State τ β) :
    Action τ β → Option (State τ β × Outcome (Point β) Unit)
  | .acquireOnBehalfOf t b scopeCancelled =>
      if s.loop.point t = .outside then some (acquireOnBehalfOf s t b scopeCancelled) else none
  | .acquireOnBehalfOfNowait b =>
      match acquireOnBehalfOfNowait s b with
      | .ok s' => some (s', .returned ())
      | .error e => some (s, .raised e)
  | .releaseOnBehalfOf b =>
      match releaseOnBehalfOf s b with
      | .ok s' => some (s', .returned ())
      | .error e => some (s, .raised e)
  | .setTotalTokens value =>
      match setTotalTokens s value with
      | .ok s' => some (s', .returned ())
      | .error e => some (s, .raised e)
  | .cancel t =>
      if s.loop.point t ≠ .outside then
        some ({ s with loop := s.loop.cancel t }, .suspended (s.loop.point t))
      else none
  | .resume t => if s.loop.wakeUpQueued t then some (resume currentTask s t) else none

def machine (currentTask : τ → β) :
    Machine (State τ β) (Action τ β) (Outcome (Point β) Unit) where
  step := step currentTask

end Anyio.CapacityLimiter
