import Anyio.Asyncio.Loop
import Anyio.Exceptions
import Anyio.Library.Machine

/-!
# The signal receiver of the asyncio backend

A `_SignalReceiver` queues the signals that its handler is called with, and
`__anext__()` takes them out. A task that finds the queue empty puts a new
future in the place of the old one and waits for it; the handler completes the
future that is there.

## Implementation notes

The event loop calls the handler between two pieces of any call. The future is
known to the receiver alone: nothing but the handler and the cancellation of
the task that waits for it makes it done.
-/

namespace Anyio.SignalReceiver

open Asyncio Library

/-- The awaits of `__anext__()`. -/
inductive Point
  | outside
  | checkpoint
  | waiting (fut : FutureId)
  deriving DecidableEq, Repr

instance : Coroutine Point where
  waits
    | .outside => .nothing
    | .checkpoint => .step
    | .waiting fut => .future fut

/-- A `_SignalReceiver` for signals of the type `σ`. -/
structure State (τ σ : Type*) where
  signalQueue : List σ
  future : FutureId
  loop : Loop τ Point

inductive Action (τ σ : Type*)
  | deliver (signum : σ)
  | anext (task : τ)
  | cancel (task : τ)
  | resume (task : τ)
  deriving DecidableEq, Repr

/-- The signal that `__anext__()` returns; the other calls return `None`. -/
abbrev Answer (σ : Type*) := Outcome Point (Option σ)

/-- `deque.popleft()` without an element. -/
def popFromEmpty : Error := .other "IndexError: pop from an empty deque"

/-- `__init__()` -/
def initial (τ σ : Type*) : State τ σ :=
  let l : Loop τ Point := Loop.initial .outside
  { signalQueue := []
    future := l.nextFuture
    loop := l.createFuture }

variable {τ σ : Type*}

/-- `_deliver()` -/
def deliver (s : State τ σ) (signum : σ) : State τ σ × Answer σ :=
  let queued : State τ σ := { s with signalQueue := s.signalQueue ++ [signum] }
  if s.loop.future s.future = .pending then
    match s.loop.setResult s.future with
    | none => (queued, .raised .invalidStateError)
    | some loop => ({ queued with loop := loop }, .returned none)
  else (queued, .returned none)

/-- `_signal_queue.popleft()` -/
def popleft (s : State τ σ) : State τ σ × Answer σ :=
  match s.signalQueue with
  | [] => (s, .raised popFromEmpty)
  | signum :: rest => ({ s with signalQueue := rest }, .returned (some signum))

variable [DecidableEq τ]

/-- `__anext__()` up to its checkpoint. -/
def anext (s : State τ σ) (t : τ) : State τ σ × Answer σ :=
  ({ s with loop := s.loop.moveTo t .checkpoint }, .suspended .checkpoint)

/-- Task `t` runs again, outside of any await. -/
def wake (s : State τ σ) (t : τ) : State τ σ := { s with loop := s.loop.resumeAt t .outside }

/-- `__anext__()` from `self._future = asyncio.Future()` up to the await. -/
def startWait (s : State τ σ) (t : τ) : State τ σ × Answer σ :=
  let fut := s.loop.nextFuture
  ({ s with future := fut, loop := s.loop.createFuture.resumeAt t (.waiting fut) },
    .suspended (.waiting fut))

/-- The piece of `__anext__()` that follows the wake-up of its task. -/
def resume (s : State τ σ) (t : τ) : State τ σ × Answer σ :=
  let thrown := s.loop.throws t
  match s.loop.point t with
  | .outside => (s, .returned none)
  | .checkpoint =>
      if thrown then (wake s t, .raised .cancelledError)
      -- a signal that came during the checkpoint is taken without a wait
      else if s.signalQueue.isEmpty then startWait s t
      else popleft (wake s t)
  | .waiting _ =>
      if thrown then (wake s t, .raised .cancelledError)
      else popleft (wake s t)

/-- The actions that are possible, and what they do. -/
def step (s : State τ σ) : Action τ σ → Option (State τ σ × Answer σ)
  | .deliver signum => some (deliver s signum)
  | .anext t => if s.loop.point t = .outside then some (anext s t) else none
  | .cancel t => some ({ s with loop := s.loop.cancel t }, .returned none)
  | .resume t => if s.loop.wakeUpQueued t then some (resume s t) else none

def machine (τ σ : Type*) [DecidableEq τ] : Machine (State τ σ) (Action τ σ) (Answer σ) where
  step := step

end Anyio.SignalReceiver
