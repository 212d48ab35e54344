import Anyio.Asyncio.Loop
import Anyio.Exceptions
import Anyio.Library.Bytes
import Anyio.Library.Machine

/-!
# Raw UNIX sockets on asyncio

A `UNIXSocketStream` with the waits and the `aclose()` of its `_RawSocketMixin`.
The calls are cut at their `await`s. The callbacks of the reader and of the
writer that the loop keeps for the socket, and the done-callbacks of the
futures, run between any two of these pieces.

## Implementation notes

What the operating system answers to `recv()` and `send()` comes with the
action; a closed socket answers with an `OSError` to both. The done-callback of
a future is added before the task awaits it, so it runs before the wake-up of
the task: a task leaves its wait when its future is no longer stored. What a
callback of the loop raises is logged by the loop. `send_fds()` and
`receive_fds()`, which take the same guards and use the same socket, are no
actions: the runs are those of a stream on which nobody calls them.
-/

namespace Anyio.RawSocket

open Asyncio Library

/-- The direction that a future, a guard and a callback of the loop are for. -/
inductive Side
  | receive | send
  deriving DecidableEq, Repr

/-- The awaits of the calls, with the locals that are read after each. -/
inductive Point
  | outside
  | receiveCheckpoint (maxBytes : Int)
  | receiveWait (maxBytes : Int) (waiter : FutureId)
  | sendCheckpoint (item : Bytes)
  | sendWait (view : Bytes) (waiter : FutureId)
  deriving DecidableEq, Repr

instance : Coroutine Point where
  waits
    | .outside => .nothing
    | .receiveCheckpoint _ => .step
    | .receiveWait _ waiter => .future waiter
    | .sendCheckpoint _ => .step
    | .sendWait _ waiter => .future waiter

/-- What a stream keeps for one direction: the stored future, the future that the
reader or writer of the loop completes, and the guard. -/
structure Half where
  future : Option FutureId
  callback : Option FutureId
  guarded : Bool

structure State (τ : Type*) where
  half : Side → Half
  closing : Bool
  fileOpen : Bool
  loop : Loop τ Point

/-- A stream that was just made for an open socket. -/
def initial (τ : Type*) : State τ where
  half := fun _ => { future := none, callback := none, guarded := false }
  closing := false
  fileOpen := true
  loop := Loop.initial .outside

/-- The answer to a call on a non-blocking socket: a result, `BlockingIOError`, or
another `OSError`. -/
inductive Attempt (α : Type*)
  | gives (result : α)
  | blocks
  | fails
  deriving DecidableEq, Repr

/-- Calls, callbacks of the loop, and its tasks. `resume` carries what `recv()` and one
`send()` after another answer if the piece makes these calls; `socketCloses` is a
`close()` of the socket by someone else. -/
inductive Action (τ : Type*)
  | receive (task : τ) (maxBytes : Int)
  | send (task : τ) (item : Bytes)
  | aclose (task : τ)
  | socketCloses
  | ready (side : Side)
  | doneCallback (side : Side)
  | cancel (task : τ)
  | resume (task : τ) (received : Attempt Bytes) (sent : List (Attempt Nat))
  deriving DecidableEq, Repr

/-- The bytes that `receive()` returns; the other calls return `None`. -/
abbrev Answer := Outcome Point (Option Bytes)

variable {τ : Type*} {α : Type*}

/-- Replace what is kept for one direction. -/
def setHalf (s : State τ) (side : Side) (half : Half) : State τ :=
  { s with half := Function.update s.half side half }

/-- The guard of one direction, entered or left. -/
def setGuarded (s : State τ) (side : Side) (guarded : Bool) : State τ :=
  setHalf s side { s.half side with guarded := guarded }

/-- A call on the socket with what the operating system answers while it is open. -/
def attempt (s : State τ) (answer : Attempt α) : Attempt α :=
  if s.fileOpen then answer else .fails

/-- The exception that an `OSError` of the socket becomes. -/
def socketError (s : State τ) : Error :=
  if s.closing then .closedResourceError else .brokenResourceError

/-- The new future of one direction, completed by the loop when the socket is ready. -/
def waitUntil (s : State τ) (side : Side) : State τ :=
  let f := s.loop.nextFuture
  { setHalf s side { s.half side with future := some f, callback := some f } with
    loop := s.loop.createFuture }

def waitUntilReadable (s : State τ) : State τ := waitUntil s .receive

def waitUntilWritable (s : State τ) : State τ := waitUntil s .send

/-- The callback of the reader or of the writer: `set_result()` of its future. -/
def ready (s : State τ) (f : FutureId) : State τ × Answer :=
  match s.loop.setResult f with
  | some l => ({ s with loop := l }, .returned none)
  | none => (s, .raised .invalidStateError)

/-- The done-callback of the stored future. -/
def doneCallback (s : State τ) (side : Side) : State τ :=
  setHalf s side { s.half side with future := none, callback := none }

/-- `set_result()` of the stored future of one direction, if there is one. -/
def complete (s : State τ) (side : Side) : Option (State τ) :=
  match (s.half side).future with
  | none => some s
  | some f => (s.loop.setResult f).map fun l => { s with loop := l }

def aclose (s : State τ) : State τ × Answer :=
  if s.closing then (s, .returned none)
  else
    let shut : State τ := { s with closing := true, fileOpen := false }
    match complete shut .receive with
    | none => (shut, .raised .invalidStateError)
    | some woken =>
        match complete woken .send with
        -- the receiving task was woken, the sending task was not
        | none => (woken, .raised .invalidStateError)
        | some done => (done, .returned none)

variable [DecidableEq τ]

/-- The loop of `receive()` up to its next await or its end. -/
def recv (s : State τ) (t : τ) (maxBytes : Int) (received : Attempt Bytes) : State τ × Answer :=
  match attempt s received with
  | .blocks =>
      let waiter := s.loop.nextFuture
      let s' := waitUntilReadable s
      ({ s' with loop := s'.loop.moveTo t (.receiveWait maxBytes waiter) },
        .suspended (.receiveWait maxBytes waiter))
  | .fails => (setGuarded s .receive false, .raised (socketError s))
  | .gives [] => (setGuarded s .receive false, .raised .endOfStream)
  | .gives (b :: data) => (setGuarded s .receive false, .returned (some (b :: data)))

/-- `send()` where its socket would block. -/
def sendBlocked (s : State τ) (t : τ) (view : Bytes) : State τ × Answer :=
  let waiter := s.loop.nextFuture
  let s' := waitUntilWritable s
  ({ s' with loop := s'.loop.moveTo t (.sendWait view waiter) },
    .suspended (.sendWait view waiter))

/-- The loop of `send()` up to its next await or its end. The socket blocks when
nothing more is answered. -/
def sendView (s : State τ) (t : τ) : Bytes → List (Attempt Nat) → State τ × Answer
  | [], _ => (setGuarded s .send false, .returned none)
  | b :: view, answers =>
      match answers with
      | [] =>
          match attempt s (Attempt.blocks : Attempt Nat) with
          | .fails => (setGuarded s .send false, .raised (socketError s))
          | _ => sendBlocked s t (b :: view)
      | answer :: rest =>
          match attempt s answer with
          | .blocks => sendBlocked s t (b :: view)
          | .fails => (setGuarded s .send false, .raised (socketError s))
          | .gives bytesSent => sendView s t ((b :: view).drop bytesSent) rest

/-- Task `t` runs again, outside of any await. -/
def wake (s : State τ) (t : τ) : State τ := { s with loop := s.loop.resumeAt t .outside }

/-- The piece of a call that follows the wake-up of its task. -/
def resume (s : State τ) (t : τ) (received : Attempt Bytes) (sent : List (Attempt Nat)) :
    State τ × Answer :=
  let thrown := s.loop.throws t
  match s.loop.point t with
  | .outside => (s, .returned none)
  | .receiveCheckpoint maxBytes =>
      if thrown then (wake s t, .raised .cancelledError)
      else if (s.half .receive).guarded then
        (wake s t, .raised (.busyResourceError "reading from"))
      else recv (setGuarded (wake s t) .receive true) t maxBytes received
  | .receiveWait maxBytes _ =>
      if thrown then (setGuarded (wake s t) .receive false, .raised .cancelledError)
      else recv (wake s t) t maxBytes received
  | .sendCheckpoint item =>
      if thrown then (wake s t, .raised .cancelledError)
      else if (s.half .send).guarded then
        (wake s t, .raised (.busyResourceError "writing to"))
      else sendView (setGuarded (wake s t) .send true) t item sent
  | .sendWait view _ =>
      if thrown then (setGuarded (wake s t) .send false, .raised .cancelledError)
      else sendView (wake s t) t view sent

/-- The direction and the future of a wait. -/
def Point.waitsOn : Point → Option (Side × FutureId)
  | .receiveWait _ waiter => some (.receive, waiter)
  | .sendWait _ waiter => some (.send, waiter)
  | _ => none

/-- The wake-up of a task is queued and the done-callback of its future has run. -/
def runnable (s : State τ) (t : τ) : Bool :=
  s.loop.wakeUpQueued t &&
    match (s.loop.point t).waitsOn with
    | some (side, f) => (s.half side).future ≠ some f
    | none => true

/-- One step. Calls are made by tasks outside of the stream, and a cancellation request reaches
a task that is suspended in one. -/
def step (s : State τ) : Action τ → Option (State τ × Answer)
  | .receive t maxBytes =>
      if s.loop.point t = .outside then
        some ({ s with loop := s.loop.moveTo t (.receiveCheckpoint maxBytes) },
          .suspended (.receiveCheckpoint maxBytes))
      else none
  | .send t item =>
      if s.loop.point t = .outside then
        some ({ s with loop := s.loop.moveTo t (.sendCheckpoint item) },
          .suspended (.sendCheckpoint item))
      else none
  | .aclose t => if s.loop.point t = .outside then some (aclose s) else none
  | .socketCloses => some ({ s with fileOpen := false }, .returned none)
  | .ready side => (s.half side).callback.map (ready s)
  | .doneCallback side =>
      match (s.half side).future with
      | none => none
      | some f =>
          if s.loop.future f = .pending then none else some (doneCallback s side, .returned none)
  | .cancel t =>
      if s.loop.point t ≠ .outside then
        some ({ s with loop := s.loop.cancel t }, .suspended (s.loop.point t))
      else none
  | .resume t received sent =>
      if runnable s t then some (resume s t received sent) else none

def machine (τ : Type*) [DecidableEq τ] : Machine (State τ) (Action τ) Answer where
  step := step

end Anyio.RawSocket
