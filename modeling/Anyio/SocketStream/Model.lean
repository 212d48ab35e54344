import Anyio.Asyncio.Event
import Anyio.Exceptions
import Anyio.Library.Bytes
import Anyio.Library.Machine
import Anyio.Library.Slices

/-!
# Socket streams on asyncio

A `SocketStream` with its `StreamProtocol`, over an asyncio transport. The
calls are cut at their `await`s. The transport calls the methods of the
protocol between any two of these pieces, in any order.

## Implementation notes

Of the transport the model keeps whether `is_closing()` holds and what was
written to it. A transport may start to close by itself, and whether `write()`
raises a `RuntimeError`, and with which text, is its own choice. Pausing and
resuming the reading is left out: it only restricts when data may arrive.
`pause_writing()` puts a new event in the place of the old one; nothing but the
waits that are under way refers to the old one after that, and nothing sets it.
-/

namespace Anyio.SocketStream

open Asyncio Library

/-- The awaits of the calls, with the locals that are read after each. -/
inductive Point
  | outside
  | receiveWait (maxBytes : Int) (waiter : FutureId)
  | receiveCheckpoint (maxBytes : Int)
  | sendCheckpoint (item : Bytes)
  | sendWait (waiter : FutureId)
  | acloseYield
  deriving DecidableEq, Repr

instance : Coroutine Point where
  waits
    | .outside => .nothing
    | .receiveWait _ waiter => .future waiter
    | .receiveCheckpoint _ => .step
    | .sendCheckpoint _ => .step
    | .sendWait waiter => .future waiter
    | .acloseYield => .step

/-- A `SocketStream`, the attributes of its protocol, and what is read of its transport. -/
structure State (τ : Type*) where
  readQueue : List Bytes
  readEvent : Event
  writeEvent : Event
  exception : Option Error
  isAtEof : Bool
  transportClosing : Bool
  written : List Bytes
  receiveGuarded : Bool
  sendGuarded : Bool
  closed : Bool
  loop : Loop τ Point

/-- A stream whose `connection_made()` has just run. -/
def initial (τ : Type*) : State τ where
  readQueue := []
  readEvent := .new
  writeEvent := Event.new.raised
  exception := none
  isAtEof := false
  transportClosing := false
  written := []
  receiveGuarded := false
  sendGuarded := false
  closed := false
  loop := Loop.initial .outside

/-- Calls, callbacks of the transport, and the event loop. `connectionLost` tells whether an
exception is passed, and `resume` with which text `transport.write()` raises, if it does. -/
inductive Action (τ : Type*)
  | receive (task : τ) (maxBytes : Int)
  | send (task : τ) (item : Bytes)
  | aclose (task : τ)
  | dataReceived (data : Bytes)
  | eofReceived
  | connectionLost (exc : Bool)
  | pauseWriting
  | resumeWriting
  | transportCloses
  | cancel (task : τ)
  | resume (task : τ) (refusal : Option String)
  deriving DecidableEq, Repr

/-- The bytes that `receive()` returns; the other calls return `None`. -/
abbrev Answer := Outcome Point (Option Bytes)

variable {τ : Type*}

/-- `read_event.set()`. -/
def setReadEvent (s : State τ) : State τ :=
  { s with readEvent := s.readEvent.raised, loop := s.readEvent.wakeWaiters s.loop }

/-- `write_event.set()`. -/
def setWriteEvent (s : State τ) : State τ :=
  { s with writeEvent := s.writeEvent.raised, loop := s.writeEvent.wakeWaiters s.loop }

def connectionLost (s : State τ) (exc : Bool) : State τ :=
  setWriteEvent (setReadEvent
    { s with exception := if exc then some .brokenResourceError else s.exception })

def dataReceived (s : State τ) (data : Bytes) : State τ :=
  setReadEvent { s with readQueue := s.readQueue ++ [data] }

def eofReceived (s : State τ) : State τ := setReadEvent { s with isAtEof := true }

/-- `chunk[:max_bytes]` and `chunk[max_bytes:]`, or the whole chunk if it is not oversized. -/
def splitChunk (chunk : Bytes) (maxBytes : Int) : Bytes × List Bytes :=
  if maxBytes < chunk.length then (sliceTo chunk maxBytes, [sliceFrom chunk maxBytes])
  else (chunk, [])

/-- The exception of a `receive()` that finds the queue empty. -/
def endOfReceive (s : State τ) : Error :=
  if s.closed then .closedResourceError
  else
    match s.exception with
    | some e => e
    | none => .endOfStream

/-- `receive()` from `popleft()` to its end. -/
def takeChunk (s : State τ) (maxBytes : Int) : State τ × Answer :=
  match s.readQueue with
  | [] => ({ s with receiveGuarded := false }, .raised (endOfReceive s))
  | first :: rest =>
      let (chunk, leftover) := splitChunk first maxBytes
      let queue := leftover ++ rest
      ({ s with
          readQueue := queue
          -- an empty queue makes the next call wait
          readEvent := if queue = [] then s.readEvent.clear else s.readEvent
          receiveGuarded := false },
        .returned (some chunk))

/-- The checks of `send()` and the write. -/
def write (s : State τ) (item : Bytes) (refusal : Option String) : Except Error (State τ) :=
  if s.closed then .error .closedResourceError
  else
    match s.exception, refusal with
    | some e, _ => .error e
    | none, some message =>
        .error (if s.transportClosing then .brokenResourceError else .runtimeError message)
    | none, none => .ok { s with written := s.written ++ [item] }

variable [DecidableEq τ]

/-- `receive()` up to its await. -/
def receive (s : State τ) (t : τ) (maxBytes : Int) : State τ × Answer :=
  if s.receiveGuarded then (s, .raised (.busyResourceError "reading from"))
  else if s.readEvent.value = false ∧ s.transportClosing = false ∧ s.isAtEof = false then
    let waiter := s.loop.nextFuture
    ({ s with
        receiveGuarded := true
        readEvent := s.readEvent.join waiter
        loop := s.loop.createFuture.moveTo t (.receiveWait maxBytes waiter) },
      .suspended (.receiveWait maxBytes waiter))
  else
    ({ s with
        receiveGuarded := true
        loop := s.loop.moveTo t (.receiveCheckpoint maxBytes) },
      .suspended (.receiveCheckpoint maxBytes))

/-- `send()` up to its checkpoint. -/
def send (s : State τ) (t : τ) (item : Bytes) : State τ × Answer :=
  if s.sendGuarded then (s, .raised (.busyResourceError "writing to"))
  else
    ({ s with sendGuarded := true, loop := s.loop.moveTo t (.sendCheckpoint item) },
      .suspended (.sendCheckpoint item))

/-- `send()` from its checkpoint on: the write, and the wait for the write buffer to drain. -/
def sendItem (s : State τ) (t : τ) (item : Bytes) (refusal : Option String) : State τ × Answer :=
  match write s item refusal with
  | .error e => ({ s with sendGuarded := false }, .raised e)
  | .ok s' =>
      if s'.writeEvent.value then ({ s' with sendGuarded := false }, .returned none)
      else
        let waiter := s'.loop.nextFuture
        ({ s' with
            writeEvent := s'.writeEvent.join waiter
            loop := s'.loop.createFuture.moveTo t (.sendWait waiter) },
          .suspended (.sendWait waiter))

/-- `aclose()` up to its `sleep(0)`. -/
def aclose (s : State τ) (t : τ) : State τ × Answer :=
  if s.transportClosing then (s, .returned none)
  else
    ({ s with
        closed := true
        transportClosing := true
        loop := s.loop.moveTo t .acloseYield },
      .suspended .acloseYield)

/-- Task `t` runs again, outside of any await. -/
def wake (s : State τ) (t : τ) : State τ := { s with loop := s.loop.resumeAt t .outside }

/-- The piece of a call that follows the wake-up of its task. -/
def resume (s : State τ) (t : τ) (refusal : Option String) : State τ × Answer :=
  let thrown := s.loop.throws t
  match s.loop.point t with
  | .outside => (s, .returned none)
  | .receiveWait maxBytes waiter =>
      let left := { wake s t with readEvent := s.readEvent.leave waiter }
      if thrown then ({ left with receiveGuarded := false }, .raised .cancelledError)
      else takeChunk left maxBytes
  | .receiveCheckpoint maxBytes =>
      if thrown then ({ wake s t with receiveGuarded := false }, .raised .cancelledError)
      else takeChunk (wake s t) maxBytes
  | .sendCheckpoint item =>
      if thrown then ({ wake s t with sendGuarded := false }, .raised .cancelledError)
      else sendItem (wake s t) t item refusal
  | .sendWait waiter =>
      ({ wake s t with writeEvent := s.writeEvent.leave waiter, sendGuarded := false },
        if thrown then .raised .cancelledError else .returned none)
  | .acloseYield => (wake s t, if thrown then .raised .cancelledError else .returned none)

/-- One step. Calls are made by tasks outside of the stream, and a cancellation request reaches
a task that is suspended in one. -/
def step (s : State τ) : Action τ → Option (State τ × Answer)
  | .receive t maxBytes =>
      if s.loop.point t = .outside then some (receive s t maxBytes) else none
  | .send t item => if s.loop.point t = .outside then some (send s t item) else none
  | .aclose t => if s.loop.point t = .outside then some (aclose s t) else none
  | .dataReceived data => some (dataReceived s data, .returned none)
  | .eofReceived => some (eofReceived s, .returned none)
  | .connectionLost exc => some (connectionLost s exc, .returned none)
  | .pauseWriting => some ({ s with writeEvent := .new }, .returned none)
  | .resumeWriting => some (setWriteEvent s, .returned none)
  | .transportCloses => some ({ s with transportClosing := true }, .returned none)
  | .cancel t =>
      if s.loop.point t ≠ .outside then
        some ({ s with loop := s.loop.cancel t }, .suspended (s.loop.point t))
      else none
  | .resume t refusal => if s.loop.wakeUpQueued t then some (resume s t refusal) else none

def machine (τ : Type*) [DecidableEq τ] : Machine (State τ) (Action τ) Answer where
  step := step

end Anyio.SocketStream
