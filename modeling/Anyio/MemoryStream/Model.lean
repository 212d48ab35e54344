import Anyio.Asyncio.Loop
import Anyio.Bound
import Anyio.Exceptions
import Anyio.Library.Machine
import Anyio.Library.OrderedDict

/-!
# Memory object streams

A pair of memory object streams with all clones of its two ends, over the
asyncio backend. `send()` and `receive()` are cut at their `await`s.

## Implementation notes

The event of a waiting call has one waiting task, so it is identified with the
future on which that task is suspended. The `MemoryObjectItemReceiver` of a
waiting `receive()` is identified with its event: it is the task in
`waitingReceivers` and the `item` of the event.

What the streams see of cancel scopes is whether the scope of a task is
effectively cancelled and the count of `cancelling()`; both are changed by the
environment, the count only while the task runs outside of the streams. A
cancel scope interrupts a task only while the future it awaits is not done.
-/

namespace Anyio.MemoryStream

open Asyncio Library

/-- The awaits of `send()` and `receive()`, with the stream object the call was made on. -/
inductive Point (α : Type*)
  | outside
  | sendCheckpoint (stream : Nat) (item : α)
  | sendWait (event : FutureId)
  | receiveCheckpoint (stream : Nat)
  | receiveWait (event : FutureId)
  deriving DecidableEq, Repr

instance {α : Type*} : Coroutine (Point α) where
  waits
    | .outside => .nothing
    | .sendCheckpoint _ _ => .step
    | .sendWait event => .future event
    | .receiveCheckpoint _ => .step
    | .receiveWait event => .future event

def Point.isOutside {α : Type*} : Point α → Bool
  | .outside => true
  | _ => false

@[simp] theorem Point.isOutside_iff {α : Type*} {p : Point α} : p.isOutside ↔ p = .outside := by
  cases p <;> simp [isOutside]

/-- A `MemoryObjectStreamState`, the `_closed` flags of its stream objects, and
what is read of the tasks: the interpreter has `Task.cancelling()` from 3.11 on. -/
structure State (τ α : Type*) where
  maxBufferSize : Bound
  buffer : List α
  openSendChannels : Nat
  openReceiveChannels : Nat
  waitingReceivers : OrderedDict FutureId τ
  item : FutureId → Option α
  waitingSenders : OrderedDict FutureId α
  sendClosed : List Bool
  receiveClosed : List Bool
  python311 : Bool
  effectivelyCancelled : τ → Bool
  loop : Loop τ (Point α)

def sizeNotInt : Error := .valueError "max_buffer_size must be either an integer or math.inf"

def sizeNegative : Error := .valueError "max_buffer_size cannot be negative"

/-- The checks of `create_memory_object_stream`. -/
def checkSize : Number → Except Error Bound
  | .int z => if z < 0 then .error sizeNegative else .ok (.count z.toNat)
  | .posInf => .ok .inf
  | .negInf => .error sizeNotInt
  | .otherFloat => .error sizeNotInt

/-- `create_memory_object_stream(max_buffer_size)`: one stream object for each end. -/
def create (τ α : Type*) (python311 : Bool) (maxBufferSize : Number) :
    Except Error (State τ α) :=
  (checkSize maxBufferSize).map fun size => {
    maxBufferSize := size
    buffer := []
    openSendChannels := 1
    openReceiveChannels := 1
    waitingReceivers := .empty
    item := fun _ => none
    waitingSenders := .empty
    sendClosed := [false]
    receiveClosed := [false]
    python311 := python311
    effectivelyCancelled := fun _ => false
    loop := Loop.initial .outside }

/-- The values the calls return; a new clone is named by its index. -/
inductive Value (α : Type*)
  | none
  | item (item : α)
  | stream (index : Nat)
  deriving DecidableEq, Repr

inductive Action (τ α : Type*)
  | sendNowait (stream : Nat) (item : α)
  | send (task : τ) (stream : Nat) (item : α)
  | receiveNowait (stream : Nat)
  | receive (task : τ) (stream : Nat)
  | cloneSend (stream : Nat)
  | cloneReceive (stream : Nat)
  | closeSend (stream : Nat)
  | closeReceive (stream : Nat)
  | interrupt (task : τ)
  | resume (task : τ)
  | setScope (task : τ) (effectivelyCancelled : Bool)
  | setCancelling (task : τ) (count : Nat)
  deriving DecidableEq, Repr

variable {τ α : Type*}

/-- `AsyncIOTaskInfo.has_pending_cancellation()`. -/
def hasPendingCancellation (s : State τ α) (t : τ) : Bool :=
  (if s.python311 then (s.loop.task t).cancelling ≠ 0
    else match s.loop.waits t with
      | .future fut => s.loop.future fut = .cancelled
      | _ => false) || s.effectivelyCancelled t

/-- A cancel scope cancels a suspended task only while the future it awaits is not done. -/
def interruptible (l : Loop τ (Point α)) (t : τ) : Bool :=
  match l.waits t with
  | .nothing => false
  | .step => true
  | .future fut => l.future fut = .pending

/-- The queue after the receivers with a pending cancellation were popped from its front. -/
def nextReceivers (s : State τ α) : OrderedDict FutureId τ :=
  s.waitingReceivers.dropWhile fun e => hasPendingCancellation s e.2

/-- `send_nowait()` on an open stream with a receiving end. Receivers stay
popped when `WouldBlock` is raised. -/
def transmit (s : State τ α) (x : α) : State τ α × Except Error Unit :=
  match (nextReceivers s).popItem with
  | some ((event, _), rest) =>
      ({ s with
          waitingReceivers := rest
          item := Function.update s.item event (some x)
          loop := s.loop.setEvent event }, .ok ())
  | none =>
      let s' := { s with waitingReceivers := nextReceivers s }
      if s.maxBufferSize.covers (s.buffer.length + 1) then
        ({ s' with buffer := s.buffer ++ [x] }, .ok ())
      else (s', .error .wouldBlock)

def sendNowait (s : State τ α) (i : Nat) (x : α) : State τ α × Except Error Unit :=
  if s.sendClosed.getD i true then (s, .error .closedResourceError)
  else if s.openReceiveChannels = 0 then (s, .error .brokenResourceError)
  else transmit s x

/-- Move the item of the next sender into the buffer. -/
def admitSender (s : State τ α) : State τ α :=
  match s.waitingSenders.popItem with
  | some ((event, x), rest) =>
      { s with
        buffer := s.buffer ++ [x]
        waitingSenders := rest
        loop := s.loop.setEvent event }
  | none => s

def receiveNowait (s : State τ α) (i : Nat) : State τ α × Except Error α :=
  if s.receiveClosed.getD i true then (s, .error .closedResourceError)
  else
    let s' := admitSender s
    match s'.buffer with
    | x :: rest => ({ s' with buffer := rest }, .ok x)
    | [] => (s', .error (if s'.openSendChannels = 0 then .endOfStream else .wouldBlock))

/-- `Event.set()` on each of the events. -/
def setEvents (l : Loop τ (Point α)) (events : List FutureId) : Loop τ (Point α) :=
  events.foldl Loop.setEvent l

/-- `MemoryObjectSendStream.close()`. -/
def closeSend (s : State τ α) (i : Nat) : State τ α :=
  if s.sendClosed.getD i true then s
  else
    let s' := { s with
      sendClosed := s.sendClosed.set i true
      openSendChannels := s.openSendChannels - 1 }
    if s'.openSendChannels = 0 then
      { s' with
        waitingReceivers := .empty
        loop := setEvents s.loop s.waitingReceivers.keys }
    else s'

/-- `MemoryObjectReceiveStream.close()`. The senders stay in their queue. -/
def closeReceive (s : State τ α) (i : Nat) : State τ α :=
  if s.receiveClosed.getD i true then s
  else
    let s' := { s with
      receiveClosed := s.receiveClosed.set i true
      openReceiveChannels := s.openReceiveChannels - 1 }
    if s'.openReceiveChannels = 0 then
      { s' with loop := setEvents s.loop s.waitingSenders.keys }
    else s'

variable [DecidableEq τ]

/-- The rest of `send()` after its checkpoint, up to the next await. -/
def sendAfterCheckpoint (s : State τ α) (t : τ) (i : Nat) (x : α) :
    State τ α × Outcome (Point α) (Value α) :=
  match sendNowait s i x with
  | (s', .ok ()) => (s', .returned .none)
  | (s', .error .wouldBlock) =>
      let event := s'.loop.nextFuture
      ({ s' with
          waitingSenders := s'.waitingSenders.assign event x
          loop := s'.loop.createFuture.moveTo t (.sendWait event) },
        .suspended (.sendWait event))
  | (s', .error e) => (s', .raised e)

/-- The rest of `receive()` after its checkpoint, up to the next await. -/
def receiveAfterCheckpoint (s : State τ α) (t : τ) (i : Nat) :
    State τ α × Outcome (Point α) (Value α) :=
  match receiveNowait s i with
  | (s', .ok x) => (s', .returned (.item x))
  | (s', .error .wouldBlock) =>
      let event := s'.loop.nextFuture
      ({ s' with
          waitingReceivers := s'.waitingReceivers.assign event t
          item := Function.update s'.item event none
          loop := s'.loop.createFuture.moveTo t (.receiveWait event) },
        .suspended (.receiveWait event))
  | (s', .error e) => (s', .raised e)

/-- Task `t` runs again, outside of any await. -/
def wake (s : State τ α) (t : τ) : State τ α :=
  { s with loop := s.loop.resumeAt t .outside }

/-- The step of `send()` or `receive()` that follows the wake-up of task `t`. -/
def resume (s : State τ α) (t : τ) : State τ α × Outcome (Point α) (Value α) :=
  let thrown := s.loop.throws t
  match s.loop.point t with
  | .outside => (s, .returned .none)
  | .sendCheckpoint i x =>
      if thrown then (wake s t, .raised .cancelledError)
      else sendAfterCheckpoint (wake s t) t i x
  | .sendWait event =>
      let popped := { wake s t with waitingSenders := s.waitingSenders.pop event }
      if thrown then (popped, .raised .cancelledError)
      else if event ∈ s.waitingSenders.keys then (popped, .raised .brokenResourceError)
      else (wake s t, .returned .none)
  | .receiveCheckpoint i =>
      if thrown then (wake s t, .raised .cancelledError)
      else receiveAfterCheckpoint (wake s t) t i
  | .receiveWait event =>
      let popped := { wake s t with waitingReceivers := s.waitingReceivers.pop event }
      if thrown then (popped, .raised .cancelledError)
      else
        match s.item event with
        | some x => (popped, .returned (.item x))
        | none => (popped, .raised .endOfStream)

/-- `close()`, `clone()` and the calls that do not wait name an existing stream
object; `send()` and `receive()` are called by a task outside of them. -/
def step (s : State τ α) : Action τ α → Option (State τ α × Outcome (Point α) (Value α))
  | .sendNowait i x =>
      if i < s.sendClosed.length then
        match sendNowait s i x with
        | (s', .ok ()) => some (s', .returned .none)
        | (s', .error e) => some (s', .raised e)
      else none
  | .send t i x =>
      if i < s.sendClosed.length ∧ (s.loop.point t).isOutside then
        some ({ s with loop := s.loop.moveTo t (.sendCheckpoint i x) },
          .suspended (.sendCheckpoint i x))
      else none
  | .receiveNowait i =>
      if i < s.receiveClosed.length then
        match receiveNowait s i with
        | (s', .ok x) => some (s', .returned (.item x))
        | (s', .error e) => some (s', .raised e)
      else none
  | .receive t i =>
      if i < s.receiveClosed.length ∧ (s.loop.point t).isOutside then
        some ({ s with loop := s.loop.moveTo t (.receiveCheckpoint i) },
          .suspended (.receiveCheckpoint i))
      else none
  | .cloneSend i =>
      if i < s.sendClosed.length then
        if s.sendClosed.getD i true then some (s, .raised .closedResourceError)
        else some ({ s with
          sendClosed := s.sendClosed ++ [false]
          openSendChannels := s.openSendChannels + 1 }, .returned (.stream s.sendClosed.length))
      else none
  | .cloneReceive i =>
      if i < s.receiveClosed.length then
        if s.receiveClosed.getD i true then some (s, .raised .closedResourceError)
        else some ({ s with
          receiveClosed := s.receiveClosed ++ [false]
          openReceiveChannels := s.openReceiveChannels + 1 },
          .returned (.stream s.receiveClosed.length))
      else none
  | .closeSend i =>
      if i < s.sendClosed.length then some (closeSend s i, .returned .none) else none
  | .closeReceive i =>
      if i < s.receiveClosed.length then some (closeReceive s i, .returned .none) else none
  | .interrupt t =>
      if interruptible s.loop t then
        some ({ s with loop := s.loop.cancel t }, .suspended (s.loop.point t))
      else none
  | .resume t => if s.loop.wakeUpQueued t then some (resume s t) else none
  | .setScope t b =>
      some ({ s with effectivelyCancelled := Function.update s.effectivelyCancelled t b },
        .returned .none)
  | .setCancelling t n =>
      if (s.loop.point t).isOutside then
        some ({ s with loop := s.loop.setCancelling t n }, .returned .none)
      else none

def machine (τ α : Type*) [DecidableEq τ] :
    Machine (State τ α) (Action τ α) (Outcome (Point α) (Value α)) where
  step := step

end Anyio.MemoryStream
