import Anyio.Asyncio.Event
import Anyio.Exceptions
import Anyio.Library.BoundedQueue
import Anyio.Library.Bytes
import Anyio.Library.Machine

/-!
# UDP sockets on asyncio

A `UDPSocket` or a `ConnectedUDPSocket` with its `DatagramProtocol`, over an
asyncio transport. The calls are cut at their `await`s, and the transport calls
the methods of the protocol between any two of these pieces.

## Implementation notes

The two classes have the same calls. They differ in what `receive()` returns of
a packet and in what `send()` hands to the transport, which makes a `Kind`.
Of the transport the model keeps whether `is_closing()` holds and the datagrams
that `sendto()` took. It may start to close by itself, it reports the loss of
the connection only after it has started to close, and whether `sendto()`
raises, and what, is its own choice. `error_received()` stores an exception
that only the creation of the socket reads, and is left out.
-/

namespace Anyio.UDPSocket

open Asyncio Library

/-- A socket address as the operating system gives it: a pair, the four parts of
an IPv6 address, or anything else. -/
inductive SockAddr
  | pair (host : String) (port : Nat)
  | ipv6 (host : String) (port flowinfo scopeId : Nat)
  | other (address : String)
  deriving DecidableEq, Repr

/-- `convert_ipv6_sockaddr()` -/
def convertIpv6Sockaddr : SockAddr → SockAddr
  | .ipv6 host port _ scopeId =>
      if scopeId ≠ 0 then
        .pair (String.ofList (host.toList.takeWhile (· ≠ '%')) ++ "%" ++ toString scopeId) port
      else .pair host port
  | address => address

abbrev Packet := Bytes × SockAddr

/-- What the two classes do differently with items of the type `ι` and results of the type `ρ`:
what is returned of a packet, and the arguments of `sendto()`. -/
structure Kind (ι ρ : Type*) where
  unpack : Packet → ρ
  sendto : ι → Bytes × Option SockAddr

def udpSocket : Kind Packet Packet where
  unpack packet := packet
  sendto item := (item.1, some item.2)

def connectedUDPSocket : Kind Bytes Bytes where
  unpack packet := packet.1
  sendto item := (item, none)

/-- The awaits of the calls, with the locals that are read after each. -/
inductive Point (ι : Type*)
  | outside
  | receiveCheckpoint
  | receiveWait (waiter : FutureId)
  | sendCheckpoint (item : ι)
  | sendWait (item : ι) (waiter : FutureId)
  deriving DecidableEq, Repr

namespace Point

variable {ι : Type*}

def isOutside : Point ι → Bool
  | .outside => true
  | _ => false

/-- The task is inside of `receive()`. -/
def receives : Point ι → Bool
  | .receiveCheckpoint | .receiveWait _ => true
  | _ => false

/-- The item of the `send()` that the task is inside of. -/
def sending : Point ι → Option ι
  | .sendCheckpoint item | .sendWait item _ => some item
  | _ => none

end Point

instance (ι : Type*) : Coroutine (Point ι) where
  waits
    | .outside => .nothing
    | .receiveCheckpoint => .step
    | .receiveWait waiter => .future waiter
    | .sendCheckpoint _ => .step
    | .sendWait _ waiter => .future waiter

/-- A socket, the attributes of its protocol, and what is read of its transport. -/
structure State (τ ι : Type*) where
  readQueue : List Packet
  readEvent : Event
  writeEvent : Event
  transportClosing : Bool
  sent : List (Bytes × Option SockAddr)
  receiveGuarded : Bool
  sendGuarded : Bool
  closed : Bool
  loop : Loop τ (Point ι)

/-- A socket whose `connection_made()` has just run. -/
def initial (τ ι : Type*) : State τ ι where
  readQueue := []
  readEvent := .new
  writeEvent := Event.new.raised
  transportClosing := false
  sent := []
  receiveGuarded := false
  sendGuarded := false
  closed := false
  loop := Loop.initial .outside

/-- Calls, callbacks of the transport, and the event loop. `resume` carries the exception that
`transport.sendto()` raises if it is called and raises. -/
inductive Action (τ ι : Type*)
  | receive (task : τ)
  | send (task : τ) (item : ι)
  | aclose
  | datagramReceived (data : Bytes) (addr : SockAddr)
  | connectionLost
  | pauseWriting
  | resumeWriting
  | transportCloses
  | cancel (task : τ)
  | resume (task : τ) (refusal : Option Error)
  deriving DecidableEq, Repr

/-- What `receive()` returns of a packet; the other calls return `None`. -/
abbrev Answer (ι ρ : Type*) := Outcome (Point ι) (Option ρ)

/-- `deque(maxlen=100)` -/
def maxlen : Nat := 100

variable {τ ι ρ : Type*}

/-- `read_event.set()`. -/
def setReadEvent (s : State τ ι) : State τ ι :=
  { s with readEvent := s.readEvent.raised, loop := s.readEvent.wakeWaiters s.loop }

/-- `write_event.set()`. -/
def setWriteEvent (s : State τ ι) : State τ ι :=
  { s with writeEvent := s.writeEvent.raised, loop := s.writeEvent.wakeWaiters s.loop }

def connectionLost (s : State τ ι) : State τ ι := setWriteEvent (setReadEvent s)

def datagramReceived (s : State τ ι) (data : Bytes) (addr : SockAddr) : State τ ι :=
  setReadEvent { s with
    readQueue := appendBounded maxlen s.readQueue (data, convertIpv6Sockaddr addr) }

def pauseWriting (s : State τ ι) : State τ ι := { s with writeEvent := s.writeEvent.clear }

def aclose (s : State τ ι) : State τ ι :=
  if s.transportClosing then s else { s with closed := true, transportClosing := true }

/-- The exception of a call that finds the transport closing. -/
def closingError (s : State τ ι) : Error :=
  if s.closed then .closedResourceError else .brokenResourceError

/-- `receive()` from `popleft()` to its end. -/
def popleft (kind : Kind ι ρ) (s : State τ ι) : State τ ι × Answer ι ρ :=
  match s.readQueue with
  | [] => ({ s with receiveGuarded := false }, .raised (closingError s))
  | packet :: rest =>
      ({ s with readQueue := rest, receiveGuarded := false },
        .returned (some (kind.unpack packet)))

/-- `send()` after its waits: the checks, and the datagram for the transport. -/
def transmit (kind : Kind ι ρ) (s : State τ ι) (item : ι) (refusal : Option Error) :
    State τ ι × Answer ι ρ :=
  let left := { s with sendGuarded := false }
  if s.closed then (left, .raised .closedResourceError)
  else if s.transportClosing then (left, .raised .brokenResourceError)
  else
    match refusal with
    | some e => (left, .raised e)
    | none => ({ left with sent := s.sent ++ [kind.sendto item] }, .returned none)

variable [DecidableEq τ]

/-- `receive()` up to its checkpoint. -/
def receive (s : State τ ι) (t : τ) : State τ ι × Answer ι ρ :=
  if s.receiveGuarded then (s, .raised (.busyResourceError "reading from"))
  else
    ({ s with receiveGuarded := true, loop := s.loop.moveTo t .receiveCheckpoint },
      .suspended .receiveCheckpoint)

/-- `receive()` from its checkpoint on. -/
def receivePacket (kind : Kind ι ρ) (s : State τ ι) (t : τ) : State τ ι × Answer ι ρ :=
  if s.readQueue = [] ∧ s.transportClosing = false then
    let waiter := s.loop.nextFuture
    ({ s with
        readEvent := s.readEvent.clear.join waiter
        loop := s.loop.createFuture.moveTo t (.receiveWait waiter) },
      .suspended (.receiveWait waiter))
  else popleft kind s

/-- `send()` up to its checkpoint. -/
def send (s : State τ ι) (t : τ) (item : ι) : State τ ι × Answer ι ρ :=
  if s.sendGuarded then (s, .raised (.busyResourceError "writing to"))
  else
    ({ s with sendGuarded := true, loop := s.loop.moveTo t (.sendCheckpoint item) },
      .suspended (.sendCheckpoint item))

/-- `send()` from its checkpoint on. -/
def sendPacket (kind : Kind ι ρ) (s : State τ ι) (t : τ) (item : ι) (refusal : Option Error) :
    State τ ι × Answer ι ρ :=
  if s.writeEvent.value then transmit kind s item refusal
  else
    let waiter := s.loop.nextFuture
    ({ s with
        writeEvent := s.writeEvent.join waiter
        loop := s.loop.createFuture.moveTo t (.sendWait item waiter) },
      .suspended (.sendWait item waiter))

/-- Task `t` runs again. The wait of an event takes its future out of the event. -/
def leaveWait (s : State τ ι) (t : τ) : State τ ι :=
  let woken := { s with loop := s.loop.resumeAt t .outside }
  match s.loop.point t with
  | .receiveWait waiter => { woken with readEvent := s.readEvent.leave waiter }
  | .sendWait _ waiter => { woken with writeEvent := s.writeEvent.leave waiter }
  | _ => woken

/-- The piece of a call that follows the wake-up of its task. -/
def resume (kind : Kind ι ρ) (s : State τ ι) (t : τ) (refusal : Option Error) :
    State τ ι × Answer ι ρ :=
  let thrown := s.loop.throws t
  let left := leaveWait s t
  match s.loop.point t with
  | .outside => (s, .returned none)
  | .receiveCheckpoint =>
      if thrown then ({ left with receiveGuarded := false }, .raised .cancelledError)
      else receivePacket kind left t
  | .receiveWait _ =>
      if thrown then ({ left with receiveGuarded := false }, .raised .cancelledError)
      else popleft kind left
  | .sendCheckpoint item =>
      if thrown then ({ left with sendGuarded := false }, .raised .cancelledError)
      else sendPacket kind left t item refusal
  | .sendWait item _ =>
      if thrown then ({ left with sendGuarded := false }, .raised .cancelledError)
      else transmit kind left item refusal

/-- One step. Calls are made by tasks outside of the socket, and a cancellation request reaches
a task that is suspended in one. -/
def step (kind : Kind ι ρ) (s : State τ ι) : Action τ ι → Option (State τ ι × Answer ι ρ)
  | .receive t => if (s.loop.point t).isOutside then some (receive s t) else none
  | .send t item => if (s.loop.point t).isOutside then some (send s t item) else none
  | .aclose => some (aclose s, .returned none)
  | .datagramReceived data addr => some (datagramReceived s data addr, .returned none)
  | .connectionLost =>
      if s.transportClosing then some (connectionLost s, .returned none) else none
  | .pauseWriting => some (pauseWriting s, .returned none)
  | .resumeWriting => some (setWriteEvent s, .returned none)
  | .transportCloses => some ({ s with transportClosing := true }, .returned none)
  | .cancel t =>
      if (s.loop.point t).isOutside then none
      else some ({ s with loop := s.loop.cancel t }, .suspended (s.loop.point t))
  | .resume t refusal => if s.loop.wakeUpQueued t then some (resume kind s t refusal) else none

def machine (τ : Type*) [DecidableEq τ] (kind : Kind ι ρ) :
    Machine (State τ ι) (Action τ ι) (Answer ι ρ) where
  step := step kind

end Anyio.UDPSocket
