import Anyio.Exceptions
import Anyio.Library.Bytes
import Mathlib.Data.List.Dedup
import Mathlib.Data.List.Sort

/-!
# The sockets that `create_tcp_listener()` and `connect_unix()` create

A call creates sockets one after another and numbers them. What each operation
on a socket raises, if it does, is a choice of the environment; so are the
results of `connect()` and the ends of the waits between them.

## Implementation notes

The exceptions of an operation include `KeyboardInterrupt` and what else may be
raised in it. Between two operations of `create_tcp_listener()` nothing is
awaited: a cancellation reaches it in `getaddrinfo()`, and the `aclose()` of a
listener that nobody accepts from does not suspend. An address is the ASCII
text that `getaddrinfo()` gives for it.
-/

namespace Anyio.SocketCreation

open Library

/-- What is read of the platform: `sys.platform == "win32"` and two constants of `socket`. -/
structure Platform where
  win32 : Bool
  afInet6 : Nat
  sockStream : Nat

/-- One result of `getaddrinfo()`, ordered like the tuple that it is. -/
structure AddrInfo where
  family : Nat
  kind : Nat
  proto : Nat
  canonname : String
  host : Bytes
  port : Nat
  deriving DecidableEq, Ord

/-- The address that a socket is bound to. -/
inductive SockAddr
  | pair (host : Bytes) (port : Nat)
  | quad (host : Bytes) (port flowinfo : Nat) (scopeId : Int)
  deriving DecidableEq, Repr

inductive SocketOption
  | exclusiveAddrUse | reuseAddr | reusePort | v6Only
  deriving DecidableEq, Repr

/-- The operations that may raise; `construct` makes the listener of a socket. -/
inductive Call
  | socket (family : Nat)
  | setblocking
  | setsockopt (option : SocketOption)
  | bind (address : SockAddr)
  | listen (backlog : Int)
  | construct
  deriving DecidableEq, Repr

/-- What an operation on the socket with a number raises. The number of a socket whose
creation fails is the one that it would get. -/
abbrev Faults := Nat → Call → Option Error

/-- The number of sockets that the call has created, and those that are closed. -/
structure Sockets where
  created : Nat
  closed : List Nat
  deriving DecidableEq, Repr

def Sockets.none : Sockets := ⟨0, []⟩

/-- `socket.socket()`. The number of the new socket is the old `created`. -/
def Sockets.create (s : Sockets) : Sockets := { s with created := s.created + 1 }

def Sockets.close (s : Sockets) (raw : Nat) : Sockets := { s with closed := raw :: s.closed }

/-- A `TCPSocketListener` that nobody accepts from. -/
structure Listener where
  rawSocket : Nat
  closed : Bool
  deriving DecidableEq, Repr

/-- `TCPSocketListener.aclose()`. -/
def Listener.aclose (s : Sockets) (listener : Listener) : Sockets :=
  if listener.closed then s else s.close listener.rawSocket

def call (faults : Faults) (raw : Nat) (operation : Call) : Except Error Unit :=
  match faults raw operation with
  | some e => .error e
  | none => .ok ()

/-- A character of `repr()`, inside of the byte `quote`. -/
def escape (quote b : UInt8) : List Char :=
  let char := Char.ofNat b.toNat
  if b = quote ∨ b = 92 then [Char.ofNat 92, char]
  else if b = 9 then "\\t".toList
  else if b = 10 then "\\n".toList
  else if b = 13 then "\\r".toList
  else if b < 32 ∨ b = 127 then
    "\\x".toList ++ [Nat.digitChar (b.toNat / 16), Nat.digitChar (b.toNat % 16)]
  else [char]

/-- `repr()` of an ASCII text. -/
def repr (text : Bytes) : List Char :=
  let quote : UInt8 := if 39 ∈ text ∧ 34 ∉ text then 34 else 39
  Char.ofNat quote.toNat :: text.flatMap (escape quote) ++ [Char.ofNat quote.toNat]

/-- The address of an IPv6 socket, its scope taken from the text of the host. The message of the
`ValueError` has the first 200 characters of the `repr()` of the scope. -/
def withScopeId (host : Bytes) (port : Nat) : Except Error SockAddr :=
  match host.span (· ≠ 37) with
  | (_, []) => .ok (.pair host port)
  | (addr, _ :: scopeId) =>
      match parseInt scopeId with
      | some scope => .ok (.quad addr port 0 scope)
      | none =>
          .error (.valueError ("invalid literal for int() with base 10: " ++
            String.ofList ((repr scopeId).take 200)))

/-- The loop body of `create_tcp_listener()` after the socket was created. -/
def configure (p : Platform) (faults : Faults) (reusePort : Bool) (backlog : Int) (raw : Nat)
    (info : AddrInfo) : Except Error Unit := do
  call faults raw .setblocking
  call faults raw (.setsockopt (if p.win32 then .exclusiveAddrUse else .reuseAddr))
  if reusePort then call faults raw (.setsockopt .reusePort)
  let address ← if info.family = p.afInet6 then do
      call faults raw (.setsockopt .v6Only)
      withScopeId info.host info.port
    else pure (.pair info.host info.port)
  call faults raw (.bind address)
  call faults raw (.listen backlog)
  call faults raw .construct

/-- Results of another kind are passed over, except on Windows, which was asked for one kind. -/
def served (p : Platform) (info : AddrInfo) : Bool := p.win32 || info.kind == p.sockStream

/-- `sorted(set(gai_res))`. -/
def sortedSet (infos : List AddrInfo) : List AddrInfo :=
  infos.dedup.insertionSort fun a b => (compare a b).isLE = true

/-- The loop of `create_tcp_listener()`: the exception that ends it early, the listeners so
far, and the sockets. -/
def openListeners (p : Platform) (faults : Faults) (reusePort : Bool) (backlog : Int) :
    List AddrInfo → List Listener → Sockets → Option Error × List Listener × Sockets
  | [], listeners, s => (none, listeners, s)
  | info :: rest, listeners, s =>
      if served p info then
        match faults s.created (.socket info.family) with
        | some e => (some e, listeners, s)
        | none =>
            match configure p faults reusePort backlog s.created info with
            | .error e => (some e, listeners, s.create)
            | .ok () =>
                openListeners p faults reusePort backlog rest
                  (listeners ++ [{ rawSocket := s.created, closed := false }]) s.create
      else openListeners p faults reusePort backlog rest listeners s

/-- `create_tcp_listener()` with what `getaddrinfo()` gives; the listeners of the result. -/
def createTcpListener (p : Platform) (faults : Faults) (gaiRes : Except Error (List AddrInfo))
    (reusePort : Bool) (backlog : Int) : Except Error (List Listener) × Sockets :=
  match gaiRes with
  | .error e => (.error e, .none)
  | .ok infos =>
      match openListeners p faults reusePort (min backlog 65536) (sortedSet infos) [] .none with
      | (none, listeners, s) => (.ok listeners, s)
      | (some e, listeners, s) => (.error e, listeners.foldl Listener.aclose s)

/-- `create_unix_listener()` from the socket that was set up on. -/
def createUnixListener (faults : Faults) (raw : Nat) (backlog : Int) (s : Sockets) :
    Except Error Listener × Sockets :=
  match call faults raw (.listen (min backlog 65536)), call faults raw .construct with
  | .ok (), .ok () => (.ok { rawSocket := raw, closed := false }, s)
  | .error e, _ => (.error e, s.close raw)
  | .ok (), .error e => (.error e, s.close raw)

/-- One round of the loop of `connect_unix()`: `connect()` succeeds, it would block and the
wait for the writer ends, with an exception or without one, or it raises something else. -/
inductive Attempt
  | connects
  | blocks (thrown : Option Error)
  | fails (error : Error)
  deriving DecidableEq, Repr

/-- The loop of `connect_unix()`; it is suspended while its last wait goes on. -/
def connectLoop (raw : Nat) (s : Sockets) : List Attempt → Outcome Unit Nat × Sockets
  | [] => (.suspended (), s)
  | .connects :: _ => (.returned raw, s)
  | .blocks none :: rest => connectLoop raw s rest
  -- raised inside of an `except` clause, which the clause after it does not cover
  | .blocks (some e) :: _ => (.raised e, s)
  | .fails e :: _ => (.raised e, s.close raw)

/-- The asyncio `connect_unix()`; `checkpoint` is what its first await raises. -/
def connectUnix (faults : Faults) (afUnix : Nat) (checkpoint : Option Error)
    (attempts : List Attempt) : Outcome Unit Nat × Sockets :=
  match checkpoint, faults 0 (.socket afUnix), faults 0 .setblocking with
  | some e, _, _ => (.raised e, .none)
  | none, some e, _ => (.raised e, .none)
  | none, none, some e => (.raised e, Sockets.none.create)
  | none, none, none => connectLoop 0 Sockets.none.create attempts

end Anyio.SocketCreation
