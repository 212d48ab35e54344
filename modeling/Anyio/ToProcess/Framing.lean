import Anyio.BufferedByteReceiveStream.Model

/-!
# Commands to a worker process

`send_raw_command()` of the parent, `process_worker()` of the worker, and the
pipe from the worker to the parent. The parent reads through a
`BufferedByteReceiveStream`; the pipe hands out what the worker has written in
chunks of any size up to the number of bytes that the parent asks for.

## Implementation notes

The worker writes its header and its payload separately. A command counts until
the worker starts to answer it, and the bytes of the payload are `unwritten`
until their `write()`. A cancellation can reach the parent at each of its
awaits; whatever the `try` block raises, the worker is killed.
-/

namespace Anyio.ToProcess

open Library
open BufferedByteReceiveStream (Answer)

/-- The two answers of a worker. -/
inductive Status
  | returned
  | exception
  deriving DecidableEq, Repr

/-- `b"RETURN"` and `b"EXCEPTION"`. -/
def Status.bytes : Status → Bytes
  | .returned => ascii "RETURN"
  | .exception => ascii "EXCEPTION"

def space : UInt8 := 32

def newline : UInt8 := 10

/-- `b"%s %d" % (status, length)`, the header without its newline. -/
def headerLine (status : Bytes) (length : Nat) : Bytes :=
  status ++ space :: decimal length

/-- What the worker writes before the payload. -/
def header (status : Bytes) (length : Nat) : Bytes :=
  headerLine status length ++ [newline]

/-- What the `try` block of `send_raw_command()` raises. -/
inductive Failure
  | stream (error : Error)
  | unpacking (parts : Nat)
  | unexpectedResponse (response : Bytes)
  | notANumber (length : Bytes)
  deriving DecidableEq, Repr

/-- Where `send_raw_command()` stands. -/
inductive Point
  | outside
  | sending
  | header
  | payload (status : Bytes)
  deriving DecidableEq, Repr

structure State where
  point : Point
  buffered : BufferedByteReceiveStream.State
  killed : Bool
  pipe : Bytes
  commands : Nat
  unwritten : Option Bytes
  deriving DecidableEq, Repr

/-- A worker that is ready, with nothing in its pipes. -/
def initial : State where
  point := .outside
  buffered := BufferedByteReceiveStream.initial true
  killed := false
  pipe := []
  commands := 0
  unwritten := none

/-- `renew` is the new `BufferedByteReceiveStream` that the next user of the worker makes. -/
inductive Action
  | renew
  | command
  | sent
  | writeHeader (status : Status) (payload : Bytes)
  | writePayload
  | arrives (chunk : Bytes)
  | interrupt
  deriving DecidableEq, Repr

/-- How far a piece of `send_raw_command()` gets. -/
inductive Reply
  | none
  | recovered (status payload : Bytes)
  | failed (cause : Failure)
  deriving DecidableEq, Repr

/-- The `except` block. -/
def fail (s : State) (cause : Failure) : State × Reply :=
  ({ s with point := .outside, killed := true }, .failed cause)

/-- A round of `receive_exactly()`, and the end of the command. -/
def awaitPayload (s : State) (status : Bytes) :
    BufferedByteReceiveStream.State × Answer → State × Reply
  | (buffered, .suspended _) =>
      ({ s with buffered := buffered, point := .payload status }, .none)
  | (buffered, .returned payload) =>
      ({ s with buffered := buffered, point := .outside }, .recovered status (payload.getD []))
  | (buffered, .raised error) => fail { s with buffered := buffered } (.stream error)

/-- From the response line to the next await. -/
def afterHeader (s : State) (response : Bytes) : State × Reply :=
  match response.splitOn space with
  | [status, length] =>
      if status = Status.returned.bytes ∨ status = Status.exception.bytes then
        match parseInt length with
        | some nbytes =>
            awaitPayload s status (BufferedByteReceiveStream.receiveExactly s.buffered nbytes)
        | none => fail s (.notANumber length)
      else fail s (.unexpectedResponse response)
  | parts => fail s (.unpacking parts.length)

/-- A round of `receive_until()`. -/
def awaitHeader (s : State) : BufferedByteReceiveStream.State × Answer → State × Reply
  | (buffered, .suspended _) => ({ s with buffered := buffered, point := .header }, .none)
  | (buffered, .returned response) =>
      afterHeader { s with buffered := buffered } (response.getD [])
  | (buffered, .raised error) => fail { s with buffered := buffered } (.stream error)

/-- A chunk of the pipe arrives. -/
def arrive (s : State) (chunk : Bytes) : Option (State × Reply) :=
  let s' := { s with pipe := s.pipe.drop chunk.length }
  let answer := BufferedByteReceiveStream.arrive s.buffered chunk
  match s.point with
  | .header => some (awaitHeader s' answer)
  | .payload status => some (awaitPayload s' status answer)
  | _ => none

/-- Commands go to a worker that has not been killed, one at a time. -/
def step (s : State) : Action → Option (State × Reply)
  | .renew =>
      if s.point = .outside then
        some ({ s with buffered := BufferedByteReceiveStream.initial true }, .none)
      else none
  | .command =>
      if s.point = .outside ∧ s.killed = false then
        some ({ s with point := .sending, commands := s.commands + 1 }, .none)
      else none
  | .sent =>
      if s.point = .sending then
        some (awaitHeader s (BufferedByteReceiveStream.receiveUntil s.buffered [newline] 50 0))
      else none
  | .writeHeader status payload =>
      if s.killed = false ∧ 0 < s.commands ∧ s.unwritten = none then
        some ({ s with
          pipe := s.pipe ++ header status.bytes payload.length
          commands := s.commands - 1
          unwritten := some payload }, .none)
      else none
  | .writePayload =>
      match s.unwritten with
      | some payload =>
          if s.killed = false then
            some ({ s with pipe := s.pipe ++ payload, unwritten := none }, .none)
          else none
      | none => none
  | .arrives chunk =>
      if chunk ≠ [] ∧ chunk <+: s.pipe ∧
          (chunk.length : Int) ≤ BufferedByteReceiveStream.asked s.buffered then
        arrive s chunk
      else none
  | .interrupt => if s.point = .outside then none else some (fail s (.stream .cancelledError))

/-- The machine of a worker process and its user. -/
abbrev machine : Machine State Action Reply where
  step := step

end Anyio.ToProcess
