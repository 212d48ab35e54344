import Anyio.Exceptions
import Anyio.Library.Bytes
import Anyio.Library.Machine
import Anyio.Library.Slices

/-!
# Buffered byte receive streams

A `BufferedByteReceiveStream` around a `ByteReceiveStream` or an object stream
of bytes, with its calls cut at their `await` on the wrapped stream. What the
wrapped stream answers is chosen by the environment; a `ByteReceiveStream`
returns no more than it was asked for.

## Implementation notes

The loops of `receive_exactly()` and `receive_until()` suspend once in every
round, so a round is one function, and it runs again when the wrapped stream
has answered. Calls are made one at a time.
-/

namespace Anyio.BufferedByteReceiveStream

open Library

/-- Where a call stands, with the locals that it still reads. -/
inductive Point
  | outside
  | receiving (maxBytes : Int)
  | receivingExactly (nbytes : Int)
  | receivingUntil (delimiter : Bytes) (maxBytes : Int) (offset : Nat)
  | closing
  deriving DecidableEq, Repr

/-- The call waits for the next chunk. -/
def Point.inReceive : Point → Bool
  | .outside => false
  | .closing => false
  | _ => true

structure State where
  isByteStream : Bool
  buffer : Bytes
  closed : Bool
  point : Point
  deriving DecidableEq, Repr

def initial (isByteStream : Bool) : State where
  isByteStream := isByteStream
  buffer := []
  closed := false
  point := .outside

inductive Action
  | receive (maxBytes : Int)
  | receiveExactly (nbytes : Int)
  | receiveUntil (delimiter : Bytes) (maxBytes : Int)
  | aclose
  | arrives (chunk : Bytes)
  | closes
  | fails (error : Error)
  deriving DecidableEq, Repr

/-- The bytes that a call returns; `aclose()` returns `None`. -/
abbrev Answer := Outcome Point (Option Bytes)

def suspend (s : State) (p : Point) : State × Answer :=
  ({ s with point := p }, .suspended p)

def raise (s : State) (e : Error) : State × Answer :=
  ({ s with point := .outside }, .raised e)

/-- Return `self._buffer[:n]` after `del self._buffer[:n]`. -/
def takeBuffer (s : State) (n : Int) : State × Answer :=
  ({ s with buffer := sliceFrom s.buffer n, point := .outside },
    .returned (some (sliceTo s.buffer n)))

def receive (s : State) (maxBytes : Int) : State × Answer :=
  if s.closed then raise s .closedResourceError
  else if s.buffer ≠ [] then takeBuffer s maxBytes
  else suspend s (.receiving maxBytes)

/-- The end of `receive()`: the surplus bytes of an object stream go to the buffer. -/
def received (s : State) (maxBytes : Int) (chunk : Bytes) : State × Answer :=
  if s.isByteStream then ({ s with point := .outside }, .returned (some chunk))
  else if maxBytes < chunk.length then
    ({ s with buffer := s.buffer ++ sliceFrom chunk maxBytes, point := .outside },
      .returned (some (sliceTo chunk maxBytes)))
  else ({ s with point := .outside }, .returned (some chunk))

/-- The loop of `receive_exactly()` up to its await. -/
def receiveExactly (s : State) (nbytes : Int) : State × Answer :=
  let remaining := nbytes - s.buffer.length
  if remaining ≤ 0 then takeBuffer s nbytes
  else suspend s (.receivingExactly nbytes)

/-- The loop of `receive_until()` up to its await. -/
def receiveUntil (s : State) (delimiter : Bytes) (maxBytes : Int) (offset : Nat) :
    State × Answer :=
  match find delimiter s.buffer offset with
  | some index =>
      ({ s with buffer := s.buffer.drop (index + delimiter.length), point := .outside },
        .returned (some (s.buffer.take index)))
  | none =>
      if maxBytes ≤ s.buffer.length then raise s (.delimiterNotFound maxBytes)
      else suspend s (.receivingUntil delimiter maxBytes offset)

/-- The number of bytes that the wrapped stream is asked for; 65536 is its default. -/
def asked (s : State) : Int :=
  match s.point with
  | .receiving maxBytes => maxBytes
  | .receivingExactly nbytes => nbytes - s.buffer.length
  | _ => 65536

/-- What follows the arrival of a chunk. In `receive_until()` the truncated subtraction is the
`max(..., 0)` of the source. -/
def arrive (s : State) (chunk : Bytes) : State × Answer :=
  match s.point with
  | .receiving maxBytes => received s maxBytes chunk
  | .receivingExactly nbytes => receiveExactly { s with buffer := s.buffer ++ chunk } nbytes
  | .receivingUntil delimiter maxBytes _ =>
      let offset := s.buffer.length + 1 - delimiter.length
      receiveUntil { s with buffer := s.buffer ++ chunk } delimiter maxBytes offset
  | _ => (s, .returned none)

/-- The exception that leaves the call when the wrapped stream raises `error`. -/
def translate : Point → Error → Error
  | .receivingExactly _, .endOfStream => .incompleteRead
  | .receivingUntil _ _ _, .endOfStream => .incompleteRead
  | _, error => error

def step (s : State) : Action → Option (State × Answer)
  | .receive maxBytes => if s.point = .outside then some (receive s maxBytes) else none
  | .receiveExactly nbytes => if s.point = .outside then some (receiveExactly s nbytes) else none
  | .receiveUntil delimiter maxBytes =>
      if s.point = .outside then some (receiveUntil s delimiter maxBytes 0) else none
  | .aclose => if s.point = .outside then some (suspend s .closing) else none
  | .arrives chunk =>
      if s.point.inReceive ∧ (s.isByteStream → (chunk.length : Int) ≤ asked s) then
        some (arrive s chunk)
      else none
  | .closes =>
      if s.point = .closing then
        some ({ s with closed := true, point := .outside }, .returned none)
      else none
  | .fails error =>
      if s.point = .outside then none else some (raise s (translate s.point error))

/-- The machine of a buffered byte receive stream. -/
abbrev machine : Machine State Action Answer where
  step := step

end Anyio.BufferedByteReceiveStream
