import Anyio.Exceptions
import Anyio.Library.Codec
import Anyio.Library.Machine

/-!
# `TextSendStream` and `TextReceiveStream`

The two ends of a byte transport that carries text. The sender encodes each
item by itself; the receiver keeps one incremental decoder. The transport hands
its bytes over in order, and as many at a time as it likes.

## Implementation notes

The encoding is a parameter, with the laws that the encodings of `codecs` obey.
Both ends use the strict error handler. A `receive()` that gets a chunk which
completes no character goes on waiting, so the chunks may come one at a time.
-/

namespace Anyio.TextStream

open Library

variable {α σ : Type*}

/-- The bytes on their way, the decoder, and whether a `receive()` waits for a chunk. -/
structure State (σ : Type*) where
  inFlight : Bytes
  decoder : σ
  receiving : Bool
  deriving DecidableEq, Repr

def initial (codec : Codec α σ) : State σ where
  inFlight := []
  decoder := codec.start
  receiving := false

/-- `chunk` is the end of `transport_stream.receive()` with the next `count` bytes. -/
inductive Action (α : Type*)
  | send (item : List α)
  | receive
  | chunk (count : Nat)
  deriving DecidableEq, Repr

/-- The text that `receive()` returns; `send()` returns `None`. -/
abbrev Answer (α : Type*) := Outcome Unit (Option (List α))

variable (codec : Codec α σ)

def send (s : State σ) (item : List α) : State σ × Answer α :=
  match codec.write item with
  | none => (s, .raised (.other "UnicodeEncodeError"))
  | some encoded => ({ s with inFlight := s.inFlight ++ encoded }, .returned none)

/-- One round of the loop of `receive()`. -/
def received (s : State σ) (count : Nat) : State σ × Answer α :=
  let rest := s.inFlight.drop count
  match decode codec.feed s.decoder (s.inFlight.take count) with
  | none =>
      ({ s with inFlight := rest, receiving := false }, .raised (.other "UnicodeDecodeError"))
  | some ([], decoder) => ({ s with inFlight := rest, decoder := decoder }, .suspended ())
  | some (first :: decoded, decoder) =>
      ({ inFlight := rest, decoder := decoder, receiving := false },
        .returned (some (first :: decoded)))

def step (s : State σ) : Action α → Option (State σ × Answer α)
  | .send item => some (send codec s item)
  | .receive => if s.receiving then none else some ({ s with receiving := true }, .suspended ())
  | .chunk count => if s.receiving then some (received codec s count) else none

def machine : Machine (State σ) (Action α) (Answer α) where
  step := step codec

end Anyio.TextStream
