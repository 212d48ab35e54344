import Anyio.TLSStream.Pump
import Mathlib.Logic.Function.Basic

/-!
# All the calls of a TLS stream

A `TLSStream` from its handshake to its end: the calls of its methods, made by
any number of tasks and cut at their `await`s, share the SSL object and the two
memory BIOs. `handler_wrapper()` of `TLSListener.serve()` is one of the calls,
and with it `handle_handshake_error()`.

## Implementation notes

A call of `_call_sslobject_method()` goes on with the step of a single call. The
methods of the SSL object answer with bytes; of `do_handshake()`, `write()` and
`unwrap()` the answer is not used. The cancel scope of `aclose_forcefully()` is
left to the environment, which chooses how `aclose()` of the transport ends, and
so is that of `fail_after()`, which may turn a cancellation into a `TimeoutError`.
-/

namespace Anyio.TLSStream

open Library

/-- The calls; `serve` is `handler_wrapper()` for this connection. -/
inductive Request
  | wrap
  | serve
  | receive (maxBytes : Nat)
  | send (item : Bytes)
  | unwrap
  | aclose
  deriving DecidableEq, Repr

structure SslObject (ε : Type*) where
  doHandshake : Method ε Bytes
  read : Nat → Method ε Bytes
  write : Bytes → Method ε Bytes
  unwrap : Method ε Bytes

/-- The method that a call passes to `_call_sslobject_method()`. -/
def SslObject.method {ε : Type*} (ssl : SslObject ε) : Request → Method ε Bytes
  | .wrap | .serve => ssl.doHandshake
  | .receive maxBytes => ssl.read maxBytes
  | .send item => ssl.write item
  | .unwrap | .aclose => ssl.unwrap

/-- `baseException` tells which of the other exceptions are not an `Exception`. -/
structure Options where
  standardCompatible : Bool
  baseException : String → Bool

/-- Where a call stands: in `_call_sslobject_method()`, in `aclose()` of the transport, which
`thrown` has made it call forcefully, in the handler, or at its end. `dismissed` is an error of
the handshake that `handle_handshake_error()` does not raise again. -/
inductive Stage
  | calling (point : Point Bytes)
  | closing (thrown : Option Error)
  | handling
  | returned (value : Bytes)
  | raised (error : Error)
  | dismissed (error : Error)
  deriving DecidableEq, Repr

structure Session (ε τ : Type*) where
  engine : ε
  readBio : Bio
  writeBio : Bio
  begun : Bool
  wrapped : Bool
  calls : τ → Option (Request × Stage)

/-- What happens in a step: what the pump does, calls of `aclose()` of the transport and of the
handler, and messages of the logger. -/
inductive Note (τ : Type*)
  | pumped (event : Event)
  | closes (t : τ)
  | hands (t : τ)
  | logs (t : τ) (error : Error)
  deriving DecidableEq, Repr

/-- `expired` tells that the deadline of `fail_after()` is the cause of a cancellation. -/
inductive SessionAction (τ : Type*)
  | begins (t : τ) (request : Request)
  | answers (t : τ) (answer : Action) (expired : Bool)
  | closed (t : τ) (thrown : Option Error)
  | handled (t : τ) (thrown : Option Error)

def timeoutError : Error := .other "TimeoutError"

/-- `handle_handshake_error()` raises the exception again. -/
def Options.reraises (o : Options) : Error → Bool
  | .cancelledError => true
  | .other exception => o.baseException exception
  | _ => false

namespace Session

variable {ε τ : Type*} [DecidableEq τ]

abbrev Step (ε τ : Type*) := Session ε τ × List (Note τ)

def initial (engine : ε) : Session ε τ where
  engine := engine
  readBio := ⟨[], false⟩
  writeBio := ⟨[], false⟩
  begun := false
  wrapped := false
  calls := fun _ => none

def goTo (s : Session ε τ) (t : τ) (request : Request) (stage : Stage) : Session ε τ :=
  { s with calls := Function.update s.calls t (some (request, stage)) }

/-- `transport_stream.aclose()`, also by `aclose_forcefully()`. -/
def close (s : Session ε τ) (t : τ) (request : Request) (thrown : Option Error) : Step ε τ :=
  (s.goTo t request (.closing thrown), [.closes t])

/-- `unwrap()` after its call: both BIOs are ended, and the rest of the read BIO is read. -/
def endBios (s : Session ε τ) : Session ε τ :=
  { s with readBio := s.readBio.writeEof.drained, writeBio := s.writeBio.writeEof }

/-- What follows `_call_sslobject_method()`. -/
def settle (s : Session ε τ) (t : τ) (request : Request) (expired : Bool) :
    Point Bytes → Step ε τ
  | .returned value =>
      match request with
      | .wrap => ({ s with wrapped := true }.goTo t request (.returned []), [])
      | .serve => ({ s with wrapped := true }.goTo t request .handling, [.hands t])
      | .receive _ =>
          if value = [] then (s.goTo t request (.raised .endOfStream), [])
          else (s.goTo t request (.returned value), [])
      | .send _ => (s.goTo t request (.returned []), [])
      | .unwrap => (s.endBios.goTo t request (.returned s.readBio.data), [])
      | .aclose => s.endBios.close t request none
  | .raised e =>
      match request with
      | .serve =>
          s.close t request (some (if expired ∧ e = .cancelledError then timeoutError else e))
      | .aclose => s.close t request (some e)
      | _ => (s.goTo t request (.raised e), [])
  | point => (s.goTo t request (.calling point), [])

/-- The call as the single call sees it. -/
def atPoint (s : Session ε τ) (point : Point Bytes) : State ε Bytes where
  engine := s.engine
  readBio := s.readBio
  writeBio := s.writeBio
  point := point

/-- A piece of `_call_sslobject_method()`, and what follows it. -/
def advance (s : Session ε τ) (t : τ) (request : Request) (expired : Bool)
    (r : Piece ε Bytes) : Step ε τ :=
  let next := settle { s with engine := r.1.engine, readBio := r.1.readBio, writeBio := r.1.writeBio }
    t request expired r.1.point
  (next.1, r.2.map .pumped ++ next.2)

/-- The first call makes the handshake, and the stream is there for the others once it has. -/
def accepts (s : Session ε τ) : Request → Bool
  | .wrap | .serve => !s.begun
  | _ => s.wrapped

/-- The end of `aclose()` of the transport. -/
def afterClose (o : Options) (s : Session ε τ) (t : τ) (request : Request)
    (thrown : Option Error) : Option Error → Step ε τ
  | some e => (s.goTo t request (.raised e), [])
  | none =>
      match thrown with
      | none => (s.goTo t request (.returned []), [])
      | some e =>
          match request with
          | .serve =>
              (s.goTo t request (if o.reraises e then .raised e else .dismissed e),
                if e = .cancelledError then [] else [.logs t e])
          | _ => (s.goTo t request (.raised e), [])

variable (ssl : SslObject ε) (o : Options)

def step (s : Session ε τ) : SessionAction τ → Option (Step ε τ)
  | .begins t request =>
      if s.calls t = none ∧ s.accepts request = true then
        let s' : Session ε τ := { s with begun := true }
        if request = .aclose ∧ o.standardCompatible = false then some (s'.close t request none)
        else
          (TLSStream.step (ssl.method request) o.standardCompatible (s'.atPoint .start) .call).map
            (s'.advance t request false)
      else none
  | .answers t answer expired =>
      match s.calls t with
      | some (request, .calling point) =>
          (TLSStream.step (ssl.method request) o.standardCompatible (s.atPoint point) answer).map
            (s.advance t request expired)
      | _ => none
  | .closed t thrown =>
      match s.calls t with
      | some (request, .closing cause) => some (s.afterClose o t request cause thrown)
      | _ => none
  | .handled t thrown =>
      match s.calls t with
      | some (request, .handling) =>
          some (s.goTo t request (thrown.elim (.returned []) .raised), [])
      | _ => none

def machine : Machine (Session ε τ) (SessionAction τ) (List (Note τ)) where
  step := step ssl o

end Session

end Anyio.TLSStream
