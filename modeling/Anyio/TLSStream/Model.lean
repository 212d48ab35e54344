import Anyio.Exceptions
import Anyio.Library.Bytes
import Anyio.Library.Machine

/-!
# `TLSStream._call_sslobject_method()`

One call of a method of the SSL object, with the loop around it that moves bytes
between the two memory BIOs and the transport stream. The loop is cut at its
`await`s. Every step answers with the events that happen in it.

## Implementation notes

The SSL object is a parameter: a call of the method consumes some of the read BIO,
appends to the write BIO and comes to a verdict. The transport answers each `send()`
and each `receive()` as it likes; a cancellation is one of the exceptions that they
may raise. `SSLError` is an `OSError`, also when the transport raises it.
-/

namespace Anyio.TLSStream

open Library

/-- An `ssl.MemoryBIO`: its content, and whether `write_eof()` was called. -/
structure Bio where
  data : Bytes
  eof : Bool
  deriving DecidableEq, Repr

/-- `MemoryBIO.write()`; `none` is the `SSLError` of a write after `write_eof()`. -/
def Bio.write (bio : Bio) (data : Bytes) : Option Bio :=
  if bio.eof then none else some { bio with data := bio.data ++ data }

def Bio.writeEof (bio : Bio) : Bio := { bio with eof := true }

/-- What `MemoryBIO.read()` leaves behind; it returns the whole content. -/
def Bio.drained (bio : Bio) : Bio := { bio with data := [] }

/-- How the method of the SSL object ends; `sslError` tells whether it is an `SSLEOFError`. -/
inductive Verdict (ρ : Type*)
  | result (value : ρ)
  | wantRead
  | wantWrite
  | syscallError
  | sslError (isEof : Bool) (strerror : Option String)
  | raises (error : Error)
  deriving Repr

/-- One call of the method: the next state of the SSL object, how much of the read BIO it has
consumed, what it has appended to the write BIO, and how it ends. -/
structure Call (ε ρ : Type*) where
  engine : ε
  consumed : Nat
  appended : Bytes
  verdict : Verdict ρ

/-- The method of the SSL object, which sees the content and the end of the read BIO. -/
abbrev Method (ε ρ : Type*) := ε → Bytes → Bool → Call ε ρ

/-- The awaits of the loop and the ends of the call. -/
inductive Point (ρ : Type*)
  | start
  | flushBeforeReceive
  | receiving
  | flushOnWantWrite
  | flushBeforeReturn (value : ρ)
  | returned (value : ρ)
  | raised (error : Error)
  deriving DecidableEq, Repr

/-- The SSL object, the two BIOs and the place in the call. -/
structure State (ε ρ : Type*) where
  engine : ε
  readBio : Bio
  writeBio : Bio
  point : Point ρ

/-- What happens in a step: bytes appended by the SSL object, passed to `send()`, returned by
`receive()`, and written to the read BIO. -/
inductive Event
  | appended (data : Bytes)
  | sent (data : Bytes)
  | received (data : Bytes)
  | written (data : Bytes)
  deriving DecidableEq, Repr

/-- The start of the call, and the answers of the transport. -/
inductive Action
  | call
  | sent (thrown : Option Error)
  | received (answer : Except Error Bytes)

/-- The `SSLError` of a write after `write_eof()`. -/
def writeAfterEof : Error := .osError "cannot write() after write_eof()"

/-- `isinstance(exc, ssl.SSLEOFError)`, or the text that some versions have instead. -/
def unexpectedEof (isEof : Bool) (strerror : Option String) : Bool :=
  isEof || strerror.any fun text =>
    decide ("UNEXPECTED_EOF_WHILE_READING".toList <:+: text.toList)

variable {ε ρ : Type*}

abbrev Piece (ε ρ : Type*) := State ε ρ × List Event

/-- The call ends with an exception. -/
def State.raise (s : State ε ρ) (e : Error) : Piece ε ρ := ({ s with point := .raised e }, [])

/-- `write_eof()` of both BIOs, and then an exception. -/
def State.shut (s : State ε ρ) (e : Error) : Piece ε ρ :=
  ({ s with readBio := s.readBio.writeEof, writeBio := s.writeBio.writeEof, point := .raised e },
    [])

/-- `transport_stream.send(self._write_bio.read())`. -/
def State.flush (s : State ε ρ) (point : Point ρ) : Piece ε ρ :=
  ({ s with writeBio := s.writeBio.drained, point := point }, [.sent s.writeBio.data])

section Pump
variable (method : Method ε ρ) (standardCompatible : Bool)

/-- The loop body from the end of `func(*args)` to its next await or its end. -/
def afterCall (s : State ε ρ) : Verdict ρ → Piece ε ρ
  | .wantRead =>
      if s.writeBio.data ≠ [] then s.flush .flushBeforeReceive
      else ({ s with point := .receiving }, [])
  | .wantWrite => s.flush .flushOnWantWrite
  | .syscallError => s.shut .brokenResourceError
  | .sslError isEof strerror =>
      if unexpectedEof isEof strerror then
        if standardCompatible then s.shut .brokenResourceError else s.shut .endOfStream
      else s.shut (.osError (strerror.getD ""))
  | .raises e => s.raise e
  | .result value =>
      if s.writeBio.data ≠ [] then s.flush (.flushBeforeReturn value)
      else ({ s with point := .returned value }, [])

/-- The loop from its head to its next await or its end. -/
def callFunc (s : State ε ρ) : Piece ε ρ :=
  let c := method s.engine s.readBio.data s.readBio.eof
  let called : State ε ρ :=
    { s with
      engine := c.engine
      readBio := { s.readBio with data := s.readBio.data.drop c.consumed }
      writeBio := { s.writeBio with data := s.writeBio.data ++ c.appended } }
  let rest := afterCall standardCompatible called c.verdict
  (rest.1, .appended c.appended :: rest.2)

/-- The two `except` clauses around the flush and the `receive()` of a method that wants to
read. -/
def waitRaised (s : State ε ρ) : Error → Piece ε ρ
  | .endOfStream => callFunc method standardCompatible { s with readBio := s.readBio.writeEof }
  | .osError _ => s.shut .brokenResourceError
  | e => s.raise e

/-- One step: the start of the call, or what follows the answer of the transport. -/
def step (s : State ε ρ) : Action → Option (Piece ε ρ)
  | .call =>
      match s.point with
      | .start => some (callFunc method standardCompatible s)
      | _ => none
  | .sent thrown =>
      match s.point, thrown with
      | .flushBeforeReceive, none => some ({ s with point := .receiving }, [])
      | .flushBeforeReceive, some e => some (waitRaised method standardCompatible s e)
      | .flushOnWantWrite, none => some (callFunc method standardCompatible s)
      | .flushOnWantWrite, some e => some (s.raise e)
      | .flushBeforeReturn value, none => some ({ s with point := .returned value }, [])
      | .flushBeforeReturn _, some e => some (s.raise e)
      | _, _ => none
  | .received answer =>
      match s.point, answer with
      | .receiving, .error e => some (waitRaised method standardCompatible s e)
      | .receiving, .ok data =>
          match s.readBio.write data with
          | none => some ((s.raise writeAfterEof).1, [.received data])
          | some readBio =>
              let rest := callFunc method standardCompatible { s with readBio := readBio }
              some (rest.1, .received data :: .written data :: rest.2)
      | _, _ => none

def machine : Machine (State ε ρ) Action (List Event) where
  step := step method standardCompatible

end Pump

end Anyio.TLSStream
