import Anyio.Asyncio.Loop
import Anyio.Exceptions
import Anyio.Library.Machine

/-!
# TCP listeners on asyncio

`TCPSocketListener.accept()` and `aclose()`, cut at their `await`s, with
`loop.sock_accept()` and the queue of connections that the operating system
keeps for the socket.

## Implementation notes

The connections are numbered as they come; those from `accepted` on are still in
the queue. The event loop is a selector event loop: `select()` queues the callback
of the reader, which is `_sock_accept()` and does not ask whether its future is
done. It is queued once at a time, and only for a pending future: what `select()`
queues after the future is done comes behind the done callback of `sock_accept()`
or the `except` clause of `accept()`, which remove the reader and cancel it. Both
run with the wake-up of the task, and the callback that would block again leaves
a reader for the same future. A cancellation is one that a cancel scope delivers,
which passes over a task whose future is done, and so is that of `_accept_scope`.
`connect_accepted_socket()` closes the connection if it raises; whether it does,
and whether `accept()` of the socket fails, comes with the action.
-/

namespace Anyio.TCPSocketListener

open Asyncio Library

abbrev ConnectionId := Nat

/-- The awaits of `accept()`, and the `sleep(0)` of `aclose()`. -/
inductive Point
  | outside
  | checkpoint
  | accepting (fut : FutureId)
  | connecting (connection : ConnectionId)
  | closing
  deriving DecidableEq, Repr

instance : Coroutine Point where
  waits
    | .outside => .nothing
    | .checkpoint => .step
    | .accepting fut => .future fut
    | .connecting _ => .step
    | .closing => .step

/-- A listener, its reader in the loop with the future that it is for, whether the callback of the
reader is queued, the results of the futures of `sock_accept()`, where `none` is an `OSError`, and
how many connections have come and have been taken. `_accept_scope` is that of a task. -/
structure State (τ : Type*) where
  closed : Bool
  fileOpen : Bool
  acceptGuarded : Bool
  acceptScope : Option τ
  reader : Option FutureId
  readyQueued : Bool
  result : FutureId → Option ConnectionId
  connections : Nat
  accepted : Nat
  loop : Loop τ Point

def initial (τ : Type*) : State τ where
  closed := false
  fileOpen := true
  acceptGuarded := false
  acceptScope := none
  reader := none
  readyQueued := false
  result := fun _ => none
  connections := 0
  accepted := 0
  loop := Loop.initial .outside

/-- Calls, a new connection, `select()` that finds the socket readable, the callback of the reader,
and the steps of the loop. `fails` is an `OSError` of the call that the step makes on the socket or
on the connection. -/
inductive Action (τ : Type*)
  | accept (task : τ)
  | aclose (task : τ)
  | connects
  | select
  | ready (fails : Bool)
  | cancel (task : τ)
  | resume (task : τ) (fails : Bool)
  deriving DecidableEq, Repr

/-- `accept()` returns the stream of a connection, `aclose()` returns `None`. -/
abbrev Answer := Outcome Point (Option ConnectionId)

def socketError : Error := .osError "accept"

variable {τ : Type*} [DecidableEq τ]

/-- A cancel scope cancels the task unless its future is done. -/
def deliver (l : Loop τ Point) (t : τ) : Loop τ Point :=
  match l.waits t with
  | .future f => if l.future f = .pending then l.cancel t else l
  | _ => l.cancel t

/-- `accept()` up to its checkpoint. -/
def accept (s : State τ) (t : τ) : State τ × Answer :=
  if s.closed then (s, .raised .closedResourceError)
  else if s.acceptGuarded then (s, .raised (.busyResourceError "accepting connections from"))
  else
    ({ s with acceptGuarded := true, loop := s.loop.moveTo t .checkpoint },
      .suspended .checkpoint)

/-- `accept()` behind its guard, with the connection that it has taken. -/
def connect (s : State τ) (t : τ) (connection : ConnectionId) : State τ × Answer :=
  ({ s with acceptGuarded := false, loop := s.loop.moveTo t (.connecting connection) },
    .suspended (.connecting connection))

/-- `accept()` from its checkpoint on. -/
def sockAccept (s : State τ) (t : τ) (fails : Bool) : State τ × Answer :=
  if s.fileOpen = false ∨ fails = true then
    ({ s with acceptGuarded := false }, .raised socketError)
  else if s.accepted < s.connections then
    connect { s with accepted := s.accepted + 1 } t s.accepted
  else
    let fut := s.loop.nextFuture
    ({ s with
        acceptScope := some t
        reader := some fut
        loop := s.loop.createFuture.moveTo t (.accepting fut) },
      .suspended (.accepting fut))

/-- The callback of the reader, for the future `fut`. A future that is done refuses the result with
an `InvalidStateError`, and the connection that was taken for it is lost. -/
def ready (s : State τ) (fut : FutureId) (fails : Bool) : State τ × Answer :=
  let run := { s with readyQueued := false }
  if s.fileOpen = false ∨ fails = true then
    match s.loop.setResult fut with
    | some l =>
        ({ run with result := Function.update s.result fut none, loop := l }, .returned none)
    | none => (run, .raised .invalidStateError)
  else if s.accepted < s.connections then
    match s.loop.setResult fut with
    | some l =>
        ({ run with
            result := Function.update s.result fut (some s.accepted)
            accepted := s.accepted + 1
            loop := l }, .returned none)
    | none => ({ run with accepted := s.accepted + 1 }, .raised .invalidStateError)
  else (run, .returned none)

def aclose (s : State τ) (t : τ) : State τ × Answer :=
  if s.closed then (s, .returned none)
  else
    match s.acceptScope with
    | some u =>
        -- `remove_reader()` cancels the callback that is queued
        ({ s with
            closed := true
            reader := none
            readyQueued := false
            loop := (deliver s.loop u).moveTo t .closing },
          .suspended .closing)
    | none => ({ s with closed := true, fileOpen := false }, .returned none)

/-- The piece of a call that follows the wake-up of its task. -/
def resume (s : State τ) (t : τ) (fails : Bool) : State τ × Answer :=
  let thrown := s.loop.throws t
  let woken := { s with loop := s.loop.resumeAt t .outside }
  match s.loop.point t with
  | .outside => (s, .returned none)
  | .checkpoint =>
      if thrown then ({ woken with acceptGuarded := false }, .raised .cancelledError)
      else sockAccept woken t fails
  | .accepting fut =>
      let left := { woken with
        acceptScope := none, acceptGuarded := false, reader := none, readyQueued := false }
      if thrown then
        (left, .raised (if s.closed then .closedResourceError else .cancelledError))
      else
        match s.result fut with
        | some connection => connect left t connection
        | none => (left, .raised socketError)
  | .connecting connection =>
      if thrown then (woken, .raised .cancelledError)
      else if fails then (woken, .raised socketError)
      else (woken, .returned (some connection))
  | .closing =>
      if thrown then (woken, .raised .cancelledError)
      else ({ woken with fileOpen := false }, .returned none)

/-- One step. Calls are made by tasks outside of the listener, and a cancellation reaches a task
that is suspended in one. -/
def step (s : State τ) : Action τ → Option (State τ × Answer)
  | .accept t => if s.loop.point t = .outside then some (accept s t) else none
  | .aclose t => if s.loop.point t = .outside then some (aclose s t) else none
  | .connects =>
      if s.fileOpen then some ({ s with connections := s.connections + 1 }, .returned none)
      else none
  | .select =>
      if s.reader.any fun fut => s.loop.future fut = .pending then
        some ({ s with readyQueued := true }, .returned none)
      else none
  | .ready fails =>
      if s.readyQueued then s.reader.map fun fut => ready s fut fails else none
  | .cancel t =>
      if s.loop.point t = .outside then none
      else some ({ s with loop := deliver s.loop t }, .suspended (s.loop.point t))
  | .resume t fails => if s.loop.wakeUpQueued t then some (resume s t fails) else none

def machine (τ : Type*) [DecidableEq τ] : Machine (State τ) (Action τ) Answer where
  step := step

end Anyio.TCPSocketListener
