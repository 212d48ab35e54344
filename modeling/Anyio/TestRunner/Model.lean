import Anyio.Library.Machine
import Mathlib.Logic.Function.Basic
import Mathlib.Tactic.Common

/-!
# The asyncio `TestRunner`

The runner of the pytest plugin on asyncio: `run_test()`, `run_fixture()` and
the two halves of `run_asyncgen_fixture()`, which hand their coroutines to the
one task that runs `_run_tests_and_fixtures()`, and `_exceptions`, where the
exceptions of callbacks are kept until `_raise_async_exceptions()`.

## Implementation notes

A call of `run_until_complete()` lasts from the step that makes it to the step
in which it returns; the event loop runs only in between. The memory object
stream has room for one item, which is why the receiver is modelled where it
stands: an item goes into its hands if it waits, and into the buffer if not. A
`KeyboardInterrupt` leaves `run_until_complete()` at once and not through the
future; what the caller sees is the same. What a callback raises that is no
`Exception` goes to the default handler. The calls of the exception handler are
those for callbacks, while the loop runs; those from `__del__()` of a task or of
a future, which come at any time, also between two calls, are left out.
-/

namespace Anyio.TestRunner

open Library

abbrev RequestId := Nat

/-- The exceptions that end a coroutine or a call, as far as they are told apart. -/
inductive Raised (ε : Type*)
  | exception (error : ε)
  | stopAsyncIteration
  | closedResourceError
  | wouldBlock
  | outcomeException (error : ε)
  | cancelledError
  | baseException (error : ε)
  deriving DecidableEq, Repr

/-- `isinstance(exc, Exception)`. -/
def Raised.isException {ε : Type*} : Raised ε → Bool
  | .exception _ | .stopAsyncIteration | .closedResourceError | .wouldBlock => true
  | .outcomeException _ | .cancelledError | .baseException _ => false

/-- The exceptions after which the runner task goes on. -/
def Raised.isSurvived {ε : Type*} : Raised ε → Bool
  | .outcomeException _ => true
  | e => e.isException

/-- A future, with what it was completed with. -/
inductive FutureState (ρ ε : Type*)
  | pending
  | finished (result : Except (Raised ε) ρ)
  | cancelled
  deriving DecidableEq

/-- Where `_run_tests_and_fixtures()` stands. It looks into the stream before it waits. -/
inductive TaskPoint
  | absent
  | looking
  | waiting
  | handed (request : RequestId)
  | running (request : RequestId)
  | ended
  deriving DecidableEq, Repr

/-- The calls of the runner. `setup` and `teardown` are those of an async generator fixture. -/
inductive Operation
  | test
  | fixture
  | setup
  | teardown
  deriving DecidableEq, Repr

/-- The `run_until_complete()` that is under way. `closing` is the one of `asyncgen.aclose()`. -/
inductive Main
  | idle
  | awaiting (op : Operation) (request : RequestId) (cancelled : Bool)
  | closing
  deriving DecidableEq, Repr

structure State (ρ ε : Type*) where
  exceptions : List (Raised ε)
  task : TaskPoint
  buffer : List RequestId
  future : RequestId → FutureState ρ ε
  nextRequest : RequestId
  main : Main

def initial (ρ ε : Type*) : State ρ ε where
  exceptions := []
  task := .absent
  buffer := []
  future := fun _ => .pending
  nextRequest := 0
  main := .idle

/-- `callbackRaises` is the exception handler of the loop, called for a callback. `cancelTask` is a
cancellation that reaches the runner task while it receives. -/
inductive Action (ρ ε : Type*)
  | call (op : Operation)
  | look
  | wake
  | ends (result : Except (Raised ε) ρ)
  | cancelTask
  | cancelMain
  | returns
  | acloseEnds (exc : Option (Raised ε))
  | callbackRaises (error : ε)
  deriving DecidableEq

/-- What a step means for the caller. An exception out of `_exceptions` is `reraised`, and
`didNotStop` is the `RuntimeError` of a generator that yields twice. -/
inductive Reply (ρ ε : Type*)
  | none
  | returned (value : Option ρ)
  | raised (exc : Raised ε)
  | reraised (exc : Raised ε)
  | raisedGroup (exceptions : List (Raised ε))
  | didNotStop
  deriving DecidableEq

variable {ρ ε : Type*}

/-- `_raise_async_exceptions()`, and the end of the call. -/
def raiseAsyncExceptions (s : State ρ ε) (value : Option ρ) : State ρ ε × Reply ρ ε :=
  match s.exceptions with
  | [] => (s, .returned value)
  | [e] => ({ s with exceptions := [] }, .reraised e)
  | es => ({ s with exceptions := [] }, .raisedGroup es)

/-- What a call does with what `_call_in_runner_task()` returned or raised. -/
def finish (s : State ρ ε) (op : Operation) (answer : Except (Raised ε) ρ) :
    State ρ ε × Reply ρ ε :=
  let s : State ρ ε := { s with main := .idle }
  match op, answer with
  | .test, .ok _ => raiseAsyncExceptions s none
  | .test, .error e =>
      if e.isException then
        raiseAsyncExceptions { s with exceptions := s.exceptions ++ [e] } none
      else (s, .raised e)
  | .teardown, .ok _ => ({ s with main := .closing }, .none)
  | .teardown, .error .stopAsyncIteration => raiseAsyncExceptions s none
  | _, .ok value => raiseAsyncExceptions s (some value)
  | _, .error e => (s, .raised e)

/-- `send_nowait()` of the next request. -/
def sendNowait (s : State ρ ε) : Except (Raised ε) (State ρ ε) :=
  match s.task with
  | .ended => .error .closedResourceError
  | .waiting => .ok { s with task := .handed s.nextRequest, nextRequest := s.nextRequest + 1 }
  | _ =>
      if s.buffer.length < 1 then
        .ok { s with
          buffer := s.buffer ++ [s.nextRequest]
          nextRequest := s.nextRequest + 1 }
      else .error .wouldBlock

/-- The first call creates the runner task. -/
def createTask (s : State ρ ε) : State ρ ε :=
  if s.task = .absent then { s with task := .looking } else s

/-- `_call_in_runner_task()` up to `await future`. -/
def call (s : State ρ ε) (op : Operation) : State ρ ε × Reply ρ ε :=
  match sendNowait (createTask s) with
  | .ok s' => ({ s' with main := .awaiting op s.nextRequest false }, .none)
  | .error e => finish (createTask s) op (.error e)

/-- What `await future` returns or raises in the call that is under way, once it does. -/
def answer (s : State ρ ε) : Option (Operation × Except (Raised ε) ρ) :=
  match s.main with
  | .awaiting op r cancelled =>
      match s.future r with
      | .pending => none
      | .cancelled => some (op, .error .cancelledError)
      | .finished result => some (op, if cancelled then .error .cancelledError else result)
  | _ => none

/-- `set_result()`, `set_exception()` or `cancel()`, unless the future was cancelled. -/
def complete (s : State ρ ε) (r : RequestId) (result : Except (Raised ε) ρ) : State ρ ε :=
  match s.future r, result with
  | .cancelled, _ => s
  | _, .error .cancelledError => { s with future := Function.update s.future r .cancelled }
  | _, _ => { s with future := Function.update s.future r (.finished result) }

/-- The runner task receives again, or it is over. -/
def goesOn : Except (Raised ε) ρ → TaskPoint
  | .ok _ => .looking
  | .error e => if e.isSurvived then .looking else .ended

def step (s : State ρ ε) : Action ρ ε → Option (State ρ ε × Reply ρ ε)
  | .call op => if s.main = .idle then some (call s op) else none
  | .look =>
      if s.main ≠ .idle ∧ s.task = .looking then
        match s.buffer with
        | [] => some ({ s with task := .waiting }, .none)
        | r :: rest => some ({ s with task := .running r, buffer := rest }, .none)
      else none
  | .wake =>
      match s.task with
      | .handed r => if s.main ≠ .idle then some ({ s with task := .running r }, .none) else none
      | _ => none
  | .ends result =>
      match s.task with
      | .running r =>
          if s.main ≠ .idle then
            some ({ complete s r result with task := goesOn result }, .none)
          else none
      | _ => none
  | .cancelTask =>
      match s.task with
      | .looking | .waiting | .handed _ =>
          if s.main ≠ .idle then some ({ s with task := .ended }, .none) else none
      | _ => none
  | .cancelMain =>
      match s.main with
      | .awaiting op r _ =>
          match s.future r with
          | .pending =>
              some ({ s with future := Function.update s.future r .cancelled }, .none)
          | _ => some ({ s with main := .awaiting op r true }, .none)
      | _ => none
  | .returns => (answer s).map fun p => finish s p.1 p.2
  | .acloseEnds exc =>
      if s.main = .closing then
        match exc with
        | none => some ({ s with main := .idle }, .didNotStop)
        | some e => some ({ s with main := .idle }, .raised e)
      else none
  | .callbackRaises error =>
      if s.main ≠ .idle then
        some ({ s with exceptions := s.exceptions ++ [.exception error] }, .none)
      else none

abbrev machine (ρ ε : Type*) : Machine (State ρ ε) (Action ρ ε) (Reply ρ ε) where
  step := step

end Anyio.TestRunner
