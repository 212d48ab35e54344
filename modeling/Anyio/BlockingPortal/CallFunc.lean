import Anyio.Concurrent.Future
import Anyio.Library.Machine

/-!
# Calls through a blocking portal

`BlockingPortal._call_func()` in the event loop thread, and the calls of
`future.cancel()` from any thread between its steps. What the called function
does is chosen by the environment.

## Implementation notes

The test of `future.cancelled()` and the call that follows it are two steps.
`scope.cancel()` is run by the portal some time after the callback has asked for
it. A `CancelledError` leaves the scope or is swallowed by it; it can be
swallowed only when the scope was cancelled. Code in the event loop thread
cannot run between two steps of `_call_func()` without an await in between,
except inside of the called function.
-/

namespace Anyio.BlockingPortal

open Library Concurrent

/-- An exception that leaves the called function, or the scope around it. -/
inductive Thrown (ε : Type*)
  | cancelledError
  | exception (error : ε)
  | baseException (error : ε)
  deriving DecidableEq, Repr

/-- An exception that leaves `_call_func()`. -/
inductive Raised (ε : Type*)
  | invalidStateError
  | runtimeError
  | unboundLocalError
  | baseException (error : ε)
  deriving DecidableEq, Repr

/-- Where `_call_func()` stands. The variable `retval` is unbound when the scope swallowed a
cancellation. -/
inductive Point (ρ ε : Type*)
  | created
  | calling
  | entered
  | addingCallback
  | awaiting
  | checkingResult (retval : Option ρ)
  | settingResult (retval : Option ρ)
  | checkingException (exc : Thrown ε)
  | settingException (exc : Thrown ε)
  | cancelling
  | notifying
  | ended (raised : Option (Raised ε))
  deriving DecidableEq, Repr

structure State (ρ ε : Type*) where
  point : Point ρ ε
  future : Future (Except (Thrown ε) ρ)
  hasCallback : Bool
  portalRunning : Bool
  cancelRequested : Bool
  scopeCancelled : Bool

/-- A task that `start_task_soon()` has spawned. -/
def initial (ρ ε : Type*) : State ρ ε where
  point := .created
  future := .pending
  hasCallback := false
  portalRunning := true
  cancelRequested := false
  scopeCancelled := false

inductive Action (ρ ε : Type*)
  | start
  | returnsAwaitable
  | returns (value : ρ)
  | raises (exc : Thrown ε)
  | swallowed
  | advance
  | cancel (loopThread : Bool)
  | cancelScope
  | stop
  deriving DecidableEq, Repr

variable {ρ ε : Type*}

/-- The called function is running, or is suspended. -/
def Point.inFunction : Point ρ ε → Bool
  | .calling => true
  | .awaiting => true
  | _ => false

/-- Code in the event loop thread outside of `_call_func()` can run. -/
def Point.yields : Point ρ ε → Bool
  | .created => true
  | .calling => true
  | .awaiting => true
  | .ended _ => true
  | _ => false

def Point.isEnded : Point ρ ε → Bool
  | .ended _ => true
  | _ => false

/-- The handler that catches an exception. -/
def handler : Thrown ε → Point ρ ε
  | .cancelledError => .cancelling
  | exc => .checkingException exc

/-- The end of the `except BaseException` block. -/
def leave : Thrown ε → Point ρ ε
  | .baseException error => .ended (some (.baseException error))
  | _ => .ended none

/-- `future.set_result()` or `future.set_exception()`, before the end `p` of the branch. -/
def complete (s : State ρ ε) (result : Except (Thrown ε) ρ) (p : Point ρ ε) : State ρ ε :=
  match s.future.complete result with
  | some future => { s with future := future, point := p }
  | none => { s with point := .ended (some .invalidStateError) }

/-- The next step of `_call_func()` itself. -/
def advance (s : State ρ ε) : Option (State ρ ε) :=
  match s.point with
  | .entered =>
      if s.future.isCancelled then some { s with point := .awaiting, scopeCancelled := true }
      else some { s with point := .addingCallback }
  | .addingCallback =>
      -- a callback that runs at once runs in the event loop thread, where it does nothing
      if s.future.runsCallbacks then some { s with point := .awaiting }
      else some { s with point := .awaiting, hasCallback := true }
  | .checkingResult retval =>
      if s.future.isCancelled then some { s with point := .ended none }
      else some { s with point := .settingResult retval }
  | .settingResult none => some { s with point := .ended (some .unboundLocalError) }
  | .settingResult (some retval) => some (complete s (.ok retval) (.ended none))
  | .checkingException exc =>
      if s.future.isCancelled then some { s with point := leave exc }
      else some { s with point := .settingException exc }
  | .settingException exc => some (complete s (.error exc) (leave exc))
  | .cancelling => some { s with future := s.future.cancel, point := .notifying }
  | .notifying =>
      match s.future.setRunningOrNotifyCancel with
      | some future => some { s with future := future, point := .ended none }
      | none => some { s with point := .ended (some .runtimeError) }
  | _ => none

/-- `future.cancel()` by a user of the future. The callback asks the portal to cancel the scope,
which is `None` once `_call_func()` has ended. -/
def cancel (s : State ρ ε) (loopThread : Bool) : State ρ ε :=
  let runs := s.hasCallback && !s.future.runsCallbacks && s.future.cancel.isCancelled
  let asks := runs && s.portalRunning && !loopThread && !s.point.isEnded
  { s with future := s.future.cancel, cancelRequested := s.cancelRequested || asks }

def step (s : State ρ ε) : Action ρ ε → Option (State ρ ε × Unit)
  | .start =>
      match s.point with
      | .created => some ({ s with point := .calling }, ())
      | _ => none
  | .returnsAwaitable =>
      match s.point with
      | .calling => some ({ s with point := .entered }, ())
      | _ => none
  | .returns value =>
      if s.point.inFunction then some ({ s with point := .checkingResult (some value) }, ())
      else none
  | .raises exc =>
      if s.point.inFunction then some ({ s with point := handler exc }, ()) else none
  | .swallowed =>
      match s.point with
      | .awaiting =>
          if s.scopeCancelled then some ({ s with point := .checkingResult none }, ()) else none
      | _ => none
  | .advance => (advance s).map fun s' => (s', ())
  | .cancel loopThread =>
      if loopThread → s.point.yields then some (cancel s loopThread, ()) else none
  | .cancelScope =>
      if s.cancelRequested then
        some ({ s with cancelRequested := false, scopeCancelled := true }, ())
      else none
  | .stop => some ({ s with portalRunning := false }, ())

/-- The machine of one call. -/
abbrev machine (ρ ε : Type*) : Machine (State ρ ε) (Action ρ ε) Unit where
  step := step

end Anyio.BlockingPortal
