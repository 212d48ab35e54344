import Mathlib.Logic.Basic
import Mathlib.Tactic.Common

/-!
# Futures of `concurrent.futures`

The states of a future and the methods that read or change them. Each method
holds the lock of the future, so it is one step.
-/

namespace Anyio.Concurrent

/-- A future that finishes with a result or an exception of type `α`. -/
inductive Future (α : Type*)
  | pending
  | running
  | cancelled
  | cancelledAndNotified
  | finished (result : α)
  deriving DecidableEq, Repr

namespace Future

variable {α : Type*}

/-- `cancelled()`. -/
def isCancelled : Future α → Bool
  | .cancelled => true
  | .cancelledAndNotified => true
  | _ => false

/-- The states for which `concurrent.futures.wait()` returns. -/
def isNotified : Future α → Bool
  | .cancelledAndNotified => true
  | .finished _ => true
  | _ => false

/-- `cancel()`, up to the callbacks. -/
def cancel : Future α → Future α
  | .pending => .cancelled
  | f => f

/-- `set_running_or_notify_cancel()`, or nothing where it raises `RuntimeError`. -/
def setRunningOrNotifyCancel : Future α → Option (Future α)
  | .cancelled => some .cancelledAndNotified
  | .pending => some .running
  | _ => none

/-- `set_result()` and `set_exception()`, or nothing where they raise `InvalidStateError`. -/
def complete (result : α) : Future α → Option (Future α)
  | .pending => some (.finished result)
  | .running => some (.finished result)
  | _ => none

/-- The callbacks of a future have run or never will: a new one runs at once. -/
def runsCallbacks : Future α → Bool
  | .pending => false
  | .running => false
  | _ => true

@[simp] theorem cancel_isNotified (f : Future α) : f.cancel.isNotified = f.isNotified := by
  cases f <;> rfl

/-- A cancellation cannot be taken back by another one. -/
theorem isCancelled_cancel {f : Future α} (h : f.isCancelled = true) :
    f.cancel.isCancelled = true := by
  cases f <;> first | rfl | cases h

end Future

end Anyio.Concurrent
