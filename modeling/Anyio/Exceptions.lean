import Mathlib.Data.String.Defs

/-!
# The exceptions that the modelled calls raise

Exceptions with a fixed text carry it, so that two refusals with different
messages stay different. `asyncio.CancelledError` is the only one that is
thrown into a suspended call from outside. `other` is an exception that only
code outside of the model raises.
-/

namespace Anyio

inductive Error
  | cancelledError
  | runtimeError (message : String)
  | valueError (message : String)
  | typeError (message : String)
  | overflowError (message : String)
  | osError (message : String)
  | keyError
  | assertionError
  | attributeError
  | invalidStateError
  | wouldBlock
  | endOfStream
  | closedResourceError
  | brokenResourceError
  | busyResourceError (action : String)
  | incompleteRead
  | delimiterNotFound (maxBytes : Int)
  | other (exception : String)
  deriving DecidableEq, Repr

/-- How one uninterrupted piece of a call ends: the call returns or raises, or
its task is suspended at a point inside it. -/
inductive Outcome (κ ρ : Type*)
  | returned (value : ρ)
  | raised (error : Error)
  | suspended (point : κ)
  deriving DecidableEq, Repr

end Anyio
