import Anyio.Library.Machine
import Mathlib.Logic.Function.Basic

/-!
# Run variables

The values of all `RunVar` objects, kept in one dictionary for each event loop
under the names of the variables, and the tokens that `set()` returns.

## Implementation notes

An event loop that has no dictionary yet has an empty one. A token is used with
the variable and in the loop that the caller chooses. The name of a variable is
all that its storage knows of it.
-/

namespace Anyio.RunVar

open Library

/-- The `RunVar` objects: the name and the default of each. -/
structure Variables (ν α : Type*) where
  name : ν → String
  default : ν → Option α

/-- A `RunvarToken`; the value is missing if the variable had none. -/
structure Token (ν α : Type*) where
  var : ν
  value : Option α
  redeemed : Bool
  deriving DecidableEq, Repr

/-- `_run_vars` and every token that was returned. -/
structure State (κ ν α : Type*) where
  runVars : κ → String → Option α
  tokens : List (Token ν α)

def initial (κ ν α : Type*) : State κ ν α where
  runVars := fun _ _ => none
  tokens := []

/-- The calls, with the running event loop. `get` may be given a default of its own. -/
inductive Action (κ ν α : Type*)
  | get (loop : κ) (var : ν) (default : Option α)
  | set (loop : κ) (var : ν) (value : α)
  | reset (loop : κ) (var : ν) (token : Nat)
  deriving DecidableEq, Repr

inductive Answer (α : Type*)
  | value (value : α)
  | token (token : Nat)
  | done
  | lookupError (message : String)
  | valueError (message : String)
  deriving DecidableEq, Repr

variable {κ ν α : Type*} (vars : Variables ν α)

/-- The value of a variable in a loop, if it has one. -/
def current (s : State κ ν α) (l : κ) (v : ν) : Option α := s.runVars l (vars.name v)

def get (s : State κ ν α) (l : κ) (v : ν) (default : Option α) : Answer α :=
  match current vars s l v, default, vars.default v with
  | some x, _, _ => .value x
  | none, some x, _ => .value x
  | none, none, some x => .value x
  | none, none, none =>
      .lookupError ("Run variable \"" ++ vars.name v ++ "\" has no value and no default set")

variable [DecidableEq κ]

/-- Write or delete the entry of a variable in the dictionary of a loop. -/
def store (s : State κ ν α) (l : κ) (v : ν) (value : Option α) : State κ ν α :=
  { s with
    runVars := Function.update s.runVars l (Function.update (s.runVars l) (vars.name v) value) }

def set (s : State κ ν α) (l : κ) (v : ν) (x : α) : State κ ν α × Answer α :=
  let token : Token ν α := { var := v, value := current vars s l v, redeemed := false }
  ({ store vars s l v (some x) with tokens := s.tokens ++ [token] }, .token s.tokens.length)

variable [DecidableEq ν]

def reset (s : State κ ν α) (l : κ) (v : ν) (id : Nat) (token : Token ν α) :
    State κ ν α × Answer α :=
  if token.var ≠ v then (s, .valueError "This token does not belong to this RunVar")
  else if token.redeemed then (s, .valueError "This token has already been used")
  else
    ({ store vars s l v token.value with
        tokens := s.tokens.set id { token with redeemed := true } }, .done)

/-- One step. A token is one that `set()` has returned. -/
def step (s : State κ ν α) : Action κ ν α → Option (State κ ν α × Answer α)
  | .get l v default => some (s, get vars s l v default)
  | .set l v x => some (set vars s l v x)
  | .reset l v id => s.tokens[id]?.map (reset vars s l v id)

def machine : Machine (State κ ν α) (Action κ ν α) (Answer α) where
  step := step vars

end Anyio.RunVar
