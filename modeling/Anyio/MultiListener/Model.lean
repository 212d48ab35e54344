import Anyio.Library.Machine
import Anyio.Library.Overriding

/-!
# Combined listeners

The `MultiListener` objects of a program with the lists that they own.
`__post_init__()` moves the listeners of every `MultiListener` that it is given
into the new one and leaves that one empty. `aclose()` goes through the list
while it may be emptied in this way.

## Implementation notes

A listener of another kind is only known by its identity. The list of a
`MultiListener` holds none of its own kind after `__post_init__()`, so it is a
list of these. The `for` loop of `aclose()` keeps an index into the list.
-/

namespace Anyio.MultiListener

open Library

abbrev MultiId := Nat

/-- What is passed to the constructor. -/
inductive Argument (α : Type*)
  | listener (listener : α)
  | multi (m : MultiId)
  deriving DecidableEq, Repr

/-- The lists of all `MultiListener` objects, and for each task the `MultiListener` that it closes,
with the index of its loop. -/
structure State (α τ : Type*) where
  multis : List (List α)
  closing : τ → Option (MultiId × Nat)

def initial (α τ : Type*) : State α τ where
  multis := []
  closing := fun _ => none

/-- `closes` is the next round of the loop of `aclose()`, and `raises` is the exception of the
`aclose()` that is awaited there. -/
inductive Action (α τ : Type*)
  | construct (listeners : List (Argument α))
  | serve (m : MultiId)
  | aclose (task : τ) (m : MultiId)
  | closes (task : τ)
  | raises (task : τ)
  deriving DecidableEq, Repr

variable {α κ ν τ : Type*}

def members (multis : List (List α)) (m : MultiId) : List α := multis.getD m []

/-- The loop of `__post_init__()`: the listeners of the new object, and what is left of the
others. -/
def postInit (multis : List (List α)) : List (Argument α) → List α × List (List α)
  | [] => ([], multis)
  | .listener l :: rest =>
      let r := postInit multis rest
      (l :: r.1, r.2)
  | .multi m :: rest =>
      let r := postInit (multis.set m []) rest
      (members multis m ++ r.1, r.2)

/-- `extra_attributes` of a `MultiListener`, from those of its listeners. -/
def extraAttributes (attributes : α → Mapping κ ν) (listeners : List α) : Mapping κ ν :=
  listeners.foldl (fun found listener => found.override (attributes listener)) Mapping.empty

/-- The arguments exist. -/
def known (multis : List (List α)) : Argument α → Bool
  | .listener _ => true
  | .multi m => m < multis.length

variable [DecidableEq τ]

/-- One step, which answers with the listeners on which it calls `serve()` or `aclose()`. -/
def step (s : State α τ) : Action α τ → Option (State α τ × List α)
  | .construct listeners =>
      if listeners.all (known s.multis) then
        let r := postInit s.multis listeners
        some ({ s with multis := r.2 ++ [r.1] }, [])
      else none
  | .serve m => if m < s.multis.length then some (s, members s.multis m) else none
  | .aclose t m =>
      if s.closing t = none ∧ m < s.multis.length then
        some ({ s with closing := Function.update s.closing t (some (m, 0)) }, [])
      else none
  | .closes t =>
      match s.closing t with
      | none => none
      | some (m, i) =>
          match (members s.multis m)[i]? with
          | some listener =>
              some ({ s with closing := Function.update s.closing t (some (m, i + 1)) }, [listener])
          | none => some ({ s with closing := Function.update s.closing t none }, [])
  | .raises t =>
      match s.closing t with
      | none => none
      | some _ => some ({ s with closing := Function.update s.closing t none }, [])

def machine (α τ : Type*) [DecidableEq τ] : Machine (State α τ) (Action α τ) (List α) where
  step := step

end Anyio.MultiListener
