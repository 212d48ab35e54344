import Mathlib.Data.List.Basic

/-!
# Mappings that override one another

Partial functions under `override`, where the second mapping wins. They form a
monoid, and a list of mappings gives a key the value of the last one that has it.
-/

namespace Anyio.Library

/-- A mapping from keys to values. -/
abbrev Mapping (κ ν : Type*) := κ → Option ν

namespace Mapping

variable {κ ν μ : Type*}

def empty : Mapping κ ν := fun _ => none

/-- `{**f, **g}` -/
def override (f g : Mapping κ ν) : Mapping κ ν := fun k => (g k).or (f k)

/-- The mappings one over the other, the last one on top. -/
def overrideAll (l : List (Mapping κ ν)) : Mapping κ ν := l.foldl override empty

@[simp] theorem empty_override (f : Mapping κ ν) : empty.override f = f := by
  funext k
  simp [override, empty]

@[simp] theorem override_empty (f : Mapping κ ν) : f.override empty = f := rfl

theorem override_assoc (f g h : Mapping κ ν) :
    (f.override g).override h = f.override (g.override h) := by
  funext k
  simp [override, Option.or_assoc]

@[simp] theorem overrideAll_nil : overrideAll ([] : List (Mapping κ ν)) = empty := rfl

theorem foldl_override (f : Mapping κ ν) (l : List (Mapping κ ν)) :
    l.foldl override f = f.override (overrideAll l) := by
  induction l generalizing f with
  | nil => rfl
  | cons g rest ih =>
      rw [overrideAll, List.foldl_cons, List.foldl_cons, ih, ih, override_assoc, empty_override]

theorem overrideAll_cons (f : Mapping κ ν) (l : List (Mapping κ ν)) :
    overrideAll (f :: l) = f.override (overrideAll l) := by
  rw [overrideAll, List.foldl_cons, foldl_override, empty_override]

theorem overrideAll_append (l m : List (Mapping κ ν)) :
    overrideAll (l ++ m) = (overrideAll l).override (overrideAll m) := by
  rw [overrideAll, List.foldl_append, foldl_override]
  rfl

@[simp] theorem overrideAll_singleton (f : Mapping κ ν) : overrideAll [f] = f := by
  rw [overrideAll_cons, overrideAll_nil, override_empty]

/-- Groups of mappings can be flattened. -/
theorem overrideAll_flatMap (groups : List μ) (members : μ → List (Mapping κ ν)) :
    overrideAll (groups.flatMap members) =
      overrideAll (groups.map fun group => overrideAll (members group)) := by
  induction groups with
  | nil => rfl
  | cons group rest ih =>
      rw [List.flatMap_cons, overrideAll_append, ih, List.map_cons, overrideAll_cons]

theorem overrideAll_apply (l : List (Mapping κ ν)) (k : κ) :
    overrideAll l k = l.reverse.findSome? fun f => f k := by
  induction l with
  | nil => rfl
  | cons f rest ih =>
      rw [overrideAll_cons, override, ih, List.reverse_cons, List.findSome?_append]
      simp

/-- A list lacks a key that all of its mappings lack. -/
theorem overrideAll_eq_none {l : List (Mapping κ ν)} {k : κ} :
    overrideAll l k = none ↔ ∀ f ∈ l, f k = none := by
  rw [overrideAll_apply, List.findSome?_eq_none_iff]
  simp

/-- The last mapping that has a key gives its value. -/
theorem overrideAll_eq_some {l : List (Mapping κ ν)} {k : κ} {v : ν} :
    overrideAll l k = some v ↔
      ∃ before f after, l = before ++ f :: after ∧ f k = some v ∧ ∀ g ∈ after, g k = none := by
  rw [overrideAll_apply, List.findSome?_eq_some_iff]
  constructor
  · rintro ⟨after, f, before, hl, hf, hnone⟩
    refine ⟨before.reverse, f, after.reverse, ?_, hf, by simpa using hnone⟩
    rw [← List.reverse_reverse l, hl]
    simp
  · rintro ⟨before, f, after, rfl, hf, hnone⟩
    exact ⟨after.reverse, f, before.reverse, by simp, hf, by simpa using hnone⟩

end Mapping

end Anyio.Library
