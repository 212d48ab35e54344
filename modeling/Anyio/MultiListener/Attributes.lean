import Anyio.MultiListener.Ownership

/-!
# Typed extra attributes

The streams and listeners that provide extra attributes of what they wrap, and
`TypedAttributeProvider.extra()`. A provider is a tree, and its attributes are
those of its layers, each of which overrides the ones below it.

## Implementation notes

A value stands for the callable that returns it. The listeners of this library
have attributes of their own only, and so has everything that wraps nothing.
-/

namespace Anyio.MultiListener

open Library

variable {α κ ν : Type*}

/-- `wrapper` is a `TextSendStream`, a `TextReceiveStream` or a `BufferedByteReceiveStream`. -/
inductive Provider (κ ν : Type*)
  | own (attributes : Mapping κ ν)
  | wrapper (transport : Provider κ ν)
  | textStream (transport : Provider κ ν)
  | tlsStream (transport : Provider κ ν) (attributes : Mapping κ ν)
  | stapled (sendStream receiveStream : Provider κ ν)
  | multiListener (listeners : List (Mapping κ ν))

namespace Provider

def extraAttributes : Provider κ ν → Mapping κ ν
  | .own attributes => attributes
  | .wrapper transport => transport.extraAttributes
  | .textStream transport => transport.extraAttributes.override transport.extraAttributes
  | .tlsStream transport attributes => transport.extraAttributes.override attributes
  | .stapled sendStream receiveStream =>
      sendStream.extraAttributes.override receiveStream.extraAttributes
  | .multiListener listeners => MultiListener.extraAttributes id listeners

/-- The text of a `TypedAttributeLookupError`. -/
def attributeNotFound : String := "Attribute not found"

/-- `extra()`, where no default is `undefined`. -/
def extra (p : Provider κ ν) (attr : κ) (default : Option ν) : Except String ν :=
  match p.extraAttributes attr with
  | some value => .ok value
  | none =>
      match default with
      | some value => .ok value
      | none => .error attributeNotFound

/-- What provides the attributes, the strongest last. -/
def layers : Provider κ ν → List (Mapping κ ν)
  | .own attributes => [attributes]
  | .wrapper transport => transport.layers
  | .textStream transport => transport.layers ++ transport.layers
  | .tlsStream transport attributes => transport.layers ++ [attributes]
  | .stapled sendStream receiveStream => sendStream.layers ++ receiveStream.layers
  | .multiListener listeners => listeners

end Provider

theorem extraAttributes_eq (attributes : α → Mapping κ ν) (listeners : List α) :
    extraAttributes attributes listeners = Mapping.overrideAll (listeners.map attributes) := by
  rw [extraAttributes, Mapping.overrideAll, List.foldl_map]

theorem Provider.extraAttributes_layers (p : Provider κ ν) :
    p.extraAttributes = Mapping.overrideAll p.layers := by
  induction p with
  | own attributes => exact (Mapping.overrideAll_singleton attributes).symm
  | wrapper transport ih => exact ih
  | textStream transport ih => rw [extraAttributes, layers, Mapping.overrideAll_append, ih]
  | tlsStream transport attributes ih =>
      rw [extraAttributes, layers, Mapping.overrideAll_append, ih, Mapping.overrideAll_singleton]
  | stapled sendStream receiveStream ihsend ihreceive =>
      rw [extraAttributes, layers, Mapping.overrideAll_append, ihsend, ihreceive]
  | multiListener listeners =>
      rw [extraAttributes, layers, extraAttributes_eq, List.map_id]

/-- `extra()` gives the attribute of the last layer that has it, or else the default, and raises
`TypedAttributeLookupError` if no layer has the attribute and there is no default. -/
theorem Provider.extra_answers (p : Provider κ ν) (attr : κ) (default : Option ν) :
    (∀ value, p.extra attr default = .ok value ↔
      (∃ before f after, p.layers = before ++ f :: after ∧ f attr = some value ∧
        ∀ g ∈ after, g attr = none) ∨
      (∀ f ∈ p.layers, f attr = none) ∧ default = some value) ∧
    (p.extra attr default = .error attributeNotFound ↔
      (∀ f ∈ p.layers, f attr = none) ∧ default = none) := by
  unfold extra
  rw [extraAttributes_layers]
  cases hfound : Mapping.overrideAll p.layers attr with
  | some found =>
      have hsome : ¬ ∀ f ∈ p.layers, f attr = none := by
        rw [← Mapping.overrideAll_eq_none, hfound]
        exact Option.some_ne_none found
      refine ⟨fun value => ?_, iff_of_false (by simp) fun h => hsome h.1⟩
      rw [← Mapping.overrideAll_eq_some, hfound]
      simp [hsome]
  | none =>
      have hnone : (∀ f ∈ p.layers, f attr = none) = True :=
        eq_true (Mapping.overrideAll_eq_none.mp hfound)
      have hnot : ∀ value, ¬ ∃ before f after, p.layers = before ++ f :: after ∧
          f attr = some value ∧ ∀ g ∈ after, g attr = none := by
        intro value h
        rw [← Mapping.overrideAll_eq_some, hfound] at h
        cases h
      constructor
      · intro value
        cases default with
        | none => simp [hnot]
        | some d => simp [hnot, hnone]
      · cases default with
        | none => simp [hnone]
        | some d => simp

/-- The `MultiListener` objects among the arguments. -/
def nested (args : List (Argument α)) : List MultiId :=
  args.filterMap fun
    | .listener _ => none
    | .multi m => some m

/-- The listeners that an argument serves and closes. -/
def contents (multis : List (List α)) : Argument α → List α
  | .listener l => [l]
  | .multi m => members multis m

/-- The extra attributes of an argument. -/
def argumentAttributes (attributes : α → Mapping κ ν) (multis : List (List α)) :
    Argument α → Mapping κ ν
  | .listener l => attributes l
  | .multi m => extraAttributes attributes (members multis m)

theorem postInit_listeners (multis : List (List α)) (args : List (Argument α))
    (hdistinct : (nested args).Nodup) :
    (postInit multis args).1 = args.flatMap (contents multis) := by
  induction args generalizing multis with
  | nil => rfl
  | cons arg rest ih =>
      cases arg with
      | listener l =>
          change l :: (postInit multis rest).1 = l :: rest.flatMap (contents multis)
          rw [ih multis hdistinct]
      | multi m =>
          obtain ⟨hfirst, hrest⟩ : m ∉ nested rest ∧ (nested rest).Nodup :=
            List.nodup_cons.mp hdistinct
          have hsame : ∀ arg ∈ rest, contents (multis.set m []) arg = contents multis arg := by
            intro arg harg
            cases arg with
            | listener l => rfl
            | multi n =>
                have hne : m ≠ n := by
                  rintro rfl
                  exact hfirst (List.mem_filterMap.mpr ⟨.multi m, harg, rfl⟩)
                simp [contents, members, List.getD_eq_getElem?_getD, List.getElem?_set_ne hne]
          change members multis m ++ (postInit (multis.set m []) rest).1 =
            members multis m ++ rest.flatMap (contents multis)
          rw [ih (multis.set m []) hrest, List.flatMap_congr hsame]

/-- A `MultiListener` that is made of others serves and closes the listeners of its arguments in
their order, and gives their extra attributes as if they were not flattened, whatever objects
exist, if none of them is passed twice. -/
theorem construct_flattens (attributes : α → Mapping κ ν) (multis : List (List α))
    (args : List (Argument α)) (hdistinct : (nested args).Nodup) :
    (postInit multis args).1 = args.flatMap (contents multis) ∧
      extraAttributes attributes (postInit multis args).1 =
        Mapping.overrideAll (args.map (argumentAttributes attributes multis)) := by
  have hlisteners := postInit_listeners multis args hdistinct
  refine ⟨hlisteners, ?_⟩
  rw [extraAttributes_eq, hlisteners, List.map_flatMap, Mapping.overrideAll_flatMap]
  congr 1
  apply List.map_congr_left
  intro arg _
  cases arg with
  | listener l => exact Mapping.overrideAll_singleton (attributes l)
  | multi m => exact (extraAttributes_eq attributes (members multis m)).symm

/-- Two objects with an attribute of the same name are combined. -/
theorem construct_flattens_two :
    extraAttributes (fun l : Nat => fun k : Nat => if k = 0 then some l else none)
        (postInit [[1, 2], [3]] [.multi 1, .multi 0]).1 0 = some 2 ∧
      (postInit [[1, 2], [3]] [.multi 1, .listener 4, .multi 0]).1 = [3, 4, 1, 2] := by
  obtain ⟨-, hattributes⟩ := construct_flattens
    (fun l : Nat => fun k : Nat => if k = 0 then some l else none) [[1, 2], [3]]
    [.multi 1, .multi 0] (by decide)
  refine ⟨?_, (construct_flattens (fun _ : Nat => (Mapping.empty : Mapping Nat Nat))
    [[1, 2], [3]] [.multi 1, .listener 4, .multi 0] (by decide)).1⟩
  rw [hattributes]
  decide

end Anyio.MultiListener
