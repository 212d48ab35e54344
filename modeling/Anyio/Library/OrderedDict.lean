import Mathlib.Data.List.Nodup

/-!
# Dictionaries that remember insertion order

An association list with distinct keys. Assigning to a key that is present
keeps its place, as in Python's `OrderedDict`; a new key goes last.
-/

namespace Anyio.Library

/-- The items in insertion order; no key occurs twice. -/
structure OrderedDict (κ ν : Type*) where
  entries : List (κ × ν)
  nodup : (entries.map Prod.fst).Nodup

namespace OrderedDict

variable {κ ν : Type*}

def empty : OrderedDict κ ν := ⟨[], List.nodup_nil⟩

/-- `popitem(last=False)`: the oldest item and the other ones. -/
def popItem (d : OrderedDict κ ν) : Option ((κ × ν) × OrderedDict κ ν) :=
  match h : d.entries with
  | [] => none
  | e :: rest => some (e, ⟨rest, by
      have hnodup := d.nodup
      rw [h, List.map_cons] at hnodup
      exact hnodup.of_cons⟩)

def keys (d : OrderedDict κ ν) : List κ := d.entries.map Prod.fst

/-- Pop items, the oldest first, as long as they meet `p`. -/
def dropWhile (p : κ × ν → Bool) (d : OrderedDict κ ν) : OrderedDict κ ν :=
  ⟨d.entries.dropWhile p, d.nodup.sublist ((List.dropWhile_sublist p).map Prod.fst)⟩

theorem mem_keys {d : OrderedDict κ ν} {k : κ} : k ∈ d.keys ↔ ∃ v, (k, v) ∈ d.entries := by
  simp [keys]

@[simp] theorem empty_entries : (empty : OrderedDict κ ν).entries = [] := rfl

/-- Two items with the same key are the same item. -/
theorem value_unique (d : OrderedDict κ ν) {k : κ} {v w : ν} (hv : (k, v) ∈ d.entries)
    (hw : (k, w) ∈ d.entries) : v = w := by
  have h := List.inj_on_of_nodup_map d.nodup hv hw rfl
  exact (Prod.mk.inj h).2

theorem popItem_eq_none {d : OrderedDict κ ν} : d.popItem = none ↔ d.entries = [] := by
  unfold popItem
  split <;> simp [*]

theorem popItem_eq_some {d d' : OrderedDict κ ν} {e : κ × ν} (h : d.popItem = some (e, d')) :
    d.entries = e :: d'.entries := by
  unfold popItem at h
  split at h
  · cases h
  · rename_i heq
    cases h
    exact heq

/-- The key of the item taken out is gone. -/
theorem popItem_not_mem {d d' : OrderedDict κ ν} {e : κ × ν} (h : d.popItem = some (e, d'))
    (v : ν) : (e.1, v) ∉ d'.entries := by
  intro hmem
  have hnodup := d.nodup
  rw [popItem_eq_some h, List.map_cons, List.nodup_cons] at hnodup
  exact hnodup.1 (List.mem_map.mpr ⟨_, hmem, rfl⟩)

/-- The item that ends a `dropWhile` does not meet the condition. -/
theorem dropWhile_popItem {d d' : OrderedDict κ ν} {p : κ × ν → Bool} {e : κ × ν}
    (h : (d.dropWhile p).popItem = some (e, d')) :
    p e = false ∧ e ∈ d.entries ∧ d'.entries ⊆ d.entries := by
  have hentries : d.entries.dropWhile p = e :: d'.entries := popItem_eq_some h
  have hsub : e :: d'.entries ⊆ d.entries := hentries ▸ List.dropWhile_subset p
  refine ⟨?_, hsub List.mem_cons_self, fun a ha => hsub (List.mem_cons_of_mem _ ha)⟩
  have hhead := List.head?_dropWhile_not p d.entries
  rw [hentries] at hhead
  simpa using hhead

variable [DecidableEq κ]

theorem map_fst_assign (k : κ) (v : ν) (l : List (κ × ν)) :
    (l.map fun e => if e.1 = k then (k, v) else e).map Prod.fst = l.map Prod.fst := by
  rw [List.map_map]
  apply List.map_congr_left
  intro e _
  by_cases h : e.1 = k <;> simp [h]

/-- `d[k] = v`. -/
def assign (d : OrderedDict κ ν) (k : κ) (v : ν) : OrderedDict κ ν :=
  if h : k ∈ d.entries.map Prod.fst then
    ⟨d.entries.map fun e => if e.1 = k then (k, v) else e, by
      rw [map_fst_assign]
      exact d.nodup⟩
  else
    ⟨d.entries ++ [(k, v)], by
      rw [List.map_append, List.map_singleton, List.nodup_append]
      refine ⟨d.nodup, List.nodup_singleton k, ?_⟩
      intro a ha b hb hab
      rw [hab, List.mem_singleton.mp hb] at ha
      exact h ha⟩

/-- `d.pop(k, None)`. -/
def pop (d : OrderedDict κ ν) (k : κ) : OrderedDict κ ν :=
  ⟨d.entries.filter fun e => e.1 ≠ k,
    d.nodup.sublist (List.filter_sublist.map Prod.fst)⟩

theorem mem_assign {d : OrderedDict κ ν} {k : κ} {v : ν} {e : κ × ν} :
    e ∈ (d.assign k v).entries ↔ e = (k, v) ∨ e ∈ d.entries ∧ e.1 ≠ k := by
  unfold assign
  split_ifs with h
  · simp only [List.mem_map]
    constructor
    · rintro ⟨a, ha, rfl⟩
      by_cases hk : a.1 = k
      · simp [hk]
      · exact .inr (by simpa [hk] using ha)
    · rintro (rfl | ⟨he, hk⟩)
      · obtain ⟨a, ha, hak⟩ := List.mem_map.mp h
        exact ⟨a, ha, by simp [hak]⟩
      · exact ⟨e, he, by simp [hk]⟩
  · rw [List.mem_append, List.mem_singleton, or_comm]
    have hne : e ∈ d.entries → e.1 ≠ k := by
      rintro he rfl
      exact h (List.mem_map_of_mem (f := Prod.fst) he)
    constructor
    · rintro (he | he)
      · exact .inl he
      · exact .inr ⟨he, hne he⟩
    · rintro (he | he)
      · exact .inl he
      · exact .inr he.1

/-- A new key goes last. -/
theorem assign_entries {d : OrderedDict κ ν} {k : κ} (h : ∀ v, (k, v) ∉ d.entries) (v : ν) :
    (d.assign k v).entries = d.entries ++ [(k, v)] := by
  have hk : k ∉ d.entries.map Prod.fst := by
    intro hmem
    obtain ⟨⟨_, w⟩, hw, rfl⟩ := List.mem_map.mp hmem
    exact h w hw
  simp only [assign, hk, dite_false]

@[simp] theorem mem_pop {d : OrderedDict κ ν} {k : κ} {e : κ × ν} :
    e ∈ (d.pop k).entries ↔ e ∈ d.entries ∧ e.1 ≠ k := by
  simp [pop, List.mem_filter]

/-- Popping a key that is absent changes nothing. -/
theorem pop_of_not_mem {d : OrderedDict κ ν} {k : κ} (h : k ∉ d.keys) : d.pop k = d := by
  have hentries : d.entries.filter (fun e => e.1 ≠ k) = d.entries := by
    apply List.filter_eq_self.mpr
    intro e he
    have hne : e.1 ≠ k := fun hk => h (hk ▸ List.mem_map_of_mem he)
    simpa using hne
  obtain ⟨entries, nodup⟩ := d
  simpa [pop] using hentries

end OrderedDict

end Anyio.Library
