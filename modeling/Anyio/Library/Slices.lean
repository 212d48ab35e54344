import Mathlib.Data.List.Basic
import Mathlib.Data.List.Infix
import Mathlib.Data.List.Perm.Basic
import Mathlib.Tactic.Common

/-!
# Slices, insertions and searches

The slices `xs[:n]` and `xs[n:]` of a sequence, where a negative number counts
from the end, the insertion into a list, and the search for the first place
where a pattern stands.
-/

namespace Anyio.Library

variable {α : Type*} {pattern text : List α} {i j n start : Nat}

/-- The place that the index `n` means in a sequence of this length. -/
def sliceIndex (length : Nat) (n : Int) : Nat :=
  if n < 0 then (length + n).toNat else n.toNat

@[simp] theorem sliceIndex_natCast (length n : Nat) : sliceIndex length n = n := by
  have hn : ¬ (n : Int) < 0 := by omega
  rw [sliceIndex, if_neg hn, Int.toNat_natCast]

/-- `xs[:n]`. -/
def sliceTo (xs : List α) (n : Int) : List α := xs.take (sliceIndex xs.length n)

/-- `xs[n:]`. -/
def sliceFrom (xs : List α) (n : Int) : List α := xs.drop (sliceIndex xs.length n)

@[simp] theorem sliceTo_append_sliceFrom (xs : List α) (n : Int) :
    sliceTo xs n ++ sliceFrom xs n = xs :=
  List.take_append_drop _ xs

@[simp] theorem sliceTo_natCast (xs : List α) (n : Nat) : sliceTo xs n = xs.take n := by
  rw [sliceTo, sliceIndex_natCast]

@[simp] theorem sliceFrom_natCast (xs : List α) (n : Nat) : sliceFrom xs n = xs.drop n := by
  rw [sliceFrom, sliceIndex_natCast]

/-- `xs.insert(i, x)`: beyond the end it appends. -/
def insertAt (xs : List α) (i : Nat) (x : α) : List α := xs.insertIdx (min i xs.length) x

theorem insertAt_perm (xs : List α) (i : Nat) (x : α) : (insertAt xs i x).Perm (x :: xs) :=
  List.perm_insertIdx x xs (Nat.min_le_right i xs.length)

@[simp] theorem insertAt_zero (xs : List α) (x : α) : insertAt xs 0 x = x :: xs := by
  rw [insertAt, Nat.zero_min, List.insertIdx_zero]

@[simp] theorem insertAt_one_cons (y : α) (xs : List α) (x : α) :
    insertAt (y :: xs) 1 x = y :: x :: xs := by
  have hmin : min 1 (y :: xs).length = 1 := Nat.min_eq_left (Nat.succ_le_succ (Nat.zero_le _))
  rw [insertAt, hmin, List.insertIdx_succ_cons, List.insertIdx_zero]

/-- The pattern stands in the text at the index `i`. -/
def OccursAt (pattern text : List α) (i : Nat) : Prop :=
  i ≤ text.length ∧ pattern <+: text.drop i

/-- A text is what stands before an occurrence, the pattern, and what follows. -/
theorem OccursAt.split (h : OccursAt pattern text i) :
    text.take i ++ pattern ++ text.drop (i + pattern.length) = text := by
  obtain ⟨rest, hrest⟩ := h.2
  have hdrop : text.drop (i + pattern.length) = rest := by
    rw [← List.drop_drop, ← hrest, List.drop_left]
  rw [hdrop, List.append_assoc, hrest, List.take_append_drop]

theorem occursAt_iff_exists :
    OccursAt pattern text i ↔
      ∃ before after, before ++ pattern ++ after = text ∧ before.length = i := by
  constructor
  · intro h
    exact ⟨text.take i, text.drop (i + pattern.length), h.split, List.length_take_of_le h.1⟩
  · rintro ⟨before, after, rfl, rfl⟩
    rw [OccursAt, List.append_assoc, List.drop_left]
    exact ⟨by simp, List.prefix_append _ _⟩

/-- An occurrence fits into the text. -/
theorem OccursAt.length_le (h : OccursAt pattern text i) : i + pattern.length ≤ text.length := by
  obtain ⟨before, after, rfl, rfl⟩ := occursAt_iff_exists.mp h
  simp

theorem OccursAt.append (h : OccursAt pattern text i) (more : List α) :
    OccursAt pattern (text ++ more) i := by
  obtain ⟨before, after, rfl, hi⟩ := occursAt_iff_exists.mp h
  exact occursAt_iff_exists.mpr ⟨before, after ++ more, by simp, hi⟩

/-- The pattern stands in a part of the text where it stands in the text and ends in time. -/
theorem occursAt_take :
    OccursAt pattern (text.take n) i ↔ OccursAt pattern text i ∧ i + pattern.length ≤ n := by
  constructor
  · intro h
    have hlength : i + pattern.length ≤ (text.take n).length := h.length_le
    rw [List.length_take] at hlength
    have happend := h.append (text.drop n)
    rw [List.take_append_drop] at happend
    exact ⟨happend, hlength.trans (min_le_left _ _)⟩
  · rintro ⟨h, hn⟩
    obtain ⟨before, after, rfl, rfl⟩ := occursAt_iff_exists.mp h
    refine occursAt_iff_exists.mpr
      ⟨before, after.take (n - (before.length + pattern.length)), ?_, rfl⟩
    have hfits : (before ++ pattern).length ≤ n := by simpa using hn
    rw [List.take_append, List.take_of_length_le hfits, List.length_append]

/-- What follows the text makes no new occurrence before its end. -/
theorem occursAt_of_append {more : List α} (h : OccursAt pattern (text ++ more) i)
    (hi : i + pattern.length ≤ text.length) : OccursAt pattern text i := by
  have htake := occursAt_take.mpr ⟨h, hi⟩
  rwa [List.take_left] at htake

@[simp] theorem occursAt_nil : OccursAt pattern [] i ↔ i = 0 ∧ pattern = [] := by
  simp [OccursAt]

@[simp] theorem occursAt_zero : OccursAt pattern text 0 ↔ pattern <+: text := by
  simp [OccursAt]

@[simp] theorem occursAt_cons_succ (x : α) :
    OccursAt pattern (x :: text) (i + 1) ↔ OccursAt pattern text i := by
  simp [OccursAt]

theorem occursAt_drop (h : start ≤ text.length) :
    OccursAt pattern (text.drop start) i ↔ OccursAt pattern text (start + i) := by
  rw [OccursAt, OccursAt, List.length_drop, List.drop_drop,
    Nat.le_sub_iff_add_le' h]

/-- One element stands where the text has it. -/
theorem occursAt_singleton (x : α) : OccursAt [x] text i ↔ text[i]? = some x := by
  rw [OccursAt, List.singleton_prefix_iff_head?_eq_some, List.head?_drop]
  apply and_iff_right_of_imp
  intro h
  exact (List.getElem?_eq_some_iff.mp h).1.le

variable [DecidableEq α]

/-- The first index at which the pattern stands. -/
def search (pattern : List α) : List α → Option Nat
  | [] => if pattern = [] then some 0 else none
  | x :: rest =>
      if pattern <+: x :: rest then some 0 else (search pattern rest).map (· + 1)

/-- `text.find(pattern, start)`. -/
def find (pattern text : List α) (start : Nat) : Option Nat :=
  if start ≤ text.length then (search pattern (text.drop start)).map (start + ·) else none

theorem search_eq_some (h : search pattern text = some i) :
    OccursAt pattern text i ∧ ∀ j < i, ¬ OccursAt pattern text j := by
  induction text generalizing i with
  | nil =>
      obtain ⟨hp, hi⟩ := Option.ite_none_right_eq_some.mp h
      cases hi
      exact ⟨occursAt_nil.mpr ⟨rfl, hp⟩, fun j hj => absurd hj j.not_lt_zero⟩
  | cons x rest ih =>
      rw [search] at h
      split_ifs at h with hp
      · cases h
        exact ⟨occursAt_zero.mpr hp, fun j hj => absurd hj j.not_lt_zero⟩
      · obtain ⟨k, hk, rfl⟩ := Option.map_eq_some_iff.mp h
        obtain ⟨hoccurs, hfirst⟩ := ih hk
        refine ⟨(occursAt_cons_succ x).mpr hoccurs, fun j hj => ?_⟩
        cases j with
        | zero => exact fun hj => hp (occursAt_zero.mp hj)
        | succ j => exact fun hj' => hfirst j (by omega) ((occursAt_cons_succ x).mp hj')

theorem search_eq_none (h : search pattern text = none) : ¬ OccursAt pattern text j := by
  induction text generalizing j with
  | nil =>
      rw [occursAt_nil]
      rintro ⟨-, hp⟩
      simp [search, hp] at h
  | cons x rest ih =>
      rw [search] at h
      split_ifs at h with hp
      cases j with
      | zero => exact fun hj => hp (occursAt_zero.mp hj)
      | succ j => exact fun hj => ih (Option.map_eq_none_iff.mp h) ((occursAt_cons_succ x).mp hj)

theorem find_eq_none_iff :
    find pattern text start = none ↔ ∀ j, start ≤ j → ¬ OccursAt pattern text j := by
  constructor
  · intro h j hj hoccurs
    have hstart : start ≤ text.length := hj.trans hoccurs.1
    rw [find, if_pos hstart, Option.map_eq_none_iff] at h
    refine search_eq_none h (j := j - start) ((occursAt_drop hstart).mpr ?_)
    rwa [Nat.add_sub_cancel' hj]
  · intro h
    by_contra hsome
    obtain ⟨i, hi⟩ := Option.ne_none_iff_exists'.mp hsome
    obtain ⟨hstart, hi⟩ := Option.ite_none_right_eq_some.mp hi
    obtain ⟨k, hk, -⟩ := Option.map_eq_some_iff.mp hi
    exact h (start + k) (Nat.le_add_right _ _) ((occursAt_drop hstart).mp (search_eq_some hk).1)

/-- The search finds the first occurrence that does not begin before `start`. -/
theorem find_eq_some_iff :
    find pattern text start = some i ↔
      start ≤ i ∧ OccursAt pattern text i ∧
        ∀ j, start ≤ j → j < i → ¬ OccursAt pattern text j := by
  have hsound : ∀ k, find pattern text start = some k →
      start ≤ k ∧ OccursAt pattern text k ∧
        ∀ j, start ≤ j → j < k → ¬ OccursAt pattern text j := by
    intro k h
    obtain ⟨hstart, h⟩ := Option.ite_none_right_eq_some.mp h
    obtain ⟨k, hk, rfl⟩ := Option.map_eq_some_iff.mp h
    obtain ⟨hoccurs, hfirst⟩ := search_eq_some hk
    refine ⟨Nat.le_add_right _ _, (occursAt_drop hstart).mp hoccurs, fun j hj hlt hoccurs => ?_⟩
    refine hfirst (j - start) (by omega) ((occursAt_drop hstart).mpr ?_)
    rwa [Nat.add_sub_cancel' hj]
  refine ⟨hsound i, ?_⟩
  rintro ⟨hi, hoccurs, hfirst⟩
  cases hfind : find pattern text start with
  | none => exact absurd hoccurs (find_eq_none_iff.mp hfind i hi)
  | some k =>
      obtain ⟨hk, hkoccurs, hkfirst⟩ := hsound k hfind
      rcases lt_trichotomy i k with hlt | rfl | hlt
      · exact absurd hoccurs (hkfirst i hi hlt)
      · rfl
      · exact absurd hkoccurs (hfirst k hk hlt)

/-- There is nothing to find where the element does not occur. -/
theorem find_singleton_of_not_mem {x : α} (h : x ∉ text) : find [x] text start = none := by
  apply find_eq_none_iff.mpr
  intro j _ hoccurs
  exact h (List.mem_of_getElem? ((occursAt_singleton x).mp hoccurs))

/-- The first occurrence of an element ends the part of the text without it. -/
theorem find_singleton_append_cons {x : α} (before after : List α) (h : x ∉ before)
    (hstart : start ≤ before.length) :
    find [x] (before ++ x :: after) start = some before.length := by
  refine find_eq_some_iff.mpr ⟨hstart, (occursAt_singleton x).mpr (by simp), fun j _ hj => ?_⟩
  rw [occursAt_singleton, List.getElem?_append_left hj]
  exact fun hx => h (List.mem_of_getElem? hx)

end Anyio.Library
