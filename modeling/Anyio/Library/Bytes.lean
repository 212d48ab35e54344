import Mathlib.Data.Nat.Digits.Defs
import Mathlib.Data.Nat.Digits.Lemmas
import Mathlib.Tactic.Common

/-!
# Bytes and decimal numbers in ASCII

`decimal` writes a natural number the way `%d` does, and `parseInt` reads a
base ten number the way Python's `int()` does: white space around the number, a
sign, and single underscores between digits are allowed.
-/

namespace Anyio.Library

abbrev Bytes := List UInt8

/-- The bytes of an ASCII text. -/
def ascii (text : String) : Bytes := text.toList.map fun c => UInt8.ofNat c.toNat

def digitByte (d : Nat) : UInt8 := UInt8.ofNat (48 + d)

/-- The value of a byte that is a digit. -/
def digitValue (b : UInt8) : Option Nat :=
  if 48 ≤ b.toNat ∧ b.toNat < 58 then some (b.toNat - 48) else none

def decimal (n : Nat) : Bytes :=
  if n = 0 then [digitByte 0] else ((Nat.digits 10 n).map digitByte).reverse

/-- Read digits after the number `acc`; `afterDigit` tells whether the byte before was one. -/
def parseDigits (acc : Nat) (afterDigit : Bool) : Bytes → Option Nat
  | [] => if afterDigit then some acc else none
  | b :: rest =>
      match digitValue b with
      | some d => parseDigits (10 * acc + d) true rest
      | none => if b = 95 ∧ afterDigit then parseDigits acc false rest else none

def isSpace (b : UInt8) : Bool := b = 32 ∨ 9 ≤ b ∧ b ≤ 13

def strip (text : Bytes) : Bytes :=
  ((text.dropWhile isSpace).reverse.dropWhile isSpace).reverse

/-- `int(text)`, or nothing where it raises `ValueError`. -/
def parseInt (text : Bytes) : Option Int :=
  match strip text with
  | [] => none
  | b :: rest =>
      if b = 43 then (parseDigits 0 false rest).map Int.ofNat
      else if b = 45 then (parseDigits 0 false rest).map fun n => -Int.ofNat n
      else (parseDigits 0 false (b :: rest)).map Int.ofNat

/-- The byte is one of `0` to `9`. -/
def IsDigit (b : UInt8) : Prop := ∃ d < 10, b = digitByte d

theorem digitByte_toNat {d : Nat} (h : d < 10) : (digitByte d).toNat = 48 + d := by
  rw [digitByte, UInt8.toNat_ofNat']
  omega

theorem digitValue_digitByte {d : Nat} (h : d < 10) : digitValue (digitByte d) = some d := by
  rw [digitValue, digitByte_toNat h, if_pos (by omega)]
  simp

theorem isDigit_of_mem_decimal {n : Nat} {b : UInt8} (h : b ∈ decimal n) : IsDigit b := by
  rw [decimal] at h
  split_ifs at h
  · exact ⟨0, by omega, List.mem_singleton.mp h⟩
  · obtain ⟨d, hd, rfl⟩ := List.mem_map.mp (List.mem_reverse.mp h)
    exact ⟨d, Nat.digits_lt_base (by omega) hd, rfl⟩

theorem decimal_ne_nil (n : Nat) : decimal n ≠ [] := by
  rw [decimal]
  split_ifs with hn
  · exact List.cons_ne_nil _ _
  · simp [Nat.digits_eq_nil_iff_eq_zero, hn]

/-- A digit is neither white space nor a sign nor any other byte outside of `0..9`. -/
theorem IsDigit.ne {b : UInt8} (h : IsDigit b) {c : UInt8} (hc : digitValue c = none) : b ≠ c := by
  rintro rfl
  obtain ⟨d, hd, rfl⟩ := h
  rw [digitValue_digitByte hd] at hc
  cases hc

theorem IsDigit.not_space {b : UInt8} (h : IsDigit b) : isSpace b = false := by
  obtain ⟨d, hd, rfl⟩ := h
  have hnat := digitByte_toNat hd
  simp only [isSpace, decide_eq_false_iff_not, UInt8.le_iff_toNat_le, ← UInt8.toNat_inj, hnat]
  simp
  omega

/-- Reading digits from the left multiplies what was read before by ten. -/
theorem parseDigits_map (ds : List Nat) (hds : ∀ d ∈ ds, d < 10) (acc : Nat) :
    parseDigits acc true (ds.map digitByte) = some (ds.foldl (fun n d => 10 * n + d) acc) := by
  induction ds generalizing acc with
  | nil => rfl
  | cons d rest ih =>
      rw [List.map_cons, parseDigits, digitValue_digitByte (hds d List.mem_cons_self)]
      exact ih (fun d hd => hds d (List.mem_cons_of_mem _ hd)) _

/-- At least one digit has to stand first. -/
theorem parseDigits_first {text : Bytes} (hne : text ≠ []) (hdigits : ∀ b ∈ text, IsDigit b) :
    parseDigits 0 false text = parseDigits 0 true text := by
  cases text with
  | nil => exact absurd rfl hne
  | cons b rest =>
      obtain ⟨d, hd, rfl⟩ := hdigits b List.mem_cons_self
      simp only [parseDigits, digitValue_digitByte hd]

theorem parseDigits_decimal (n : Nat) : parseDigits 0 true (decimal n) = some n := by
  rw [decimal]
  split_ifs with hn
  · rw [hn]
    rfl
  · have hds : ∀ d ∈ (Nat.digits 10 n).reverse, d < 10 := fun d hd =>
      Nat.digits_lt_base (by omega) (List.mem_reverse.mp hd)
    rw [← List.map_reverse, parseDigits_map _ hds, List.foldl_reverse]
    calc some ((Nat.digits 10 n).foldr (fun d n => 10 * n + d) 0)
        = some ((Nat.digits 10 n).foldr (fun d n => d + 10 * n) 0) := by simp only [Nat.add_comm]
      _ = some (Nat.ofDigits 10 (Nat.digits 10 n)) := by rw [Nat.ofDigits_eq_foldr]; rfl
      _ = some n := by rw [Nat.ofDigits_digits]

/-- There is nothing to strip from a number. -/
theorem strip_digits {text : Bytes} (hdigits : ∀ b ∈ text, IsDigit b) : strip text = text := by
  have hkeep : ∀ xs : Bytes, (∀ b ∈ xs, IsDigit b) → xs.dropWhile isSpace = xs := by
    intro xs hxs
    cases xs with
    | nil => rfl
    | cons b rest => rw [List.dropWhile_cons, (hxs b List.mem_cons_self).not_space]; rfl
  rw [strip, hkeep text hdigits, hkeep, List.reverse_reverse]
  exact fun b hb => hdigits b (List.mem_reverse.mp hb)

/-- `int(b"%d" % n)` is `n`. -/
theorem parseInt_decimal (n : Nat) : parseInt (decimal n) = some (n : Int) := by
  have hdigits : ∀ b ∈ decimal n, IsDigit b := fun _ h => isDigit_of_mem_decimal h
  rw [parseInt, strip_digits hdigits]
  cases hdec : decimal n with
  | nil => exact absurd hdec (decimal_ne_nil n)
  | cons b rest =>
      have hb := hdigits b (by rw [hdec]; exact List.mem_cons_self)
      have hread : parseDigits 0 false (b :: rest) = some n := by
        rw [← hdec, parseDigits_first (decimal_ne_nil n) hdigits, parseDigits_decimal]
      simp only [if_neg (hb.ne (c := 43) rfl), if_neg (hb.ne (c := 45) rfl), hread]
      rfl

end Anyio.Library
