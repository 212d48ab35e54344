import Mathlib.Order.Basic
import Mathlib.Tactic.Common

/-!
# Numbers that may be infinite

Limits are integers or `math.inf` in the source. The values that pass its
checks are natural numbers or infinite.
-/

namespace Anyio

/-- A natural number or `math.inf`. -/
inductive Bound
  | count (n : Nat)
  | inf
  deriving DecidableEq, Repr

/-- `n ≤ bound`. That one more fits in, `n < bound`, is written `covers (n + 1)`. -/
def Bound.covers : Bound → Nat → Prop
  | .count total, n => n ≤ total
  | .inf, _ => True

instance (total : Bound) (n : Nat) : Decidable (total.covers n) :=
  match total with
  | .count m => inferInstanceAs (Decidable (n ≤ m))
  | .inf => .isTrue trivial

@[simp] theorem Bound.covers_count (total n : Nat) :
    (Bound.count total).covers n ↔ n ≤ total := Iff.rfl

@[simp] theorem Bound.covers_inf (n : Nat) : Bound.inf.covers n := trivial

theorem Bound.covers.mono {total : Bound} {m n : Nat} (h : total.covers n) (hmn : m ≤ n) :
    total.covers m := by
  cases total with
  | count total => exact Nat.le_trans hmn h
  | inf => trivial

/-- `total ≤ other`. -/
def Bound.le : Bound → Bound → Prop
  | .count total, other => other.covers total
  | .inf, other => other = .inf

instance (total other : Bound) : Decidable (total.le other) :=
  match total with
  | .count n => inferInstanceAs (Decidable (other.covers n))
  | .inf => inferInstanceAs (Decidable (other = .inf))

theorem Bound.le.covers {total other : Bound} {n : Nat} (h : total.le other)
    (hn : total.covers n) : other.covers n := by
  cases total with
  | count total => exact Bound.covers.mono h hn
  | inf =>
      rw [show other = .inf from h]
      exact hn

/-- An int from here on, half a unit in the last place above the largest float, does not fit into
a float. -/
def floatLimit : Nat := (Nat.pow 2 54 - 1) * Nat.pow 2 970

theorem floatLimit_pos : 0 < floatLimit := by
  apply Nat.mul_pos
  · decide
  · apply Nat.two_pow_pos

/-- `value - other` raises `OverflowError`: the int does not fit into a float, and the other number
is one. -/
def Bound.overflows : Bound → Bound → Prop
  | .count n, .inf => floatLimit ≤ n
  | .inf, .count n => floatLimit ≤ n
  | _, _ => False

instance (value other : Bound) : Decidable (value.overflows other) :=
  match value, other with
  | .count n, .inf => inferInstanceAs (Decidable (floatLimit ≤ n))
  | .inf, .count n => inferInstanceAs (Decidable (floatLimit ≤ n))
  | .count _, .count _ | .inf, .inf => .isFalse not_false

theorem Bound.not_overflows_self (value : Bound) : ¬ value.overflows value := by
  cases value <;> exact not_false

theorem Bound.not_overflows_zero (value : Bound) : ¬ value.overflows (.count 0) := by
  cases value with
  | count _ => exact not_false
  | inf => exact Nat.not_le.mpr floatLimit_pos

/-- The numbers a caller may pass; `otherFloat` is every other float, `nan` included. -/
inductive Number
  | int (z : Int)
  | posInf
  | negInf
  | otherFloat
  deriving DecidableEq, Repr

end Anyio
