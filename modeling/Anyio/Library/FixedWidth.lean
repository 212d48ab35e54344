import Anyio.Library.Bytes
import Mathlib.Algebra.Order.Group.Nat
import Mathlib.Data.List.Basic

/-!
# Arrays of values of a fixed width

A format writes every value with the same number of bytes, so an array of
values is written without separators. Whatever part of the bytes of an array
is there, the values that are complete in it can be read.
-/

namespace Anyio.Library

/-- Values that are written with `width` bytes each. What is read back are the values that are
`valid`. -/
structure FixedWidth (α : Type*) where
  width : Nat
  valid : α → Prop
  encode : α → Bytes
  decode : Bytes → α
  width_pos : 0 < width
  length_encode : ∀ a, (encode a).length = width
  decode_encode : ∀ a, valid a → decode (encode a) = a

namespace FixedWidth

variable {α : Type*} (F : FixedWidth α)

/-- `tobytes()` of an array. -/
def tobytes (values : List α) : Bytes := values.flatMap F.encode

/-- `frombytes()` of an array, or nothing where it raises `ValueError`. -/
def frombytes (data : Bytes) : Option (List α) :=
  if data.length % F.width = 0 then
    some ((List.range (data.length / F.width)).map fun i =>
      F.decode ((data.drop (i * F.width)).take F.width))
  else none

/-- `data[:len(data) - len(data) % itemsize]`, the part of the data that is made of whole
values. -/
def whole (data : Bytes) : Bytes := data.take (data.length - data.length % F.width)

@[simp] theorem tobytes_nil : F.tobytes [] = [] := rfl

@[simp] theorem tobytes_cons (a : α) (values : List α) :
    F.tobytes (a :: values) = F.encode a ++ F.tobytes values := rfl

@[simp] theorem tobytes_length (values : List α) :
    (F.tobytes values).length = values.length * F.width := by
  induction values with
  | nil => simp
  | cons a rest ih =>
      rw [tobytes_cons, List.length_append, F.length_encode, ih, List.length_cons]
      ring

/-- The bytes of the first values are the first bytes. -/
theorem take_tobytes (values : List α) (k : Nat) :
    (F.tobytes values).take (k * F.width) = F.tobytes (values.take k) := by
  induction values generalizing k with
  | nil => simp
  | cons a rest ih =>
      cases k with
      | zero => simp
      | succ k =>
          have hlength : (k + 1) * F.width = (F.encode a).length + k * F.width := by
            rw [F.length_encode]
            ring
          rw [tobytes_cons, hlength, List.take_length_add_append, ih, List.take_succ_cons,
            tobytes_cons]

/-- The bytes of one value, where it stands in the array. -/
theorem slot_tobytes {values : List α} {i : Nat} (hi : i < values.length) :
    ((F.tobytes values).drop (i * F.width)).take F.width = F.encode values[i] := by
  induction values generalizing i with
  | nil => simp at hi
  | cons a rest ih =>
      cases i with
      | zero =>
          rw [Nat.zero_mul, List.drop_zero, tobytes_cons, ← F.length_encode a, List.take_left]
          rfl
      | succ i =>
          have hlength : (i + 1) * F.width = (F.encode a).length + i * F.width := by
            rw [F.length_encode]
            ring
          rw [tobytes_cons, hlength, List.drop_length_add_append]
          exact ih (by simpa using hi)

theorem frombytes_tobytes {values : List α} (hvalid : ∀ a ∈ values, F.valid a) :
    F.frombytes (F.tobytes values) = some values := by
  rw [frombytes, tobytes_length, if_pos (Nat.mul_mod_left _ _),
    Nat.mul_div_cancel _ F.width_pos, Option.some.injEq]
  apply List.ext_getElem
  · simp
  · intro i hi hi'
    rw [List.getElem_map, List.getElem_range, F.slot_tobytes hi']
    exact F.decode_encode _ (hvalid _ (List.getElem_mem hi'))

/-- Any beginning of the bytes of an array is read as the values that are complete in it. -/
theorem frombytes_whole_take {values : List α} (hvalid : ∀ a ∈ values, F.valid a) (n : Nat) :
    F.frombytes (F.whole ((F.tobytes values).take n)) = some (values.take (n / F.width)) := by
  have hpos := F.width_pos
  have hwhole : F.whole ((F.tobytes values).take n) =
      F.tobytes (values.take (n / F.width)) := by
    set m := min n (values.length * F.width) with hm
    have hlength : ((F.tobytes values).take n).length = m := by
      rw [List.length_take, tobytes_length]
    have hround : m - m % F.width = m / F.width * F.width := by
      have := Nat.div_add_mod m F.width
      rw [Nat.mul_comm (m / F.width)]
      omega
    have hle : m / F.width * F.width ≤ n := by
      calc
        m / F.width * F.width ≤ m := Nat.div_mul_le_self _ _
        _ ≤ n := Nat.min_le_left _ _
    have hquot : m / F.width = min (n / F.width) values.length := by
      obtain hcut | hcut := Nat.le_total n (values.length * F.width)
      · have hquot : n / F.width ≤ values.length := by
          rw [← Nat.mul_div_cancel values.length hpos]
          exact Nat.div_le_div_right hcut
        rw [hm, Nat.min_eq_left hcut, Nat.min_eq_left hquot]
      · have hquot : values.length ≤ n / F.width := (Nat.le_div_iff_mul_le hpos).mpr hcut
        rw [hm, Nat.min_eq_right hcut, Nat.mul_div_cancel _ hpos, Nat.min_eq_right hquot]
    rw [whole, hlength, hround, List.take_take, Nat.min_eq_left hle, take_tobytes, hquot]
    congr 1
    rw [← List.take_take, List.take_length]
  rw [hwhole]
  exact F.frombytes_tobytes fun a ha => hvalid a (List.mem_of_mem_take ha)

end FixedWidth

/-- The order of the bytes of a number in memory. -/
inductive ByteOrder
  | little | big
  deriving DecidableEq, Repr

namespace ByteOrder

/-- Bytes with the least significant one first, put into the order of the machine, or back. -/
def arrange : ByteOrder → Bytes → Bytes
  | .little, data => data
  | .big, data => data.reverse

@[simp] theorem arrange_arrange (order : ByteOrder) (data : Bytes) :
    order.arrange (order.arrange data) = data := by
  cases order
  · rfl
  · exact List.reverse_reverse data

@[simp] theorem arrange_length (order : ByteOrder) (data : Bytes) :
    (order.arrange data).length = data.length := by
  cases order
  · rfl
  · exact List.length_reverse

end ByteOrder

/-- The four bytes of a number below `2 ^ 32`, the least significant one first. -/
def fourBytes (n : Nat) : Bytes :=
  [UInt8.ofNat n, UInt8.ofNat (n / 256), UInt8.ofNat (n / 65536), UInt8.ofNat (n / 16777216)]

/-- The number with these bytes, the least significant one first. -/
def ofFourBytes : Bytes → Nat
  | [] => 0
  | b :: rest => b.toNat + 256 * ofFourBytes rest

theorem ofFourBytes_fourBytes {n : Nat} (h : n < 4294967296) : ofFourBytes (fourBytes n) = n := by
  simp only [fourBytes, ofFourBytes, UInt8.toNat_ofNat']
  omega

/-- The values of a C `int`. -/
def CInt (v : Int) : Prop := -2147483648 ≤ v ∧ v < 2147483648

instance (v : Int) : Decidable (CInt v) :=
  inferInstanceAs (Decidable (-2147483648 ≤ v ∧ v < 2147483648))

/-- The items of an `array("i")`, in two's complement. -/
def intArray (order : ByteOrder) : FixedWidth Int where
  width := 4
  valid := CInt
  encode v := order.arrange (fourBytes (v % 4294967296).toNat)
  decode data :=
    let n := ofFourBytes (order.arrange data)
    if n < 2147483648 then n else n - 4294967296
  width_pos := by decide
  length_encode v := by rw [ByteOrder.arrange_length]; rfl
  decode_encode v hv := by
    have hlt : (v % 4294967296).toNat < 4294967296 := by omega
    simp only [ByteOrder.arrange_arrange, ofFourBytes_fourBytes hlt]
    obtain ⟨hlow, hhigh⟩ := hv
    split_ifs <;> omega

end Anyio.Library
