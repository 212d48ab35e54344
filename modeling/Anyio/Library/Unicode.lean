import Anyio.Library.Codec
import Mathlib.Tactic.IntervalCases

/-!
# UTF-8, UTF-16, UTF-32 and character maps

The codes of the Unicode encodings, for both byte orders, with their decoding
tables, and the encodings with a signature that the decoder looks for at the
start of a stream. A decoding table rejects bytes as soon as no character can
begin with them, so that surrogates and overlong forms are errors.
-/

namespace Anyio.Library

/-- The code point of a character is not a surrogate. -/
theorem toNat_valid (c : Char) :
    c.toNat < 0xD800 ∨ 0xDFFF < c.toNat ∧ c.toNat < 0x110000 := c.valid

section Utf8

/-- The second byte of a code may follow its first byte. -/
def utf8Second (a b : Nat) : Bool :=
  if a = 0xE0 then 0xA0 ≤ b && b < 0xC0
  else if a = 0xED then 0x80 ≤ b && b < 0xA0
  else if a = 0xF0 then 0x90 ≤ b && b < 0xC0
  else if a = 0xF4 then 0x80 ≤ b && b < 0x90
  else 0x80 ≤ b && b < 0xC0

def utf8Tail (b : Nat) : Bool := 0x80 ≤ b && b < 0xC0

/-- The decoding table, on the values of the bytes. -/
def utf8Table : List Nat → Lookup Char
  | [] => .more
  | [a] =>
      if a < 0x80 then .found (Char.ofNat a)
      else if 0xC2 ≤ a ∧ a < 0xF5 then .more
      else .bad
  | [a, b] =>
      if utf8Second a b then
        if a < 0xE0 then .found (Char.ofNat (a % 32 * 64 + b % 64)) else .more
      else .bad
  | [a, b, c] =>
      if utf8Tail c then
        if a < 0xF0 then .found (Char.ofNat (a % 16 * 4096 + b % 64 * 64 + c % 64)) else .more
      else .bad
  | [a, b, c, d] =>
      if utf8Tail d then
        .found (Char.ofNat (a % 8 * 262144 + b % 64 * 4096 + c % 64 * 64 + d % 64))
      else .bad
  | _ => .bad

def utf8Look (buffer : Bytes) : Lookup Char := utf8Table (buffer.map UInt8.toNat)

/-- The values of the bytes of a character, by their number. -/
theorem utf8_bytes (c : Char) :
    (c.toNat < 0x80 ∧ (String.utf8EncodeChar c).map UInt8.toNat = [c.toNat]) ∨
    (0x80 ≤ c.toNat ∧ c.toNat < 0x800 ∧ (String.utf8EncodeChar c).map UInt8.toNat =
      [c.toNat / 64 + 0xC0, c.toNat % 64 + 0x80]) ∨
    (0x800 ≤ c.toNat ∧ c.toNat < 0x10000 ∧ (String.utf8EncodeChar c).map UInt8.toNat =
      [c.toNat / 4096 + 0xE0, c.toNat / 64 % 64 + 0x80, c.toNat % 64 + 0x80]) ∨
    (0x10000 ≤ c.toNat ∧ (String.utf8EncodeChar c).map UInt8.toNat =
      [c.toNat / 262144 + 0xF0, c.toNat / 4096 % 64 + 0x80, c.toNat / 64 % 64 + 0x80,
        c.toNat % 64 + 0x80]) := by
  have hvalid := toNat_valid c
  unfold String.utf8EncodeChar
  dsimp only
  change (c.toNat < 0x80 ∧ _) ∨ _
  rw [show c.val.toNat = c.toNat from rfl]
  split_ifs with h1 h2 h3
  · left
    refine ⟨by omega, ?_⟩
    simp [UInt8.toNat_ofNat']
    omega
  · right; left
    refine ⟨by omega, by omega, ?_⟩
    simp [UInt8.toNat_ofNat']
    omega
  · right; right; left
    refine ⟨by omega, by omega, ?_⟩
    simp [UInt8.toNat_ofNat']
    omega
  · right; right; right
    refine ⟨by omega, ?_⟩
    simp [UInt8.toNat_ofNat']
    omega

theorem utf8Look_code (c : Char) : utf8Look (String.utf8EncodeChar c) = .found c := by
  have hvalid := toNat_valid c
  have hfound : ∀ n, n = c.toNat → Char.ofNat n = c := by
    rintro n rfl
    exact Char.ofNat_toNat c
  unfold utf8Look
  rcases utf8_bytes c with ⟨h, hb⟩ | ⟨hlo, hhi, hb⟩ | ⟨hlo, hhi, hb⟩ | ⟨hlo, hb⟩
  · rw [hb, utf8Table, if_pos h, Char.ofNat_toNat]
  · have hsecond : utf8Second (c.toNat / 64 + 0xC0) (c.toNat % 64 + 0x80) = true := by
      unfold utf8Second
      split_ifs <;> simp <;> omega
    rw [hb, utf8Table, if_pos hsecond, if_pos (by omega), hfound]
    omega
  · have htail : utf8Tail (c.toNat % 64 + 0x80) = true := by
      simp [utf8Tail]
      omega
    rw [hb, utf8Table, if_pos htail, if_pos (by omega), hfound]
    omega
  · have htail : utf8Tail (c.toNat % 64 + 0x80) = true := by
      simp [utf8Tail]
      omega
    rw [hb, utf8Table, if_pos htail, hfound]
    omega

theorem utf8Look_take (c : Char) (n : Nat) (hn : n < (String.utf8EncodeChar c).length) :
    utf8Look ((String.utf8EncodeChar c).take n) = .more := by
  have hvalid := toNat_valid c
  have hlength : (String.utf8EncodeChar c).length =
      ((String.utf8EncodeChar c).map UInt8.toNat).length := by simp
  rw [hlength] at hn
  unfold utf8Look
  rw [List.map_take]
  rcases utf8_bytes c with ⟨h, hb⟩ | ⟨hlo, hhi, hb⟩ | ⟨hlo, hhi, hb⟩ | ⟨hlo, hb⟩
  · rw [hb] at hn ⊢
    obtain rfl : n = 0 := by simpa using hn
    rfl
  · rw [hb] at hn ⊢
    simp only [List.length_cons, List.length_nil] at hn
    interval_cases n
    · rfl
    · simp only [List.take_succ_cons, List.take_zero, utf8Table]
      rw [if_neg (by omega), if_pos (by omega)]
  · rw [hb] at hn ⊢
    simp only [List.length_cons, List.length_nil] at hn
    have hsecond : utf8Second (c.toNat / 4096 + 0xE0) (c.toNat / 64 % 64 + 0x80) = true := by
      unfold utf8Second
      split_ifs <;> simp <;> omega
    interval_cases n
    · rfl
    · simp only [List.take_succ_cons, List.take_zero, utf8Table]
      rw [if_neg (by omega), if_pos (by omega)]
    · simp only [List.take_succ_cons, List.take_zero, utf8Table]
      rw [if_pos hsecond, if_neg (by omega)]
  · rw [hb] at hn ⊢
    simp only [List.length_cons, List.length_nil] at hn
    have hsecond : utf8Second (c.toNat / 262144 + 0xF0) (c.toNat / 4096 % 64 + 0x80) = true := by
      unfold utf8Second
      split_ifs <;> simp <;> omega
    have htail : utf8Tail (c.toNat / 64 % 64 + 0x80) = true := by
      simp [utf8Tail]
      omega
    interval_cases n
    · rfl
    · simp only [List.take_succ_cons, List.take_zero, utf8Table]
      rw [if_neg (by omega), if_pos (by omega)]
    · simp only [List.take_succ_cons, List.take_zero, utf8Table]
      rw [if_pos hsecond, if_neg (by omega)]
    · simp only [List.take_succ_cons, List.take_zero, utf8Table]
      rw [if_pos htail, if_neg (by omega)]

/-- The code of UTF-8. -/
def utf8Code : PrefixCode Char where
  code c := some (String.utf8EncodeChar c)
  look := utf8Look
  code_ne_nil := by
    rintro c b ⟨rfl⟩ hnil
    have hlook := utf8Look_code c
    rw [hnil] at hlook
    cases hlook
  look_code := by
    rintro c b ⟨rfl⟩
    exact utf8Look_code c
  look_take := by
    rintro c b ⟨rfl⟩
    exact utf8Look_take c

end Utf8

/-- Bytes that are given from the least significant one on, in a byte order. -/
def ordered (big : Bool) (bytes : List Nat) : Bytes :=
  (if big then bytes.reverse else bytes).map UInt8.ofNat

section Utf16

/-- The two bytes of a code unit. -/
def utf16Unit (big : Bool) (u : Nat) : Bytes := ordered big [u % 256, u / 256]

def utf16Bytes (big : Bool) (c : Char) : Bytes :=
  if c.toNat < 0x10000 then utf16Unit big c.toNat
  else
    utf16Unit big (0xD800 + (c.toNat - 0x10000) / 1024) ++
      utf16Unit big (0xDC00 + (c.toNat - 0x10000) % 1024)

/-- The code unit of two bytes. -/
def utf16Value (big : Bool) (a b : UInt8) : Nat :=
  if big then a.toNat * 256 + b.toNat else b.toNat * 256 + a.toNat

/-- A code unit that begins a pair waits for the one that ends it. -/
def utf16Look (big : Bool) : Bytes → Lookup Char
  | [] | [_] | [_, _, _] => .more
  | [a, b] =>
      let u := utf16Value big a b
      if 0xD800 ≤ u ∧ u < 0xDC00 then .more
      else if 0xDC00 ≤ u ∧ u < 0xE000 then .bad
      else .found (Char.ofNat u)
  | [a, b, c, d] =>
      let low := utf16Value big c d
      if 0xDC00 ≤ low ∧ low < 0xE000 then
        .found (Char.ofNat (0x10000 + (utf16Value big a b - 0xD800) * 1024 + (low - 0xDC00)))
      else .bad
  | _ => .bad

/-- A code unit is read back from its bytes. -/
theorem utf16Unit_eq (big : Bool) {u : Nat} (hu : u < 0x10000) :
    ∃ a b, utf16Unit big u = [a, b] ∧ utf16Value big a b = u := by
  cases big with
  | false =>
      refine ⟨UInt8.ofNat (u % 256), UInt8.ofNat (u / 256), rfl, ?_⟩
      simp [utf16Value, UInt8.toNat_ofNat']
      omega
  | true =>
      refine ⟨UInt8.ofNat (u / 256), UInt8.ofNat (u % 256), rfl, ?_⟩
      simp [utf16Value, UInt8.toNat_ofNat']
      omega

/-- The code units of a character, in bytes: one that is no surrogate, or a pair of them. -/
theorem utf16_bytes (big : Bool) (c : Char) :
    (∃ a b, utf16Bytes big c = [a, b] ∧ utf16Value big a b = c.toNat ∧
      (c.toNat < 0xD800 ∨ 0xDFFF < c.toNat)) ∨
    ∃ a b d e, utf16Bytes big c = [a, b, d, e] ∧
      utf16Value big a b = 0xD800 + (c.toNat - 0x10000) / 1024 ∧
      utf16Value big d e = 0xDC00 + (c.toNat - 0x10000) % 1024 ∧
      0x10000 ≤ c.toNat ∧ c.toNat < 0x110000 := by
  have hvalid := toNat_valid c
  unfold utf16Bytes
  split_ifs with h
  · obtain ⟨a, b, hbytes, hvalue⟩ := utf16Unit_eq big h
    exact .inl ⟨a, b, hbytes, hvalue, by omega⟩
  · obtain ⟨a, b, hhigh, hhighValue⟩ :=
      utf16Unit_eq big (u := 0xD800 + (c.toNat - 0x10000) / 1024) (by omega)
    obtain ⟨d, e, hlow, hlowValue⟩ :=
      utf16Unit_eq big (u := 0xDC00 + (c.toNat - 0x10000) % 1024) (by omega)
    right
    exact ⟨a, b, d, e, by rw [hhigh, hlow]; rfl, hhighValue, hlowValue, by omega, by omega⟩

theorem utf16Look_code (big : Bool) (c : Char) : utf16Look big (utf16Bytes big c) = .found c := by
  rcases utf16_bytes big c with ⟨a, b, hb, hvalue, hsurrogate⟩ |
    ⟨a, b, d, e, hb, hhigh, hlow, hlo, hhi⟩
  · simp only [hb, utf16Look, hvalue]
    rw [if_neg (by omega), if_neg (by omega), Char.ofNat_toNat]
  · simp only [hb, utf16Look, hhigh, hlow]
    rw [if_pos (by omega)]
    have hsum : 0x10000 + (0xD800 + (c.toNat - 0x10000) / 1024 - 0xD800) * 1024 +
        (0xDC00 + (c.toNat - 0x10000) % 1024 - 0xDC00) = c.toNat := by omega
    rw [hsum, Char.ofNat_toNat]

theorem utf16Look_take (big : Bool) (c : Char) (n : Nat) (hn : n < (utf16Bytes big c).length) :
    utf16Look big ((utf16Bytes big c).take n) = .more := by
  rcases utf16_bytes big c with ⟨a, b, hb, -, -⟩ | ⟨a, b, d, e, hb, hhigh, -, hlo, hhi⟩
  · rw [hb] at hn ⊢
    simp only [List.length_cons, List.length_nil] at hn
    interval_cases n
    · rfl
    · rfl
  · rw [hb] at hn ⊢
    simp only [List.length_cons, List.length_nil] at hn
    interval_cases n
    · rfl
    · rfl
    · simp only [List.take_succ_cons, List.take_zero, utf16Look, hhigh]
      rw [if_pos (by omega)]
    · rfl

/-- The code of UTF-16 in a byte order. -/
def utf16Code (big : Bool) : PrefixCode Char where
  code c := some (utf16Bytes big c)
  look := utf16Look big
  code_ne_nil := by
    rintro c b ⟨rfl⟩ hnil
    have hlook := utf16Look_code big c
    rw [hnil] at hlook
    cases hlook
  look_code := by
    rintro c b ⟨rfl⟩
    exact utf16Look_code big c
  look_take := by
    rintro c b ⟨rfl⟩
    exact utf16Look_take big c

end Utf16

section Utf32

def utf32Bytes (big : Bool) (c : Char) : Bytes :=
  ordered big [c.toNat % 256, c.toNat / 256 % 256, c.toNat / 65536 % 256, c.toNat / 16777216]

/-- The character of a code point. -/
def utf32Char (v : Nat) : Lookup Char :=
  if v < 0xD800 ∨ 0xDFFF < v ∧ v < 0x110000 then .found (Char.ofNat v) else .bad

def utf32Look (big : Bool) : Bytes → Lookup Char
  | [] | [_] | [_, _] | [_, _, _] => .more
  | [a, b, c, d] =>
      if big then
        utf32Char (a.toNat * 16777216 + b.toNat * 65536 + c.toNat * 256 + d.toNat)
      else utf32Char (d.toNat * 16777216 + c.toNat * 65536 + b.toNat * 256 + a.toNat)
  | _ => .bad

theorem utf32Look_code (big : Bool) (c : Char) : utf32Look big (utf32Bytes big c) = .found c := by
  have hvalid := toNat_valid c
  have hchar : ∀ v, v = c.toNat → utf32Char v = .found c := by
    rintro v rfl
    rw [utf32Char, if_pos hvalid, Char.ofNat_toNat]
  have hbytes : ∀ n, n < 256 → (UInt8.ofNat n).toNat = n := by
    intro n hn
    rw [UInt8.toNat_ofNat', Nat.mod_eq_of_lt hn]
  cases big with
  | false =>
      simp only [utf32Bytes, ordered, Bool.false_eq_true, if_false, List.map_cons, List.map_nil,
        utf32Look]
      apply hchar
      rw [hbytes _ (by omega), hbytes _ (by omega), hbytes _ (by omega), hbytes _ (by omega)]
      omega
  | true =>
      simp only [utf32Bytes, ordered, if_true, List.reverse_cons, List.reverse_nil,
        List.nil_append, List.cons_append, List.map_cons, List.map_nil, utf32Look]
      apply hchar
      rw [hbytes _ (by omega), hbytes _ (by omega), hbytes _ (by omega), hbytes _ (by omega)]
      omega

theorem utf32Look_take (big : Bool) (c : Char) (n : Nat) (hn : n < (utf32Bytes big c).length) :
    utf32Look big ((utf32Bytes big c).take n) = .more := by
  have hlength : (utf32Bytes big c).length = 4 := by cases big <;> rfl
  rw [hlength] at hn
  have htake : ((utf32Bytes big c).take n).length = n := by
    rw [List.length_take]
    omega
  match (utf32Bytes big c).take n, htake with
  | [], _ => rfl
  | [_], _ => rfl
  | [_, _], _ => rfl
  | [_, _, _], _ => rfl
  | _ :: _ :: _ :: _ :: _, h =>
      simp only [List.length_cons] at h
      omega

/-- The code of UTF-32 in a byte order. -/
def utf32Code (big : Bool) : PrefixCode Char where
  code c := some (utf32Bytes big c)
  look := utf32Look big
  code_ne_nil := by
    rintro c b ⟨rfl⟩ hnil
    have hlook := utf32Look_code big c
    rw [hnil] at hlook
    cases hlook
  look_code := by
    rintro c b ⟨rfl⟩
    exact utf32Look_code big c
  look_take := by
    rintro c b ⟨rfl⟩
    exact utf32Look_take big c

end Utf32

section Charmap
variable (table : UInt8 → Option Char)

/-- The last byte of a decoding table that stands for a character. -/
def charmapByte (c : Char) : Option UInt8 :=
  ((List.range 256).reverse.map UInt8.ofNat).find? fun b => table b = some c

/-- The code of a character map: a byte for each of its characters. -/
def charmapCode : PrefixCode Char where
  code c := (charmapByte table c).map fun b => [b]
  look
    | [] => .more
    | [b] =>
        match table b with
        | some c => .found c
        | none => .bad
    | _ => .bad
  code_ne_nil := by
    intro c b h
    obtain ⟨x, -, rfl⟩ := Option.map_eq_some_iff.mp h
    simp
  look_code := by
    intro c b h
    obtain ⟨x, hx, rfl⟩ := Option.map_eq_some_iff.mp h
    have htable : table x = some c := by simpa using List.find?_some hx
    simp [htable]
  look_take := by
    intro c b h n hn
    obtain ⟨x, -, rfl⟩ := Option.map_eq_some_iff.mp h
    obtain rfl : n = 0 := by simpa using hn
    rfl

end Charmap

/-- U+FEFF, whose code is the signature of an encoding. -/
def byteOrderMark : Char := Char.ofNat 0xFEFF

/-- UTF-8-SIG passes over its signature, and reads a stream without it as UTF-8. -/
def utf8Opening (seen : Bytes) : Opening Unit :=
  if seen = [0xEF, 0xBB, 0xBF] then .signature ()
  else if seen <+: [0xEF, 0xBB, 0xBF] then .wait
  else .text ()

/-- UTF-16 takes its byte order from the signature, which must not be missing. -/
def utf16Opening (seen : Bytes) : Opening Bool :=
  if seen.length < 2 then .wait
  else if seen = [0xFF, 0xFE] then .signature false
  else if seen = [0xFE, 0xFF] then .signature true
  else .bad

/-- UTF-32 does the same. -/
def utf32Opening (seen : Bytes) : Opening Bool :=
  if seen.length < 4 then .wait
  else if seen = [0xFF, 0xFE, 0x00, 0x00] then .signature false
  else if seen = [0x00, 0x00, 0xFE, 0xFF] then .signature true
  else .bad

def utf8 : Codec Char Bytes := utf8Code.plain

def utf8Sig : Codec Char (Place Unit) :=
  signed (fun _ => utf8Code) utf8Opening () byteOrderMark [0xEF, 0xBB, 0xBF] rfl rfl

/-- The byte order that `utf-16` writes is that of the machine. -/
def utf16 (big : Bool) : Codec Char (Place Bool) :=
  signed utf16Code utf16Opening big byteOrderMark (utf16Bytes big byteOrderMark) rfl
    (by cases big <;> rfl)

def utf32 (big : Bool) : Codec Char (Place Bool) :=
  signed utf32Code utf32Opening big byteOrderMark (utf32Bytes big byteOrderMark) rfl
    (by cases big <;> rfl)

/-- `utf-16-le` and `utf-16-be`. -/
def utf16Plain (big : Bool) : Codec Char Bytes := (utf16Code big).plain

/-- `utf-32-le` and `utf-32-be`. -/
def utf32Plain (big : Bool) : Codec Char Bytes := (utf32Code big).plain

def charmap (table : UInt8 → Option Char) : Codec Char Bytes := (charmapCode table).plain

end Anyio.Library
