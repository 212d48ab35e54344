import Anyio.Library.Bytes

/-!
# Text encodings with incremental decoders

A decoder reads one byte after another and gives the characters that are
complete. A prefix code maps each character to bytes that no other code begins
with, so a decoder that keeps the bytes of an unfinished character reads a
concatenation of codes back. An encoding may write a signature before every
text; the decoder passes over the first one and takes it for text afterwards.

## Implementation notes

An encoding may fail to read back what it writes: some character sets write two
characters with the same bytes. `readBack` says what is read instead, character
for character.
-/

namespace Anyio.Library

variable {α σ ι : Type*}

/-- Read bytes one by one; `none` is a decoding error. -/
def decode (feed : σ → UInt8 → Option (List α × σ)) : σ → Bytes → Option (List α × σ)
  | st, [] => some ([], st)
  | st, b :: rest =>
      (feed st b).bind fun r => (decode feed r.2 rest).map fun q => (r.1 ++ q.1, q.2)

section Decode
variable {feed : σ → UInt8 → Option (List α × σ)} {st : σ}

/-- Reading in pieces and reading at once is the same. -/
theorem decode_append (feed : σ → UInt8 → Option (List α × σ)) (st : σ) (a b : Bytes) :
    decode feed st (a ++ b) =
      (decode feed st a).bind fun r => (decode feed r.2 b).map fun q => (r.1 ++ q.1, q.2) := by
  induction a generalizing st with
  | nil =>
      simp only [List.nil_append, decode, Option.bind_some]
      cases decode feed st b <;> rfl
  | cons x rest ih =>
      simp only [List.cons_append, decode]
      cases feed st x with
      | none => rfl
      | some r =>
          simp only [Option.bind_some, ih]
          cases decode feed r.2 rest with
          | none => rfl
          | some q => cases h : decode feed q.2 b <;> simp [h]

theorem decode_append_of_eq {a b : Bytes} {x y : List α} {st' st'' : σ}
    (ha : decode feed st a = some (x, st')) (hb : decode feed st' b = some (y, st'')) :
    decode feed st (a ++ b) = some (x ++ y, st'') := by
  simp [decode_append, ha, hb]

/-- The bytes before a point are read without an error if all of them are. -/
theorem decode_split {a b : Bytes} {text : List α} {st' : σ}
    (h : decode feed st (a ++ b) = some (text, st')) :
    ∃ x mid y, decode feed st a = some (x, mid) ∧ decode feed mid b = some (y, st') ∧
      text = x ++ y := by
  rw [decode_append] at h
  obtain ⟨⟨x, mid⟩, ha, hrest⟩ := Option.bind_eq_some_iff.mp h
  obtain ⟨⟨y, last⟩, hb, he⟩ := Option.map_eq_some_iff.mp hrest
  cases he
  exact ⟨x, mid, y, ha, hb, rfl⟩

end Decode

/-- An encoding: what it writes for a text after its signature (`none` is an encoding error),
the signature, and its decoder. Between two texts the decoder is `Neutral`. -/
structure Codec (α σ : Type*) where
  encode : List α → Option Bytes
  mark : Bytes
  start : σ
  feed : σ → UInt8 → Option (List α × σ)
  Neutral : σ → Prop
  readBack : List α → List α
  markText : List α
  start_reads : ∀ {text b}, encode text = some b →
    ∃ st, Neutral st ∧ decode feed start (mark ++ b) = some (readBack text, st)
  neutral_reads : ∀ {st text b}, Neutral st → encode text = some b →
    ∃ st', Neutral st' ∧ decode feed st b = some (readBack text, st')
  neutral_reads_mark : ∀ {st}, Neutral st →
    ∃ st', Neutral st' ∧ decode feed st mark = some (markText, st')
  length_readBack : ∀ text, (readBack text).length = text.length
  markText_eq_nil : markText = [] ↔ mark = []

namespace Codec

variable (c : Codec α σ)

/-- What the stateless encoder writes for a text. -/
def write (text : List α) : Option Bytes := (c.encode text).map fun b => c.mark ++ b

/-- What the decoder makes of texts that are written one after another. -/
def joined : List (List α) → List α
  | [] => []
  | first :: rest => c.readBack first ++ (rest.map fun text => c.markText ++ c.readBack text).flatten

variable {c}

/-- A decoder that has read a text reads another one with its signature. -/
theorem neutral_reads_write {st : σ} {text : List α} {b : Bytes} (hst : c.Neutral st)
    (hb : c.write text = some b) :
    ∃ st', c.Neutral st' ∧ decode c.feed st b = some (c.markText ++ c.readBack text, st') := by
  obtain ⟨payload, hpayload, rfl⟩ := Option.map_eq_some_iff.mp hb
  obtain ⟨mid, hmid, hmark⟩ := c.neutral_reads_mark hst
  obtain ⟨st', hst', hread⟩ := c.neutral_reads hmid hpayload
  exact ⟨st', hst', decode_append_of_eq hmark hread⟩

theorem neutral_reads_writes {st : σ} {texts : List (List α)} {stream : List Bytes}
    (hst : c.Neutral st) (hw : texts.map c.write = stream.map some) :
    ∃ st', c.Neutral st' ∧ decode c.feed st stream.flatten =
      some ((texts.map fun text => c.markText ++ c.readBack text).flatten, st') := by
  induction texts generalizing st stream with
  | nil =>
      obtain rfl : stream = [] := by simpa using hw.symm
      exact ⟨st, hst, rfl⟩
  | cons text rest ih =>
      cases stream with
      | nil => simp at hw
      | cons b stream =>
          simp only [List.map_cons, List.cons.injEq] at hw
          obtain ⟨mid, hmid, hread⟩ := neutral_reads_write hst hw.1
          obtain ⟨st', hst', hrest⟩ := ih hmid hw.2
          exact ⟨st', hst', decode_append_of_eq hread hrest⟩

/-- The texts that are written one after another are read as one. -/
theorem reads_joined {texts : List (List α)} {stream : List Bytes}
    (hw : texts.map c.write = stream.map some) :
    ∃ st, decode c.feed c.start stream.flatten = some (c.joined texts, st) := by
  cases texts with
  | nil =>
      obtain rfl : stream = [] := by simpa using hw.symm
      exact ⟨c.start, rfl⟩
  | cons text rest =>
      cases stream with
      | nil => simp at hw
      | cons b stream =>
          simp only [List.map_cons, List.cons.injEq] at hw
          obtain ⟨payload, hpayload, rfl⟩ := Option.map_eq_some_iff.mp hw.1
          obtain ⟨mid, hmid, hfirst⟩ := c.start_reads hpayload
          obtain ⟨st, -, hrest⟩ := neutral_reads_writes hmid hw.2
          exact ⟨st, decode_append_of_eq hfirst hrest⟩

theorem length_joined_tail (rest : List (List α)) :
    (rest.map fun text => c.markText ++ c.readBack text).flatten.length =
      rest.flatten.length + rest.length * c.markText.length := by
  induction rest with
  | nil => simp
  | cons text rest ih =>
      simp only [List.map_cons, List.flatten_cons, List.length_append, ih, c.length_readBack,
        List.length_cons]
      ring

/-- Texts that are read back with the same lengths are read back one by one. -/
theorem readBack_of_flatten_eq {texts : List (List α)}
    (h : (texts.map c.readBack).flatten = texts.flatten) :
    ∀ text ∈ texts, c.readBack text = text := by
  induction texts with
  | nil => simp
  | cons text rest ih =>
      obtain ⟨hhead, htail⟩ := List.append_inj h (c.length_readBack text)
      simpa [hhead] using ih htail

/-- What is read is what was written if and only if the signature is written once at most, or is
empty, and each text is read back. -/
theorem joined_eq_flatten_iff (texts : List (List α)) :
    c.joined texts = texts.flatten ↔
      (c.mark = [] ∨ texts.length ≤ 1) ∧ ∀ text ∈ texts, c.readBack text = text := by
  cases texts with
  | nil => simp [joined]
  | cons first rest =>
      have hlength := c.length_readBack first
      constructor
      · intro h
        have hcount := congrArg List.length h
        simp only [joined, List.length_append, List.flatten_cons, length_joined_tail,
          hlength] at hcount
        have hzero : rest.length * c.markText.length = 0 := by omega
        obtain ⟨hfirst, hrest⟩ := List.append_inj h hlength
        rcases Nat.mul_eq_zero.mp hzero with hnone | hmark
        · obtain rfl := List.length_eq_zero_iff.mp hnone
          exact ⟨.inr (by simp), by simpa using hfirst⟩
        · have hmark := List.length_eq_zero_iff.mp hmark
          refine ⟨.inl (c.markText_eq_nil.mp hmark), ?_⟩
          simp only [hmark, List.nil_append] at hrest
          simpa [hfirst] using readBack_of_flatten_eq hrest
      · rintro ⟨hmark, hread⟩
        have hfirst := hread first List.mem_cons_self
        have hrest : (rest.map fun text => c.markText ++ c.readBack text) = rest := by
          rcases hmark with hmark | hone
          · have hid : ∀ text ∈ rest, c.markText ++ c.readBack text = id text := by
              intro text htext
              rw [c.markText_eq_nil.mpr hmark, List.nil_append]
              exact hread text (List.mem_cons_of_mem first htext)
            rw [List.map_congr_left hid, List.map_id]
          · obtain rfl : rest = [] := by simpa using hone
            rfl
        simp [joined, hfirst, hrest]

end Codec

/-- What the bytes since the last character may be: the start of a code, a code, or neither. -/
inductive Lookup (α : Type*)
  | more
  | found (c : α)
  | bad
  deriving DecidableEq, Repr

/-- A code for characters, `none` for those that it lacks, with its decoding table. No code
begins with another one. -/
structure PrefixCode (α : Type*) where
  code : α → Option Bytes
  look : Bytes → Lookup α
  code_ne_nil : ∀ {c b}, code c = some b → b ≠ []
  look_code : ∀ {c b}, code c = some b → look b = .found c
  look_take : ∀ {c b}, code c = some b → ∀ n < b.length, look (b.take n) = .more

namespace PrefixCode

variable (p : PrefixCode α)

def encode : List α → Option Bytes
  | [] => some []
  | c :: rest => (p.code c).bind fun b => (encode rest).map fun bs => b ++ bs

/-- Read a byte after those of an unfinished character. -/
def feed (buffer : Bytes) (b : UInt8) : Option (List α × Bytes) :=
  match p.look (buffer ++ [b]) with
  | .more => some ([], buffer ++ [b])
  | .found c => some ([c], [])
  | .bad => none

variable {p}

/-- The rest of a code completes its character. -/
theorem decode_rest {c : α} {code buffer rest : Bytes} (hcode : p.code c = some code)
    (h : buffer ++ rest = code) (hne : rest ≠ []) :
    decode p.feed buffer rest = some ([c], []) := by
  induction rest generalizing buffer with
  | nil => exact absurd rfl hne
  | cons b rest ih =>
      cases rest with
      | nil =>
          have hlook : p.look (buffer ++ [b]) = .found c := by
            rw [h]
            exact p.look_code hcode
          simp [decode, feed, hlook]
      | cons b' rest =>
          have htake : buffer ++ [b] = code.take (buffer.length + 1) := by
            rw [← h]
            simp [List.take_append]
          have hlt : buffer.length + 1 < code.length := by
            rw [← h]
            simp
          have hlook : p.look (buffer ++ [b]) = .more := by
            rw [htake]
            exact p.look_take hcode _ hlt
          have hmid : (buffer ++ [b]) ++ b' :: rest = code := by simpa using h
          have hrest := ih hmid (List.cons_ne_nil b' rest)
          rw [decode, feed, hlook]
          simpa using hrest

theorem decode_encode {text : List α} {b : Bytes} (h : p.encode text = some b) :
    decode p.feed [] b = some (text, []) := by
  induction text generalizing b with
  | nil =>
      cases h
      rfl
  | cons c rest ih =>
      obtain ⟨code, hcode, h⟩ := Option.bind_eq_some_iff.mp h
      obtain ⟨bs, hrest, rfl⟩ := Option.map_eq_some_iff.mp h
      have hfirst := decode_rest hcode (List.nil_append code) (p.code_ne_nil hcode)
      exact decode_append_of_eq hfirst (ih hrest)

variable (p)

/-- The encoding that writes codes and no signature. -/
def plain : Codec α Bytes where
  encode := p.encode
  mark := []
  start := []
  feed := p.feed
  Neutral := fun buffer => buffer = []
  readBack := id
  markText := []
  start_reads h := ⟨[], rfl, decode_encode h⟩
  neutral_reads := by
    rintro st text b rfl h
    exact ⟨[], rfl, decode_encode h⟩
  neutral_reads_mark := by
    rintro st rfl
    exact ⟨[], rfl, rfl⟩
  length_readBack _ := rfl
  markText_eq_nil := by simp

end PrefixCode

/-- What the first bytes of a stream decide: to wait for more, to pass over them and read in an
order, or to read them as text. -/
inductive Opening (ι : Type*)
  | wait
  | signature (order : ι)
  | text (order : ι)
  | bad
  deriving DecidableEq, Repr

/-- A decoder that has not decided yet, or that reads in an order. -/
inductive Place (ι : Type*)
  | first (seen : Bytes)
  | reading (order : ι) (buffer : Bytes)
  deriving DecidableEq, Repr

section Signed
variable (codes : ι → PrefixCode α) (opening : Bytes → Opening ι)

/-- Read a byte where the start of the stream may have a signature. -/
def feedSigned : Place ι → UInt8 → Option (List α × Place ι)
  | .first seen, b =>
      match opening (seen ++ [b]) with
      | .wait => some ([], .first (seen ++ [b]))
      | .signature order => some ([], .reading order [])
      | .text order =>
          (decode (codes order).feed [] (seen ++ [b])).map fun r => (r.1, .reading order r.2)
      | .bad => none
  | .reading order buffer, b => ((codes order).feed buffer b).map fun r => (r.1, .reading order r.2)

variable {codes opening}

theorem decode_reading (order : ι) (buffer bytes : Bytes) :
    decode (feedSigned codes opening) (.reading order buffer) bytes =
      (decode (codes order).feed buffer bytes).map fun r => (r.1, .reading order r.2) := by
  induction bytes generalizing buffer with
  | nil => rfl
  | cons b rest ih =>
      simp only [decode, feedSigned]
      cases (codes order).feed buffer b with
      | none => rfl
      | some r =>
          simp only [Option.map_some, Option.bind_some, ih]
          cases decode (codes order).feed r.2 rest <;> rfl

theorem decode_reading_encode {order : ι} {text : List α} {b : Bytes}
    (h : (codes order).encode text = some b) :
    decode (feedSigned codes opening) (.reading order []) b = some (text, .reading order []) := by
  rw [decode_reading, PrefixCode.decode_encode h]
  rfl

variable (codes opening)

/-- The encoding that writes a signature before every text, with the character that has the
signature for its code. -/
def signed (order : ι) (signature : α) (mark : Bytes)
    (hmark : (codes order).code signature = some mark)
    (hopening : decode (feedSigned codes opening) (.first []) mark = some ([], .reading order [])) :
    Codec α (Place ι) where
  encode := (codes order).encode
  mark := mark
  start := .first []
  feed := feedSigned codes opening
  Neutral := fun place => place = .reading order []
  readBack := id
  markText := [signature]
  start_reads h := ⟨_, rfl, decode_append_of_eq hopening (decode_reading_encode h)⟩
  neutral_reads := by
    rintro st text b rfl h
    exact ⟨_, rfl, decode_reading_encode h⟩
  neutral_reads_mark := by
    rintro st rfl
    exact ⟨_, rfl, decode_reading_encode (by simp [PrefixCode.encode, hmark])⟩
  length_readBack _ := rfl
  markText_eq_nil := by simpa using (codes order).code_ne_nil hmark

end Signed

end Anyio.Library
