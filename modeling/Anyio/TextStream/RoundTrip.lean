import Anyio.Library.Unicode
import Anyio.TextStream.Model

/-!
# What a text stream reads of what was sent

The texts that were returned are what the decoder makes of the bytes consumed so
far, which are the beginning of what the encoder wrote. When all bytes are
consumed, the result is the text that was sent, unless the signature of a second
item stands between two items: the decoder has its start behind it by then.
-/

namespace Anyio.TextStream

open Library

/-- The items that were sent and the texts that were returned. -/
structure History (α : Type*) where
  sent : List (List α)
  returned : List (List α)
  deriving DecidableEq, Repr

def History.empty {α : Type*} : History α := ⟨[], []⟩

variable {α σ : Type*}

def record (h : History α) (_ : State σ) (a : Action α) (o : Answer α) : History α :=
  match a, o with
  | .send item, .returned _ => { h with sent := h.sent ++ [item] }
  | .chunk _, .returned (some text) => { h with returned := h.returned ++ [text] }
  | _, _ => h

abbrev recorded (codec : Codec α σ) : Machine (State σ × History α) (Action α) (Answer α) :=
  (machine codec).withHistory record

/-- The bytes written are those consumed and those on their way, and the decoder has made the
returned texts of those consumed. -/
structure Reads (codec : Codec α σ) (s : State σ) (h : History α) (stream : List Bytes)
    (consumed : Bytes) : Prop where
  written : h.sent.map codec.write = stream.map some
  split : stream.flatten = consumed ++ s.inFlight
  decoded : decode codec.feed codec.start consumed = some (h.returned.flatten, s.decoder)
  nonempty : ∀ text ∈ h.returned, text ≠ []

variable {codec : Codec α σ} {s s' : State σ} {h : History α} {stream : List Bytes}
  {consumed : Bytes} {a : Action α} {o : Answer α}

/-- The next bytes are read without an error, as those before them were. -/
theorem Reads.next (hr : Reads codec s h stream consumed) (count : Nat) :
    ∃ text decoder, decode codec.feed s.decoder (s.inFlight.take count) = some (text, decoder) ∧
      decode codec.feed codec.start (consumed ++ s.inFlight.take count) =
        some (h.returned.flatten ++ text, decoder) := by
  obtain ⟨last, hall⟩ := Codec.reads_joined hr.written
  rw [hr.split] at hall
  obtain ⟨before, mid, after, hbefore, hafter, -⟩ := decode_split hall
  rw [hr.decoded] at hbefore
  cases hbefore
  rw [← List.take_append_drop count s.inFlight] at hafter
  obtain ⟨text, decoder, rest, htext, -, -⟩ := decode_split hafter
  exact ⟨text, decoder, htext, decode_append_of_eq hr.decoded htext⟩

theorem Reads.send (hr : Reads codec s h stream consumed) {item : List α} {encoded : Bytes}
    (hw : codec.write item = some encoded) :
    Reads codec { s with inFlight := s.inFlight ++ encoded }
      { h with sent := h.sent ++ [item] } (stream ++ [encoded]) consumed where
  written := by simp [hr.written, hw]
  split := by simp [hr.split]
  decoded := hr.decoded
  nonempty := hr.nonempty

/-- One step: what is sent is appended, and a chunk is moved from the transport to the texts. -/
theorem Reads.step (hr : Reads codec s h stream consumed)
    (hs : TextStream.step codec s a = some (s', o)) :
    ∃ stream consumed, Reads codec s' (record h s a o) stream consumed := by
  cases a with
  | send item =>
      simp only [TextStream.step, TextStream.send, Option.some.injEq] at hs
      cases hw : codec.write item with
      | none =>
          rw [hw] at hs
          cases hs
          exact ⟨stream, consumed, hr⟩
      | some encoded =>
          rw [hw] at hs
          cases hs
          exact ⟨_, consumed, hr.send hw⟩
  | receive =>
      obtain ⟨-, he⟩ := Option.ite_none_left_eq_some.mp hs
      cases he
      exact ⟨stream, consumed, hr.written, hr.split, hr.decoded, hr.nonempty⟩
  | chunk count =>
      obtain ⟨-, he⟩ := Option.ite_none_right_eq_some.mp hs
      obtain ⟨text, decoder, htext, hall⟩ := hr.next count
      have hsplit : stream.flatten =
          (consumed ++ s.inFlight.take count) ++ s.inFlight.drop count := by
        rw [hr.split, List.append_assoc, List.take_append_drop]
      refine ⟨stream, consumed ++ s.inFlight.take count, ?_⟩
      simp only [received, htext, Option.some.injEq] at he
      cases text with
      | nil =>
          cases he
          exact ⟨hr.written, hsplit, by simpa [record] using hall, hr.nonempty⟩
      | cons first rest =>
          cases he
          refine ⟨hr.written, hsplit, by simpa [record] using hall, ?_⟩
          intro text hmem
          rcases List.mem_append.mp hmem with hmem | hmem
          · exact hr.nonempty text hmem
          · rw [List.mem_singleton.mp hmem]
            simp

theorem reads_of_reachable
    (run : (recorded codec).Reachable Machine.anyStep (initial codec, .empty) (s, h)) :
    ∃ stream consumed, Reads codec s h stream consumed := by
  apply run.invariant_history (I := fun s h => ∃ stream consumed, Reads codec s h stream consumed)
  · exact ⟨[], [], rfl, rfl, rfl, by simp [History.empty]⟩
  · rintro s h a s' o ⟨stream, consumed, hr⟩ - hs
    exact hr.step hs

/-- In every run, whatever is sent and however the transport splits it: when all bytes are
consumed, the texts returned make up those sent if and only if the encoding has no signature or one
item was sent at most, and the encoding reads each item back; no text returned is empty; and no
`receive()` raises. -/
theorem text_round_trip
    (run : (recorded codec).Reachable Machine.anyStep (initial codec, .empty) (s, h)) :
    (s.inFlight = [] →
      (h.returned.flatten = h.sent.flatten ↔
        (codec.mark = [] ∨ h.sent.length ≤ 1) ∧
          ∀ item ∈ h.sent, codec.readBack item = item)) ∧
    (∀ text ∈ h.returned, text ≠ []) ∧
    ∀ count s' e, (machine codec).step s (.chunk count) ≠ some (s', .raised e) := by
  obtain ⟨stream, consumed, hr⟩ := reads_of_reachable run
  refine ⟨?_, hr.nonempty, ?_⟩
  · intro hempty
    obtain ⟨last, hall⟩ := Codec.reads_joined hr.written
    have hconsumed : stream.flatten = consumed := by rw [hr.split, hempty, List.append_nil]
    rw [hconsumed, hr.decoded] at hall
    have hjoined : h.returned.flatten = codec.joined h.sent :=
      congrArg Prod.fst (Option.some.inj hall)
    rw [hjoined]
    exact Codec.joined_eq_flatten_iff h.sent
  · intro count s' e hs
    obtain ⟨-, he⟩ := Option.ite_none_right_eq_some.mp hs
    obtain ⟨text, decoder, htext, -⟩ := hr.next count
    simp only [received, htext, Option.some.injEq] at he
    cases text with
    | nil => cases he
    | cons first rest => cases he

/-- Two items in UTF-8, the character of the second split in two. -/
def splitUtf8 : State Bytes × History Char :=
  ((recorded utf8).exec Machine.anyStep (initial utf8, .empty)
    [.send ['a'], .send ['ö'], .receive, .chunk 2, .receive, .chunk 1]).get (by decide)

theorem text_round_trip_utf8 :
    splitUtf8.2.returned = [['a'], ['ö']] ∧
      splitUtf8.2.returned.flatten = splitUtf8.2.sent.flatten := by
  have run : (recorded utf8).Reachable Machine.anyStep (initial utf8, .empty) splitUtf8 :=
    Machine.exec_get_reachable _ _ _
  obtain ⟨hround, -, -⟩ := text_round_trip (s := splitUtf8.1) (h := splitUtf8.2) run
  exact ⟨by decide, (hround (by decide)).mpr ⟨.inl rfl, fun _ _ => rfl⟩⟩

/-- Two items in UTF-16, received at once. -/
def twiceUtf16 : State (Place Bool) × History Char :=
  ((recorded (utf16 false)).exec Machine.anyStep (initial (utf16 false), .empty)
    [.send ['a'], .send ['b'], .receive, .chunk 8]).get (by decide)

/-- The byte order mark of the second item is read as a character. -/
theorem text_not_round_trip :
    twiceUtf16.2.returned = [['a', byteOrderMark, 'b']] ∧
    ¬ ∀ (s : State (Place Bool)) (h : History Char),
      (recorded (utf16 false)).Reachable Machine.anyStep (initial (utf16 false), .empty) (s, h) →
      s.inFlight = [] → h.returned.flatten = h.sent.flatten := by
  refine ⟨by decide, ?_⟩
  intro hclaim
  have run : (recorded (utf16 false)).Reachable Machine.anyStep
      (initial (utf16 false), .empty) twiceUtf16 := Machine.exec_get_reachable _ _ _
  exact absurd (hclaim twiceUtf16.1 twiceUtf16.2 run (by decide)) (by decide)

end Anyio.TextStream
