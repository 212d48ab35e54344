import Anyio.BufferedByteReceiveStream.Model

/-!
# What `receive_until()` finds

However the bytes are cut into chunks, `receive_until()` stops at the first
occurrence of the delimiter, and it gives up only on bytes in which there is
none.
-/

namespace Anyio.BufferedByteReceiveStream

open Library

/-- Give a call the chunks that it waits for, one after the other. -/
def feed (r : State × Answer) : List Bytes → Option (State × Answer)
  | [] => some r
  | chunk :: rest =>
      if r.1.point.inReceive then (step r.1 (.arrives chunk)).bind fun r' => feed r' rest
      else some r

/-- The wrapped stream ends under a call that still waits. -/
def feedEnd (r : State × Answer) : Option (State × Answer) :=
  if r.1.point.inReceive then step r.1 (.fails .endOfStream) else some r

/-- `receive_until()` around a stream that gives these chunks, and ends after them or gives
nothing more for now. -/
def receiveUntilOn (s : State) (delimiter : Bytes) (maxBytes : Int) (chunks : List Bytes)
    (ends : Bool) : Option (State × Answer) :=
  (step s (.receiveUntil delimiter maxBytes)).bind fun r =>
    (feed r chunks).bind fun r' => if ends then feedEnd r' else some r'

/-- The delimiter begins nowhere in the bytes. -/
def Absent (delimiter bytes : Bytes) : Prop := ∀ j, ¬ OccursAt delimiter bytes j

variable {s : State} {r r' : State × Answer} {delimiter seen more : Bytes} {maxBytes : Int}
  {offset : Nat} {chunks : List Bytes}

theorem Absent.take (h : Absent delimiter seen) (n : Nat) : Absent delimiter (seen.take n) :=
  fun j hj => h j (occursAt_take.mp hj).1

/-- Where a call stands that has the bytes `seen` at hand. -/
inductive Searched (delimiter : Bytes) (maxBytes : Int) (seen : Bytes) : State × Answer → Prop
  | found {s : State} {result : Bytes} (hpoint : s.point = .outside)
      (hstart : result ++ delimiter <+: seen)
      (hfirst : ∀ j < result.length, ¬ OccursAt delimiter seen j) :
      Searched delimiter maxBytes seen (s, .returned (some result))
  | full {s : State} (hpoint : s.point = .outside) (hfull : maxBytes ≤ seen.length)
      (absent : Absent delimiter (seen.take maxBytes.toNat)) :
      Searched delimiter maxBytes seen (s, .raised (.delimiterNotFound maxBytes))
  | waiting {s : State} {offset : Nat}
      (hpoint : s.point = .receivingUntil delimiter maxBytes offset) (hbuffer : s.buffer = seen)
      (hroom : seen.length < maxBytes) (absent : Absent delimiter seen) :
      Searched delimiter maxBytes seen (s, .suspended s.point)

/-- Bytes behind the ones at hand do not matter to a call that is over. -/
theorem Searched.append (h : Searched delimiter maxBytes seen r) (more : Bytes)
    (hover : r.1.point.inReceive = false) : Searched delimiter maxBytes (seen ++ more) r := by
  cases h with
  | found hpoint hstart hfirst =>
      apply Searched.found hpoint (hstart.trans (List.prefix_append _ _))
      intro j hj hoccurs
      have hlength := hstart.length_le
      rw [List.length_append] at hlength
      exact hfirst j hj (occursAt_of_append hoccurs (by omega))
  | full hpoint hfull absent =>
      apply Searched.full hpoint
      · rw [List.length_append]
        omega
      · rwa [List.take_append_of_le_length (by omega)]
  | waiting hpoint => simp [hpoint, Point.inReceive] at hover

/-- One round of the loop, when the delimiter does not begin before the offset. -/
theorem searched_receiveUntil (s : State)
    (hoffset : ∀ j < offset, ¬ OccursAt delimiter s.buffer j) :
    Searched delimiter maxBytes s.buffer (receiveUntil s delimiter maxBytes offset) := by
  rw [receiveUntil]
  cases hfind : find delimiter s.buffer offset with
  | some index =>
      obtain ⟨-, hoccurs, hfirst⟩ := find_eq_some_iff.mp hfind
      refine .found rfl ?_ ?_
      · exact ⟨s.buffer.drop (index + delimiter.length), hoccurs.split⟩
      · rw [List.length_take_of_le hoccurs.1]
        intro j hj
        by_cases hj' : j < offset
        · exact hoffset j hj'
        · exact hfirst j (not_lt.mp hj') hj
  | none =>
      have absent : Absent delimiter s.buffer := by
        intro j
        by_cases hj : j < offset
        · exact hoffset j hj
        · exact find_eq_none_iff.mp hfind j (not_lt.mp hj)
      dsimp only
      split_ifs with hfull
      · exact .full rfl hfull (absent.take _)
      · exact .waiting rfl rfl (not_le.mp hfull) absent

/-- The new offset leaves out only places where the delimiter would have to lie in the old
buffer, which it does not. -/
theorem searched_arrive (hpoint : s.point = .receivingUntil delimiter maxBytes offset)
    (absent : Absent delimiter s.buffer) (chunk : Bytes) :
    Searched delimiter maxBytes (s.buffer ++ chunk) (arrive s chunk) := by
  simp only [arrive, hpoint]
  apply searched_receiveUntil { s with buffer := s.buffer ++ chunk }
  intro j hj hoccurs
  exact absent j (occursAt_of_append hoccurs (by omega))

/-- What a byte stream may answer to `receive()` with its default. -/
def Receivable (s : State) (chunks : List Bytes) : Prop :=
  s.isByteStream → ∀ chunk ∈ chunks, chunk.length ≤ 65536

theorem isByteStream_receiveUntil (s : State) (delimiter : Bytes) (maxBytes : Int) (offset : Nat) :
    (receiveUntil s delimiter maxBytes offset).1.isByteStream = s.isByteStream := by
  rw [receiveUntil]
  cases find delimiter s.buffer offset with
  | some index => rfl
  | none =>
      dsimp only
      split_ifs <;> rfl

/-- Feeding a call brings all the chunks into sight. -/
theorem Searched.feed (h : Searched delimiter maxBytes seen r) (ok : Receivable r.1 chunks) :
    ∃ r', BufferedByteReceiveStream.feed r chunks = some r' ∧
      Searched delimiter maxBytes (seen ++ chunks.flatten) r' := by
  induction chunks generalizing r seen with
  | nil => exact ⟨r, rfl, by simpa using h⟩
  | cons chunk rest ih =>
      rw [BufferedByteReceiveStream.feed, List.flatten_cons]
      by_cases hwaits : r.1.point.inReceive = true
      · cases h with
        | found hpoint => simp [hpoint, Point.inReceive] at hwaits
        | full hpoint => simp [hpoint, Point.inReceive] at hwaits
        | @waiting s offset hpoint hbuffer _ absent =>
            subst hbuffer
            have hstep : step s (.arrives chunk) = some (arrive s chunk) := by
              rw [step, if_pos]
              refine ⟨hwaits, fun hbyte => ?_⟩
              have hlength := ok hbyte chunk List.mem_cons_self
              simp only [asked, hpoint]
              exact_mod_cast hlength
            have hkind : (arrive s chunk).1.isByteStream = s.isByteStream := by
              simp only [arrive, hpoint, isByteStream_receiveUntil]
            obtain ⟨r', hfeed, hr'⟩ := ih (searched_arrive hpoint absent chunk) fun hbyte c hc =>
              ok (hkind.symm.trans hbyte) c (List.mem_cons_of_mem _ hc)
            rw [if_pos hwaits, hstep, ← List.append_assoc]
            exact ⟨r', hfeed, hr'⟩
      · rw [if_neg hwaits]
        exact ⟨r, rfl, h.append _ (Bool.eq_false_iff.mpr hwaits)⟩

/-- The answers of a call that has all the bytes, or as many as it asked for. -/
theorem Searched.feedEnd (h : Searched delimiter maxBytes seen r) :
    ∃ r', BufferedByteReceiveStream.feedEnd r = some r' ∧ r'.1.point = .outside ∧
      (Searched delimiter maxBytes seen r' ∨
        r'.2 = .raised .incompleteRead ∧ Absent delimiter seen) := by
  rw [BufferedByteReceiveStream.feedEnd]
  cases h with
  | found hpoint hstart hfirst =>
      rw [if_neg (by simp [hpoint, Point.inReceive])]
      exact ⟨_, rfl, hpoint, .inl (.found hpoint hstart hfirst)⟩
  | full hpoint hfull absent =>
      rw [if_neg (by simp [hpoint, Point.inReceive])]
      exact ⟨_, rfl, hpoint, .inl (.full hpoint hfull absent)⟩
  | waiting hpoint hbuffer hroom absent =>
      rw [if_pos (by simp [hpoint, Point.inReceive]), step, if_neg (by simp [hpoint])]
      exact ⟨_, rfl, rfl, .inr ⟨by simp [raise, translate, hpoint], absent⟩⟩

/-- A call around a stream that gives the chunks gets to an answer, or waits for more. -/
theorem receiveUntilOn_spec (hs : s.point = .outside) (ok : Receivable s chunks)
    (delimiter : Bytes) (maxBytes : Int) (ends : Bool) :
    ∃ r, receiveUntilOn s delimiter maxBytes chunks ends = some r ∧
      (ends = true → r.1.point = .outside) ∧
      (Searched delimiter maxBytes (s.buffer ++ chunks.flatten) r ∨
        r.2 = .raised .incompleteRead ∧ Absent delimiter (s.buffer ++ chunks.flatten)) := by
  have first : Searched delimiter maxBytes s.buffer (receiveUntil s delimiter maxBytes 0) :=
    searched_receiveUntil s fun j hj => absurd hj j.not_lt_zero
  have hkind := isByteStream_receiveUntil s delimiter maxBytes 0
  obtain ⟨r, hfeed, hr⟩ := first.feed fun hbyte => ok (hkind.symm.trans hbyte)
  rw [receiveUntilOn, step, if_pos hs, Option.bind_some, hfeed, Option.bind_some]
  cases ends with
  | false => exact ⟨r, rfl, fun h => absurd h (by simp), .inl hr⟩
  | true =>
      obtain ⟨r', hend, hover, hr'⟩ := hr.feedEnd
      exact ⟨r', hend, fun _ => hover, hr'⟩

/-- Whatever is in the buffer and however the wrapped stream cuts the bytes after it: a result
followed by the delimiter begins them, and the delimiter begins nowhere earlier; a call that has
the delimiter within its first `max_bytes` bytes returns; the call fails only for want of the
delimiter, and it is over when the stream ends. -/
theorem first_occurrence_found (hs : s.point = .outside) (ok : Receivable s chunks)
    (delimiter : Bytes) (maxBytes : Int) (ends : Bool) :
    ∃ s' o, receiveUntilOn s delimiter maxBytes chunks ends = some (s', o) ∧
      (∀ result, o = .returned (some result) →
        result ++ delimiter <+: s.buffer ++ chunks.flatten ∧
          ∀ j < result.length, ¬ OccursAt delimiter (s.buffer ++ chunks.flatten) j) ∧
      ((∃ j, OccursAt delimiter ((s.buffer ++ chunks.flatten).take maxBytes.toNat) j) →
        ∃ result, o = .returned (some result)) ∧
      (o = .raised .incompleteRead → ∀ j, ¬ OccursAt delimiter (s.buffer ++ chunks.flatten) j) ∧
      (∀ n, o = .raised (.delimiterNotFound n) →
        ∀ j, ¬ OccursAt delimiter ((s.buffer ++ chunks.flatten).take maxBytes.toNat) j) ∧
      (ends = true → s'.point = .outside ∧ ((∃ result, o = .returned (some result)) ∨
        o = .raised .incompleteRead ∨ o = .raised (.delimiterNotFound maxBytes))) := by
  obtain ⟨⟨s', o⟩, hrun, hover, hcases⟩ := receiveUntilOn_spec hs ok delimiter maxBytes ends
  refine ⟨s', o, hrun, ?_⟩
  have hnone : ∀ seen, Absent delimiter seen → ¬ ∃ j, OccursAt delimiter seen j :=
    fun _ absent hoccurs => absent _ hoccurs.choose_spec
  obtain hsearched | ⟨rfl, absent⟩ := hcases
  · cases hsearched with
    | found hpoint hstart hfirst =>
        refine ⟨?_, fun _ => ⟨_, rfl⟩, by simp, by simp, fun _ => ⟨hpoint, .inl ⟨_, rfl⟩⟩⟩
        intro result hresult
        cases hresult
        exact ⟨hstart, hfirst⟩
    | full hpoint _ absent =>
        exact ⟨by simp, fun hoccurs => absurd hoccurs (hnone _ absent), by simp,
          fun _ _ => absent, fun _ => ⟨hpoint, .inr (.inr rfl)⟩⟩
    | waiting hpoint _ _ absent =>
        refine ⟨by simp, fun hoccurs => absurd hoccurs (hnone _ (absent.take _)), by simp, by simp,
          fun hends => ?_⟩
        exact absurd (hover hends) (by simp [hpoint])
  · exact ⟨by simp, fun hoccurs => absurd hoccurs (hnone _ (absent.take _)), fun _ => absent,
      by simp, fun hends => ⟨hover hends, .inr (.inl rfl)⟩⟩

/-- A delimiter that overlaps itself, over chunks of one byte. -/
theorem first_occurrence_found_overlapping :
    receiveUntilOn (initial false) [0, 1, 0, 2] 6 [[0], [1], [0], [1], [0], [2], [7]] true =
        some (⟨false, [], false, .outside⟩, .returned (some [0, 1])) ∧
      ∃ s' o, receiveUntilOn (initial false) [0, 1, 0, 2] 6
          [[0], [1], [0], [1], [0], [2], [7]] true = some (s', o) ∧
        (∃ result, o = .returned (some result)) := by
  refine ⟨by decide +kernel, ?_⟩
  have hbyte : Receivable (initial false) [[0], [1], [0], [1], [0], [2], [7]] :=
    fun hkind => absurd hkind (by decide)
  obtain ⟨s', o, hrun, -, hreturns, -⟩ := first_occurrence_found (s := initial false) rfl hbyte
    [0, 1, 0, 2] 6 true
  exact ⟨s', o, hrun, hreturns ⟨2, by simp [initial, OccursAt]⟩⟩

end Anyio.BufferedByteReceiveStream
