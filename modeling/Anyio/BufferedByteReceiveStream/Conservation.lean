import Anyio.BufferedByteReceiveStream.Model

/-!
# Conservation of the byte stream

What the calls returned, with the delimiters that they consumed, followed by
the buffer is what the wrapped stream has given.
-/

namespace Anyio.BufferedByteReceiveStream

open Library

/-- What a run received from the wrapped stream, and what its calls returned, in order. The
delimiter that a successful `receive_until()` consumed stands after its result. -/
structure History where
  chunks : List Bytes
  results : List Bytes
  deriving DecidableEq, Repr

def History.empty : History := ⟨[], []⟩

/-- The delimiter of the call that makes or continues with the action. -/
def delimiterOf (s : State) : Action → Bytes
  | .receiveUntil delimiter _ => delimiter
  | .arrives _ =>
      match s.point with
      | .receivingUntil delimiter _ _ => delimiter
      | _ => []
  | _ => []

/-- The chunks that the wrapped stream gives in the step. -/
def chunksOf : Action → List Bytes
  | .arrives chunk => [chunk]
  | _ => []

/-- What an answer takes out of the stream. -/
def taken (delimiter : Bytes) : Answer → List Bytes
  | .returned (some result) => [result ++ delimiter]
  | _ => []

def record (h : History) (s : State) (a : Action) (o : Answer) : History where
  chunks := h.chunks ++ chunksOf a
  results := h.results ++ taken (delimiterOf s a) o

abbrev recorded : Machine (State × History) Action Answer := machine.withHistory record

variable {s : State} {r : State × Answer} {h : History} {a : Action}

/-- What is taken out and what stays in the buffer make up the bytes `before`. -/
def Conserves (delimiter before : Bytes) (r : State × Answer) : Prop :=
  (taken delimiter r.2).flatten ++ r.1.buffer = before

theorem conserves_suspend (s : State) (p : Point) (delimiter : Bytes) :
    Conserves delimiter s.buffer (suspend s p) :=
  rfl

theorem conserves_raise (s : State) (e : Error) (delimiter : Bytes) :
    Conserves delimiter s.buffer (raise s e) :=
  rfl

theorem conserves_takeBuffer (s : State) (n : Int) : Conserves [] s.buffer (takeBuffer s n) := by
  simp [Conserves, takeBuffer, taken]

theorem conserves_receive (s : State) (maxBytes : Int) :
    Conserves [] s.buffer (receive s maxBytes) := by
  rw [receive]
  split_ifs
  · exact conserves_raise s _ []
  · exact conserves_takeBuffer s maxBytes
  · exact conserves_suspend s _ []

/-- `receive()` awaits the wrapped stream only when the buffer is empty. -/
theorem conserves_received (hs : s.buffer = []) (maxBytes : Int) (chunk : Bytes) :
    Conserves [] (s.buffer ++ chunk) (received s maxBytes chunk) := by
  rw [received, hs]
  split_ifs <;> simp [Conserves, taken]

theorem conserves_receiveExactly (s : State) (nbytes : Int) :
    Conserves [] s.buffer (receiveExactly s nbytes) := by
  rw [receiveExactly]
  split_ifs
  · exact conserves_takeBuffer s nbytes
  · exact conserves_suspend s _ []

/-- The slices of `receive_until()` cut out exactly the delimiter that was found. -/
theorem conserves_receiveUntil (s : State) (delimiter : Bytes) (maxBytes : Int) (offset : Nat) :
    Conserves delimiter s.buffer (receiveUntil s delimiter maxBytes offset) := by
  rw [receiveUntil]
  cases hfind : find delimiter s.buffer offset with
  | some index =>
      obtain ⟨-, hoccurs, -⟩ := find_eq_some_iff.mp hfind
      simpa [Conserves, taken] using hoccurs.split
  | none =>
      dsimp only
      split_ifs
      · exact conserves_raise s _ delimiter
      · exact conserves_suspend s _ delimiter

/-- A suspended `receive()` found the buffer empty. -/
def Drained (s : State) : Prop :=
  ∀ maxBytes, s.point = .receiving maxBytes → s.buffer = []

theorem conserves_arrive (drained : Drained s) (hs : s.point.inReceive) (chunk : Bytes) :
    Conserves (delimiterOf s (.arrives chunk)) (s.buffer ++ chunk) (arrive s chunk) := by
  cases hp : s.point with
  | outside => simp [hp, Point.inReceive] at hs
  | closing => simp [hp, Point.inReceive] at hs
  | receiving maxBytes =>
      simpa [arrive, delimiterOf, hp] using conserves_received (drained maxBytes hp) maxBytes chunk
  | receivingExactly nbytes =>
      simpa [arrive, delimiterOf, hp] using
        conserves_receiveExactly { s with buffer := s.buffer ++ chunk } nbytes
  | receivingUntil delimiter maxBytes offset =>
      simpa [arrive, delimiterOf, hp] using
        conserves_receiveUntil { s with buffer := s.buffer ++ chunk } delimiter maxBytes
          (s.buffer.length + 1 - delimiter.length)

/-- Every step gives out and keeps what it found and what arrived. -/
theorem conserves_step (drained : Drained s) (hs : step s a = some r) :
    Conserves (delimiterOf s a) (s.buffer ++ (chunksOf a).flatten) r := by
  cases a with
  | receive maxBytes =>
      obtain ⟨-, ⟨⟩⟩ := Option.ite_none_right_eq_some.mp hs
      simpa [chunksOf, delimiterOf] using conserves_receive s maxBytes
  | receiveExactly nbytes =>
      obtain ⟨-, ⟨⟩⟩ := Option.ite_none_right_eq_some.mp hs
      simpa [chunksOf, delimiterOf] using conserves_receiveExactly s nbytes
  | receiveUntil delimiter maxBytes =>
      obtain ⟨-, ⟨⟩⟩ := Option.ite_none_right_eq_some.mp hs
      simpa [chunksOf, delimiterOf] using conserves_receiveUntil s delimiter maxBytes 0
  | aclose =>
      obtain ⟨-, ⟨⟩⟩ := Option.ite_none_right_eq_some.mp hs
      simpa [chunksOf, delimiterOf] using conserves_suspend s .closing []
  | arrives chunk =>
      obtain ⟨⟨hp, -⟩, ⟨⟩⟩ := Option.ite_none_right_eq_some.mp hs
      simpa [chunksOf] using conserves_arrive drained hp chunk
  | closes =>
      obtain ⟨-, ⟨⟩⟩ := Option.ite_none_right_eq_some.mp hs
      simp [Conserves, taken, chunksOf]
  | fails error =>
      obtain ⟨-, ⟨⟩⟩ := Option.ite_none_left_eq_some.mp hs
      simpa [chunksOf] using conserves_raise s (translate s.point error) _

theorem drained_of_outside (h : s.point = .outside) : Drained s := by
  intro maxBytes hp
  rw [h] at hp
  cases hp

theorem drained_takeBuffer (s : State) (n : Int) : Drained (takeBuffer s n).1 :=
  drained_of_outside rfl

theorem drained_receive (s : State) (maxBytes : Int) : Drained (receive s maxBytes).1 := by
  rw [receive]
  split_ifs with hclosed hbuffer
  · exact drained_of_outside rfl
  · exact drained_takeBuffer s maxBytes
  · exact fun _ _ => not_not.mp hbuffer

theorem drained_receiveExactly (s : State) (nbytes : Int) :
    Drained (receiveExactly s nbytes).1 := by
  rw [receiveExactly]
  split_ifs
  · exact drained_takeBuffer s nbytes
  · intro maxBytes hp
    cases hp

theorem drained_receiveUntil (s : State) (delimiter : Bytes) (maxBytes : Int) (offset : Nat) :
    Drained (receiveUntil s delimiter maxBytes offset).1 := by
  rw [receiveUntil]
  cases find delimiter s.buffer offset with
  | some index => exact drained_of_outside rfl
  | none =>
      dsimp only
      split_ifs
      · exact drained_of_outside rfl
      · intro maxBytes hp
        cases hp

theorem drained_arrive (hs : s.point.inReceive) (chunk : Bytes) : Drained (arrive s chunk).1 := by
  cases hp : s.point with
  | outside => simp [hp, Point.inReceive] at hs
  | closing => simp [hp, Point.inReceive] at hs
  | receiving maxBytes =>
      simp only [arrive, hp, received]
      split_ifs <;> exact drained_of_outside rfl
  | receivingExactly nbytes =>
      simpa only [arrive, hp] using
        drained_receiveExactly { s with buffer := s.buffer ++ chunk } nbytes
  | receivingUntil delimiter maxBytes offset =>
      simpa only [arrive, hp] using
        drained_receiveUntil { s with buffer := s.buffer ++ chunk } delimiter maxBytes
          (s.buffer.length + 1 - delimiter.length)

theorem drained_step (hs : step s a = some r) : Drained r.1 := by
  cases a with
  | receive maxBytes =>
      obtain ⟨-, ⟨⟩⟩ := Option.ite_none_right_eq_some.mp hs
      exact drained_receive s maxBytes
  | receiveExactly nbytes =>
      obtain ⟨-, ⟨⟩⟩ := Option.ite_none_right_eq_some.mp hs
      exact drained_receiveExactly s nbytes
  | receiveUntil delimiter maxBytes =>
      obtain ⟨-, ⟨⟩⟩ := Option.ite_none_right_eq_some.mp hs
      exact drained_receiveUntil s delimiter maxBytes 0
  | aclose =>
      obtain ⟨-, ⟨⟩⟩ := Option.ite_none_right_eq_some.mp hs
      exact fun _ hp => nomatch hp
  | arrives chunk =>
      obtain ⟨⟨hp, -⟩, ⟨⟩⟩ := Option.ite_none_right_eq_some.mp hs
      exact drained_arrive hp chunk
  | closes =>
      obtain ⟨-, ⟨⟩⟩ := Option.ite_none_right_eq_some.mp hs
      exact drained_of_outside rfl
  | fails error =>
      obtain ⟨-, ⟨⟩⟩ := Option.ite_none_left_eq_some.mp hs
      exact drained_of_outside rfl

/-- In every run, whatever the wrapped stream answers and however the calls end, the results of
the calls in order, each with the delimiter it consumed, followed by the buffer are the chunks
that the wrapped stream has given so far. -/
theorem stream_conserved {isByteStream : Bool}
    (run : recorded.Reachable Machine.anyStep (initial isByteStream, .empty) (s, h)) :
    h.results.flatten ++ s.buffer = h.chunks.flatten := by
  have inv : Drained s ∧ h.results.flatten ++ s.buffer = h.chunks.flatten := by
    refine run.invariant_history
      (I := fun s h => Drained s ∧ h.results.flatten ++ s.buffer = h.chunks.flatten)
      ⟨drained_of_outside rfl, rfl⟩ ?_
    rintro s h a s' o ⟨drained, heq⟩ - hs
    refine ⟨drained_step hs, ?_⟩
    have hstep := conserves_step drained hs
    calc (record h s a o).results.flatten ++ s'.buffer
        = h.results.flatten ++ ((taken (delimiterOf s a) o).flatten ++ s'.buffer) := by
          simp [record]
      _ = h.results.flatten ++ (s.buffer ++ (chunksOf a).flatten) := by rw [hstep]
      _ = (record h s a o).chunks.flatten := by
          rw [← List.append_assoc, heq, record, List.flatten_append]
  exact inv.2

/-- A line is found across two chunks of an object stream, the rest is read in two pieces, and a
last read fails. -/
def splitLine : State × History :=
  (recorded.exec Machine.anyStep (initial false, .empty)
    [.receiveUntil [0, 0] 10, .arrives [1, 2, 0], .arrives [0, 3], .receive 1, .receive 2,
      .arrives [4, 5, 6], .receiveExactly 3, .fails .endOfStream]).get (by decide)

theorem stream_conserved_split :
    ∃ s h, recorded.Reachable Machine.anyStep (initial false, .empty) (s, h) ∧
      h.results = [[1, 2, 0, 0], [3], [4, 5]] ∧
      h.results.flatten ++ s.buffer = h.chunks.flatten := by
  have run : recorded.Reachable Machine.anyStep (initial false, .empty) splitLine :=
    Machine.exec_get_reachable _ _ _
  exact ⟨splitLine.1, splitLine.2, run, by decide,
    stream_conserved (s := splitLine.1) (h := splitLine.2) run⟩

end Anyio.BufferedByteReceiveStream
