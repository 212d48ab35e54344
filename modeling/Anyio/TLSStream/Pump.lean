import Anyio.TLSStream.Model
import Mathlib.Tactic.Common

/-!
# The pump between the SSL object and the transport

What was passed to `send()` and the write BIO make up what the write BIO held at first
and what the SSL object has appended since. The write BIO is read out before every
`receive()` and before the call returns. Received data reaches the read BIO, unless
the end of the stream was written to it before.
-/

namespace Anyio.TLSStream

open Library

variable {ε ρ : Type*}

/-- The bytes that the SSL object has appended to the write BIO. -/
def appendedBy (events : List Event) : Bytes :=
  (events.map fun
    | .appended data => data
    | _ => []).flatten

/-- The bytes that were passed to `transport_stream.send()`. -/
def sentBy (events : List Event) : Bytes :=
  (events.map fun
    | .sent data => data
    | _ => []).flatten

/-- The bytes that `transport_stream.receive()` has returned. -/
def receivedBy (events : List Event) : Bytes :=
  (events.map fun
    | .received data => data
    | _ => []).flatten

/-- The bytes that were written to the read BIO. -/
def writtenBy (events : List Event) : Bytes :=
  (events.map fun
    | .written data => data
    | _ => []).flatten

/-- The points that are reached only with the write BIO read out. -/
def Point.Flushed : Point ρ → Prop
  | .flushBeforeReceive | .receiving | .flushBeforeReturn _ | .returned _ => True
  | _ => False

/-- What one piece of the loop does to the write BIO and to the read BIO. -/
structure Pumped (s : State ε ρ) (r : Piece ε ρ) : Prop where
  conserved : sentBy r.2 ++ r.1.writeBio.data = s.writeBio.data ++ appendedBy r.2
  flushed : r.1.point.Flushed → r.1.writeBio.data = []
  filled : writtenBy r.2 = receivedBy r.2

variable {s s' : State ε ρ} {h es : List Event} {method : Method ε ρ} {compatible : Bool}
  {a : Action}

theorem pumped_raise (s : State ε ρ) (e : Error) : Pumped s (s.raise e) where
  conserved := by simp [State.raise, sentBy, appendedBy]
  flushed hf := absurd hf id
  filled := rfl

theorem pumped_shut (s : State ε ρ) (e : Error) : Pumped s (s.shut e) where
  conserved := by simp [State.shut, sentBy, appendedBy, Bio.writeEof]
  flushed hf := absurd hf id
  filled := rfl

theorem pumped_flush (s : State ε ρ) (point : Point ρ) : Pumped s (s.flush point) where
  conserved := by simp [State.flush, sentBy, appendedBy, Bio.drained]
  flushed _ := rfl
  filled := rfl

/-- A piece that only goes on to another point, with the write BIO empty. -/
theorem pumped_goTo (hempty : s.writeBio.data = []) (point : Point ρ) :
    Pumped s ({ s with point := point }, []) where
  conserved := by simp [sentBy, appendedBy]
  flushed _ := hempty
  filled := rfl

variable (compatible) in
theorem pumped_afterCall (s : State ε ρ) (verdict : Verdict ρ) :
    Pumped s (afterCall compatible s verdict) := by
  cases verdict with
  | wantRead =>
      dsimp only [afterCall]
      split_ifs with hpending
      · exact pumped_flush s _
      · exact pumped_goTo (not_not.mp hpending) _
  | wantWrite => exact pumped_flush s _
  | syscallError => exact pumped_shut s _
  | sslError isEof strerror =>
      dsimp only [afterCall]
      split_ifs
      · exact pumped_shut s _
      · exact pumped_shut s _
      · exact pumped_shut s _
  | raises e => exact pumped_raise s e
  | result value =>
      dsimp only [afterCall]
      split_ifs with hpending
      · exact pumped_flush s _
      · exact pumped_goTo (not_not.mp hpending) _

variable (method compatible) in
/-- What the SSL object appends in a call is in the write BIO when the loop goes on. -/
theorem pumped_callFunc (s : State ε ρ) : Pumped s (callFunc method compatible s) := by
  unfold callFunc
  obtain ⟨conserved, flushed, filled⟩ := pumped_afterCall compatible { s with
      engine := (method s.engine s.readBio.data s.readBio.eof).engine
      readBio := { s.readBio with
        data := s.readBio.data.drop (method s.engine s.readBio.data s.readBio.eof).consumed }
      writeBio := { s.writeBio with
        data := s.writeBio.data ++ (method s.engine s.readBio.data s.readBio.eof).appended } }
    (method s.engine s.readBio.data s.readBio.eof).verdict
  constructor
  · simpa [sentBy, appendedBy] using conserved
  · exact flushed
  · simpa [writtenBy, receivedBy] using filled

theorem pumped_waitRaised (s : State ε ρ) (e : Error) :
    Pumped s (waitRaised method compatible s e) := by
  cases e with
  | endOfStream =>
      obtain ⟨conserved, flushed, filled⟩ := pumped_callFunc method compatible
        { s with readBio := s.readBio.writeEof }
      exact ⟨conserved, flushed, filled⟩
  | osError message => exact pumped_shut s _
  | _ => exact pumped_raise s _

/-- Data that the read BIO takes is written to it, and the loop goes on. -/
theorem pumped_received (s : State ε ρ) (readBio : Bio) (data : Bytes) :
    Pumped s ((callFunc method compatible { s with readBio := readBio }).1,
      .received data :: .written data ::
        (callFunc method compatible { s with readBio := readBio }).2) := by
  obtain ⟨conserved, flushed, filled⟩ := pumped_callFunc method compatible
    { s with readBio := readBio }
  constructor
  · simpa [sentBy, appendedBy] using conserved
  · exact flushed
  · simpa [writtenBy, receivedBy] using filled

/-- The data that arrives in a step is refused: the end of the stream was written before. -/
structure Refused (s s' : State ε ρ) (es : List Event) (data : Bytes) : Prop where
  eof : s'.readBio.eof = true
  raised : s'.point = .raised writeAfterEof
  events : es = [.received data]
  kept : s'.writeBio = s.writeBio

/-- A step pumps, or it ends the call with data that the read BIO refuses. -/
theorem step_cases (hflushed : s.point.Flushed → s.writeBio.data = [])
    (hs : step method compatible s a = some (s', es)) :
    Pumped s (s', es) ∨ ∃ data, Refused s s' es data := by
  cases a with
  | call =>
      dsimp only [step] at hs
      split at hs
      · rw [← Option.some.inj hs]
        exact .inl (pumped_callFunc method compatible s)
      · cases hs
  | sent thrown =>
      left
      dsimp only [step] at hs
      split at hs
      · rename_i hp
        rw [← Option.some.inj hs]
        exact pumped_goTo (hflushed (by rw [hp]; trivial)) _
      · rw [← Option.some.inj hs]
        exact pumped_waitRaised s _
      · rw [← Option.some.inj hs]
        exact pumped_callFunc method compatible s
      · rw [← Option.some.inj hs]
        exact pumped_raise s _
      · rename_i hp
        rw [← Option.some.inj hs]
        exact pumped_goTo (hflushed (by rw [hp]; trivial)) _
      · rw [← Option.some.inj hs]
        exact pumped_raise s _
      · cases hs
  | received answer =>
      dsimp only [step] at hs
      split at hs
      · rw [← Option.some.inj hs]
        exact .inl (pumped_waitRaised s _)
      · rename_i data hp
        split at hs
        · rename_i hw
          cases hs
          right
          have heof : s.readBio.eof = true := by simpa [Bio.write] using hw
          exact ⟨data, heof, rfl, rfl, rfl⟩
        · rw [← Option.some.inj hs]
          exact .inl (pumped_received s _ _)
      · cases hs

/-- The state in which the call is made. -/
def State.begin (engine : ε) (readBio writeBio : Bio) : State ε ρ where
  engine := engine
  readBio := readBio
  writeBio := writeBio
  point := .start

abbrev pumping (method : Method ε ρ) (compatible : Bool) :
    Machine (State ε ρ × List Event) Action (List Event) :=
  (machine method compatible).withHistory fun h _ _ es => h ++ es

/-- What holds after every step of the call, with the events so far; `first` is what the write
BIO held at the start. -/
structure Balanced (first : Bytes) (s : State ε ρ) (h : List Event) : Prop where
  conserved : sentBy h ++ s.writeBio.data = first ++ appendedBy h
  flushed : s.point.Flushed → s.writeBio.data = []
  filled : writtenBy h = receivedBy h ∨
    s.readBio.eof = true ∧ s.point = .raised writeAfterEof ∧
      ∃ data, receivedBy h = writtenBy h ++ data

theorem Balanced.step {first : Bytes} (hb : Balanced first s h)
    (hs : TLSStream.step method compatible s a = some (s', es)) : Balanced first s' (h ++ es) := by
  have hlive : ∀ e, s.point ≠ .raised e := by
    intro e he
    cases a <;> simp [TLSStream.step, he] at hs
  have hfilled : writtenBy h = receivedBy h := by
    rcases hb.filled with hfilled | ⟨-, hraised, -⟩
    · exact hfilled
    · exact absurd hraised (hlive _)
  rcases step_cases hb.flushed hs with ⟨conserved, flushed, filled⟩ | ⟨data, eof, raised, rfl, kept⟩
  · constructor
    · calc sentBy (h ++ es) ++ s'.writeBio.data
          = sentBy h ++ (sentBy es ++ s'.writeBio.data) := by simp [sentBy]
        _ = sentBy h ++ (s.writeBio.data ++ appendedBy es) := by rw [conserved]
        _ = (sentBy h ++ s.writeBio.data) ++ appendedBy es := by rw [List.append_assoc]
        _ = first ++ appendedBy (h ++ es) := by
          rw [hb.conserved, List.append_assoc]
          simp [appendedBy]
    · exact flushed
    · left
      calc writtenBy (h ++ es) = writtenBy h ++ writtenBy es := by simp [writtenBy]
        _ = receivedBy h ++ receivedBy es := by rw [hfilled, filled]
        _ = receivedBy (h ++ es) := by simp [receivedBy]
  · constructor
    · rw [kept]
      simpa [sentBy, appendedBy] using hb.conserved
    · intro hf
      rw [raised] at hf
      exact absurd hf id
    · right
      refine ⟨eof, raised, data, ?_⟩
      simp [writtenBy, receivedBy] at hfilled ⊢
      exact hfilled.symm

/-- In every state of a call, whatever the SSL object and the transport do: the write BIO is empty
where `receive()` is awaited and when the call has returned; what was passed to `send()`, with what
is left in the write BIO, is what the write BIO held at first and what was appended since, in order;
and what was written to the read BIO is what was received, except for data that arrives after the
end of the stream was written to it, with which the call ends in an `SSLError`. -/
theorem pump_conserves {engine : ε} {readBio writeBio : Bio}
    (run : (pumping method compatible).Reachable Machine.anyStep
      (.begin engine readBio writeBio, []) (s, h)) :
    (s.point = .receiving → s.writeBio.data = []) ∧
    sentBy h ++ s.writeBio.data = writeBio.data ++ appendedBy h ∧
    (∀ value, s.point = .returned value →
      s.writeBio.data = [] ∧ sentBy h = writeBio.data ++ appendedBy h) ∧
    (writtenBy h = receivedBy h ∨
      s.readBio.eof = true ∧ s.point = .raised writeAfterEof ∧
        ∃ data, receivedBy h = writtenBy h ++ data) := by
  have hb : Balanced writeBio.data s h := by
    apply run.invariant_history
    · exact ⟨by simp [State.begin, sentBy, appendedBy], fun hf => absurd hf id, .inl rfl⟩
    · intro s h a s' es hb _ hs
      exact hb.step hs
  refine ⟨?_, hb.conserved, ?_, hb.filled⟩
  · intro hp
    apply hb.flushed
    rw [hp]
    trivial
  · intro value hp
    have hempty : s.writeBio.data = [] := by
      apply hb.flushed
      rw [hp]
      trivial
    refine ⟨hempty, ?_⟩
    have hconserved := hb.conserved
    rwa [hempty, List.append_nil] at hconserved

/-- A method that sends a greeting, wants an answer, and returns after a farewell. -/
def greeting : Method Nat Unit := fun calls incoming _ =>
  match calls with
  | 0 => { engine := 1, consumed := 0, appended := [1], verdict := .wantRead }
  | n => { engine := n, consumed := incoming.length, appended := [2], verdict := .result () }

/-- The greeting is flushed, the answer arrives, and the farewell is flushed. -/
def greeted : State Nat Unit × List Event :=
  ((pumping greeting true).exec Machine.anyStep (.begin 0 ⟨[], false⟩ ⟨[], false⟩, [])
    [.call, .sent none, .received (.ok [7]), .sent none]).get (by decide)

theorem pump_conserves_greeted :
    greeted.1.point = .returned () ∧ sentBy greeted.2 = [1, 2] ∧
      sentBy greeted.2 = appendedBy greeted.2 ∧ writtenBy greeted.2 = receivedBy greeted.2 := by
  have run : (pumping greeting true).Reachable Machine.anyStep
      (.begin 0 ⟨[], false⟩ ⟨[], false⟩, []) greeted := Machine.exec_get_reachable _ _ _
  obtain ⟨-, -, hreturned, hfilled⟩ :=
    pump_conserves (s := greeted.1) (h := greeted.2) run
  have hpoint : greeted.1.point = .returned () := by decide
  refine ⟨hpoint, by decide, (hreturned () hpoint).2, ?_⟩
  rcases hfilled with hfilled | ⟨-, hraised, -⟩
  · exact hfilled
  · exact absurd (hpoint.symm.trans hraised) (by decide)

/-- A method that always wants to read. -/
def insatiable : Method Unit Unit := fun _ _ _ =>
  { engine := (), consumed := 0, appended := [], verdict := .wantRead }

/-- The transport ends and then has data after all, which the read BIO refuses. -/
def afterEnd : State Unit Unit × List Event :=
  ((pumping insatiable true).exec Machine.anyStep (.begin () ⟨[], false⟩ ⟨[], false⟩, [])
    [.call, .received (.error .endOfStream), .received (.ok [7])]).get (by decide)

theorem pump_not_conserves :
    ¬ ∀ (method : Method Unit Unit) (s : State Unit Unit) (h : List Event),
      (pumping method true).Reachable Machine.anyStep
        (.begin () ⟨[], false⟩ ⟨[], false⟩, []) (s, h) →
      (s.point = .receiving → s.writeBio.data = []) ∧
      (∀ value, s.point = .returned value → sentBy h = appendedBy h) ∧
      writtenBy h = receivedBy h := by
  intro hclaim
  have run : (pumping insatiable true).Reachable Machine.anyStep
      (.begin () ⟨[], false⟩ ⟨[], false⟩, []) afterEnd := Machine.exec_get_reachable _ _ _
  exact absurd (hclaim insatiable afterEnd.1 afterEnd.2 run).2.2 (by decide)

end Anyio.TLSStream
