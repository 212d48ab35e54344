import Anyio.SocketStream.Invariant

/-!
# What `receive()` returns and when it ends

The chunks that were returned and the queue make up the data that arrived. A
`receive()` that raises the end of the stream has found the queue empty, and
its wait or its checkpoint was passed for a reason that still holds.
-/

namespace Anyio.SocketStream

open Asyncio Library

/-- The data that arrived, every returned chunk with the `max_bytes` of its call, and whether
the end of the stream and the loss of the connection were reported. -/
structure History where
  received : List Bytes
  returned : List (Int × Bytes)
  atEof : Bool
  lost : Bool
  deriving DecidableEq, Repr

def History.empty : History := ⟨[], [], false, false⟩

variable {τ : Type*}

/-- The data that the transport hands over in the step. -/
def receivedBy : Action τ → List Bytes
  | .dataReceived data => [data]
  | _ => []

/-- The callback that reports the end of the stream. -/
def Action.isEof : Action τ → Bool
  | .eofReceived => true
  | _ => false

/-- The `max_bytes` of the `receive()` that is made or goes on in the step. -/
def maxBytesOf (s : State τ) : Action τ → Option Int
  | .receive _ maxBytes => some maxBytes
  | .resume t _ => (s.loop.point t).receiving
  | _ => none

/-- The chunk that is returned in the step. -/
def returnedBy (s : State τ) (a : Action τ) : Answer → List (Int × Bytes)
  | .returned (some chunk) => [((maxBytesOf s a).getD 0, chunk)]
  | _ => []

def record (h : History) (s : State τ) (a : Action τ) (o : Answer) : History where
  received := h.received ++ receivedBy a
  returned := h.returned ++ returnedBy s a o
  atEof := h.atEof || a.isEof
  lost := h.lost || a.isLoss

/-- The bytes that the calls have returned, in order. -/
def History.bytes (h : History) : Bytes := (h.returned.map Prod.snd).flatten

section Steps
variable [DecidableEq τ] {s s' : State τ} {a : Action τ} {r : State τ × Answer} {lost : Bool}
  {t : τ} {m : Int} {refusal : Option String}

abbrev recorded (τ : Type*) [DecidableEq τ] : Machine (State τ × History) (Action τ) Answer :=
  (machine τ).withHistory record

/-- The outcomes of the piece of `receive()` that follows its await. -/
inductive Received (s s' : State τ) (t : τ) (m : Int) : Answer → Prop
  | cancelled (hqueue : s'.readQueue = s.readQueue) :
      Received s s' t m (.raised .cancelledError)
  | ended (hthrow : s.loop.throws t ≠ true) (hbefore : s.readQueue = [])
      (hqueue : s'.readQueue = []) : Received s s' t m (.raised (endOfReceive s))
  | chunk {chunk : Bytes} (hqueue : chunk ++ s'.readQueue.flatten = s.readQueue.flatten)
      (hne : chunk ≠ []) (hle : (chunk.length : Int) ≤ m) :
      Received s s' t m (.returned (some chunk))

theorem received_takeChunk (inv : Inv s lost) (hm : 1 ≤ m) (hthrow : s.loop.throws t ≠ true)
    (event : Event) :
    Received s (takeChunk { wake s t with readEvent := event } m).1 t m
      (takeChunk { wake s t with readEvent := event } m).2 := by
  obtain ⟨hqueue, heq⟩ | ⟨chunk, queue, hflatten, hne, hle, -, heq⟩ :=
    takeChunk_cases (s := { wake s t with readEvent := event }) inv.nonempty hm
  · rw [heq]
    exact .ended hthrow hqueue hqueue
  · rw [heq]
    exact .chunk hflatten hne hle

/-- A resumed `receive()` is interrupted, finds the queue empty, or returns the front of it. -/
theorem received_resume (inv : Inv s lost) (hp : (s.loop.point t).receiving = some m)
    (refusal : Option String) :
    Received s (resume s t refusal).1 t m (resume s t refusal).2 := by
  have hm := (inv.guarded t m hp).2
  unfold SocketStream.resume
  cases hpoint : s.loop.point t with
  | receiveWait n f =>
      obtain rfl : n = m := by simpa [hpoint, Point.receiving] using hp
      dsimp only
      split_ifs with hthrow
      · exact .cancelled rfl
      · exact received_takeChunk inv hm hthrow _
  | receiveCheckpoint n =>
      obtain rfl : n = m := by simpa [hpoint, Point.receiving] using hp
      dsimp only
      split_ifs with hthrow
      · exact .cancelled rfl
      · exact received_takeChunk inv hm hthrow s.readEvent
  | outside => simp [hpoint, Point.receiving] at hp
  | sendCheckpoint item => simp [hpoint, Point.receiving] at hp
  | sendWait f => simp [hpoint, Point.receiving] at hp
  | acloseYield => simp [hpoint, Point.receiving] at hp

omit [DecidableEq τ] in
theorem takeChunk_isAtEof (s : State τ) (m : Int) : (takeChunk s m).1.isAtEof = s.isAtEof := by
  cases hq : s.readQueue <;> simp [takeChunk, hq]

theorem resume_isAtEof (hp : (s.loop.point t).receiving = some m) :
    (resume s t refusal).1.isAtEof = s.isAtEof := by
  unfold resume
  cases hpoint : s.loop.point t with
  | receiveWait n f =>
      dsimp only
      split_ifs
      · rfl
      · exact takeChunk_isAtEof _ n
  | receiveCheckpoint n =>
      dsimp only
      split_ifs
      · rfl
      · exact takeChunk_isAtEof _ n
  | outside => simp [hpoint, Point.receiving] at hp
  | sendCheckpoint item => simp [hpoint, Point.receiving] at hp
  | sendWait f => simp [hpoint, Point.receiving] at hp
  | acloseYield => simp [hpoint, Point.receiving] at hp

/-- What a call does to the receiving end when it does not go on with a `receive()`. -/
def Quiet (s : State τ) (r : State τ × Answer) : Prop :=
  r.1.readQueue = s.readQueue ∧ r.1.isAtEof = s.isAtEof ∧ ∀ chunk, r.2 ≠ .returned (some chunk)

theorem quiet_receive (s : State τ) (t : τ) (m : Int) : Quiet s (receive s t m) := by
  rw [receive]
  split_ifs <;> simp [Quiet]

theorem quiet_send (s : State τ) (t : τ) (item : Bytes) : Quiet s (send s t item) := by
  rw [send]
  split_ifs <;> simp [Quiet]

theorem quiet_aclose (s : State τ) (t : τ) : Quiet s (aclose s t) := by
  rw [aclose]
  split_ifs <;> simp [Quiet]

theorem quiet_sendItem (s : State τ) (t : τ) (item : Bytes) (refusal : Option String) :
    Quiet s (sendItem s t item refusal) := by
  rw [sendItem]
  cases hwrite : write s item refusal with
  | error e => simp [Quiet]
  | ok s' =>
      obtain rfl := write_ok hwrite
      dsimp only
      split_ifs <;> simp [Quiet]

theorem quiet_resume (hp : (s.loop.point t).receiving = none) :
    Quiet s (resume s t refusal) := by
  unfold resume
  cases hpoint : s.loop.point t with
  | outside => simp [Quiet]
  | receiveWait n f => simp [hpoint, Point.receiving] at hp
  | receiveCheckpoint n => simp [hpoint, Point.receiving] at hp
  | sendCheckpoint item =>
      dsimp only
      split_ifs
      · simp [Quiet, wake]
      · exact quiet_sendItem (wake s t) t item refusal
  | sendWait f =>
      dsimp only
      split_ifs <;> simp [Quiet, wake]
  | acloseYield =>
      dsimp only
      split_ifs <;> simp [Quiet, wake]

omit [DecidableEq τ] in
theorem quiet_returnedBy (hquiet : Quiet s r) : returnedBy s a r.2 = [] := by
  cases hr : r.2 with
  | returned value =>
      cases value with
      | none => rfl
      | some chunk => exact absurd hr (hquiet.2.2 chunk)
  | raised e => rfl
  | suspended p => rfl

/-- A step reports data, reports the end of the stream, goes on with a `receive()`, or does
nothing to the receiving end. -/
theorem step_cases (inv : Inv s lost) (h : step s a = some r) :
    (∃ data, a = .dataReceived data ∧ r = (dataReceived s data, .returned none)) ∨
    (a = .eofReceived ∧ r = (eofReceived s, .returned none)) ∨
    (∃ t m refusal, a = .resume t refusal ∧ s.loop.wakeUpQueued t = true ∧
      (s.loop.point t).receiving = some m ∧ Received s r.1 t m r.2 ∧ r.1.isAtEof = s.isAtEof) ∨
    (receivedBy a = [] ∧ a.isEof = false ∧ Quiet s r) := by
  cases a with
  | dataReceived data =>
      cases h
      exact .inl ⟨data, rfl, rfl⟩
  | eofReceived =>
      cases h
      exact .inr (.inl ⟨rfl, rfl⟩)
  | resume t refusal =>
      obtain ⟨hwake, ⟨⟩⟩ := Option.ite_none_right_eq_some.mp h
      right
      right
      cases hp : (s.loop.point t).receiving with
      | none => exact .inr ⟨rfl, rfl, quiet_resume hp⟩
      | some m =>
          left
          exact ⟨t, m, refusal, rfl, hwake, hp, received_resume inv hp _, resume_isAtEof hp⟩
  | receive t m =>
      obtain ⟨-, ⟨⟩⟩ := Option.ite_none_right_eq_some.mp h
      exact .inr (.inr (.inr ⟨rfl, rfl, quiet_receive s t m⟩))
  | send t item =>
      obtain ⟨-, ⟨⟩⟩ := Option.ite_none_right_eq_some.mp h
      exact .inr (.inr (.inr ⟨rfl, rfl, quiet_send s t item⟩))
  | aclose t =>
      obtain ⟨-, ⟨⟩⟩ := Option.ite_none_right_eq_some.mp h
      exact .inr (.inr (.inr ⟨rfl, rfl, quiet_aclose s t⟩))
  | cancel t =>
      obtain ⟨-, ⟨⟩⟩ := Option.ite_none_right_eq_some.mp h
      exact .inr (.inr (.inr ⟨rfl, rfl, rfl, rfl, by simp⟩))
  | connectionLost exc =>
      cases h
      exact .inr (.inr (.inr ⟨rfl, rfl, rfl, rfl, by simp⟩))
  | pauseWriting =>
      cases h
      exact .inr (.inr (.inr ⟨rfl, rfl, rfl, rfl, by simp⟩))
  | resumeWriting =>
      cases h
      exact .inr (.inr (.inr ⟨rfl, rfl, rfl, rfl, by simp⟩))
  | transportCloses =>
      cases h
      exact .inr (.inr (.inr ⟨rfl, rfl, rfl, rfl, by simp⟩))

theorem step_isAtEof (inv : Inv s lost) (h : step s a = some r) :
    r.1.isAtEof = (s.isAtEof || a.isEof) := by
  obtain ⟨data, rfl, rfl⟩ | ⟨rfl, rfl⟩ | ⟨t, m, refusal, rfl, -, -, -, heof⟩ | ⟨-, heof, hquiet⟩ :=
    step_cases inv h
  · simp [Action.isEof, dataReceived, setReadEvent]
  · simp [Action.isEof, eofReceived, setReadEvent]
  · simpa [Action.isEof] using heof
  · rw [heof, Bool.or_false]
    exact hquiet.2.1

/-- A step moves bytes from the front of the queue into its result, or from the transport to
the end of the queue, and a returned chunk is as long as its call allows. -/
theorem conserves_step (inv : Inv s lost) (h : step s a = some r) :
    ((returnedBy s a r.2).map Prod.snd).flatten ++ r.1.readQueue.flatten =
        s.readQueue.flatten ++ (receivedBy a).flatten ∧
      ∀ c ∈ returnedBy s a r.2, c.2 ≠ [] ∧ (c.2.length : Int) ≤ c.1 := by
  obtain ⟨data, rfl, rfl⟩ | ⟨rfl, rfl⟩ | ⟨t, m, refusal, rfl, -, hp, hreceived, -⟩ |
    ⟨hdata, -, hquiet⟩ := step_cases inv h
  · simp [returnedBy, receivedBy, dataReceived, setReadEvent]
  · simp [returnedBy, receivedBy, eofReceived, setReadEvent]
  · obtain ⟨s', o⟩ := r
    cases hreceived with
    | cancelled hqueue => simpa [returnedBy, receivedBy] using congrArg List.flatten hqueue
    | ended _ hbefore hqueue =>
        dsimp only at hqueue
        simp [returnedBy, receivedBy, hbefore, hqueue]
    | chunk hqueue hne hle =>
        simp only [returnedBy, receivedBy, maxBytesOf, hp]
        exact ⟨by simpa using hqueue, by simpa using ⟨hne, hle⟩⟩
  · rw [quiet_returnedBy hquiet, hquiet.1, hdata]
    simp

omit [DecidableEq τ] in
/-- A `receive()` that went past its await and found the queue empty was let through by the end
of the stream, by the loss of the connection, or by its closing. -/
theorem end_reason (inv : Inv s lost) (hwake : s.loop.wakeUpQueued t = true)
    (hthrow : s.loop.throws t ≠ true) (hp : (s.loop.point t).receiving = some m)
    (hqueue : s.readQueue = []) :
    s.isAtEof = true ∨ lost = true ∨ s.transportClosing = true := by
  have hset : s.readEvent.value = true → s.isAtEof = true ∨ lost = true := by
    intro h
    exact (inv.cause h).resolve_left (by simp [hqueue])
  cases hpoint : s.loop.point t with
  | receiveWait n f =>
      obtain ⟨-, hfinished⟩ := Loop.finished_of_woken (waits_receiveWait hpoint) hwake hthrow
      have hvalue := (inv.waiting t n f hpoint).finished hfinished
      exact (hset hvalue).imp_right .inl
  | receiveCheckpoint n =>
      obtain hvalue | hclosing | heof := inv.ready t n hpoint
      · exact (hset hvalue).imp_right .inl
      · exact .inr (.inr hclosing)
      · exact .inl heof
  | outside => simp [hpoint, Point.receiving] at hp
  | sendCheckpoint item => simp [hpoint, Point.receiving] at hp
  | sendWait f => simp [hpoint, Point.receiving] at hp
  | acloseYield => simp [hpoint, Point.receiving] at hp

omit [DecidableEq τ] in
/-- A `receive()` whose wake-up is not queued waits for an event that nothing has set. -/
theorem blocked_reason (inv : Inv s lost) (hp : (s.loop.point t).receiving ≠ none)
    (hblocked : s.loop.wakeUpQueued t = false) : s.readQueue = [] ∧ s.isAtEof = false := by
  cases hpoint : s.loop.point t with
  | receiveWait n f =>
      have hpending : s.loop.future f = .pending := by
        simpa [Loop.wakeUpQueued, waits_receiveWait hpoint] using hblocked
      obtain ⟨-, hvalue, heof⟩ := (inv.waiting t n f hpoint).pending hpending
      refine ⟨?_, heof⟩
      by_contra hne
      rw [inv.queued hne] at hvalue
      cases hvalue
  | receiveCheckpoint n =>
      simp [Loop.wakeUpQueued, Loop.waits, hpoint, Coroutine.waits] at hblocked
  | outside => simp [hpoint, Point.receiving] at hp
  | sendCheckpoint item => simp [hpoint, Point.receiving] at hp
  | sendWait f => simp [hpoint, Point.receiving] at hp
  | acloseYield => simp [hpoint, Point.receiving] at hp

/-- At its start `receive()` only raises when somebody else is receiving. -/
theorem receive_raised {e : Error} (h : (receive s t m).2 = .raised e) :
    e = .busyResourceError "reading from" := by
  rw [receive] at h
  split_ifs at h
  exact (Outcome.raised.inj h).symm

/-- An exception that ends the stream is raised on an empty queue, and for a reason. -/
theorem raise_reason (inv : Inv s lost) {e : Error} (ha : maxBytesOf s a ≠ none)
    (h : step s a = some (s', .raised e))
    (he : e = .endOfStream ∨ e = .brokenResourceError ∨ e = .closedResourceError) :
    s.readQueue = [] ∧ (s.isAtEof = true ∨ lost = true ∨ s.transportClosing = true) := by
  cases a with
  | receive t m =>
      obtain ⟨-, h⟩ := Option.ite_none_right_eq_some.mp h
      obtain rfl := receive_raised (congrArg Prod.snd (Option.some.inj h))
      simp at he
  | resume t refusal =>
      obtain ⟨hwake, h⟩ := Option.ite_none_right_eq_some.mp h
      obtain ⟨m, hp⟩ := Option.ne_none_iff_exists'.mp ha
      have hreceived := received_resume inv hp refusal
      rw [Option.some.inj h] at hreceived
      cases hreceived with
      | cancelled _ => simp at he
      | ended hthrow hqueue _ => exact ⟨hqueue, end_reason inv hwake hthrow hp hqueue⟩
  | send t item => exact absurd rfl ha
  | aclose t => exact absurd rfl ha
  | dataReceived data => exact absurd rfl ha
  | eofReceived => exact absurd rfl ha
  | connectionLost exc => exact absurd rfl ha
  | pauseWriting => exact absurd rfl ha
  | resumeWriting => exact absurd rfl ha
  | transportCloses => exact absurd rfl ha
  | cancel t => exact absurd rfl ha

/-- The invariant of a run with its history. -/
structure Agrees (s : State τ) (h : History) : Prop where
  inv : Inv s h.lost
  eof : s.isAtEof = h.atEof
  conserved : h.bytes ++ s.readQueue.flatten = h.received.flatten
  chunks : ∀ c ∈ h.returned, c.2 ≠ [] ∧ (c.2.length : Int) ≤ c.1

theorem Agrees.step {h : History} (agrees : Agrees s h) (hproper : a.Proper)
    (hstep : step s a = some r) : Agrees r.1 (record h s a r.2) := by
  obtain ⟨hbytes, hchunk⟩ := conserves_step agrees.inv hstep
  constructor
  · exact agrees.inv.step hproper hstep
  · rw [step_isAtEof agrees.inv hstep, agrees.eof]
    rfl
  · calc (record h s a r.2).bytes ++ r.1.readQueue.flatten
        = h.bytes ++ (((returnedBy s a r.2).map Prod.snd).flatten ++ r.1.readQueue.flatten) := by
          simp [record, History.bytes]
      _ = h.bytes ++ (s.readQueue.flatten ++ (receivedBy a).flatten) := by rw [hbytes]
      _ = (record h s a r.2).received.flatten := by
          rw [← List.append_assoc, agrees.conserved, record, List.flatten_append]
  · intro c hc
    cases List.mem_append.mp hc with
    | inl hold => exact agrees.chunks c hold
    | inr hnew => exact hchunk c hnew

theorem agrees_of_reachable {h : History}
    (run : (recorded τ).Reachable (fun _ a => a.Proper) (initial τ, .empty) (s, h)) :
    Agrees s h := by
  apply run.invariant_history
  · exact ⟨.initial, rfl, rfl, by simp [History.empty]⟩
  · intro s h a s' o agrees hproper hstep
    exact agrees.step hproper hstep

/-- In every run, whatever the order of calls, cancellations and callbacks: the returned chunks
and the queue are the data that arrived, every chunk is non-empty and no longer than its call
allows, the exceptions that end a stream leave `receive()` only when nothing is queued and the
stream has ended, was lost or is closing, and no `receive()` is blocked while data is queued or
after the end of the stream was reported. -/
theorem receive_stream {h : History}
    (run : (recorded τ).Reachable (fun _ a => a.Proper) (initial τ, .empty) (s, h)) :
    h.bytes ++ s.readQueue.flatten = h.received.flatten ∧
    (∀ c ∈ h.returned, c.2 ≠ [] ∧ (c.2.length : Int) ≤ c.1) ∧
    (∀ a s' e, maxBytesOf s a ≠ none → step s a = some (s', .raised e) →
      (e = .endOfStream ∨ e = .brokenResourceError ∨ e = .closedResourceError) →
      s.readQueue = [] ∧ (h.atEof = true ∨ h.lost = true ∨ s.transportClosing = true)) ∧
    ∀ t, (s.loop.point t).receiving ≠ none → s.loop.wakeUpQueued t = false →
      s.readQueue = [] ∧ h.atEof = false := by
  have agrees := agrees_of_reachable run
  refine ⟨agrees.conserved, agrees.chunks, ?_, ?_⟩
  · intro a s' e ha hstep he
    rw [← agrees.eof]
    exact raise_reason agrees.inv ha hstep he
  · intro t hp hblocked
    rw [← agrees.eof]
    exact blocked_reason agrees.inv hp hblocked

/-- A wait is cancelled while data arrives, the next call returns a part of the data and a third
one the rest; after the end of the stream another call finds nothing. -/
def cancelledAndRead : State (Fin 2) × History :=
  ((recorded (Fin 2)).exec (fun _ a => a.Proper) (initial (Fin 2), .empty)
    [.receive 0 4, .cancel 0, .dataReceived [1, 2, 3], .receive 1 2, .resume 0 none,
      .receive 1 2, .resume 1 none, .eofReceived, .receive 0 4, .resume 0 none,
      .receive 1 4]).get (by decide)

theorem receive_stream_cancelledAndRead :
    ∃ s h, (recorded (Fin 2)).Reachable (fun _ a => a.Proper) (initial (Fin 2), .empty) (s, h) ∧
      h.returned = [(2, [1, 2]), (4, [3])] ∧
      h.bytes ++ s.readQueue.flatten = h.received.flatten ∧
      (step s (.resume 1 none)).map Prod.snd = some (.raised .endOfStream) ∧
      s.readQueue = [] ∧ (h.atEof = true ∨ h.lost = true ∨ s.transportClosing = true) := by
  have run : (recorded (Fin 2)).Reachable (fun _ a => a.Proper) (initial (Fin 2), .empty)
      cancelledAndRead := Machine.exec_get_reachable _ _ _
  obtain ⟨hflow, -, hraise, -⟩ :=
    receive_stream (s := cancelledAndRead.1) (h := cancelledAndRead.2) run
  have hends : (step cancelledAndRead.1 (.resume 1 none)).map Prod.snd =
      some (.raised .endOfStream) := by decide
  obtain ⟨r, hstep, hr⟩ := Option.map_eq_some_iff.mp hends
  have hreason := hraise (.resume 1 none) r.1 .endOfStream (by decide) (by rw [hstep, ← hr])
    (.inl rfl)
  exact ⟨cancelledAndRead.1, cancelledAndRead.2, run, by decide, hflow, hends, hreason⟩

end Steps

end Anyio.SocketStream
