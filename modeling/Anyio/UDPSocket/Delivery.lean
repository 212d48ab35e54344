import Anyio.UDPSocket.Model

/-!
# What a UDP socket returns of the datagrams that arrived

The queue is bounded, and a full one drops its oldest datagram. What
`receive()` returns keeps the order in which the datagrams arrived, and none of
the last hundred of them is missing.
-/

namespace Anyio.UDPSocket

open Asyncio Library

variable {τ ι ρ : Type*}

/-- The datagrams that arrived and the results of `receive()`, and whether writing is paused
and the loss of the connection was reported. -/
structure History (ρ : Type*) where
  arrived : List Packet
  returned : List ρ
  paused : Bool
  lost : Bool
  deriving DecidableEq, Repr

def History.empty : History ρ := ⟨[], [], false, false⟩

def record (h : History ρ) (_ : State τ ι) (a : Action τ ι) (o : Answer ι ρ) : History ρ :=
  match a, o with
  | .datagramReceived data addr, _ =>
      { h with arrived := h.arrived ++ [(data, convertIpv6Sockaddr addr)] }
  | .connectionLost, _ => { h with paused := false, lost := true }
  | .pauseWriting, _ => { h with paused := true }
  | .resumeWriting, _ => { h with paused := false }
  | .resume _ _, .returned (some result) => { h with returned := h.returned ++ [result] }
  | _, _ => h

/-- The machine that keeps the history. -/
def recorded (τ : Type*) [DecidableEq τ] (kind : Kind ι ρ) :
    Machine (State τ ι × History ρ) (Action τ ι) (Answer ι ρ) :=
  (machine τ kind).withHistory record

section Steps
variable [DecidableEq τ] {kind : Kind ι ρ} {s s' : State τ ι} {h : History ρ} {a : Action τ ι}
  {o : Answer ι ρ} {t u : τ} {item : ι} {refusal : Option Error} {packet : Packet}
  {rest : List Packet}

@[simp] theorem leaveWait_loop (s : State τ ι) (t : τ) :
    (leaveWait s t).loop = s.loop.resumeAt t .outside := by
  unfold leaveWait
  cases s.loop.point t <;> rfl

@[simp] theorem leaveWait_readQueue (s : State τ ι) (t : τ) :
    (leaveWait s t).readQueue = s.readQueue := by
  unfold leaveWait
  cases s.loop.point t <;> rfl

@[simp] theorem leaveWait_transportClosing (s : State τ ι) (t : τ) :
    (leaveWait s t).transportClosing = s.transportClosing := by
  unfold leaveWait
  cases s.loop.point t <;> rfl

@[simp] theorem leaveWait_closed (s : State τ ι) (t : τ) :
    (leaveWait s t).closed = s.closed := by
  unfold leaveWait
  cases s.loop.point t <;> rfl

@[simp] theorem leaveWait_sent (s : State τ ι) (t : τ) : (leaveWait s t).sent = s.sent := by
  unfold leaveWait
  cases s.loop.point t <;> rfl

/-- What one step does. -/
inductive Change (kind : Kind ι ρ) (s : State τ ι) :
    Action τ ι → State τ ι → Answer ι ρ → Prop
  | receiveBusy {t : τ} :
      Change kind s (.receive t) s (.raised (.busyResourceError "reading from"))
  | receiveStarts {t : τ} (hguard : s.receiveGuarded = false) :
      Change kind s (.receive t)
        { s with receiveGuarded := true, loop := s.loop.moveTo t .receiveCheckpoint }
        (.suspended .receiveCheckpoint)
  | sendBusy {t : τ} {item : ι} :
      Change kind s (.send t item) s (.raised (.busyResourceError "writing to"))
  | sendStarts {t : τ} {item : ι} (hp : (s.loop.point t).isOutside = true) :
      Change kind s (.send t item)
        { s with sendGuarded := true, loop := s.loop.moveTo t (.sendCheckpoint item) }
        (.suspended (.sendCheckpoint item))
  | closed : Change kind s .aclose (aclose s) (.returned none)
  | arrived (data : Bytes) (addr : SockAddr) :
      Change kind s (.datagramReceived data addr) (datagramReceived s data addr) (.returned none)
  | lost (hclosing : s.transportClosing = true) :
      Change kind s .connectionLost (connectionLost s) (.returned none)
  | paused : Change kind s .pauseWriting (pauseWriting s) (.returned none)
  | resumed : Change kind s .resumeWriting (setWriteEvent s) (.returned none)
  | transportClosed :
      Change kind s .transportCloses { s with transportClosing := true } (.returned none)
  | requested (t : τ) :
      Change kind s (.cancel t) { s with loop := s.loop.cancel t } (.suspended (s.loop.point t))
  | receiveInterrupted {t : τ} {refusal : Option Error} (hp : (s.loop.point t).receives = true)
      (hthrow : s.loop.throws t = true) :
      Change kind s (.resume t refusal) { leaveWait s t with receiveGuarded := false }
        (.raised .cancelledError)
  | receiveWaits {t : τ} {refusal : Option Error} (hp : s.loop.point t = .receiveCheckpoint)
      (hempty : s.readQueue = []) (hopen : s.transportClosing = false) :
      Change kind s (.resume t refusal)
        { leaveWait s t with
          readEvent := (leaveWait s t).readEvent.clear.join s.loop.nextFuture
          loop := (leaveWait s t).loop.createFuture.moveTo t (.receiveWait s.loop.nextFuture) }
        (.suspended (.receiveWait s.loop.nextFuture))
  | pops {t : τ} {refusal : Option Error} (hp : (s.loop.point t).receives = true) (hthrow : s.loop.throws t ≠ true)
      (hwoken : ∀ f, s.loop.point t = .receiveWait f → s.loop.future f = .finished)
      (hready : s.loop.point t = .receiveCheckpoint →
        s.readQueue ≠ [] ∨ s.transportClosing = true) :
      Change kind s (.resume t refusal) (popleft kind (leaveWait s t)).1
        (popleft kind (leaveWait s t)).2
  | sendInterrupted {t : τ} {refusal : Option Error} {item : ι} (hp : (s.loop.point t).sending = some item)
      (hthrow : s.loop.throws t = true) :
      Change kind s (.resume t refusal) { leaveWait s t with sendGuarded := false }
        (.raised .cancelledError)
  | sendWaits {t : τ} {refusal : Option Error} {item : ι} (hp : s.loop.point t = .sendCheckpoint item)
      (hpaused : s.writeEvent.value = false) :
      Change kind s (.resume t refusal)
        { leaveWait s t with
          writeEvent := (leaveWait s t).writeEvent.join s.loop.nextFuture
          loop := (leaveWait s t).loop.createFuture.moveTo t
            (.sendWait item s.loop.nextFuture) }
        (.suspended (.sendWait item s.loop.nextFuture))
  | transmits {t : τ} {refusal : Option Error} {item : ι} (hp : (s.loop.point t).sending = some item)
      (hthrow : s.loop.throws t ≠ true) :
      Change kind s (.resume t refusal) (transmit kind (leaveWait s t) item refusal).1
        (transmit kind (leaveWait s t) item refusal).2

theorem resume_change (hwake : s.loop.wakeUpQueued t = true) :
    Change kind s (.resume t refusal) (resume kind s t refusal).1
      (resume kind s t refusal).2 := by
  unfold resume
  cases hp : s.loop.point t with
  | outside => simp [Loop.wakeUpQueued, Loop.waits, hp, Coroutine.waits] at hwake
  | receiveCheckpoint =>
      dsimp only
      split_ifs with hthrow
      · exact .receiveInterrupted (by rw [hp]; rfl) hthrow
      · rw [receivePacket]
        split_ifs with hwait
        · simp only [leaveWait_readQueue, leaveWait_transportClosing] at hwait
          have hchange : Change kind s (.resume t refusal) _ _ := .receiveWaits hp hwait.1 hwait.2
          simpa using hchange
        · simp only [leaveWait_readQueue, leaveWait_transportClosing, not_and_or,
            Bool.not_eq_false] at hwait
          apply Change.pops
          · rw [hp]
            rfl
          · exact hthrow
          · simp [hp]
          · exact fun _ => hwait
  | receiveWait f =>
      dsimp only
      split_ifs with hthrow
      · exact .receiveInterrupted (by rw [hp]; rfl) hthrow
      · apply Change.pops
        · rw [hp]
          rfl
        · exact hthrow
        · intro g hg
          obtain rfl : f = g := by simpa [hp] using hg
          apply (Loop.finished_of_woken _ hwake hthrow).2
          rw [Loop.waits, hp]
          rfl
        · simp [hp]
  | sendCheckpoint item =>
      dsimp only
      split_ifs with hthrow
      · exact .sendInterrupted (by rw [hp]; rfl) hthrow
      · rw [sendPacket]
        split_ifs with hset
        · exact .transmits (by rw [hp]; rfl) hthrow
        · have hevent : (leaveWait s t).writeEvent = s.writeEvent := by simp [leaveWait, hp]
          rw [hevent, Bool.not_eq_true] at hset
          have hchange : Change kind s (.resume t refusal) _ _ := .sendWaits hp hset
          simpa using hchange
  | sendWait item f =>
      dsimp only
      split_ifs with hthrow
      · exact .sendInterrupted (by rw [hp]; rfl) hthrow
      · exact .transmits (by rw [hp]; rfl) hthrow

theorem step_change (hs : step kind s a = some (s', o)) : Change kind s a s' o := by
  cases a with
  | receive t =>
      obtain ⟨-, heq⟩ := Option.ite_none_right_eq_some.mp hs
      rw [receive] at heq
      split_ifs at heq with hguard <;> cases heq
      · exact .receiveBusy
      · exact .receiveStarts (by simpa using hguard)
  | send t item =>
      obtain ⟨hp, heq⟩ := Option.ite_none_right_eq_some.mp hs
      rw [send] at heq
      split_ifs at heq with hguard <;> cases heq
      · exact .sendBusy
      · exact .sendStarts hp
  | aclose =>
      cases hs
      exact .closed
  | datagramReceived data addr =>
      cases hs
      exact .arrived data addr
  | connectionLost =>
      obtain ⟨hclosing, ⟨⟩⟩ := Option.ite_none_right_eq_some.mp hs
      exact .lost hclosing
  | pauseWriting =>
      cases hs
      exact .paused
  | resumeWriting =>
      cases hs
      exact .resumed
  | transportCloses =>
      cases hs
      exact .transportClosed
  | cancel t =>
      obtain ⟨-, ⟨⟩⟩ := Option.ite_none_left_eq_some.mp hs
      exact .requested t
  | resume t refusal =>
      obtain ⟨hwake, heq⟩ := Option.ite_none_right_eq_some.mp hs
      have hchange : Change kind s (.resume t refusal) _ _ := resume_change hwake
      rwa [Option.some.inj heq] at hchange

omit [DecidableEq τ] in
theorem popleft_nil (hempty : s.readQueue = []) :
    popleft kind s = ({ s with receiveGuarded := false }, .raised (closingError s)) := by
  rw [popleft, hempty]

omit [DecidableEq τ] in
theorem popleft_cons (hqueue : s.readQueue = packet :: rest) :
    popleft kind s = ({ s with readQueue := rest, receiveGuarded := false },
      .returned (some (kind.unpack packet))) := by
  rw [popleft, hqueue]

omit [DecidableEq τ] in
/-- The end of a `send()`: it raises and hands over nothing, or the open transport takes the
datagram. -/
theorem transmit_cases (kind : Kind ι ρ) (s : State τ ι) (item : ι) (refusal : Option Error) :
    (∃ e, transmit kind s item refusal = ({ s with sendGuarded := false }, .raised e) ∧
      (s.closed = true → e = .closedResourceError) ∧
      (s.closed = false → s.transportClosing = true → e = .brokenResourceError)) ∨
    s.closed = false ∧ s.transportClosing = false ∧
      transmit kind s item refusal =
        ({ s with sendGuarded := false, sent := s.sent ++ [kind.sendto item] },
          .returned none) := by
  unfold transmit
  cases hclosed : s.closed with
  | true => exact .inl ⟨_, rfl, fun _ => rfl, by simp⟩
  | false =>
      cases hclosing : s.transportClosing with
      | true => exact .inl ⟨_, rfl, by simp, fun _ _ => rfl⟩
      | false =>
          cases refusal with
          | some e => exact .inl ⟨e, rfl, by simp, by simp⟩
          | none => exact .inr ⟨rfl, rfl, rfl⟩

/-- The results are those of some datagrams that arrived, in their order, and the queue is
accounted for. -/
def Delivered (kind : Kind ι ρ) (s : State τ ι) (h : History ρ) : Prop :=
  ∃ taken first, Account maxlen h.arrived s.readQueue taken first ∧
    h.returned.map some = taken.map fun i => h.arrived[i]?.map kind.unpack

omit [DecidableEq τ] in
theorem Delivered.initial : Delivered kind (initial τ ι) History.empty :=
  ⟨[], 0, .empty maxlen, rfl⟩

omit [DecidableEq τ] in
/-- A step that leaves the queue alone, lets nothing arrive and returns nothing. -/
theorem Delivered.keep {h' : History ρ} (delivered : Delivered kind s h)
    (hqueue : s'.readQueue = s.readQueue) (harrived : h'.arrived = h.arrived)
    (hreturned : h'.returned = h.returned) : Delivered kind s' h' := by
  rw [Delivered, hqueue, harrived, hreturned]
  exact delivered

omit [DecidableEq τ] in
theorem Delivered.arrive (delivered : Delivered kind s h) {h' : History ρ}
    (hqueue : s'.readQueue = appendBounded maxlen s.readQueue packet)
    (harrived : h'.arrived = h.arrived ++ [packet]) (hreturned : h'.returned = h.returned) :
    Delivered kind s' h' := by
  obtain ⟨taken, first, account, hresults⟩ := delivered
  refine ⟨taken, first + (s.readQueue.length + 1 - maxlen), ?_, ?_⟩
  · rw [hqueue, harrived]
    exact account.append packet
  · rw [hreturned, harrived, hresults]
    apply List.map_congr_left
    intro i hi
    rw [List.getElem?_append_left ((account.past i hi).trans_le account.within)]

omit [DecidableEq τ] in
theorem Delivered.pop (delivered : Delivered kind s h) {h' : History ρ}
    (hqueue : s.readQueue = packet :: rest) (hrest : s'.readQueue = rest)
    (harrived : h'.arrived = h.arrived)
    (hreturned : h'.returned = h.returned ++ [kind.unpack packet]) : Delivered kind s' h' := by
  obtain ⟨taken, first, account, hresults⟩ := delivered
  rw [hqueue] at account
  obtain ⟨hpopped, hfront⟩ := account.popleft
  refine ⟨taken ++ [first], first + 1, ?_, ?_⟩
  · rw [hrest, harrived]
    exact hpopped
  · rw [hreturned, harrived, List.map_append, List.map_append, hresults, List.map_singleton,
      List.map_singleton, hfront, Option.map_some]

theorem Delivered.step (delivered : Delivered kind s h) (hs : step kind s a = some (s', o)) :
    Delivered kind s' (record h s a o) := by
  cases step_change hs with
  | receiveBusy | receiveStarts | sendBusy | sendStarts => exact delivered.keep rfl rfl rfl
  | lost | paused | resumed | transportClosed | requested => exact delivered.keep rfl rfl rfl
  | closed =>
      refine delivered.keep ?_ rfl rfl
      rw [aclose]
      split_ifs <;> rfl
  | arrived data addr => exact delivered.arrive rfl rfl rfl
  | receiveInterrupted | receiveWaits | sendInterrupted | sendWaits =>
      exact delivered.keep (by simp) rfl rfl
  | @pops t _ hp =>
      cases hqueue : s.readQueue with
      | nil =>
          rw [popleft_nil (by simpa using hqueue)]
          exact delivered.keep (by simp) rfl rfl
      | cons packet rest =>
          rw [popleft_cons (by simpa using hqueue)]
          exact delivered.pop hqueue rfl rfl rfl
  | @transmits t refusal item hp =>
      obtain ⟨e, heq, -⟩ | ⟨-, -, heq⟩ := transmit_cases kind (leaveWait s t) item refusal
      · rw [heq]
        exact delivered.keep (by simp) rfl rfl
      · rw [heq]
        exact delivered.keep (by simp) rfl rfl

/-- In every run the results of `receive()` are those of datagrams that arrived, in the order in
which they arrived. The datagrams that are queued are the last ones, at most a hundred, and a
datagram that was neither returned nor is queued was followed by a hundred others. -/
theorem datagrams_keep_order
    (run : (recorded τ kind).Reachable Machine.anyStep (initial τ ι, .empty) (s, h)) :
    ∃ taken first, Account maxlen h.arrived s.readQueue taken first ∧
      h.returned.map some = taken.map fun i => h.arrived[i]?.map kind.unpack :=
  run.invariant_history (I := Delivered kind) Delivered.initial
    fun _ _ _ _ _ delivered _ hs => delivered.step hs

end Steps

/-- A receiver waits, and two datagrams arrive before it goes on. -/
def twoArrived : State Unit Bytes × History Bytes :=
  ((recorded Unit connectedUDPSocket).exec Machine.anyStep (initial Unit Bytes, .empty)
    [.receive (), .resume () none, .datagramReceived [7] (.pair "::1" 53),
      .datagramReceived [8] (.pair "::1" 53), .resume () none]).get (by decide)

theorem datagrams_keep_order_twoArrived :
    twoArrived.2.returned = [[7]] ∧ twoArrived.1.readQueue = [([8], .pair "::1" 53)] ∧
      ∃ taken first, Account maxlen twoArrived.2.arrived twoArrived.1.readQueue taken first ∧
        twoArrived.2.returned.map some =
          taken.map fun i => twoArrived.2.arrived[i]?.map connectedUDPSocket.unpack := by
  have run : (recorded Unit connectedUDPSocket).Reachable Machine.anyStep
      (initial Unit Bytes, .empty) twoArrived := Machine.exec_get_reachable _ _ _
  exact ⟨by decide, by decide, datagrams_keep_order run⟩

end Anyio.UDPSocket
