import Anyio.UDPSocket.Waiting

/-!
# Closed UDP sockets

A `receive()` raises that the socket is closed or broken only when nothing is
queued and the transport is closing. Once `aclose()` has closed an open
transport, no datagram is sent again, receivers get what is still queued, and
all others get a `ClosedResourceError`.
-/

namespace Anyio.UDPSocket

open Asyncio Library

variable {τ ι ρ : Type*} [DecidableEq τ] {kind : Kind ι ρ} {s s' : State τ ι} {h : History ρ}
  {a : Action τ ι} {o : Answer ι ρ} {t : τ} {item : ι} {refusal : Option Error}

/-- The outcomes of the piece of `receive()` that follows an await. -/
inductive Received (kind : Kind ι ρ) (s : State τ ι) : Answer ι ρ → Prop
  | interrupted : Received kind s (.raised .cancelledError)
  | waits (p : Point ι) (hempty : s.readQueue = []) (hopen : s.transportClosing = false) :
      Received kind s (.suspended p)
  | packet {packet : Packet} {rest : List Packet} (hqueue : s.readQueue = packet :: rest) :
      Received kind s (.returned (some (kind.unpack packet)))
  | ended (hempty : s.readQueue = []) (hclosing : s.transportClosing = true) :
      Received kind s (.raised (closingError s))

theorem Inv.received (inv : Inv s h)
    (hs : UDPSocket.step kind s (.resume t refusal) = some (s', o))
    (hp : (s.loop.point t).receives = true) : Received kind s o := by
  cases step_change hs with
  | receiveInterrupted => exact .interrupted
  | receiveWaits _ hempty hopen => exact .waits _ hempty hopen
  | pops _ _ hwoken hready =>
      cases hqueue : s.readQueue with
      | cons packet rest =>
          rw [popleft_cons (by simpa using hqueue)]
          exact .packet hqueue
      | nil =>
          have hclosing : s.transportClosing = true := by
            cases hpoint : s.loop.point t with
            | receiveCheckpoint => exact (hready hpoint).resolve_left fun hne => hne hqueue
            | receiveWait f =>
                have hsignal := (inv.listening t f hpoint).signalled (hwoken f hpoint)
                exact inv.closing (hsignal.resolve_left fun hne => hne hqueue)
            | outside | sendCheckpoint | sendWait =>
                rw [hpoint] at hp
                cases hp
          have hsame : closingError (leaveWait s t) = closingError s := by simp [closingError]
          rw [popleft_nil (by simpa using hqueue), hsame]
          exact .ended hqueue hclosing
  | sendInterrupted hsending | transmits hsending =>
      cases hpoint : s.loop.point t with
      | receiveCheckpoint | receiveWait =>
          rw [hpoint] at hsending
          cases hsending
      | outside | sendCheckpoint | sendWait =>
          rw [hpoint] at hp
          cases hp
  | sendWaits hsending =>
      rw [hsending] at hp
      cases hp

/-- A closed socket stays closed and hands nothing to its transport. -/
theorem closed_step (hclosed : s.closed = true) (hs : step kind s a = some (s', o)) :
    s'.closed = true ∧ s'.sent = s.sent := by
  cases step_change hs with
  | receiveBusy | receiveStarts | sendBusy | sendStarts => exact ⟨hclosed, rfl⟩
  | arrived | lost | paused | resumed | transportClosed | requested => exact ⟨hclosed, rfl⟩
  | closed =>
      rw [aclose]
      split_ifs
      · exact ⟨hclosed, rfl⟩
      · exact ⟨rfl, rfl⟩
  | receiveInterrupted | receiveWaits | sendInterrupted | sendWaits =>
      simpa using hclosed
  | @pops t =>
      obtain ⟨queue, hqueue⟩ := popleft_fst kind (leaveWait s t)
      rw [hqueue]
      simpa using hclosed
  | @transmits t refusal item =>
      obtain ⟨e, heq, -⟩ | ⟨hopen, -, -⟩ := transmit_cases kind (leaveWait s t) item refusal
      · rw [heq]
        simpa using hclosed
      · rw [leaveWait_closed, hclosed] at hopen
        cases hopen

/-- The pieces of the calls on a closed socket: what is queued is returned, a sender that has to
wait for its turn waits, and else the call is over with a `ClosedResourceError` or was cancelled. -/
inductive Refused (kind : Kind ι ρ) (s : State τ ι) (t : τ) : Answer ι ρ → Prop
  | interrupted : Refused kind s t (.raised .cancelledError)
  | refused (hempty : (s.loop.point t).receives = true → s.readQueue = []) :
      Refused kind s t (.raised .closedResourceError)
  | packet {packet : Packet} {rest : List Packet} (hreceives : (s.loop.point t).receives = true)
      (hqueue : s.readQueue = packet :: rest) :
      Refused kind s t (.returned (some (kind.unpack packet)))
  | paused (p : Point ι) (hsending : (s.loop.point t).sending.isSome)
      (hpaused : s.writeEvent.value = false) : Refused kind s t (.suspended p)

theorem Inv.refused (inv : Inv s h) (hclosed : s.closed = true)
    (hs : UDPSocket.step kind s (.resume t refusal) = some (s', o)) : Refused kind s t o := by
  have hclosing := inv.closed hclosed
  by_cases hp : (s.loop.point t).receives = true
  · cases inv.received hs hp with
    | interrupted => exact .interrupted
    | waits _ _ hopen =>
        rw [hclosing] at hopen
        cases hopen
    | packet hqueue => exact .packet hp hqueue
    | ended hempty =>
        rw [closingError, if_pos hclosed]
        exact .refused fun _ => hempty
  · cases step_change hs with
    | receiveInterrupted hreceives | pops hreceives => exact absurd hreceives hp
    | receiveWaits hpoint =>
        rw [hpoint] at hp
        exact absurd rfl hp
    | sendInterrupted => exact .interrupted
    | sendWaits hpoint hpaused => exact .paused _ (by rw [hpoint]; rfl) hpaused
    | @transmits _ _ item =>
        obtain ⟨e, heq, herror, -⟩ | ⟨hopen, -, -⟩ :=
          transmit_cases kind (leaveWait s t) item refusal
        · rw [heq, herror (by simpa using hclosed)]
          exact .refused fun h => absurd h hp
        · rw [leaveWait_closed, hclosed] at hopen
          cases hopen

/-- From the moment on at which `aclose()` has closed an open transport, in every run no
datagram is sent, a `receive()` returns what is queued, and every other call that is not
cancelled ends with a `ClosedResourceError`. -/
theorem closed_for_good
    (run : (recorded τ kind).Reachable Machine.anyStep (UDPSocket.initial τ ι, .empty) (s, h))
    (hclosed : s.closed = true) {later : State τ ι × History ρ}
    (more : (recorded τ kind).Reachable Machine.anyStep (s, h) later) :
    later.1.closed = true ∧ later.1.sent = s.sent ∧
      ∀ t refusal s' o, step kind later.1 (.resume t refusal) = some (s', o) →
        Refused kind later.1 t o := by
  have kept : Inv later.1 later.2 ∧ later.1.closed = true ∧ later.1.sent = s.sent := by
    apply more.invariant (I := fun p => Inv p.1 p.2 ∧ p.1.closed = true ∧ p.1.sent = s.sent)
      ⟨Inv.reachable run, hclosed, rfl⟩
    rintro ⟨s, h⟩ a ⟨s', h'⟩ o ⟨inv, hclosed, hsent⟩ - hs
    obtain ⟨hstep, rfl⟩ := Machine.withHistory_step.mp hs
    obtain ⟨hclosed', hsent'⟩ := closed_step hclosed hstep
    exact ⟨inv.step hstep, hclosed', hsent'.trans hsent⟩
  exact ⟨kept.2.1, kept.2.2, fun t refusal s' o hs => kept.1.refused kept.2.1 hs⟩

/-- A datagram is queued when `aclose()` is called; after that a task calls `receive()`. -/
def closedWithOne : State Unit Bytes × History Bytes :=
  ((recorded Unit connectedUDPSocket).exec Machine.anyStep (initial Unit Bytes, .empty)
    [.datagramReceived [7] (.pair "::1" 53), .aclose]).get (by decide)

def receivingLater : State Unit Bytes × History Bytes :=
  ((recorded Unit connectedUDPSocket).exec Machine.anyStep closedWithOne
    [.receive (), .resume () none, .receive ()]).get (by decide)

theorem closed_for_good_receivingLater :
    receivingLater.2.returned = [[7]] ∧ receivingLater.1.closed = true ∧
      receivingLater.1.sent = closedWithOne.1.sent ∧
      ∀ t refusal s' o, step connectedUDPSocket receivingLater.1 (.resume t refusal) =
        some (s', o) → Refused connectedUDPSocket receivingLater.1 t o := by
  have run : (recorded Unit connectedUDPSocket).Reachable Machine.anyStep
      (initial Unit Bytes, .empty) closedWithOne := Machine.exec_get_reachable _ _ _
  have more : (recorded Unit connectedUDPSocket).Reachable Machine.anyStep closedWithOne
      receivingLater := Machine.exec_get_reachable _ _ _
  exact ⟨by decide, closed_for_good run (by decide) more⟩

end Anyio.UDPSocket
