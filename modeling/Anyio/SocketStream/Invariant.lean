import Anyio.SocketStream.Model
import Mathlib.Tactic.Common

/-!
# The invariant of a socket stream

The flag of the read event is up whenever data is queued, and it is up only
for a reason: queued data, the end of the stream, or a lost connection. The
guard leaves the queue and the flag to a single `receive()`, so that what
woke it is still there when it runs.
-/

namespace Anyio.SocketStream

open Asyncio Library

variable {τ : Type*}

/-- The `max_bytes` of a suspended `receive()`. -/
def Point.receiving : Point → Option Int
  | .receiveWait maxBytes _ => some maxBytes
  | .receiveCheckpoint maxBytes => some maxBytes
  | _ => none

/-- What holds of the future that a `receive()` awaits. -/
structure Waiting (s : State τ) (f : FutureId) : Prop where
  pending : s.loop.future f = .pending →
    f ∈ s.readEvent.waiters ∧ s.readEvent.value = false ∧ s.isAtEof = false
  finished : s.loop.future f = .finished → s.readEvent.value = true
  separate : f ∉ s.writeEvent.waiters

/-- What holds in every state that is reached by proper calls and callbacks; `lost` tells
whether `connection_lost()` was called. -/
structure Inv (s : State τ) (lost : Bool) : Prop where
  owned : s.loop.Owned
  created : ∀ f ∈ s.writeEvent.waiters, f < s.loop.nextFuture
  nonempty : ∀ chunk ∈ s.readQueue, chunk ≠ []
  queued : s.readQueue ≠ [] → s.readEvent.value = true
  cause : s.readEvent.value = true → s.readQueue ≠ [] ∨ s.isAtEof = true ∨ lost = true
  guarded : ∀ t m, (s.loop.point t).receiving = some m → s.receiveGuarded = true ∧ 1 ≤ m
  single : ∀ t u m n, (s.loop.point t).receiving = some m → (s.loop.point u).receiving = some n →
    t = u
  ready : ∀ t m, s.loop.point t = .receiveCheckpoint m →
    s.readEvent.value = true ∨ s.transportClosing = true ∨ s.isAtEof = true
  waiting : ∀ t m f, s.loop.point t = .receiveWait m f → Waiting s f

/-- Calls ask for at least one byte, and the transport hands over at least one. -/
def Action.Proper : Action τ → Prop
  | .receive _ maxBytes => 1 ≤ maxBytes
  | .dataReceived data => data ≠ []
  | _ => True

/-- The callback that reports the loss of the connection. -/
def Action.isLoss : Action τ → Bool
  | .connectionLost _ => true
  | _ => false

instance (a : Action τ) : Decidable a.Proper :=
  match a with
  | .receive _ maxBytes => inferInstanceAs (Decidable (1 ≤ maxBytes))
  | .dataReceived data => inferInstanceAs (Decidable (data ≠ []))
  | .send _ _ | .aclose _ | .eofReceived | .connectionLost _ | .pauseWriting | .resumeWriting
  | .transportCloses | .cancel _ | .resume _ _ => .isTrue trivial

variable {s s' : State τ} {lost : Bool} {t u : τ} {m : Int} {f : FutureId}

theorem waits_receiveWait (h : s.loop.point t = .receiveWait m f) :
    s.loop.waits t = .future f := by
  simp [Loop.waits, h, Coroutine.waits]

theorem receiving_receiveWait (h : s.loop.point t = .receiveWait m f) :
    (s.loop.point t).receiving = some m := by
  rw [h]
  rfl

theorem receiving_receiveCheckpoint (h : s.loop.point t = .receiveCheckpoint m) :
    (s.loop.point t).receiving = some m := by
  rw [h]
  rfl

theorem Inv.initial : Inv (initial τ) false := by
  constructor
  · constructor <;> simp [SocketStream.initial, Loop.waits, Coroutine.waits]
  all_goals simp [SocketStream.initial, Event.new, Event.raised, Point.receiving]

/-- The future of a waiting `receive()` exists. -/
theorem Inv.fresh (inv : Inv s lost) (h : s.loop.point t = .receiveWait m f) :
    f < s.loop.nextFuture :=
  inv.owned.created t f (waits_receiveWait h)

/-- Without the guard nobody receives. -/
theorem Inv.unguarded (inv : Inv s lost) (h : s.receiveGuarded = false) :
    (s.loop.point t).receiving = none := by
  cases hp : (s.loop.point t).receiving with
  | none => rfl
  | some m =>
      have hguarded := (inv.guarded t m hp).1
      rw [h] at hguarded
      cases hguarded

/-- What happens away from the receiving end: it may cancel the future of a waiting `receive()`,
but leaves it alone otherwise. -/
theorem Inv.frame (inv : Inv s lost) (howned : s'.loop.Owned)
    (hcreated : ∀ f ∈ s'.writeEvent.waiters, f < s'.loop.nextFuture)
    (hqueue : s'.readQueue = s.readQueue) (hevent : s'.readEvent = s.readEvent)
    (heof : s'.isAtEof = s.isAtEof) (hguard : s'.receiveGuarded = s.receiveGuarded)
    (hclosing : s.transportClosing = true → s'.transportClosing = true)
    (hpoint : ∀ t, (s'.loop.point t).receiving ≠ none → s'.loop.point t = s.loop.point t)
    (hfuture : ∀ t m f, s.loop.point t = .receiveWait m f →
      s'.loop.future f = s.loop.future f ∨ s'.loop.future f = .cancelled)
    (hwriters : ∀ t m f, s.loop.point t = .receiveWait m f → f ∈ s'.writeEvent.waiters →
      f ∈ s.writeEvent.waiters) : Inv s' lost := by
  have hsame : ∀ t m, (s'.loop.point t).receiving = some m →
      s'.loop.point t = s.loop.point t := by
    intro t m h
    apply hpoint
    simp [h]
  have hback : ∀ t m, (s'.loop.point t).receiving = some m →
      (s.loop.point t).receiving = some m := by
    intro t m h
    rw [← hsame t m h, h]
  constructor
  · exact howned
  · exact hcreated
  · rw [hqueue]
    exact inv.nonempty
  · rw [hqueue, hevent]
    exact inv.queued
  · rw [hqueue, hevent, heof]
    exact inv.cause
  · intro t m h
    rw [hguard]
    exact inv.guarded t m (hback t m h)
  · intro t u m n ht hu
    exact inv.single t u m n (hback t m ht) (hback u n hu)
  · intro t m h
    have hp := inv.ready t m ((hsame t m (receiving_receiveCheckpoint h)).symm.trans h)
    rw [hevent, heof]
    exact hp.imp_right (Or.imp_left hclosing)
  · intro t m f h
    have hp := (hsame t m (receiving_receiveWait h)).symm.trans h
    have hwaiting := inv.waiting t m f hp
    constructor
    · intro hf
      rw [hevent, heof]
      apply hwaiting.pending
      cases hfuture t m f hp with
      | inl h => exact h.symm.trans hf
      | inr h => simp [h] at hf
    · intro hf
      rw [hevent]
      apply hwaiting.finished
      cases hfuture t m f hp with
      | inl h => exact h.symm.trans hf
      | inr h => simp [h] at hf
    · exact fun hmem => hwaiting.separate (hwriters t m f hp hmem)

/-- `read_event.set()`, with what the callback of the protocol has changed before. -/
theorem Inv.setReadEvent {queue : List Bytes} {exception : Option Error} {atEof lost' : Bool}
    (inv : Inv s lost) (hqueue : ∀ chunk ∈ queue, chunk ≠ [])
    (hcause : queue ≠ [] ∨ atEof = true ∨ lost' = true) :
    Inv (setReadEvent { s with readQueue := queue, exception := exception, isAtEof := atEof })
      lost' := by
  constructor
  · exact inv.owned.congr (fun u => by simp [SocketStream.setReadEvent])
      (by simp [SocketStream.setReadEvent])
  · simpa [SocketStream.setReadEvent] using inv.created
  · exact hqueue
  · intro _
    rfl
  · exact fun _ => hcause
  · simpa [SocketStream.setReadEvent] using inv.guarded
  · simpa [SocketStream.setReadEvent] using inv.single
  · intro _ _ _
    exact .inl rfl
  · intro t m f h
    have hwaiting := inv.waiting t m f (by simpa [SocketStream.setReadEvent] using h)
    constructor
    · intro hf
      -- a pending waiter is in the queue of an event that was not set, and so it was woken
      simp only [SocketStream.setReadEvent, Event.wakeWaiters_future] at hf
      split_ifs at hf with hwoken
      obtain ⟨hmem, hvalue, -⟩ := hwaiting.pending hf
      exact absurd ⟨hvalue, hmem, hf⟩ hwoken
    · intro _
      rfl
    · exact hwaiting.separate

theorem Inv.setWriteEvent (inv : Inv s lost) : Inv (setWriteEvent s) lost := by
  have hpoint : ∀ u, (SocketStream.setWriteEvent s).loop.point u = s.loop.point u := by
    simp [SocketStream.setWriteEvent]
  apply inv.frame
  · exact inv.owned.congr hpoint (by simp [SocketStream.setWriteEvent])
  · simpa [SocketStream.setWriteEvent] using inv.created
  · rfl
  · rfl
  · rfl
  · rfl
  · exact id
  · exact fun u _ => hpoint u
  · intro t m f h
    left
    have hseparate := (inv.waiting t m f h).separate
    simp [SocketStream.setWriteEvent, Event.wakeWaiters_future, hseparate]
  · exact fun _ _ _ _ hmem => hmem

theorem Inv.dataReceived (inv : Inv s lost) {data : Bytes} (hdata : data ≠ []) :
    Inv (dataReceived s data) lost := by
  apply inv.setReadEvent
  · intro chunk hchunk
    cases List.mem_append.mp hchunk with
    | inl h => exact inv.nonempty chunk h
    | inr h => rwa [List.mem_singleton.mp h]
  · left
    simp

theorem Inv.eofReceived (inv : Inv s lost) : Inv (eofReceived s) lost :=
  inv.setReadEvent inv.nonempty (.inr (.inl rfl))

theorem Inv.connectionLost (inv : Inv s lost) (exc : Bool) : Inv (connectionLost s exc) true := by
  apply Inv.setWriteEvent
  exact inv.setReadEvent inv.nonempty (.inr (.inr rfl))

section Calls
variable [DecidableEq τ]

/-- The only `receive()` ends. What it leaves behind keeps the flag up as long as data is
queued, and only for a reason. -/
theorem Inv.finish (inv : Inv s lost) (hp : (s.loop.point t).receiving = some m)
    {queue : List Bytes} {event : Event} (hqueue : ∀ chunk ∈ queue, chunk ≠ [])
    (hqueued : queue ≠ [] → event.value = true)
    (hcause : event.value = true → queue ≠ [] ∨ s.isAtEof = true ∨ lost = true) :
    Inv { wake s t with readQueue := queue, readEvent := event, receiveGuarded := false }
      lost := by
  have hnone : ∀ u, ((s.loop.resumeAt t .outside).point u).receiving = none := by
    intro u
    rw [Loop.resumeAt_point]
    split_ifs with hu
    · rfl
    · cases hr : (s.loop.point u).receiving with
      | none => rfl
      | some n => exact absurd (inv.single u t n m hr hp) hu
  constructor
  · exact inv.owned.leave (t := t) (p := .outside) (by simp [wake]) rfl (by simp [Coroutine.waits])
  · exact inv.created
  · exact hqueue
  · exact hqueued
  · exact hcause
  · intro u n h
    exact absurd ((hnone u).symm.trans h) (by simp)
  · intro u v n k h
    exact absurd ((hnone u).symm.trans h) (by simp)
  · intro u n h
    exact absurd ((hnone u).symm.trans (receiving_receiveCheckpoint h)) (by simp)
  · intro u n g h
    exact absurd ((hnone u).symm.trans (receiving_receiveWait h)) (by simp)

omit [DecidableEq τ] in
/-- The two pieces of a chunk make up the chunk, and neither is empty. -/
theorem splitChunk_spec {first : Bytes} (hfirst : first ≠ []) (hm : 1 ≤ m) :
    (splitChunk first m).1 ++ (splitChunk first m).2.flatten = first ∧
      (splitChunk first m).1 ≠ [] ∧ ((splitChunk first m).1.length : Int) ≤ m ∧
        ∀ chunk ∈ (splitChunk first m).2, chunk ≠ [] := by
  obtain ⟨n, rfl⟩ := Int.eq_ofNat_of_zero_le (a := m) (by omega)
  have hn : 0 < n := by omega
  rw [splitChunk]
  split_ifs with hlt
  · have hlength : n < first.length := by omega
    simp only [sliceTo_natCast, sliceFrom_natCast, List.flatten_cons, List.flatten_nil,
      List.append_nil, List.take_append_drop, List.mem_singleton, forall_eq, true_and]
    refine ⟨?_, ?_, ?_⟩
    · exact List.ne_nil_of_length_pos (by rw [List.length_take]; omega)
    · rw [List.length_take]
      omega
    · exact List.ne_nil_of_length_pos (by rw [List.length_drop]; omega)
  · exact ⟨by simp, hfirst, by simp only; omega, by simp⟩

omit [DecidableEq τ] in
/-- `receive()` from `popleft()` on: it raises on an empty queue, and otherwise moves the front
of the queue into its result. -/
theorem takeChunk_cases (hqueue : ∀ chunk ∈ s.readQueue, chunk ≠ []) (hm : 1 ≤ m) :
    (s.readQueue = [] ∧
      takeChunk s m = ({ s with receiveGuarded := false }, .raised (endOfReceive s))) ∨
    ∃ chunk queue, chunk ++ queue.flatten = s.readQueue.flatten ∧
      chunk ≠ [] ∧ (chunk.length : Int) ≤ m ∧ (∀ chunk ∈ queue, chunk ≠ []) ∧
      takeChunk s m = ({ s with
          readQueue := queue
          readEvent := if queue = [] then s.readEvent.clear else s.readEvent
          receiveGuarded := false }, .returned (some chunk)) := by
  cases hq : s.readQueue with
  | nil =>
      left
      simp [takeChunk, hq]
  | cons first rest =>
      right
      rw [hq] at hqueue
      obtain ⟨heq, hne, hle, hleftover⟩ :=
        splitChunk_spec (hqueue first List.mem_cons_self) hm
      refine ⟨(splitChunk first m).1, (splitChunk first m).2 ++ rest, ?_, hne, hle, ?_, ?_⟩
      · rw [List.flatten_append, ← List.append_assoc, heq, List.flatten_cons]
      · intro chunk hchunk
        cases List.mem_append.mp hchunk with
        | inl h => exact hleftover chunk h
        | inr h => exact hqueue chunk (List.mem_cons_of_mem first h)
      · simp only [takeChunk, hq]

/-- A `receive()` runs to its end, after it has left the event or without having waited. -/
theorem Inv.takeChunk (inv : Inv s lost) (hp : (s.loop.point t).receiving = some m)
    (event : Event) (hevent : event.value = s.readEvent.value) :
    Inv (takeChunk { wake s t with readEvent := event } m).1 lost := by
  have hm := (inv.guarded t m hp).2
  obtain ⟨-, heq⟩ | ⟨chunk, queue, hflatten, hne, -, hqueue, heq⟩ :=
    takeChunk_cases (s := { wake s t with readEvent := event }) inv.nonempty hm
  · rw [heq]
    exact inv.finish hp inv.nonempty (hevent ▸ inv.queued) (hevent ▸ inv.cause)
  · rw [heq]
    have hset : event.value = true := by
      rw [hevent]
      apply inv.queued
      intro hnil
      simp [wake, hnil, hne] at hflatten
    apply inv.finish hp hqueue
    · intro h
      rwa [if_neg h]
    · intro h
      left
      rintro rfl
      simp at h

/-- A new `receive()` takes the guard, so it is the only one. -/
theorem Inv.start (inv : Inv s lost) (hguard : s.receiveGuarded = false) (hm : 1 ≤ m)
    {p : Point} (hp : p.receiving = some m) {event : Event}
    (hevent : event.value = s.readEvent.value) {loop : Loop τ Point} (howned : loop.Owned)
    (hnext : s.loop.nextFuture ≤ loop.nextFuture)
    (hpoint : ∀ u, loop.point u = if u = t then p else s.loop.point u)
    (hready : p = .receiveCheckpoint m →
      s.readEvent.value = true ∨ s.transportClosing = true ∨ s.isAtEof = true)
    (hwaiting : ∀ f, p = .receiveWait m f →
      Waiting { s with receiveGuarded := true, readEvent := event, loop := loop } f) :
    Inv { s with receiveGuarded := true, readEvent := event, loop := loop } lost := by
  have honly : ∀ u n, (loop.point u).receiving = some n → u = t ∧ loop.point u = p ∧ n = m := by
    intro u n h
    rw [hpoint] at h ⊢
    split_ifs at h ⊢ with hu
    · exact ⟨hu, rfl, Option.some.inj (h.symm.trans hp)⟩
    · rw [inv.unguarded hguard] at h
      cases h
  constructor
  · exact howned
  · exact fun f hf => (inv.created f hf).trans_le hnext
  · exact inv.nonempty
  · exact fun h => hevent.trans (inv.queued h)
  · exact fun h => inv.cause (hevent.symm.trans h)
  · intro u n h
    obtain ⟨-, -, rfl⟩ := honly u n h
    exact ⟨rfl, hm⟩
  · intro u v n k hu hv
    exact (honly u n hu).1.trans (honly v k hv).1.symm
  · intro u n h
    obtain ⟨-, hu, rfl⟩ := honly u n (by rw [h]; rfl)
    rw [hevent]
    exact hready (hu.symm.trans h)
  · intro u n f h
    obtain ⟨-, hu, rfl⟩ := honly u n (by rw [h]; rfl)
    exact hwaiting f (hu.symm.trans h)

theorem Inv.receive (inv : Inv s lost) (t : τ) (hm : 1 ≤ m) :
    Inv (receive s t m).1 lost := by
  rw [SocketStream.receive]
  split_ifs with hguard hwait
  · exact inv
  · apply inv.start (t := t) (p := .receiveWait m s.loop.nextFuture) (by simpa using hguard) hm rfl
    · rfl
    · exact inv.owned.await_new (t := t) (p := .receiveWait m s.loop.nextFuture)
        (fun u => by simp) (by simp) rfl
    · simp
    · simp
    · simp
    · rintro f ⟨⟩
      constructor
      · intro _
        exact ⟨by simp, hwait.1, hwait.2.2⟩
      · intro hf
        simp at hf
      · exact fun hmem => (inv.created _ hmem).ne rfl
  · apply inv.start (t := t) (p := .receiveCheckpoint m) (by simpa using hguard) hm rfl
    · rfl
    · exact inv.owned.leave (t := t) (p := .receiveCheckpoint m) (by simp) rfl
        (by simp [Coroutine.waits])
    · simp
    · simp
    · intro _
      by_contra h
      simp only [not_or, Bool.not_eq_true] at h
      exact hwait h
    · simp

/-- A task comes to stand at a point outside of `receive()`. -/
theorem Inv.move (inv : Inv s lost) {p : Point} (hreceiving : p.receiving = none)
    (howned : s'.loop.Owned)
    (hcreated : ∀ f ∈ s'.writeEvent.waiters, f < s'.loop.nextFuture)
    (hpoint : ∀ u, s'.loop.point u = if u = t then p else s.loop.point u)
    (hfuture : ∀ f < s.loop.nextFuture, s'.loop.future f = s.loop.future f)
    (hwriters : ∀ f < s.loop.nextFuture, f ∈ s'.writeEvent.waiters → f ∈ s.writeEvent.waiters)
    (hqueue : s'.readQueue = s.readQueue) (hevent : s'.readEvent = s.readEvent)
    (heof : s'.isAtEof = s.isAtEof) (hguard : s'.receiveGuarded = s.receiveGuarded)
    (hclosing : s.transportClosing = true → s'.transportClosing = true) : Inv s' lost := by
  refine inv.frame howned hcreated hqueue hevent heof hguard hclosing ?_ ?_ ?_
  · intro u hu
    rw [hpoint] at hu ⊢
    split_ifs at hu ⊢
    · exact absurd hreceiving hu
    · rfl
  · exact fun u m f h => .inl (hfuture f (inv.fresh h))
  · exact fun u m f h => hwriters f (inv.fresh h)

theorem Inv.send (inv : Inv s lost) (t : τ) (item : Bytes) : Inv (send s t item).1 lost := by
  rw [SocketStream.send]
  split_ifs
  · exact inv
  · apply inv.move (t := t) (p := .sendCheckpoint item) rfl
    · exact inv.owned.leave (t := t) (p := .sendCheckpoint item) (by simp) rfl
        (by simp [Coroutine.waits])
    · exact inv.created
    all_goals simp

theorem Inv.aclose (inv : Inv s lost) (t : τ) : Inv (aclose s t).1 lost := by
  rw [SocketStream.aclose]
  split_ifs
  · exact inv
  · apply inv.move (t := t) (p := .acloseYield) rfl
    · exact inv.owned.leave (t := t) (p := .acloseYield) (by simp) rfl (by simp [Coroutine.waits])
    · exact inv.created
    all_goals simp

/-- A call other than `receive()` goes on after its await. -/
theorem Inv.wake (inv : Inv s lost) (t : τ) (event : Event) {sending : Bool}
    (hevent : ∀ f ∈ event.waiters, f ∈ s.writeEvent.waiters) :
    Inv { wake s t with writeEvent := event, sendGuarded := sending } lost := by
  apply inv.move (t := t) (p := .outside) rfl
  · exact inv.owned.leave (t := t) (p := .outside) (by simp [SocketStream.wake]) rfl
      (by simp [Coroutine.waits])
  · exact fun f hf => inv.created f (hevent f hf)
  · simp [SocketStream.wake]
  · simp [SocketStream.wake]
  · exact fun f _ => hevent f
  all_goals simp [SocketStream.wake]

omit [DecidableEq τ] in
/-- A write changes nothing but what was written. -/
theorem write_ok {item : Bytes} {refusal : Option String} (h : write s item refusal = .ok s') :
    s' = { s with written := s.written ++ [item] } := by
  unfold write at h
  split at h
  · cases h
  · split at h
    · cases h
    · cases h
    · exact (Except.ok.inj h).symm

theorem Inv.sendItem (inv : Inv s lost) (t : τ) (item : Bytes) (refusal : Option String) :
    Inv (sendItem s t item refusal).1 lost := by
  rw [SocketStream.sendItem]
  cases hwrite : write s item refusal with
  | error e =>
      exact inv.frame inv.owned inv.created rfl rfl rfl rfl id (fun _ _ => rfl)
        (fun _ _ _ _ => .inl rfl) fun _ _ _ _ => id
  | ok s' =>
      obtain rfl := write_ok hwrite
      dsimp only
      split_ifs
      · exact inv.frame inv.owned inv.created rfl rfl rfl rfl id (fun _ _ => rfl)
          (fun _ _ _ _ => .inl rfl) fun _ _ _ _ => id
      · apply inv.move (t := t) (p := .sendWait s.loop.nextFuture) rfl
        · exact inv.owned.await_new (t := t) (p := .sendWait s.loop.nextFuture)
            (fun u => by simp) (by simp) rfl
        · intro f hf
          cases List.mem_append.mp hf with
          | inl h => exact Nat.lt_succ_of_lt (inv.created f h)
          | inr h =>
              rw [List.mem_singleton.mp h]
              exact Nat.lt_succ_self _
        · simp
        · intro f hf
          simp [hf.ne]
        · intro f hf hmem
          cases List.mem_append.mp hmem with
          | inl h => exact h
          | inr h => exact absurd (List.mem_singleton.mp h) hf.ne
        all_goals simp

theorem Inv.cancel (inv : Inv s lost) (t : τ) : Inv { s with loop := s.loop.cancel t } lost := by
  apply inv.frame
  · exact inv.owned.congr (fun u => by simp) (by simp)
  · simpa using inv.created
  · rfl
  · rfl
  · rfl
  · rfl
  · exact id
  · simp
  · intro u m f _
    exact (s.loop.cancel_future_cases t f).imp_right fun h => h.2.2
  · exact fun _ _ _ _ => id

theorem Inv.resume (inv : Inv s lost) (t : τ) (refusal : Option String) :
    Inv (resume s t refusal).1 lost := by
  unfold SocketStream.resume
  cases hp : s.loop.point t with
  | outside => exact inv
  | receiveWait m f =>
      have hreceiving := receiving_receiveWait hp
      dsimp only
      split_ifs
      · exact inv.finish hreceiving inv.nonempty inv.queued inv.cause
      · exact inv.takeChunk hreceiving (s.readEvent.leave f) rfl
  | receiveCheckpoint m =>
      have hreceiving := receiving_receiveCheckpoint hp
      dsimp only
      split_ifs
      · exact inv.finish hreceiving inv.nonempty inv.queued inv.cause
      · exact inv.takeChunk hreceiving s.readEvent rfl
  | sendCheckpoint item =>
      dsimp only
      split_ifs
      · exact inv.wake t s.writeEvent fun _ => id
      · exact (inv.wake t s.writeEvent fun _ => id).sendItem t item refusal
  | sendWait f => exact inv.wake t (s.writeEvent.leave f) fun _ hmem => List.mem_of_mem_erase hmem
  | acloseYield => exact inv.wake t s.writeEvent fun _ => id

/-- Every proper step keeps the invariant. -/
theorem Inv.step {a : Action τ} {r : State τ × Answer} (inv : Inv s lost) (hproper : a.Proper)
    (h : step s a = some r) : Inv r.1 (lost || a.isLoss) := by
  have keep : ∀ {s' : State τ}, Inv s' lost → Inv s' (lost || false) := by
    intro s' inv'
    rwa [Bool.or_false]
  cases a with
  | receive t m =>
      obtain ⟨-, ⟨⟩⟩ := Option.ite_none_right_eq_some.mp h
      exact keep (inv.receive t hproper)
  | send t item =>
      obtain ⟨-, ⟨⟩⟩ := Option.ite_none_right_eq_some.mp h
      exact keep (inv.send t item)
  | aclose t =>
      obtain ⟨-, ⟨⟩⟩ := Option.ite_none_right_eq_some.mp h
      exact keep (inv.aclose t)
  | dataReceived data =>
      cases h
      exact keep (inv.dataReceived hproper)
  | eofReceived =>
      cases h
      exact keep inv.eofReceived
  | connectionLost exc =>
      cases h
      simpa [Action.isLoss] using inv.connectionLost exc
  | pauseWriting =>
      cases h
      apply keep
      exact inv.frame inv.owned (by simp [Event.new]) rfl rfl rfl rfl id (fun _ _ => rfl)
        (fun _ _ _ _ => .inl rfl) (by simp [Event.new])
  | resumeWriting =>
      cases h
      exact keep inv.setWriteEvent
  | transportCloses =>
      cases h
      apply keep
      exact inv.frame inv.owned inv.created rfl rfl rfl rfl (fun _ => rfl) (fun _ _ => rfl)
        (fun _ _ _ _ => .inl rfl) fun _ _ _ _ => id
  | cancel t =>
      obtain ⟨-, ⟨⟩⟩ := Option.ite_none_right_eq_some.mp h
      exact keep (inv.cancel t)
  | resume t refusal =>
      obtain ⟨-, ⟨⟩⟩ := Option.ite_none_right_eq_some.mp h
      exact keep (inv.resume t refusal)

end Calls

end Anyio.SocketStream
