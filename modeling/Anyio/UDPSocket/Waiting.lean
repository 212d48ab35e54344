import Anyio.UDPSocket.Delivery

/-!
# Nobody waits on a UDP socket for what is already there

The receiver listens to the read event only while nothing is queued and the
connection stands, and what woke it is still there when it runs, because the
guard keeps other receivers out. A sender listens to the write event only while
writing is paused.
-/

namespace Anyio.UDPSocket

open Asyncio Library

variable {τ ι ρ : Type*}

/-- What holds of the future that a `receive()` awaits. -/
structure Listening (s : State τ ι) (lost : Bool) (f : FutureId) : Prop where
  listens : s.readEvent.Listens s.loop f
  silent : s.loop.future f = .pending → s.readQueue = [] ∧ lost = false
  signalled : s.loop.future f = .finished → s.readQueue ≠ [] ∨ lost = true
  separate : f ∉ s.writeEvent.waiters

/-- What holds in every reachable state. -/
structure Inv (s : State τ ι) (h : History ρ) : Prop where
  owned : s.loop.Owned
  closing : h.lost = true → s.transportClosing = true
  closed : s.closed = true → s.transportClosing = true
  writable : s.writeEvent.value = !h.paused
  created : ∀ f ∈ s.writeEvent.waiters, f < s.loop.nextFuture
  guarded : ∀ t, (s.loop.point t).receives = true → s.receiveGuarded = true
  single : ∀ t u, (s.loop.point t).receives = true → (s.loop.point u).receives = true → t = u
  listening : ∀ t f, s.loop.point t = .receiveWait f → Listening s h.lost f
  draining : ∀ t item f, s.loop.point t = .sendWait item f → s.writeEvent.Listens s.loop f

variable {s s' : State τ ι} {h h' : History ρ} {t u : τ} {f : FutureId} {item : ι}

theorem waits_receiveWait (hp : s.loop.point t = .receiveWait f) :
    s.loop.waits t = .future f := by
  rw [Loop.waits, hp]
  rfl

theorem waits_sendWait (hp : s.loop.point t = .sendWait item f) :
    s.loop.waits t = .future f := by
  rw [Loop.waits, hp]
  rfl

theorem receives_receiveWait (hp : s.loop.point t = .receiveWait f) :
    (s.loop.point t).receives = true := by
  rw [hp]
  rfl

theorem Inv.initial : Inv (initial τ ι) (History.empty : History ρ) := by
  constructor
  · constructor <;> simp [UDPSocket.initial, Loop.waits, Coroutine.waits]
  all_goals simp [UDPSocket.initial, History.empty, Event.new, Event.raised, Point.receives]

/-- A step between two calls: it moves no task, and it may only complete futures. -/
theorem Inv.frame (inv : Inv s h) (hpoint : ∀ t, s'.loop.point t = s.loop.point t)
    (hnext : s'.loop.nextFuture = s.loop.nextFuture)
    (hwaiters : s'.writeEvent.waiters = s.writeEvent.waiters)
    (hguard : s'.receiveGuarded = s.receiveGuarded)
    (hclosing : h'.lost = true → s'.transportClosing = true)
    (hclosed : s'.closed = true → s'.transportClosing = true)
    (hwritable : s'.writeEvent.value = !h'.paused)
    (hlistening : ∀ f, Listening s h.lost f → Listening s' h'.lost f)
    (hdraining : ∀ f, s.writeEvent.Listens s.loop f → s'.writeEvent.Listens s'.loop f) :
    Inv s' h' := by
  constructor
  · exact inv.owned.congr hpoint hnext.ge
  · exact hclosing
  · exact hclosed
  · exact hwritable
  · rw [hwaiters, hnext]
    exact inv.created
  · intro t ht
    rw [hguard]
    exact inv.guarded t (by rwa [hpoint] at ht)
  · intro t u ht hu
    rw [hpoint] at ht hu
    exact inv.single t u ht hu
  · intro t f ht
    exact hlistening f (inv.listening t f (by rwa [hpoint] at ht))
  · intro t item f ht
    exact hdraining f (inv.draining t item f (by rwa [hpoint] at ht))

theorem Inv.arrived (inv : Inv s h) (data : Bytes) (addr : SockAddr) (hlost : h'.lost = h.lost)
    (hpaused : h'.paused = h.paused) : Inv (datagramReceived s data addr) h' := by
  apply inv.frame
  · intro t
    exact Event.wakeWaiters_point _ _ t
  · exact Event.wakeWaiters_nextFuture _ _
  · rfl
  · rfl
  · rw [hlost]
    exact inv.closing
  · exact inv.closed
  · rw [hpaused]
    exact inv.writable
  · intro f hf
    have hdone := hf.listens.not_pending_of_set
    constructor
    · exact fun hpending => absurd hpending hdone
    · exact fun hpending => absurd hpending hdone
    · exact fun _ => .inl (appendBounded_ne_nil (by decide) _ _)
    · exact hf.separate
  · intro f hf
    apply hf.congr
    intro hpending
    by_contra hdone
    rw [datagramReceived, setReadEvent, Event.wakeWaiters_future, if_neg fun h => hdone h.2.2]
      at hpending
    exact hdone hpending

/-- A reader's future is not touched when the write event is set. -/
theorem Listening.setWriteEvent {lost : Bool} (listening : Listening s lost f) :
    Listening (setWriteEvent s) lost f := by
  have hsame : (UDPSocket.setWriteEvent s).loop.future f = s.loop.future f :=
    Event.wakeWaiters_future_of_not_mem listening.separate s.loop
  constructor
  · exact listening.listens.congr fun hpending => hsame ▸ hpending
  · rw [hsame]
    exact listening.silent
  · rw [hsame]
    exact listening.signalled
  · exact listening.separate

theorem Inv.setWriteEvent (inv : Inv s h) (hlost : h'.lost = h.lost)
    (hpaused : h'.paused = false) : Inv (setWriteEvent s) h' := by
  apply inv.frame
  · intro t
    exact Event.wakeWaiters_point _ _ t
  · exact Event.wakeWaiters_nextFuture _ _
  · rfl
  · rfl
  · rw [hlost]
    exact inv.closing
  · exact inv.closed
  · rw [hpaused]
    rfl
  · rw [hlost]
    exact fun f hf => hf.setWriteEvent
  · exact fun f hf hpending => absurd hpending hf.not_pending_of_set

theorem Inv.lost (inv : Inv s h) (hclosing : s.transportClosing = true)
    (hlost : h'.lost = true) (hpaused : h'.paused = false) : Inv (connectionLost s) h' := by
  have hset : Inv (setReadEvent s) { h with lost := true } := by
    apply inv.frame
    · intro t
      exact Event.wakeWaiters_point _ _ t
    · exact Event.wakeWaiters_nextFuture _ _
    · rfl
    · rfl
    · exact fun _ => hclosing
    · exact inv.closed
    · exact inv.writable
    · intro f hf
      have hdone := hf.listens.not_pending_of_set
      constructor
      · exact fun hpending => absurd hpending hdone
      · exact fun hpending => absurd hpending hdone
      · exact fun _ => .inr rfl
      · exact hf.separate
    · intro f hf
      apply hf.congr
      intro hpending
      by_contra hdone
      rw [setReadEvent, Event.wakeWaiters_future, if_neg fun h => hdone h.2.2] at hpending
      exact hdone hpending
  exact hset.setWriteEvent hlost hpaused

theorem Inv.paused (inv : Inv s h) (hlost : h'.lost = h.lost) (hpaused : h'.paused = true) :
    Inv (pauseWriting s) h' := by
  apply inv.frame
  · exact fun _ => rfl
  · rfl
  · rfl
  · rfl
  · rw [hlost]
    exact inv.closing
  · exact inv.closed
  · rw [hpaused]
    rfl
  · rw [hlost]
    exact fun f hf => ⟨hf.listens, hf.silent, hf.signalled, hf.separate⟩
  · exact fun f hf => hf.clear

/-- The transport starts to close, by itself or in `aclose()`. -/
theorem Inv.closes (inv : Inv s h) (closed : Bool) :
    Inv { s with closed := closed, transportClosing := true } h := by
  apply inv.frame
  · exact fun _ => rfl
  · rfl
  · rfl
  · rfl
  · exact fun _ => rfl
  · exact fun _ => rfl
  · exact inv.writable
  · exact fun f hf => ⟨hf.listens, hf.silent, hf.signalled, hf.separate⟩
  · exact fun _ => id

section Calls
variable [DecidableEq τ]

theorem Inv.requested (inv : Inv s h) (t : τ) : Inv { s with loop := s.loop.cancel t } h := by
  apply inv.frame
  · exact fun u => s.loop.cancel_point t u
  · exact s.loop.cancel_nextFuture t
  · rfl
  · rfl
  · exact inv.closing
  · exact inv.closed
  · exact inv.writable
  · intro f hf
    constructor
    · exact hf.listens.congr Loop.pending_of_cancel
    · exact fun hpending => hf.silent (Loop.pending_of_cancel hpending)
    · exact fun hfinished => hf.signalled (Loop.cancel_finished_iff.mp hfinished)
    · exact hf.separate
  · exact fun f hf => hf.congr Loop.pending_of_cancel

omit [DecidableEq τ] in
/-- Without the guard nobody receives. -/
theorem Inv.unguarded (inv : Inv s h) (hguard : s.receiveGuarded = false) (t : τ) :
    (s.loop.point t).receives = false := by
  by_contra hp
  rw [inv.guarded t (by simpa using hp)] at hguard
  cases hguard

omit [DecidableEq τ] in
/-- Two tasks wait for different futures. -/
theorem Inv.ne_of_waits (inv : Inv s h) (ht : s.loop.waits t = .future f) {g : FutureId}
    (hu : s.loop.waits u = .future g) (hne : u ≠ t) : g ≠ f := by
  rintro rfl
  exact hne (inv.owned.injective u t g hu ht)

/-- A task moves on to a point at which it neither receives nor waits. The event it may have
waited for forgets only its future. -/
theorem Inv.leave (inv : Inv s h) {p : Point ι} (hp : Coroutine.waits p = .step ∨ p = .outside)
    (hreceives : p.receives = false)
    (hpoint : ∀ u, s'.loop.point u = if u = t then p else s.loop.point u)
    (hfuture : s'.loop.future = s.loop.future) (hnext : s'.loop.nextFuture = s.loop.nextFuture)
    (hclosing : s'.transportClosing = s.transportClosing) (hclosed : s'.closed = s.closed)
    (hguard : ∀ u, u ≠ t → (s.loop.point u).receives = true → s'.receiveGuarded = true)
    (hwritable : s'.writeEvent.value = s.writeEvent.value)
    (hwaiters : ∀ f ∈ s'.writeEvent.waiters, f ∈ s.writeEvent.waiters)
    (hread : ∀ u f, u ≠ t → s.loop.point u = .receiveWait f →
      s'.readEvent = s.readEvent ∧ s'.readQueue = s.readQueue)
    (hwrite : ∀ u item f, u ≠ t → s.loop.point u = .sendWait item f →
      s.writeEvent.Listens s.loop f → s'.writeEvent.Listens s.loop f)
    (hlost : h'.lost = h.lost) (hpaused : h'.paused = h.paused) : Inv s' h' := by
  have hback : ∀ u, (s'.loop.point u).receives = true →
      u ≠ t ∧ s'.loop.point u = s.loop.point u := by
    intro u hu
    rw [hpoint] at hu ⊢
    split_ifs at hu ⊢ with hut
    · rw [hreceives] at hu
      cases hu
    · exact ⟨hut, rfl⟩
  constructor
  · apply inv.owned.leave hpoint hnext
    intro f hf
    obtain hstep | rfl := hp
    · rw [hstep] at hf
      cases hf
    · cases hf
  · rw [hlost, hclosing]
    exact inv.closing
  · rw [hclosed, hclosing]
    exact inv.closed
  · rw [hwritable, hpaused]
    exact inv.writable
  · rw [hnext]
    exact fun f hf => inv.created f (hwaiters f hf)
  · intro u hu
    obtain ⟨hut, hsame⟩ := hback u hu
    exact hguard u hut (hsame ▸ hu)
  · intro u v hu hv
    exact inv.single u v ((hback u hu).2 ▸ hu) ((hback v hv).2 ▸ hv)
  · intro u f hu
    obtain ⟨hut, hsame⟩ := hback u (receives_receiveWait hu)
    rw [hsame] at hu
    obtain ⟨hevent, hqueue⟩ := hread u f hut hu
    have listening := inv.listening u f hu
    constructor
    · rw [hevent]
      exact listening.listens.congr fun hpending => hfuture ▸ hpending
    · rw [hfuture, hqueue, hlost]
      exact listening.silent
    · rw [hfuture, hqueue, hlost]
      exact listening.signalled
    · exact fun hmem => listening.separate (hwaiters f hmem)
  · intro u item f hu
    rw [hpoint] at hu
    split_ifs at hu with hut
    · rw [hu] at hp
      cases hp with
      | inl h => cases h
      | inr h => cases h
    · intro hpending
      rw [hfuture] at hpending
      exact hwrite u item f hut hu (inv.draining u item f hu) hpending

theorem leaveWait_of_receives (hp : (s.loop.point t).receives = true) :
    (leaveWait s t).writeEvent = s.writeEvent := by
  unfold leaveWait
  cases hpoint : s.loop.point t with
  | outside | receiveCheckpoint | receiveWait | sendCheckpoint => rfl
  | sendWait =>
      rw [hpoint] at hp
      cases hp

/-- A receiver leaves the socket, with what it took out of the queue. -/
theorem Inv.receiver_leaves (inv : Inv s h) (hp : (s.loop.point t).receives = true)
    (queue : List Packet) (hlost : h'.lost = h.lost) (hpaused : h'.paused = h.paused) :
    Inv { leaveWait s t with readQueue := queue, receiveGuarded := false } h' := by
  have hothers : ∀ u, u ≠ t → (s.loop.point u).receives ≠ true :=
    fun u hut hu => hut (inv.single u t hu hp)
  have hevent := leaveWait_of_receives hp
  apply inv.leave (t := t) (p := .outside) (.inr rfl) rfl
  · simp
  · simp
  · simp
  · simp
  · simp
  · exact fun u hut hu => absurd hu (hothers u hut)
  · exact congrArg Event.value hevent
  · exact fun f hf => hevent ▸ hf
  · exact fun u f hut hu => absurd (receives_receiveWait hu) (hothers u hut)
  · exact fun _ _ f _ _ hf => hevent.symm ▸ hf
  · exact hlost
  · exact hpaused

omit [DecidableEq τ] in
theorem popleft_fst (kind : Kind ι ρ) (s : State τ ι) :
    ∃ queue, (popleft kind s).1 = { s with readQueue := queue, receiveGuarded := false } := by
  cases hqueue : s.readQueue with
  | nil => exact ⟨[], by rw [popleft_nil hqueue, ← hqueue]⟩
  | cons packet rest => exact ⟨rest, by rw [popleft_cons hqueue]⟩

/-- A sender leaves the socket. -/
theorem Inv.sender_leaves (inv : Inv s h) (hp : (s.loop.point t).sending = some item)
    (sent : List (Bytes × Option SockAddr)) (hlost : h'.lost = h.lost)
    (hpaused : h'.paused = h.paused) :
    Inv { leaveWait s t with sendGuarded := false, sent := sent } h' := by
  have hevent : (leaveWait s t).readEvent = s.readEvent ∧
      ((leaveWait s t).writeEvent = s.writeEvent ∨
        ∃ f, s.loop.waits t = .future f ∧ (leaveWait s t).writeEvent = s.writeEvent.leave f) := by
    unfold leaveWait
    cases hpoint : s.loop.point t with
    | outside | receiveCheckpoint | receiveWait =>
        rw [hpoint] at hp
        cases hp
    | sendCheckpoint => exact ⟨rfl, .inl rfl⟩
    | sendWait item f => exact ⟨rfl, .inr ⟨f, waits_sendWait hpoint, rfl⟩⟩
  have hguarded : (leaveWait s t).receiveGuarded = s.receiveGuarded := by
    unfold leaveWait
    cases s.loop.point t <;> rfl
  obtain ⟨hread, hwrite⟩ := hevent
  have hvalue : (leaveWait s t).writeEvent.value = s.writeEvent.value := by
    obtain hsame | ⟨f, -, hleft⟩ := hwrite
    · rw [hsame]
    · rw [hleft, Event.leave_value]
  have hwaiters : ∀ g ∈ (leaveWait s t).writeEvent.waiters, g ∈ s.writeEvent.waiters := by
    obtain hsame | ⟨f, -, hleft⟩ := hwrite
    · rw [hsame]
      exact fun _ => id
    · rw [hleft, Event.leave_waiters]
      exact fun _ => List.mem_of_mem_erase
  apply inv.leave (t := t) (p := .outside) (.inr rfl) rfl
  · simp
  · simp
  · simp
  · simp
  · simp
  · exact fun u _ hu => hguarded.trans (inv.guarded u hu)
  · exact hvalue
  · exact hwaiters
  · exact fun u f _ _ => ⟨hread, leaveWait_readQueue s t⟩
  · intro u item' g hut hu hg
    obtain hsame | ⟨f, hf, hleft⟩ := hwrite
    · exact hsame.symm ▸ hg
    · exact hleft.symm ▸ hg.leave (inv.ne_of_waits hf (waits_sendWait hu) hut)
  · exact hlost
  · exact hpaused

omit [DecidableEq τ] in
theorem transmit_fst (kind : Kind ι ρ) (s : State τ ι) (item : ι) (refusal : Option Error) :
    ∃ sent, (transmit kind s item refusal).1 =
      { s with sendGuarded := false, sent := sent } := by
  obtain ⟨e, heq, -⟩ | ⟨-, -, heq⟩ := transmit_cases kind s item refusal
  · exact ⟨s.sent, by rw [heq]⟩
  · exact ⟨_, by rw [heq]⟩

/-- A call starts: its task stands at a checkpoint. -/
theorem Inv.starts (inv : Inv s h) {p : Point ι} (hp : Coroutine.waits p = .step)
    (hreceives : p.receives = false) (guard : Bool) :
    Inv { s with sendGuarded := guard, loop := s.loop.moveTo t p } h := by
  apply inv.leave (t := t) (.inl hp) hreceives
  · simp
  · rfl
  · rfl
  · rfl
  · rfl
  · exact fun u _ hu => inv.guarded u hu
  · rfl
  · exact fun _ hf => hf
  · exact fun _ _ _ _ => ⟨rfl, rfl⟩
  · exact fun _ _ _ _ _ hf => hf
  · rfl
  · rfl

/-- A new `receive()` takes the guard, so it is the only one. -/
theorem Inv.receive_starts (inv : Inv s h) (hguard : s.receiveGuarded = false) :
    Inv { s with receiveGuarded := true, loop := s.loop.moveTo t .receiveCheckpoint } h := by
  have honly : ∀ u, ((s.loop.moveTo t .receiveCheckpoint).point u).receives = true → u = t := by
    intro u hu
    rw [Loop.moveTo_point] at hu
    split_ifs at hu with hut
    · exact hut
    · rw [inv.unguarded hguard] at hu
      cases hu
  constructor
  · exact inv.owned.leave (t := t) (p := .receiveCheckpoint) (by simp) rfl
      (by simp [Coroutine.waits])
  · exact inv.closing
  · exact inv.closed
  · exact inv.writable
  · exact inv.created
  · exact fun _ _ => rfl
  · intro u v hu hv
    exact (honly u hu).trans (honly v hv).symm
  · intro u f hu
    have hut := honly u (receives_receiveWait (s := { s with
      loop := s.loop.moveTo t .receiveCheckpoint }) hu)
    simp [hut] at hu
  · intro u item f hu
    simp only [Loop.moveTo_point] at hu
    split_ifs at hu
    exact inv.draining u item f hu

/-- A task comes to wait for a future that it has just created. -/
structure Awaits (s s' : State τ ι) (t : τ) (p : Point ι) : Prop where
  waits : Coroutine.waits p = .future s.loop.nextFuture
  point : ∀ u, s'.loop.point u = if u = t then p else s.loop.point u
  future : ∀ f < s.loop.nextFuture, s'.loop.future f = s.loop.future f
  pending : s'.loop.future s.loop.nextFuture = .pending
  next : s'.loop.nextFuture = s.loop.nextFuture + 1

theorem awaits_createFuture (s : State τ ι) (t : τ) {p : Point ι}
    (hp : Coroutine.waits p = .future s.loop.nextFuture) {event event' : Event} :
    Awaits s { leaveWait s t with
      readEvent := event
      writeEvent := event'
      loop := (leaveWait s t).loop.createFuture.moveTo t p } t p := by
  constructor
  · exact hp
  · intro u
    by_cases hut : u = t <;> simp [hut]
  · intro f hf
    simp [hf.ne]
  · simp
  · simp

theorem Inv.receive_waits (inv : Inv s h) (hp : (s.loop.point t).receives = true)
    (hopen : s.transportClosing = false)
    (awaits : Awaits s s' t (.receiveWait s.loop.nextFuture))
    (hqueue : s'.readQueue = []) (hclosing : s'.transportClosing = s.transportClosing)
    (hclosed : s'.closed = s.closed) (hguard : s'.receiveGuarded = s.receiveGuarded)
    (hread : s'.readEvent = s.readEvent.clear.join s.loop.nextFuture)
    (hwrite : s'.writeEvent = s.writeEvent) : Inv s' h := by
  have hlost : h.lost = false := by
    by_contra hlost
    rw [inv.closing (by simpa using hlost)] at hopen
    cases hopen
  have honly : ∀ u, (s'.loop.point u).receives = true →
      u = t ∧ s'.loop.point u = .receiveWait s.loop.nextFuture := by
    intro u hu
    rw [awaits.point] at hu ⊢
    split_ifs at hu ⊢ with hut
    · exact ⟨hut, rfl⟩
    · exact absurd (inv.single u t hu hp) hut
  constructor
  · exact inv.owned.await_new awaits.point awaits.next awaits.waits
  · rw [hclosing]
    exact inv.closing
  · rw [hclosed, hclosing]
    exact inv.closed
  · rw [hwrite]
    exact inv.writable
  · rw [hwrite, awaits.next]
    exact fun f hf => Nat.lt_succ_of_lt (inv.created f hf)
  · rw [hguard]
    exact fun _ _ => inv.guarded t hp
  · intro u v hu hv
    exact (honly u hu).1.trans (honly v hv).1.symm
  · intro u f hu
    obtain ⟨-, hsame⟩ := honly u (receives_receiveWait hu)
    obtain rfl : s.loop.nextFuture = f := by simpa using hsame.symm.trans hu
    constructor
    · rw [hread]
      exact Event.Listens.join_self rfl
    · exact fun _ => ⟨hqueue, hlost⟩
    · intro hfinished
      rw [awaits.pending] at hfinished
      cases hfinished
    · rw [hwrite]
      exact fun hmem => (inv.created _ hmem).ne rfl
  · intro u item f hu
    rw [awaits.point] at hu
    split_ifs at hu
    rw [hwrite]
    apply (inv.draining u item f hu).congr
    rw [awaits.future f (inv.owned.created u f (waits_sendWait hu))]
    exact id

theorem Inv.send_waits (inv : Inv s h) (hpaused : s.writeEvent.value = false)
    (awaits : Awaits s s' t (.sendWait item s.loop.nextFuture))
    (hqueue : s'.readQueue = s.readQueue) (hclosing : s'.transportClosing = s.transportClosing)
    (hclosed : s'.closed = s.closed) (hguard : s'.receiveGuarded = s.receiveGuarded)
    (hread : s'.readEvent = s.readEvent)
    (hwrite : s'.writeEvent = s.writeEvent.join s.loop.nextFuture) : Inv s' h := by
  have hback : ∀ u, (s'.loop.point u).receives = true → s'.loop.point u = s.loop.point u := by
    intro u hu
    rw [awaits.point] at hu ⊢
    split_ifs at hu ⊢
    · cases hu
    · rfl
  constructor
  · exact inv.owned.await_new awaits.point awaits.next awaits.waits
  · rw [hclosing]
    exact inv.closing
  · rw [hclosed, hclosing]
    exact inv.closed
  · rw [hwrite]
    exact inv.writable
  · rw [hwrite, awaits.next]
    intro f hf
    cases List.mem_append.mp hf with
    | inl hold => exact Nat.lt_succ_of_lt (inv.created f hold)
    | inr hnew => exact (List.mem_singleton.mp hnew) ▸ Nat.lt_succ_self _
  · intro u hu
    rw [hguard]
    exact inv.guarded u (hback u hu ▸ hu)
  · intro u v hu hv
    exact inv.single u v (hback u hu ▸ hu) (hback v hv ▸ hv)
  · intro u f hu
    have hold := (hback u (receives_receiveWait hu)).symm.trans hu
    have listening := inv.listening u f hold
    have hlt := inv.owned.created u f (waits_receiveWait hold)
    have hsame := awaits.future f hlt
    constructor
    · rw [hread]
      exact listening.listens.congr fun hpending => hsame ▸ hpending
    · rw [hsame, hqueue]
      exact listening.silent
    · rw [hsame, hqueue]
      exact listening.signalled
    · rw [hwrite]
      intro hmem
      cases List.mem_append.mp hmem with
      | inl hold => exact listening.separate hold
      | inr hnew => exact hlt.ne (List.mem_singleton.mp hnew)
  · intro u item' f hu
    rw [hwrite]
    rw [awaits.point] at hu
    split_ifs at hu
    · cases hu
      exact Event.Listens.join_self hpaused
    · apply ((inv.draining u item' f hu).join _).congr
      rw [awaits.future f (inv.owned.created u f (waits_sendWait hu))]
      exact id

variable {kind : Kind ι ρ} {a : Action τ ι} {o : Answer ι ρ} {refusal : Option Error}

theorem Inv.step (inv : Inv s h) (hs : step kind s a = some (s', o)) :
    Inv s' (record h s a o) := by
  cases step_change hs with
  | receiveBusy | sendBusy => exact inv
  | receiveStarts hguard => exact inv.receive_starts hguard
  | sendStarts => exact inv.starts rfl rfl true
  | closed =>
      change Inv (aclose s) h
      rw [aclose]
      split_ifs
      · exact inv
      · exact inv.closes true
  | arrived data addr => exact inv.arrived data addr rfl rfl
  | lost hclosing => exact inv.lost hclosing rfl rfl
  | paused => exact inv.paused rfl rfl
  | resumed => exact inv.setWriteEvent rfl rfl
  | transportClosed => exact inv.closes s.closed
  | requested t => exact inv.requested t
  | @receiveInterrupted t _ hp => exact inv.receiver_leaves hp (leaveWait s t).readQueue rfl rfl
  | @receiveWaits t _ hp hempty hopen =>
      have hreceives : (s.loop.point t).receives = true := by
        rw [hp]
        rfl
      apply inv.receive_waits hreceives hopen (awaits_createFuture s t rfl)
      · simpa using hempty
      all_goals simp [leaveWait, hp]
  | @pops t refusal hp =>
      obtain ⟨queue, hqueue⟩ := popleft_fst kind (leaveWait s t)
      rw [hqueue]
      apply inv.receiver_leaves hp queue
      · cases (popleft kind (leaveWait s t)).2 with
        | returned result => cases result <;> rfl
        | raised | suspended => rfl
      · cases (popleft kind (leaveWait s t)).2 with
        | returned result => cases result <;> rfl
        | raised | suspended => rfl
  | @sendInterrupted t _ item hp => exact inv.sender_leaves hp (leaveWait s t).sent rfl rfl
  | @sendWaits t _ item hp hpaused =>
      apply inv.send_waits hpaused (awaits_createFuture s t rfl)
      all_goals simp [leaveWait, hp]
  | @transmits t refusal item hp =>
      obtain ⟨sent, hsent⟩ := transmit_fst kind (leaveWait s t) item refusal
      rw [hsent]
      apply inv.sender_leaves hp sent
      · cases (transmit kind (leaveWait s t) item refusal).2 with
        | returned result => cases result <;> rfl
        | raised | suspended => rfl
      · cases (transmit kind (leaveWait s t) item refusal).2 with
        | returned result => cases result <;> rfl
        | raised | suspended => rfl

theorem Inv.reachable
    (run : (recorded τ kind).Reachable Machine.anyStep (UDPSocket.initial τ ι, .empty) (s, h)) :
    Inv s h :=
  run.invariant_history (I := Inv) .initial fun _ _ _ _ _ inv _ hs => inv.step hs

/-- In every run a call whose task is suspended without a wake-up waits for something that has
not happened: a `receive()` for a datagram or the loss of the connection, while nothing is
queued, and a `send()` for writing to be resumed, while it is paused. -/
theorem nobody_stranded
    (run : (recorded τ kind).Reachable Machine.anyStep (UDPSocket.initial τ ι, .empty) (s, h))
    (hp : s.loop.point t ≠ .outside) (hasleep : s.loop.wakeUpQueued t = false) :
    ((s.loop.point t).receives = true ∧ s.readQueue = [] ∧ h.lost = false) ∨
      ((s.loop.point t).sending.isSome ∧ h.paused = true) := by
  have inv := Inv.reachable run
  cases hpoint : s.loop.point t with
  | outside => exact absurd hpoint hp
  | receiveCheckpoint => simp [Loop.wakeUpQueued, Loop.waits, hpoint, Coroutine.waits] at hasleep
  | sendCheckpoint => simp [Loop.wakeUpQueued, Loop.waits, hpoint, Coroutine.waits] at hasleep
  | receiveWait f =>
      left
      refine ⟨rfl, (inv.listening t f hpoint).silent ?_⟩
      simpa [Loop.wakeUpQueued, waits_receiveWait hpoint] using hasleep
  | sendWait item f =>
      right
      have hpending : s.loop.future f = .pending := by
        simpa [Loop.wakeUpQueued, waits_sendWait hpoint] using hasleep
      have hdown := (inv.draining t item f hpoint hpending).2
      rw [inv.writable] at hdown
      exact ⟨rfl, by simpa using hdown⟩

end Calls

/-- A receiver waits for a datagram, and a sender while writing is paused. -/
def bothWaiting : State Bool Bytes × History Bytes :=
  ((recorded Bool connectedUDPSocket).exec Machine.anyStep (initial Bool Bytes, .empty)
    [.receive false, .pauseWriting, .send true [1], .resume true none,
      .resume false none]).get (by decide)

theorem nobody_stranded_bothWaiting :
    bothWaiting.1.loop.point true = .sendWait [1] 0 ∧
      ((bothWaiting.1.loop.point true).receives = true ∧ bothWaiting.1.readQueue = [] ∧
          bothWaiting.2.lost = false ∨
        (bothWaiting.1.loop.point true).sending.isSome ∧ bothWaiting.2.paused = true) := by
  have run : (recorded Bool connectedUDPSocket).Reachable Machine.anyStep
      (initial Bool Bytes, .empty) bothWaiting := Machine.exec_get_reachable _ _ _
  have hinside : bothWaiting.1.loop.point true ≠ .outside := by decide
  have hasleep : bothWaiting.1.loop.wakeUpQueued true = false := by decide
  exact ⟨by decide, nobody_stranded run hinside hasleep⟩

end Anyio.UDPSocket
