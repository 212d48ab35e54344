import Anyio.MemoryStream.Model

/-!
# The queues of memory object streams

At most one of three places holds something that the others wait for:
receivers wait only while there is no item, and senders only while the buffer
is full. A receiver that `send_nowait()` finds in the queue without a pending
cancellation is suspended on an event that was neither set nor cancelled.
-/

namespace Anyio.MemoryStream

open Asyncio Library

variable {τ α : Type*}

theorem waits_sendWait {l : Loop τ (Point α)} {t : τ} {f : FutureId}
    (h : l.point t = .sendWait f) : l.waits t = .future f := by
  simp [Loop.waits, h, Coroutine.waits]

theorem waits_receiveWait {l : Loop τ (Point α)} {t : τ} {f : FutureId}
    (h : l.point t = .receiveWait f) : l.waits t = .future f := by
  simp [Loop.waits, h, Coroutine.waits]

/-- What the streams rely on in the loop: a request against a task that awaits
an event is the cancellation of its future and is counted, because it came
before the event was set. -/
structure Tidy (l : Loop τ (Point α)) : Prop where
  owned : l.Owned
  clear : ∀ t f, l.waits t = .future f → (l.task t).mustCancel = false
  counted : ∀ t f, l.waits t = .future f → l.future f = .cancelled → 0 < (l.task t).cancelling
  idle : ∀ t, l.point t = .outside → (l.task t).mustCancel = false

section Tidy
variable {l : Loop τ (Point α)} {t : τ}

theorem Tidy.initial : Tidy (Loop.initial .outside : Loop τ (Point α)) := by
  have hw : ∀ t f, (Loop.initial .outside : Loop τ (Point α)).waits t ≠ .future f := by
    simp [Loop.waits, Coroutine.waits]
  constructor
  · exact ⟨fun t f h => absurd h (hw t f), fun t u f h => absurd h (hw t f)⟩
  · exact fun t f h => absurd h (hw t f)
  · exact fun t f h => absurd h (hw t f)
  · exact fun t _ => rfl

theorem Tidy.setEvent (tidy : Tidy l) (f : FutureId) : Tidy (l.setEvent f) := by
  constructor
  · exact tidy.owned.congr (fun u => by simp) (by simp)
  · intro u g hw
    simpa using tidy.clear u g (by simpa [Loop.waits] using hw)
  · intro u g hw hg
    rw [Loop.setEvent_future] at hg
    split_ifs at hg
    simpa using tidy.counted u g (by simpa [Loop.waits] using hw) hg
  · intro u hu
    simpa using tidy.idle u (by simpa using hu)

theorem Tidy.setEvents (tidy : Tidy l) (events : List FutureId) : Tidy (setEvents l events) := by
  induction events generalizing l with
  | nil => exact tidy
  | cons f rest ih => exact ih (tidy.setEvent f)

variable [DecidableEq τ]

/-- A task that stands at a point without a future leaves no request behind. -/
theorem Tidy.leave (tidy : Tidy l) {p : Point α} (hp : ∀ f, Coroutine.waits p ≠ .future f) :
    Tidy (l.resumeAt t p) := by
  have hw : ∀ u f, (l.resumeAt t p).waits u = .future f → u ≠ t ∧ l.waits u = .future f := by
    intro u f h
    by_cases hut : u = t
    · exact absurd (by simpa [Loop.waits, hut] using h) (hp f)
    · exact ⟨hut, by simpa [Loop.waits, hut] using h⟩
  constructor
  · exact tidy.owned.leave (t := t) (p := p) (by simp) rfl hp
  · intro u f h
    obtain ⟨hut, h⟩ := hw u f h
    simpa [hut] using tidy.clear u f h
  · intro u f h hf
    obtain ⟨hut, h⟩ := hw u f h
    simpa using tidy.counted u f h hf
  · intro u hu
    by_cases hut : u = t
    · simp [hut]
    · simpa [hut] using tidy.idle u (by simpa [hut] using hu)

theorem Tidy.move (tidy : Tidy l) (hfrom : l.point t = .outside) {p : Point α}
    (hp : ∀ f, Coroutine.waits p ≠ .future f) : Tidy (l.moveTo t p) := by
  rw [Loop.moveTo_eq_resumeAt (tidy.idle t hfrom)]
  exact tidy.leave hp

/-- A task from outside waits for a new event. -/
theorem Tidy.join (tidy : Tidy l) (hfrom : l.point t = .outside) {p : Point α}
    (hp : Coroutine.waits p = .future l.nextFuture) : Tidy (l.createFuture.moveTo t p) := by
  have hw : ∀ u f, (l.createFuture.moveTo t p).waits u = .future f →
      u = t ∧ f = l.nextFuture ∨ u ≠ t ∧ f ≠ l.nextFuture ∧ l.waits u = .future f := by
    intro u f h
    by_cases hut : u = t
    · left
      simp only [Loop.waits, Loop.moveTo_point, hut, if_true, hp, Waits.future.injEq] at h
      exact ⟨hut, h.symm⟩
    · have hold : l.waits u = .future f := by simpa [Loop.waits, hut] using h
      exact .inr ⟨hut, (tidy.owned.created u f hold).ne, hold⟩
  constructor
  · exact tidy.owned.await_new (t := t) (p := p) (fun u => by simp) (by simp) hp
  · intro u f h
    rcases hw u f h with ⟨rfl, -⟩ | ⟨-, -, h⟩
    · simpa using tidy.idle u hfrom
    · simpa using tidy.clear u f h
  · intro u f h hf
    rcases hw u f h with ⟨-, rfl⟩ | ⟨-, hne, h⟩
    · simp at hf
    · simpa using tidy.counted u f h (by simpa [hne] using hf)
  · intro u hu
    by_cases hut : u = t
    · subst hut
      simpa using tidy.idle u hfrom
    · simpa using tidy.idle u (by simpa [hut] using hu)

omit [DecidableEq τ] in
theorem pending_of_interruptible {f : FutureId} (h : interruptible l t = true)
    (hw : l.waits t = .future f) : l.future f = .pending := by
  simpa [interruptible, hw] using h

theorem Tidy.interrupt (tidy : Tidy l) (h : interruptible l t = true) : Tidy (l.cancel t) := by
  constructor
  · exact tidy.owned.congr (fun u => by simp) (by simp)
  · intro u f hw
    have hw' : l.waits u = .future f := by simpa using hw
    by_cases hut : u = t
    · subst hut
      rw [Loop.cancel_mustCancel_of_pending hw' (pending_of_interruptible h hw')]
      exact tidy.clear u f hw'
    · simpa [hut] using tidy.clear u f hw'
  · intro u f hw hf
    have hw' : l.waits u = .future f := by simpa using hw
    by_cases hut : u = t
    · subst hut
      rw [Loop.cancel_cancelling rfl]
      exact Nat.succ_pos _
    · have hne : l.waits t ≠ .future f := fun ht => hut (tidy.owned.injective u t f hw' ht)
      rw [Loop.cancel_task_of_ne hut]
      exact tidy.counted u f hw' (by rwa [Loop.cancel_future_of_ne hne] at hf)
  · intro u hu
    have hut : u ≠ t := by
      rintro rfl
      have hout : l.point u = .outside := by simpa using hu
      simp [interruptible, Loop.waits, hout, Coroutine.waits] at h
    simpa [hut] using tidy.idle u (by simpa using hu)

theorem Tidy.setCancelling (tidy : Tidy l) (hfrom : l.point t = .outside) (n : Nat) :
    Tidy (l.setCancelling t n) := by
  have hw : ∀ u f, (l.setCancelling t n).waits u = .future f → u ≠ t ∧ l.waits u = .future f := by
    intro u f h
    have h' : l.waits u = .future f := by simpa [Loop.waits] using h
    refine ⟨?_, h'⟩
    rintro rfl
    simp [Loop.waits, hfrom, Coroutine.waits] at h'
  constructor
  · exact tidy.owned.congr (fun u => by simp) (by simp)
  · intro u f h
    simpa using tidy.clear u f (hw u f h).2
  · intro u f h hf
    obtain ⟨hut, h⟩ := hw u f h
    rw [Loop.setCancelling_task_of_ne hut]
    exact tidy.counted u f h hf
  · intro u hu
    simpa using tidy.idle u (by simpa using hu)

end Tidy

section SetEvents
variable (l : Loop τ (Point α)) (events : List FutureId)

@[simp] theorem setEvents_point (t : τ) : (setEvents l events).point t = l.point t := by
  induction events generalizing l with
  | nil => rfl
  | cons f rest ih => exact (ih (l.setEvent f)).trans (Loop.setEvent_point l f t)

@[simp] theorem setEvents_nextFuture : (setEvents l events).nextFuture = l.nextFuture := by
  induction events generalizing l with
  | nil => rfl
  | cons f rest ih => exact (ih (l.setEvent f)).trans (Loop.setEvent_nextFuture l f)

/-- An event is set that was set before, or is one of these events. -/
theorem setEvents_cases {f : FutureId} (h : (setEvents l events).future f = .finished) :
    l.future f = .finished ∨ f ∈ events := by
  induction events generalizing l with
  | nil => exact .inl h
  | cons g rest ih =>
      rcases ih (l.setEvent g) h with hset | hmem
      · rw [Loop.setEvent_future] at hset
        split_ifs at hset with hg
        · exact .inr (hg.1 ▸ List.mem_cons_self)
        · exact .inl hset
      · exact .inr (List.mem_cons_of_mem _ hmem)

/-- An event that was set stays set. -/
theorem setEvents_finished {f : FutureId} (h : l.future f = .finished) :
    (setEvents l events).future f = .finished := by
  induction events generalizing l with
  | nil => exact h
  | cons g rest ih =>
      apply ih
      rw [Loop.setEvent_future]
      split_ifs
      · rfl
      · exact h

end SetEvents

/-- What holds in every reachable state. -/
structure Inv (s : State τ α) : Prop where
  tidy : Tidy s.loop
  receivers : ∀ e ∈ s.waitingReceivers.entries,
    s.loop.point e.2 = .receiveWait e.1 ∧ s.loop.future e.1 ≠ .finished
  senders : ∀ e ∈ s.waitingSenders.entries, e.1 < s.loop.nextFuture
  receiving : s.waitingReceivers.entries ≠ [] → s.buffer = [] ∧ s.waitingSenders.entries = []
  sending : s.waitingSenders.entries ≠ [] → ¬s.maxBufferSize.covers (s.buffer.length + 1)

section Preservation
variable {s s' : State τ α} {t : τ}

/-- A receiver in the queue without a pending cancellation awaits an event
that was not set. -/
theorem Inv.live (inv : Inv s) {e : FutureId × τ} (he : e ∈ s.waitingReceivers.entries)
    (hlive : hasPendingCancellation s e.2 = false) : s.loop.future e.1 = .pending := by
  obtain ⟨hw, hfin⟩ := inv.receivers e he
  have hwait := waits_receiveWait hw
  cases hf : s.loop.future e.1 with
  | pending => rfl
  | finished => exact absurd hf hfin
  | cancelled =>
      -- the request that cancelled it is still counted, and seen without the count as well
      have hcount := inv.tidy.counted e.2 e.1 hwait hf
      simp only [hasPendingCancellation, Bool.or_eq_false_iff] at hlive
      split_ifs at hlive
      · simp only [ne_eq, decide_not, Bool.not_eq_eq_eq_not, Bool.not_false,
          decide_eq_true_eq] at hlive
        omega
      · simp [hwait, hf] at hlive

/-- The queue of receivers may shrink and the loop change, as long as no other
event of the queue is set. -/
theorem Inv.frame (inv : Inv s) (tidy : Tidy s'.loop)
    (hr : ∀ e ∈ s'.waitingReceivers.entries, e ∈ s.waitingReceivers.entries ∧
      s'.loop.point e.2 = s.loop.point e.2 ∧
      (s'.loop.future e.1 = .finished → s.loop.future e.1 = .finished))
    (hs : s'.waitingSenders.entries ⊆ s.waitingSenders.entries)
    (hnext : s.loop.nextFuture ≤ s'.loop.nextFuture) (hb : s'.buffer = s.buffer)
    (hmax : s'.maxBufferSize = s.maxBufferSize) : Inv s' := by
  constructor
  · exact tidy
  · intro e he
    obtain ⟨hmem, hp, hf⟩ := hr e he
    obtain ⟨hw, hfin⟩ := inv.receivers e hmem
    exact ⟨hp.trans hw, fun h => hfin (hf h)⟩
  · intro e he
    exact Nat.lt_of_lt_of_le (inv.senders e (hs he)) hnext
  · intro hne
    obtain ⟨e, he⟩ := List.exists_mem_of_ne_nil _ hne
    obtain ⟨hbuf, hnil⟩ := inv.receiving (List.ne_nil_of_mem (hr e he).1)
    rw [hb]
    exact ⟨hbuf, List.subset_nil.mp (hnil ▸ hs)⟩
  · intro hne
    obtain ⟨e, he⟩ := List.exists_mem_of_ne_nil _ hne
    rw [hb, hmax]
    exact inv.sending (List.ne_nil_of_mem (hs he))

theorem nextReceivers_subset : (nextReceivers s).entries ⊆ s.waitingReceivers.entries :=
  List.dropWhile_subset _

/-- What `send_nowait()` does: a live receiver gets the item, the buffer does,
neither has room for it, or the stream is closed at one of its ends. -/
inductive Sends (s : State τ α) (x : α) : State τ α × Except Error Unit → Prop
  | refused {e : Error} (other : e ≠ .wouldBlock) : Sends s x (s, .error e)
  | handed {event : FutureId} {t : τ} {rest : OrderedDict FutureId τ}
      (next : (nextReceivers s).popItem = some ((event, t), rest)) :
      Sends s x ({ s with
        waitingReceivers := rest
        item := Function.update s.item event (some x)
        loop := s.loop.setEvent event }, .ok ())
  | buffered (none : (nextReceivers s).popItem = none)
      (room : s.maxBufferSize.covers (s.buffer.length + 1)) :
      Sends s x ({ s with
        waitingReceivers := nextReceivers s
        buffer := s.buffer ++ [x] }, .ok ())
  | full (none : (nextReceivers s).popItem = none)
      (full : ¬s.maxBufferSize.covers (s.buffer.length + 1)) :
      Sends s x ({ s with waitingReceivers := nextReceivers s }, .error .wouldBlock)

/-- Facts about the receiver that `send_nowait()` hands an item to. -/
theorem Inv.next (inv : Inv s) {event : FutureId} {u : τ} {rest : OrderedDict FutureId τ}
    (next : (nextReceivers s).popItem = some ((event, u), rest)) :
    (event, u) ∈ s.waitingReceivers.entries ∧ s.loop.point u = .receiveWait event ∧
      s.loop.future event = .pending ∧ rest.entries ⊆ s.waitingReceivers.entries ∧
      ∀ e ∈ rest.entries, e.1 ≠ event := by
  obtain ⟨hlive, hmem, hsub⟩ := OrderedDict.dropWhile_popItem next
  refine ⟨hmem, (inv.receivers _ hmem).1, inv.live hmem hlive, hsub, ?_⟩
  rintro ⟨f, v⟩ he rfl
  exact OrderedDict.popItem_not_mem next v he

theorem Inv.sends (inv : Inv s) {x : α} {r : State τ α × Except Error Unit}
    (h : Sends s x r) : Inv r.1 := by
  have hsub : (nextReceivers s).entries ⊆ s.waitingReceivers.entries := nextReceivers_subset
  have hskip : Inv { s with waitingReceivers := nextReceivers s } :=
    inv.frame inv.tidy (fun e he => ⟨hsub he, rfl, id⟩) (fun _ => id) le_rfl rfl rfl
  cases h with
  | refused => exact inv
  | @handed event u rest next =>
      obtain ⟨-, -, -, hrest, hne⟩ := inv.next next
      refine inv.frame (inv.tidy.setEvent event) (fun e he => ⟨hrest he, by simp, fun h => ?_⟩)
        (fun _ => id) (by simp) rfl rfl
      simpa [Loop.setEvent_future, hne e he] using h
  | buffered none room =>
      have hnil := OrderedDict.popItem_eq_none.mp none
      refine ⟨inv.tidy, hskip.receivers, inv.senders, fun h => absurd hnil h, fun h => ?_⟩
      exact absurd room (inv.sending h)
  | full => exact hskip

/-- What `receive_nowait()` finds when a sender waits: its item is admitted to
a full buffer, and the head of that buffer is taken. -/
theorem Inv.admitSender_cases (inv : Inv s) :
    admitSender s = s ∧ s.waitingSenders.entries = [] ∨
      ∃ event x rest, s.waitingSenders.popItem = some ((event, x), rest) ∧
        s.waitingReceivers.entries = [] ∧
        admitSender s = { s with
          buffer := s.buffer ++ [x]
          waitingSenders := rest
          loop := s.loop.setEvent event } := by
  unfold admitSender
  split
  · rename_i event x rest hpop
    refine .inr ⟨event, x, rest, hpop, ?_, rfl⟩
    by_contra hne
    have hentries := OrderedDict.popItem_eq_some hpop
    simp [(inv.receiving hne).2] at hentries
  · exact .inl ⟨rfl, OrderedDict.popItem_eq_none.mp ‹_›⟩

/-- `receive_nowait()` takes the head of the buffer, after the next sender was
admitted to it; or finds no item anywhere. -/
inductive Receives (s : State τ α) : State τ α × Except Error α → Prop
  | closed : Receives s (s, .error .closedResourceError)
  | head {x : α} {rest : List α} (buffer : s.buffer = x :: rest)
      (none : s.waitingSenders.entries = []) : Receives s ({ s with buffer := rest }, .ok x)
  | admitted {event : FutureId} {x y : α} {others : OrderedDict FutureId α} {rest : List α}
      (next : s.waitingSenders.popItem = some ((event, y), others))
      (receivers : s.waitingReceivers.entries = []) (buffer : s.buffer ++ [y] = x :: rest) :
      Receives s ({ s with
        buffer := rest
        waitingSenders := others
        loop := s.loop.setEvent event }, .ok x)
  | empty (buffer : s.buffer = []) (none : s.waitingSenders.entries = []) :
      Receives s (s, .error (if s.openSendChannels = 0 then .endOfStream else .wouldBlock))

theorem Inv.received (inv : Inv s) {r : State τ α × Except Error α} (h : Receives s r) :
    Inv r.1 := by
  cases h with
  | closed => exact inv
  | empty => exact inv
  | @head x rest hbuf hnil =>
      refine ⟨inv.tidy, inv.receivers, inv.senders, fun h => ?_, fun h => absurd hnil h⟩
      simp [(inv.receiving h).1] at hbuf
  | @admitted event x y others rest next hr hbuf =>
      have hentries := OrderedDict.popItem_eq_some next
      have hlen : rest.length = s.buffer.length := by
        have h := congrArg List.length hbuf
        simp only [List.length_append, List.length_cons, List.length_nil] at h
        omega
      refine ⟨inv.tidy.setEvent event, ?_, ?_, fun h => absurd hr h, fun _ => ?_⟩
      · intro e he
        change e ∈ s.waitingReceivers.entries at he
        simp [hr] at he
      · intro e he
        simpa using inv.senders e (hentries ▸ List.mem_cons_of_mem _ he)
      · simpa [hlen] using inv.sending (by simp [hentries])

section Tasks
variable [DecidableEq τ]

/-- A task leaves its wait, and the queue of receivers has no entry of it. -/
theorem Inv.leave (inv : Inv s) {p : Point α} (hp : ∀ f, Coroutine.waits p ≠ .future f)
    (hl : s'.loop = s.loop.resumeAt t p)
    (hr : ∀ e ∈ s'.waitingReceivers.entries, e ∈ s.waitingReceivers.entries ∧ e.2 ≠ t)
    (hs : s'.waitingSenders.entries ⊆ s.waitingSenders.entries) (hb : s'.buffer = s.buffer)
    (hmax : s'.maxBufferSize = s.maxBufferSize) : Inv s' := by
  refine inv.frame (hl ▸ inv.tidy.leave hp) (fun e he => ?_) hs (by simp [hl]) hb hmax
  obtain ⟨hmem, hne⟩ := hr e he
  exact ⟨hmem, by simp [hl, hne], by simp [hl]⟩

omit [DecidableEq τ] in
/-- The task of an entry of the queue stands in `receive()`. -/
theorem Inv.ne_of_point (inv : Inv s) {e : FutureId × τ} (he : e ∈ s.waitingReceivers.entries)
    (ht : s.loop.point t ≠ .receiveWait e.1) : e.2 ≠ t := by
  rintro rfl
  exact ht (inv.receivers e he).1

/-- Task `t` wakes up and is in no queue of receivers. -/
theorem Inv.wake (inv : Inv s) (ht : ∀ f, s.loop.point t ≠ .receiveWait f) : Inv (wake s t) :=
  inv.leave (p := .outside) (by simp [Coroutine.waits]) rfl
    (fun e he => ⟨he, inv.ne_of_point he (ht e.1)⟩) (fun _ => id) rfl rfl

theorem Inv.move (inv : Inv s) (hfrom : s.loop.point t = .outside) {p : Point α}
    (hp : ∀ f, Coroutine.waits p ≠ .future f) :
    Inv { s with loop := s.loop.moveTo t p } := by
  refine inv.frame (inv.tidy.move hfrom hp) (fun e he => ⟨he, ?_, id⟩) (fun _ => id) le_rfl rfl rfl
  have hne := inv.ne_of_point (t := t) he (by simp [hfrom])
  simp [hne]

theorem Inv.joinSender (inv : Inv s) (hfrom : s.loop.point t = .outside) (x : α)
    (hnil : s.waitingReceivers.entries = [])
    (hfull : ¬s.maxBufferSize.covers (s.buffer.length + 1)) :
    Inv { s with
      waitingSenders := s.waitingSenders.assign s.loop.nextFuture x
      loop := s.loop.createFuture.moveTo t (.sendWait s.loop.nextFuture) } := by
  refine ⟨inv.tidy.join hfrom rfl, ?_, ?_, fun h => absurd hnil h, fun _ => hfull⟩
  · intro e he
    simp [hnil] at he
  · intro e he
    rcases OrderedDict.mem_assign.mp he with rfl | ⟨he, -⟩
    · simp
    · exact Nat.lt_succ_of_lt (inv.senders e he)

theorem Inv.joinReceiver (inv : Inv s) (hfrom : s.loop.point t = .outside)
    (hbuf : s.buffer = []) (hnil : s.waitingSenders.entries = []) :
    Inv { s with
      waitingReceivers := s.waitingReceivers.assign s.loop.nextFuture t
      item := Function.update s.item s.loop.nextFuture none
      loop := s.loop.createFuture.moveTo t (.receiveWait s.loop.nextFuture) } := by
  refine ⟨inv.tidy.join hfrom rfl, ?_, ?_, fun _ => ⟨hbuf, hnil⟩, fun h => absurd hnil h⟩
  · intro e he
    rcases OrderedDict.mem_assign.mp he with rfl | ⟨he, -⟩
    · simp
    · obtain ⟨hw, hf⟩ := inv.receivers e he
      have hne := inv.ne_of_point (t := t) he (by simp [hfrom])
      have hold := (inv.tidy.owned.created _ _ (waits_receiveWait hw)).ne
      exact ⟨by simpa [hne] using hw, by simpa [hold] using hf⟩
  · intro e he
    exact Nat.lt_succ_of_lt (inv.senders e he)

theorem Inv.interrupt (inv : Inv s) (h : interruptible s.loop t = true) :
    Inv { s with loop := s.loop.cancel t } := by
  refine inv.frame (inv.tidy.interrupt h) (fun e he => ⟨he, by simp, fun hf => ?_⟩) (fun _ => id)
    (by simp) rfl rfl
  exact Loop.cancel_finished_iff.mp hf

end Tasks

theorem Inv.closeSend (inv : Inv s) (i : Nat) : Inv (closeSend s i) := by
  unfold MemoryStream.closeSend
  simp only
  split_ifs
  · exact inv
  · exact inv.frame (inv.tidy.setEvents _) (by simp) (fun _ => id) (by simp) rfl rfl
  · exact inv.frame inv.tidy (fun e he => ⟨he, rfl, id⟩) (fun _ => id) le_rfl rfl rfl

theorem Inv.closeReceive (inv : Inv s) (i : Nat) : Inv (closeReceive s i) := by
  unfold MemoryStream.closeReceive
  simp only
  split_ifs
  · exact inv
  · refine inv.frame (inv.tidy.setEvents _) (fun e he => ⟨he, by simp, fun hf => ?_⟩)
      (fun _ => id) (by simp) rfl rfl
    -- a receiver waits, so no sender does and no event is set
    have hnil := (inv.receiving (List.ne_nil_of_mem he)).2
    simpa [OrderedDict.keys, hnil, MemoryStream.setEvents] using hf
  · exact inv.frame inv.tidy (fun e he => ⟨he, rfl, id⟩) (fun _ => id) le_rfl rfl rfl

end Preservation

theorem create_ok {python311 : Bool} {size : Number} {s : State τ α}
    (h : create τ α python311 size = .ok s) : ∃ bound, s = {
      maxBufferSize := bound
      buffer := []
      openSendChannels := 1
      openReceiveChannels := 1
      waitingReceivers := .empty
      item := fun _ => none
      waitingSenders := .empty
      sendClosed := [false]
      receiveClosed := [false]
      python311 := python311
      effectivelyCancelled := fun _ => false
      loop := Loop.initial .outside } := by
  unfold create at h
  cases hsize : checkSize size with
  | error e => simp [hsize, Except.map] at h
  | ok bound =>
      simp only [hsize, Except.map, Except.ok.injEq] at h
      exact ⟨bound, h.symm⟩

theorem Inv.created {python311 : Bool} {size : Number} {s : State τ α}
    (h : create τ α python311 size = .ok s) : Inv s := by
  obtain ⟨bound, rfl⟩ := create_ok h
  exact ⟨.initial, by simp, by simp, by simp, by simp⟩

/-- A stream with room for one item in its buffer, just created. -/
def bufferOfOne (τ α : Type*) : State τ α where
  maxBufferSize := .count 1
  buffer := []
  openSendChannels := 1
  openReceiveChannels := 1
  waitingReceivers := .empty
  item := fun _ => none
  waitingSenders := .empty
  sendClosed := [false]
  receiveClosed := [false]
  python311 := true
  effectivelyCancelled := fun _ => false
  loop := Loop.initial .outside

end Anyio.MemoryStream
