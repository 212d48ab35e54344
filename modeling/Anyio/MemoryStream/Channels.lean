import Anyio.MemoryStream.Steps

/-!
# Counters, bounds and terminal errors of memory object streams

The counters of open channels are the numbers of stream objects that were not
closed, and the buffer never exceeds its size. A call that ends with
`EndOfStream` or `BrokenResourceError` finds the other end closed in the very
step in which it raises.

## Implementation notes

Between the event that a `close()` sets and the step of the task that waits on
it, the streams may go on. What the error reports stays true meanwhile: an end
whose last channel was closed is never opened again.
-/

namespace Anyio.MemoryStream

open Asyncio Library

variable {τ α : Type*}

/-- The counters count, and the buffer keeps to its size. -/
structure Counts (s : State τ α) : Prop where
  sends : s.openSendChannels = s.sendClosed.count false
  receives : s.openReceiveChannels = s.receiveClosed.count false
  bounded : s.maxBufferSize.covers s.buffer.length

/-- The event of a waiting `receive()` was set, and no item was left for it. -/
structure Stopped (s : State τ α) (t : τ) (f : FutureId) : Prop where
  waiting : s.loop.point t = .receiveWait f
  set : s.loop.future f = .finished
  without : s.item f = none

/-- The event of a waiting `send()` was set, and its item is still in the queue. -/
structure Abandoned (s : State τ α) (t : τ) (f : FutureId) : Prop where
  waiting : s.loop.point t = .sendWait f
  set : s.loop.future f = .finished
  left : f ∈ s.waitingSenders.keys

/-- No item is left in the stream, and none can be sent. -/
structure Exhausted (s : State τ α) : Prop where
  closed : s.openSendChannels = 0
  buffer : s.buffer = []
  senders : s.waitingSenders.entries = []

/-- Which of the waiting calls are about to end with an error of the stream. -/
structure Terminal (s : State τ α) : Prop where
  owners : ∀ e ∈ s.waitingSenders.entries, ∃ t, s.loop.point t = .sendWait e.1
  cleared : s.openSendChannels = 0 → s.waitingReceivers.entries = []
  ended : ∀ t f, Stopped s t f → Exhausted s
  broken : ∀ t f, Abandoned s t f → s.openReceiveChannels = 0

section Counts

/-- An index that is not closed is one of the stream objects. -/
theorem lt_of_open {closed : List Bool} {i : Nat} (h : closed.getD i true = false) :
    ∃ hi : i < closed.length, closed[i] = false := by
  rw [List.getD_eq_getElem?_getD] at h
  cases hget : closed[i]? with
  | none => simp [hget] at h
  | some c =>
      obtain ⟨hi, hc⟩ := List.getElem?_eq_some_iff.mp hget
      rw [hget] at h
      exact ⟨hi, hc.trans h⟩

theorem count_ne_zero_of_open {closed : List Bool} {i : Nat} (h : closed.getD i true = false) :
    closed.count false ≠ 0 := by
  obtain ⟨hi, hget⟩ := lt_of_open h
  have hpos := List.count_pos_iff.mpr (hget ▸ List.getElem_mem hi)
  exact Nat.ne_of_gt hpos

/-- Closing a stream object takes one from the number of open ones. -/
theorem count_set_closed {closed : List Bool} {i : Nat} (h : closed.getD i true = false) :
    (closed.set i true).count false = closed.count false - 1 := by
  obtain ⟨hi, hget⟩ := lt_of_open h
  rw [List.count_set hi]
  simp [hget]

theorem all_closed_of_count {closed : List Bool} (h : closed.count false = 0) :
    ∀ c ∈ closed, c = true := by
  intro c hc
  have hne : c ≠ false := by
    rintro rfl
    exact List.count_eq_zero.mp h hc
  simpa using hne

variable {s s' : State τ α}

theorem Counts.closeSend (counts : Counts s) (i : Nat) : Counts (closeSend s i) := by
  unfold MemoryStream.closeSend
  split_ifs with hclosed
  · exact counts
  · have hopen : s.sendClosed.getD i true = false := by simpa using hclosed
    have hsends : s.openSendChannels - 1 = (s.sendClosed.set i true).count false := by
      rw [count_set_closed hopen, counts.sends]
    simp only
    split_ifs
    · exact ⟨hsends, counts.receives, counts.bounded⟩
    · exact ⟨hsends, counts.receives, counts.bounded⟩

theorem Counts.closeReceive (counts : Counts s) (i : Nat) : Counts (closeReceive s i) := by
  unfold MemoryStream.closeReceive
  split_ifs with hclosed
  · exact counts
  · have hopen : s.receiveClosed.getD i true = false := by simpa using hclosed
    have hreceives : s.openReceiveChannels - 1 = (s.receiveClosed.set i true).count false := by
      rw [count_set_closed hopen, counts.receives]
    simp only
    split_ifs
    · exact ⟨counts.sends, hreceives, counts.bounded⟩
    · exact ⟨counts.sends, hreceives, counts.bounded⟩

variable [DecidableEq τ] {a : Action τ α} {o : Outcome (Point α) (Value α)}

theorem Counts.step (counts : Counts s) (change : Change s a s' o) : Counts s' := by
  obtain ⟨hsends, hreceives, hbounded⟩ := counts
  have same : ∀ {m : State τ α}, SameWaits s m → Counts m := fun hm => by
    rw [hm.streams]
    exact ⟨hsends, hreceives, hbounded⟩
  cases change with
  | sendRefused call => exact same call.sameWaits
  | receiveRefused call => exact same call.sameWaits
  | handed call =>
      obtain ⟨hs, hr, hb⟩ := same call.sameWaits
      exact ⟨hs, hr, hb⟩
  | buffered call _ _ room =>
      obtain ⟨hs, hr, -⟩ := same call.sameWaits
      refine ⟨hs, hr, ?_⟩
      rw [call.sameWaits.streams]
      simpa using room
  | head call hbuf =>
      obtain ⟨hs, hr, -⟩ := same call.sameWaits
      refine ⟨hs, hr, ?_⟩
      rw [call.sameWaits.streams]
      exact hbounded.mono (by simp [hbuf])
  | admitted call _ _ _ hbuf =>
      obtain ⟨hs, hr, -⟩ := same call.sameWaits
      have hlen := congrArg List.length hbuf
      simp only [List.length_append, List.length_cons, List.length_nil] at hlen
      refine ⟨hs, hr, ?_⟩
      rw [call.sameWaits.streams]
      exact hbounded.mono (by simp only; omega)
  | clonedSend => exact ⟨by simp [hsends, List.count_append], hreceives, hbounded⟩
  | clonedReceive => exact ⟨hsends, by simp [hreceives, List.count_append], hbounded⟩
  | closedSend => exact Counts.closeSend ⟨hsends, hreceives, hbounded⟩ _
  | closedReceive => exact Counts.closeReceive ⟨hsends, hreceives, hbounded⟩ _
  | _ => exact ⟨hsends, hreceives, hbounded⟩

end Counts

section Terminal
variable {s s' m : State τ α} {t : τ} {f : FutureId}

/-- A receiver does not await the event of a sender. -/
theorem Terminal.not_receiving (ter : Terminal s) (inv : Inv s) {e : FutureId × α}
    (he : e ∈ s.waitingSenders.entries) : s.loop.point t ≠ .receiveWait e.1 := by
  intro ht
  obtain ⟨u, hu⟩ := ter.owners e he
  obtain rfl := inv.tidy.owned.injective t u e.1 (waits_receiveWait ht) (waits_sendWait hu)
  simp [hu] at ht

/-- A sender does not await the event of a receiver. -/
theorem Inv.not_sending (inv : Inv s) {e : FutureId × τ}
    (he : e ∈ s.waitingReceivers.entries) : s.loop.point t ≠ .sendWait e.1 := by
  intro ht
  obtain ⟨hu, -⟩ := inv.receivers e he
  obtain rfl := inv.tidy.owned.injective t e.2 e.1 (waits_sendWait ht) (waits_receiveWait hu)
  simp [hu] at ht

/-- Changes that stop no receiver and abandon no sender. -/
theorem Terminal.frame (ter : Terminal s)
    (howners : ∀ e ∈ s'.waitingSenders.entries, ∃ t, s'.loop.point t = .sendWait e.1)
    (hcleared : s'.openSendChannels = 0 → s'.waitingReceivers.entries = [])
    (hstopped : ∀ t f, Stopped s' t f → Stopped s t f)
    (habandoned : ∀ t f, Abandoned s' t f → Abandoned s t f)
    (hexhausted : Exhausted s → Exhausted s')
    (hreceives : s.openReceiveChannels = 0 → s'.openReceiveChannels = 0) : Terminal s' := by
  refine ⟨howners, hcleared, fun t f h => ?_, fun t f h => ?_⟩
  · exact hexhausted (ter.ended t f (hstopped t f h))
  · exact hreceives (ter.broken t f (habandoned t f h))

/-- Nothing but the loop and the queues changed, and no wait ended or began. -/
theorem Terminal.congr (ter : Terminal s)
    (hr : s'.waitingReceivers.entries ⊆ s.waitingReceivers.entries)
    (hs : s'.waitingSenders = s.waitingSenders) (hb : s'.buffer = s.buffer)
    (hi : s'.item = s.item) (hsends : s'.openSendChannels = s.openSendChannels)
    (hreceives : s'.openReceiveChannels = s.openReceiveChannels)
    (hsw : ∀ u f, s'.loop.point u = .sendWait f ↔ s.loop.point u = .sendWait f)
    (hrw : ∀ u f, s'.loop.point u = .receiveWait f ↔ s.loop.point u = .receiveWait f)
    (hf : ∀ f, s'.loop.future f = .finished → s.loop.future f = .finished) : Terminal s' := by
  refine ter.frame (fun e he => ?_) (fun h => ?_) (fun t f h => ?_) (fun t f h => ?_)
    (fun h => ?_) fun h => hreceives ▸ h
  · obtain ⟨t, ht⟩ := ter.owners e (hs ▸ he)
    exact ⟨t, (hsw t e.1).mpr ht⟩
  · exact List.subset_nil.mp (ter.cleared (hsends ▸ h) ▸ hr)
  · exact ⟨(hrw t f).mp h.waiting, hf f h.set, hi ▸ h.without⟩
  · exact ⟨(hsw t f).mp h.waiting, hf f h.set, hs ▸ h.left⟩
  · exact ⟨hsends ▸ h.closed, hb ▸ h.buffer, hs ▸ h.senders⟩

theorem SameWaits.terminal (same : SameWaits s m) (ter : Terminal s) : Terminal m := by
  obtain ⟨hm, hf, -, hr, hs⟩ := same
  rw [hm]
  exact ter.congr (List.Subset.refl _) rfl rfl rfl rfl rfl hs hr fun f h => hf ▸ h

/-- While something is sent or taken, no receiver is about to find the end of the stream. -/
theorem Terminal.frame_of_not_exhausted (ter : Terminal s) (hnot : ¬Exhausted s)
    (howners : ∀ e ∈ s'.waitingSenders.entries, ∃ t, s'.loop.point t = .sendWait e.1)
    (hcleared : s'.openSendChannels = 0 → s'.waitingReceivers.entries = [])
    (hstopped : ∀ t f, Stopped s' t f → Stopped s t f)
    (habandoned : ∀ t f, Abandoned s' t f → Abandoned s t f)
    (hreceives : s'.openReceiveChannels = s.openReceiveChannels) : Terminal s' :=
  ter.frame howners hcleared hstopped habandoned (fun h => absurd h hnot) fun h => hreceives ▸ h

theorem Terminal.closeSend (ter : Terminal s) (inv : Inv s) (i : Nat) :
    Terminal (closeSend s i) := by
  unfold MemoryStream.closeSend
  split_ifs with hclosed
  · exact ter
  · simp only
    split_ifs with hlast
    · -- the events of the whole queue of receivers are set
      refine ⟨fun e he => ?_, fun _ => rfl, fun t f h => ?_, fun t f h => ?_⟩
      · obtain ⟨t, ht⟩ := ter.owners e he
        exact ⟨t, by simpa using ht⟩
      · rcases setEvents_cases _ _ h.set with hset | hkey
        · have hend := ter.ended t f ⟨by simpa using h.waiting, hset, h.without⟩
          exact ⟨hlast, hend.buffer, hend.senders⟩
        · obtain ⟨u, hu⟩ := OrderedDict.mem_keys.mp hkey
          obtain ⟨hbuf, hnil⟩ := inv.receiving (List.ne_nil_of_mem hu)
          exact ⟨hlast, hbuf, hnil⟩
      · have ht : s.loop.point t = .sendWait f := by simpa using h.waiting
        rcases setEvents_cases _ _ h.set with hset | hkey
        · exact ter.broken t f ⟨ht, hset, h.left⟩
        · obtain ⟨u, hu⟩ := OrderedDict.mem_keys.mp hkey
          exact absurd ht (inv.not_sending hu)
    · refine ter.frame ter.owners (fun h => absurd h hlast) (fun t f h => ?_) (fun t f h => ?_)
        (fun h => ?_) id
      · exact ⟨h.waiting, h.set, h.without⟩
      · exact ⟨h.waiting, h.set, h.left⟩
      · exact absurd (by simp only [h.closed]) hlast

theorem Terminal.closeReceive (ter : Terminal s) (inv : Inv s) (i : Nat) :
    Terminal (closeReceive s i) := by
  unfold MemoryStream.closeReceive
  split_ifs with hclosed
  · exact ter
  · simp only
    split_ifs with hlast
    · -- the events of the whole queue of senders are set, which keep their entries
      refine ⟨fun e he => ?_, ter.cleared, fun t f h => ?_, fun _ _ _ => hlast⟩
      · obtain ⟨t, ht⟩ := ter.owners e he
        exact ⟨t, by simpa using ht⟩
      · have ht : s.loop.point t = .receiveWait f := by simpa using h.waiting
        rcases setEvents_cases _ _ h.set with hset | hkey
        · have hend := ter.ended t f ⟨ht, hset, h.without⟩
          exact ⟨hend.closed, hend.buffer, hend.senders⟩
        · obtain ⟨x, hx⟩ := OrderedDict.mem_keys.mp hkey
          exact absurd ht (ter.not_receiving inv hx)
    · refine ter.frame ter.owners ter.cleared (fun t f h => ?_) (fun t f h => ?_)
        (fun h => ⟨h.closed, h.buffer, h.senders⟩) fun h => by simp only [h]
      · exact ⟨h.waiting, h.set, h.without⟩
      · exact ⟨h.waiting, h.set, h.left⟩

variable [DecidableEq τ] {a : Action τ α} {o : Outcome (Point α) (Value α)}

/-- A task leaves its wait, and with it its entry in the queue of senders. -/
theorem Terminal.leave (ter : Terminal s) (hl : s'.loop = s.loop.resumeAt t .outside)
    (hr : s'.waitingReceivers.entries ⊆ s.waitingReceivers.entries)
    (hs : ∀ e ∈ s'.waitingSenders.entries,
      e ∈ s.waitingSenders.entries ∧ s.loop.point t ≠ .sendWait e.1)
    (hb : s'.buffer = s.buffer) (hi : s'.item = s.item)
    (hsends : s'.openSendChannels = s.openSendChannels)
    (hreceives : s'.openReceiveChannels = s.openReceiveChannels) : Terminal s' := by
  have hw : ∀ {u p}, s'.loop.point u = p → p ≠ .outside → s.loop.point u = p := by
    intro u p hu hp
    rw [hl, Loop.resumeAt_point] at hu
    split_ifs at hu
    · exact absurd hu.symm hp
    · exact hu
  have hf : ∀ {f}, s'.loop.future f = .finished → s.loop.future f = .finished := by
    intro f h
    simpa [hl] using h
  refine ter.frame (fun e he => ?_) (fun h => ?_) (fun u f h => ?_) (fun u f h => ?_)
    (fun h => ?_) fun h => hreceives ▸ h
  · obtain ⟨he, hne⟩ := hs e he
    obtain ⟨u, hu⟩ := ter.owners e he
    have hut : u ≠ t := by
      rintro rfl
      exact hne hu
    exact ⟨u, by simpa [hl, hut] using hu⟩
  · exact List.subset_nil.mp (ter.cleared (hsends ▸ h) ▸ hr)
  · exact ⟨hw h.waiting (by simp), hf h.set, hi ▸ h.without⟩
  · obtain ⟨x, hx⟩ := OrderedDict.mem_keys.mp h.left
    exact ⟨hw h.waiting (by simp), hf h.set, OrderedDict.mem_keys.mpr ⟨x, (hs _ hx).1⟩⟩
  · refine ⟨hsends ▸ h.closed, hb ▸ h.buffer, ?_⟩
    exact List.subset_nil.mp fun e he => h.senders ▸ (hs e he).1

/-- A wait that ended was not begun in this step. -/
theorem set_before {p q : Point α} {u : τ} (hp : Coroutine.waits p = .future s.loop.nextFuture)
    (hq : Coroutine.waits q = .future f)
    (hw : ((wake s t).loop.createFuture.moveTo t p).point u = q)
    (hf : ((wake s t).loop.createFuture.moveTo t p).future f = .finished) :
    s.loop.point u = q ∧ s.loop.future f = .finished := by
  have hne : f ≠ s.loop.nextFuture := by
    rintro rfl
    simp [wake] at hf
  have hut : u ≠ t := by
    rintro rfl
    rw [Loop.moveTo_point, if_pos rfl] at hw
    rw [hw, hq] at hp
    exact hne (Waits.future.inj hp)
  exact ⟨by simpa [wake, hut] using hw, by simpa [wake, hne] using hf⟩

theorem Terminal.step (ter : Terminal s) (inv : Inv s) (counts : Counts s)
    (change : Change s a s' o) : Terminal s' := by
  -- a stream object that is not closed keeps its end of the stream open
  have hsending : ∀ {i}, s.sendClosed.getD i true = false → s.openSendChannels ≠ 0 := by
    intro i hopen
    rw [counts.sends]
    exact count_ne_zero_of_open hopen
  have hreceiving : ∀ {i}, s.receiveClosed.getD i true = false → s.openReceiveChannels ≠ 0 := by
    intro i hopen
    rw [counts.receives]
    exact count_ne_zero_of_open hopen
  cases change with
  | @started t p a hfrom ha =>
      have hp : (∀ f, p ≠ .sendWait f) ∧ ∀ f, p ≠ .receiveWait f := by
        rcases ha with ⟨i, x, -, rfl⟩ | ⟨i, -, rfl⟩ <;> simp
      refine ter.congr (List.Subset.refl _) rfl rfl rfl rfl rfl (fun u f => ?_) (fun u f => ?_)
        fun f => id
      · by_cases hut : u = t <;> simp [hut, hp, hfrom]
      · by_cases hut : u = t <;> simp [hut, hp, hfrom]
  | sendRefused call => exact call.sameWaits.terminal ter
  | receiveRefused call => exact call.sameWaits.terminal ter
  | cloneRefused => exact ter
  | empty => exact ter
  | blocked =>
      exact ter.congr nextReceivers_subset rfl rfl rfl rfl rfl (fun _ _ => Iff.rfl)
        (fun _ _ => Iff.rfl) fun _ => id
  | scopeSet =>
      exact ter.congr (List.Subset.refl _) rfl rfl rfl rfl rfl (fun _ _ => Iff.rfl)
        (fun _ _ => Iff.rfl) fun _ => id
  | countSet =>
      exact ter.congr (List.Subset.refl _) rfl rfl rfl rfl rfl (by simp) (by simp) fun _ => id
  | @interrupted t h =>
      refine ter.congr (List.Subset.refl _) rfl rfl rfl rfl rfl (by simp) (by simp) fun f hf => ?_
      exact Loop.cancel_finished_iff.mp hf
  | interruptedEarly hp => exact (sameWaits_wake hp).terminal ter
  | closedSend => exact ter.closeSend inv _
  | closedReceive => exact ter.closeReceive inv _
  | clonedSend hopen =>
      refine ter.frame ter.owners (fun h => by simp at h) (fun t f h => ?_) (fun t f h => ?_)
        (fun h => absurd h.closed (hsending hopen)) id
      · exact ⟨h.waiting, h.set, h.without⟩
      · exact ⟨h.waiting, h.set, h.left⟩
  | clonedReceive hopen =>
      refine ter.frame ter.owners ter.cleared (fun t f h => ?_) (fun t f h => ?_)
        (fun h => ⟨h.closed, h.buffer, h.senders⟩) fun h => absurd h (hreceiving hopen)
      · exact ⟨h.waiting, h.set, h.without⟩
      · exact ⟨h.waiting, h.set, h.left⟩
  | @handed a i x m event u rest call hopen next =>
      have ter := call.sameWaits.terminal ter
      obtain ⟨hmem, -, -, hrest, -⟩ := (call.inv inv).next next
      have hsends : m.openSendChannels = s.openSendChannels := by rw [call.sameWaits.streams]
      have hnot : m.openSendChannels ≠ 0 := hsends ▸ hsending hopen.1
      refine ter.frame_of_not_exhausted (fun h => hnot h.closed) (fun e he => ?_)
        (fun h => absurd h hnot) (fun t f h => ?_) (fun t f h => ?_) rfl
      · obtain ⟨t, ht⟩ := ter.owners e he
        exact ⟨t, by simpa using ht⟩
      · have hne : f ≠ event := by
          rintro rfl
          simpa using h.without
        exact ⟨by simpa using h.waiting, Loop.setEvent_future_of_ne hne ▸ h.set, by simpa [hne] using h.without⟩
      · have ht : m.loop.point t = .sendWait f := by simpa using h.waiting
        have hne : f ≠ event := by
          rintro rfl
          exact (call.inv inv).not_sending hmem ht
        exact ⟨ht, Loop.setEvent_future_of_ne hne ▸ h.set, h.left⟩
  | @buffered a i x m call hopen nobody =>
      have ter := call.sameWaits.terminal ter
      have hsends : m.openSendChannels = s.openSendChannels := by rw [call.sameWaits.streams]
      have hnot : m.openSendChannels ≠ 0 := hsends ▸ hsending hopen.1
      refine ter.frame_of_not_exhausted (fun h => hnot h.closed) ter.owners
        (fun h => absurd h hnot) (fun t f h => ?_) (fun t f h => ?_) rfl
      · exact ⟨h.waiting, h.set, h.without⟩
      · exact ⟨h.waiting, h.set, h.left⟩
  | @queued t i x hp _ hopen =>
      have hnot := hsending hopen.1
      refine ter.frame_of_not_exhausted (fun h => hnot h.closed) (fun e he => ?_)
        (fun h => absurd h hnot) (fun u f h => ?_) (fun u f h => ?_) rfl
      · rcases OrderedDict.mem_assign.mp he with rfl | ⟨he, -⟩
        · exact ⟨t, by simp⟩
        · obtain ⟨u, hu⟩ := ter.owners e he
          have hut : u ≠ t := by
            rintro rfl
            simp [hp] at hu
          exact ⟨u, by simpa [wake, hut] using hu⟩
      · obtain ⟨hu, hf⟩ := set_before rfl rfl h.waiting h.set
        exact ⟨hu, hf, h.without⟩
      · obtain ⟨hu, hf⟩ := set_before rfl rfl h.waiting h.set
        obtain ⟨y, hy⟩ := OrderedDict.mem_keys.mp h.left
        refine ⟨hu, hf, OrderedDict.mem_keys.mpr ⟨y, ?_⟩⟩
        rcases OrderedDict.mem_assign.mp hy with heq | ⟨hy, -⟩
        · have hlt := inv.tidy.owned.created u f (waits_sendWait hu)
          exact absurd (Prod.mk.inj heq).1 hlt.ne
        · exact hy
  | @joined t i hp _ hopen =>
      refine ter.frame_of_not_exhausted (fun h => hopen h.closed) (fun e he => ?_)
        (fun h => absurd h hopen) (fun u f h => ?_) (fun u f h => ?_) rfl
      · obtain ⟨u, hu⟩ := ter.owners e he
        have hut : u ≠ t := by
          rintro rfl
          simp [hp] at hu
        exact ⟨u, by simpa [wake, hut] using hu⟩
      · obtain ⟨hu, hf⟩ := set_before rfl rfl h.waiting h.set
        have hne := (inv.tidy.owned.created u f (waits_receiveWait hu)).ne
        exact ⟨hu, hf, by simpa [hne] using h.without⟩
      · obtain ⟨hu, hf⟩ := set_before rfl rfl h.waiting h.set
        exact ⟨hu, hf, h.left⟩
  | @head a i m x rest call hbuf =>
      have ter := call.sameWaits.terminal ter
      have hmbuf : m.buffer = s.buffer := by rw [call.sameWaits.streams]
      refine ter.frame_of_not_exhausted (fun h => ?_) ter.owners ter.cleared (fun t f h => ?_)
        (fun t f h => ?_) rfl
      · have hnil := h.buffer
        rw [hmbuf, hbuf] at hnil
        cases hnil
      · exact ⟨h.waiting, h.set, h.without⟩
      · exact ⟨h.waiting, h.set, h.left⟩
  | @admitted a i m x y event others rest call _ next =>
      have ter := call.sameWaits.terminal ter
      have hsenders : m.waitingSenders = s.waitingSenders := by rw [call.sameWaits.streams]
      have hentries := OrderedDict.popItem_eq_some next
      rw [← hsenders] at hentries
      have hmem : (event, y) ∈ m.waitingSenders.entries := hentries ▸ List.mem_cons_self
      have hsub : others.entries ⊆ m.waitingSenders.entries :=
        fun e he => hentries ▸ List.mem_cons_of_mem _ he
      refine ter.frame_of_not_exhausted (fun h => ?_) (fun e he => ?_) ter.cleared
        (fun t f h => ?_) (fun t f h => ?_) rfl
      · simp [h.senders] at hentries
      · obtain ⟨t, ht⟩ := ter.owners e (hsub he)
        exact ⟨t, by simpa using ht⟩
      · have ht : m.loop.point t = .receiveWait f := by simpa using h.waiting
        have hne : f ≠ event := by
          rintro rfl
          exact ter.not_receiving (call.inv inv) hmem ht
        exact ⟨ht, Loop.setEvent_future_of_ne hne ▸ h.set, h.without⟩
      · obtain ⟨z, hz⟩ := OrderedDict.mem_keys.mp h.left
        have hne : f ≠ event := by
          rintro rfl
          exact OrderedDict.popItem_not_mem next z hz
        exact ⟨by simpa using h.waiting, Loop.setEvent_future_of_ne hne ▸ h.set,
          OrderedDict.mem_keys.mpr ⟨z, hsub hz⟩⟩
  | @senderRaised t event e hp =>
      refine ter.leave rfl (List.Subset.refl _) (fun e he => ?_) rfl rfl rfl rfl
      obtain ⟨he, hne⟩ := OrderedDict.mem_pop.mp he
      refine ⟨he, fun heq => hne ?_⟩
      exact (Point.sendWait.inj (hp.symm.trans heq)).symm
  | @senderDone t event hp _ gone =>
      refine ter.leave rfl (List.Subset.refl _) (fun e he => ⟨he, fun heq => gone ?_⟩) rfl rfl
        rfl rfl
      rw [Point.sendWait.inj (hp.symm.trans heq)]
      exact OrderedDict.mem_keys.mpr ⟨e.2, he⟩
  | receiverRaised hp =>
      exact ter.leave rfl (fun e he => (OrderedDict.mem_pop.mp he).1)
        (fun e he => ⟨he, by simp [hp]⟩) rfl rfl rfl rfl
  | receiverDone hp =>
      exact ter.leave rfl (fun e he => (OrderedDict.mem_pop.mp he).1)
        (fun e he => ⟨he, by simp [hp]⟩) rfl rfl rfl rfl

end Terminal

section Reachable
variable {s start : State τ α} {python311 : Bool} {size : Number}

theorem Counts.created (hcreate : create τ α python311 size = .ok s) : Counts s := by
  obtain ⟨bound, rfl⟩ := create_ok hcreate
  refine ⟨by simp, by simp, ?_⟩
  cases bound <;> simp

theorem Terminal.created (hcreate : create τ α python311 size = .ok s) : Terminal s := by
  obtain ⟨bound, rfl⟩ := create_ok hcreate
  refine ⟨by simp, by simp, fun t f h => ?_, fun t f h => ?_⟩
  · exact absurd h.waiting (by simp)
  · exact absurd h.waiting (by simp)

/-- A full buffer that is not too full has exactly its size. -/
theorem Counts.full (counts : Counts s) (hfull : ¬s.maxBufferSize.covers (s.buffer.length + 1)) :
    s.maxBufferSize = .count s.buffer.length := by
  have hbounded := counts.bounded
  cases hmax : s.maxBufferSize with
  | inf => simp [hmax] at hfull
  | count n =>
      simp only [hmax, Bound.covers_count] at hfull hbounded
      exact congrArg Bound.count (by omega)

/-- What holds of the counters and the waits in every reachable state. -/
structure Represented (s : State τ α) : Prop where
  inv : Inv s
  counts : Counts s
  terminal : Terminal s

theorem Represented.created (hcreate : create τ α python311 size = .ok s) : Represented s :=
  ⟨.created hcreate, .created hcreate, .created hcreate⟩

variable [DecidableEq τ]

theorem Represented.preserved (rep : Represented s) {a : Action τ α} {s' : State τ α}
    {o : Outcome (Point α) (Value α)} (hs : step s a = some (s', o)) : Represented s' := by
  have change := step_change rep.inv hs
  exact ⟨rep.inv.step hs, rep.counts.step change, rep.terminal.step rep.inv rep.counts change⟩

theorem Represented.of_run (hcreate : create τ α python311 size = .ok start)
    {allowed : State τ α → Action τ α → Prop} (run : (machine τ α).Reachable allowed start s) :
    Represented s :=
  run.invariant (.created hcreate) fun _ _ _ _ rep _ hs => rep.preserved hs

/-- A call finds the end of the stream when nothing is left in it. -/
theorem Represented.endOfStream (rep : Represented s) {a : Action τ α} {s' : State τ α}
    (hs : step s a = some (s', .raised .endOfStream)) : Exhausted s := by
  generalize ho : (Outcome.raised .endOfStream : Outcome (Point α) (Value α)) = o at hs
  cases step_change rep.inv hs with
  | sendRefused _ he => cases ho; simp at he
  | receiveRefused _ he =>
      cases ho
      rcases he with ⟨he, -⟩ | ⟨-, hclosed, hbuf, hnil⟩
      · simp at he
      · exact ⟨hclosed, hbuf, hnil⟩
  | senderRaised _ he => cases ho; simp at he
  | @receiverRaised t event e hp he =>
      cases ho
      rcases he with ⟨he, -⟩ | ⟨-, hset, hitem⟩
      · simp at he
      · exact rep.terminal.ended t event ⟨hp, hset, hitem⟩
  | cloneRefused _ he => cases ho; simp at he
  | _ => cases ho

/-- A call finds the stream broken when no receiving end is open. -/
theorem Represented.brokenResourceError (rep : Represented s) {a : Action τ α} {s' : State τ α}
    (hs : step s a = some (s', .raised .brokenResourceError)) : s.openReceiveChannels = 0 := by
  generalize ho : (Outcome.raised .brokenResourceError : Outcome (Point α) (Value α)) = o at hs
  cases step_change rep.inv hs with
  | sendRefused _ he =>
      cases ho
      rcases he with ⟨he, -⟩ | ⟨-, hzero⟩
      · simp at he
      · exact hzero
  | receiveRefused _ he => cases ho; simp at he
  | @senderRaised t event e hp he =>
      cases ho
      rcases he with ⟨he, -⟩ | ⟨-, hset, hleft⟩
      · simp at he
      · exact rep.terminal.broken t event ⟨hp, hset, hleft⟩
  | receiverRaised _ he => cases ho; simp at he
  | cloneRefused _ he => cases ho; simp at he
  | _ => cases ho

/-- In every reachable state the counters are the numbers of unclosed clones,
the buffer keeps to its size, receivers wait only while nothing can be taken
and senders only while the buffer is full. A step that raises `EndOfStream`
finds every send stream closed and no item left, and one that raises
`BrokenResourceError` finds every receive stream closed. -/
theorem representation_invariant (hcreate : create τ α python311 size = .ok start)
    (run : (machine τ α).Reachable Machine.anyStep start s) :
    s.openSendChannels = s.sendClosed.count false ∧
      s.openReceiveChannels = s.receiveClosed.count false ∧
      s.maxBufferSize.covers s.buffer.length ∧
      (s.waitingReceivers.entries ≠ [] → s.buffer = [] ∧ s.waitingSenders.entries = []) ∧
      (s.waitingSenders.entries ≠ [] → s.openReceiveChannels ≠ 0 →
        s.maxBufferSize = .count s.buffer.length) ∧
      ∀ a s' e, step s a = some (s', .raised e) →
        (e = .endOfStream → (∀ c ∈ s.sendClosed, c = true) ∧ s.buffer = [] ∧
          s.waitingSenders.entries = []) ∧
        (e = .brokenResourceError → ∀ c ∈ s.receiveClosed, c = true) := by
  have rep := Represented.of_run hcreate run
  refine ⟨rep.counts.sends, rep.counts.receives, rep.counts.bounded, rep.inv.receiving,
    fun hne _ => rep.counts.full (rep.inv.sending hne), fun a s' e hs => ⟨?_, ?_⟩⟩
  · rintro rfl
    have hend := rep.endOfStream hs
    exact ⟨all_closed_of_count (rep.counts.sends ▸ hend.closed), hend.buffer, hend.senders⟩
  · rintro rfl
    exact all_closed_of_count (rep.counts.receives ▸ rep.brokenResourceError hs)

/-- Task 0 waits to send while the buffer is full. -/
def crowded : State (Fin 2) Nat :=
  ((machine (Fin 2) Nat).exec Machine.anyStep (bufferOfOne (Fin 2) Nat)
    [.sendNowait 0 10, .cloneSend 0, .closeSend 0, .closeSend 0, .send 0 1 20, .resume 0]).get
    (by decide)

/-- Task 0 waits to receive, and its event is set by the last `close()` of the other end. -/
def drained : State (Fin 2) Nat :=
  ((machine (Fin 2) Nat).exec Machine.anyStep (bufferOfOne (Fin 2) Nat)
    [.receive 0 0, .resume 0, .closeSend 0]).get (by decide)

theorem representation_invariant_both_ends :
    crowded.openSendChannels = crowded.sendClosed.count false ∧
      crowded.maxBufferSize = .count crowded.buffer.length ∧
      (∃ s', step drained (.resume 0) = some (s', .raised .endOfStream)) ∧
      ∀ c ∈ drained.sendClosed, c = true := by
  have created : create (Fin 2) Nat true (.int 1) = .ok (bufferOfOne (Fin 2) Nat) := rfl
  have full := representation_invariant (s := crowded) created (Machine.exec_get_reachable _ _ _)
  have empty := representation_invariant (s := drained) created (Machine.exec_get_reachable _ _ _)
  have hraise : step drained (.resume 0) =
      some ((resume drained 0).1, .raised .endOfStream) := rfl
  refine ⟨full.1, full.2.2.2.2.1 (by decide) (by decide), ⟨_, hraise⟩, ?_⟩
  exact ((empty.2.2.2.2.2 (.resume 0) _ _ hraise).1 rfl).1

end Reachable

end Anyio.MemoryStream
