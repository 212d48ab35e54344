import Anyio.MemoryStream.Steps

/-!
# Items of memory object streams are neither lost nor reordered

An item travels through the buffer, from a waiting sender into the buffer, or
straight to a waiting receiver. The history of a run keeps the accepted items
in the order of acceptance, those taken out in the order of leaving, and for
the receivers what they were handed and what their `receive()` returned.

## Implementation notes

An item that a sender queued is tagged with the event of the sender, so that
it can be struck out when `send()` raises with the item still in the queue.
-/

namespace Anyio.MemoryStream

open Asyncio Library

variable {τ α : Type*}

/-- What happened to the items of a run. -/
structure History (α : Type*) where
  accepted : List (Option FutureId × α)
  taken : List α
  handed : List (FutureId × α)
  returned : List (FutureId × α)
  deriving DecidableEq, Repr

namespace History

def empty : History α := ⟨[], [], [], []⟩

/-- A `send_nowait()` that did not raise. -/
def accept (h : History α) (s : State τ α) (x : α) : History α :=
  match (nextReceivers s).popItem with
  | some ((event, _), _) =>
      { h with
        accepted := h.accepted ++ [(none, x)]
        taken := h.taken ++ [x]
        handed := h.handed ++ [(event, x)] }
  | none => { h with accepted := h.accepted ++ [(none, x)] }

theorem accept_of_next {h : History α} {s : State τ α} {x : α} {event : FutureId} {t : τ}
    {rest : OrderedDict FutureId τ} (next : (nextReceivers s).popItem = some ((event, t), rest)) :
    h.accept s x =
      { h with
        accepted := h.accepted ++ [(none, x)]
        taken := h.taken ++ [x]
        handed := h.handed ++ [(event, x)] } := by
  unfold accept
  rw [next]

theorem accept_of_none {h : History α} {s : State τ α} {x : α}
    (hnone : (nextReceivers s).popItem = none) :
    h.accept s x = { h with accepted := h.accepted ++ [(none, x)] } := by
  unfold accept
  rw [hnone]

/-- An item put into `waiting_senders`. -/
def queue (h : History α) (event : FutureId) (x : α) : History α :=
  { h with accepted := h.accepted ++ [(some event, x)] }

/-- An item its sender took out of `waiting_senders` again. -/
def withdraw (h : History α) (event : FutureId) : History α :=
  { h with accepted := h.accepted.filter fun e => e.1 ≠ some event }

/-- A `receive_nowait()` that did not raise. -/
def take (h : History α) (x : α) : History α := { h with taken := h.taken ++ [x] }

/-- A `receive()` that waited on `event` and returned. -/
def deliver (h : History α) (event : FutureId) (x : α) : History α :=
  { h with returned := h.returned ++ [(event, x)] }

end History

section Record
variable [DecidableEq τ]

/-- What the step of task `t` after its wake-up at point `p` adds to the history. -/
def recordWake (h : History α) (s : State τ α) (t : τ) (p : Point α)
    (o : Outcome (Point α) (Value α)) : History α :=
  match p with
  | .outside => h
  | .sendCheckpoint _ x =>
      match o with
      | .returned _ => h.accept (wake s t) x
      | .suspended (.sendWait event) => h.queue event x
      | _ => h
  | .sendWait event =>
      match o with
      | .raised _ => if event ∈ s.waitingSenders.keys then h.withdraw event else h
      | _ => h
  | .receiveCheckpoint _ =>
      match o with
      | .returned (.item x) => h.take x
      | _ => h
  | .receiveWait event =>
      match o with
      | .returned (.item x) => h.deliver event x
      | _ => h

/-- What a step adds to the history. -/
def record (h : History α) (s : State τ α) (a : Action τ α) (o : Outcome (Point α) (Value α)) :
    History α :=
  match a with
  | .sendNowait _ x =>
      match o with
      | .returned _ => h.accept s x
      | _ => h
  | .receiveNowait _ =>
      match o with
      | .returned (.item x) => h.take x
      | _ => h
  | .resume t => recordWake h s t (s.loop.point t) o
  | _ => h

/-- The machine that keeps the history. -/
def recorded (τ α : Type*) [DecidableEq τ] :
    Machine (State τ α × History α) (Action τ α) (Outcome (Point α) (Value α)) :=
  (machine τ α).withHistory record

end Record

/-- The items of the senders that wait, tagged as in the history. -/
def queued (s : State τ α) : List (Option FutureId × α) :=
  s.waitingSenders.entries.map fun e => (some e.1, e.2)

/-- The accepted items that are still in the stream are those in the buffer
and behind them those of the waiting senders. -/
structure Ordered (s : State τ α) (h : History α) : Prop where
  split : ∃ through, h.accepted = through ++ queued s ∧
    through.map Prod.snd = h.taken ++ s.buffer ∧
    ∀ e ∈ s.waitingSenders.entries, ∀ x, (some e.1, x) ∉ through
  tags : ∀ event x, (some event, x) ∈ h.accepted → event < s.loop.nextFuture

/-- An item handed to a receiver was returned, or is held ready for it. -/
structure Delivered (s : State τ α) (h : History α) : Prop where
  handed : ∀ p ∈ h.handed, p ∈ h.returned ∨ ∃ t, s.loop.point t = .receiveWait p.1 ∧
    s.loop.future p.1 = .finished ∧ s.item p.1 = some p.2
  kept : ∀ t f x, s.loop.point t = .receiveWait f → s.item f = some x → (f, x) ∈ h.handed
  returned : h.returned ⊆ h.handed

section Ordered
variable {s s' : State τ α} {h : History α} {x : α}

theorem Ordered.frame (ord : Ordered s h) (hs : s'.waitingSenders = s.waitingSenders)
    (hb : s'.buffer = s.buffer) (hnext : s.loop.nextFuture ≤ s'.loop.nextFuture) :
    Ordered s' h := by
  obtain ⟨through, hacc, hmap, hnot⟩ := ord.split
  refine ⟨⟨through, ?_, ?_, ?_⟩, fun f y hf => Nat.lt_of_lt_of_le (ord.tags f y hf) hnext⟩
  · rw [hacc, queued, queued, hs]
  · rw [hmap, hb]
  · rw [hs]
    exact hnot

/-- With no sender waiting, everything accepted went through the stream or is in the buffer. -/
theorem Ordered.accepted_of_nil (ord : Ordered s h) (hnil : s.waitingSenders.entries = []) :
    h.accepted.map Prod.snd = h.taken ++ s.buffer := by
  obtain ⟨through, hacc, hmap, -⟩ := ord.split
  rw [hacc, queued, hnil, List.map_nil, List.append_nil, hmap]

/-- The accepted items, with no sender waiting, in the form of the invariant. -/
theorem Ordered.of_nil {k : History α} (hnil : s'.waitingSenders.entries = [])
    (hmap : k.accepted.map Prod.snd = k.taken ++ s'.buffer)
    (htags : ∀ event y, (some event, y) ∈ k.accepted → event < s'.loop.nextFuture) :
    Ordered s' k := by
  refine ⟨⟨k.accepted, ?_, hmap, ?_⟩, htags⟩
  · rw [queued, hnil, List.map_nil, List.append_nil]
  · simp [hnil]

/-- The accepted items grow by an untagged one. -/
theorem Ordered.tags_accept (ord : Ordered s h) {event : FutureId} {y : α}
    (hmem : (some event, y) ∈ h.accepted ++ [(none, x)]) : event < s.loop.nextFuture := by
  rw [List.mem_append, List.mem_singleton] at hmem
  rcases hmem with hmem | heq
  · exact ord.tags event y hmem
  · cases heq

/-- An item handed over is the next one accepted and the next one taken. -/
theorem Ordered.hand (ord : Ordered s h) (hnil : s.waitingSenders.entries = [])
    (hbuf : s.buffer = []) (hs : s'.waitingSenders = s.waitingSenders)
    (hb : s'.buffer = s.buffer) (hnext : s'.loop.nextFuture = s.loop.nextFuture)
    {k : History α} (hacc : k.accepted = h.accepted ++ [(none, x)])
    (htaken : k.taken = h.taken ++ [x]) : Ordered s' k := by
  refine .of_nil (hs ▸ hnil) ?_ fun f y hf => ?_
  · rw [hacc, htaken, hb, hbuf, List.map_append, ord.accepted_of_nil hnil, hbuf]
    simp
  · rw [hnext]
    exact ord.tags_accept (hacc ▸ hf)

/-- An item put into the buffer, with no sender waiting. -/
theorem Ordered.store (ord : Ordered s h) (hnil : s.waitingSenders.entries = [])
    (hs : s'.waitingSenders = s.waitingSenders) (hb : s'.buffer = s.buffer ++ [x])
    (hnext : s'.loop.nextFuture = s.loop.nextFuture) {k : History α}
    (hacc : k.accepted = h.accepted ++ [(none, x)]) (htaken : k.taken = h.taken) :
    Ordered s' k := by
  refine .of_nil (hs ▸ hnil) ?_ fun f y hf => ?_
  · rw [hacc, htaken, hb, List.map_append, ord.accepted_of_nil hnil]
    simp
  · rw [hnext]
    exact ord.tags_accept (hacc ▸ hf)

/-- A sender queues up with a new event. -/
theorem Ordered.queue (ord : Ordered s h)
    (hfresh : ∀ e ∈ s.waitingSenders.entries, e.1 < s.loop.nextFuture)
    (hs : s'.waitingSenders = s.waitingSenders.assign s.loop.nextFuture x)
    (hb : s'.buffer = s.buffer) (hnext : s'.loop.nextFuture = s.loop.nextFuture + 1) :
    Ordered s' (h.queue s.loop.nextFuture x) := by
  obtain ⟨through, hacc, hmap, hnot⟩ := ord.split
  have hnew : ∀ v, (s.loop.nextFuture, v) ∉ s.waitingSenders.entries :=
    fun v hmem => absurd (hfresh _ hmem) (lt_irrefl _)
  have hentries := OrderedDict.assign_entries hnew x
  refine ⟨⟨through, ?_, hb ▸ hmap, ?_⟩, ?_⟩
  · simp only [History.queue, hacc, queued, hs, hentries, List.map_append, List.map_singleton,
      List.append_assoc]
  · intro e he y hy
    rw [hs, hentries, List.mem_append, List.mem_singleton] at he
    rcases he with he | rfl
    · exact hnot e he y hy
    · have hlt := ord.tags _ y (hacc ▸ List.mem_append_left _ hy)
      exact absurd hlt (lt_irrefl _)
  · intro f y hf
    rw [hnext]
    simp only [History.queue, List.mem_append, List.mem_singleton, Prod.mk.injEq,
      Option.some.injEq] at hf
    rcases hf with hf | ⟨rfl, -⟩
    · exact Nat.lt_succ_of_lt (ord.tags f y hf)
    · exact Nat.lt_succ_self _

/-- The head of the buffer is taken, after the items of some senders were
admitted to it. -/
theorem Ordered.take (ord : Ordered s h) (admitted : List (FutureId × α)) {rest : List α}
    (hentries : s.waitingSenders.entries = admitted ++ s'.waitingSenders.entries)
    (hbuf : s.buffer ++ admitted.map Prod.snd = x :: rest) (hb : s'.buffer = rest)
    (hnodup : (s.waitingSenders.entries.map Prod.fst).Nodup)
    (hnext : s'.loop.nextFuture = s.loop.nextFuture) : Ordered s' (h.take x) := by
  obtain ⟨through, hacc, hmap, hnot⟩ := ord.split
  refine ⟨⟨through ++ admitted.map fun e => (some e.1, e.2), ?_, ?_, ?_⟩,
    fun f y hf => hnext ▸ ord.tags f y hf⟩
  · simp [History.take, hacc, queued, hentries]
  · have htail : (admitted.map fun e => ((some e.1, e.2) : Option FutureId × α)).map Prod.snd =
        admitted.map Prod.snd := by
      rw [List.map_map]
      rfl
    rw [List.map_append, hmap, htail, List.append_assoc, hbuf, hb]
    simp [History.take]
  · intro e he y hy
    rw [List.mem_append] at hy
    rcases hy with hy | hy
    · exact hnot e (hentries ▸ List.mem_append_right _ he) y hy
    · -- the keys of the queue are distinct, so an admitted one is not in the rest
      obtain ⟨c, hc, heq⟩ := List.mem_map.mp hy
      rw [hentries, List.map_append, List.nodup_append] at hnodup
      have hkey : c.1 = e.1 := Option.some.inj (Prod.mk.inj heq).1
      exact hnodup.2.2 c.1 (List.mem_map_of_mem hc) e.1 (List.mem_map_of_mem he) hkey

/-- A sender takes its item out of the queue. -/
theorem Ordered.withdraw (ord : Ordered s h) {event : FutureId}
    (hmem : event ∈ s.waitingSenders.keys)
    (hs : s'.waitingSenders = s.waitingSenders.pop event) (hb : s'.buffer = s.buffer)
    (hnext : s'.loop.nextFuture = s.loop.nextFuture) : Ordered s' (h.withdraw event) := by
  obtain ⟨through, hacc, hmap, hnot⟩ := ord.split
  obtain ⟨v, hv⟩ := OrderedDict.mem_keys.mp hmem
  have hkeep : through.filter (fun e => e.1 ≠ some event) = through := by
    apply List.filter_eq_self.mpr
    rintro ⟨tag, y⟩ hy
    have hne : tag ≠ some event := by
      rintro rfl
      exact hnot (event, v) hv y hy
    simpa using hne
  refine ⟨⟨through, ?_, hb ▸ hmap, ?_⟩, ?_⟩
  · simp only [History.withdraw, hacc, List.filter_append, hkeep]
    rw [queued, queued, hs, OrderedDict.pop, List.filter_map]
    simp [Function.comp_def]
  · intro e he y hy
    rw [hs, OrderedDict.mem_pop] at he
    exact hnot e he.1 y hy
  · intro f y hf
    rw [hnext]
    exact ord.tags f y (List.mem_of_mem_filter hf)

end Ordered

section Delivered
variable {s s' : State τ α} {h k : History α} {t : τ} {x : α}

/-- No task enters or leaves a waiting `receive()`, and events that were set stay set. -/
theorem Delivered.frame (del : Delivered s h)
    (hp : ∀ u f, s'.loop.point u = .receiveWait f ↔ s.loop.point u = .receiveWait f)
    (hf : ∀ u f, s.loop.point u = .receiveWait f → s.loop.future f = .finished →
      s'.loop.future f = .finished)
    (hi : s'.item = s.item) (hh : k.handed = h.handed) (hr : k.returned = h.returned) :
    Delivered s' k := by
  refine ⟨fun p hmem => ?_, fun u f y hu hy => ?_, hr ▸ hh ▸ del.returned⟩
  · rcases del.handed p (hh ▸ hmem) with hret | ⟨u, hu, hfin, hitem⟩
    · exact .inl (hr ▸ hret)
    · exact .inr ⟨u, (hp u p.1).mpr hu, hf u p.1 hu hfin, hi ▸ hitem⟩
  · exact hh ▸ del.kept u f y ((hp u f).mp hu) (hi ▸ hy)

/-- A live receiver is handed an item. -/
theorem Delivered.hand (del : Delivered s h) {event : FutureId}
    (ht : s.loop.point t = .receiveWait event) (hpending : s.loop.future event = .pending)
    (hl : s'.loop = s.loop.setEvent event)
    (hi : s'.item = Function.update s.item event (some x))
    (hh : k.handed = h.handed ++ [(event, x)]) (hr : k.returned = h.returned) :
    Delivered s' k := by
  have hset : s'.loop.future event = .finished := by
    simp [hl, Loop.setEvent_future, hpending]
  refine ⟨fun p hmem => ?_, fun u f y hu hy => ?_, ?_⟩
  · rw [hh, List.mem_append, List.mem_singleton] at hmem
    rcases hmem with hmem | rfl
    · rcases del.handed p hmem with hret | ⟨u, hu, hfin, hitem⟩
      · exact .inl (hr ▸ hret)
      · have hne : p.1 ≠ event := by
          intro heq
          rw [heq, hpending] at hfin
          cases hfin
        exact .inr ⟨u, by simpa [hl] using hu, by simp [hl, Loop.setEvent_future, hne, hfin],
          by simp [hi, hne, hitem]⟩
    · exact .inr ⟨t, by simpa [hl] using ht, hset, by simp [hi]⟩
  · rw [hh, List.mem_append, List.mem_singleton]
    rw [hi] at hy
    by_cases hf : f = event
    · subst hf
      right
      simpa [eq_comm] using hy
    · left
      exact del.kept u f y (by simpa [hl] using hu) (by simpa [hf] using hy)
  · rw [hr, hh]
    exact fun p hp => List.mem_append_left _ (del.returned hp)

variable [DecidableEq τ]

/-- A new receiver has no item. -/
theorem Delivered.join (del : Delivered s h) (tidy : Tidy s.loop)
    (hfrom : s.loop.point t = .outside)
    (hl : s'.loop = s.loop.createFuture.moveTo t (.receiveWait s.loop.nextFuture))
    (hi : s'.item = Function.update s.item s.loop.nextFuture none) : Delivered s' h := by
  have hold : ∀ u f, s.loop.point u = .receiveWait f → u ≠ t ∧ f ≠ s.loop.nextFuture := by
    intro u f hu
    refine ⟨?_, (tidy.owned.created u f (waits_receiveWait hu)).ne⟩
    rintro rfl
    simp [hfrom] at hu
  refine ⟨fun p hmem => ?_, fun u f y hu hy => ?_, del.returned⟩
  · rcases del.handed p hmem with hret | ⟨u, hu, hfin, hitem⟩
    · exact .inl hret
    · obtain ⟨hut, hne⟩ := hold u p.1 hu
      exact .inr ⟨u, by simpa [hl, hut] using hu, by simpa [hl, hne] using hfin,
        by simpa [hi, hne] using hitem⟩
  · rw [hl, Loop.moveTo_point] at hu
    rw [hi] at hy
    split_ifs at hu with hut
    · obtain rfl := Point.receiveWait.inj hu
      simp at hy
    · obtain ⟨-, hne⟩ := hold u f hu
      exact del.kept u f y hu (by simpa [hne] using hy)

/-- A task leaves, and an item held ready for it is returned. -/
theorem Delivered.leave (del : Delivered s h) {p : Point α}
    (hp : ∀ f, p ≠ .receiveWait f) (hl : s'.loop = s.loop.resumeAt t p)
    (hi : s'.item = s.item) (hh : k.handed = h.handed) (hsub : h.returned ⊆ k.returned)
    (hret : k.returned ⊆ k.handed)
    (hready : ∀ f y, s.loop.point t = .receiveWait f → s.loop.future f = .finished →
      s.item f = some y → (f, y) ∈ k.returned) : Delivered s' k := by
  refine ⟨fun q hmem => ?_, fun u f y hu hy => ?_, hret⟩
  · rcases del.handed q (hh ▸ hmem) with hq | ⟨u, hu, hfin, hitem⟩
    · exact .inl (hsub hq)
    · by_cases hut : u = t
      · subst hut
        exact .inl (hready q.1 q.2 hu hfin hitem)
      · exact .inr ⟨u, by simpa [hl, hut] using hu, by simpa [hl] using hfin, hi ▸ hitem⟩
  · rw [hl, Loop.resumeAt_point] at hu
    split_ifs at hu with hut
    · exact absurd hu (hp f)
    · exact hh ▸ del.kept u f y hu (hi ▸ hy)

end Delivered

/-- What is known about a state that was reached with a history. -/
structure Known (s : State τ α) (h : History α) : Prop where
  inv : Inv s
  ord : Ordered s h
  del : Delivered s h

section Step
variable {s s' m : State τ α} {h : History α} {t : τ} {x : α} {a : Action τ α} {i : Nat}
  {o : Outcome (Point α) (Value α)}

theorem Known.created {python311 : Bool} {size : Number}
    (hcreate : create τ α python311 size = .ok s) : Known s .empty := by
  have inv := Inv.created hcreate
  obtain ⟨bound, rfl⟩ := create_ok hcreate
  refine ⟨inv, .of_nil rfl rfl ?_, ⟨?_, ?_, ?_⟩⟩
  · intro event y hmem
    cases hmem
  · intro p hmem
    cases hmem
  · intro u f y _ hy
    cases hy
  · exact List.Subset.refl _

/-- Changes that the items do not see. -/
theorem Known.frame (k : Known s h) (inv : Inv s')
    (hs : s'.waitingSenders = s.waitingSenders) (hb : s'.buffer = s.buffer)
    (hi : s'.item = s.item) (hnext : s.loop.nextFuture ≤ s'.loop.nextFuture)
    (hp : ∀ u f, s'.loop.point u = .receiveWait f ↔ s.loop.point u = .receiveWait f)
    (hf : ∀ u f, s.loop.point u = .receiveWait f → s.loop.future f = .finished →
      s'.loop.future f = .finished) : Known s' h :=
  ⟨inv, k.ord.frame hs hb hnext, k.del.frame hp hf hi rfl rfl⟩

variable [DecidableEq τ]

/-- A task that stands in no waiting `receive()` wakes up. -/
theorem Known.wake (k : Known s h) (ht : ∀ f, s.loop.point t ≠ .receiveWait f) :
    Known (wake s t) h := by
  refine k.frame (k.inv.wake ht) rfl rfl rfl le_rfl (fun u f => ?_) fun _ _ _ => id
  by_cases hut : u = t
  · simp [MemoryStream.wake, hut, ht f]
  · simp [MemoryStream.wake, hut]

theorem Known.move (k : Known s h) (hfrom : s.loop.point t = .outside) {p : Point α}
    (hp : ∀ f, Coroutine.waits p ≠ .future f) :
    Known { s with loop := s.loop.moveTo t p } h := by
  refine k.frame (k.inv.move hfrom hp) rfl rfl rfl le_rfl (fun u f => ?_) fun _ _ _ => id
  by_cases hut : u = t
  · have hne : p ≠ .receiveWait f := by
      rintro rfl
      exact hp f rfl
    simp [hut, hne, hfrom]
  · simp [hut]

theorem Known.joinSender (k : Known s h) (hfrom : s.loop.point t = .outside)
    (hnil : s.waitingReceivers.entries = [])
    (hfull : ¬s.maxBufferSize.covers (s.buffer.length + 1)) :
    Known { s with
      waitingSenders := s.waitingSenders.assign s.loop.nextFuture x
      loop := s.loop.createFuture.moveTo t (.sendWait s.loop.nextFuture) }
      (h.queue s.loop.nextFuture x) := by
  refine ⟨k.inv.joinSender hfrom x hnil hfull, k.ord.queue k.inv.senders rfl rfl rfl,
    k.del.frame (fun u f => ?_) (fun u f hu hf => ?_) rfl rfl rfl⟩
  · by_cases hut : u = t <;> simp [hut, hfrom]
  · have hne := (k.inv.tidy.owned.created u f (waits_receiveWait hu)).ne
    simpa [hne] using hf

theorem Known.joinReceiver (k : Known s h) (hfrom : s.loop.point t = .outside)
    (hbuf : s.buffer = []) (hnil : s.waitingSenders.entries = []) :
    Known { s with
      waitingReceivers := s.waitingReceivers.assign s.loop.nextFuture t
      item := Function.update s.item s.loop.nextFuture none
      loop := s.loop.createFuture.moveTo t (.receiveWait s.loop.nextFuture) } h :=
  ⟨k.inv.joinReceiver hfrom hbuf hnil, k.ord.frame rfl rfl (Nat.le_succ _),
    k.del.join k.inv.tidy hfrom rfl rfl⟩

/-- A `send()` that waited takes its own entry out if it is still there. -/
theorem Known.leaveSender (k : Known s h) {event : FutureId}
    (hp : s.loop.point t = .sendWait event) :
    Known { MemoryStream.wake s t with waitingSenders := s.waitingSenders.pop event }
      (if event ∈ s.waitingSenders.keys then h.withdraw event else h) := by
  have hwake := k.wake (t := t) (by simp [hp])
  have inv : Inv { MemoryStream.wake s t with waitingSenders := s.waitingSenders.pop event } :=
    hwake.inv.frame hwake.inv.tidy (fun e he => ⟨he, rfl, id⟩)
      (fun e he => (OrderedDict.mem_pop.mp he).1) le_rfl rfl rfl
  split_ifs with hmem
  · exact ⟨inv, hwake.ord.withdraw hmem rfl rfl rfl,
      hwake.del.frame (fun _ _ => Iff.rfl) (fun _ _ _ => id) rfl rfl rfl⟩
  · rw [OrderedDict.pop_of_not_mem hmem]
    exact hwake

/-- A `receive()` that waited leaves the queue. -/
theorem Known.leaveReceiver (k : Known s h) {g : History α} {event : FutureId}
    (hp : s.loop.point t = .receiveWait event)
    (hord : Ordered { MemoryStream.wake s t with
      waitingReceivers := s.waitingReceivers.pop event } g)
    (hh : g.handed = h.handed) (hsub : h.returned ⊆ g.returned) (hret : g.returned ⊆ g.handed)
    (hready : ∀ y, s.loop.future event = .finished → s.item event = some y →
      (event, y) ∈ g.returned) :
    Known { MemoryStream.wake s t with waitingReceivers := s.waitingReceivers.pop event } g := by
  refine ⟨k.inv.leave (p := .outside) (by simp [Coroutine.waits]) rfl (fun e he => ?_)
    (fun _ => id) rfl rfl, hord, k.del.leave (p := .outside) (by simp) rfl rfl hh hsub hret ?_⟩
  · rw [OrderedDict.mem_pop] at he
    refine ⟨he.1, k.inv.ne_of_point he.1 ?_⟩
    intro heq
    exact he.2 (Point.receiveWait.inj (heq.symm.trans hp))
  · intro f y hf hfin hy
    obtain rfl := Point.receiveWait.inj (hp.symm.trans hf)
    exact hready y hfin hy

omit [DecidableEq τ] in
theorem Known.closeSend (k : Known s h) (i : Nat) : Known (closeSend s i) h := by
  have inv := k.inv.closeSend i
  unfold MemoryStream.closeSend at inv ⊢
  simp only at inv ⊢
  split_ifs at inv ⊢
  · exact k
  · exact k.frame inv rfl rfl rfl (by simp) (by simp)
      fun _ _ _ hf => setEvents_finished _ _ hf
  · exact k.frame inv rfl rfl rfl le_rfl (fun _ _ => Iff.rfl) fun _ _ _ => id

omit [DecidableEq τ] in
theorem Known.closeReceive (k : Known s h) (i : Nat) : Known (closeReceive s i) h := by
  have inv := k.inv.closeReceive i
  unfold MemoryStream.closeReceive at inv ⊢
  simp only at inv ⊢
  split_ifs at inv ⊢
  · exact k
  · exact k.frame inv rfl rfl rfl (by simp) (by simp)
      fun _ _ _ hf => setEvents_finished _ _ hf
  · exact k.frame inv rfl rfl rfl le_rfl (fun _ _ => Iff.rfl) fun _ _ _ => id

/-- A call of `send_nowait()`, made directly or after the checkpoint, finds what was known. -/
theorem SendsFrom.known (call : SendsFrom s a i x m) (k : Known s h) : Known m h := by
  cases call with
  | nowait => exact k
  | woken hp => exact k.wake (by simp [hp])

theorem ReceivesFrom.known (call : ReceivesFrom s a i m) (k : Known s h) : Known m h := by
  cases call with
  | nowait => exact k
  | woken hp => exact k.wake (by simp [hp])

theorem SendsFrom.record_returned (call : SendsFrom s a i x m) (h : History α) (v : Value α) :
    record h s a (.returned v) = h.accept m x := by
  cases call with
  | nowait => rfl
  | woken hp => simp only [record, recordWake, hp]

theorem SendsFrom.record_raised (call : SendsFrom s a i x m) (h : History α) (e : Error) :
    record h s a (.raised e) = h := by
  cases call with
  | nowait => rfl
  | woken hp => simp only [record, recordWake, hp]

theorem ReceivesFrom.record_returned (call : ReceivesFrom s a i m) (h : History α) (x : α) :
    record h s a (.returned (.item x)) = h.take x := by
  cases call with
  | nowait => rfl
  | woken hp => simp only [record, recordWake, hp]

theorem ReceivesFrom.record_raised (call : ReceivesFrom s a i m) (h : History α) (e : Error) :
    record h s a (.raised e) = h := by
  cases call with
  | nowait => rfl
  | woken hp => simp only [record, recordWake, hp]

/-- The item of a `receive()` that ends is the one that it was handed. -/
theorem Known.deliver (k : Known s h) {event : FutureId}
    (hp : s.loop.point t = .receiveWait event) (hitem : s.item event = some x) :
    Known { MemoryStream.wake s t with waitingReceivers := s.waitingReceivers.pop event }
      (h.deliver event x) := by
  have hhanded := k.del.kept t event x hp hitem
  have hord : Ordered { MemoryStream.wake s t with
      waitingReceivers := s.waitingReceivers.pop event } h := k.ord.frame rfl rfl le_rfl
  refine k.leaveReceiver hp ⟨hord.split, hord.tags⟩ rfl ?_ ?_ ?_
  · exact fun p hmem => List.mem_append_left _ hmem
  · intro p hmem
    rcases List.mem_append.mp hmem with hmem | hmem
    · exact k.del.returned hmem
    · exact List.mem_singleton.mp hmem ▸ hhanded
  · intro y _ hy
    obtain rfl := Option.some.inj (hitem.symm.trans hy)
    exact List.mem_append_right _ (List.mem_singleton_self _)

theorem Known.step (k : Known s h) (hs : step s a = some (s', o)) :
    Known s' (record h s a o) := by
  have change := step_change k.inv hs
  have inv := k.inv.step hs
  cases change with
  | started hfrom ha =>
      rcases ha with ⟨i, x, rfl, rfl⟩ | ⟨i, rfl, rfl⟩
      · exact k.move hfrom (by simp [Coroutine.waits])
      · exact k.move hfrom (by simp [Coroutine.waits])
  | sendRefused call =>
      rw [call.record_raised]
      exact call.known k
  | @handed a i x m event u rest call _ next =>
      have km := call.known k
      obtain ⟨hmem, hu, hpending, -, -⟩ := km.inv.next next
      obtain ⟨hbuf, hnil⟩ := km.inv.receiving (List.ne_nil_of_mem hmem)
      rw [call.record_returned, History.accept_of_next next]
      refine ⟨inv, ?_, km.del.hand hu hpending rfl rfl rfl rfl⟩
      apply km.ord.hand (x := x) hnil hbuf <;> simp
  | @buffered a i x m call _ nobody room =>
      have km := call.known k
      have hnil : m.waitingSenders.entries = [] := by
        by_contra hne
        apply km.inv.sending hne
        rw [call.sameWaits.streams]
        exact room
      rw [call.record_returned, History.accept_of_none nobody]
      refine ⟨inv, ?_, km.del.frame (fun _ _ => Iff.rfl) (fun _ _ _ => id) rfl rfl rfl⟩
      apply km.ord.store (x := x) hnil <;> rfl
  | blocked => exact k.frame inv rfl rfl rfl le_rfl (fun _ _ => Iff.rfl) fun _ _ _ => id
  | @queued t i x hp _ _ nobody full =>
      have hwake := k.wake (t := t) (by simp [hp])
      have hskip : Known { MemoryStream.wake s t with
          waitingReceivers := nextReceivers (MemoryStream.wake s t) } h :=
        hwake.frame (hwake.inv.sends (.full (x := x) nobody full)) rfl rfl rfl le_rfl
          (fun _ _ => Iff.rfl) fun _ _ _ => id
      have hjoin := hskip.joinSender (t := t) (x := x) (by simp [MemoryStream.wake])
        (OrderedDict.popItem_eq_none.mp nobody) full
      simp only [record, recordWake, hp]
      exact hjoin
  | receiveRefused call =>
      rw [call.record_raised]
      exact call.known k
  | @head a i m x rest call hbuf hnil =>
      have km := call.known k
      have hbuf' : m.buffer ++ [] = x :: rest := by
        rw [List.append_nil, call.sameWaits.streams]
        exact hbuf
      rw [call.record_returned]
      refine ⟨inv, ?_, km.del.frame (fun _ _ => Iff.rfl) (fun _ _ _ => id) rfl rfl rfl⟩
      exact km.ord.take [] rfl hbuf' rfl m.waitingSenders.nodup rfl
  | @admitted a i m x y event others rest call _ next _ hbuf =>
      have km := call.known k
      have hm := call.sameWaits.streams
      have hentries : m.waitingSenders.entries = [(event, y)] ++ others.entries := by
        rw [hm]
        exact OrderedDict.popItem_eq_some next
      have hbuf' : m.buffer ++ [y] = x :: rest := by
        rw [hm]
        exact hbuf
      rw [call.record_returned]
      refine ⟨inv, ?_, ?_⟩
      · exact km.ord.take [(event, y)] hentries hbuf' rfl m.waitingSenders.nodup (by simp)
      · refine km.del.frame (by simp) (fun _ f _ hf => ?_) rfl rfl rfl
        rw [Loop.setEvent_future, hf]
        split_ifs <;> rfl
  | empty => exact k
  | @joined t i hp _ _ hbuf hnil =>
      have hwake := k.wake (t := t) (by simp [hp])
      have hjoin := hwake.joinReceiver (t := t) (by simp [MemoryStream.wake]) hbuf hnil
      simp only [record, recordWake, hp]
      exact hjoin
  | @interruptedEarly t hp _ =>
      have hwake := k.wake (t := t) fun f hf => by simp [hf, Point.isCheckpoint] at hp
      cases hpoint : s.loop.point t <;> simp_all [record, recordWake, Point.isCheckpoint]
  | senderRaised hp _ =>
      simpa only [record, recordWake, hp] using k.leaveSender hp
  | @senderDone t _ hp _ _ =>
      simpa only [record, recordWake, hp] using k.wake (t := t) (by simp [hp])
  | @receiverRaised t event e hp he =>
      have hleft := k.leaveReceiver hp (k.ord.frame rfl rfl le_rfl) rfl (List.Subset.refl _)
        k.del.returned fun y hfin hy => by
          rcases he with ⟨-, hf⟩ | ⟨-, -, hnone⟩
          · rw [hf] at hfin
            cases hfin
          · rw [hnone] at hy
            cases hy
      simpa only [record, recordWake, hp] using hleft
  | receiverDone hp _ hitem =>
      simpa only [record, recordWake, hp] using k.deliver hp hitem
  | cloneRefused ha => rcases ha with ⟨i, rfl⟩ | ⟨i, rfl⟩ <;> exact k
  | clonedSend => exact k.frame inv rfl rfl rfl le_rfl (fun _ _ => Iff.rfl) fun _ _ _ => id
  | clonedReceive => exact k.frame inv rfl rfl rfl le_rfl (fun _ _ => Iff.rfl) fun _ _ _ => id
  | closedSend => exact k.closeSend _
  | closedReceive => exact k.closeReceive _
  | interrupted =>
      apply k.frame inv rfl rfl rfl (by simp) (by simp)
      intro _ f _ hf
      rw [Loop.cancel_future_of_done (by simp [hf])]
      exact hf
  | scopeSet => exact k.frame inv rfl rfl rfl le_rfl (fun _ _ => Iff.rfl) fun _ _ _ => id
  | countSet => exact k.frame inv rfl rfl rfl le_rfl (by simp) fun _ _ _ => id

/-- In every state of every run, the accepted items are those taken out, in
the same order, then those in the buffer and then those of the waiting
senders: the item taken out at a position is the one accepted at this
position. An item handed to a receiver was returned by it, or the receiver can
no longer be interrupted and its next step returns the item; and waiting
receivers return nothing else. -/
theorem order_and_no_loss {python311 : Bool} {size : Number} {start : State τ α}
    (hcreate : create τ α python311 size = .ok start)
    (run : (recorded τ α).Reachable Machine.anyStep (start, .empty) (s, h)) :
    h.accepted.map Prod.snd =
        h.taken ++ s.buffer ++ s.waitingSenders.entries.map Prod.snd ∧
      (∀ (n : Nat) x, h.taken[n]? = some x → (h.accepted.map Prod.snd)[n]? = some x) ∧
      (∀ f x, (f, x) ∈ h.handed → (f, x) ∈ h.returned ∨
        ∃ t s', s.loop.point t = .receiveWait f ∧ interruptible s.loop t = false ∧
          step s (.resume t) = some (s', .returned (.item x))) ∧
      h.returned ⊆ h.handed := by
  have k : Known s h := run.invariant_history (I := Known) (.created hcreate)
    fun _ _ _ _ _ hi _ hs => hi.step hs
  obtain ⟨through, hacc, hmap, -⟩ := k.ord.split
  have hsplit : h.accepted.map Prod.snd =
      h.taken ++ s.buffer ++ s.waitingSenders.entries.map Prod.snd := by
    rw [hacc, List.map_append, hmap, queued, List.map_map]
    rfl
  refine ⟨hsplit, fun n x hn => ?_, fun f x hmem => ?_, k.del.returned⟩
  · have hlt : n < h.taken.length := (List.getElem?_eq_some_iff.mp hn).1
    rw [hsplit, List.append_assoc, List.getElem?_append_left hlt, hn]
  · rcases k.del.handed (f, x) hmem with hret | ⟨t, hp, hfin, hitem⟩
    · exact .inl hret
    · have hw := waits_receiveWait hp
      have hclear := k.inv.tidy.clear t f hw
      have hstep : step s (.resume t) = some
          ({ wake s t with waitingReceivers := s.waitingReceivers.pop f },
            .returned (.item x)) := by
        simp [MemoryStream.step, MemoryStream.resume, Loop.wakeUpQueued, Loop.throws, hw, hp, hfin,
          hclear, hitem]
      exact .inr ⟨t, _, hp, by simp [interruptible, hw, hfin], hstep⟩

end Step

/-- An item goes through the buffer, one waits with its sender until the first
is taken, and one is handed to the receiver that waits as task 1. -/
def threeRoutes : State (Fin 2) Nat × History Nat :=
  ((recorded (Fin 2) Nat).exec Machine.anyStep (bufferOfOne (Fin 2) Nat, .empty)
    [.sendNowait 0 10, .send 0 0 20, .resume 0, .receiveNowait 0, .resume 0, .receiveNowait 0,
      .receive 1 0, .resume 1, .sendNowait 0 30]).get (by decide)

theorem order_and_no_loss_three_routes :
    threeRoutes.2.taken = [10, 20, 30] ∧ threeRoutes.2.accepted.map Prod.snd = [10, 20, 30] ∧
      ∃ t s', threeRoutes.1.loop.point t = .receiveWait 1 ∧
        interruptible threeRoutes.1.loop t = false ∧
        step threeRoutes.1 (.resume t) = some (s', .returned (.item 30)) := by
  have created : create (Fin 2) Nat true (.int 1) = .ok (bufferOfOne (Fin 2) Nat) := rfl
  have run : (recorded (Fin 2) Nat).Reachable Machine.anyStep (bufferOfOne (Fin 2) Nat, .empty)
      threeRoutes := Machine.exec_get_reachable _ _ _
  have safe := order_and_no_loss (s := threeRoutes.1) (h := threeRoutes.2) created run
  refine ⟨by decide, by rw [safe.1]; decide, ?_⟩
  exact (safe.2.2.1 1 30 (by decide)).resolve_left (by decide)

end Anyio.MemoryStream
