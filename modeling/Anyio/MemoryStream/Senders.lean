import Anyio.MemoryStream.Channels

/-!
# The items of failed sends

Whether the item of a `send()` that raised can still be received. A sender
that was cancelled keeps its entry in the queue until it resumes, and a
`receive_nowait()` in between takes the item although the `send()` goes on to
raise. Nothing else delivers the item of a call that failed.

## Implementation notes

The ledger numbers the calls of `send()` and `send_nowait()` and tags every
item in the stream with the call it came from. The tags follow the items
through the buffer and the receivers, and never influence a step.
-/

namespace Anyio.MemoryStream

open Asyncio Library

variable {τ α : Type*}

/-- The task of a sending call stands inside `send()`. -/
def Point.isSend : Point α → Bool
  | .sendCheckpoint _ _ => true
  | .sendWait _ => true
  | _ => false

/-- The calls that send, and the items of the stream with the numbers of their calls. -/
structure Ledger (τ α : Type*) where
  calls : Nat
  call : τ → Nat
  waiting : FutureId → Nat
  buffer : List (Nat × α)
  held : FutureId → Option (Nat × α)
  /-- The calls whose item was put into the buffer or handed to a receiver. -/
  placed : List Nat
  received : List (Nat × α)
  /-- What the calls of `receive()` and `receive_nowait()` returned. -/
  values : List α
  returned : List Nat
  raised : List Nat

namespace Ledger

def empty : Ledger τ α := ⟨0, fun _ => 0, fun _ => 0, [], fun _ => none, [], [], [], [], []⟩

/-- A task calls `send()`. -/
def start [DecidableEq τ] (h : Ledger τ α) (t : τ) : Ledger τ α :=
  { h with calls := h.calls + 1, call := Function.update h.call t h.calls }

/-- The item of call `n` goes to the next receiver or into the buffer. -/
def place (h : Ledger τ α) (s : State τ α) (n : Nat) (x : α) : Ledger τ α :=
  match (nextReceivers s).popItem with
  | some ((event, _), _) =>
      { h with
        held := Function.update h.held event (some (n, x))
        placed := h.placed ++ [n] }
  | none =>
      { h with
        buffer := h.buffer ++ [(n, x)]
        placed := h.placed ++ [n] }

/-- The item of the next sender in the queue goes into the buffer. -/
def acceptHead (h : Ledger τ α) (s : State τ α) : Ledger τ α :=
  match s.waitingSenders.popItem with
  | some ((event, x), _) =>
      { h with
        buffer := h.buffer ++ [(h.waiting event, x)]
        placed := h.placed ++ [h.waiting event] }
  | none => h

/-- Call `n` went past its checkpoint. -/
def sent (h : Ledger τ α) (s : State τ α) (n : Nat) (x : α) :
    Outcome (Point α) (Value α) → Ledger τ α
  | .returned _ => { h.place s n x with returned := h.returned ++ [n] }
  | .raised _ => { h with raised := h.raised ++ [n] }
  | .suspended (.sendWait event) => { h with waiting := Function.update h.waiting event n }
  | .suspended _ => h

/-- Call `n` ended after its wait. -/
def ended (h : Ledger τ α) (n : Nat) : Outcome (Point α) (Value α) → Ledger τ α
  | .returned _ => { h with returned := h.returned ++ [n] }
  | .raised _ => { h with raised := h.raised ++ [n] }
  | .suspended _ => h

/-- A call of `receive_nowait()` ended, or a `receive()` went past its checkpoint. -/
def took (h : Ledger τ α) (s : State τ α) : Outcome (Point α) (Value α) → Ledger τ α
  | .returned (.item x) =>
      match (h.acceptHead s).buffer with
      | e :: rest =>
          { h.acceptHead s with
            buffer := rest
            received := h.received ++ [e]
            values := h.values ++ [x] }
      | [] => h
  | .suspended (.receiveWait event) => { h with held := Function.update h.held event none }
  | _ => h

/-- A `receive()` that waited on `event` ended. -/
def gave (h : Ledger τ α) (event : FutureId) : Outcome (Point α) (Value α) → Ledger τ α
  | .returned (.item x) =>
      { h with
        received := h.received ++ (h.held event).toList
        values := h.values ++ [x] }
  | _ => h

variable [DecidableEq τ]

/-- What the step of task `t` after its wake-up at point `p` adds to the ledger. -/
def recordWake (h : Ledger τ α) (s : State τ α) (t : τ) (p : Point α)
    (o : Outcome (Point α) (Value α)) : Ledger τ α :=
  match p with
  | .outside => h
  | .sendCheckpoint _ x => h.sent (wake s t) (h.call t) x o
  | .sendWait _ => h.ended (h.call t) o
  | .receiveCheckpoint _ => h.took (wake s t) o
  | .receiveWait event => h.gave event o

/-- What a step adds to the ledger. -/
def record (h : Ledger τ α) (s : State τ α) (a : Action τ α) (o : Outcome (Point α) (Value α)) :
    Ledger τ α :=
  match a with
  | .sendNowait _ x => { h with calls := h.calls + 1 }.sent s h.calls x o
  | .send t _ _ => h.start t
  | .receiveNowait _ => h.took s o
  | .resume t => h.recordWake s t (s.loop.point t) o
  | _ => h

end Ledger

/-- The machine that keeps the ledger. -/
def ledgered (τ α : Type*) [DecidableEq τ] :
    Machine (State τ α × Ledger τ α) (Action τ α) (Outcome (Point α) (Value α)) :=
  (machine τ α).withHistory Ledger.record

/-- The next sender in the queue was not cancelled. -/
def NextLive (s : State τ α) : Prop :=
  ∀ e ∈ s.waitingSenders.entries.head?, s.loop.future e.1 ≠ .cancelled

/-- What must hold when a task passes point `p`: a task that goes on with `receive()` takes no
item of a cancelled sender. -/
def PassedLive [DecidableEq τ] (s : State τ α) (t : τ) : Point α → Prop
  | .receiveCheckpoint i =>
      s.loop.throws t = false → s.receiveClosed.getD i true = false → NextLive s
  | _ => True

/-- What a step must meet: a call of `receive_nowait()` on an open stream object takes no item of
a sender that was cancelled and has not resumed yet. -/
def Live [DecidableEq τ] (s : State τ α) : Action τ α → Prop
  | .receiveNowait i => s.receiveClosed.getD i true = false → NextLive s
  | .resume t => PassedLive s t (s.loop.point t)
  | _ => True

instance (s : State τ α) : Decidable (NextLive s) :=
  inferInstanceAs (Decidable (∀ e ∈ s.waitingSenders.entries.head?, _))

instance [DecidableEq τ] (s : State τ α) (t : τ) (p : Point α) : Decidable (PassedLive s t p) :=
  match p with
  | .receiveCheckpoint i => inferInstanceAs (Decidable
      (s.loop.throws t = false → s.receiveClosed.getD i true = false → NextLive s))
  | .outside | .sendCheckpoint _ _ | .sendWait _ | .receiveWait _ => .isTrue trivial

instance [DecidableEq τ] (s : State τ α) (a : Action τ α) : Decidable (Live s a) :=
  match a with
  | .receiveNowait i =>
      inferInstanceAs (Decidable (s.receiveClosed.getD i true = false → NextLive s))
  | .resume t => inferInstanceAs (Decidable (PassedLive s t (s.loop.point t)))
  | .sendNowait _ _ | .send _ _ _ | .receive _ _ | .cloneSend _ | .cloneReceive _ | .closeSend _
  | .closeReceive _ | .interrupt _ | .setScope _ _ | .setCancelling _ _ => .isTrue trivial

/-- What the ledger says about a state: the item of a call was placed at most once, of a
sender in the queue not at all, and of a sender that is no longer there already. -/
structure Books (s : State τ α) (h : Ledger τ α) : Prop where
  numbered : ∀ n, n ∈ h.placed ∨ n ∈ h.returned ∨ n ∈ h.raised → n < h.calls
  sending : ∀ t, (s.loop.point t).isSend = true →
    h.call t < h.calls ∧ h.call t ∉ h.returned ∧ h.call t ∉ h.raised
  distinct : ∀ t u, (s.loop.point t).isSend = true → (s.loop.point u).isSend = true →
    h.call t = h.call u → t = u
  starting : ∀ t i x, s.loop.point t = .sendCheckpoint i x → h.call t ∉ h.placed
  queued : ∀ t f, s.loop.point t = .sendWait f → f ∈ s.waitingSenders.keys →
    h.waiting f = h.call t ∧ h.call t ∉ h.placed
  admitted : ∀ t f, s.loop.point t = .sendWait f → f ∉ s.waitingSenders.keys →
    s.loop.future f = .finished ∧ h.call t ∈ h.placed
  once : h.placed.Nodup
  raised : ∀ n ∈ h.raised, n ∉ h.placed
  returned : ∀ n ∈ h.returned, n ∈ h.placed
  buffer : h.buffer.map Prod.snd = s.buffer
  held : ∀ f, (h.held f).map Prod.snd = s.item f
  values : h.received.map Prod.snd = h.values
  known : ∀ e, e ∈ h.buffer ∨ (∃ f, h.held f = some e) ∨ e ∈ h.received → e.1 ∈ h.placed

/-- Call `n` has neither returned nor raised, and no suspended task makes it. -/
structure Pending (s : State τ α) (h : Ledger τ α) (n : Nat) : Prop where
  numbered : n < h.calls
  returned : n ∉ h.returned
  raised : n ∉ h.raised
  nobody : ∀ t, (s.loop.point t).isSend = true → h.call t ≠ n

section Books
variable {s s' m : State τ α} {h : Ledger τ α} {n : Nat} {x : α}

/-- Changes that the senders and the items do not see. -/
theorem Books.frame (books : Books s h)
    (hp : ∀ t p, p.isSend = true → (s'.loop.point t = p ↔ s.loop.point t = p))
    (hs : s'.waitingSenders = s.waitingSenders) (hb : s'.buffer = s.buffer)
    (hi : s'.item = s.item)
    (hf : ∀ t f, s.loop.point t = .sendWait f → s.loop.future f = .finished →
      s'.loop.future f = .finished) : Books s' h := by
  have hsend : ∀ t, (s'.loop.point t).isSend = true → (s.loop.point t).isSend = true :=
    fun t ht => by rwa [(hp t _ ht).mp rfl]
  constructor
  · exact books.numbered
  · exact fun t ht => books.sending t (hsend t ht)
  · exact fun t u ht hu => books.distinct t u (hsend t ht) (hsend u hu)
  · exact fun t i x ht => books.starting t i x ((hp t _ rfl).mp ht)
  · intro t f ht hkey
    exact books.queued t f ((hp t _ rfl).mp ht) (hs ▸ hkey)
  · intro t f ht hkey
    have hold := (hp t _ rfl).mp ht
    obtain ⟨hset, hin⟩ := books.admitted t f hold (hs ▸ hkey)
    exact ⟨hf t f hold hset, hin⟩
  · exact books.once
  · exact books.raised
  · exact books.returned
  · exact hb ▸ books.buffer
  · exact hi ▸ books.held
  · exact books.values
  · exact books.known

/-- The call raises, and its item was not placed. -/
theorem Books.raise (books : Books s h) (pending : Pending s h n) (hnot : n ∉ h.placed) :
    Books s { h with raised := h.raised ++ [n] } := by
  constructor
  · intro k hk
    simp only [List.mem_append, List.mem_singleton] at hk
    rcases hk with hk | hk | hk | rfl
    · exact books.numbered k (.inl hk)
    · exact books.numbered k (.inr (.inl hk))
    · exact books.numbered k (.inr (.inr hk))
    · exact pending.numbered
  · intro t ht
    obtain ⟨hlt, hret, hraise⟩ := books.sending t ht
    exact ⟨hlt, hret, by simp [hraise, pending.nobody t ht]⟩
  · exact books.distinct
  · exact books.starting
  · exact books.queued
  · exact books.admitted
  · exact books.once
  · intro k hk
    rcases List.mem_append.mp hk with hk | hk
    · exact books.raised k hk
    · exact List.mem_singleton.mp hk ▸ hnot
  · exact books.returned
  · exact books.buffer
  · exact books.held
  · exact books.values
  · exact books.known

/-- The call returns, and its item was placed. -/
theorem Books.return (books : Books s h) (pending : Pending s h n) (hin : n ∈ h.placed) :
    Books s { h with returned := h.returned ++ [n] } := by
  constructor
  · intro k hk
    simp only [List.mem_append, List.mem_singleton] at hk
    rcases hk with hk | (hk | rfl) | hk
    · exact books.numbered k (.inl hk)
    · exact books.numbered k (.inr (.inl hk))
    · exact pending.numbered
    · exact books.numbered k (.inr (.inr hk))
  · intro t ht
    obtain ⟨hlt, hret, hraise⟩ := books.sending t ht
    exact ⟨hlt, by simp [hret, pending.nobody t ht], hraise⟩
  · exact books.distinct
  · exact books.starting
  · exact books.queued
  · exact books.admitted
  · exact books.once
  · exact books.raised
  · intro k hk
    rcases List.mem_append.mp hk with hk | hk
    · exact books.returned k hk
    · exact List.mem_singleton.mp hk ▸ hin
  · exact books.buffer
  · exact books.held
  · exact books.values
  · exact books.known

/-- The item of a call is placed. -/
structure Places (s : State τ α) (h : Ledger τ α) (n : Nat) : Prop extends Pending s h n where
  notYet : n ∉ h.placed

/-- A call in which nothing was placed yet puts its item into the stream: what the ledger
says about the other calls stays. -/
theorem Books.placed (books : Books s h) (places : Places s h n) {buffer : List (Nat × α)}
    {held : FutureId → Option (Nat × α)} (hp : ∀ t, s'.loop.point t = s.loop.point t)
    (hf : ∀ f, s.loop.future f = .finished → s'.loop.future f = .finished)
    (hs : s'.waitingSenders = s.waitingSenders) (hb : buffer.map Prod.snd = s'.buffer)
    (hi : ∀ f, (held f).map Prod.snd = s'.item f)
    (hknown : ∀ e, e ∈ buffer ∨ (∃ f, held f = some e) →
      e.1 = n ∨ e ∈ h.buffer ∨ ∃ f, h.held f = some e) :
    Books s' { h with buffer := buffer, held := held, placed := h.placed ++ [n] } := by
  constructor
  · intro j hj
    simp only [List.mem_append, List.mem_singleton] at hj
    rcases hj with (hj | rfl) | hj
    · exact books.numbered j (.inl hj)
    · exact places.numbered
    · exact books.numbered j (.inr hj)
  · exact fun t ht => books.sending t (hp t ▸ ht)
  · exact fun t u ht hu => books.distinct t u (hp t ▸ ht) (hp u ▸ hu)
  · intro t i x ht
    rw [hp t] at ht
    simp [books.starting t i x ht, places.nobody t (by simp [ht, Point.isSend])]
  · intro t f ht hkey
    rw [hp t] at ht
    obtain ⟨hw, hnot⟩ := books.queued t f ht (hs ▸ hkey)
    exact ⟨hw, by simp [hnot, places.nobody t (by simp [ht, Point.isSend])]⟩
  · intro t f ht hkey
    rw [hp t] at ht
    obtain ⟨hset, hin⟩ := books.admitted t f ht (hs ▸ hkey)
    exact ⟨hf f hset, List.mem_append_left _ hin⟩
  · exact books.once.append (List.nodup_singleton n) (by simpa using places.notYet)
  · intro j hj
    have hne : j ≠ n := fun heq => places.raised (heq ▸ hj)
    simp [books.raised j hj, hne]
  · exact fun j hj => List.mem_append_left _ (books.returned j hj)
  · exact hb
  · exact hi
  · exact books.values
  · intro e he
    rw [List.mem_append, List.mem_singleton]
    rcases or_assoc.mpr he with he | he
    · rcases hknown e he with heq | hold | hold
      · exact .inr heq
      · exact .inl (books.known e (.inl hold))
      · exact .inl (books.known e (.inr (.inl hold)))
    · exact .inl (books.known e (.inr (.inr he)))

/-- The oldest item of the buffer is taken. -/
theorem Books.takeHead (books : Books s h) {rest : List α} (hbuf : s.buffer = x :: rest) :
    ∃ e tail, h.buffer = e :: tail ∧ Books { s with buffer := rest }
      { h with buffer := tail, received := h.received ++ [e], values := h.values ++ [x] } := by
  have hmap := books.buffer
  rw [hbuf] at hmap
  obtain ⟨e, tail, htail, hx, hrest⟩ := List.map_eq_cons_iff.mp hmap
  refine ⟨e, tail, htail, books.numbered, books.sending, books.distinct, books.starting,
    books.queued, books.admitted, books.once, books.raised, books.returned, hrest, books.held,
    ?_, ?_⟩
  · simp [books.values, hx]
  · have hold : ∀ d, d ∈ e :: tail → d.1 ∈ h.placed := fun d hd =>
      books.known d (.inl (htail ▸ hd))
    rintro d (hd | hd | hd)
    · exact hold d (List.mem_cons_of_mem _ hd)
    · exact books.known d (.inr (.inl hd))
    · rcases List.mem_append.mp hd with hd | hd
      · exact books.known d (.inr (.inr hd))
      · exact hold d (List.mem_singleton.mp hd ▸ List.mem_cons_self)

/-- The item of a sender that waits on a pending event goes into the buffer. -/
theorem Books.admitSender (books : Books s h) {t : τ} {event : FutureId}
    {others : OrderedDict FutureId α} (next : s.waitingSenders.popItem = some ((event, x), others))
    (ht : s.loop.point t = .sendWait event) (hpending : s.loop.future event = .pending) :
    Books { s with
      buffer := s.buffer ++ [x]
      waitingSenders := others
      loop := s.loop.setEvent event } (h.acceptHead s) := by
  have hentries := OrderedDict.popItem_eq_some next
  have hkey : event ∈ s.waitingSenders.keys :=
    OrderedDict.mem_keys.mpr ⟨x, hentries ▸ List.mem_cons_self⟩
  obtain ⟨hwaiting, hnot⟩ := books.queued t event ht hkey
  have hsend : (s.loop.point t).isSend = true := by simp [ht, Point.isSend]
  obtain ⟨hlt, hret, hraise⟩ := books.sending t hsend
  have hkeys : ∀ f, f ∈ s.waitingSenders.keys ↔ f = event ∨ f ∈ others.keys := by
    intro f
    simp [OrderedDict.keys, hentries]
  have hother : ∀ u, (s.loop.point u).isSend = true → h.call u = h.call t → u = t :=
    fun u hu => books.distinct u t hu hsend
  have haccept : h.acceptHead s = { h with
      buffer := h.buffer ++ [(h.call t, x)]
      placed := h.placed ++ [h.call t] } := by
    simp only [Ledger.acceptHead, next, hwaiting]
  rw [haccept]
  constructor
  · intro j hj
    simp only [List.mem_append, List.mem_singleton] at hj
    rcases hj with (hj | rfl) | hj
    · exact books.numbered j (.inl hj)
    · exact hlt
    · exact books.numbered j (.inr hj)
  · exact fun u hu => books.sending u (by simpa using hu)
  · exact fun u v hu hv => books.distinct u v (by simpa using hu) (by simpa using hv)
  · intro u i y hu
    have hu' : s.loop.point u = .sendCheckpoint i y := by simpa using hu
    have hne : h.call u ≠ h.call t := by
      intro heq
      obtain rfl := hother u (by simp [hu', Point.isSend]) heq
      simp [ht] at hu'
    simp [books.starting u i y hu', hne]
  · intro u f hu hin
    have hu' : s.loop.point u = .sendWait f := by simpa using hu
    obtain ⟨hw, hfresh⟩ := books.queued u f hu' ((hkeys f).mpr (.inr hin))
    have hne : h.call u ≠ h.call t := by
      intro heq
      obtain rfl := hother u (by simp [hu', Point.isSend]) heq
      obtain rfl := Point.sendWait.inj (ht.symm.trans hu')
      obtain ⟨z, hz⟩ := OrderedDict.mem_keys.mp hin
      exact OrderedDict.popItem_not_mem next z hz
    exact ⟨hw, by simp [hfresh, hne]⟩
  · intro u f hu hout
    have hu' : s.loop.point u = .sendWait f := by simpa using hu
    by_cases hf : f = event
    · subst hf
      have hut : u = t := by
        apply hother u (by simp [hu', Point.isSend])
        exact (books.queued u f hu' hkey).1.symm.trans hwaiting
      rw [hut]
      exact ⟨by simp [Loop.setEvent_future, hpending], by simp⟩
    · have hold : f ∉ s.waitingSenders.keys := fun hin => (((hkeys f).mp hin).elim hf hout)
      obtain ⟨hset, hin⟩ := books.admitted u f hu' hold
      exact ⟨by simp [Loop.setEvent_future, hf, hset], List.mem_append_left _ hin⟩
  · exact books.once.append (List.nodup_singleton _) (by simpa using hnot)
  · intro j hj
    have hne : j ≠ h.call t := fun heq => hraise (heq ▸ hj)
    simp [books.raised j hj, hne]
  · exact fun j hj => List.mem_append_left _ (books.returned j hj)
  · simp [books.buffer]
  · exact books.held
  · exact books.values
  · intro e he
    simp only [List.mem_append, List.mem_singleton] at he ⊢
    rcases he with (he | rfl) | he
    · exact .inl (books.known e (.inl he))
    · exact .inr rfl
    · exact .inl (books.known e (.inr he))

/-- An item that was handed to a receiver is returned by it. -/
theorem Books.give (books : Books s h) {event : FutureId} (hitem : s.item event = some x) :
    Books s { h with
      received := h.received ++ (h.held event).toList
      values := h.values ++ [x] } := by
  have hheld := books.held event
  rw [hitem] at hheld
  obtain ⟨e, he, hx⟩ := Option.map_eq_some_iff.mp hheld
  refine ⟨books.numbered, books.sending, books.distinct, books.starting, books.queued,
    books.admitted, books.once, books.raised, books.returned, books.buffer, books.held, ?_, ?_⟩
  · simp [books.values, he, hx]
  · rintro d (hd | hd | hd)
    · exact books.known d (.inl hd)
    · exact books.known d (.inr (.inl hd))
    · simp only [he, Option.toList_some, List.mem_append, List.mem_singleton] at hd
      rcases hd with hd | rfl
      · exact books.known d (.inr (.inr hd))
      · exact books.known d (.inr (.inl ⟨event, he⟩))

/-- A new receiver holds nothing. -/
theorem Books.prepare (books : Books s h) (event : FutureId) :
    Books { s with item := Function.update s.item event none }
      { h with held := Function.update h.held event none } := by
  refine ⟨books.numbered, books.sending, books.distinct, books.starting, books.queued,
    books.admitted, books.once, books.raised, books.returned, books.buffer, ?_, books.values, ?_⟩
  · intro f
    by_cases hf : f = event
    · simp [hf]
    · simp [hf, books.held f]
  · rintro d (hd | ⟨f, hf⟩ | hd)
    · exact books.known d (.inl hd)
    · by_cases hne : f = event
      · simp [hne] at hf
      · exact books.known d (.inr (.inl ⟨f, by simpa [hne] using hf⟩))
    · exact books.known d (.inr (.inr hd))

variable [DecidableEq τ] {a : Action τ α} {o : Outcome (Point α) (Value α)} {t : τ} {i : Nat}

/-- A task leaves its wait with its entry, or without one. -/
theorem Books.leave (books : Books s h) (hl : s'.loop = s.loop.resumeAt t .outside)
    (hs : ∀ f, s.loop.point t ≠ .sendWait f →
      (f ∈ s'.waitingSenders.keys ↔ f ∈ s.waitingSenders.keys))
    (hb : s'.buffer = s.buffer) (hi : s'.item = s.item) (inv : Inv s) : Books s' h := by
  have hw : ∀ {u p}, s'.loop.point u = p → p ≠ .outside → u ≠ t ∧ s.loop.point u = p := by
    intro u p hu hp
    rw [hl, Loop.resumeAt_point] at hu
    split_ifs at hu with hut
    · exact absurd hu.symm hp
    · exact ⟨hut, hu⟩
  have hsend : ∀ u, (s'.loop.point u).isSend = true → (s.loop.point u).isSend = true := by
    intro u hu
    rwa [(hw rfl (by intro heq; simp [heq, Point.isSend] at hu)).2]
  have hkey : ∀ {u f}, s'.loop.point u = .sendWait f →
      s.loop.point u = .sendWait f ∧ (f ∈ s'.waitingSenders.keys ↔ f ∈ s.waitingSenders.keys) := by
    intro u f hu
    obtain ⟨hut, hold⟩ := hw hu (by simp)
    refine ⟨hold, hs f fun ht => hut ?_⟩
    exact inv.tidy.owned.injective u t f (waits_sendWait hold) (waits_sendWait ht)
  constructor
  · exact books.numbered
  · exact fun u hu => books.sending u (hsend u hu)
  · exact fun u v hu hv => books.distinct u v (hsend u hu) (hsend v hv)
  · exact fun u i y hu => books.starting u i y (hw hu (by simp)).2
  · intro u f hu hin
    obtain ⟨hold, hiff⟩ := hkey hu
    exact books.queued u f hold (hiff.mp hin)
  · intro u f hu hout
    obtain ⟨hold, hiff⟩ := hkey hu
    obtain ⟨hset, hplaced⟩ := books.admitted u f hold (fun hin => hout (hiff.mpr hin))
    exact ⟨by simpa [hl] using hset, hplaced⟩
  · exact books.once
  · exact books.raised
  · exact books.returned
  · exact hb ▸ books.buffer
  · exact hi ▸ books.held
  · exact books.values
  · exact books.known

/-- The call of a task that has left `send()` is still to end. -/
theorem Books.pending (books : Books s h) (hsend : (s.loop.point t).isSend = true)
    (hp : ∀ u, s'.loop.point u = if u = t then .outside else s.loop.point u) :
    Pending s' h (h.call t) := by
  obtain ⟨hlt, hret, hraise⟩ := books.sending t hsend
  refine ⟨hlt, hret, hraise, fun u hu heq => ?_⟩
  rw [hp u] at hu
  split_ifs at hu with hut
  · simp [Point.isSend] at hu
  · exact hut (books.distinct u t hu hsend heq)

/-- A new call of `send()`. -/
theorem Books.start (books : Books s h) (hfrom : s.loop.point t = .outside) :
    Books { s with loop := s.loop.moveTo t (.sendCheckpoint i x) } (h.start t) := by
  have hold : ∀ {u p}, u ≠ t → (s.loop.moveTo t (.sendCheckpoint i x)).point u = p →
      s.loop.point u = p := by
    intro u p hut hu
    simpa [hut] using hu
  have hnew : h.calls ∉ h.placed ∧ h.calls ∉ h.returned ∧ h.calls ∉ h.raised := by
    refine ⟨fun hin => ?_, fun hin => ?_, fun hin => ?_⟩
    · exact absurd (books.numbered _ (.inl hin)) (lt_irrefl _)
    · exact absurd (books.numbered _ (.inr (.inl hin))) (lt_irrefl _)
    · exact absurd (books.numbered _ (.inr (.inr hin))) (lt_irrefl _)
  constructor
  · exact fun n hn => Nat.lt_succ_of_lt (books.numbered n hn)
  · intro u hu
    by_cases hut : u = t
    · simp only [Ledger.start, hut, Function.update_self]
      exact ⟨Nat.lt_succ_self _, hnew.2⟩
    · obtain ⟨hlt, hout⟩ := books.sending u (by simpa [hut] using hu)
      simp only [Ledger.start, Function.update_of_ne hut]
      exact ⟨Nat.lt_succ_of_lt hlt, hout⟩
  · intro u v hu hv heq
    have hne : ∀ {w}, w ≠ t → ((s.loop.moveTo t (.sendCheckpoint i x)).point w).isSend = true →
        h.call w ≠ h.calls := by
      intro w hwt hw
      exact (books.sending w (by simpa [hwt] using hw)).1.ne
    by_cases hut : u = t <;> by_cases hvt : v = t
    · rw [hut, hvt]
    · simp only [Ledger.start, hut, Function.update_self, Function.update_of_ne hvt] at heq
      exact absurd heq.symm (hne hvt hv)
    · simp only [Ledger.start, hvt, Function.update_self, Function.update_of_ne hut] at heq
      exact absurd heq (hne hut hu)
    · simp only [Ledger.start, Function.update_of_ne hut, Function.update_of_ne hvt] at heq
      exact books.distinct u v (by simpa [hut] using hu) (by simpa [hvt] using hv) heq
  · intro u j y hu
    by_cases hut : u = t
    · simpa only [Ledger.start, hut, Function.update_self] using hnew.1
    · simpa only [Ledger.start, Function.update_of_ne hut] using
        books.starting u j y (hold hut hu)
  · intro u f hu hin
    have hut : u ≠ t := by
      rintro rfl
      simp at hu
    simpa only [Ledger.start, Function.update_of_ne hut] using books.queued u f (hold hut hu) hin
  · intro u f hu hout
    have hut : u ≠ t := by
      rintro rfl
      simp at hu
    simp only [Ledger.start, Function.update_of_ne hut]
    exact books.admitted u f (hold hut hu) hout
  · exact books.once
  · exact books.raised
  · exact books.returned
  · exact books.buffer
  · exact books.held
  · exact books.values
  · exact books.known

/-- A sender queues up with a new event. -/
theorem Books.queue (books : Books s h) (inv : Inv s) (hfrom : s.loop.point t = .outside)
    (places : Places s h (h.call t)) :
    Books { s with
      waitingSenders := s.waitingSenders.assign s.loop.nextFuture x
      loop := s.loop.createFuture.moveTo t (.sendWait s.loop.nextFuture) }
      { h with waiting := Function.update h.waiting s.loop.nextFuture (h.call t) } := by
  have hpoint : ∀ u, (s.loop.createFuture.moveTo t (.sendWait s.loop.nextFuture)).point u =
      if u = t then .sendWait s.loop.nextFuture else s.loop.point u := by simp
  have hsend : ∀ u, u ≠ t →
      ((s.loop.createFuture.moveTo t (.sendWait s.loop.nextFuture)).point u).isSend = true →
      (s.loop.point u).isSend = true := by
    intro u hut hu
    simpa [hut] using hu
  -- the events of the other senders are older than the new one
  have hother : ∀ u f, u ≠ t →
      (s.loop.createFuture.moveTo t (.sendWait s.loop.nextFuture)).point u = .sendWait f →
      s.loop.point u = .sendWait f ∧ f ≠ s.loop.nextFuture := by
    intro u f hut hu
    have hold : s.loop.point u = .sendWait f := by simpa [hut] using hu
    exact ⟨hold, (inv.tidy.owned.created u f (waits_sendWait hold)).ne⟩
  have hkeys : ∀ f, f ≠ s.loop.nextFuture →
      (f ∈ (s.waitingSenders.assign s.loop.nextFuture x).keys ↔ f ∈ s.waitingSenders.keys) := by
    intro f hf
    simp only [OrderedDict.mem_keys, OrderedDict.mem_assign, Prod.mk.injEq]
    constructor
    · rintro ⟨y, ⟨heq, -⟩ | ⟨hy, -⟩⟩
      · exact absurd heq hf
      · exact ⟨y, hy⟩
    · rintro ⟨y, hy⟩
      exact ⟨y, .inr ⟨hy, hf⟩⟩
  have hself : ∀ f, (s.loop.createFuture.moveTo t (.sendWait s.loop.nextFuture)).point t =
      .sendWait f → f = s.loop.nextFuture := by
    intro f hf
    simpa [eq_comm] using hf
  have hin : s.loop.nextFuture ∈ (s.waitingSenders.assign s.loop.nextFuture x).keys :=
    OrderedDict.mem_keys.mpr ⟨x, OrderedDict.mem_assign.mpr (.inl rfl)⟩
  constructor
  · exact books.numbered
  · intro u hu
    by_cases hut : u = t
    · rw [hut]
      exact ⟨places.numbered, places.returned, places.raised⟩
    · exact books.sending u (hsend u hut hu)
  · intro u v hu hv heq
    by_cases hut : u = t <;> by_cases hvt : v = t
    · rw [hut, hvt]
    · exact absurd (hut ▸ heq).symm (places.nobody v (hsend v hvt hv))
    · exact absurd (hvt ▸ heq) (places.nobody u (hsend u hut hu))
    · exact books.distinct u v (hsend u hut hu) (hsend v hvt hv) heq
  · intro u i y hu
    have hut : u ≠ t := by
      rintro rfl
      simp at hu
    exact books.starting u i y (by simpa [hut] using hu)
  · intro u f hu hkey
    by_cases hut : u = t
    · subst hut
      obtain rfl := hself f hu
      exact ⟨by simp, places.notYet⟩
    · obtain ⟨hold, hne⟩ := hother u f hut hu
      simp only [Function.update_of_ne hne]
      exact books.queued u f hold ((hkeys f hne).mp hkey)
  · intro u f hu hkey
    by_cases hut : u = t
    · subst hut
      obtain rfl := hself f hu
      exact absurd hin hkey
    · obtain ⟨hold, hne⟩ := hother u f hut hu
      obtain ⟨hset, hplaced⟩ := books.admitted u f hold (fun h => hkey ((hkeys f hne).mpr h))
      exact ⟨by simpa [hne] using hset, hplaced⟩
  · exact books.once
  · exact books.raised
  · exact books.returned
  · exact books.buffer
  · exact books.held
  · exact books.values
  · exact books.known

/-- A task passes the checkpoint of `send()`. -/
theorem Books.passed (books : Books s h) (inv : Inv s) (hp : s.loop.point t = .sendCheckpoint i x) :
    Books (wake s t) h ∧ Places (wake s t) h (h.call t) := by
  refine ⟨books.leave (t := t) rfl (fun f _ => Iff.rfl) rfl rfl inv, ?_, books.starting t i x hp⟩
  exact books.pending (by simp [hp, Point.isSend]) (by simp [wake])

/-- A call of `send_nowait()` is a new call, or that of a task that just passed its checkpoint. -/
theorem SendsFrom.places (call : SendsFrom s a i x m) (books : Books s h) (inv : Inv s) :
    ∃ k n, Books m k ∧ Places m k n ∧ ∀ o, h.record s a o = k.sent m n x o := by
  cases call with
  | nowait =>
      have hnew : ∀ {l : List Nat}, (∀ n ∈ l, n < h.calls) → h.calls ∉ l :=
        fun hl hin => absurd (hl _ hin) (lt_irrefl _)
      refine ⟨{ h with calls := h.calls + 1 }, h.calls, ?_, ?_, fun o => rfl⟩
      · exact ⟨fun n hn => Nat.lt_succ_of_lt (books.numbered n hn),
          fun t ht => ⟨Nat.lt_succ_of_lt (books.sending t ht).1, (books.sending t ht).2⟩,
          books.distinct, books.starting, books.queued, books.admitted, books.once, books.raised,
          books.returned, books.buffer, books.held, books.values, books.known⟩
      · refine ⟨⟨Nat.lt_succ_self _, ?_, ?_, fun t ht => (books.sending t ht).1.ne⟩, ?_⟩
        · exact hnew fun n hn => books.numbered n (.inr (.inl hn))
        · exact hnew fun n hn => books.numbered n (.inr (.inr hn))
        · exact hnew fun n hn => books.numbered n (.inl hn)
  | @woken t i x hp hthrow =>
      obtain ⟨bm, places⟩ := books.passed inv hp
      refine ⟨h, h.call t, bm, places, fun o => ?_⟩
      simp only [Ledger.record, Ledger.recordWake, hp]

theorem ReceivesFrom.books (call : ReceivesFrom s a i m) (books : Books s h) (inv : Inv s) :
    Books m h ∧ ∀ o, h.record s a o = h.took m o := by
  cases call with
  | nowait => exact ⟨books, fun o => rfl⟩
  | @woken t i hp =>
      refine ⟨books.leave (t := t) rfl (fun f _ => Iff.rfl) rfl rfl inv, fun o => ?_⟩
      simp only [Ledger.record, Ledger.recordWake, hp]

end Books

section Step
variable [DecidableEq τ] {s s' m : State τ α} {h : Ledger τ α} {a : Action τ α}
  {o : Outcome (Point α) (Value α)} {t : τ} {i : Nat}

/-- What the condition says about a call of `receive_nowait()`. -/
theorem ReceivesFrom.live_iff (call : ReceivesFrom s a i m) :
    Live s a ↔ (s.receiveClosed.getD i true = false → NextLive s) := by
  cases call with
  | nowait => exact Iff.rfl
  | woken hp hthrow =>
      simp only [Live, PassedLive, hp]
      exact ⟨fun live => live hthrow, fun live _ => live⟩

omit [DecidableEq τ] in
/-- The event of the next sender is pending if it was not cancelled. -/
theorem Represented.next_pending (rep : Represented s) (live : NextLive s)
    (hopen : s.receiveClosed.getD i true = false) {event : FutureId} {x : α}
    {others : OrderedDict FutureId α}
    (next : s.waitingSenders.popItem = some ((event, x), others)) :
    ∃ u, s.loop.point u = .sendWait event ∧ s.loop.future event = .pending := by
  have hentries := OrderedDict.popItem_eq_some next
  have hmem : (event, x) ∈ s.waitingSenders.entries := hentries ▸ List.mem_cons_self
  obtain ⟨u, hu⟩ := rep.terminal.owners _ hmem
  refine ⟨u, hu, ?_⟩
  cases hf : s.loop.future event with
  | pending => rfl
  | cancelled =>
      have hlive := live (event, x) (by simp [hentries])
      exact absurd hf hlive
  | finished =>
      -- its event is set only by the last `close()` of the receiving end
      have hzero := rep.terminal.broken u event ⟨hu, hf, OrderedDict.mem_keys.mpr ⟨x, hmem⟩⟩
      rw [rep.counts.receives] at hzero
      exact absurd hzero (count_ne_zero_of_open hopen)

omit [DecidableEq τ] in
theorem Books.closeSend (books : Books s h) (i : Nat) : Books (closeSend s i) h := by
  unfold MemoryStream.closeSend
  split_ifs
  · exact books
  · simp only
    split_ifs
    · exact books.frame (by simp) rfl rfl rfl fun _ _ _ hf => setEvents_finished _ _ hf
    · exact books.frame (fun _ _ _ => Iff.rfl) rfl rfl rfl fun _ _ _ => id

omit [DecidableEq τ] in
theorem Books.closeReceive (books : Books s h) (i : Nat) : Books (closeReceive s i) h := by
  unfold MemoryStream.closeReceive
  split_ifs
  · exact books
  · simp only
    split_ifs
    · exact books.frame (by simp) rfl rfl rfl fun _ _ _ hf => setEvents_finished _ _ hf
    · exact books.frame (fun _ _ _ => Iff.rfl) rfl rfl rfl fun _ _ _ => id

theorem Books.step (books : Books s h) (rep : Represented s) (change : Change s a s' o)
    (live : Live s a) : Books s' (h.record s a o) := by
  have inv := rep.inv
  cases change with
  | @started t p a hfrom ha =>
      rcases ha with ⟨i, x, rfl, rfl⟩ | ⟨i, rfl, rfl⟩
      · exact books.start hfrom
      · refine books.frame (fun u q hq => ?_) rfl rfl rfl fun _ _ _ => id
        by_cases hut : u = t
        · subst hut
          have hne : ∀ r : Point α, r.isSend = false → r ≠ q := by
            rintro r hr rfl
            rw [hq] at hr
            cases hr
          simp [hfrom, hne .outside rfl, hne (.receiveCheckpoint i) rfl]
        · simp [hut]
  | sendRefused call =>
      obtain ⟨k, n, bm, places, hrec⟩ := call.places books inv
      rw [hrec]
      exact bm.raise places.toPending places.notYet
  | @handed a i x m event u rest call _ next =>
      obtain ⟨k, n, bm, places, hrec⟩ := call.places books inv
      rw [hrec]
      have hheld : ∀ f, (Function.update k.held event (some (n, x)) f).map Prod.snd =
          Function.update m.item event (some x) f := by
        intro f
        by_cases hf : f = event
        · simp [hf]
        · simp [hf, bm.held f]
      have bplaced : Books { m with
          waitingReceivers := rest
          item := Function.update m.item event (some x)
          loop := m.loop.setEvent event } { k with
            held := Function.update k.held event (some (n, x))
            placed := k.placed ++ [n] } := by
        refine bm.placed places (by simp) (fun f hf => ?_) rfl bm.buffer hheld fun e he => ?_
        · simp only [Loop.setEvent_future, hf, ite_self]
        · rcases he with he | ⟨f, hf⟩
          · exact .inr (.inl he)
          · by_cases hne : f = event
            · simp only [hne, Function.update_self, Option.some.injEq] at hf
              exact .inl (by rw [← hf])
            · exact .inr (.inr ⟨f, by simpa [hne] using hf⟩)
      simp only [Ledger.sent, Ledger.place, next]
      refine bplaced.return ?_ (by simp)
      exact ⟨places.numbered, places.returned, places.raised,
        fun t ht => places.nobody t (by simpa using ht)⟩
  | @buffered a i x m call _ nobody =>
      obtain ⟨k, n, bm, places, hrec⟩ := call.places books inv
      rw [hrec]
      have bplaced : Books { m with
          waitingReceivers := nextReceivers m
          buffer := m.buffer ++ [x] } { k with
            buffer := k.buffer ++ [(n, x)]
            placed := k.placed ++ [n] } := by
        refine bm.placed places (fun _ => rfl) (fun f => id) rfl (by simp [bm.buffer]) bm.held
          fun e he => ?_
        rcases he with he | he
        · rcases List.mem_append.mp he with he | he
          · exact .inr (.inl he)
          · exact .inl (by rw [List.mem_singleton.mp he])
        · exact .inr (.inr he)
      simp only [Ledger.sent, Ledger.place, nobody]
      refine bplaced.return ?_ (by simp)
      exact ⟨places.numbered, places.returned, places.raised, places.nobody⟩
  | @blocked i x =>
      have call : SendsFrom s (.sendNowait i x) i x s := .nowait
      obtain ⟨k, n, bm, places, hrec⟩ := call.places books inv
      rw [hrec]
      exact (bm.raise places.toPending places.notYet).frame (fun _ _ _ => Iff.rfl) rfl rfl rfl
        fun _ _ _ => id
  | @queued t i x hp =>
      obtain ⟨bm, places⟩ := books.passed inv hp
      have hwake : Inv (wake s t) := wake_inv inv (by simp [hp, Point.isCheckpoint])
      simp only [Ledger.record, Ledger.recordWake, hp]
      exact (bm.queue (x := x) hwake (by simp [wake]) places).frame (fun _ _ _ => Iff.rfl) rfl rfl
        rfl fun _ _ _ => id
  | receiveRefused call =>
      obtain ⟨bm, hrec⟩ := call.books books inv
      rw [hrec]
      exact bm
  | @head a i m x rest call hbuf clear =>
      obtain ⟨bm, hrec⟩ := call.books books inv
      have hm := call.sameWaits.streams
      have hmbuf : m.buffer = x :: rest := by
        rw [hm]
        exact hbuf
      have hnone : m.waitingSenders.popItem = none := by
        rw [hm]
        exact OrderedDict.popItem_eq_none.mpr clear
      obtain ⟨e, tail, htail, btaken⟩ := bm.takeHead hmbuf
      rw [hrec]
      simp only [Ledger.took, Ledger.acceptHead, hnone, htail]
      exact btaken
  | @admitted a i m x y event others rest call hopen next _ hbuf =>
      obtain ⟨bm, hrec⟩ := call.books books inv
      have hm := call.sameWaits.streams
      obtain ⟨u, hu, hpending⟩ := rep.next_pending (call.live_iff.mp live hopen) hopen next
      have hmbuf : m.buffer ++ [y] = x :: rest := by
        rw [hm]
        exact hbuf
      have hnext : m.waitingSenders.popItem = some ((event, y), others) := by
        rw [hm]
        exact next
      have badmitted := bm.admitSender hnext ((call.sameWaits.sending u event).mpr hu)
        (call.sameWaits.future ▸ hpending)
      obtain ⟨e, tail, htail, btaken⟩ := badmitted.takeHead hmbuf
      have hkept : (h.acceptHead m).received = h.received ∧ (h.acceptHead m).values = h.values := by
        simp only [Ledger.acceptHead, hnext, and_self]
      rw [hrec]
      simp only [Ledger.took, htail, ← hkept.1, ← hkept.2]
      exact btaken
  | empty => exact books
  | @joined t i hp =>
      have bm : Books (wake s t) h := books.leave rfl (fun f _ => Iff.rfl) rfl rfl inv
      simp only [Ledger.record, Ledger.recordWake, hp, Ledger.took]
      refine (bm.prepare s.loop.nextFuture).frame (fun u p hsend => ?_) rfl rfl rfl
        fun u f hu hf => ?_
      · by_cases hut : u = t
        · subst hut
          have hne : ∀ r : Point α, r.isSend = false → r ≠ p := by
            rintro r hr rfl
            rw [hsend] at hr
            cases hr
          simp [wake, hne .outside rfl, hne (.receiveWait s.loop.nextFuture) rfl]
        · simp [hut]
      · have hold := ((sameWaits_wake (by simp [hp, Point.isCheckpoint])).sending u f).mp hu
        have hne := (inv.tidy.owned.created u f (waits_sendWait hold)).ne
        simpa [wake, hne] using hf
  | @interruptedEarly t hp =>
      have bm : Books (wake s t) h := books.leave rfl (fun f _ => Iff.rfl) rfl rfl inv
      cases hpt : s.loop.point t with
      | sendCheckpoint i x =>
          obtain ⟨bm, places⟩ := books.passed inv hpt
          simp only [Ledger.record, Ledger.recordWake, hpt]
          exact bm.raise places.toPending places.notYet
      | receiveCheckpoint i =>
          simp only [Ledger.record, Ledger.recordWake, hpt]
          exact bm
      | _ => simp [hpt, Point.isCheckpoint] at hp
  | @senderRaised t event e hp he =>
      have hsend : (s.loop.point t).isSend = true := by simp [hp, Point.isSend]
      have bm : Books { wake s t with waitingSenders := s.waitingSenders.pop event } h := by
        refine books.leave (t := t) rfl (fun f hf => ?_) rfl rfl inv
        have hne : f ≠ event := fun heq => hf (heq ▸ hp)
        simp [OrderedDict.mem_keys, hne]
      -- its entry was in the queue until now
      have hkey : event ∈ s.waitingSenders.keys := by
        by_contra hout
        obtain ⟨hset, -⟩ := books.admitted t event hp hout
        rcases he with ⟨-, hcancelled⟩ | ⟨-, -, hin⟩
        · rw [hset] at hcancelled
          cases hcancelled
        · exact hout hin
      simp only [Ledger.record, Ledger.recordWake, hp]
      exact bm.raise (books.pending hsend (by simp [wake])) (books.queued t event hp hkey).2
  | @senderDone t event hp _ gone =>
      have hsend : (s.loop.point t).isSend = true := by simp [hp, Point.isSend]
      have bm : Books (wake s t) h := books.leave rfl (fun f _ => Iff.rfl) rfl rfl inv
      simp only [Ledger.record, Ledger.recordWake, hp]
      exact bm.return (books.pending hsend (by simp [wake])) (books.admitted t event hp gone).2
  | @receiverRaised t event e hp =>
      simp only [Ledger.record, Ledger.recordWake, hp]
      exact books.leave (t := t) rfl (fun f _ => Iff.rfl) rfl rfl inv
  | @receiverDone t event x hp _ item =>
      have bm : Books { wake s t with waitingReceivers := s.waitingReceivers.pop event } h :=
        books.leave (t := t) rfl (fun f _ => Iff.rfl) rfl rfl inv
      simp only [Ledger.record, Ledger.recordWake, hp]
      exact bm.give item
  | cloneRefused ha => rcases ha with ⟨i, rfl⟩ | ⟨i, rfl⟩ <;> exact books
  | closedSend => exact books.closeSend _
  | closedReceive => exact books.closeReceive _
  | @interrupted t =>
      refine books.frame (by simp) rfl rfl rfl fun _ f _ hf => ?_
      rw [Loop.cancel_future_of_done (by simp [hf])]
      exact hf
  | countSet => exact books.frame (by simp) rfl rfl rfl fun _ _ _ => id
  | clonedSend => exact books.frame (fun _ _ _ => Iff.rfl) rfl rfl rfl fun _ _ _ => id
  | clonedReceive => exact books.frame (fun _ _ _ => Iff.rfl) rfl rfl rfl fun _ _ _ => id
  | scopeSet => exact books.frame (fun _ _ _ => Iff.rfl) rfl rfl rfl fun _ _ _ => id

/-- The condition says nothing about a call of `send_nowait()`. -/
theorem SendsFrom.live {x : α} (call : SendsFrom s a i x m) : Live s a := by
  cases call with
  | nowait => trivial
  | woken hp => simp [Live, PassedLive, hp]

/-- A cancelled sender goes on to raise. -/
theorem step_of_cancelled {event : FutureId} (hp : s.loop.point t = .sendWait event)
    (hf : s.loop.future event = .cancelled) :
    step s (.resume t) = some ({ wake s t with waitingSenders := s.waitingSenders.pop event },
      .raised .cancelledError) := by
  have hw := waits_sendWait hp
  simp [MemoryStream.step, MemoryStream.resume, Loop.wakeUpQueued, Loop.throws, hw, hp, hf]

/-- A step that does not meet the condition takes the item of a sender that is about to raise. -/
theorem Books.taken_of_not_live (books : Books s h) (rep : Represented s)
    (change : Change s a s' o) (hlive : ¬Live s a) :
    ∃ t s'', MemoryStream.step s' (.resume t) = some (s'', .raised .cancelledError) ∧
      h.call t ∈ (h.record s a o).placed := by
  have hnil : s.waitingSenders.entries = [] → NextLive s := by
    intro hnil e he
    simp [hnil] at he
  have hcall : ∀ {i m}, ReceivesFrom s a i m →
      s.receiveClosed.getD i true = false ∧ ¬NextLive s := by
    intro i m call
    by_contra hcon
    refine hlive (call.live_iff.mpr fun hopen => ?_)
    by_contra hnext
    exact hcon ⟨hopen, hnext⟩
  cases change with
  | @admitted a i m x y event others rest call _ next =>
      obtain ⟨-, hnext⟩ := hcall call
      have hentries := OrderedDict.popItem_eq_some next
      have hmem : (event, y) ∈ s.waitingSenders.entries := hentries ▸ List.mem_cons_self
      have hcancelled : s.loop.future event = .cancelled := by
        by_contra hf
        apply hnext
        intro e he
        rw [hentries, List.head?_cons, Option.mem_some_iff] at he
        exact he ▸ hf
      obtain ⟨u, hu⟩ := rep.terminal.owners _ hmem
      have hkey : event ∈ s.waitingSenders.keys := OrderedDict.mem_keys.mpr ⟨y, hmem⟩
      have hwaiting := (books.queued u event hu hkey).1
      obtain ⟨-, hrec⟩ := call.books books rep.inv
      have hm := call.sameWaits
      have hnextm : m.waitingSenders.popItem = some ((event, y), others) := by
        rw [hm.streams]
        exact next
      refine ⟨u, _, @step_of_cancelled _ _ _ _ _ event ?_ ?_, ?_⟩
      · simpa using (hm.sending u event).mpr hu
      · simp [Loop.setEvent_future, hm.future, hcancelled]
      · rw [hrec]
        simp only [Ledger.took, Ledger.acceptHead, hnextm]
        split
        · simp [hwaiting]
        · simp_all
  | receiveRefused call he =>
      obtain ⟨hopen, hnext⟩ := hcall call
      rcases he with ⟨-, hclosed⟩ | ⟨-, -, -, clear⟩
      · exact absurd (hopen.symm.trans hclosed) Bool.false_ne_true
      · exact absurd (hnil clear) hnext
  | head call _ clear => exact absurd (hnil clear) (hcall call).2
  | empty _ clear => exact absurd (hnil clear) (hcall .nowait).2
  | joined hp hthrow _ _ clear => exact absurd (hnil clear) (hcall (.woken hp hthrow)).2
  | started _ ha => rcases ha with ⟨i, x, rfl, -⟩ | ⟨i, rfl, -⟩ <;> exact absurd trivial hlive
  | sendRefused call => exact absurd call.live hlive
  | handed call => exact absurd call.live hlive
  | buffered call => exact absurd call.live hlive
  | queued hp => exact absurd (by simp [Live, PassedLive, hp]) hlive
  | @interruptedEarly t hp hthrow =>
      refine absurd ?_ hlive
      cases hpt : s.loop.point t with
      | receiveCheckpoint i => simp [Live, PassedLive, hpt, hthrow]
      | _ => simp [Live, PassedLive, hpt]
  | senderRaised hp => exact absurd (by simp [Live, PassedLive, hp]) hlive
  | senderDone hp => exact absurd (by simp [Live, PassedLive, hp]) hlive
  | receiverRaised hp => exact absurd (by simp [Live, PassedLive, hp]) hlive
  | receiverDone hp => exact absurd (by simp [Live, PassedLive, hp]) hlive
  | cloneRefused ha => rcases ha with ⟨i, rfl⟩ | ⟨i, rfl⟩ <;> exact absurd trivial hlive
  | _ => exact absurd trivial hlive

omit [DecidableEq τ] in
theorem Books.created {python311 : Bool} {size : Number}
    (hcreate : create τ α python311 size = .ok s) : Books s .empty := by
  obtain ⟨bound, rfl⟩ := create_ok hcreate
  constructor <;> simp [Ledger.empty, Point.isSend]

/-- In every run in which `receive_nowait()` takes no item of a cancelled sender that has not
resumed yet, the item of a call that raised is never received, and the item of a call that
returned was put into the buffer or handed over exactly once. A step that does not meet this
takes the item of a sender that goes on to raise. -/
theorem failed_send_delivers_nothing {python311 : Bool} {size : Number} {start : State τ α}
    (hcreate : create τ α python311 size = .ok start)
    (run : (ledgered τ α).Reachable (fun p a => Live p.1 a) (start, .empty) (s, h)) :
    h.received.map Prod.snd = h.values ∧ (∀ n ∈ h.raised, ∀ x, (n, x) ∉ h.received) ∧
      (∀ n ∈ h.returned, h.placed.count n = 1) ∧
      ∀ a s' o, step s a = some (s', o) → ¬Live s a →
        ∃ t s'', step s' (.resume t) = some (s'', .raised .cancelledError) ∧
          h.call t ∈ (h.record s a o).placed := by
  obtain ⟨rep, books⟩ : Represented s ∧ Books s h := by
    refine run.invariant_history (I := fun s h => Represented s ∧ Books s h)
      ⟨.created hcreate, .created hcreate⟩ ?_
    rintro s h a s' o ⟨rep, books⟩ live hs
    exact ⟨rep.preserved hs, books.step rep (step_change rep.inv hs) live⟩
  refine ⟨books.values, fun n hn x hin => ?_, fun n hn => ?_, fun a s' o hs hlive => ?_⟩
  · exact books.raised n hn (books.known (n, x) (.inr (.inr hin)))
  · exact List.count_eq_one_of_mem books.once (books.returned n hn)
  · exact books.taken_of_not_live rep (step_change rep.inv hs) hlive

/-- Task 0 waits with its item while the buffer is full, and is cancelled; before it resumes,
its item moves into the buffer, from where it is received after the `send()` raised. -/
def takenFromCancelled : State (Fin 2) Nat × Ledger (Fin 2) Nat :=
  ((ledgered (Fin 2) Nat).exec Machine.anyStep (bufferOfOne (Fin 2) Nat, .empty)
    [.sendNowait 0 10, .send 0 0 20, .resume 0, .interrupt 0, .receiveNowait 0, .resume 0,
      .receiveNowait 0]).get (by decide)

theorem failed_send_delivered :
    create (Fin 2) Nat true (.int 1) = .ok (bufferOfOne (Fin 2) Nat) ∧
      (ledgered (Fin 2) Nat).Reachable Machine.anyStep (bufferOfOne (Fin 2) Nat, .empty)
        takenFromCancelled ∧
      takenFromCancelled.2.raised = [1] ∧ takenFromCancelled.2.values = [10, 20] ∧
      ¬∀ n ∈ takenFromCancelled.2.raised, ∀ x, (n, x) ∉ takenFromCancelled.2.received := by
  refine ⟨rfl, Machine.exec_get_reachable _ _ _, by decide, by decide, fun hnone => ?_⟩
  exact hnone 1 (by decide) 20 (by decide)

/-- A sender that is cancelled and resumes before anything is received. -/
def withdrawnInTime : State (Fin 2) Nat × Ledger (Fin 2) Nat :=
  ((ledgered (Fin 2) Nat).exec (fun p a => Live p.1 a) (bufferOfOne (Fin 2) Nat, .empty)
    [.sendNowait 0 10, .send 0 0 20, .resume 0, .interrupt 0, .resume 0, .receiveNowait 0]).get
    (by decide)

theorem failed_send_delivers_nothing_withdrawn :
    withdrawnInTime.2.raised = [1] ∧ (∀ x, (1, x) ∉ withdrawnInTime.2.received) ∧
      withdrawnInTime.2.placed.count 0 = 1 := by
  have created : create (Fin 2) Nat true (.int 1) = .ok (bufferOfOne (Fin 2) Nat) := rfl
  have run : (ledgered (Fin 2) Nat).Reachable (fun p a => Live p.1 a)
      (bufferOfOne (Fin 2) Nat, .empty) withdrawnInTime := Machine.exec_get_reachable _ _ _
  have safe := failed_send_delivers_nothing (s := withdrawnInTime.1) (h := withdrawnInTime.2)
    created run
  exact ⟨by decide, safe.2.1 1 (by decide), safe.2.2.1 0 (by decide)⟩

end Step

end Anyio.MemoryStream
