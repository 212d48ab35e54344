import Anyio.MemoryStream.Channels

/-!
# Receivers that are passed over

`send_nowait()` takes a receiver with a pending cancellation out of the queue
and leaves its event alone, so the receiver depends on that cancellation. From
Python 3.11 on the test is the count of `cancelling()`, which also counts the
requests that were delivered long ago: a task that calls `receive()` in a
shielded scope while it cleans up after a cancellation is passed over, and
nothing wakes it up any more.
-/

namespace Anyio.MemoryStream

open Asyncio Library

variable {τ α : Type*}

/-- The receivers that `send_nowait()` pops before the one it hands its item to. -/
def passedOver (s : State τ α) : List (FutureId × τ) :=
  s.waitingReceivers.entries.takeWhile fun e => hasPendingCancellation s e.2

/-- A `CancelledError` is on its way to a receiver: it was thrown at its
event, or the scope of its task is cancelled and throws one. -/
def Interrupting (s : State τ α) (e : FutureId × τ) : Prop :=
  s.loop.future e.1 = .cancelled ∨ s.effectivelyCancelled e.2 = true

instance (s : State τ α) (e : FutureId × τ) : Decidable (Interrupting s e) :=
  inferInstanceAs (Decidable (_ ∨ _))

/-- Every receiver that `send_nowait()` on stream object `i` passes over is interrupted. -/
def PassesSoundly (s : State τ α) (i : Nat) : Prop :=
  Sendable s i → ∀ e ∈ passedOver s, Interrupting s e

instance (s : State τ α) (i : Nat) : Decidable (PassesSoundly s i) :=
  inferInstanceAs (Decidable (_ → _))

/-- Neither a suspended receiver that nothing wakes up, nor a queue in which one is missing:
a task in `receive()` for which no wake-up and no cancellation is due is registered, and
there is nothing for it to receive. -/
def Served (s : State τ α) : Prop :=
  ∀ t f, s.loop.point t = .receiveWait f → s.loop.wakeUpQueued t = false →
    s.effectivelyCancelled t = false →
    (f, t) ∈ s.waitingReceivers.entries ∧ s.buffer = [] ∧ s.waitingSenders.entries = [] ∧
      s.openSendChannels ≠ 0

/-- A receiver that may still wait is in the queue, or the scope of its task will interrupt it. -/
def Kept (s : State τ α) : Prop :=
  ∀ t f, s.loop.point t = .receiveWait f → s.loop.future f = .pending →
    (f, t) ∈ s.waitingReceivers.entries ∨ s.effectivelyCancelled t = true

/-- What must hold when a task passes point `p`: a task that goes on with `send()` passes over
no receiver but those that are interrupted. -/
def PassedSoundly [DecidableEq τ] (s : State τ α) (t : τ) : Point α → Prop
  | .sendCheckpoint i _ => s.loop.throws t = false → PassesSoundly (wake s t) i
  | _ => True

/-- What must hold when the scope of a task at point `p` is no longer cancelled: the task was not
passed over while it was. -/
def StillRegistered (s : State τ α) (t : τ) : Point α → Prop
  | .receiveWait f => s.loop.future f = .pending → (f, t) ∈ s.waitingReceivers.entries
  | _ => True

/-- What a step must meet: a call of `send_nowait()` passes over no receiver but those that
are interrupted, and the scope of a receiver that was passed over stays cancelled. -/
def Sound [DecidableEq τ] (s : State τ α) : Action τ α → Prop
  | .sendNowait i _ => PassesSoundly s i
  | .resume t => PassedSoundly s t (s.loop.point t)
  | .setScope t false => StillRegistered s t (s.loop.point t)
  | _ => True

instance [DecidableEq τ] (s : State τ α) (t : τ) (p : Point α) :
    Decidable (PassedSoundly s t p) :=
  match p with
  | .sendCheckpoint i _ =>
      inferInstanceAs (Decidable (s.loop.throws t = false → PassesSoundly (wake s t) i))
  | .outside | .sendWait _ | .receiveCheckpoint _ | .receiveWait _ => .isTrue trivial

instance [DecidableEq τ] (s : State τ α) (t : τ) (p : Point α) :
    Decidable (StillRegistered s t p) :=
  match p with
  | .receiveWait f => inferInstanceAs
      (Decidable (s.loop.future f = .pending → (f, t) ∈ s.waitingReceivers.entries))
  | .outside | .sendCheckpoint _ _ | .sendWait _ | .receiveCheckpoint _ => .isTrue trivial

instance [DecidableEq τ] (s : State τ α) (a : Action τ α) : Decidable (Sound s a) :=
  match a with
  | .sendNowait i _ => inferInstanceAs (Decidable (PassesSoundly s i))
  | .resume t => inferInstanceAs (Decidable (PassedSoundly s t (s.loop.point t)))
  | .setScope t false => inferInstanceAs (Decidable (StillRegistered s t (s.loop.point t)))
  | .setScope _ true | .send _ _ _ | .receiveNowait _ | .receive _ _ | .cloneSend _
  | .cloneReceive _ | .closeSend _ | .closeReceive _ | .interrupt _ | .setCancelling _ _ =>
      .isTrue trivial

section Kept
variable {s s' m : State τ α}

theorem passed_or_next {e : FutureId × τ} (he : e ∈ s.waitingReceivers.entries) :
    e ∈ passedOver s ∨ e ∈ (nextReceivers s).entries := by
  have hsplit := List.takeWhile_append_dropWhile
    (p := fun e : FutureId × τ => hasPendingCancellation s e.2) (l := s.waitingReceivers.entries)
  rw [← hsplit] at he
  exact List.mem_append.mp he

/-- A receiver that was passed over is not in the rest of the queue. -/
theorem passed_not_next {e : FutureId × τ} (he : e ∈ passedOver s) :
    e ∉ (nextReceivers s).entries := by
  intro hmem
  have hnodup := s.waitingReceivers.nodup.of_map
  have hsplit := List.takeWhile_append_dropWhile
    (p := fun e : FutureId × τ => hasPendingCancellation s e.2) (l := s.waitingReceivers.entries)
  rw [← hsplit, List.nodup_append] at hnodup
  exact hnodup.2.2 e he e hmem rfl

/-- Whoever is registered and still waits stays so, and no new wait begins. -/
theorem Kept.frame (kept : Kept s)
    (h : ∀ t f, s'.loop.point t = .receiveWait f → s'.loop.future f = .pending →
      s.loop.point t = .receiveWait f ∧ s.loop.future f = .pending ∧
      ((f, t) ∈ s.waitingReceivers.entries →
        (f, t) ∈ s'.waitingReceivers.entries ∨ s'.effectivelyCancelled t = true))
    (heff : s'.effectivelyCancelled = s.effectivelyCancelled) : Kept s' := by
  intro t f ht hf
  obtain ⟨ht, hf, hmem⟩ := h t f ht hf
  rcases kept t f ht hf with hin | hscope
  · exact hmem hin
  · exact .inr (heff ▸ hscope)

theorem SameWaits.kept (same : SameWaits s m) (kept : Kept s) : Kept m := by
  obtain ⟨hm, hf, -, hr, -⟩ := same
  rw [hm]
  refine kept.frame (fun t f ht hfut => ?_) rfl
  exact ⟨(hr t f).mp ht, hf ▸ hfut, .inl⟩

/-- A receiver that was passed over soundly is interrupted while its event is pending. -/
theorem PassesSoundly.scope {i : Nat} (sound : PassesSoundly s i)
    (hopen : Sendable s i) {e : FutureId × τ} (he : e ∈ passedOver s)
    (hf : s.loop.future e.1 = .pending) :
    s.effectivelyCancelled e.2 = true := by
  rcases sound hopen e he with hcancelled | hscope
  · rw [hf] at hcancelled
    cases hcancelled
  · exact hscope

variable [DecidableEq τ] {a : Action τ α} {o : Outcome (Point α) (Value α)} {i : Nat} {x : α}

/-- What the condition says about a call of `send_nowait()`. -/
theorem SendsFrom.sound_iff (call : SendsFrom s a i x m) : Sound s a ↔ PassesSoundly m i := by
  cases call with
  | nowait => exact Iff.rfl
  | woken hp hthrow =>
      simp only [Sound, PassedSoundly, hp]
      exact ⟨fun h => h hthrow, fun h _ => h⟩

/-- The condition says nothing about a call of `receive_nowait()`. -/
theorem ReceivesFrom.sound (call : ReceivesFrom s a i m) : Sound s a := by
  cases call with
  | nowait => trivial
  | woken hp => simp only [Sound, PassedSoundly, hp]

omit [DecidableEq τ] in
theorem SameWaits.sendable (same : SameWaits s m) (h : Sendable s i) : Sendable m i := by
  rw [same.streams]
  exact h

omit [DecidableEq τ] in
/-- A receiver that stays in the queue or was passed over soundly. -/
theorem PassesSoundly.kept (sound : PassesSoundly s i) (hopen : Sendable s i)
    {e : FutureId × τ} (he : e ∈ s.waitingReceivers.entries)
    (hf : s.loop.future e.1 = .pending) :
    e ∈ (nextReceivers s).entries ∨ s.effectivelyCancelled e.2 = true := by
  rcases passed_or_next he with hpassed | hnext
  · exact .inr (sound.scope hopen hpassed hf)
  · exact .inl hnext

omit [DecidableEq τ] in
theorem pending_of_setEvent {l : Loop τ (Point α)} {event f : FutureId}
    (h : (l.setEvent event).future f = .pending) : l.future f = .pending ∧ f ≠ event := by
  rw [Loop.setEvent_future] at h
  split_ifs at h with hset
  refine ⟨h, ?_⟩
  rintro rfl
  exact hset ⟨rfl, h⟩

omit [DecidableEq τ] in
theorem pending_of_setEvents {l : Loop τ (Point α)} {events : List FutureId} {f : FutureId}
    (h : (setEvents l events).future f = .pending) : l.future f = .pending ∧ f ∉ events := by
  induction events generalizing l with
  | nil => exact ⟨h, List.not_mem_nil⟩
  | cons g rest ih =>
      obtain ⟨hset, hnot⟩ := ih (l := l.setEvent g) h
      obtain ⟨hf, hne⟩ := pending_of_setEvent hset
      exact ⟨hf, by simp [hne, hnot]⟩

/-- A task that woke up waits no more. -/
theorem of_wake {t u : τ} {f : FutureId} (h : (wake s t).loop.point u = .receiveWait f) :
    u ≠ t ∧ s.loop.point u = .receiveWait f := by
  have hut : u ≠ t := by
    rintro rfl
    simp [wake] at h
  exact ⟨hut, by simpa [wake, hut] using h⟩

/-- A receiver takes its own entry out of the queue when it leaves. -/
theorem Kept.leave (kept : Kept s) (inv : Inv s) {t : τ} {event : FutureId}
    (hp : s.loop.point t = .receiveWait event) :
    Kept { wake s t with waitingReceivers := s.waitingReceivers.pop event } := by
  refine kept.frame (fun u f hu hf => ?_) rfl
  obtain ⟨hut, hold⟩ := of_wake hu
  refine ⟨hold, hf, fun hin => .inl (OrderedDict.mem_pop.mpr ⟨hin, fun heq => hut ?_⟩)⟩
  have hwait : s.loop.waits u = .future event := by
    rw [waits_receiveWait hold]
    exact congrArg Waits.future heq
  exact inv.tidy.owned.injective u t event hwait (waits_receiveWait hp)

omit [DecidableEq τ] in
theorem Kept.closeSend (kept : Kept s) (i : Nat) : Kept (closeSend s i) := by
  unfold MemoryStream.closeSend
  split_ifs
  · exact kept
  · simp only
    split_ifs
    · -- whoever was in the queue is woken
      refine kept.frame (fun t f ht hf => ?_) rfl
      obtain ⟨hf, hnot⟩ := pending_of_setEvents hf
      refine ⟨by simpa using ht, hf, fun hin => ?_⟩
      exact absurd (OrderedDict.mem_keys.mpr ⟨t, hin⟩) hnot
    · exact kept

omit [DecidableEq τ] in
theorem Kept.closeReceive (kept : Kept s) (i : Nat) : Kept (closeReceive s i) := by
  unfold MemoryStream.closeReceive
  split_ifs
  · exact kept
  · simp only
    split_ifs
    · refine kept.frame (fun t f ht hf => ?_) rfl
      exact ⟨by simpa using ht, (pending_of_setEvents hf).1, .inl⟩
    · exact kept

theorem Kept.step (kept : Kept s) (inv : Inv s) (change : Change s a s' o) (sound : Sound s a) :
    Kept s' := by
  cases change with
  | @started t p a hfrom ha =>
      have hp : ∀ f, p ≠ .receiveWait f := by
        rcases ha with ⟨i, x, -, rfl⟩ | ⟨i, -, rfl⟩ <;> simp
      refine kept.frame (fun u f hu hf => ?_) rfl
      by_cases hut : u = t
      · exact absurd (by simpa [hut] using hu) (hp f)
      · exact ⟨by simpa [hut] using hu, hf, .inl⟩
  | sendRefused call => exact call.sameWaits.kept kept
  | receiveRefused call => exact call.sameWaits.kept kept
  | head call => exact fun t f ht hf => call.sameWaits.kept kept t f ht hf
  | interruptedEarly hp => exact (sameWaits_wake hp).kept kept
  | @handed a i x m event u rest call hopen next =>
      have kept := call.sameWaits.kept kept
      have hentries := OrderedDict.popItem_eq_some next
      refine kept.frame (fun t f ht hf => ?_) rfl
      obtain ⟨hf, hne⟩ := pending_of_setEvent hf
      refine ⟨by simpa using ht, hf, fun hin => ?_⟩
      apply ((call.sound_iff.mp sound).kept (call.sameWaits.sendable hopen) hin hf).imp_left
      intro hin
      rw [hentries] at hin
      exact (List.mem_cons.mp hin).resolve_left fun heq => hne (Prod.mk.inj heq).1
  | @buffered a i x m call hopen =>
      have kept := call.sameWaits.kept kept
      refine kept.frame (fun t f ht hf => ⟨ht, hf, fun hin => ?_⟩) rfl
      exact (call.sound_iff.mp sound).kept (call.sameWaits.sendable hopen) hin hf
  | blocked hopen =>
      refine kept.frame (fun t f ht hf => ⟨ht, hf, fun hin => ?_⟩) rfl
      exact PassesSoundly.kept sound hopen hin hf
  | @queued t i x hp hthrow hopen =>
      have call : SendsFrom s (.resume t) i x (wake s t) := .woken hp hthrow
      have kept := call.sameWaits.kept kept
      refine kept.frame (fun u f hu hf => ?_) rfl
      have hut : u ≠ t := by
        rintro rfl
        simp at hu
      have hu : (wake s t).loop.point u = .receiveWait f := by simpa [hut] using hu
      have hold := (inv.tidy.owned.created u f
        (waits_receiveWait ((call.sameWaits.receiving u f).mp hu))).ne
      have hf : (wake s t).loop.future f = .pending := by simpa [wake, hold] using hf
      exact ⟨hu, hf, fun hin =>
        (call.sound_iff.mp sound).kept (call.sameWaits.sendable hopen) hin hf⟩
  | @admitted a i m x y event others rest call =>
      have kept := call.sameWaits.kept kept
      refine kept.frame (fun t f ht hf => ?_) rfl
      exact ⟨by simpa using ht, (pending_of_setEvent hf).1, .inl⟩
  | @joined t i hp hthrow =>
      have same : SameWaits s (wake s t) := sameWaits_wake (by simp [hp, Point.isCheckpoint])
      intro u f hu hf
      by_cases hut : u = t
      · -- the task itself is the last one in the queue
        subst hut
        left
        have heq : f = s.loop.nextFuture := by simpa [eq_comm] using hu
        rw [heq]
        exact OrderedDict.mem_assign.mpr (.inl rfl)
      · have hu : s.loop.point u = .receiveWait f :=
          (same.receiving u f).mp (by simpa [hut] using hu)
        have hold := (inv.tidy.owned.created u f (waits_receiveWait hu)).ne
        have hf : s.loop.future f = .pending := by simpa [wake, hold] using hf
        exact (kept u f hu hf).imp_left fun hin => OrderedDict.mem_assign.mpr (.inr ⟨hin, hold⟩)
  | senderRaised => exact kept.frame (fun u f hu hf => ⟨(of_wake hu).2, hf, .inl⟩) rfl
  | senderDone => exact kept.frame (fun u f hu hf => ⟨(of_wake hu).2, hf, .inl⟩) rfl
  | @receiverRaised t event e hp => exact kept.leave inv hp
  | @receiverDone t event x hp => exact kept.leave inv hp
  | closedSend => exact kept.closeSend _
  | closedReceive => exact kept.closeReceive _
  | @interrupted t h =>
      refine kept.frame (fun u f hu hf => ⟨by simpa using hu, ?_, .inl⟩) rfl
      exact Loop.pending_of_cancel hf
  | @scopeSet t b =>
      intro u f hu hf
      by_cases hut : u = t
      · subst hut
        cases b with
        | true => exact .inr (by simp)
        | false =>
            have hu : s.loop.point u = .receiveWait f := hu
            simp only [Sound, StillRegistered, hu] at sound
            exact .inl (sound hf)
      · simpa [hut] using kept u f hu hf
  | countSet => exact kept.frame (fun u f hu hf => ⟨by simpa using hu, hf, .inl⟩) rfl
  | _ => exact kept

end Kept

section Served
variable {s s' m : State τ α} {t : τ} {f : FutureId}

theorem pending_of_not_queued (ht : s.loop.point t = .receiveWait f)
    (hwake : s.loop.wakeUpQueued t = false) : s.loop.future f = .pending := by
  simpa [Loop.wakeUpQueued, waits_receiveWait ht] using hwake

variable [DecidableEq τ] {a : Action τ α} {o : Outcome (Point α) (Value α)}

omit [DecidableEq τ] in
theorem Kept.served (kept : Kept s) (rep : Represented s) : Served s := by
  intro t f ht hwake hscope
  have hin : (f, t) ∈ s.waitingReceivers.entries := by
    apply (kept t f ht (pending_of_not_queued ht hwake)).resolve_right
    rw [hscope]
    exact Bool.false_ne_true
  have hne := List.ne_nil_of_mem hin
  obtain ⟨hbuf, hnil⟩ := rep.inv.receiving hne
  exact ⟨hin, hbuf, hnil, fun hzero => hne (rep.terminal.cleared hzero)⟩

omit [DecidableEq τ] in
/-- A receiver that was passed over is in no queue, so it is served only if it is interrupted. -/
theorem Served.interrupting (served : Served s') (inv : Inv m) {e : FutureId × τ}
    (he : e ∈ passedOver m) (hp : s'.loop.point e.2 = m.loop.point e.2)
    (hf : m.loop.future e.1 = .pending → s'.loop.future e.1 = .pending)
    (heff : s'.effectivelyCancelled = m.effectivelyCancelled)
    (hsub : s'.waitingReceivers.entries ⊆ (nextReceivers m).entries) : Interrupting m e := by
  have hmem : e ∈ m.waitingReceivers.entries := (List.takeWhile_subset _) he
  obtain ⟨hwait, hfin⟩ := inv.receivers e hmem
  cases hfut : m.loop.future e.1 with
  | finished => exact absurd hfut hfin
  | cancelled => exact .inl hfut
  | pending =>
      right
      by_contra hscope
      have hwait' : s'.loop.point e.2 = .receiveWait e.1 := hp.trans hwait
      have hqueued : s'.loop.wakeUpQueued e.2 = false := by
        simp [Loop.wakeUpQueued, waits_receiveWait hwait', hf hfut]
      have hreg := (served e.2 e.1 hwait' hqueued (by simpa [heff] using hscope)).1
      exact passed_not_next he (hsub hreg)

/-- A step that does not meet the condition strands a receiver. -/
theorem Served.sound (served : Served s') (inv : Inv s) (change : Change s a s' o) :
    Sound s a := by
  cases change with
  | started _ ha => rcases ha with ⟨i, x, rfl, -⟩ | ⟨i, rfl, -⟩ <;> trivial
  | sendRefused call he =>
      apply call.sound_iff.mpr
      intro hopen
      rw [call.sameWaits.streams] at hopen
      rcases he with ⟨-, hclosed⟩ | ⟨-, hbroken⟩
      · exact absurd (hopen.1.symm.trans hclosed) Bool.false_ne_true
      · exact absurd hbroken hopen.2
  | @handed a i x m event u rest call _ next =>
      apply call.sound_iff.mpr
      intro _ e he
      have hentries := OrderedDict.popItem_eq_some next
      have hnext : (event, u) ∈ (nextReceivers m).entries := hentries ▸ List.mem_cons_self
      refine served.interrupting (call.inv inv) he (by simp) (fun hf => ?_) rfl
        fun c hc => hentries ▸ List.mem_cons_of_mem _ hc
      have hne : e.1 ≠ event := by
        intro heq
        have hmem : (event, e.2) ∈ m.waitingReceivers.entries :=
          heq ▸ (List.takeWhile_subset _) he
        have hu := m.waitingReceivers.value_unique hmem (nextReceivers_subset hnext)
        have hsame : e = (event, u) := Prod.ext heq hu
        exact passed_not_next he (hsame ▸ hnext)
      simpa [Loop.setEvent_future, hne] using hf
  | buffered call =>
      apply call.sound_iff.mpr
      intro _ e he
      exact served.interrupting (call.inv inv) he rfl id rfl (List.Subset.refl _)
  | blocked =>
      exact fun _ e he => served.interrupting inv he rfl id rfl (List.Subset.refl _)
  | @queued t i x hp hthrow =>
      have call : SendsFrom s (.resume t) i x (wake s t) := .woken hp hthrow
      apply call.sound_iff.mpr
      intro _ e he
      have hwait := ((call.inv inv).receivers e ((List.takeWhile_subset _) he)).1
      have hold := (inv.tidy.owned.created _ _
        (waits_receiveWait ((call.sameWaits.receiving _ _).mp hwait))).ne
      have hne : e.2 ≠ t := (of_wake hwait).1
      exact served.interrupting (call.inv inv) he (by simp [hne]) (by simp [wake, hold]) rfl
        (List.Subset.refl _)
  | receiveRefused call => exact call.sound
  | head call => exact call.sound
  | admitted call => exact call.sound
  | @interruptedEarly t hp hthrow =>
      cases hpt : s.loop.point t with
      | sendCheckpoint i x => simp [Sound, PassedSoundly, hpt, hthrow]
      | _ => simp [Sound, PassedSoundly, hpt]
  | joined hp => simp [Sound, PassedSoundly, hp]
  | senderRaised hp => simp [Sound, PassedSoundly, hp]
  | senderDone hp => simp [Sound, PassedSoundly, hp]
  | receiverRaised hp => simp [Sound, PassedSoundly, hp]
  | receiverDone hp => simp [Sound, PassedSoundly, hp]
  | @scopeSet t b =>
      cases b with
      | true => trivial
      | false =>
          cases hpt : s.loop.point t with
          | receiveWait f =>
              simp only [Sound, StillRegistered, hpt]
              intro hf
              have hqueued : s.loop.wakeUpQueued t = false := by
                simp [Loop.wakeUpQueued, waits_receiveWait hpt, hf]
              exact (served t f hpt hqueued (by simp)).1
          | _ => simp [Sound, StillRegistered, hpt]
  | cloneRefused ha => rcases ha with ⟨i, rfl⟩ | ⟨i, rfl⟩ <;> trivial
  | _ => trivial

end Served

end Anyio.MemoryStream
