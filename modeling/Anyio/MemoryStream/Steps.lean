import Anyio.MemoryStream.Invariant

/-!
# Steps of memory object streams

What one step of the streams does, from a state that satisfies the invariant. A
call of `send_nowait()` or `receive_nowait()` is made directly, or by a task
that has just passed the checkpoint of `send()` or `receive()`.
-/

namespace Anyio.MemoryStream

open Asyncio Library

variable {τ α : Type*}

/-- A task stands at the checkpoint of `send()` or `receive()`. -/
def Point.isCheckpoint : Point α → Bool
  | .sendCheckpoint _ _ => true
  | .receiveCheckpoint _ => true
  | _ => false

/-- The stream object `i` and the receiving end are open. -/
def Sendable (s : State τ α) (i : Nat) : Prop :=
  s.sendClosed.getD i true = false ∧ s.openReceiveChannels ≠ 0

instance (s : State τ α) (i : Nat) : Decidable (Sendable s i) :=
  inferInstanceAs (Decidable (_ ∧ _))

variable [DecidableEq τ]

/-- The action calls `send_nowait(x)` on the stream object `i` in state `m`. -/
inductive SendsFrom (s : State τ α) : Action τ α → Nat → α → State τ α → Prop
  | nowait {i x} : SendsFrom s (.sendNowait i x) i x s
  | woken {t i x} (hp : s.loop.point t = .sendCheckpoint i x) (hthrow : s.loop.throws t = false) :
      SendsFrom s (.resume t) i x (wake s t)

/-- The action calls `receive_nowait()` on the stream object `i` in state `m`. -/
inductive ReceivesFrom (s : State τ α) : Action τ α → Nat → State τ α → Prop
  | nowait {i} : ReceivesFrom s (.receiveNowait i) i s
  | woken {t i} (hp : s.loop.point t = .receiveCheckpoint i)
      (hthrow : s.loop.throws t = false) : ReceivesFrom s (.resume t) i (wake s t)

/-- The steps of the streams. -/
inductive Change (s : State τ α) : Action τ α → State τ α → Outcome (Point α) (Value α) → Prop
  | started {t p a} (hfrom : s.loop.point t = .outside)
      (ha : (∃ i x, a = .send t i x ∧ p = .sendCheckpoint i x) ∨
        ∃ i, a = .receive t i ∧ p = .receiveCheckpoint i) :
      Change s a { s with loop := s.loop.moveTo t p } (.suspended p)
  | sendRefused {a i x m e} (call : SendsFrom s a i x m)
      (he : e = .closedResourceError ∧ s.sendClosed.getD i true = true ∨
        e = .brokenResourceError ∧ s.openReceiveChannels = 0) : Change s a m (.raised e)
  | handed {a i x m event u rest} (call : SendsFrom s a i x m) (hopen : Sendable s i)
      (next : (nextReceivers m).popItem = some ((event, u), rest)) :
      Change s a { m with
        waitingReceivers := rest
        item := Function.update m.item event (some x)
        loop := m.loop.setEvent event } (.returned .none)
  | buffered {a i x m} (call : SendsFrom s a i x m) (hopen : Sendable s i)
      (nobody : (nextReceivers m).popItem = none)
      (room : s.maxBufferSize.covers (s.buffer.length + 1)) :
      Change s a { m with
        waitingReceivers := nextReceivers m
        buffer := m.buffer ++ [x] } (.returned .none)
  | blocked {i x} (hopen : Sendable s i) (nobody : (nextReceivers s).popItem = none)
      (full : ¬s.maxBufferSize.covers (s.buffer.length + 1)) :
      Change s (.sendNowait i x) { s with waitingReceivers := nextReceivers s }
        (.raised .wouldBlock)
  | queued {t i x} (hp : s.loop.point t = .sendCheckpoint i x)
      (hthrow : s.loop.throws t = false) (hopen : Sendable s i)
      (nobody : (nextReceivers (wake s t)).popItem = none)
      (full : ¬s.maxBufferSize.covers (s.buffer.length + 1)) :
      Change s (.resume t) { wake s t with
        waitingReceivers := nextReceivers (wake s t)
        waitingSenders := s.waitingSenders.assign s.loop.nextFuture x
        loop := (wake s t).loop.createFuture.moveTo t (.sendWait s.loop.nextFuture) }
        (.suspended (.sendWait s.loop.nextFuture))
  | receiveRefused {a i m e} (call : ReceivesFrom s a i m)
      (he : e = .closedResourceError ∧ s.receiveClosed.getD i true = true ∨
        e = .endOfStream ∧ s.openSendChannels = 0 ∧ s.buffer = [] ∧
          s.waitingSenders.entries = []) : Change s a m (.raised e)
  | head {a i m x rest} (call : ReceivesFrom s a i m) (buffer : s.buffer = x :: rest)
      (clear : s.waitingSenders.entries = []) :
      Change s a { m with buffer := rest } (.returned (.item x))
  | admitted {a i m x y event others rest} (call : ReceivesFrom s a i m)
      (hopen : s.receiveClosed.getD i true = false)
      (next : s.waitingSenders.popItem = some ((event, y), others))
      (receivers : s.waitingReceivers.entries = []) (buffer : s.buffer ++ [y] = x :: rest) :
      Change s a { m with
        buffer := rest
        waitingSenders := others
        loop := m.loop.setEvent event } (.returned (.item x))
  | empty {i} (buffer : s.buffer = []) (clear : s.waitingSenders.entries = []) :
      Change s (.receiveNowait i) s (.raised .wouldBlock)
  | joined {t i} (hp : s.loop.point t = .receiveCheckpoint i)
      (hthrow : s.loop.throws t = false) (hopen : s.openSendChannels ≠ 0)
      (buffer : s.buffer = []) (clear : s.waitingSenders.entries = []) :
      Change s (.resume t) { wake s t with
        waitingReceivers := s.waitingReceivers.assign s.loop.nextFuture t
        item := Function.update s.item s.loop.nextFuture none
        loop := (wake s t).loop.createFuture.moveTo t (.receiveWait s.loop.nextFuture) }
        (.suspended (.receiveWait s.loop.nextFuture))
  | interruptedEarly {t} (hp : (s.loop.point t).isCheckpoint = true)
      (hthrow : s.loop.throws t = true) : Change s (.resume t) (wake s t) (.raised .cancelledError)
  | senderRaised {t event e} (hp : s.loop.point t = .sendWait event)
      (he : e = .cancelledError ∧ s.loop.future event = .cancelled ∨
        e = .brokenResourceError ∧ s.loop.future event = .finished ∧
          event ∈ s.waitingSenders.keys) :
      Change s (.resume t) { wake s t with waitingSenders := s.waitingSenders.pop event }
        (.raised e)
  | senderDone {t event} (hp : s.loop.point t = .sendWait event)
      (set : s.loop.future event = .finished) (gone : event ∉ s.waitingSenders.keys) :
      Change s (.resume t) (wake s t) (.returned .none)
  | receiverRaised {t event e} (hp : s.loop.point t = .receiveWait event)
      (he : e = .cancelledError ∧ s.loop.future event = .cancelled ∨
        e = .endOfStream ∧ s.loop.future event = .finished ∧ s.item event = none) :
      Change s (.resume t) { wake s t with waitingReceivers := s.waitingReceivers.pop event }
        (.raised e)
  | receiverDone {t event x} (hp : s.loop.point t = .receiveWait event)
      (set : s.loop.future event = .finished) (item : s.item event = some x) :
      Change s (.resume t) { wake s t with waitingReceivers := s.waitingReceivers.pop event }
        (.returned (.item x))
  | cloneRefused {a e} (ha : (∃ i, a = .cloneSend i) ∨ ∃ i, a = .cloneReceive i)
      (he : e = .closedResourceError) : Change s a s (.raised e)
  | clonedSend {i} (hopen : s.sendClosed.getD i true = false) :
      Change s (.cloneSend i) { s with
        sendClosed := s.sendClosed ++ [false]
        openSendChannels := s.openSendChannels + 1 } (.returned (.stream s.sendClosed.length))
  | clonedReceive {i} (hopen : s.receiveClosed.getD i true = false) :
      Change s (.cloneReceive i) { s with
        receiveClosed := s.receiveClosed ++ [false]
        openReceiveChannels := s.openReceiveChannels + 1 }
        (.returned (.stream s.receiveClosed.length))
  | closedSend {i} : Change s (.closeSend i) (closeSend s i) (.returned .none)
  | closedReceive {i} : Change s (.closeReceive i) (closeReceive s i) (.returned .none)
  | interrupted {t} (h : interruptible s.loop t = true) :
      Change s (.interrupt t) { s with loop := s.loop.cancel t } (.suspended (s.loop.point t))
  | scopeSet {t b} : Change s (.setScope t b)
      { s with effectivelyCancelled := Function.update s.effectivelyCancelled t b }
      (.returned .none)
  | countSet {t n} (hfrom : s.loop.point t = .outside) : Change s (.setCancelling t n)
      { s with loop := s.loop.setCancelling t n } (.returned .none)

variable {s s' m : State τ α} {a : Action τ α} {o : Outcome (Point α) (Value α)} {t : τ} {i : Nat}
  {x : α}

omit [DecidableEq τ] in
/-- Which of the cases of `send_nowait()` it is. -/
theorem sendNowait_cases (s : State τ α) (i : Nat) (x : α) :
    (∃ e, sendNowait s i x = (s, .error e) ∧
      (e = .closedResourceError ∧ s.sendClosed.getD i true = true ∨
        e = .brokenResourceError ∧ s.openReceiveChannels = 0)) ∨
    Sendable s i ∧
      ((∃ event u rest, (nextReceivers s).popItem = some ((event, u), rest) ∧
        sendNowait s i x = ({ s with
          waitingReceivers := rest
          item := Function.update s.item event (some x)
          loop := s.loop.setEvent event }, .ok ())) ∨
      (nextReceivers s).popItem = none ∧
        (s.maxBufferSize.covers (s.buffer.length + 1) ∧
          sendNowait s i x = ({ s with
            waitingReceivers := nextReceivers s
            buffer := s.buffer ++ [x] }, .ok ()) ∨
        ¬s.maxBufferSize.covers (s.buffer.length + 1) ∧
          sendNowait s i x = ({ s with waitingReceivers := nextReceivers s },
            .error .wouldBlock))) := by
  unfold sendNowait
  split_ifs with hclosed hbroken
  · exact .inl ⟨_, rfl, .inl ⟨rfl, hclosed⟩⟩
  · exact .inl ⟨_, rfl, .inr ⟨rfl, hbroken⟩⟩
  · refine .inr ⟨⟨by simpa using hclosed, hbroken⟩, ?_⟩
    unfold transmit
    split
    · rename_i event u rest next
      exact .inl ⟨event, u, rest, next, rfl⟩
    · rename_i next
      refine .inr ⟨next, ?_⟩
      simp only
      split_ifs with hroom
      · exact .inl ⟨hroom, rfl⟩
      · exact .inr ⟨hroom, rfl⟩

omit [DecidableEq τ] in
/-- Which of the cases of `receive_nowait()` it is. -/
theorem Inv.receiveNowait_cases (inv : Inv s) (i : Nat) :
    receiveNowait s i = (s, .error .closedResourceError) ∧ s.receiveClosed.getD i true = true ∨
    s.receiveClosed.getD i true = false ∧
      ((∃ x rest, s.buffer = x :: rest ∧ s.waitingSenders.entries = [] ∧
        receiveNowait s i = ({ s with buffer := rest }, .ok x)) ∨
      (∃ event x y others rest, s.waitingSenders.popItem = some ((event, y), others) ∧
        s.waitingReceivers.entries = [] ∧ s.buffer ++ [y] = x :: rest ∧
        receiveNowait s i = ({ s with
          buffer := rest
          waitingSenders := others
          loop := s.loop.setEvent event }, .ok x)) ∨
      s.buffer = [] ∧ s.waitingSenders.entries = [] ∧
        receiveNowait s i =
          (s, .error (if s.openSendChannels = 0 then .endOfStream else .wouldBlock))) := by
  unfold receiveNowait
  cases hclosed : s.receiveClosed.getD i true with
  | true => exact .inl ⟨rfl, rfl⟩
  | false =>
    refine .inr ⟨rfl, ?_⟩
    simp only [Bool.false_eq_true, if_false]
    rcases inv.admitSender_cases with ⟨hs, hnil⟩ | ⟨event, y, others, hpop, hr, hs⟩
    · simp only [hs]
      split
      · rename_i x rest hbuf
        exact .inl ⟨x, rest, hbuf, hnil, rfl⟩
      · rename_i hbuf
        exact .inr (.inr ⟨hbuf, hnil, rfl⟩)
    · simp only [hs]
      split
      · rename_i x rest hbuf
        exact .inr (.inl ⟨event, x, y, others, rest, hpop, hr, hbuf, rfl⟩)
      · simp_all

omit [DecidableEq τ] in
/-- A task that is woken at a wait got the result or the cancellation of its event. -/
theorem Inv.woken (inv : Inv s) {event : FutureId} (hw : s.loop.waits t = .future event)
    (hwake : s.loop.wakeUpQueued t = true) :
    s.loop.throws t = true ∧ s.loop.future event = .cancelled ∨
      s.loop.throws t = false ∧ s.loop.future event = .finished := by
  have hclear := inv.tidy.clear t event hw
  cases hf : s.loop.future event with
  | pending => simp [Loop.wakeUpQueued, hw, hf] at hwake
  | finished => simp [Loop.throws, hw, hf, hclear]
  | cancelled => simp [Loop.throws, hw, hf]

theorem wake_inv (inv : Inv s) (hp : (s.loop.point t).isCheckpoint = true) : Inv (wake s t) := by
  apply inv.wake
  intro f hf
  rw [hf] at hp
  cases hp

/-- The step of a task at the checkpoint of `send()`. -/
theorem Change.send (hp : s.loop.point t = .sendCheckpoint i x)
    (hthrow : s.loop.throws t = false) :
    Change s (.resume t) (sendAfterCheckpoint (wake s t) t i x).1
      (sendAfterCheckpoint (wake s t) t i x).2 := by
  have call : SendsFrom s (.resume t) i x (wake s t) := .woken hp hthrow
  unfold sendAfterCheckpoint
  rcases sendNowait_cases (wake s t) i x with ⟨e, heq, he⟩ | ⟨hopen, hcases⟩
  · rw [heq]
    rcases he with ⟨rfl, he⟩ | ⟨rfl, he⟩
    · exact .sendRefused call (.inl ⟨rfl, he⟩)
    · exact .sendRefused call (.inr ⟨rfl, he⟩)
  · rcases hcases with ⟨event, u, rest, next, heq⟩ | ⟨nobody, ⟨room, heq⟩ | ⟨full, heq⟩⟩
    · rw [heq]
      exact .handed call hopen next
    · rw [heq]
      exact .buffered call hopen nobody room
    · rw [heq]
      exact .queued hp hthrow hopen nobody full

/-- The step of a task at the checkpoint of `receive()`. -/
theorem Change.receive (inv : Inv s) (hp : s.loop.point t = .receiveCheckpoint i)
    (hthrow : s.loop.throws t = false) :
    Change s (.resume t) (receiveAfterCheckpoint (wake s t) t i).1
      (receiveAfterCheckpoint (wake s t) t i).2 := by
  have call : ReceivesFrom s (.resume t) i (wake s t) := .woken hp hthrow
  have hwake : Inv (wake s t) := wake_inv inv (by simp [hp, Point.isCheckpoint])
  unfold receiveAfterCheckpoint
  rcases hwake.receiveNowait_cases i with ⟨heq, hclosed⟩ | ⟨hopen, hcases⟩
  · rw [heq]
    exact .receiveRefused call (.inl ⟨rfl, hclosed⟩)
  · rcases hcases with ⟨y, rest, hbuf, hnil, heq⟩ |
      ⟨event, y, z, others, rest, hpop, hr, hbuf, heq⟩ | ⟨hbuf, hnil, heq⟩
    · rw [heq]
      exact .head call hbuf hnil
    · rw [heq]
      exact .admitted call hopen hpop hr hbuf
    · rw [heq]
      split_ifs with hzero
      · exact .receiveRefused call (.inr ⟨rfl, hzero, hbuf, hnil⟩)
      · exact .joined hp hthrow hzero hbuf hnil

theorem Change.resume (inv : Inv s) (hwake : s.loop.wakeUpQueued t = true) :
    Change s (.resume t) (resume s t).1 (resume s t).2 := by
  unfold MemoryStream.resume
  cases hp : s.loop.point t with
  | outside => simp [Loop.wakeUpQueued, Loop.waits, hp, Coroutine.waits] at hwake
  | sendCheckpoint i x =>
      simp only
      split_ifs with hthrow
      · exact .interruptedEarly (by simp [hp, Point.isCheckpoint]) hthrow
      · exact .send hp (by simpa using hthrow)
  | receiveCheckpoint i =>
      simp only
      split_ifs with hthrow
      · exact .interruptedEarly (by simp [hp, Point.isCheckpoint]) hthrow
      · exact .receive inv hp (by simpa using hthrow)
  | sendWait event =>
      simp only
      rcases inv.woken (waits_sendWait hp) hwake with ⟨hthrow, hf⟩ | ⟨hthrow, hf⟩
      · simp only [hthrow, if_true]
        exact .senderRaised hp (.inl ⟨rfl, hf⟩)
      · simp only [hthrow, Bool.false_eq_true, if_false]
        split_ifs with hmem
        · exact .senderRaised hp (.inr ⟨rfl, hf, hmem⟩)
        · exact .senderDone hp hf hmem
  | receiveWait event =>
      simp only
      rcases inv.woken (waits_receiveWait hp) hwake with ⟨hthrow, hf⟩ | ⟨hthrow, hf⟩
      · simp only [hthrow, if_true]
        exact .receiverRaised hp (.inl ⟨rfl, hf⟩)
      · simp only [hthrow, Bool.false_eq_true, if_false]
        split
        · exact .receiverDone hp hf ‹_›
        · exact .receiverRaised hp (.inr ⟨rfl, hf, ‹_›⟩)

theorem step_change (inv : Inv s) (hs : step s a = some (s', o)) : Change s a s' o := by
  cases a with
  | sendNowait i x =>
      obtain ⟨-, hs⟩ := Option.ite_none_right_eq_some.mp hs
      have call : SendsFrom s (.sendNowait i x) i x s := .nowait
      rcases sendNowait_cases s i x with ⟨e, heq, he⟩ | ⟨hopen, hcases⟩
      · rw [heq] at hs
        cases hs
        exact .sendRefused call he
      · rcases hcases with ⟨event, u, rest, next, heq⟩ | ⟨nobody, ⟨room, heq⟩ | ⟨full, heq⟩⟩
        · rw [heq] at hs
          cases hs
          exact .handed call hopen next
        · rw [heq] at hs
          cases hs
          exact .buffered call hopen nobody room
        · rw [heq] at hs
          cases hs
          exact .blocked hopen nobody full
  | receiveNowait i =>
      obtain ⟨-, hs⟩ := Option.ite_none_right_eq_some.mp hs
      have call : ReceivesFrom s (.receiveNowait i) i s := .nowait
      rcases inv.receiveNowait_cases i with ⟨heq, hclosed⟩ | ⟨hopen, hcases⟩
      · rw [heq] at hs
        cases hs
        exact .receiveRefused call (.inl ⟨rfl, hclosed⟩)
      · rcases hcases with ⟨y, rest, hbuf, hnil, heq⟩ |
          ⟨event, y, z, others, rest, hpop, hr, hbuf, heq⟩ | ⟨hbuf, hnil, heq⟩
        · rw [heq] at hs
          cases hs
          exact .head call hbuf hnil
        · rw [heq] at hs
          cases hs
          exact .admitted call hopen hpop hr hbuf
        · rw [heq] at hs
          cases hs
          split_ifs with hzero
          · exact .receiveRefused call (.inr ⟨rfl, hzero, hbuf, hnil⟩)
          · exact .empty hbuf hnil
  | send t i x =>
      obtain ⟨⟨-, hout⟩, hs⟩ := Option.ite_none_right_eq_some.mp hs
      cases hs
      exact .started (Point.isOutside_iff.mp hout) (.inl ⟨i, x, rfl, rfl⟩)
  | receive t i =>
      obtain ⟨⟨-, hout⟩, hs⟩ := Option.ite_none_right_eq_some.mp hs
      cases hs
      exact .started (Point.isOutside_iff.mp hout) (.inr ⟨i, rfl, rfl⟩)
  | cloneSend i =>
      obtain ⟨-, hs⟩ := Option.ite_none_right_eq_some.mp hs
      split_ifs at hs with hclosed <;> cases hs
      · exact .cloneRefused (.inl ⟨i, rfl⟩) rfl
      · exact .clonedSend (by simpa using hclosed)
  | cloneReceive i =>
      obtain ⟨-, hs⟩ := Option.ite_none_right_eq_some.mp hs
      split_ifs at hs with hclosed <;> cases hs
      · exact .cloneRefused (.inr ⟨i, rfl⟩) rfl
      · exact .clonedReceive (by simpa using hclosed)
  | closeSend i =>
      obtain ⟨-, hs⟩ := Option.ite_none_right_eq_some.mp hs
      cases hs
      exact .closedSend
  | closeReceive i =>
      obtain ⟨-, hs⟩ := Option.ite_none_right_eq_some.mp hs
      cases hs
      exact .closedReceive
  | interrupt t =>
      obtain ⟨hint, hs⟩ := Option.ite_none_right_eq_some.mp hs
      cases hs
      exact .interrupted hint
  | resume t =>
      obtain ⟨hwake, hs⟩ := Option.ite_none_right_eq_some.mp hs
      have change := Change.resume inv hwake
      rwa [Option.some.inj hs] at change
  | setScope t b =>
      cases hs
      exact .scopeSet
  | setCancelling t n =>
      obtain ⟨hout, hs⟩ := Option.ite_none_right_eq_some.mp hs
      cases hs
      exact .countSet (Point.isOutside_iff.mp hout)

/-- A task that passes its checkpoint changes neither the streams nor the waits of the others. -/
structure SameWaits (s m : State τ α) : Prop where
  streams : m = { s with loop := m.loop }
  future : m.loop.future = s.loop.future
  nextFuture : m.loop.nextFuture = s.loop.nextFuture
  receiving : ∀ u f, m.loop.point u = .receiveWait f ↔ s.loop.point u = .receiveWait f
  sending : ∀ u f, m.loop.point u = .sendWait f ↔ s.loop.point u = .sendWait f

omit [DecidableEq τ] in
theorem SameWaits.refl (s : State τ α) : SameWaits s s :=
  ⟨rfl, rfl, rfl, fun _ _ => Iff.rfl, fun _ _ => Iff.rfl⟩

theorem sameWaits_wake (hp : (s.loop.point t).isCheckpoint = true) : SameWaits s (wake s t) := by
  refine ⟨rfl, rfl, rfl, fun u f => ?_, fun u f => ?_⟩
  · by_cases hut : u = t
    · subst hut
      have hne : s.loop.point u ≠ .receiveWait f := by
        intro heq
        rw [heq] at hp
        cases hp
      simp [wake, hne]
    · simp [wake, hut]
  · by_cases hut : u = t
    · subst hut
      have hne : s.loop.point u ≠ .sendWait f := by
        intro heq
        rw [heq] at hp
        cases hp
      simp [wake, hne]
    · simp [wake, hut]

theorem SendsFrom.sameWaits (call : SendsFrom s a i x m) : SameWaits s m := by
  cases call with
  | nowait => exact .refl s
  | woken hp => exact sameWaits_wake (by simp [hp, Point.isCheckpoint])

theorem ReceivesFrom.sameWaits (call : ReceivesFrom s a i m) : SameWaits s m := by
  cases call with
  | nowait => exact .refl s
  | woken hp => exact sameWaits_wake (by simp [hp, Point.isCheckpoint])

theorem SendsFrom.inv (call : SendsFrom s a i x m) (inv : Inv s) : Inv m := by
  cases call with
  | nowait => exact inv
  | woken hp => exact wake_inv inv (by simp [hp, Point.isCheckpoint])

theorem ReceivesFrom.inv (call : ReceivesFrom s a i m) (inv : Inv s) : Inv m := by
  cases call with
  | nowait => exact inv
  | woken hp => exact wake_inv inv (by simp [hp, Point.isCheckpoint])

/-- A task that leaves its wait in `receive()` takes its entry out of the queue. -/
theorem Inv.leaveReceiver (inv : Inv s) {event : FutureId}
    (hp : s.loop.point t = .receiveWait event) :
    Inv { MemoryStream.wake s t with
      waitingReceivers := s.waitingReceivers.pop event } := by
  refine inv.leave (t := t) (p := .outside) (by simp [Coroutine.waits]) rfl (fun e he => ?_)
    (fun _ => id) rfl rfl
  rw [OrderedDict.mem_pop] at he
  refine ⟨he.1, inv.ne_of_point he.1 ?_⟩
  intro heq
  exact he.2 (Point.receiveWait.inj (heq.symm.trans hp))

/-- A task that leaves its wait in `send()` may take its entry out of the queue. -/
theorem Inv.leaveSender (inv : Inv s) {event : FutureId}
    (hp : s.loop.point t = .sendWait event) :
    Inv { MemoryStream.wake s t with waitingSenders := s.waitingSenders.pop event } :=
  inv.leave (t := t) (p := .outside) (by simp [Coroutine.waits]) rfl
    (fun e he => ⟨he, inv.ne_of_point he (by simp [hp])⟩)
    (fun e he => (OrderedDict.mem_pop.mp he).1) rfl rfl

theorem Change.inv (change : Change s a s' o) (inv : Inv s) : Inv s' := by
  cases change with
  | started hfrom ha =>
      apply inv.move hfrom
      rcases ha with ⟨i, x, -, rfl⟩ | ⟨i, -, rfl⟩ <;> simp [Coroutine.waits]
  | sendRefused call => exact call.inv inv
  | handed call _ next => exact (call.inv inv).sends (.handed next)
  | buffered call _ nobody room =>
      have hm := call.sameWaits.streams
      refine (call.inv inv).sends (.buffered nobody ?_)
      rw [hm]
      exact room
  | @blocked _ x _ nobody full => exact inv.sends (.full (x := x) nobody full)
  | @queued t i x hp _ _ nobody full =>
      have hwake : Inv (wake s t) := wake_inv inv (by simp [hp, Point.isCheckpoint])
      have hskip := hwake.sends (.full (x := x) nobody full)
      exact hskip.joinSender (by simp [wake]) x (OrderedDict.popItem_eq_none.mp nobody) full
  | receiveRefused call => exact call.inv inv
  | head call hbuf clear =>
      have hm := call.sameWaits.streams
      exact (call.inv inv).received (.head (by rw [hm]; exact hbuf) (by rw [hm]; exact clear))
  | admitted call _ next receivers hbuf =>
      have hm := call.sameWaits.streams
      exact (call.inv inv).received (.admitted (by rw [hm]; exact next)
        (by rw [hm]; exact receivers) (by rw [hm]; exact hbuf))
  | empty => exact inv
  | @joined t i hp _ _ hbuf clear =>
      have hwake : Inv (wake s t) := wake_inv inv (by simp [hp, Point.isCheckpoint])
      exact hwake.joinReceiver (by simp [wake]) hbuf clear
  | interruptedEarly hp => exact wake_inv inv hp
  | senderRaised hp => exact inv.leaveSender hp
  | senderDone hp => exact inv.wake (by simp [hp])
  | receiverRaised hp => exact inv.leaveReceiver hp
  | receiverDone hp => exact inv.leaveReceiver hp
  | cloneRefused => exact inv
  | clonedSend =>
      exact inv.frame inv.tidy (fun e he => ⟨he, rfl, id⟩) (fun _ => id) le_rfl rfl rfl
  | clonedReceive =>
      exact inv.frame inv.tidy (fun e he => ⟨he, rfl, id⟩) (fun _ => id) le_rfl rfl rfl
  | closedSend => exact inv.closeSend _
  | closedReceive => exact inv.closeReceive _
  | interrupted h => exact inv.interrupt h
  | scopeSet =>
      exact inv.frame inv.tidy (fun e he => ⟨he, rfl, id⟩) (fun _ => id) le_rfl rfl rfl
  | countSet hfrom =>
      exact inv.frame (inv.tidy.setCancelling hfrom _) (fun e he => ⟨he, by simp, id⟩)
        (fun _ => id) le_rfl rfl rfl

theorem Inv.step (inv : Inv s) (hs : step s a = some (s', o)) : Inv s' :=
  (step_change inv hs).inv inv

end Anyio.MemoryStream
