import Anyio.SignalReceiver.Model

/-!
# Signals are neither lost nor reordered

What was yielded and what is still queued are the delivered signals, whoever
iterates. With one consumer, its future is completed as soon as there is a
signal to take, and only then.
-/

namespace Anyio.SignalReceiver

open Asyncio Library

variable {τ σ : Type*}

/-- The signals that the handler was called with, and those that `__anext__()` returned. -/
structure History (σ : Type*) where
  delivered : List σ
  yielded : List σ
  deriving DecidableEq, Repr

def History.empty : History σ := ⟨[], []⟩

def record (h : History σ) (_ : State τ σ) (a : Action τ σ) (o : Answer σ) : History σ :=
  match a, o with
  | .deliver signum, _ => { h with delivered := h.delivered ++ [signum] }
  | .resume _, .returned (some signum) => { h with yielded := h.yielded ++ [signum] }
  | _, _ => h

/-- The machine that keeps the history. -/
def recorded (τ σ : Type*) [DecidableEq τ] :
    Machine (State τ σ × History σ) (Action τ σ) (Answer σ) :=
  (machine τ σ).withHistory record

/-- Nobody but `c` calls `__anext__()`. -/
def IteratedBy (c : τ) : Action τ σ → Prop
  | .anext t => t = c
  | _ => True

instance [DecidableEq τ] (c : τ) (a : Action τ σ) : Decidable (IteratedBy c a) :=
  match a with
  | .anext t => inferInstanceAs (Decidable (t = c))
  | .deliver _ | .cancel _ | .resume _ => .isTrue trivial

def Conserved (s : State τ σ) (h : History σ) : Prop := h.yielded ++ s.signalQueue = h.delivered

/-- A task that waits for the future of the receiver is woken by the next signal: the future is
pending only while there is none, and has a result only while there is one. -/
structure Attended (s : State τ σ) (c : τ) : Prop where
  others : ∀ t, t ≠ c → s.loop.point t = .outside
  current : ∀ f, s.loop.point c = .waiting f → s.future = f
  silent : ∀ f, s.loop.point c = .waiting f → s.loop.future f = .pending → s.signalQueue = []
  signalled : ∀ f, s.loop.point c = .waiting f → s.loop.future f = .finished → s.signalQueue ≠ []

variable {s s' : State τ σ} {h : History σ} {a : Action τ σ} {o : Answer σ} {c t : τ}
  {signum : σ} {rest : List σ}

/-- The handler completes the future if it is pending; it never raises. -/
theorem deliver_eq (s : State τ σ) (signum : σ) :
    deliver s signum =
      ({ s with
          signalQueue := s.signalQueue ++ [signum]
          loop := s.loop.setEvent s.future }, .returned none) := by
  unfold deliver Loop.setResult Loop.setEvent
  split_ifs <;> rfl

theorem popleft_nil (hempty : s.signalQueue = []) : popleft s = (s, .raised popFromEmpty) := by
  rw [popleft, hempty]

theorem popleft_cons (hqueue : s.signalQueue = signum :: rest) :
    popleft s = ({ s with signalQueue := rest }, .returned (some signum)) := by
  rw [popleft, hqueue]

theorem waits_waiting {f : FutureId} (hp : s.loop.point t = .waiting f) :
    s.loop.waits t = .future f := by
  rw [Loop.waits, hp]
  rfl

/-- A consumer that does not wait is attended to. -/
theorem Attended.of_not_waiting (others : ∀ t, t ≠ c → s.loop.point t = .outside)
    (hc : ∀ f, s.loop.point c ≠ .waiting f) : Attended s c := by
  constructor
  · exact others
  · exact fun f hf => absurd hf (hc f)
  · exact fun f hf => absurd hf (hc f)
  · exact fun f hf => absurd hf (hc f)

theorem Attended.initial (c : τ) : Attended (initial τ σ) c :=
  .of_not_waiting (fun _ _ => rfl) fun f hf => by cases hf

/-- A task that is inside of `__anext__()` is the consumer. -/
theorem Attended.eq_of_inside (attended : Attended s c) (hp : s.loop.point t ≠ .outside) :
    t = c := by
  by_contra hne
  exact hp (attended.others t hne)

theorem Attended.deliver (attended : Attended s c) (signum : σ) :
    Attended { s with
      signalQueue := s.signalQueue ++ [signum]
      loop := s.loop.setEvent s.future } c := by
  constructor
  · intro t ht
    rw [Loop.setEvent_point]
    exact attended.others t ht
  · intro f hf
    rw [Loop.setEvent_point] at hf
    exact attended.current f hf
  · intro f hf hpending
    rw [Loop.setEvent_point] at hf
    obtain rfl := attended.current f hf
    rw [Loop.setEvent_future] at hpending
    split_ifs at hpending with hset
    exact absurd ⟨rfl, hpending⟩ hset
  · intro f _ _
    simp

/-- If nothing is about to happen, the consumer waits only for a signal to come. -/
theorem Attended.quiescent (attended : Attended s c) (quiet : s.loop.Quiescent) {f : FutureId}
    (hp : s.loop.point c = .waiting f) : s.signalQueue = [] := by
  have hpending := quiet c
  rw [Loop.wakeUpQueued, waits_waiting hp] at hpending
  exact attended.silent f hp (by simpa using hpending)

variable [DecidableEq τ]

/-- What a step can do; a task that goes on is interrupted, waits, yields or fails. -/
inductive Change (s : State τ σ) : Action τ σ → State τ σ → Answer σ → Prop
  | delivered (signum : σ) : Change s (.deliver signum)
      { s with
        signalQueue := s.signalQueue ++ [signum]
        loop := s.loop.setEvent s.future } (.returned none)
  | entered {t : τ} (hp : s.loop.point t = .outside) : Change s (.anext t)
      { s with loop := s.loop.moveTo t .checkpoint } (.suspended .checkpoint)
  | requested (t : τ) : Change s (.cancel t) { s with loop := s.loop.cancel t } (.returned none)
  | interrupted {t : τ} (hp : s.loop.point t ≠ .outside) :
      Change s (.resume t) (wake s t) (.raised .cancelledError)
  | waits {t : τ} (hp : s.loop.point t = .checkpoint) (hempty : s.signalQueue = []) :
      Change s (.resume t)
        { s with
          future := s.loop.nextFuture
          loop := s.loop.createFuture.resumeAt t (.waiting s.loop.nextFuture) }
        (.suspended (.waiting s.loop.nextFuture))
  | yields {t : τ} {signum : σ} {rest : List σ} (hp : s.loop.point t ≠ .outside)
      (hqueue : s.signalQueue = signum :: rest) :
      Change s (.resume t) { wake s t with signalQueue := rest } (.returned (some signum))
  | fails {t : τ} {f : FutureId} (hp : s.loop.point t = .waiting f)
      (hfinished : s.loop.future f = .finished) (hempty : s.signalQueue = []) :
      Change s (.resume t) (wake s t) (.raised popFromEmpty)

theorem resume_change (hwake : s.loop.wakeUpQueued t = true) :
    Change s (.resume t) (resume s t).1 (resume s t).2 := by
  unfold resume
  cases hp : s.loop.point t with
  | outside => simp [Loop.wakeUpQueued, Loop.waits, hp, Coroutine.waits] at hwake
  | checkpoint =>
      dsimp only
      split_ifs with hthrown hempty
      · exact .interrupted (by simp [hp])
      · exact .waits hp (List.isEmpty_iff.mp hempty)
      · cases hqueue : s.signalQueue with
        | nil => simp [hqueue] at hempty
        | cons signum rest =>
            have hwoken : (wake s t).signalQueue = signum :: rest := hqueue
            rw [popleft_cons hwoken]
            exact .yields (by simp [hp]) hqueue
  | waiting f =>
      dsimp only
      split_ifs with hthrown
      · exact .interrupted (by simp [hp])
      · cases hqueue : s.signalQueue with
        | nil =>
            have hwoken : (wake s t).signalQueue = [] := hqueue
            obtain ⟨-, hfinished⟩ := Loop.finished_of_woken (waits_waiting hp) hwake hthrown
            rw [popleft_nil hwoken]
            exact .fails hp hfinished hqueue
        | cons signum rest =>
            have hwoken : (wake s t).signalQueue = signum :: rest := hqueue
            rw [popleft_cons hwoken]
            exact .yields (by simp [hp]) hqueue

theorem step_change (hs : step s a = some (s', o)) : Change s a s' o := by
  cases a with
  | deliver signum =>
      rw [step, deliver_eq] at hs
      cases hs
      exact .delivered signum
  | anext t =>
      obtain ⟨hp, hs⟩ := Option.ite_none_right_eq_some.mp hs
      cases hs
      exact .entered hp
  | cancel t =>
      cases hs
      exact .requested t
  | resume t =>
      obtain ⟨hwake, hs⟩ := Option.ite_none_right_eq_some.mp hs
      have hchange := resume_change hwake
      rw [Option.some.inj hs] at hchange
      exact hchange

/-- Signals are taken out where they were put in, whoever takes them. -/
theorem Conserved.step (conserved : Conserved s h) (hs : step s a = some (s', o)) :
    Conserved s' (record h s a o) := by
  unfold Conserved at conserved ⊢
  cases step_change hs with
  | delivered signum => simp only [record, ← List.append_assoc, conserved]
  | entered | requested | interrupted | waits | fails => exact conserved
  | yields _ hqueue =>
      rw [hqueue] at conserved
      simpa [record] using conserved

theorem Attended.wake (attended : Attended s c) (queue : List σ) :
    Attended { wake s c with signalQueue := queue } c := by
  apply Attended.of_not_waiting
  · intro t ht
    simpa [SignalReceiver.wake, ht] using attended.others t ht
  · simp [SignalReceiver.wake]

theorem Attended.cancel (attended : Attended s c) (t : τ) :
    Attended { s with loop := s.loop.cancel t } c := by
  constructor
  · intro u hu
    rw [Loop.cancel_point]
    exact attended.others u hu
  · intro f hf
    rw [Loop.cancel_point] at hf
    exact attended.current f hf
  · intro f hf hpending
    rw [Loop.cancel_point] at hf
    exact attended.silent f hf (Loop.pending_of_cancel hpending)
  · intro f hf hfinished
    rw [Loop.cancel_point] at hf
    exact attended.signalled f hf (Loop.cancel_finished_iff.mp hfinished)

/-- The new future is the one that the consumer waits for, and there is no signal yet. -/
theorem Attended.startWait (attended : Attended s c) (hempty : s.signalQueue = []) :
    Attended { s with
      future := s.loop.nextFuture
      loop := s.loop.createFuture.resumeAt c (.waiting s.loop.nextFuture) } c := by
  constructor
  · intro t ht
    simpa [ht] using attended.others t ht
  · intro f hf
    simpa using hf
  · exact fun _ _ _ => hempty
  · intro f hf hfinished
    obtain rfl : s.loop.nextFuture = f := by simpa using hf
    simp at hfinished

theorem Attended.step (attended : Attended s c) (ok : IteratedBy c a)
    (hs : step s a = some (s', o)) : Attended s' c := by
  cases step_change hs with
  | delivered signum => exact attended.deliver signum
  | requested t => exact attended.cancel t
  | entered hp =>
      obtain rfl : _ = c := ok
      apply Attended.of_not_waiting
      · intro t ht
        simpa [ht] using attended.others t ht
      · simp
  | interrupted hp =>
      obtain rfl := attended.eq_of_inside hp
      exact attended.wake s.signalQueue
  | @waits t hp hempty =>
      have hinside : s.loop.point t ≠ .outside := by simp [hp]
      obtain rfl := attended.eq_of_inside hinside
      exact attended.startWait hempty
  | yields hp hqueue =>
      obtain rfl := attended.eq_of_inside hp
      exact attended.wake _
  | @fails t f hp hfinished hempty =>
      have hinside : s.loop.point t ≠ .outside := by simp [hp]
      obtain rfl := attended.eq_of_inside hinside
      exact attended.wake s.signalQueue

/-- The consumer never finds the queue empty after its wait. -/
theorem Attended.pops (attended : Attended s c) (hs : SignalReceiver.step s a = some (s', o)) :
    o ≠ .raised popFromEmpty := by
  cases step_change hs with
  | @fails t f hp hfinished hempty =>
      have hinside : s.loop.point t ≠ .outside := by simp [hp]
      obtain rfl := attended.eq_of_inside hinside
      exact absurd hempty (attended.signalled _ hp hfinished)
  | delivered | entered | requested | interrupted | waits | yields => simp [popFromEmpty]

/-- In every run with one consumer the signals that were yielded and those that are queued are
the delivered ones in their order, `popleft()` finds a signal, and the consumer does not go on
waiting while there is one. -/
theorem signals_arrive
    (run : (recorded τ σ).Reachable (fun _ a => IteratedBy c a)
      (SignalReceiver.initial τ σ, .empty) (s, h)) :
    h.yielded ++ s.signalQueue = h.delivered ∧
      (∀ a s' o, step s a = some (s', o) → o ≠ .raised popFromEmpty) ∧
      (s.loop.Quiescent → ∀ f, s.loop.point c = .waiting f → s.signalQueue = []) := by
  obtain ⟨conserved, attended⟩ : Conserved s h ∧ Attended s c :=
    run.invariant_history (I := fun s h => Conserved s h ∧ Attended s c)
      ⟨rfl, .initial c⟩ fun _ _ _ _ _ inv ok hs => ⟨inv.1.step hs, inv.2.step ok hs⟩
  exact ⟨conserved, fun a s' o hs => attended.pops hs, fun quiet f hp =>
    attended.quiescent quiet hp⟩

/-- One consumer is needed: task 1 takes the signal that task 0 was woken for. -/
example :
    ((machine (Fin 2) Nat).exec Machine.anyStep (SignalReceiver.initial (Fin 2) Nat)
      [.anext 0, .resume 0, .deliver 2, .anext 1, .resume 1]).bind
        (fun s => (step s (.resume 0)).map Prod.snd) = some (.raised popFromEmpty) := by
  decide

/-- The consumer is cancelled while it waits, after a signal has come. It takes the signal, and
another one, when it goes on. -/
def takenLater : State Unit Nat × History Nat :=
  ((recorded Unit Nat).exec (fun _ a => IteratedBy () a) (SignalReceiver.initial Unit Nat, .empty)
    [.anext (), .resume (), .deliver 2, .cancel (), .resume (), .deliver 15, .anext (),
      .resume (), .anext (), .resume (), .anext (), .resume ()]).get (by decide)

theorem signals_arrive_later :
    takenLater.2.yielded = [2, 15] ∧
      takenLater.2.yielded ++ takenLater.1.signalQueue = takenLater.2.delivered ∧
      takenLater.1.loop.Quiescent ∧ takenLater.1.loop.point () = .waiting 2 ∧
      takenLater.1.signalQueue = [] := by
  have run : (recorded Unit Nat).Reachable (fun _ a => IteratedBy () a)
      (SignalReceiver.initial Unit Nat, .empty) takenLater := Machine.exec_get_reachable _ _ _
  obtain ⟨hconserved, -, hwaits⟩ := signals_arrive run
  exact ⟨by decide, hconserved, by decide, by decide, hwaits (by decide) 2 (by decide)⟩

end Anyio.SignalReceiver
