import Anyio.Condition.Invariant

/-!
# Notifications that are lost

`notify()` takes events from the left of the deque whether or not their
waiters still wait. A waiter that was cancelled and has not resumed is among
them, as is an event whose `wait()` was called without the lock and failed: the
notification ends there, and the next waiter is not woken in its place. A
waiter whose event was set while it waited returns from `wait()`.
-/

namespace Anyio.Condition

open Asyncio Library

variable {τ : Type*} [DecidableEq τ]

/-- The waiter of an event in the deque waits for it and was not cancelled. -/
def isLive (s : State τ) (e : τ × FutureId) : Bool :=
  s.loop.point e.1 = .waiting e.2 ∧ s.loop.future e.2 = .pending

/-- A live waiter of `s` that is woken in `s'`. -/
def isWoken (s s' : State τ) (e : τ × FutureId) : Bool :=
  isLive s e && decide (s'.loop.future e.2 = .finished)

/-- An event that `notify()` or `notify_all()` removed, whether its waiter was live, and the
events of the live waiters that were not notified with it. -/
structure Removed where
  event : FutureId
  live : Bool
  left : List FutureId
  deriving DecidableEq, Repr

/-- What happened to the events of a run. -/
structure History where
  removed : List Removed
  /-- The events whose `wait()` ended with an exception. -/
  raised : List FutureId
  deriving DecidableEq, Repr

namespace History

def empty : History := ⟨[], []⟩

/-- The first `n` events of the deque were removed. -/
def notify (h : History) (s : State τ) (n : Nat) : History :=
  { h with removed := h.removed ++ (s.waiters.take n).map fun e =>
      ⟨e.2, isLive s e, ((s.waiters.drop n).filter (isLive s)).map Prod.snd⟩ }

def raise (h : History) (event : FutureId) : History := { h with raised := h.raised ++ [event] }

end History

/-- What the step of task `t` after its wake-up at point `p` adds to the history. -/
def recordWake (h : History) (s : State τ) (t : τ) (p : Point) (o : Outcome Point Unit) :
    History :=
  match p, o with
  | .waiting event, .raised _ => h.raise event
  | .reacquiring event _, .raised _ => h.raise event
  | .waitCheckpoint, .raised _ => if s.loop.throws t then h else h.raise s.loop.nextFuture
  | _, _ => h

/-- What a step adds to the history. -/
def record (h : History) (s : State τ) (a : Action τ) (o : Outcome Point Unit) : History :=
  match a, o with
  | .notify _ n, .returned _ => h.notify s n.toNat
  | .notifyAll _, .returned _ => h.notify s s.waiters.length
  | .resume t, o => recordWake h s t (s.loop.point t) o
  | _, _ => h

/-- The machine that keeps the history. -/
def recorded (τ : Type*) [DecidableEq τ] :
    Machine (State τ × History) (Action τ) (Outcome Point Unit) :=
  (machine τ).withHistory record

/-- `notify(n)` removes events of live waiters only, or leaves no live waiter behind. -/
def RemovesLive (s : State τ) (n : Nat) : Prop :=
  (∀ e ∈ s.waiters.take n, isLive s e = true) ∨ (s.waiters.drop n).filter (isLive s) = []

instance (s : State τ) (n : Nat) : Decidable (RemovesLive s n) :=
  inferInstanceAs (Decidable (_ ∨ _))

/-- What a step must meet: a call of `notify(n)` that does not raise removes no event whose waiter
is gone while a live waiter stays in the deque. -/
def NotifiesLive (s : State τ) : Action τ → Prop
  | .notify t n => s.ownerTask = some (s.taskId t) → RemovesLive s n.toNat
  | _ => True

instance (s : State τ) (a : Action τ) : Decidable (NotifiesLive s a) :=
  match a with
  | .notify t n => inferInstanceAs
      (Decidable (s.ownerTask = some (s.taskId t) → RemovesLive s n.toNat))
  | .acquire _ _ | .acquireNowait _ | .release _ | .wait _ | .notifyAll _ | .interrupt _
  | .resume _ => .isTrue trivial

/-- The wait for an event ends without an exception: the event was set, and no exception is kept
for the end of `wait()`. -/
structure Safe (s : State τ) (e : FutureId) : Prop where
  waiting : ∀ t, s.loop.point t = .waiting e → s.loop.future e = .finished
  reacquiring : ∀ t error, s.loop.point t = .reacquiring e error → error = none

/-- What the history says about a state. -/
structure Notified (s : State τ) (h : History) : Prop where
  settled : ∀ e ∈ h.raised, e < s.loop.nextFuture ∧ ∀ t, (s.loop.point t).event ≠ some e
  woken : ∀ r ∈ h.removed, r.live = true → Safe s r.event ∧ r.event ∉ h.raised
  created : ∀ r ∈ h.removed, r.event < s.loop.nextFuture

section Safe
variable {s s' : State τ} {t : τ} {e : FutureId} {a : Action τ} {o : Outcome Point Unit}

omit [DecidableEq τ] in
theorem Safe.congr (safe : Safe s e) (hp : ∀ u, s'.loop.point u = s.loop.point u)
    (hf : s.loop.future e = .finished → s'.loop.future e = .finished) : Safe s' e :=
  ⟨fun u hu => hf (safe.waiting u (hp u ▸ hu)), fun u error hu => safe.reacquiring u error
    (hp u ▸ hu)⟩

omit [DecidableEq τ] in
/-- Task `t` moves to a point that has nothing to do with the event. -/
theorem Safe.move (safe : Safe s e) (hother : ∀ u, u ≠ t → s'.loop.point u = s.loop.point u)
    (hf : s.loop.future e = .finished → s'.loop.future e = .finished)
    (hto : (s'.loop.point t).event ≠ some e) : Safe s' e := by
  refine ⟨fun u hu => ?_, fun u error hu => ?_⟩
  · have hut : u ≠ t := by
      rintro rfl
      simp [hu, Point.event] at hto
    exact hf (safe.waiting u (hother u hut ▸ hu))
  · have hut : u ≠ t := by
      rintro rfl
      simp [hu, Point.event] at hto
    exact safe.reacquiring u error (hother u hut ▸ hu)

/-- The end of a safe wait keeps no exception. -/
theorem LockCall.safe {b : Lock.Action τ} {m : State τ} {p : Point} {done : Outcome Point Unit}
    (call : LockCall s t a b m p done) (safe : Safe s e) (queued : Queued s)
    {error : Option Error} (hp : p = .reacquiring e error) :
    error = none ∧ done = .returned () := by
  cases call with
  | acquire => cases hp
  | acquireNowait => cases hp
  | acquiring => cases hp
  | reacquiring hpt =>
      cases hp
      obtain rfl := safe.reacquiring t _ hpt
      exact ⟨rfl, rfl⟩
  | woken => cases hp; exact ⟨rfl, rfl⟩
  | interrupted hpt hthrow =>
      -- the future is finished and nothing else was requested
      cases hp
      have hfin := safe.waiting t hpt
      simp [Loop.throws, Loop.waits, hpt, Coroutine.waits, queued.clear t e hpt, hfin] at hthrow

theorem Safe.step (safe : Safe s e) (queued : Queued s) (he : e < s.loop.nextFuture)
    (change : Change s a s' o) : Safe s' e := by
  cases change with
  | refused => exact safe
  | released => exact safe.congr (fun _ => rfl) id
  | @started t => exact safe.move (t := t) (fun u hu => by simp [hu]) id (by simp [Point.event])
  | notified =>
      rw [popAndSet_eq]
      apply safe.congr (by simp)
      intro hf
      simp only [setEvents_future, hf, ite_self]
  | notifiedAll =>
      apply safe.congr (by simp)
      intro hf
      simp only [setEvents_future, hf, ite_self]
  | interruptedInLock => exact safe.congr (fun _ => rfl) id
  | interrupted =>
      apply safe.congr (by simp)
      intro hf
      rw [Loop.cancel_future_of_done (by simp [hf])]
      exact hf
  | @refusedWait t =>
      exact safe.move (t := t) (fun u hu => by simp [wake, hu]) id (by simp [wake, Point.event])
  | @waiting t lock =>
      refine safe.move (t := t) (fun u hu => by simp [wake, hu]) (fun hf => ?_) ?_
      · simpa [wake, he.ne] using hf
      · simpa [Point.event] using he.ne'
  | @left t e' =>
      refine safe.move (t := t) (fun u hu => by simp [register, wake, hu]) (fun hf => ?_) ?_
      · simpa [register, wake, he.ne] using hf
      · simp [register, wake, Point.event]
  | @locked a b t m p done r call =>
      have entered := call.entered
      have hpoint : ∀ u, u ≠ t → m.loop.point u = s.loop.point u := fun u hu =>
        congrArg Task.point (entered.task u hu)
      have hfuture : m.loop.future = s.loop.future := entered.future
      obtain ⟨lock, o⟩ := r
      cases o with
      | returned v =>
          refine safe.move (t := t) (fun u hu => by simp [afterLock, wake, hu, hpoint u hu])
            (fun hf => ?_) (by simp [afterLock, wake, Point.event])
          simpa [afterLock, wake, hfuture] using hf
      | raised error =>
          refine safe.move (t := t) (fun u hu => by simp [afterLock, wake, hu, hpoint u hu])
            (fun hf => ?_) (by simp [afterLock, wake, Point.event])
          simpa [afterLock, wake, hfuture] using hf
      | suspended q =>
          refine ⟨fun u hu => ?_, fun u error hu => ?_⟩
          · have hut : u ≠ t := by
              rintro rfl
              have hp : p = .waiting e := by simpa [afterLock] using hu
              have hinlock := entered.inLock
              rw [hp] at hinlock
              cases hinlock
            have hu : m.loop.point u = .waiting e := by simpa [afterLock, hut] using hu
            simpa [afterLock, hfuture] using safe.waiting u (hpoint u hut ▸ hu)
          · by_cases hut : u = t
            · exact (call.safe safe queued (by simpa [afterLock, hut] using hu)).1
            · have hu : m.loop.point u = .reacquiring e error := by
                simpa [afterLock, hut] using hu
              exact safe.reacquiring u error (hpoint u hut ▸ hu)

/-- A safe wait does not end with an exception. -/
theorem Safe.not_raised (safe : Safe s e) (lw : Lockwise s) (queued : Queued s) {error : Error}
    (change : Change s (.resume t) s' (.raised error)) :
    (s.loop.point t).event ≠ some e := by
  intro hevent
  generalize ha : Action.resume t = a at change
  generalize ho : (Outcome.raised error : Outcome Point Unit) = o at change
  cases change with
  | refused hne => exact hne t ha.symm
  | refusedWait hp => cases ha; simp [hp, Point.event] at hevent
  | left hp => cases ha; simp [hp, Point.event] at hevent
  | @locked a b u m p done r call hstep =>
      obtain ⟨lock, lo⟩ := r
      obtain ⟨rfl, kept, hp⟩ : u = t ∧ ∃ kept, p = .reacquiring e kept := by
        cases call with
        | acquire => cases ha
        | acquireNowait => cases ha
        | acquiring hpt => cases ha; simp [hpt, Point.event] at hevent
        | reacquiring hpt => cases ha; simp_all [Point.event]
        | woken hpt => cases ha; simp_all [Point.event]
        | interrupted hpt => cases ha; simp_all [Point.event]
      have hdone := (call.safe safe queued hp).2
      have hlock := (call.clean lw hstep hp).1
      cases lo with
      | returned v =>
          rw [hdone] at ho
          cases ho
      | raised e' => exact hlock e' rfl
      | suspended q => cases ho
  | _ => cases ho

omit [DecidableEq τ] in
/-- The event of a live waiter is set. -/
theorem Safe.of_set (queued : Queued s) {f : τ × FutureId} (hlive : isLive s f = true)
    (hp : ∀ u, s'.loop.point u = s.loop.point u)
    (hset : s.loop.future f.2 = .pending → s'.loop.future f.2 = .finished) : Safe s' f.2 := by
  obtain ⟨hwait, hpending⟩ : s.loop.point f.1 = .waiting f.2 ∧ s.loop.future f.2 = .pending := by
    simpa [isLive] using hlive
  refine ⟨fun _ _ => hset hpending, fun u error hu => ?_⟩
  rw [hp u] at hu
  have hsame : u = f.1 := queued.distinct u f.1 f.2 (by simp [hu, Point.event])
    (by simp [hwait, Point.event])
  rw [hsame, hwait] at hu
  cases hu

end Safe

section Notified
variable {s s' : State τ} {h : History} {t : τ} {a : Action τ} {o : Outcome Point Unit}

/-- A step that records nothing. -/
theorem Notified.keep (notified : Notified s h) (queued : Queued s) (change : Change s a s' o)
    (hn : s.loop.nextFuture ≤ s'.loop.nextFuture)
    (hevent : ∀ e, e < s.loop.nextFuture → ∀ u, (s'.loop.point u).event = some e →
      (s.loop.point u).event = some e) : Notified s' h := by
  refine ⟨fun e he => ?_, fun r hr hlive => ?_, fun r hr => ?_⟩
  · obtain ⟨hlt, hnot⟩ := notified.settled e he
    exact ⟨Nat.lt_of_lt_of_le hlt hn, fun u hu => hnot u (hevent e hlt u hu)⟩
  · obtain ⟨safe, hnot⟩ := notified.woken r hr hlive
    exact ⟨safe.step queued (notified.created r hr) change, hnot⟩
  · exact Nat.lt_of_lt_of_le (notified.created r hr) hn

/-- The events that were in use before a step are in use by the same tasks after it. -/
theorem Change.event (change : Change s a s' o) :
    s.loop.nextFuture ≤ s'.loop.nextFuture ∧ ∀ e, e < s.loop.nextFuture →
      ∀ u, (s'.loop.point u).event = some e → (s.loop.point u).event = some e := by
  have same : (∀ u, s'.loop.point u = s.loop.point u) → ∀ e, e < s.loop.nextFuture →
      ∀ u, (s'.loop.point u).event = some e → (s.loop.point u).event = some e :=
    fun hp e _ u he => hp u ▸ he
  -- only the task of the step moves, and it gets no event that is not new
  have move : ∀ t, (∀ u, u ≠ t → s'.loop.point u = s.loop.point u) →
      (∀ e, e < s.loop.nextFuture → (s'.loop.point t).event = some e →
        (s.loop.point t).event = some e) →
      ∀ e, e < s.loop.nextFuture → ∀ u, (s'.loop.point u).event = some e →
        (s.loop.point u).event = some e := by
    intro t hother hself e he u hu
    by_cases hut : u = t
    · exact hut ▸ hself e he (hut ▸ hu)
    · exact hother u hut ▸ hu
  cases change with
  | refused => exact ⟨le_rfl, same fun _ => rfl⟩
  | released => exact ⟨le_rfl, same fun _ => rfl⟩
  | @started t =>
      exact ⟨le_rfl, move t (fun u hu => by simp [hu]) (by simp [Point.event])⟩
  | notified =>
      rw [popAndSet_eq] at same ⊢
      exact ⟨by simp, same (by simp)⟩
  | notifiedAll => exact ⟨by simp, same (by simp)⟩
  | interruptedInLock => exact ⟨le_rfl, same fun _ => rfl⟩
  | interrupted => exact ⟨by simp, same (by simp)⟩
  | @refusedWait t =>
      exact ⟨le_rfl, move t (fun u hu => by simp [wake, hu]) (by simp [wake, Point.event])⟩
  | @waiting t lock =>
      refine ⟨Nat.le_succ _, move t (fun u hu => by simp [wake, hu]) fun e he hself => ?_⟩
      have heq : s.loop.nextFuture = e := by simpa [Point.event] using hself
      exact absurd heq he.ne'
  | @left t e =>
      exact ⟨Nat.le_succ _, move t (fun u hu => by simp [register, wake, hu])
        (by simp [register, wake, Point.event])⟩
  | @locked a b t m p done r call =>
      have entered := call.entered
      have hpoint : ∀ u, u ≠ t → m.loop.point u = s.loop.point u := fun u hu =>
        congrArg Task.point (entered.task u hu)
      obtain ⟨lock, lo⟩ := r
      cases lo with
      | returned v =>
          exact ⟨entered.nextFuture.ge, move t
            (fun u hu => by simp [afterLock, wake, hu, hpoint u hu])
            (by simp [afterLock, wake, Point.event])⟩
      | raised e =>
          exact ⟨entered.nextFuture.ge, move t
            (fun u hu => by simp [afterLock, wake, hu, hpoint u hu])
            (by simp [afterLock, wake, Point.event])⟩
      | suspended q =>
          exact ⟨entered.nextFuture.ge, move t (fun u hu => by simp [afterLock, hu, hpoint u hu])
            (by simp [afterLock, entered.event])⟩

/-- A call that ends with an exception is over. -/
theorem Change.outside {error : Error} (change : Change s (.resume t) s' (.raised error)) :
    s'.loop.point t = .outside := by
  generalize ha : Action.resume t = a at change
  generalize ho : (Outcome.raised error : Outcome Point Unit) = o at change
  cases change with
  | refused hne => exact absurd ha.symm (hne t)
  | refusedWait => cases ha; simp [wake]
  | left => cases ha; simp [register, wake]
  | @locked a b u m p done r call =>
      obtain rfl : u = t := by cases call <;> cases ha <;> rfl
      obtain ⟨lock, lo⟩ := r
      cases lo with
      | returned v => simp [afterLock, wake]
      | raised e => simp [afterLock, wake]
      | suspended q => cases ho
  | _ => cases ho

/-- The first events of the deque are removed. -/
theorem Notified.notify (notified : Notified s h) (queued : Queued s) (change : Change s a s' o)
    (n : Nat) (hp : ∀ u, s'.loop.point u = s.loop.point u)
    (hnext : s'.loop.nextFuture = s.loop.nextFuture)
    (hset : ∀ f ∈ s.waiters.take n, s.loop.future f.2 = .pending →
      s'.loop.future f.2 = .finished) : Notified s' (h.notify s n) := by
  have kept := notified.keep queued change hnext.ge fun e _ u he => hp u ▸ he
  refine ⟨kept.settled, fun r hr hlive => ?_, fun r hr => ?_⟩
  · rcases List.mem_append.mp hr with hr | hr
    · exact kept.woken r hr hlive
    · obtain ⟨f, hf, rfl⟩ := List.mem_map.mp hr
      refine ⟨.of_set queued hlive hp (hset f hf), fun hraised => ?_⟩
      have hwait : s.loop.point f.1 = .waiting f.2 := by
        have hlive : isLive s f = true := hlive
        simp only [isLive, decide_eq_true_eq] at hlive
        exact hlive.1
      exact (notified.settled f.2 hraised).2 f.1 (by simp [hwait, Point.event])
  · rcases List.mem_append.mp hr with hr | hr
    · exact kept.created r hr
    · obtain ⟨f, hf, rfl⟩ := List.mem_map.mp hr
      exact hnext ▸ queued.fresh f (List.mem_of_mem_take hf)

omit [DecidableEq τ] in
/-- The wait for an event that nobody uses any more ended with an exception. -/
theorem Notified.raise (notified : Notified s h) {e : FutureId} (hlt : e < s.loop.nextFuture)
    (hnobody : ∀ u, (s.loop.point u).event ≠ some e)
    (hsafe : ∀ r ∈ h.removed, r.live = true → r.event ≠ e) : Notified s (h.raise e) := by
  refine ⟨fun f hf => ?_, fun r hr hlive => ?_, notified.created⟩
  · rcases List.mem_append.mp hf with hf | hf
    · exact notified.settled f hf
    · exact List.mem_singleton.mp hf ▸ ⟨hlt, hnobody⟩
  · obtain ⟨safe, hnot⟩ := notified.woken r hr hlive
    refine ⟨safe, fun hin => ?_⟩
    rcases List.mem_append.mp hin with hin | hin
    · exact hnot hin
    · exact hsafe r hr hlive (List.mem_singleton.mp hin)

/-- A wait with an event ends with an exception. -/
theorem Notified.end (notified : Notified s h) (lw : Lockwise s) (queued : Queued s)
    {error : Error} (change : Change s (.resume t) s' (.raised error)) {e : FutureId}
    (he : (s.loop.point t).event = some e) : Notified s' (h.raise e) := by
  obtain ⟨hn, hevent⟩ := change.event
  have hlt := queued.created t e he
  refine (notified.keep queued change hn hevent).raise (Nat.lt_of_lt_of_le hlt hn)
    (fun u hu => ?_) fun r hr hlive heq => ?_
  · have hut : u = t := queued.distinct u t e (hevent e hlt u hu) he
    rw [hut, change.outside] at hu
    simp [Point.event] at hu
  · exact (notified.woken r hr hlive).1.not_raised lw queued change (heq ▸ he)

/-- The call of `wait()` raises at its `release()`, and its event stays in the deque. -/
theorem Notified.orphan (notified : Notified s h) (queued : Queued s) {error : Error}
    (change : Change s (.resume t) s' (.raised error)) (hp : s.loop.point t = .waitCheckpoint)
    (hthrow : s.loop.throws t = false) : Notified s' (h.raise s.loop.nextFuture) := by
  obtain ⟨hn, hevent⟩ := change.event
  have kept := notified.keep queued change hn hevent
  obtain ⟨hnext, hpoint⟩ : s'.loop.nextFuture = s.loop.nextFuture + 1 ∧
      ∀ u, (s'.loop.point u).event ≠ some s.loop.nextFuture := by
    generalize ha : Action.resume t = a at change
    generalize ho : (Outcome.raised error : Outcome Point Unit) = o at change
    cases change with
    | refused hne => exact absurd ha.symm (hne t)
    | refusedWait _ hthrow' => cases ha; simp [hthrow] at hthrow'
    | left =>
        cases ha
        refine ⟨rfl, fun u hu => ?_⟩
        by_cases hut : u = t
        · simp [hut, register, wake, Point.event] at hu
        · have hu : (s.loop.point u).event = some s.loop.nextFuture := by
            simpa [hut, register, wake] using hu
          exact absurd (queued.created u _ hu) (lt_irrefl _)
    | @locked a b u m p done r call =>
        obtain rfl : u = t := by cases call <;> cases ha <;> rfl
        have hevent := call.entered.event
        have hin := call.entered.inLock
        cases call <;> simp_all
    | _ => cases ho
  apply kept.raise (hnext ▸ Nat.lt_succ_self _) hpoint
  intro r hr _
  exact (notified.created r hr).ne

theorem Notified.resume (notified : Notified s h) (lw : Lockwise s) (queued : Queued s)
    (change : Change s (.resume t) s' o) :
    Notified s' (recordWake h s t (s.loop.point t) o) := by
  obtain ⟨hn, hevent⟩ := change.event
  have kept := notified.keep queued change hn hevent
  unfold recordWake
  split
  · exact notified.end lw queued change (by simp [*, Point.event])
  · exact notified.end lw queued change (by simp [*, Point.event])
  · rename_i hp
    split_ifs with hthrow
    · exact kept
    · exact notified.orphan queued change hp (by simpa using hthrow)
  · exact kept

theorem Notified.step (notified : Notified s h) (lw : Lockwise s) (queued : Queued s)
    (hs : step s a = some (s', o)) : Notified s' (record h s a o) := by
  have change := step_change lw hs
  obtain ⟨hn, hevent⟩ := change.event
  have kept := notified.keep queued change hn hevent
  cases a with
  | notify t n =>
      generalize ha : Action.notify t n = a at change
      cases change with
      | refused => cases ha; exact kept
      | notified =>
          cases ha
          refine notified.notify queued (step_change lw hs) _ (by simp [popAndSet_eq])
            (by simp [popAndSet_eq]) fun f hf hpending => ?_
          have hmem : f.2 ∈ (s.waiters.take n.toNat).map Prod.snd := List.mem_map_of_mem hf
          simp only [popAndSet_eq, setEvents_future, hmem, hpending, and_self, if_true]
      | locked call => cases call <;> cases ha
      | _ => cases ha
  | notifyAll t =>
      generalize ha : Action.notifyAll t = a at change
      cases change with
      | refused => cases ha; exact kept
      | notifiedAll =>
          cases ha
          refine notified.notify queued (step_change lw hs) _ (by simp) (by simp)
            fun f hf hpending => ?_
          have hmem : f.2 ∈ s.waiters.map Prod.snd :=
            List.mem_map_of_mem (List.mem_of_mem_take hf)
          simp only [setEvents_future, hmem, hpending, and_self, if_true]
      | locked call => cases call <;> cases ha
      | _ => cases ha
  | resume t => exact notified.resume lw queued change
  | _ => exact kept

end Notified

omit [DecidableEq τ] in
theorem Notified.initial (taskId : τ → TaskId) (fastAcquire : Bool) :
    Notified (initial taskId fastAcquire) .empty where
  settled _ h := absurd h List.not_mem_nil
  woken _ h := absurd h List.not_mem_nil
  created _ h := absurd h List.not_mem_nil

/-- A waiter that was gone when its event was removed left no live waiter behind. -/
def LeavesNobody (h : History) : Prop := ∀ r ∈ h.removed, r.live = false → r.left = []

section Count
variable {s s' : State τ} {h : History} {t : τ} {a : Action τ} {o : Outcome Point Unit} {n : Nat}

omit [DecidableEq τ] in
theorem recordWake_removed {p : Point} : (recordWake h s t p o).removed = h.removed := by
  unfold recordWake
  split
  · rfl
  · rfl
  · split_ifs <;> rfl
  · rfl

omit [DecidableEq τ] in
theorem LeavesNobody.notify (leaves : LeavesNobody h) (removes : RemovesLive s n) :
    LeavesNobody (h.notify s n) := by
  intro r hr hlive
  rcases List.mem_append.mp hr with hr | hr
  · exact leaves r hr hlive
  · obtain ⟨e, he, rfl⟩ := List.mem_map.mp hr
    rcases removes with hall | hnone
    · simp [hall e he] at hlive
    · simp [hnone]

/-- A call of `notify()` that returns was made by a task that passes for the owner. -/
theorem notify_returned {i : Int} (hs : step s (.notify t i) = some (s', .returned ())) :
    s.ownerTask = some (s.taskId t) ∧ s' = popAndSet i.toNat s := by
  obtain ⟨-, hs⟩ := Option.ite_none_right_eq_some.mp hs
  unfold notify at hs
  split_ifs at hs with howner <;> cases hs
  exact ⟨not_not.mp howner, rfl⟩

theorem LeavesNobody.step (leaves : LeavesNobody h) (ok : NotifiesLive s a)
    (hs : step s a = some (s', o)) : LeavesNobody (record h s a o) := by
  cases a with
  | notify t i =>
      cases o with
      | returned v => exact leaves.notify (ok (notify_returned hs).1)
      | raised e => exact leaves
      | suspended p => exact leaves
  | notifyAll t =>
      cases o with
      | returned v => exact leaves.notify (.inr (by simp))
      | raised e => exact leaves
      | suspended p => exact leaves
  | resume t =>
      intro r hr
      exact leaves r (recordWake_removed ▸ hr)
  | _ => exact leaves

omit [DecidableEq τ] in
/-- The live waiters among the first `n` are woken, and no other one is. -/
theorem filter_isWoken (queued : Queued s) : s.waiters.filter (isWoken s (popAndSet n s)) =
    (s.waiters.take n).filter (isLive s) := by
  have hsplit : s.waiters.take n ++ s.waiters.drop n = s.waiters := List.take_append_drop n _
  have hfuture : ∀ e : τ × FutureId, isWoken s (popAndSet n s) e = true ↔
      isLive s e = true ∧ e.2 ∈ (s.waiters.take n).map Prod.snd := by
    intro e
    have hlive : isLive s e = true ↔
        s.loop.point e.1 = .waiting e.2 ∧ s.loop.future e.2 = .pending := by simp [isLive]
    simp only [isWoken, Bool.and_eq_true, decide_eq_true_eq, popAndSet_eq, setEvents_future]
    apply and_congr_right
    intro h
    simp [(hlive.mp h).2]
  have htake : (s.waiters.take n).filter (isWoken s (popAndSet n s)) =
      (s.waiters.take n).filter (isLive s) := by
    apply List.filter_congr
    intro e he
    rw [Bool.eq_iff_iff, hfuture]
    exact and_iff_left (List.mem_map_of_mem he)
  have hdrop : (s.waiters.drop n).filter (isWoken s (popAndSet n s)) = [] := by
    apply List.filter_eq_nil_iff.mpr
    intro e he
    rw [hfuture]
    rintro ⟨-, hmem⟩
    obtain ⟨f, hf, heq⟩ := List.mem_map.mp hmem
    have hlt : f.2 < e.2 := (List.pairwise_append.mp (hsplit ▸ queued.ordered)).2.2 f hf e he
    exact absurd heq hlt.ne
  calc s.waiters.filter (isWoken s (popAndSet n s))
      = (s.waiters.take n).filter (isWoken s (popAndSet n s)) ++
          (s.waiters.drop n).filter (isWoken s (popAndSet n s)) := by
        rw [← List.filter_append, hsplit]
    _ = (s.waiters.take n).filter (isLive s) := by rw [htake, hdrop, List.append_nil]

omit [DecidableEq τ] in
/-- `min(n, live waiters)` of the first `n` waiters are live exactly if no waiter that is gone
takes the place of a live one. -/
theorem removesLive_iff : ((s.waiters.take n).filter (isLive s)).length =
    min n (s.waiters.filter (isLive s)).length ↔ RemovesLive s n := by
  have hsum : (s.waiters.filter (isLive s)).length =
      ((s.waiters.take n).filter (isLive s)).length +
        ((s.waiters.drop n).filter (isLive s)).length := by
    rw [← List.length_append, ← List.filter_append, List.take_append_drop]
  have htake : ((s.waiters.take n).filter (isLive s)).length ≤ (s.waiters.take n).length :=
    List.length_filter_le _ _
  have hlen : (s.waiters.take n).length = min n s.waiters.length := List.length_take
  have hall : (∀ e ∈ s.waiters.take n, isLive s e = true) ↔
      ((s.waiters.take n).filter (isLive s)).length = (s.waiters.take n).length :=
    List.length_filter_eq_length_iff.symm
  have hnone : (s.waiters.drop n).filter (isLive s) = [] ↔
      ((s.waiters.drop n).filter (isLive s)).length = 0 := List.length_eq_zero_iff.symm
  have hdrop : ((s.waiters.drop n).filter (isLive s)).length ≤ s.waiters.length - n := by
    simpa using List.length_filter_le (isLive s) (s.waiters.drop n)
  unfold RemovesLive
  rw [hall, hnone]
  omega

end Count

section Runs
variable {s : State τ} {h : History} {taskId : τ → TaskId} {fastAcquire : Bool}

/-- What holds in every state of a run, whatever its notifications. -/
structure Registered (s : State τ) (h : History) : Prop where
  lockwise : Lockwise s
  queued : Queued s
  notified : Notified s h

theorem Registered.of_run {allowed : State τ × History → Action τ → Prop}
    (run : (recorded τ).Reachable allowed (initial taskId fastAcquire, .empty) (s, h)) :
    Registered s h := by
  refine run.invariant_history (I := Registered)
    ⟨.initial taskId fastAcquire, .initial taskId fastAcquire, .initial taskId fastAcquire⟩ ?_
  intro s h a s' o reg _ hs
  have change := step_change reg.lockwise hs
  exact ⟨reg.lockwise.step change, reg.queued.step change,
    reg.notified.step reg.lockwise reg.queued hs⟩

theorem LeavesNobody.of_run (run : (recorded τ).Reachable (fun p a => NotifiesLive p.1 a)
    (initial taskId fastAcquire, .empty) (s, h)) : LeavesNobody h :=
  run.invariant_history (I := fun _ h => LeavesNobody h)
    (fun _ hr => absurd hr List.not_mem_nil) fun _ _ _ _ _ leaves ok hs => leaves.step ok hs

/-- In a run in which no event of a waiter that is gone is removed while a live waiter stays in
the deque: a removed event whose `wait()` ended with an exception left no live waiter behind, no
live waiter that was notified got an exception, and `notify(n)` wakes `min(n, live waiters)`
tasks exactly if it meets the condition as well. -/
theorem notification_kept (run : (recorded τ).Reachable (fun p a => NotifiesLive p.1 a)
    (initial taskId fastAcquire, .empty) (s, h)) :
    (∀ r ∈ h.removed, r.event ∈ h.raised → r.left = []) ∧
      (∀ r ∈ h.removed, r.live = true → r.event ∉ h.raised) ∧
      ∀ t n s', step s (.notify t n) = some (s', .returned ()) →
        ((s.waiters.filter (isWoken s s')).length =
            min n.toNat (s.waiters.filter (isLive s)).length ↔
          NotifiesLive s (.notify t n)) := by
  have reg := Registered.of_run run
  refine ⟨fun r hr hraised => ?_, fun r hr hlive => (reg.notified.woken r hr hlive).2,
    fun t n s' hs => ?_⟩
  · cases hlive : r.live with
    | true => exact absurd hraised (reg.notified.woken r hr hlive).2
    | false => exact LeavesNobody.of_run run r hr hlive
  · obtain ⟨howner, rfl⟩ := notify_returned hs
    rw [filter_isWoken reg.queued, removesLive_iff]
    exact ⟨fun removes _ => removes, fun ok => ok howner⟩

end Runs

/-- Tasks 0 and 1 wait, and task 0 is cancelled; before it resumes, task 2 takes the lock. -/
def cancelledFirst : State (Fin 3) × History :=
  ((recorded (Fin 3)).exec Machine.anyStep (initial Fin.val false, .empty)
    [.acquire 0 false, .resume 0, .wait 0, .resume 0, .acquire 1 false, .resume 1, .wait 1,
      .resume 1, .interrupt 0, .acquire 2 false, .resume 2]).get (by decide)

/-- From there, task 2 notifies one waiter and releases the lock, and task 0 leaves `wait()`. -/
def lostNotification : State (Fin 3) × History :=
  ((recorded (Fin 3)).exec Machine.anyStep cancelledFirst
    [.notify 2 1, .release 2, .resume 0, .resume 0]).get (by decide)

/-- The notification goes to the cancelled waiter alone, whose `wait()` raises, and the live
waiter stays suspended with no wake-up queued. -/
theorem notification_lost :
    (recorded (Fin 3)).Reachable Machine.anyStep (initial Fin.val false, .empty)
        lostNotification ∧
      lostNotification.2.removed = [⟨0, false, [1]⟩] ∧ lostNotification.2.raised = [0] ∧
      lostNotification.1.waiters.filter (isLive lostNotification.1) = [(1, 1)] ∧
      (∀ t, wakeUpQueued lostNotification.1 t = false) ∧
      (step cancelledFirst.1 (.notify 2 1)).map (fun r =>
          (cancelledFirst.1.waiters.filter (isWoken cancelledFirst.1 r.1)).length) = some 0 ∧
      min 1 (cancelledFirst.1.waiters.filter (isLive cancelledFirst.1)).length = 1 := by
  have first : (recorded (Fin 3)).Reachable Machine.anyStep (initial Fin.val false, .empty)
      cancelledFirst := Machine.exec_get_reachable _ _ _
  refine ⟨Machine.exec_reachable_from first (Option.some_get _).symm, ?_⟩
  decide

/-- Task 0 is notified while it waits; task 1 is cancelled and then notified, when nobody else
waits. -/
def servedThenCancelled : State (Fin 3) × History :=
  ((recorded (Fin 3)).exec (fun p a => NotifiesLive p.1 a) (initial Fin.val false, .empty)
    [.acquire 0 false, .resume 0, .wait 0, .resume 0, .acquire 1 false, .resume 1, .wait 1,
      .resume 1, .acquire 2 false, .resume 2, .notify 2 1, .interrupt 1, .notify 2 1, .release 2,
      .resume 0, .resume 1, .resume 0, .release 0, .resume 1]).get (by decide)

theorem notification_kept_served :
    servedThenCancelled.2.removed = [⟨0, true, [1]⟩, ⟨1, false, []⟩] ∧
      servedThenCancelled.2.raised = [1] ∧
      (∀ r ∈ servedThenCancelled.2.removed, r.event ∈ servedThenCancelled.2.raised →
        r.left = []) ∧
      ∀ r ∈ servedThenCancelled.2.removed, r.live = true →
        r.event ∉ servedThenCancelled.2.raised := by
  have run : (recorded (Fin 3)).Reachable (fun p a => NotifiesLive p.1 a)
      (initial Fin.val false, .empty) servedThenCancelled := Machine.exec_get_reachable _ _ _
  have kept := notification_kept (s := servedThenCancelled.1) (h := servedThenCancelled.2) run
  exact ⟨by decide, by decide, kept.1, kept.2.1⟩

end Anyio.Condition
