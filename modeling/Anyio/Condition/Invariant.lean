import Anyio.Condition.Model
import Anyio.Lock.Steps

/-!
# The invariant of a `Condition`

Every step of a condition is a step of its lock or leaves the lock as it is, so
the lock behaves as one on its own. A task that waits for a notification does
not hold the lock, and nothing interrupts a task that is on its way back to it.
-/

namespace Anyio.Condition

open Asyncio Library

variable {τ : Type*} [DecidableEq τ]

/-- The event a call waits or has waited for. -/
def Point.event : Point → Option FutureId
  | .waiting event => some event
  | .reacquiring event _ => some event
  | _ => none

section SetEvents
omit [DecidableEq τ]
variable (s : State τ) (events : List (τ × FutureId))

@[simp] theorem setEvents_lock : (setEvents s events).lock = s.lock := by
  induction events generalizing s with
  | nil => rfl
  | cons e rest ih => exact ih (setEvent s e.2)

@[simp] theorem setEvents_task : (setEvents s events).loop.task = s.loop.task := by
  induction events generalizing s with
  | nil => rfl
  | cons e rest ih => exact (ih (setEvent s e.2)).trans (Loop.setEvent_task s.loop e.2)

@[simp] theorem setEvents_point (t : τ) : (setEvents s events).loop.point t = s.loop.point t :=
  congrArg (fun task => (task t).point) (setEvents_task s events)

@[simp] theorem setEvents_nextFuture :
    (setEvents s events).loop.nextFuture = s.loop.nextFuture := by
  induction events generalizing s with
  | nil => rfl
  | cons e rest ih => exact (ih (setEvent s e.2)).trans (Loop.setEvent_nextFuture s.loop e.2)

/-- The pending futures of the events are finished, and no other one is changed. -/
theorem setEvents_future (f : FutureId) : (setEvents s events).loop.future f =
    if f ∈ events.map Prod.snd ∧ s.loop.future f = .pending then .finished
    else s.loop.future f := by
  induction events generalizing s with
  | nil => simp [setEvents]
  | cons e rest ih =>
      apply (ih (setEvent s e.2)).trans
      have hset : (setEvent s e.2).loop.future f =
          if f = e.2 ∧ s.loop.future e.2 = .pending then .finished else s.loop.future f :=
        Loop.setEvent_future s.loop e.2 f
      by_cases he : f = e.2
      · subst he
        rw [hset]
        by_cases hf : s.loop.future e.2 = .pending
        · simp [hf]
        · simp [hf]
      · rw [hset.trans (if_neg fun h => he h.1)]
        simp only [List.map_cons, List.mem_cons, he, false_or]

theorem setEvents_waiters (w : List (τ × FutureId)) :
    setEvents { s with waiters := w } events = { setEvents s events with waiters := w } := by
  induction events generalizing s with
  | nil => rfl
  | cons e rest ih => exact ih (setEvent s e.2)

/-- `notify()` sets the events on the left, and leaves the other ones in the deque. -/
theorem popAndSet_eq (n : Nat) : popAndSet n s =
    { setEvents s (s.waiters.take n) with waiters := s.waiters.drop n } := by
  induction n generalizing s with
  | zero => rfl
  | succ n ih =>
      obtain ⟨taskId, lock, owner, waiters, isSet, loop⟩ := s
      cases waiters with
      | nil => rfl
      | cons e rest =>
          change popAndSet n (setEvent ⟨taskId, lock, owner, rest, isSet, loop⟩ e.2) = _
          rw [ih]
          exact congrArg (fun m : State τ => { m with waiters := rest.drop n })
            (setEvents_waiters (setEvent ⟨taskId, lock, owner, e :: rest, isSet, loop⟩ e.2)
              (rest.take n) rest)

end SetEvents

/-- The call that makes step `b` of the lock: from which state `m`, at which point of the
condition it waits, and how the call of the condition ends with it. -/
inductive LockCall (s : State τ) (t : τ) :
    Action τ → Lock.Action τ → State τ → Point → Outcome Point Unit → Prop
  | acquire {c} (hfrom : s.loop.point t = .outside) :
      LockCall s t (.acquire t c) (.acquire t c) s .acquiring (.returned ())
  | acquireNowait (hfrom : s.loop.point t = .outside) :
      LockCall s t (.acquireNowait t) (.acquireNowait t) s .acquiring (.returned ())
  | acquiring (hp : s.loop.point t = .acquiring) :
      LockCall s t (.resume t) (.resume t) s .acquiring (.returned ())
  | reacquiring {event error} (hp : s.loop.point t = .reacquiring event error) :
      LockCall s t (.resume t) (.resume t) s (.reacquiring event error) (finish error)
  | woken {event} (hp : s.loop.point t = .waiting event) (hthrow : s.loop.throws t = false) :
      LockCall s t (.resume t) (.acquire t false) (wake s t) (.reacquiring event none)
        (.returned ())
  | interrupted {event} (hp : s.loop.point t = .waiting event)
      (hthrow : s.loop.throws t = true) :
      LockCall s t (.resume t) (.acquire t false) (forget (wake s t) t event).1
        (.reacquiring event (some (forget (wake s t) t event).2))
        (.raised (forget (wake s t) t event).2)

/-- A step of the lock by task `t`. -/
def LockStep (s : State τ) (t : τ) (r : Lock.State τ × Outcome Lock.Point Unit) : Prop :=
  ∃ a, a.task = t ∧ Lock.step s.lock a = some r

/-- `wait()` has put its new event into the deque. -/
def register (s : State τ) (t : τ) : State τ :=
  { s with
    waiters := s.waiters ++ [(t, s.loop.nextFuture)]
    isSet := Function.update s.isSet s.loop.nextFuture false
    loop := s.loop.createFuture }

/-- The steps of a condition. -/
inductive Change (s : State τ) : Action τ → State τ → Outcome Point Unit → Prop
  | refused {a e} (ha : ∀ t, a ≠ .resume t) : Change s a s (.raised e)
  | released {t lock} (hfrom : s.loop.point t = .outside)
      (call : LockStep s t (lock, .returned ())) :
      Change s (.release t) { s with lock := lock } (.returned ())
  | started {t} (hfrom : s.loop.point t = .outside) :
      Change s (.wait t) { s with loop := s.loop.moveTo t .waitCheckpoint }
        (.suspended .waitCheckpoint)
  | notified {t n} : Change s (.notify t n) (popAndSet n.toNat s) (.returned ())
  | notifiedAll {t} : Change s (.notifyAll t) { setEvents s s.waiters with waiters := [] }
      (.returned ())
  | interruptedInLock {t lock o} (hp : s.loop.point t = .acquiring) (call : LockStep s t (lock, o))
      (hin : lock.loop.point t ≠ .outside) :
      Change s (.interrupt t) { s with lock := lock } (.suspended .acquiring)
  | interrupted {t} (h : interruptible s.loop t = true) :
      Change s (.interrupt t) { s with loop := s.loop.cancel t } (.suspended (s.loop.point t))
  | refusedWait {t} (hp : s.loop.point t = .waitCheckpoint) (hthrow : s.loop.throws t = true) :
      Change s (.resume t) (wake s t) (.raised .cancelledError)
  | waiting {t lock} (hp : s.loop.point t = .waitCheckpoint)
      (hthrow : s.loop.throws t = false) (call : LockStep s t (lock, .returned ()))
      (hfree : lock.ownerTask ≠ some t) :
      Change s (.resume t) { register (wake s t) t with
        lock := lock
        loop := (wake s t).loop.createFuture.moveTo t (.waiting s.loop.nextFuture) }
        (.suspended (.waiting s.loop.nextFuture))
  | left {t e} (hp : s.loop.point t = .waitCheckpoint) (hthrow : s.loop.throws t = false) :
      Change s (.resume t) (register (wake s t) t) (.raised e)
  | locked {a b t m p done r} (call : LockCall s t a b m p done)
      (hstep : Lock.step m.lock b = some r) :
      Change s a (afterLock m t p done r).1 (afterLock m t p done r).2

/-- What holds between the condition and its lock in every reachable state. -/
structure Lockwise (s : State τ) : Prop where
  lock : Lock.Inv s.lock
  frames : ∀ t, (s.loop.point t).inLock = true ↔ s.lock.loop.point t ≠ .outside
  parted : ∀ t e, s.loop.point t = .waiting e → s.lock.ownerTask ≠ some t
  shielded : ∀ t e error, s.loop.point t = .reacquiring e error →
    s.lock.loop.throws t = false ∧ s.lock.loop.point t ≠ .checkpointIfCancelled

omit [DecidableEq τ] in
theorem Lockwise.initial (taskId : τ → TaskId) (fastAcquire : Bool) :
    Lockwise (initial taskId fastAcquire) where
  lock := .initial fastAcquire
  frames _ := by simp [Condition.initial, Lock.initial, Loop.initial, Loop.point, Point.inLock]
  parted _ _ h := by cases h
  shielded _ _ _ h := by cases h

section Step
variable {s s' : State τ} {t : τ} {a : Action τ} {o : Outcome Point Unit}

omit [DecidableEq τ] in
theorem Lockwise.outside (lw : Lockwise s) (h : (s.loop.point t).inLock = false) :
    s.lock.loop.point t = .outside := by
  by_contra hp
  rw [(lw.frames t).mpr hp] at h
  cases h

/-- A release of the lock by its owner. -/
theorem LockStep.release (lw : Lockwise s) (h : (s.loop.point t).inLock = false)
    {lock : Lock.State τ} (hr : Lock.release s.lock t = .ok lock) :
    LockStep s t (lock, .returned ()) :=
  ⟨.release t, rfl, by simp [Lock.step, lw.outside h, hr]⟩

theorem release_eq_ok : release s t = .ok s' ↔
    ∃ lock, Lock.release s.lock t = .ok lock ∧ s' = { s with lock := lock } := by
  unfold release
  cases Lock.release s.lock t with
  | error e => simp [Except.map]
  | ok lock => simp [Except.map, eq_comm]

theorem forget_lock (s : State τ) (t : τ) (event : FutureId) :
    (forget s t event).1.lock = s.lock := by
  unfold forget
  split_ifs <;> rfl

theorem Change.resume (lw : Lockwise s) (hwake : wakeUpQueued s t = true) :
    Change s (.resume t) (resume s t).1 (resume s t).2 := by
  unfold Condition.resume
  cases hp : s.loop.point t with
  | outside => simp [wakeUpQueued, hp, Point.inLock, Loop.wakeUpQueued, Loop.waits,
      Coroutine.waits] at hwake
  | acquiring =>
      have hqueued : s.lock.loop.wakeUpQueued t = true := by
        simpa [wakeUpQueued, hp, Point.inLock] using hwake
      exact .locked (.acquiring hp) (by simp [Lock.step, hqueued])
  | reacquiring event error =>
      have hqueued : s.lock.loop.wakeUpQueued t = true := by
        simpa [wakeUpQueued, hp, Point.inLock] using hwake
      exact .locked (.reacquiring hp) (by simp [Lock.step, hqueued])
  | waitCheckpoint =>
      simp only
      split_ifs with hthrow
      · exact .refusedWait hp hthrow
      · have hthrow : s.loop.throws t = false := by simpa using hthrow
        have hout : s.lock.loop.point t = .outside := lw.outside (by simp [hp, Point.inLock])
        unfold waitAfterCheckpoint
        simp only
        split
        · rename_i s'' hrelease
          obtain ⟨lock, hlock, rfl⟩ := release_eq_ok.mp hrelease
          have hlock : Lock.release s.lock t = .ok lock := hlock
          exact .waiting hp hthrow (.release lw (by simp [hp, Point.inLock]) hlock)
            (Lock.release_owner_ne lw.lock hout hlock)
        · exact .left hp hthrow
  | waiting event =>
      have hout : s.lock.loop.point t = .outside := lw.outside (by simp [hp, Point.inLock])
      simp only
      split_ifs with hthrow
      · exact .locked (.interrupted hp hthrow)
          (by simp [Lock.step, forget_lock, wake, hout])
      · exact .locked (.woken hp (by simpa using hthrow))
          (by simp [Lock.step, wake, hout])

theorem step_change (lw : Lockwise s) (hs : step s a = some (s', o)) : Change s a s' o := by
  cases a with
  | acquire t c =>
      obtain ⟨hfrom, hs⟩ := Option.ite_none_right_eq_some.mp hs
      have hout := lw.outside (t := t) (by simp [hfrom, Point.inLock])
      have change := Change.locked (r := Lock.acquire s.lock t c) (.acquire (c := c) hfrom)
        (by simp only [Lock.step, hout, if_true])
      rwa [← acquire, Option.some.inj hs] at change
  | acquireNowait t =>
      obtain ⟨hfrom, hs⟩ := Option.ite_none_right_eq_some.mp hs
      have hout := lw.outside (t := t) (by simp [hfrom, Point.inLock])
      have change := Change.locked (r := Lock.acquireNowait s.lock t) (.acquireNowait hfrom)
        (by simp only [Lock.step, hout, if_true])
      rwa [← acquireNowait, Option.some.inj hs] at change
  | release t =>
      obtain ⟨hfrom, hs⟩ := Option.ite_none_right_eq_some.mp hs
      split at hs
      · rename_i s'' hrelease
        cases hs
        obtain ⟨lock, hlock, rfl⟩ := release_eq_ok.mp hrelease
        exact .released hfrom (.release lw (by simp [hfrom, Point.inLock]) hlock)
      · cases hs
        exact .refused (by simp)
  | wait t =>
      obtain ⟨hfrom, hs⟩ := Option.ite_none_right_eq_some.mp hs
      cases hs
      exact .started hfrom
  | notify t n =>
      obtain ⟨-, hs⟩ := Option.ite_none_right_eq_some.mp hs
      unfold notify at hs
      split_ifs at hs <;> cases hs
      · exact .refused (by simp)
      · exact .notified
  | notifyAll t =>
      obtain ⟨-, hs⟩ := Option.ite_none_right_eq_some.mp hs
      unfold notifyAll at hs
      split_ifs at hs <;> cases hs
      · exact .refused (by simp)
      · exact .notifiedAll
  | interrupt t =>
      simp only [step] at hs
      split_ifs at hs with hp hint
      · obtain ⟨⟨lock, lo⟩, hr, heq⟩ := Option.map_eq_some_iff.mp hs
        cases heq
        have call : LockStep s t (lock, lo) := ⟨.cancel t, rfl, hr⟩
        refine .interruptedInLock hp call ?_
        obtain ⟨hin, hr⟩ := Option.ite_none_right_eq_some.mp hr
        cases hr
        simpa using hin
      · cases hs
        exact .interrupted hint
  | resume t =>
      obtain ⟨hwake, hs⟩ := Option.ite_none_right_eq_some.mp hs
      have change := Change.resume lw hwake
      rwa [Option.some.inj hs] at change

/-- What a call of the lock takes over from the state before it. -/
structure Entered (s m : State τ) (t : τ) (p : Point) : Prop where
  lock : m.lock = s.lock
  task : ∀ u, u ≠ t → m.loop.task u = s.loop.task u
  future : m.loop.future = s.loop.future
  nextFuture : m.loop.nextFuture = s.loop.nextFuture
  waiters : m.waiters.Sublist s.waiters
  event : p.event = (s.loop.point t).event
  inLock : p.inLock = true

theorem forget_loop (s : State τ) (t : τ) (event : FutureId) :
    (forget s t event).1.loop = s.loop := by
  unfold forget
  split_ifs <;> rfl

theorem forget_waiters (s : State τ) (t : τ) (event : FutureId) :
    (forget s t event).1.waiters.Sublist s.waiters := by
  unfold forget
  split_ifs
  · exact List.Sublist.refl _
  · exact List.erase_sublist
  · exact List.Sublist.refl _

variable {m : State τ} {p : Point} {done : Outcome Point Unit} {b : Lock.Action τ}

theorem LockCall.entered (call : LockCall s t a b m p done) : Entered s m t p := by
  have same : ∀ {q : Point}, q.event = (s.loop.point t).event → q.inLock = true →
      Entered s s t q := fun he hi =>
    ⟨rfl, fun _ _ => rfl, rfl, rfl, List.Sublist.refl _, he, hi⟩
  cases call with
  | acquire hfrom => exact same (by simp [hfrom, Point.event]) rfl
  | acquireNowait hfrom => exact same (by simp [hfrom, Point.event]) rfl
  | acquiring hp => exact same (by simp [hp]) rfl
  | reacquiring hp => exact same (by simp [hp]) rfl
  | woken hp =>
      exact ⟨rfl, fun u hu => Loop.resumeAt_task_of_ne hu _, rfl, rfl, List.Sublist.refl _,
        by simp [hp, Point.event], rfl⟩
  | interrupted hp =>
      refine ⟨forget_lock _ t _, fun u hu => ?_, ?_, ?_, forget_waiters _ t _,
        by simp [hp, Point.event], rfl⟩
      · rw [forget_loop]
        exact Loop.resumeAt_task_of_ne hu _
      · rw [forget_loop]
        rfl
      · rw [forget_loop]
        rfl

theorem LockCall.task (call : LockCall s t a b m p done) : b.task = t := by
  cases call <;> rfl

/-- A step of task `t` keeps what holds of the other tasks. -/
theorem Lockwise.transfer (lw : Lockwise s) (hlock : Lock.Inv s'.lock)
    (hother : ∀ u, u ≠ t → s'.loop.point u = s.loop.point u)
    (still : ∀ u, u ≠ t → Lock.Bystander s.lock s'.lock u)
    (hframe : (s'.loop.point t).inLock = true ↔ s'.lock.loop.point t ≠ .outside)
    (hparted : ∀ e, s'.loop.point t = .waiting e → s'.lock.ownerTask ≠ some t)
    (hshield : ∀ e error, s'.loop.point t = .reacquiring e error →
      s'.lock.loop.throws t = false ∧ s'.lock.loop.point t ≠ .checkpointIfCancelled) :
    Lockwise s' := by
  refine ⟨hlock, fun u => ?_, fun u e hu => ?_, fun u e error hu => ?_⟩
  · by_cases hut : u = t
    · exact hut ▸ hframe
    · rw [hother u hut, (still u hut).point]
      exact lw.frames u
  · by_cases hut : u = t
    · exact hut ▸ hparted e (hut ▸ hu)
    · rw [hother u hut] at hu
      intro ho
      rcases (still u hut).owner ho with ho | hp
      · exact lw.parted u e hu ho
      · exact hp (lw.outside (by simp [hu, Point.inLock]))
  · by_cases hut : u = t
    · exact hut ▸ hshield e error (hut ▸ hu)
    · rw [hother u hut] at hu
      obtain ⟨hthrow, hp⟩ := lw.shielded u e error hu
      exact ⟨(still u hut).throws hthrow, by rwa [(still u hut).point]⟩

omit [DecidableEq τ] in
/-- The lock and the points stay as they are. -/
theorem Lockwise.congr (lw : Lockwise s) (hl : s'.lock = s.lock)
    (hp : ∀ u, s'.loop.point u = s.loop.point u) : Lockwise s' := by
  refine ⟨hl ▸ lw.lock, fun u => ?_, fun u e hu => ?_, fun u e error hu => ?_⟩
  · rw [hp u, hl]
    exact lw.frames u
  · rw [hl]
    exact lw.parted u e (hp u ▸ hu)
  · rw [hl]
    exact lw.shielded u e error (hp u ▸ hu)

/-- A task that is outside of the lock moves to another point outside of it. -/
theorem Lockwise.move (lw : Lockwise s) (hl : s'.lock = s.lock)
    (hother : ∀ u, u ≠ t → s'.loop.point u = s.loop.point u)
    (hfrom : (s.loop.point t).inLock = false) (hto : (s'.loop.point t).inLock = false)
    (hwait : ∀ e, s'.loop.point t ≠ .waiting e) : Lockwise s' := by
  refine lw.transfer (t := t) (hl ▸ lw.lock) hother (fun u _ => hl ▸ .refl s.lock u) ?_
    (fun e he => absurd he (hwait e)) fun e error he => ?_
  · simp [hto, hl, lw.outside hfrom]
  · rw [he] at hto
    cases hto

/-- At the end of `wait()` the lock is acquired again: this does not fail, and is not interrupted
while it waits. -/
theorem LockCall.clean (call : LockCall s t a b m p done) (lw : Lockwise s)
    {lock : Lock.State τ} {lo : Outcome Lock.Point Unit}
    (hstep : Lock.step m.lock b = some (lock, lo)) {e : FutureId} {error : Option Error}
    (hp : p = .reacquiring e error) :
    (∀ e', lo ≠ .raised e') ∧ ∀ q, lo = .suspended q →
      lock.loop.throws t = false ∧ lock.loop.point t ≠ .checkpointIfCancelled := by
  rw [call.entered.lock] at hstep
  have hacquire : ∀ event, s.loop.point t = .waiting event → b = .acquire t false →
      (∀ e', lo ≠ .raised e') ∧ ∀ q, lo = .suspended q →
        lock.loop.throws t = false ∧ lock.loop.point t ≠ .checkpointIfCancelled := by
    rintro event hwait rfl
    obtain ⟨hout, hr⟩ := Option.ite_none_right_eq_some.mp hstep
    have clean := Lock.acquire_clean lw.lock hout (lw.parted t event hwait)
    rw [Option.some.inj hr] at clean
    exact ⟨clean.1, fun _ _ => clean.2⟩
  cases call with
  | acquire => cases hp
  | acquireNowait => cases hp
  | acquiring => cases hp
  | reacquiring hpt =>
      obtain ⟨-, hr⟩ := Option.ite_none_right_eq_some.mp hstep
      obtain ⟨hthrow, hne⟩ := lw.shielded t _ _ hpt
      have hdone := Lock.resume_clean hthrow hne
      rw [Option.some.inj hr] at hdone
      simp [show lo = .returned () from hdone]
  | woken hwait => exact hacquire _ hwait rfl
  | interrupted hwait => exact hacquire _ hwait rfl

theorem Lockwise.step (lw : Lockwise s) (change : Change s a s' o) : Lockwise s' := by
  cases change with
  | refused => exact lw
  | @released t lock hfrom call =>
      obtain ⟨b, rfl, hstep⟩ := call
      have hout : lock.loop.point b.task = .outside := Lock.EndsAt.step lw.lock hstep
      refine lw.transfer (t := b.task) (lw.lock.step hstep) (fun _ _ => rfl)
        (fun u hu => .step lw.lock hstep hu) ?_ ?_ ?_
      · simp [hfrom, Point.inLock, hout]
      · simp [hfrom]
      · simp [hfrom]
  | @started t hfrom =>
      exact lw.move (t := t) rfl (fun u hu => by simp [hu]) (by simp [hfrom, Point.inLock])
        (by simp [Point.inLock]) (by simp)
  | notified =>
      rw [popAndSet_eq]
      exact lw.congr (by simp) (by simp)
  | notifiedAll => exact lw.congr (by simp) (by simp)
  | @interruptedInLock t lock o hp call hin =>
      obtain ⟨b, rfl, hstep⟩ := call
      refine lw.transfer (t := b.task) (lw.lock.step hstep) (fun _ _ => rfl)
        (fun u hu => .step lw.lock hstep hu) ?_ ?_ ?_
      · simp [hp, Point.inLock, hin]
      · simp [hp]
      · simp [hp]
  | interrupted => exact lw.congr rfl (by simp)
  | @refusedWait t hp =>
      exact lw.move (t := t) rfl (fun u hu => by simp [wake, hu]) (by simp [hp, Point.inLock])
        (by simp [wake, Point.inLock]) (by simp [wake])
  | @waiting t lock hp _ call hfree =>
      obtain ⟨b, rfl, hstep⟩ := call
      have hout : lock.loop.point b.task = .outside := Lock.EndsAt.step lw.lock hstep
      refine lw.transfer (t := b.task) (lw.lock.step hstep) (fun u hu => by simp [wake, hu])
        (fun u hu => .step lw.lock hstep hu) ?_ (fun _ _ => hfree) ?_
      · simp [Point.inLock, hout]
      · simp
  | @left t e hp =>
      exact lw.move (t := t) rfl (fun u hu => by simp [register, wake, hu])
        (by simp [hp, Point.inLock]) (by simp [register, wake, Point.inLock])
        (by simp [register, wake])
  | @locked a b t m p done r call hstep =>
      have entered := call.entered
      have hl : m.lock = s.lock := entered.lock
      have hs : Lock.step s.lock b = some r := hl ▸ hstep
      have hpoint : ∀ u, u ≠ t → m.loop.point u = s.loop.point u := fun u hu =>
        congrArg Task.point (entered.task u hu)
      obtain ⟨lock, o⟩ := r
      have hends : Lock.EndsAt lock t o := call.task ▸ Lock.EndsAt.step lw.lock hs
      have hstill : ∀ u, u ≠ t → Lock.Bystander s.lock lock u := fun u hu =>
        .step lw.lock hs (call.task.symm ▸ hu)
      cases o with
      | returned v =>
          refine lw.transfer (t := t) (lw.lock.step hs)
            (fun u hu => by simp [afterLock, wake, hu, hpoint u hu]) hstill ?_ ?_ ?_
          · have hout : lock.loop.point t = .outside := hends
            simp [afterLock, wake, Point.inLock, hout]
          · simp [afterLock, wake]
          · simp [afterLock, wake]
      | raised e =>
          refine lw.transfer (t := t) (lw.lock.step hs)
            (fun u hu => by simp [afterLock, wake, hu, hpoint u hu]) hstill ?_ ?_ ?_
          · have hout : lock.loop.point t = .outside := hends
            simp [afterLock, wake, Point.inLock, hout]
          · simp [afterLock, wake]
          · simp [afterLock, wake]
      | suspended q =>
          have hin : lock.loop.point t ≠ .outside := hends.1 ▸ hends.2
          refine lw.transfer (t := t) (lw.lock.step hs)
            (fun u hu => by simp [afterLock, hu, hpoint u hu]) hstill ?_ ?_ ?_
          · simp [afterLock, entered.inLock, hin]
          · intro e he
            have heq : p = .waiting e := by simpa [afterLock] using he
            have hinlock := entered.inLock
            rw [heq] at hinlock
            cases hinlock
          · intro e error he
            exact (call.clean lw hstep (by simpa [afterLock] using he)).2 q rfl

end Step

/-- What holds of the events and of the deque in every reachable state. -/
structure Queued (s : State τ) : Prop where
  created : ∀ t e, (s.loop.point t).event = some e → e < s.loop.nextFuture
  distinct : ∀ t u e, (s.loop.point t).event = some e → (s.loop.point u).event = some e → t = u
  clear : ∀ t e, s.loop.point t = .waiting e → (s.loop.task t).mustCancel = false
  ordered : s.waiters.Pairwise fun x y => x.2 < y.2
  fresh : ∀ e ∈ s.waiters, e.2 < s.loop.nextFuture

omit [DecidableEq τ] in
theorem Queued.initial (taskId : τ → TaskId) (fastAcquire : Bool) :
    Queued (initial taskId fastAcquire) where
  created _ _ h := by cases h
  distinct _ _ _ h := by cases h
  clear _ _ h := by cases h
  ordered := .nil
  fresh _ h := absurd h List.not_mem_nil

section Queued
variable {s s' : State τ} {t : τ} {a : Action τ} {o : Outcome Point Unit}

omit [DecidableEq τ] in
theorem Queued.congr (queued : Queued s) (ht : s'.loop.task = s.loop.task)
    (hn : s'.loop.nextFuture = s.loop.nextFuture) (hw : s'.waiters.Sublist s.waiters) :
    Queued s' := by
  have hp : ∀ u, s'.loop.point u = s.loop.point u := fun u => by
    unfold Loop.point
    rw [ht]
  refine ⟨fun u e he => ?_, fun u v e hu hv => ?_, fun u e hu => ?_, ?_, fun e he => ?_⟩
  · exact hn ▸ queued.created u e (hp u ▸ he)
  · exact queued.distinct u v e (hp u ▸ hu) (hp v ▸ hv)
  · rw [ht]
    exact queued.clear u e (hp u ▸ hu)
  · exact queued.ordered.sublist hw
  · exact hn ▸ queued.fresh e (hw.subset he)

/-- Task `t` moves on, with the event it had or without one. -/
theorem Queued.move (queued : Queued s)
    (hother : ∀ u, u ≠ t → s'.loop.task u = s.loop.task u)
    (hn : s'.loop.nextFuture = s.loop.nextFuture) (hw : s'.waiters.Sublist s.waiters)
    (hevent : ∀ e, (s'.loop.point t).event = some e → (s.loop.point t).event = some e)
    (hwait : ∀ e, s'.loop.point t ≠ .waiting e) : Queued s' := by
  have hp : ∀ u e, (s'.loop.point u).event = some e → (s.loop.point u).event = some e := by
    intro u e he
    by_cases hut : u = t
    · exact hut ▸ hevent e (hut ▸ he)
    · rwa [Loop.point, hother u hut] at he
  refine ⟨fun u e he => ?_, fun u v e hu hv => ?_, fun u e hu => ?_, ?_, fun e he => ?_⟩
  · exact hn ▸ queued.created u e (hp u e he)
  · exact queued.distinct u v e (hp u e hu) (hp v e hv)
  · have hut : u ≠ t := by
      rintro rfl
      exact hwait e hu
    rw [hother u hut]
    exact queued.clear u e (by rwa [Loop.point, hother u hut] at hu)
  · exact queued.ordered.sublist hw
  · exact hn ▸ queued.fresh e (hw.subset he)

/-- A new event goes last, and task `t` waits for it or leaves it behind. -/
theorem Queued.register (queued : Queued s)
    (hother : ∀ u, u ≠ t → s'.loop.task u = s.loop.task u)
    (hn : s'.loop.nextFuture = s.loop.nextFuture + 1)
    (hw : s'.waiters = s.waiters ++ [(t, s.loop.nextFuture)])
    (hp : s'.loop.point t = .outside ∨ s'.loop.point t = .waiting s.loop.nextFuture ∧
      (s'.loop.task t).mustCancel = false) : Queued s' := by
  have hevent : ∀ u e, (s'.loop.point u).event = some e →
      u = t ∧ e = s.loop.nextFuture ∨ u ≠ t ∧ (s.loop.point u).event = some e := by
    intro u e he
    by_cases hut : u = t
    · left
      refine ⟨hut, ?_⟩
      rw [hut] at he
      rcases hp with hp | ⟨hp, -⟩
      · simp [hp, Point.event] at he
      · simpa [hp, Point.event, eq_comm] using he
    · exact .inr ⟨hut, by rwa [Loop.point, hother u hut] at he⟩
  refine ⟨fun u e he => ?_, fun u v e hu hv => ?_, fun u e hu => ?_, ?_, fun e he => ?_⟩
  · rw [hn]
    rcases hevent u e he with ⟨-, rfl⟩ | ⟨-, he⟩
    · exact Nat.lt_succ_self _
    · exact Nat.lt_succ_of_lt (queued.created u e he)
  · rcases hevent u e hu with ⟨rfl, rfl⟩ | ⟨-, hu⟩ <;>
      rcases hevent v _ hv with ⟨rfl, hv⟩ | ⟨-, hv⟩
    · rfl
    · exact absurd (queued.created v _ hv) (lt_irrefl _)
    · exact absurd (hv ▸ queued.created u e hu) (lt_irrefl _)
    · exact queued.distinct u v e hu hv
  · by_cases hut : u = t
    · subst hut
      rcases hp with hp | ⟨-, hm⟩
      · simp [hp] at hu
      · exact hm
    · rw [hother u hut]
      exact queued.clear u e (by rwa [Loop.point, hother u hut] at hu)
  · rw [hw]
    refine List.pairwise_append.mpr ⟨queued.ordered, List.pairwise_singleton _ _, ?_⟩
    intro x hx y hy
    rw [List.mem_singleton.mp hy]
    exact queued.fresh x hx
  · rw [hw, List.mem_append, List.mem_singleton] at he
    rw [hn]
    rcases he with he | rfl
    · exact Nat.lt_succ_of_lt (queued.fresh e he)
    · exact Nat.lt_succ_self _

theorem Queued.step (queued : Queued s) (change : Change s a s' o) : Queued s' := by
  cases change with
  | refused => exact queued
  | released => exact queued.congr rfl rfl (List.Sublist.refl _)
  | @started t =>
      exact queued.move (t := t) (fun u hu => Loop.moveTo_task_of_ne hu _) rfl
        (List.Sublist.refl _) (by simp [Point.event]) (by simp)
  | notified =>
      rw [popAndSet_eq]
      exact queued.congr (by simp) (by simp) (List.drop_sublist _ _)
  | notifiedAll => exact queued.congr (by simp) (by simp) (List.nil_sublist _)
  | interruptedInLock => exact queued.congr rfl rfl (List.Sublist.refl _)
  | @interrupted t h =>
      refine ⟨by simpa using queued.created, by simpa using queued.distinct, fun u e hu => ?_,
        queued.ordered, by simpa using queued.fresh⟩
      have hwait : s.loop.point u = .waiting e := by simpa using hu
      by_cases hut : u = t
      · -- the request goes to the pending future, and nothing is left for the task
        subst hut
        have hw : s.loop.waits u = .future e := by simp [Loop.waits, hwait, Coroutine.waits]
        rw [Loop.cancel_mustCancel_of_pending hw (by simpa [interruptible, hw] using h)]
        exact queued.clear u e hwait
      · rw [Loop.cancel_task_of_ne hut]
        exact queued.clear u e hwait
  | @refusedWait t =>
      exact queued.move (t := t) (fun u hu => Loop.resumeAt_task_of_ne hu _) rfl
        (List.Sublist.refl _) (by simp [wake, Point.event]) (by simp [wake])
  | @waiting t lock =>
      refine queued.register (t := t) (fun u hu => ?_) rfl rfl (.inr ⟨by simp, by simp [wake]⟩)
      exact (Loop.moveTo_task_of_ne hu _).trans (Loop.resumeAt_task_of_ne hu _)
  | @left t e =>
      exact queued.register (t := t) (fun u hu => Loop.resumeAt_task_of_ne hu _) rfl rfl
        (.inl (by simp [Condition.register, wake]))
  | @locked a b t m p done r call =>
      have entered := call.entered
      obtain ⟨lock, o⟩ := r
      cases o with
      | returned v =>
          refine queued.move (t := t) (fun u hu => ?_) entered.nextFuture entered.waiters
            (by simp [afterLock, wake, Point.event]) (by simp [afterLock, wake])
          exact (Loop.resumeAt_task_of_ne hu _).trans (entered.task u hu)
      | raised e =>
          refine queued.move (t := t) (fun u hu => ?_) entered.nextFuture entered.waiters
            (by simp [afterLock, wake, Point.event]) (by simp [afterLock, wake])
          exact (Loop.resumeAt_task_of_ne hu _).trans (entered.task u hu)
      | suspended q =>
          refine queued.move (t := t) (fun u hu => ?_) entered.nextFuture entered.waiters
            (by simp [afterLock, entered.event]) fun e he => ?_
          · exact (Loop.moveTo_task_of_ne hu _).trans (entered.task u hu)
          · have heq : p = .waiting e := by simpa [afterLock] using he
            have hinlock := entered.inLock
            rw [heq] at hinlock
            cases hinlock

end Queued

end Anyio.Condition
