import Anyio.Condition.Wait
import Anyio.Lock.Exclusion

/-!
# Who may notify

`notify()` compares the `id` in `_owner_task` with that of the caller. The calls
of the condition set `_owner_task` when they have got the lock, and nobody resets
it. The lock itself can be acquired and released next to the condition. A call of
`notify()` goes wrong exactly when its task does not hold the lock and has the
`id` of the last task to get the lock through the condition: it is that task, or
a later one with the same `id()`.
-/

namespace Anyio.Condition

open Asyncio Library

variable {τ : Type*}

/-- Calls of the condition, and calls of the lock under it. -/
inductive SharedAction (τ : Type*)
  | own (action : Action τ)
  | lock (action : Lock.Action τ)
  deriving DecidableEq, Repr

def Action.isNotify : Action τ → Bool
  | .notify _ _ => true
  | .notifyAll _ => true
  | _ => false

variable [DecidableEq τ]

/-- A task is in one call at a time, of the condition or of the lock. -/
def sharedStep (s : State τ) : SharedAction τ →
    Option (State τ × (Outcome Point Unit ⊕ Outcome Lock.Point Unit))
  | .own a =>
      if (s.loop.point a.task).inLock ∨ s.lock.loop.point a.task = .outside then
        (step s a).map fun r => (r.1, .inl r.2)
      else none
  | .lock b =>
      if s.loop.point b.task = .outside then
        (Lock.step s.lock b).map fun r => ({ s with lock := r.1 }, .inr r.2)
      else none

abbrev sharedMachine (τ : Type*) [DecidableEq τ] :
    Machine (State τ) (SharedAction τ) (Outcome Point Unit ⊕ Outcome Lock.Point Unit) where
  step := sharedStep

/-- What a step of the condition does with the lock. -/
def lockAction (s : State τ) : Action τ → Option (Lock.Action τ)
  | .acquire t c => some (.acquire t c)
  | .acquireNowait t => some (.acquireNowait t)
  | .release t => some (.release t)
  | .interrupt t => if s.loop.point t = .acquiring then some (.cancel t) else none
  | .resume t =>
      match s.loop.point t with
      | .outside => none
      | .acquiring => some (.resume t)
      | .waitCheckpoint => if s.loop.throws t then none else some (.release t)
      | .waiting _ => some (.acquire t false)
      | .reacquiring _ _ => some (.resume t)
  | _ => none

/-- The task that gets the lock in a step of it. -/
def gets : Lock.Action τ → Outcome Lock.Point Unit → Option τ
  | .release _, _ => none
  | b, .returned _ => some b.task
  | _, _ => none

/-- The calls of the lock, those of the condition included, the `id` of the last task that got the
lock through the condition, whether `notify()` or `notify_all()` was called by a task with this `id`
that did not hold the lock, and whether every such call did what it should. -/
structure Calls (τ : Type*) where
  lock : Lock.History τ
  last : Option TaskId
  stale : Bool
  fair : Bool

def Calls.start (τ : Type*) : Calls τ := ⟨.empty τ, none, false, true⟩

/-- `notify()` and `notify_all()` return only if the caller owns the lock. Otherwise they raise,
and `_waiters` stays as it is. -/
def behaves (s : State τ) (a : Action τ) (o : Outcome Point Unit) : Bool :=
  (o = .returned () ∧ s.lock.ownerTask = some a.task) ∨
    (o = .raised notHolding ∧ (step s a).map (fun r => r.1.waiters) = some s.waiters)

def Calls.use (h : Calls τ) (s : State τ) (b : Lock.Action τ) : Calls τ :=
  match Lock.step s.lock b with
  | some r => { h with
      lock := Lock.record h.lock s.lock b r.2
      last := ((gets b r.2).map s.taskId).or h.last }
  | none => h

/-- What a step of the condition does with the lock, and what it does as a notification. -/
def Calls.own (h : Calls τ) (s : State τ) (a : Action τ) (o : Outcome Point Unit) : Calls τ :=
  if a.isNotify then
    { h with
      stale := h.stale || (decide (h.last = some (s.taskId a.task)) && !h.lock.holding a.task)
      fair := h.fair && behaves s a o }
  else
    match lockAction s a with
    | some b => h.use s b
    | none => h

def recordShared (h : Calls τ) (s : State τ) :
    SharedAction τ → Outcome Point Unit ⊕ Outcome Lock.Point Unit → Calls τ
  | .own a, .inl o => h.own s a o
  | .lock b, .inr o => { h with lock := Lock.record h.lock s.lock b o }
  | _, _ => h

abbrev sharedRecorded (τ : Type*) [DecidableEq τ] :
    Machine (State τ × Calls τ) (SharedAction τ)
      (Outcome Point Unit ⊕ Outcome Lock.Point Unit) :=
  (sharedMachine τ).withHistory recordShared

variable {s s' : State τ} {h : Calls τ} {t : τ} {a : Action τ} {b : Lock.Action τ}
  {o : Outcome Point Unit}

omit [DecidableEq τ] in
@[simp] theorem setEvents_ownerTask (s : State τ) (events : List (τ × FutureId)) :
    (setEvents s events).ownerTask = s.ownerTask := by
  induction events generalizing s with
  | nil => rfl
  | cons e rest ih => exact ih (setEvent s e.2)

/-- The lock and `_owner_task` after a step that does `b` with the lock. -/
def Uses (s s' : State τ) (b : Lock.Action τ) : Prop :=
  ∃ r, Lock.step s.lock b = some r ∧ s'.lock = r.1 ∧
    s'.ownerTask = ((gets b r.2).map s.taskId).or s.ownerTask

theorem uses_afterLock {m : State τ} {p : Point} {done : Outcome Point Unit}
    {r : Lock.State τ × Outcome Lock.Point Unit} (hlock : m.lock = s.lock)
    (hids : m.taskId = s.taskId) (howner : m.ownerTask = s.ownerTask)
    (hr : Lock.step m.lock b = some r)
    (hb : ∀ u, b ≠ .release u) (ht : b.task = t) : Uses s (afterLock m t p done r).1 b := by
  refine ⟨r, hlock ▸ hr, ?_, ?_⟩
  · obtain ⟨lock, o⟩ := r
    cases o <;> rfl
  · obtain ⟨lock, o⟩ := r
    cases o <;> cases b <;> simp_all [afterLock, wake, gets]

theorem uses_release (hout : s.lock.loop.point t = .outside) {lock : Lock.State τ}
    (hr : Lock.release s.lock t = .ok lock) (hlock : s'.lock = lock)
    (howner : s'.ownerTask = s.ownerTask) : Uses s s' (.release t) :=
  ⟨(lock, .returned ()), by simp [Lock.step, hout, hr], hlock, howner⟩

theorem uses_refused (hout : s.lock.loop.point t = .outside) {e : Error}
    (hr : Lock.release s.lock t = .error e) (hlock : s'.lock = s.lock)
    (howner : s'.ownerTask = s.ownerTask) : Uses s s' (.release t) :=
  ⟨(s.lock, .raised e), by simp [Lock.step, hout, hr], hlock, howner⟩

theorem uses_cancel {r : Lock.State τ × Outcome Lock.Point Unit}
    (hr : Lock.step s.lock (.cancel t) = some r) (hlock : s'.lock = r.1)
    (howner : s'.ownerTask = s.ownerTask) : Uses s s' (.cancel t) := by
  refine ⟨r, hr, hlock, ?_⟩
  obtain ⟨-, heq⟩ := Option.ite_none_right_eq_some.mp hr
  cases heq
  exact howner

theorem forget_owner (s : State τ) (t : τ) (event : FutureId) :
    (forget s t event).1.taskId = s.taskId ∧ (forget s t event).1.ownerTask = s.ownerTask := by
  unfold forget
  split_ifs <;> exact ⟨rfl, rfl⟩

/-- The wake-up of a task makes the step of the lock that its point stands for. -/
theorem resume_uses (hwake : wakeUpQueued s t = true)
    (hguard : (s.loop.point t).inLock = true ∨ s.lock.loop.point t = .outside) :
    match lockAction s (.resume t) with
    | some b => Uses s (resume s t).1 b
    | none => (resume s t).1.lock = s.lock ∧ (resume s t).1.ownerTask = s.ownerTask := by
  simp only [lockAction]
  unfold Condition.resume
  cases hp : s.loop.point t with
  | outside => exact ⟨rfl, rfl⟩
  | acquiring =>
      have hqueued : s.lock.loop.wakeUpQueued t = true := by
        simpa [wakeUpQueued, hp, Point.inLock] using hwake
      exact uses_afterLock rfl rfl rfl (by simp [Lock.step, hqueued]) (by simp) rfl
  | reacquiring event error =>
      have hqueued : s.lock.loop.wakeUpQueued t = true := by
        simpa [wakeUpQueued, hp, Point.inLock] using hwake
      exact uses_afterLock rfl rfl rfl (by simp [Lock.step, hqueued]) (by simp) rfl
  | waitCheckpoint =>
      have hout : s.lock.loop.point t = .outside := by simpa [hp, Point.inLock] using hguard
      cases hthrow : s.loop.throws t with
      | true => exact ⟨rfl, rfl⟩
      | false =>
          simp only [Bool.false_eq_true, if_false]
          rw [waitAfterCheckpoint_eq]
          cases hr : Lock.release s.lock t with
          | ok lock =>
              have hrelease : release (register (wake s t) t) t =
                  .ok { register (wake s t) t with lock := lock } :=
                release_eq_ok.mpr ⟨lock, hr, rfl⟩
              rw [hrelease]
              exact uses_release hout hr rfl rfl
          | error e =>
              have hrefused : release (register (wake s t) t) t = .error e := by
                rw [release, show (register (wake s t) t).lock = s.lock from rfl, hr]
                rfl
              rw [hrefused]
              exact uses_refused hout hr rfl rfl
  | waiting event =>
      have hout : s.lock.loop.point t = .outside := by simpa [hp, Point.inLock] using hguard
      simp only
      split_ifs with hthrow
      · exact uses_afterLock (forget_lock _ t event) (forget_owner _ t event).1
          (forget_owner _ t event).2 (by simp [Lock.step, forget_lock, wake, hout]) (by simp) rfl
      · exact uses_afterLock (m := wake s t) rfl rfl rfl (by simp [Lock.step, wake, hout])
          (by simp) rfl

/-- What a step of the condition does with the lock and with `_owner_task`. -/
theorem step_uses (hs : step s a = some (s', o))
    (hguard : (s.loop.point a.task).inLock = true ∨ s.lock.loop.point a.task = .outside) :
    match lockAction s a with
    | some b => Uses s s' b
    | none => s'.lock = s.lock ∧ s'.ownerTask = s.ownerTask := by
  have hout : s.loop.point a.task = .outside → s.lock.loop.point a.task = .outside := by
    intro hp
    simpa [hp, Point.inLock] using hguard
  cases a with
  | acquire t c =>
      obtain ⟨hfrom, hs⟩ := Option.ite_none_right_eq_some.mp hs
      have hlock : Lock.step s.lock (.acquire t c) = some (Lock.acquire s.lock t c) :=
        if_pos (hout hfrom)
      have uses : Uses s (acquire s t c).1 (.acquire t c) :=
        uses_afterLock rfl rfl rfl hlock (by simp) rfl
      rwa [Option.some.inj hs] at uses
  | acquireNowait t =>
      obtain ⟨hfrom, hs⟩ := Option.ite_none_right_eq_some.mp hs
      have hlock : Lock.step s.lock (.acquireNowait t) = some (Lock.acquireNowait s.lock t) :=
        if_pos (hout hfrom)
      have uses : Uses s (acquireNowait s t).1 (.acquireNowait t) :=
        uses_afterLock rfl rfl rfl hlock (by simp) rfl
      rwa [Option.some.inj hs] at uses
  | release t =>
      obtain ⟨hfrom, hs⟩ := Option.ite_none_right_eq_some.mp hs
      split at hs
      · rename_i hrelease
        cases hs
        obtain ⟨lock, hr, rfl⟩ := release_eq_ok.mp hrelease
        exact uses_release (hout hfrom) hr rfl rfl
      · rename_i e hrelease
        cases hs
        cases hr : Lock.release s.lock t with
        | ok lock => simp [release, hr, Except.map] at hrelease
        | error e' => exact uses_refused (hout hfrom) hr rfl rfl
  | wait t =>
      obtain ⟨-, hs⟩ := Option.ite_none_right_eq_some.mp hs
      cases hs
      exact ⟨rfl, rfl⟩
  | notify t n =>
      obtain ⟨-, hs⟩ := Option.ite_none_right_eq_some.mp hs
      unfold notify at hs
      split_ifs at hs <;> cases hs
      · exact ⟨rfl, rfl⟩
      · simp [lockAction, popAndSet_eq]
  | notifyAll t =>
      obtain ⟨-, hs⟩ := Option.ite_none_right_eq_some.mp hs
      unfold notifyAll at hs
      split_ifs at hs <;> cases hs
      · exact ⟨rfl, rfl⟩
      · simp [lockAction]
  | interrupt t =>
      simp only [step] at hs
      simp only [lockAction]
      split_ifs at hs ⊢ with hp hint
      · obtain ⟨r, hr, heq⟩ := Option.map_eq_some_iff.mp hs
        cases heq
        exact uses_cancel hr rfl rfl
      · cases hs
        exact ⟨rfl, rfl⟩
  | resume t =>
      obtain ⟨hwake, hs⟩ := Option.ite_none_right_eq_some.mp hs
      have uses := resume_uses hwake hguard
      rwa [Option.some.inj hs] at uses

/-- What the two records of the owner have to do with the calls. -/
structure Linked (s : State τ) (h : Calls τ) : Prop where
  known : Lock.Known s.lock h.lock
  last : s.ownerTask = h.last

theorem Linked.use (linked : Linked s h) (uses : Uses s s' b) : Linked s' (h.use s b) := by
  obtain ⟨r, hr, hlock, howner⟩ := uses
  have hstep : Lock.step s.lock b = some (s'.lock, r.2) := by rw [hr, hlock]
  constructor
  · simpa [Calls.use, hr] using linked.known.step hstep
  · simp [Calls.use, hr, howner, linked.last]

theorem Calls.use_verdict (h : Calls τ) (s : State τ) (b : Lock.Action τ) :
    (h.use s b).fair = h.fair ∧ (h.use s b).stale = h.stale := by
  unfold Calls.use
  cases Lock.step s.lock b <;> exact ⟨rfl, rfl⟩

omit [DecidableEq τ] in
theorem isNotify_lockAction (ha : a.isNotify = true) : lockAction s a = none := by
  cases a <;> first | rfl | cases ha

/-- A step of the condition keeps the agreement. -/
theorem Linked.own (linked : Linked s h) (hs : step s a = some (s', o))
    (hguard : (s.loop.point a.task).inLock = true ∨ s.lock.loop.point a.task = .outside) :
    Linked s' (h.own s a o) := by
  have huses := step_uses hs hguard
  unfold Calls.own
  split_ifs with hnotify
  · rw [isNotify_lockAction hnotify] at huses
    obtain ⟨hlock, howner⟩ := huses
    exact ⟨hlock ▸ linked.known, howner.trans linked.last⟩
  · cases hb : lockAction s a with
    | some b =>
        rw [hb] at huses
        exact linked.use huses
    | none =>
        rw [hb] at huses
        obtain ⟨hlock, howner⟩ := huses
        exact ⟨hlock ▸ linked.known, howner.trans linked.last⟩

/-- What `notify()` and `notify_all()` do depends on `_owner_task` alone. -/
theorem notify_outcome (ha : a.isNotify = true) (hs : step s a = some (s', o)) :
    (s.ownerTask = some (s.taskId a.task) ∧ o = .returned ()) ∨
      (s.ownerTask ≠ some (s.taskId a.task) ∧ s' = s ∧ o = .raised notHolding) := by
  cases a with
  | notify t n =>
      obtain ⟨-, hs⟩ := Option.ite_none_right_eq_some.mp hs
      unfold notify at hs
      split_ifs at hs with hne
      · cases hs
        exact .inr ⟨hne, rfl, rfl⟩
      · cases hs
        exact .inl ⟨not_not.mp hne, rfl⟩
  | notifyAll t =>
      obtain ⟨-, hs⟩ := Option.ite_none_right_eq_some.mp hs
      unfold notifyAll at hs
      split_ifs at hs with hne
      · cases hs
        exact .inr ⟨hne, rfl, rfl⟩
      · cases hs
        exact .inl ⟨not_not.mp hne, rfl⟩
  | _ => cases ha

theorem notify_outside (ha : a.isNotify = true) (hs : step s a = some (s', o)) :
    s.loop.point a.task = .outside := by
  cases a with
  | notify t n => exact (Option.ite_none_right_eq_some.mp hs).1
  | notifyAll t => exact (Option.ite_none_right_eq_some.mp hs).1
  | _ => cases ha

/-- A notification does what it should, unless the caller has the `id` of the last task to get the
lock through the condition and does not hold it. -/
theorem Linked.behaves (linked : Linked s h) (ha : a.isNotify = true)
    (hs : step s a = some (s', o))
    (hguard : (s.loop.point a.task).inLock = true ∨ s.lock.loop.point a.task = .outside) :
    behaves s a o = true ↔
      ¬(h.last = some (s.taskId a.task) ∧ h.lock.holding a.task = false) := by
  have hout : s.lock.loop.point a.task = .outside := by
    simpa [notify_outside ha hs, Point.inLock] using hguard
  have hholding : h.lock.holding a.task = true ↔ s.lock.ownerTask = some a.task := by
    rw [linked.known.held a.task]
    exact and_iff_left hout
  rw [← linked.last]
  rcases notify_outcome ha hs with ⟨howner, rfl⟩ | ⟨howner, rfl, rfl⟩
  · simp [Condition.behaves, howner, ← hholding]
  · simp [Condition.behaves, howner, hs]

/-- The notifications of a run do what they should as long as no stale one is made. -/
structure Watched (s : State τ) (h : Calls τ) : Prop extends Linked s h where
  verdict : h.fair = true ↔ h.stale = false

theorem Watched.own (watched : Watched s h) (hs : step s a = some (s', o))
    (hguard : (s.loop.point a.task).inLock = true ∨ s.lock.loop.point a.task = .outside) :
    Watched s' (h.own s a o) := by
  refine ⟨watched.toLinked.own hs hguard, ?_⟩
  unfold Calls.own
  split_ifs with hnotify
  · have hbehaves := watched.toLinked.behaves hnotify hs hguard
    rw [Bool.and_eq_true, Bool.or_eq_false_iff, watched.verdict, hbehaves, and_congr_right_iff]
    intro _
    simp [imp_iff_not_or]
  · cases lockAction s a with
    | some b =>
        obtain ⟨hfair, hstale⟩ := h.use_verdict s b
        simpa only [hfair, hstale] using watched.verdict
    | none => exact watched.verdict

theorem Watched.step {b : SharedAction τ} {o : Outcome Point Unit ⊕ Outcome Lock.Point Unit}
    (watched : Watched s h) (hs : sharedStep s b = some (s', o)) :
    Watched s' (recordShared h s b o) := by
  cases b with
  | own a =>
      obtain ⟨hguard, hs⟩ := Option.ite_none_right_eq_some.mp hs
      obtain ⟨r, hr, heq⟩ := Option.map_eq_some_iff.mp hs
      cases heq
      exact watched.own hr hguard
  | lock b =>
      obtain ⟨-, hs⟩ := Option.ite_none_right_eq_some.mp hs
      obtain ⟨r, hr, heq⟩ := Option.map_eq_some_iff.mp hs
      cases heq
      exact ⟨⟨watched.known.step hr, watched.last⟩, watched.verdict⟩

/-- Every call of `notify()` and `notify_all()` returns only to the owner of the lock, and raises
and leaves `_waiters` alone otherwise, exactly in the runs in which no task makes such a call
without the lock that has the `id` of the last task to get the lock through the condition. -/
theorem notify_only_by_owner {taskId : τ → TaskId} {fastAcquire : Bool}
    (run : (sharedRecorded τ).Reachable Machine.anyStep
      (initial taskId fastAcquire, .start τ) (s, h)) :
    h.fair = true ↔ h.stale = false := by
  refine (run.invariant_history (I := Watched) ?_ ?_).verdict
  · exact ⟨⟨⟨.initial fastAcquire, .initial fastAcquire, .initial fastAcquire⟩, rfl⟩,
      by simp [Calls.start]⟩
  · intro s h b s' o watched _ hs
    exact watched.step hs

/-- Task 0 acquires the condition, and task 1 waits for the lock under it. Task 0 notifies and
releases, and task 1 is refused until it has the lock. -/
def takingTurns : State (Fin 2) × Calls (Fin 2) :=
  ((sharedRecorded (Fin 2)).exec Machine.anyStep (initial Fin.val false, .start (Fin 2))
    [.own (.acquireNowait 0), .lock (.acquire 1 false), .own (.notify 0 1), .own (.release 0),
      .lock (.resume 1), .own (.notify 1 1)]).get (by decide)

theorem notify_only_by_owner_takingTurns :
    takingTurns.2.stale = false ∧ takingTurns.2.fair = true := by
  have run : (sharedRecorded (Fin 2)).Reachable Machine.anyStep
      (initial Fin.val false, .start (Fin 2)) takingTurns :=
    Machine.exec_get_reachable _ _ _
  have hstale : takingTurns.2.stale = false := by decide
  exact ⟨hstale, (notify_only_by_owner (s := takingTurns.1) (h := takingTurns.2) run).mpr hstale⟩

/-- Task 0 acquires and releases the condition. -/
def released : State (Fin 2) :=
  (((sharedMachine (Fin 2)).exec Machine.anyStep (initial Fin.val false)
    [.own (.acquireNowait 0), .own (.release 0)])).get (by decide)

/-- Task 0 has acquired and released the condition, and task 1 gets its `id()` later. -/
def idReused : State (Fin 2) :=
  (((sharedMachine (Fin 2)).exec Machine.anyStep (initial (fun _ => 0) false)
    [.own (.acquireNowait 0), .own (.release 0)])).get (by decide)

/-- Nobody resets `_owner_task`: after its `release()` task 0 notifies without an error, and so
does task 1 without ever having had the lock. -/
theorem stale_owner_notifies :
    ((sharedMachine (Fin 2)).Reachable Machine.anyStep (initial Fin.val false) released ∧
      released.lock.ownerTask = none ∧
      (sharedStep released (.own (.notify 0 1))).map Prod.snd = some (.inl (.returned ()))) ∧
    (sharedMachine (Fin 2)).Reachable Machine.anyStep (initial (fun _ => 0) false) idReused ∧
      idReused.lock.ownerTask = none ∧
      (sharedStep idReused (.own (.notify 1 1))).map Prod.snd = some (.inl (.returned ())) :=
  ⟨⟨Machine.exec_get_reachable _ _ _, by decide, by decide⟩,
    Machine.exec_get_reachable _ _ _, by decide, by decide⟩

end Anyio.Condition
