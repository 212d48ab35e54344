import Anyio.Lock.Invariant

/-!
# The steps of a `Lock` and the other tasks

What a step of one task does to another one, and where the task of a step
stands after it. This is what code that is built on a `Lock` knows of it.
-/

namespace Anyio.Lock

open Asyncio Library

variable {τ : Type*}

/-- The task that makes a step of the lock. -/
def Action.task : Action τ → τ
  | .acquire t _ => t
  | .acquireNowait t => t
  | .release t => t
  | .cancel t => t
  | .resume t => t

/-- What the step of another task does to task `u`: it stays where it is, is not interrupted,
and is handed the lock only while it waits for it. -/
structure Bystander (s s' : State τ) (u : τ) : Prop where
  task : s'.loop.task u = s.loop.task u
  future : ∀ f, s.loop.point u = .waiting f → s'.loop.future f = .cancelled →
    s.loop.future f = .cancelled
  owner : s'.ownerTask = some u → s.ownerTask = some u ∨ s.loop.point u ≠ .outside

variable {s s' : State τ} {t u : τ} {a : Action τ} {o : Outcome Point Unit}

theorem Bystander.refl (s : State τ) (u : τ) : Bystander s s u := ⟨rfl, fun _ _ => id, .inl⟩

theorem Bystander.point (still : Bystander s s' u) : s'.loop.point u = s.loop.point u :=
  congrArg Task.point still.task

/-- Nobody interrupts a task in the step of another one. -/
theorem Bystander.throws (still : Bystander s s' u) (h : s.loop.throws u = false) :
    s'.loop.throws u = false := by
  unfold Loop.throws Loop.waits at h ⊢
  rw [still.point, still.task]
  cases hp : s.loop.point u with
  | waiting f =>
      simp only [hp, Coroutine.waits, Bool.or_eq_false_iff, decide_eq_false_iff_not] at h ⊢
      exact ⟨h.1, fun hcancelled => h.2 (still.future f hp hcancelled)⟩
  | _ => simpa [hp, Coroutine.waits] using h

/-- Changes one after the other. -/
theorem Bystander.trans {s'' : State τ} (first : Bystander s s' u) (second : Bystander s' s'' u) :
    Bystander s s'' u := by
  refine ⟨second.task.trans first.task, fun f hp hf => ?_, fun ho => ?_⟩
  · exact first.future f hp (second.future f (first.point.trans hp) hf)
  · rcases second.owner ho with ho | hp
    · exact first.owner ho
    · exact .inr (first.point ▸ hp)

variable [DecidableEq τ]

/-- A task leaves the point at which it stands. -/
theorem Bystander.leave (hu : u ≠ t) (waiters : List (τ × FutureId)) (p : Point) :
    Bystander s { s with waiters := waiters, loop := s.loop.resumeAt t p } u :=
  ⟨Loop.resumeAt_task_of_ne hu p, fun _ _ => id, .inl⟩

theorem Bystander.acquire (inv : Inv s) (hu : u ≠ t) (c : Bool) :
    Bystander s (acquire s t c).1 u := by
  have hself : ∀ {o : Option τ}, o = some t → o = some u → False := fun h h' =>
    hu (Option.some.inj (h'.symm.trans h))
  unfold Lock.acquire
  split_ifs
  · exact ⟨Loop.moveTo_task_of_ne hu _, fun _ _ => id, .inl⟩
  · exact ⟨rfl, fun _ _ => id, fun ho => (hself rfl ho).elim⟩
  · exact ⟨Loop.moveTo_task_of_ne hu _, fun _ _ => id, fun ho => (hself rfl ho).elim⟩
  · exact .refl s u
  · refine ⟨Loop.moveTo_task_of_ne hu _, fun f hp hf => ?_, .inl⟩
    simpa [(inv.fresh hp).ne] using hf

theorem Bystander.acquireNowait (hu : u ≠ t) : Bystander s (acquireNowait s t).1 u := by
  unfold Lock.acquireNowait
  split_ifs
  · exact ⟨rfl, fun _ _ => id, fun ho => absurd (Option.some.inj ho).symm hu⟩
  · exact .refl s u
  · exact .refl s u

/-- The lock is handed to a task that waits for it. -/
theorem Bystander.release (inv : Inv s) (h : release s t = .ok s') : Bystander s s' u := by
  rcases (release_cases h).2 with ⟨before, v, f, after, hsplit, -, -, rfl⟩ | ⟨-, rfl⟩
  · refine ⟨rfl, fun g _ hg => ?_, fun ho => .inr ?_⟩
    · by_cases hgf : g = f
      · simp [hgf] at hg
      · simpa [hgf] using hg
    · obtain rfl := Option.some.inj ho
      rw [(inv.queue v f).mp (by simp [hsplit])]
      exact Point.noConfusion
  · exact ⟨rfl, fun _ _ => id, fun ho => by cases ho⟩

/-- Whoever releases the lock does not hold it any more. -/
theorem release_owner_ne (inv : Inv s) (hp : s.loop.point t = .outside)
    (h : release s t = .ok s') : s'.ownerTask ≠ some t := by
  intro ho
  obtain ⟨f, hf⟩ := inv.release_owner h t ho
  rw [(Bystander.release inv h).point, hp] at hf
  cases hf

theorem Bystander.releaseAndRaise (inv : Inv s) : Bystander s (releaseAndRaise s t).1 u := by
  unfold Lock.releaseAndRaise
  split
  · exact .release inv ‹_›
  · exact .refl s u

theorem Bystander.cancel (inv : Inv s) (hu : u ≠ t) :
    Bystander s { s with loop := s.loop.cancel t } u := by
  refine ⟨Loop.cancel_task_of_ne hu, fun f hp hf => ?_, .inl⟩
  have hne : s.loop.waits t ≠ .future f := fun ht =>
    hu (inv.owned.injective u t f (waits_waiting hp) ht)
  rwa [Loop.cancel_future_of_ne hne] at hf

theorem Bystander.resume (inv : Inv s) (hu : u ≠ t) : Bystander s (resume s t).1 u := by
  unfold Lock.resume
  cases hp : s.loop.point t with
  | outside => exact .refl s u
  | checkpointIfCancelled =>
      simp only
      split_ifs
      · exact .leave hu _ _
      · exact .leave hu _ _
  | shieldedCheckpoint =>
      simp only
      split_ifs
      · exact (Bystander.leave hu s.waiters .outside).trans
          (.releaseAndRaise (inv.resume_outside (by simp [hp])))
      · exact .leave hu _ _
  | waiting f =>
      simp only
      split_ifs
      · exact (Bystander.leave hu (s.waiters.erase (t, f)) .outside).trans
          (.releaseAndRaise (inv.leave_queue hp))
      · exact .leave hu _ _
      · exact .leave hu _ _

theorem Bystander.step (inv : Inv s) (hs : step s a = some (s', o)) (hu : u ≠ a.task) :
    Bystander s s' u := by
  cases a with
  | acquire t c =>
      obtain ⟨-, hs⟩ := Option.ite_none_right_eq_some.mp hs
      have still := Bystander.acquire (s := s) (t := t) inv hu c
      rwa [Option.some.inj hs] at still
  | acquireNowait t =>
      obtain ⟨-, hs⟩ := Option.ite_none_right_eq_some.mp hs
      have still := Bystander.acquireNowait (s := s) (t := t) hu
      rwa [Option.some.inj hs] at still
  | release t =>
      obtain ⟨-, hs⟩ := Option.ite_none_right_eq_some.mp hs
      split at hs
      · cases hs
        exact .release inv ‹_›
      · cases hs
        exact .refl s u
  | cancel t =>
      obtain ⟨-, hs⟩ := Option.ite_none_right_eq_some.mp hs
      cases hs
      exact .cancel inv hu
  | resume t =>
      obtain ⟨-, hs⟩ := Option.ite_none_right_eq_some.mp hs
      have still := Bystander.resume (s := s) (t := t) inv hu
      rwa [Option.some.inj hs] at still

theorem release_ne_ok (ho : s.ownerTask = some u) (hu : u ≠ t) : release s t ≠ .ok s' := by
  intro h
  exact hu (Option.some.inj (ho.symm.trans (release_cases h).1))

theorem releaseAndRaise_of_ne (ho : s.ownerTask = some u) (hu : u ≠ t) :
    (releaseAndRaise s t).1 = s := by
  unfold releaseAndRaise
  split
  · exact absurd ‹_› (release_ne_ok ho hu)
  · rfl

/-- Only its owner gives up the lock. -/
theorem owner_kept (hs : step s a = some (s', o)) (hu : u ≠ a.task) (ho : s.ownerTask = some u) :
    s'.ownerTask = some u := by
  cases a with
  | acquire t c =>
      obtain ⟨-, hs⟩ := Option.ite_none_right_eq_some.mp hs
      unfold acquire at hs
      split_ifs at hs with hfree
      · cases hs
        exact ho
      · simp [ho] at hfree
      · simp [ho] at hfree
      · cases hs
        exact ho
      · cases hs
        exact ho
  | acquireNowait t =>
      obtain ⟨-, hs⟩ := Option.ite_none_right_eq_some.mp hs
      unfold acquireNowait at hs
      split_ifs at hs with hfree
      · simp [ho] at hfree
      · cases hs
        exact ho
      · cases hs
        exact ho
  | release t =>
      obtain ⟨-, hs⟩ := Option.ite_none_right_eq_some.mp hs
      split at hs
      · exact absurd ‹_› (release_ne_ok ho hu)
      · cases hs
        exact ho
  | cancel t =>
      obtain ⟨-, hs⟩ := Option.ite_none_right_eq_some.mp hs
      cases hs
      exact ho
  | resume t =>
      obtain ⟨-, hs⟩ := Option.ite_none_right_eq_some.mp hs
      have hut : u ≠ t := hu
      have hkept : (resume s t).1.ownerTask = some u := by
        unfold resume
        cases hp : s.loop.point t with
        | outside => exact ho
        | checkpointIfCancelled =>
            simp only
            split_ifs <;> exact ho
        | shieldedCheckpoint =>
            simp only
            split_ifs
            · exact (congrArg State.ownerTask (releaseAndRaise_of_ne (by exact ho) hut)).trans ho
            · exact ho
        | waiting f =>
            simp only
            split_ifs
            · exact (congrArg State.ownerTask (releaseAndRaise_of_ne (by exact ho) hut)).trans ho
            · exact ho
            · exact ho
      rwa [Option.some.inj hs] at hkept

/-- A call other than `release()` that returns returns with the lock. -/
theorem owner_of_returned (inv : Inv s) (hs : step s a = some (s', .returned ()))
    (ha : ∀ t, a ≠ .release t) : s'.ownerTask = some a.task := by
  cases a with
  | release t => exact absurd rfl (ha t)
  | cancel t =>
      obtain ⟨-, hs⟩ := Option.ite_none_right_eq_some.mp hs
      cases hs
  | acquire t c =>
      obtain ⟨-, hs⟩ := Option.ite_none_right_eq_some.mp hs
      unfold acquire at hs
      split_ifs at hs <;> cases hs
      rfl
  | acquireNowait t =>
      obtain ⟨-, hs⟩ := Option.ite_none_right_eq_some.mp hs
      unfold acquireNowait at hs
      split_ifs at hs <;> cases hs
      rfl
  | resume t =>
      obtain ⟨hwake, hs⟩ := Option.ite_none_right_eq_some.mp hs
      unfold resume at hs
      cases hp : s.loop.point t with
      | outside => simp [Loop.wakeUpQueued, Loop.waits, hp, Coroutine.waits] at hwake
      | checkpointIfCancelled =>
          simp only [hp] at hs
          split_ifs at hs <;> cases hs
      | shieldedCheckpoint =>
          simp only [hp] at hs
          split_ifs at hs with hthrow
          · unfold releaseAndRaise at hs
            split at hs <;> cases hs
          · cases hs
            exact inv.yielding t hp
      | waiting f =>
          simp only [hp] at hs
          split_ifs at hs with hthrow
          · unfold releaseAndRaise at hs
            split at hs <;> cases hs
          · cases hs
          · cases hs
            exact (inv.granted t f hp).mp
              (Loop.finished_of_woken (waits_waiting hp) hwake hthrow).2

/-- A call that did not end is suspended inside `acquire()`, and one that ended is outside. -/
def EndsAt (s : State τ) (t : τ) : Outcome Point Unit → Prop
  | .suspended p => s.loop.point t = p ∧ p ≠ .outside
  | _ => s.loop.point t = .outside

theorem EndsAt.acquire (hp : s.loop.point t = .outside) (c : Bool) :
    EndsAt (acquire s t c).1 t (acquire s t c).2 := by
  unfold Lock.acquire
  split_ifs
  · exact ⟨by simp, Point.noConfusion⟩
  · exact hp
  · exact ⟨by simp, Point.noConfusion⟩
  · exact hp
  · exact ⟨by simp, Point.noConfusion⟩

theorem EndsAt.acquireNowait (hp : s.loop.point t = .outside) :
    EndsAt (acquireNowait s t).1 t (acquireNowait s t).2 := by
  unfold Lock.acquireNowait
  split_ifs
  · exact hp
  · exact hp
  · exact hp

theorem EndsAt.releaseAndRaise (inv : Inv s) (hp : s.loop.point t = .outside) :
    EndsAt (releaseAndRaise s t).1 t (releaseAndRaise s t).2 := by
  unfold Lock.releaseAndRaise
  split
  · exact (Bystander.release inv ‹_›).point.trans hp
  · exact hp

theorem EndsAt.resume (inv : Inv s) : EndsAt (resume s t).1 t (resume s t).2 := by
  unfold Lock.resume
  cases hp : s.loop.point t with
  | outside => exact hp
  | checkpointIfCancelled =>
      simp only
      split_ifs
      · simp [EndsAt]
      · exact ⟨by simp, Point.noConfusion⟩
  | shieldedCheckpoint =>
      simp only
      split_ifs
      · exact .releaseAndRaise (inv.resume_outside (by simp [hp])) (by simp)
      · simp [EndsAt]
  | waiting f =>
      simp only
      split_ifs
      · exact .releaseAndRaise (inv.leave_queue hp) (by simp)
      · simp [EndsAt]
      · simp [EndsAt]

theorem EndsAt.step (inv : Inv s) (hs : step s a = some (s', o)) : EndsAt s' a.task o := by
  cases a with
  | acquire t c =>
      obtain ⟨hp, hs⟩ := Option.ite_none_right_eq_some.mp hs
      have ends := EndsAt.acquire hp c
      rwa [Option.some.inj hs] at ends
  | acquireNowait t =>
      obtain ⟨hp, hs⟩ := Option.ite_none_right_eq_some.mp hs
      have ends := EndsAt.acquireNowait hp
      rwa [Option.some.inj hs] at ends
  | release t =>
      obtain ⟨hp, hs⟩ := Option.ite_none_right_eq_some.mp hs
      split at hs
      · cases hs
        exact (Bystander.release inv ‹_›).point.trans hp
      · cases hs
        exact hp
  | cancel t =>
      obtain ⟨hp, hs⟩ := Option.ite_none_right_eq_some.mp hs
      cases hs
      exact ⟨Loop.cancel_point s.loop t t, hp⟩
  | resume t =>
      obtain ⟨-, hs⟩ := Option.ite_none_right_eq_some.mp hs
      have ends := EndsAt.resume (t := t) inv
      rwa [Option.some.inj hs] at ends

/-- A task that does not hold the lock calls `acquire()` in a scope that is not cancelled:
the call does not fail, and waits where only a cancellation could end it. -/
theorem acquire_clean (inv : Inv s) (hp : s.loop.point t = .outside) (ho : s.ownerTask ≠ some t) :
    (∀ e, (acquire s t false).2 ≠ .raised e) ∧
      (acquire s t false).1.loop.throws t = false ∧
      (acquire s t false).1.loop.point t ≠ .checkpointIfCancelled := by
  have hm := inv.idle t hp
  unfold Lock.acquire
  simp only [Bool.false_eq_true, if_false, ho]
  split_ifs
  · simp [Loop.throws, Loop.waits, hp, hm, Coroutine.waits]
  · simp [Loop.throws, Loop.waits, hm, Coroutine.waits]
  · simp [Loop.throws, Loop.waits, hm, Coroutine.waits]

/-- A wait for the lock that is not interrupted ends with the lock. -/
theorem resume_clean (hthrow : s.loop.throws t = false)
    (hp : s.loop.point t ≠ .checkpointIfCancelled) : (resume s t).2 = .returned () := by
  unfold Lock.resume
  cases hpt : s.loop.point t with
  | checkpointIfCancelled => exact absurd hpt hp
  | _ => simp [hthrow]

end Anyio.Lock
