import Anyio.Lock.Invariant

/-!
# Waiters of the asyncio `Lock` that nobody wakes

`release` skips the cancelled waiters, and leaves the lock free when there are
no others; their entries stay in the deque until they resume. An `acquire()`
in between finds the lock free and the deque not empty, so it queues up behind
waiters that will only remove themselves.
-/

namespace Anyio.Lock

open Asyncio Library

variable {τ : Type*}

/-- `acquire()` is not entered while the lock is free but its deque is not empty. -/
def EntersClean (s : State τ) : Action τ → Prop
  | .acquire _ _ => s.ownerTask = none → s.waiters = []
  | _ => True

instance (s : State τ) (a : Action τ) : Decidable (EntersClean s a) :=
  match a with
  | .acquire _ _ => inferInstanceAs (Decidable (s.ownerTask = none → s.waiters = []))
  | .acquireNowait _ | .release _ | .cancel _ | .resume _ => .isTrue trivial

/-- While the lock is free, every waiter is cancelled. -/
def FreeIsClear (s : State τ) : Prop :=
  s.ownerTask = none → ∀ t f, s.loop.point t = .waiting f → s.loop.future f = .cancelled

variable {s s' : State τ} {t : τ}

theorem FreeIsClear.of_owner (h : s.ownerTask ≠ none) : FreeIsClear s := fun hn => absurd hn h

theorem FreeIsClear.initial (fastAcquire : Bool) : FreeIsClear (initial τ fastAcquire) := by
  intro _ t f hf
  simp [Lock.initial] at hf

/-- The waits may shrink, and their futures stay cancelled. -/
theorem FreeIsClear.frame (clear : FreeIsClear s) (ho : s'.ownerTask = none → s.ownerTask = none)
    (hp : ∀ t f, s'.loop.point t = .waiting f → s.loop.point t = .waiting f)
    (hf : ∀ f, s.loop.future f = .cancelled → s'.loop.future f = .cancelled) :
    FreeIsClear s' :=
  fun hn t f ht => hf f (clear (ho hn) t f (hp t f ht))

variable [DecidableEq τ]

/-- A release that leaves the lock free found nobody to wake. -/
theorem FreeIsClear.release (inv : Inv s) (h : release s t = .ok s') : FreeIsClear s' := by
  obtain ⟨-, ⟨before, u, f, after, -, -, -, rfl⟩ | ⟨hall, rfl⟩⟩ := release_cases h
  · exact .of_owner (by simp)
  · exact fun _ v g hv => hall (v, g) ((inv.queue v g).mpr hv)

theorem FreeIsClear.releaseAndRaise (inv : Inv s) (hp : s.loop.point t = .outside)
    (ho : s.ownerTask = some t) : FreeIsClear (releaseAndRaise s t).1 := by
  obtain ⟨s', hs', -, heq⟩ := inv.releaseAndRaise hp ho
  rw [heq]
  exact .release inv hs'

theorem FreeIsClear.acquire (clear : FreeIsClear s) (c : Bool)
    (ok : s.ownerTask = none → s.waiters = []) : FreeIsClear (acquire s t c).1 := by
  unfold Lock.acquire
  split_ifs with hfree hc hfast hown
  · refine clear.frame id (fun u f hu => ?_) fun _ => id
    by_cases hut : u = t
    · simp [hut] at hu
    · simpa [hut] using hu
  · exact .of_owner (by simp)
  · exact .of_owner (by simp)
  · exact clear
  · exact .of_owner fun hn => hfree ⟨hn, ok hn⟩

theorem FreeIsClear.resume (clear : FreeIsClear s) (inv : Inv s) :
    FreeIsClear (resume s t).1 := by
  have hleave : ∀ (p : Point) u f, (∀ g, p ≠ .waiting g) →
      (s.loop.resumeAt t p).point u = .waiting f → s.loop.point u = .waiting f := by
    intro p u f hp hu
    by_cases hut : u = t
    · exact absurd (by simpa [hut] using hu) (hp f)
    · simpa [hut] using hu
  unfold Lock.resume
  cases hp : s.loop.point t with
  | outside => exact clear
  | checkpointIfCancelled =>
      simp only
      split_ifs
      · exact clear.frame id (fun u f => hleave _ u f (by simp)) fun _ => id
      · exact clear.frame id (fun u f => hleave _ u f (by simp)) fun _ => id
  | shieldedCheckpoint =>
      simp only
      split_ifs
      · exact .releaseAndRaise (inv.resume_outside (by simp [hp])) (by simp) (inv.yielding t hp)
      · exact clear.frame id (fun u f => hleave _ u f (by simp)) fun _ => id
  | waiting fut =>
      simp only
      split_ifs with _ ho
      · exact .releaseAndRaise (inv.leave_queue hp) (by simp) ho
      · exact clear.frame id (fun u f => hleave _ u f (by simp)) fun _ => id
      · exact clear.frame id (fun u f => hleave _ u f (by simp)) fun _ => id

theorem FreeIsClear.step {a : Action τ} {o : Outcome Point Unit} (clear : FreeIsClear s)
    (inv : Inv s) (ok : EntersClean s a) (h : step s a = some (s', o)) : FreeIsClear s' := by
  cases a with
  | acquire t c =>
      simp only [Lock.step, Option.ite_none_right_eq_some, Option.some.injEq] at h
      simpa [h.2] using clear.acquire (t := t) c ok
  | acquireNowait t =>
      simp only [Lock.step, Option.ite_none_right_eq_some, Option.some.injEq] at h
      obtain ⟨-, h⟩ := h
      unfold Lock.acquireNowait at h
      split_ifs at h <;> cases h
      · exact .of_owner (by simp)
      · exact clear
      · exact clear
  | release t =>
      simp only [Lock.step, Option.ite_none_right_eq_some] at h
      obtain ⟨-, h⟩ := h
      split at h
      · rename_i s'' hs''
        cases h
        exact .release inv hs''
      · cases h
        exact clear
  | cancel t =>
      simp only [Lock.step, Option.ite_none_right_eq_some, Option.some.injEq, Prod.mk.injEq] at h
      obtain ⟨-, rfl, -⟩ := h
      refine clear.frame id (by simp) fun f hf => ?_
      simp only
      rw [Loop.cancel_future_of_done (by simp [hf]), hf]
  | resume t =>
      simp only [Lock.step, Option.ite_none_right_eq_some, Option.some.injEq] at h
      simpa [h.2] using clear.resume (t := t) inv

/-- In a run in which `acquire()` is never entered while the lock is free and
its deque is not empty, no task is left suspended once the lock is free and
no wake-up is queued. -/
theorem free_lock_strands_nobody {fastAcquire : Bool}
    (run : (machine τ).Reachable EntersClean (Lock.initial τ fastAcquire) s)
    (quiet : s.loop.Quiescent) (free : s.ownerTask = none) (t : τ) :
    s.loop.point t = .outside := by
  obtain ⟨inv, clear⟩ : Inv s ∧ FreeIsClear s :=
    run.invariant (I := fun s => Inv s ∧ FreeIsClear s)
      ⟨.initial fastAcquire, .initial fastAcquire⟩ fun _ _ _ _ hi ok h =>
        ⟨hi.1.step h, hi.2.step hi.1 ok h⟩
  have hq := quiet t
  cases hp : s.loop.point t with
  | outside => rfl
  | checkpointIfCancelled => simp [Loop.wakeUpQueued, Loop.waits, hp, Coroutine.waits] at hq
  | shieldedCheckpoint => simp [Loop.wakeUpQueued, Loop.waits, hp, Coroutine.waits] at hq
  | waiting f =>
      have hcancelled := clear free t f hp
      simp [Loop.wakeUpQueued, waits_waiting hp, hcancelled] at hq

/-- Task 1 waits, is cancelled and resumes after task 0 has released the lock;
nobody else calls `acquire()` meanwhile. -/
def cancelledWaiter : State (Fin 2) :=
  ((machine (Fin 2)).exec EntersClean (Lock.initial (Fin 2) false)
    [.acquireNowait 0, .acquire 1 false, .cancel 1, .release 0, .resume 1]).get (by decide)

theorem free_lock_strands_nobody_cancelled :
    cancelledWaiter.loop.Quiescent ∧ cancelledWaiter.ownerTask = none ∧
      cancelledWaiter.loop.point 1 = .outside := by
  have run : (machine (Fin 2)).Reachable EntersClean (Lock.initial (Fin 2) false)
      cancelledWaiter := Machine.exec_get_reachable _ _ _
  exact ⟨by decide, by decide, free_lock_strands_nobody run (by decide) (by decide) 1⟩

/-- Task 1 waits and is cancelled, task 0 releases the lock, and before task 1
resumes task 2 calls `acquire()`: it waits for a lock that is free. -/
def strandedWaiter : State (Fin 3) :=
  ((machine (Fin 3)).exec Machine.anyStep (Lock.initial (Fin 3) false)
    [.acquireNowait 0, .acquire 1 false, .cancel 1, .release 0, .acquire 2 false,
      .resume 1]).get (by decide)

/-- A reachable state in which the lock is free, no wake-up is queued and a
task is suspended in `acquire()`. -/
theorem free_lock_strands_waiter :
    (machine (Fin 3)).Reachable Machine.anyStep (Lock.initial (Fin 3) false) strandedWaiter ∧
      strandedWaiter.loop.Quiescent ∧ strandedWaiter.ownerTask = none ∧
      strandedWaiter.loop.point 2 = .waiting 1 :=
  ⟨Machine.exec_get_reachable _ _ _, by decide, by decide, by decide⟩

end Anyio.Lock
