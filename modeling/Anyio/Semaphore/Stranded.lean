import Anyio.Semaphore.Permits

/-!
# Waiters of the asyncio `Semaphore` that nobody wakes

`release` skips the cancelled waiters and counts `_value` up when there are no
others, while their futures stay in the deque until they resume. An
`acquire()` in between finds a positive value and a deque that is not empty,
so it queues up behind waiters that will only remove themselves.
-/

namespace Anyio.Semaphore

open Asyncio Library

variable {τ : Type*}

/-- `acquire()` is not entered while a permit is free but the deque is not empty. -/
def EntersClean (s : State τ) : Action τ → Prop
  | .acquire _ _ => 0 < s.value → s.waiters = []
  | _ => True

instance (s : State τ) (a : Action τ) : Decidable (EntersClean s a) :=
  match a with
  | .acquire _ _ => inferInstanceAs (Decidable (0 < s.value → s.waiters = []))
  | .acquireNowait _ | .release _ | .cancel _ | .resume _ => .isTrue trivial

/-- While a permit is free, nobody waits on a pending future. -/
def FreeIsClear (s : State τ) : Prop :=
  0 < s.value → ∀ t f, s.loop.point t = .waiting f → s.loop.future f ≠ .pending

variable {s s' : State τ} {t : τ}

/-- The free permits and the waits may shrink, and no future becomes pending. -/
theorem FreeIsClear.frame (clear : FreeIsClear s) (hv : 0 < s'.value → 0 < s.value)
    (hp : ∀ t f, s'.loop.point t = .waiting f → s.loop.point t = .waiting f)
    (hf : ∀ f, s.loop.future f ≠ .pending → s'.loop.future f ≠ .pending) : FreeIsClear s' :=
  fun hn t f ht => hf f (clear (hv hn) t f (hp t f ht))

/-- A release that makes a permit free found nobody to hand it to. -/
theorem FreeIsClear.release (clear : FreeIsClear s) (inv : Inv s) (h : release s = .ok s') :
    FreeIsClear s' := by
  obtain ⟨-, ⟨f, -, -, rfl⟩ | ⟨hall, rfl⟩⟩ := release_cases h
  · refine clear.frame id (fun _ _ => id) fun g hg => ?_
    by_cases hgf : g = f
    · simp [hgf]
    · simpa [Function.update_of_ne hgf] using hg
  · intro _ u g hu hpending
    change s.loop.future g = .pending at hpending
    have hmem : g ∈ s.waiters := (inv.queue g).mpr ⟨u, hu, by simp [hpending]⟩
    have hc := hall g hmem
    simp [hpending] at hc

theorem FreeIsClear.releaseAndRaise (clear : FreeIsClear s) (inv : Inv s) :
    FreeIsClear (releaseAndRaise s).1 := by
  unfold Semaphore.releaseAndRaise
  split
  · exact clear.release inv ‹_›
  · exact clear

variable [DecidableEq τ]

theorem FreeIsClear.acquire (clear : FreeIsClear s) (c : Bool)
    (ok : 0 < s.value → s.waiters = []) : FreeIsClear (acquire s t c).1 := by
  have hmove : ∀ p : Point, (∀ g, p ≠ .waiting g) → ∀ u f,
      (s.loop.moveTo t p).point u = .waiting f → s.loop.point u = .waiting f := by
    intro p hp u f hu
    by_cases hut : u = t
    · exact absurd (by simpa [hut] using hu) (hp f)
    · simpa [hut] using hu
  unfold Semaphore.acquire
  split_ifs with hfree hc hfast
  · exact clear.frame id (hmove _ (by simp)) fun _ => id
  · exact clear.frame (fun _ => hfree.1) (fun _ _ => id) fun _ => id
  · exact clear.frame (fun _ => hfree.1) (hmove _ (by simp)) fun _ => id
  · exact fun hv => absurd ⟨hv, ok hv⟩ hfree

theorem FreeIsClear.resume (clear : FreeIsClear s) (inv : Inv s) :
    FreeIsClear (resume s t).1 := by
  have hleave : ∀ p : Point, (∀ g, p ≠ .waiting g) → ∀ u f,
      (s.loop.resumeAt t p).point u = .waiting f → s.loop.point u = .waiting f := by
    intro p hp u f hu
    by_cases hut : u = t
    · exact absurd (by simpa [hut] using hu) (hp f)
    · simpa [hut] using hu
  have hout : FreeIsClear { s with loop := s.loop.resumeAt t .outside } :=
    clear.frame id (hleave _ (by simp)) fun _ => id
  unfold Semaphore.resume
  cases hp : s.loop.point t with
  | outside => exact clear
  | checkpointIfCancelled =>
      simp only
      split_ifs
      · exact hout
      · exact clear.frame id (hleave _ (by simp)) fun _ => id
  | shieldedCheckpoint =>
      simp only
      split_ifs
      · exact hout.releaseAndRaise (inv.leave (by simp [hp]) (by simp))
      · exact hout
  | waiting f =>
      simp only
      split_ifs with _ hmem
      · exact hout.frame id (fun _ _ => id) fun _ => id
      · exact hout.releaseAndRaise (inv.leave (by simp [hp, hmem]) (by simp))
      · exact hout

theorem FreeIsClear.step {a : Action τ} {o : Outcome Point Unit} (clear : FreeIsClear s)
    (inv : Inv s) (ok : EntersClean s a) (h : step s a = some (s', o)) : FreeIsClear s' := by
  cases a with
  | acquire t c =>
      simp only [Semaphore.step, Option.ite_none_right_eq_some, Option.some.injEq] at h
      simpa [h.2] using clear.acquire (t := t) c ok
  | acquireNowait t =>
      simp only [Semaphore.step, Option.ite_none_right_eq_some, Option.some.injEq] at h
      obtain ⟨-, h⟩ := h
      unfold Semaphore.acquireNowait at h
      split_ifs at h <;> cases h
      · exact clear
      · exact clear.frame (fun hv => by simp only at hv; omega) (fun _ _ => id) fun _ => id
  | release t =>
      simp only [Semaphore.step, Option.ite_none_right_eq_some] at h
      obtain ⟨-, h⟩ := h
      split at h
      · rename_i s'' hs''
        cases h
        exact clear.release inv hs''
      · cases h
        exact clear
  | cancel t =>
      simp only [Semaphore.step, Option.ite_none_right_eq_some, Option.some.injEq,
        Prod.mk.injEq] at h
      obtain ⟨-, rfl, -⟩ := h
      refine clear.frame id (by simp) fun f hf => ?_
      simp only
      rw [Loop.cancel_future_of_done hf]
      exact hf
  | resume t =>
      simp only [Semaphore.step, Option.ite_none_right_eq_some, Option.some.injEq] at h
      simpa [h.2] using clear.resume (t := t) inv

/-- In a run in which `acquire()` is never entered while a permit is free and
the deque is not empty, no task is left suspended once a permit is free and no
wake-up is queued. -/
theorem free_permit_strands_nobody {initialValue : Int} {maxValue : Option Int} {fastAcquire : Bool}
    {start : State τ} (hcreate : create τ initialValue maxValue fastAcquire = .ok start)
    (run : (machine τ).Reachable EntersClean start s)
    (quiet : s.loop.Quiescent) (free : 0 < s.value) (t : τ) : s.loop.point t = .outside := by
  have hstart : FreeIsClear start := by
    obtain ⟨-, -, rfl⟩ := create_ok hcreate
    intro _ u f hu
    simp at hu
  obtain ⟨inv, clear⟩ : Inv s ∧ FreeIsClear s :=
    run.invariant (I := fun s => Inv s ∧ FreeIsClear s) ⟨.created hcreate, hstart⟩
      fun _ _ _ _ hi ok h => ⟨hi.1.step h, hi.2.step hi.1 ok h⟩
  have hq := quiet t
  cases hp : s.loop.point t with
  | outside => rfl
  | checkpointIfCancelled => simp [Loop.wakeUpQueued, Loop.waits, hp, Coroutine.waits] at hq
  | shieldedCheckpoint => simp [Loop.wakeUpQueued, Loop.waits, hp, Coroutine.waits] at hq
  | waiting f =>
      have hpending := clear free t f hp
      simp [Loop.wakeUpQueued, waits_waiting hp, hpending] at hq

/-- Task 1 waits, is cancelled and resumes after task 0 has released its permit;
nobody else calls `acquire()` meanwhile. -/
def cancelledWaiter : State (Fin 2) :=
  ((machine (Fin 2)).exec EntersClean (onePermit (Fin 2))
    [.acquireNowait 0, .acquire 1 false, .cancel 1, .release 0, .resume 1]).get (by decide)

theorem free_permit_strands_nobody_cancelled :
    cancelledWaiter.loop.Quiescent ∧ cancelledWaiter.value = 1 ∧
      cancelledWaiter.loop.point 1 = .outside := by
  have run : (machine (Fin 2)).Reachable EntersClean (onePermit (Fin 2)) cancelledWaiter :=
    Machine.exec_get_reachable _ _ _
  have created : create (Fin 2) 1 (some 1) false = .ok (onePermit (Fin 2)) := rfl
  exact ⟨by decide, by decide, free_permit_strands_nobody created run (by decide) (by decide) 1⟩

/-- Task 1 waits and is cancelled, task 0 releases its permit, and before task
1 resumes task 2 calls `acquire()`: it waits although a permit is free. -/
def strandedWaiter : State (Fin 3) :=
  ((machine (Fin 3)).exec Machine.anyStep (onePermit (Fin 3))
    [.acquireNowait 0, .acquire 1 false, .cancel 1, .release 0, .acquire 2 false,
      .resume 1]).get (by decide)

/-- A reachable state in which a permit is free, no wake-up is queued and a
task is suspended in `acquire()`. -/
theorem free_permit_strands_waiter :
    create (Fin 3) 1 (some 1) false = .ok (onePermit (Fin 3)) ∧
      (machine (Fin 3)).Reachable Machine.anyStep (onePermit (Fin 3)) strandedWaiter ∧
      strandedWaiter.loop.Quiescent ∧ 0 < strandedWaiter.value ∧
      strandedWaiter.loop.point 2 = .waiting 1 :=
  ⟨rfl, Machine.exec_get_reachable _ _ _, by decide, by decide, by decide⟩

end Anyio.Semaphore
