import Anyio.Semaphore.Model
import Mathlib.Data.List.Pairwise
import Mathlib.Tactic.Common

/-!
# The invariant of the asyncio `Semaphore`

The deque holds exactly the futures of the waits that were not handed a
permit, in the order of waiting. It follows that the future a release
completes is pending.
-/

namespace Anyio.Semaphore

open Asyncio Library

variable {τ : Type*}

/-- What holds in every reachable state of a semaphore, whoever calls `release`. -/
structure Inv (s : State τ) : Prop where
  owned : s.loop.Owned
  queue : ∀ f, f ∈ s.waiters ↔ ∃ t, s.loop.point t = .waiting f ∧ s.loop.future f ≠ .finished
  ordered : s.waiters.Pairwise (· < ·)
  nonneg : 0 ≤ s.value
  idle : ∀ t, s.loop.point t = .outside → (s.loop.task t).mustCancel = false

theorem waits_waiting {l : Loop τ Point} {t : τ} {f : FutureId} (h : l.point t = .waiting f) :
    l.waits t = .future f := by
  simp [Loop.waits, h, Coroutine.waits]

variable {s s' : State τ} {t : τ} {f : FutureId}

theorem Inv.fresh (inv : Inv s) {u : τ} {f : FutureId} (h : s.loop.point u = .waiting f) :
    f < s.loop.nextFuture :=
  inv.owned.created u f (waits_waiting h)

/-- A future has one waiting task. -/
theorem Inv.unique (inv : Inv s) {u v : τ} {f : FutureId} (hu : s.loop.point u = .waiting f)
    (hv : s.loop.point v = .waiting f) : u = v :=
  inv.owned.injective u v f (waits_waiting hu) (waits_waiting hv)

/-- A live future of the deque is pending. -/
theorem Inv.pending_of_mem (inv : Inv s) (h : f ∈ s.waiters)
    (hlive : s.loop.future f ≠ .cancelled) : s.loop.future f = .pending := by
  obtain ⟨t, -, hf⟩ := (inv.queue f).mp h
  cases hc : s.loop.future f <;> simp_all

/-- The future of a permit that was handed over has left the deque. -/
theorem Inv.not_mem_of_finished (inv : Inv s) (h : s.loop.future f = .finished) :
    f ∉ s.waiters := by
  intro hmem
  obtain ⟨t, -, hf⟩ := (inv.queue f).mp hmem
  exact hf h

theorem create_ok {initialValue : Int} {maxValue : Option Int} {fastAcquire : Bool}
    (h : create τ initialValue maxValue fastAcquire = .ok s) :
    0 ≤ initialValue ∧ (∀ m, maxValue = some m → initialValue ≤ m) ∧
      s = {
        fastAcquire := fastAcquire
        maxValue := maxValue
        value := initialValue
        waiters := []
        loop := Loop.initial .outside } := by
  unfold create at h
  split_ifs at h with hneg hmax
  refine ⟨not_lt.mp hneg, fun m hm => ?_, (Except.ok.inj h).symm⟩
  simpa [hm] using hmax

theorem Inv.created {initialValue : Int} {maxValue : Option Int} {fastAcquire : Bool}
    (h : create τ initialValue maxValue fastAcquire = .ok s) : Inv s := by
  obtain ⟨hnonneg, -, rfl⟩ := create_ok h
  constructor
  · constructor <;> simp [Loop.waits, Coroutine.waits]
  · simp
  · exact .nil
  · exact hnonneg
  · intro t _
    rfl

/-- Only the permits change. -/
theorem Inv.setValue (inv : Inv s) {v : Int} (hv : 0 ≤ v) : Inv { s with value := v } :=
  ⟨inv.owned, inv.queue, inv.ordered, hv, inv.idle⟩

/-- Leaving a wait whose future is not in the deque, or a point outside of the queue. -/
theorem Inv.leave [DecidableEq τ] (inv : Inv s)
    (hfrom : ∀ f, s.loop.point t = .waiting f → f ∉ s.waiters) {p : Point}
    (hp : ∀ f, p ≠ .waiting f) : Inv { s with loop := s.loop.resumeAt t p } := by
  constructor
  · refine inv.owned.leave (t := t) (p := p) (by simp) rfl fun f => ?_
    cases p <;> simp_all [Coroutine.waits]
  · intro f
    rw [inv.queue]
    constructor
    · rintro ⟨u, hu, hf⟩
      have hut : u ≠ t := by
        rintro rfl
        exact hfrom f hu ((inv.queue f).mpr ⟨u, hu, hf⟩)
      exact ⟨u, by simpa [hut] using hu, hf⟩
    · rintro ⟨u, hu, hf⟩
      by_cases hut : u = t
      · exact absurd (by simpa [hut] using hu) (hp f)
      · exact ⟨u, by simpa [hut] using hu, hf⟩
  · exact inv.ordered
  · exact inv.nonneg
  · intro u hu
    by_cases hut : u = t
    · simp [hut]
    · simpa [hut] using inv.idle u (by simpa [hut] using hu)

/-- A task outside of the queue goes to another point outside of it. -/
theorem Inv.move [DecidableEq τ] (inv : Inv s) (hfrom : s.loop.point t = .outside) {p : Point}
    (hp : ∀ f, p ≠ .waiting f) : Inv { s with loop := s.loop.moveTo t p } := by
  rw [Loop.moveTo_eq_resumeAt (inv.idle t hfrom)]
  exact inv.leave (by simp [hfrom]) hp

/-- Joining the queue with a new future. -/
theorem Inv.join [DecidableEq τ] (inv : Inv s) (hp : s.loop.point t = .outside) :
    Inv { s with
      waiters := s.waiters ++ [s.loop.nextFuture]
      loop := s.loop.createFuture.moveTo t (.waiting s.loop.nextFuture) } := by
  have hlt : ∀ g ∈ s.waiters, g < s.loop.nextFuture := by
    intro g hg
    obtain ⟨u, hu, -⟩ := (inv.queue g).mp hg
    exact inv.fresh hu
  constructor
  · exact inv.owned.await_new (t := t) (p := .waiting s.loop.nextFuture)
      (fun u => by simp) (by simp) rfl
  · intro g
    rw [List.mem_append, List.mem_singleton, inv.queue]
    constructor
    · rintro (⟨u, hu, hf⟩ | rfl)
      · have hut : u ≠ t := fun he => by simp [he, hp] at hu
        exact ⟨u, by simpa [hut] using hu, by simpa [(inv.fresh hu).ne] using hf⟩
      · exact ⟨t, by simp, by simp⟩
    · rintro ⟨u, hu, hf⟩
      by_cases hut : u = t
      · exact .inr (by simpa [hut, eq_comm] using hu)
      · have hu' : s.loop.point u = .waiting g := by simpa [hut] using hu
        exact .inl ⟨u, hu', by simpa [(inv.fresh hu').ne] using hf⟩
  · refine List.pairwise_append.mpr ⟨inv.ordered, List.pairwise_singleton _ _, ?_⟩
    intro g hg k hk
    rw [List.mem_singleton.mp hk]
    exact hlt g hg
  · exact inv.nonneg
  · intro u hu
    by_cases hut : u = t
    · simp [hut] at hu
    · simpa using inv.idle u (by simpa [hut] using hu)

/-- A cancelled wait takes its future out of the deque. -/
theorem Inv.withdraw [DecidableEq τ] (inv : Inv s) (hp : s.loop.point t = .waiting f) :
    Inv { s with waiters := s.waiters.erase f, loop := s.loop.resumeAt t .outside } := by
  have hnodup : s.waiters.Nodup := inv.ordered.imp fun h => h.ne
  constructor
  · exact inv.owned.leave (t := t) (p := .outside) (by simp) rfl (by simp [Coroutine.waits])
  · intro g
    rw [hnodup.mem_erase_iff, inv.queue]
    constructor
    · rintro ⟨hne, u, hu, hg⟩
      have hut : u ≠ t := fun he => hne (Point.waiting.inj ((he ▸ hu).symm.trans hp))
      exact ⟨u, by simpa [hut] using hu, hg⟩
    · rintro ⟨u, hu, hg⟩
      by_cases hut : u = t
      · simp [hut] at hu
      · have hu' : s.loop.point u = .waiting g := by simpa [hut] using hu
        exact ⟨fun he => hut (inv.unique (he ▸ hu') hp), u, hu', hg⟩
  · exact inv.ordered.sublist List.erase_sublist
  · exact inv.nonneg
  · intro u hu
    by_cases hut : u = t
    · simp [hut]
    · simpa [hut] using inv.idle u (by simpa [hut] using hu)

theorem Inv.cancel [DecidableEq τ] (inv : Inv s) (hp : s.loop.point t ≠ .outside) :
    Inv { s with loop := s.loop.cancel t } := by
  constructor
  · exact inv.owned.congr (fun u => by simp) (by simp)
  · simpa [Loop.cancel_finished_iff] using inv.queue
  · exact inv.ordered
  · exact inv.nonneg
  · intro u h
    have hu : u ≠ t := fun hu => hp (by simpa [hu] using h)
    simpa [hu] using inv.idle u (by simpa using h)

/-- What a successful `release` did: it handed a permit to the first waiter
whose future is not cancelled, or every waiter was cancelled. -/
theorem release_cases (h : release s = .ok s') :
    s.maxValue ≠ some s.value ∧
      ((∃ f ∈ s.waiters, s.loop.future f = .pending ∧
          s' = { s with
            waiters := s.waiters.erase f
            loop := { s.loop with future := Function.update s.loop.future f .finished } }) ∨
        (∀ f ∈ s.waiters, s.loop.future f = .cancelled) ∧
          s' = { s with value := s.value + 1 }) := by
  unfold release at h
  split_ifs at h with hmax
  refine ⟨hmax, ?_⟩
  split at h
  · rename_i f hfind
    split at h
    · rename_i l hset
      obtain ⟨hpending, rfl⟩ := Loop.setResult_eq_some.mp hset
      exact .inl ⟨f, List.mem_of_find?_eq_some hfind, hpending, (Except.ok.inj h).symm⟩
    · cases h
  · rename_i hfind
    exact .inr ⟨fun g hg => by simpa using List.find?_eq_none.mp hfind g hg,
      (Except.ok.inj h).symm⟩

/-- `release` fails only on the bound. -/
theorem Inv.release_error (inv : Inv s) {e : Error} (h : release s = .error e) :
    s.maxValue = some s.value ∧ e = releasedTooOften := by
  unfold release at h
  split_ifs at h with hmax
  · exact ⟨hmax, (Except.error.inj h).symm⟩
  · split at h
    · rename_i f hfind
      have hpending := inv.pending_of_mem (List.mem_of_find?_eq_some hfind)
        (by simpa using List.find?_some hfind)
      rw [Loop.setResult_eq_some.mpr ⟨hpending, rfl⟩] at h
      cases h
    · cases h

theorem Inv.release (inv : Inv s) (h : release s = .ok s') : Inv s' := by
  obtain ⟨-, ⟨f, hf, -, rfl⟩ | ⟨-, rfl⟩⟩ := release_cases h
  · have hnodup : s.waiters.Nodup := inv.ordered.imp fun h => h.ne
    obtain ⟨t, ht, -⟩ := (inv.queue f).mp hf
    refine ⟨inv.owned.congr (fun _ => rfl) le_rfl, fun g => ?_,
      inv.ordered.sublist List.erase_sublist, inv.nonneg, inv.idle⟩
    rw [hnodup.mem_erase_iff, inv.queue]
    by_cases hg : g = f
    · simp [hg]
    · simp [hg, Loop.point]
  · exact inv.setValue (Int.le_add_one inv.nonneg)

theorem Inv.releaseAndRaise (inv : Inv s) : Inv (releaseAndRaise s).1 := by
  unfold Semaphore.releaseAndRaise
  split
  · exact inv.release ‹_›
  · exact inv

variable [DecidableEq τ]

theorem Inv.acquire (inv : Inv s) (hp : s.loop.point t = .outside) (c : Bool) :
    Inv (acquire s t c).1 := by
  unfold Semaphore.acquire
  split_ifs with hfree hc hfast
  · exact inv.move hp (by simp)
  · exact inv.setValue (by omega)
  · exact (inv.setValue (v := s.value - 1) (by omega)).move hp (by simp)
  · exact inv.join hp

omit [DecidableEq τ] in
theorem Inv.acquireNowait (inv : Inv s) : Inv (acquireNowait s).1 := by
  have := inv.nonneg
  unfold Semaphore.acquireNowait
  split_ifs
  · exact inv
  · exact inv.setValue (by omega)

theorem Inv.resume (inv : Inv s) (hwake : s.loop.wakeUpQueued t = true) :
    Inv (resume s t).1 := by
  unfold Semaphore.resume
  cases hp : s.loop.point t with
  | outside => exact inv
  | checkpointIfCancelled =>
      simp only
      split_ifs
      · exact inv.leave (by simp [hp]) (by simp)
      · exact inv.leave (by simp [hp]) (by simp)
  | shieldedCheckpoint =>
      have left : Inv { s with loop := s.loop.resumeAt t .outside } :=
        inv.leave (by simp [hp]) (by simp)
      simp only
      split_ifs
      · exact left.releaseAndRaise
      · exact left
  | waiting f =>
      simp only
      split_ifs with hthrow hmem
      · exact inv.withdraw hp
      · have left : Inv { s with loop := s.loop.resumeAt t .outside } :=
          inv.leave (by simp [hp, hmem]) (by simp)
        exact left.releaseAndRaise
      · obtain ⟨-, hfin⟩ := Loop.finished_of_woken (waits_waiting hp) hwake hthrow
        refine inv.leave (fun g hg => ?_) (by simp)
        obtain rfl := Point.waiting.inj (hp.symm.trans hg)
        exact inv.not_mem_of_finished hfin

theorem Inv.step {a : Action τ} {o : Outcome Point Unit} (inv : Inv s)
    (h : step s a = some (s', o)) : Inv s' := by
  cases a with
  | acquire t c =>
      simp only [Semaphore.step, Option.ite_none_right_eq_some, Option.some.injEq] at h
      simpa [h.2] using inv.acquire h.1 c
  | acquireNowait t =>
      simp only [Semaphore.step, Option.ite_none_right_eq_some, Option.some.injEq] at h
      simpa [h.2] using inv.acquireNowait
  | release t =>
      simp only [Semaphore.step, Option.ite_none_right_eq_some] at h
      obtain ⟨-, h⟩ := h
      split at h
      · rename_i s'' hs''
        cases h
        exact inv.release hs''
      · cases h
        exact inv
  | cancel t =>
      simp only [Semaphore.step, Option.ite_none_right_eq_some, Option.some.injEq,
        Prod.mk.injEq] at h
      obtain ⟨hp, rfl, -⟩ := h
      exact inv.cancel hp
  | resume t =>
      simp only [Semaphore.step, Option.ite_none_right_eq_some, Option.some.injEq] at h
      simpa [h.2] using inv.resume h.1

end Anyio.Semaphore
