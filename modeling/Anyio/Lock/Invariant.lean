import Anyio.Lock.Model
import Mathlib.Data.List.Pairwise
import Mathlib.Tactic.Common

/-!
# The invariant of the asyncio `Lock`

The deque and the suspended tasks describe each other, the deque is in the
order of waiting, and a future in it is finished exactly while its task was
made the owner and has not resumed. Each call keeps this; `release` needs it
to know that the future it completes is pending.
-/

namespace Anyio.Lock

open Asyncio Library

variable {τ : Type*}

/-- What holds in every reachable state of a lock. -/
structure Inv (s : State τ) : Prop where
  owned : s.loop.Owned
  queue : ∀ t f, (t, f) ∈ s.waiters ↔ s.loop.point t = .waiting f
  ordered : s.waiters.Pairwise fun x y => x.2 < y.2
  granted : ∀ t f, s.loop.point t = .waiting f →
    (s.loop.future f = .finished ↔ s.ownerTask = some t)
  skipped : ∀ t f u g, s.loop.point t = .waiting f → s.loop.point u = .waiting g →
    s.loop.future g = .finished → f < g → s.loop.future f = .cancelled
  yielding : ∀ t, s.loop.point t = .shieldedCheckpoint → s.ownerTask = some t
  checking : ∀ t, s.loop.point t = .checkpointIfCancelled → s.ownerTask ≠ some t
  idle : ∀ t, s.loop.point t = .outside → (s.loop.task t).mustCancel = false

theorem waits_waiting {l : Loop τ Point} {t : τ} {f : FutureId} (h : l.point t = .waiting f) :
    l.waits t = .future f := by
  simp [Loop.waits, h, Coroutine.waits]

variable {s s' : State τ} {t : τ}

theorem Inv.fresh (inv : Inv s) {u : τ} {f : FutureId} (h : s.loop.point u = .waiting f) :
    f < s.loop.nextFuture :=
  inv.owned.created u f (waits_waiting h)

/-- A future in the deque has one waiting task. -/
theorem Inv.unique (inv : Inv s) {u v : τ} {f : FutureId} (hu : s.loop.point u = .waiting f)
    (hv : s.loop.point v = .waiting f) : u = v :=
  inv.owned.injective u v f (waits_waiting hu) (waits_waiting hv)

theorem Inv.initial (fastAcquire : Bool) : Inv (initial τ fastAcquire) := by
  constructor <;> simp [Lock.initial, Loop.initial, Loop.point]
  constructor <;> simp [Loop.waits, Loop.point, Coroutine.waits]

/-- The owner may change hands between tasks that are outside of the queue. -/
theorem Inv.take (inv : Inv s) (hnone : s.ownerTask = none) (hempty : s.waiters = [])
    (hp : s.loop.point t = .outside) : Inv { s with ownerTask := some t } := by
  have hw : ∀ u f, s.loop.point u ≠ .waiting f := by
    intro u f h
    have := (inv.queue u f).mpr h
    simp [hempty] at this
  refine ⟨inv.owned, inv.queue, inv.ordered, fun u f h => absurd h (hw u f),
    inv.skipped, ?_, ?_, inv.idle⟩
  · intro u h
    have := inv.yielding u h
    simp [hnone] at this
  · rintro u h ⟨⟩
    simp [hp] at h

variable [DecidableEq τ]

/-- Moving one task between points that are not in the queue. -/
theorem Inv.move (inv : Inv s) {p : Point} {l : Loop τ Point}
    (hl : ∀ u, l.point u = if u = t then p else s.loop.point u)
    (hfut : l.future = s.loop.future) (hnext : l.nextFuture = s.loop.nextFuture)
    (hfrom : ∀ f, s.loop.point t ≠ .waiting f) (hto : ∀ f, p ≠ .waiting f)
    (hy : p = .shieldedCheckpoint → s.ownerTask = some t)
    (hc : p = .checkpointIfCancelled → s.ownerTask ≠ some t)
    (hm : ∀ u, l.point u = .outside → (l.task u).mustCancel = false) :
    Inv { s with loop := l } := by
  have hwait : ∀ u f, l.point u = .waiting f ↔ s.loop.point u = .waiting f := by
    intro u f
    by_cases hu : u = t
    · subst hu
      simp [hl, hto f, hfrom f]
    · simp [hl, hu]
  constructor
  · apply inv.owned.leave hl hnext
    intro f
    cases p <;> simp_all [Coroutine.waits]
  · exact fun u f => (inv.queue u f).trans (hwait u f).symm
  · exact inv.ordered
  · intro u f h
    rw [hfut]
    exact inv.granted u f ((hwait u f).mp h)
  · intro u f v g hu hv hg hlt
    rw [hfut] at hg ⊢
    exact inv.skipped u f v g ((hwait u f).mp hu) ((hwait v g).mp hv) hg hlt
  · intro u h
    by_cases hu : u = t
    · subst hu
      exact hy (by simpa [hl] using h)
    · exact inv.yielding u (by simpa [hl, hu] using h)
  · intro u h
    by_cases hu : u = t
    · subst hu
      exact hc (by simpa [hl] using h)
    · exact inv.checking u (by simpa [hl, hu] using h)
  · exact hm

/-- Joining the queue with a new future. -/
theorem Inv.join (inv : Inv s) (hp : s.loop.point t = .outside) (ho : s.ownerTask ≠ some t) :
    Inv { s with
      waiters := s.waiters ++ [(t, s.loop.nextFuture)]
      loop := s.loop.createFuture.moveTo t (.waiting s.loop.nextFuture) } := by
  have hold : ∀ u f, s.loop.point u = .waiting f → f ≠ s.loop.nextFuture ∧ u ≠ t :=
    fun u f h => ⟨(inv.fresh h).ne, fun hu => by simp [hu, hp] at h⟩
  have hcase : ∀ u f, (s.loop.createFuture.moveTo t (.waiting s.loop.nextFuture)).point u =
      .waiting f → u = t ∧ f = s.loop.nextFuture ∨ u ≠ t ∧ s.loop.point u = .waiting f := by
    intro u f h
    by_cases hu : u = t
    · exact .inl ⟨hu, by simpa [hu, eq_comm] using h⟩
    · exact .inr ⟨hu, by simpa [hu] using h⟩
  constructor
  · exact inv.owned.await_new (t := t) (p := .waiting s.loop.nextFuture)
      (fun u => by simp) (by simp) rfl
  · intro u f
    by_cases hu : u = t
    · subst hu
      have hnot : (u, f) ∉ s.waiters := fun h => by
        simpa [hp] using (inv.queue u f).mp h
      simp [hnot, eq_comm]
    · simpa [hu] using inv.queue u f
  · refine List.pairwise_append.mpr ⟨inv.ordered, List.pairwise_singleton _ _, ?_⟩
    intro x hx y hy
    rw [List.mem_singleton.mp hy]
    exact inv.fresh ((inv.queue x.1 x.2).mp hx)
  · intro u f h
    rcases hcase u f h with ⟨rfl, rfl⟩ | ⟨hu, h⟩
    · simpa using ho
    · simpa [(hold u f h).1] using inv.granted u f h
  · intro u f v g hu hv hg hlt
    rcases hcase v g hv with ⟨rfl, rfl⟩ | ⟨-, hv'⟩
    · simp at hg
    · rcases hcase u f hu with ⟨rfl, rfl⟩ | ⟨-, hu'⟩
      · exact absurd hlt (Nat.lt_asymm (inv.fresh hv'))
      · simp only [Loop.moveTo_future, Loop.createFuture_future, (hold v g hv').1,
          (hold u f hu').1, if_false] at hg ⊢
        exact inv.skipped u f v g hu' hv' hg hlt
  · intro u h
    by_cases hu : u = t
    · simp [hu] at h
    · exact inv.yielding u (by simpa [hu] using h)
  · intro u h
    by_cases hu : u = t
    · simp [hu] at h
    · exact inv.checking u (by simpa [hu] using h)
  · intro u h
    by_cases hu : u = t
    · simp [hu] at h
    · simpa using inv.idle u (by simpa [hu] using h)

/-- Leaving the queue, with or without the lock. -/
theorem Inv.leave_queue (inv : Inv s) {f : FutureId} (hp : s.loop.point t = .waiting f) :
    Inv { s with
      waiters := s.waiters.erase (t, f)
      loop := s.loop.resumeAt t .outside } := by
  have hnodup : s.waiters.Nodup :=
    inv.ordered.imp fun h he => absurd h (by simp [he])
  have hwait : ∀ u g, (s.loop.resumeAt t .outside).point u = .waiting g →
      u ≠ t ∧ s.loop.point u = .waiting g := by
    intro u g h
    by_cases hu : u = t
    · simp [hu] at h
    · exact ⟨hu, by simpa [hu] using h⟩
  constructor
  · exact inv.owned.leave (t := t) (p := .outside) (fun u => by simp) rfl
      (by simp [Coroutine.waits])
  · intro u g
    rw [hnodup.mem_erase_iff, inv.queue]
    by_cases hu : u = t
    · subst hu
      have : s.loop.point u = .waiting g → g = f := fun h => by simpa [hp, eq_comm] using h
      simp only [ne_eq, Prod.mk.injEq, true_and, Loop.resumeAt_point, if_true, reduceCtorEq,
        iff_false, not_and]
      exact fun hne h => hne (this h)
    · simp [hu]
  · exact inv.ordered.sublist List.erase_sublist
  · intro u g h
    exact inv.granted u g (hwait u g h).2
  · intro u f v g hu hv hg hlt
    exact inv.skipped u f v g (hwait u f hu).2 (hwait v g hv).2 hg hlt
  · intro u h
    by_cases hu : u = t
    · simp [hu] at h
    · exact inv.yielding u (by simpa [hu] using h)
  · intro u h
    by_cases hu : u = t
    · simp [hu] at h
    · exact inv.checking u (by simpa [hu] using h)
  · intro u h
    by_cases hu : u = t
    · simp [hu]
    · simpa [hu] using inv.idle u (by simpa [hu] using h)

/-- A cancellation request. -/
theorem Inv.cancel (inv : Inv s) (hp : s.loop.point t ≠ .outside) :
    Inv { s with loop := s.loop.cancel t } := by
  constructor
  · exact inv.owned.congr (fun u => by simp) (by simp)
  · simpa using inv.queue
  · exact inv.ordered
  · intro u f h
    rw [Loop.cancel_finished_iff]
    exact inv.granted u f (by simpa using h)
  · intro u f v g hu hv hg hlt
    have := inv.skipped u f v g (by simpa using hu) (by simpa using hv)
      (Loop.cancel_finished_iff.mp hg) hlt
    rcases s.loop.cancel_future_cases t f with h | ⟨-, -, h⟩ <;> simp [*]
  · simpa using inv.yielding
  · simpa using inv.checking
  · intro u h
    have hu : u ≠ t := fun hu => hp (by simpa [hu] using h)
    simpa [hu] using inv.idle u (by simpa using h)

/-- What a successful `release` did: it gave the lock to the first waiter whose
future is not cancelled, and that future was pending; or every waiter was cancelled. -/
theorem release_cases (h : release s t = .ok s') :
    s.ownerTask = some t ∧
      ((∃ before u f after, s.waiters = before ++ (u, f) :: after ∧
          (∀ item ∈ before, s.loop.future item.2 = .cancelled) ∧
          s.loop.future f = .pending ∧
          s' = { s with
            ownerTask := some u
            loop := { s.loop with future := Function.update s.loop.future f .finished } }) ∨
        (∀ item ∈ s.waiters, s.loop.future item.2 = .cancelled) ∧
          s' = { s with ownerTask := none }) := by
  unfold release at h
  split_ifs at h with howner
  refine ⟨not_not.mp howner, ?_⟩
  split at h
  · rename_i u f hfind
    obtain ⟨-, before, after, hsplit, hbefore⟩ := List.find?_eq_some_iff_append.mp hfind
    split at h
    · rename_i l hset
      obtain ⟨hpending, rfl⟩ := Loop.setResult_eq_some.mp hset
      exact .inl ⟨before, u, f, after, hsplit, fun x hx => by simpa using hbefore x hx,
        hpending, (Except.ok.inj h).symm⟩
    · cases h
  · rename_i hfind
    exact .inr ⟨fun x hx => by simpa using List.find?_eq_none.mp hfind x hx,
      (Except.ok.inj h).symm⟩

/-- The owner's `release` never meets a finished future: the only future that
may be finished is the owner's own, and the owner left the queue. -/
theorem Inv.release_ok (inv : Inv s) (ho : s.ownerTask = some t)
    (hp : s.loop.point t = .outside) : ∃ s', release s t = .ok s' := by
  unfold release
  rw [if_neg (not_not.mpr ho)]
  split
  · rename_i u f hfind
    have hlive : s.loop.future f ≠ .cancelled := by
      simpa using List.find?_some hfind
    have hu := (inv.queue u f).mp (List.mem_of_find?_eq_some hfind)
    have hfin : s.loop.future f ≠ .finished := by
      intro hf
      have hown := (inv.granted u f hu).mp hf
      rw [ho, Option.some.injEq] at hown
      simp [← hown, hp] at hu
    have hpending : s.loop.future f = .pending := by
      cases hf : s.loop.future f <;> simp_all
    rw [Loop.setResult_eq_some.mpr ⟨hpending, rfl⟩]
    exact ⟨_, rfl⟩
  · exact ⟨_, rfl⟩

theorem Inv.release (inv : Inv s) (hp : s.loop.point t = .outside)
    (h : release s t = .ok s') : Inv s' := by
  obtain ⟨ho, hcases⟩ := release_cases h
  have hsome : ∀ u, s.ownerTask = some u → u = t := fun u hu => by simpa [ho, eq_comm] using hu
  have hwait : ∀ u f, s.loop.point u = .waiting f → s.ownerTask ≠ some u := by
    intro u f hu hown
    simp [hsome u hown, hp] at hu
  have hyield : ∀ u, s.loop.point u ≠ .shieldedCheckpoint := by
    intro u hu
    simp [hsome u (inv.yielding u hu), hp] at hu
  rcases hcases with ⟨before, u, f, after, hsplit, hbefore, hpending, rfl⟩ | ⟨-, rfl⟩
  · have hu : s.loop.point u = .waiting f := (inv.queue u f).mp (by simp [hsplit])
    have hother : ∀ v g, s.loop.point v = .waiting g → v ≠ u → g ≠ f := by
      rintro v g hv hne rfl
      exact hne (inv.unique hv hu)
    have hfin : ∀ v g, s.loop.point v = .waiting g →
        (Function.update s.loop.future f .finished g = .finished ↔ g = f) := by
      intro v g hv
      by_cases hg : g = f
      · simp [hg]
      · simp only [Function.update_of_ne hg, hg, iff_false]
        exact fun h => hwait v g hv ((inv.granted v g hv).mp h)
    refine ⟨inv.owned.congr (fun _ => rfl) le_rfl, inv.queue, inv.ordered, ?_, ?_, ?_, ?_, inv.idle⟩
    · intro v g hv
      rw [hfin v g hv]
      by_cases hvu : v = u
      · subst hvu
        simpa using Point.waiting.inj (hv.symm.trans hu)
      · simp [hother v g hv hvu, Ne.symm hvu]
    · intro v g w k hv hw hk hlt
      obtain rfl := (hfin w k hw).mp hk
      change Function.update s.loop.future k .finished g = .cancelled
      rw [Function.update_of_ne hlt.ne]
      have hmem : (v, g) ∈ before ++ (u, k) :: after := hsplit ▸ (inv.queue v g).mpr hv
      have hord : (before ++ (u, k) :: after).Pairwise fun x y => x.2 < y.2 := hsplit ▸ inv.ordered
      rcases List.mem_append.mp hmem with hmem | hmem
      · exact hbefore _ hmem
      · rcases List.mem_cons.mp hmem with heq | hmem
        · cases heq
          exact absurd hlt (Nat.lt_irrefl _)
        · have hlater := (List.pairwise_cons.mp (List.pairwise_append.mp hord).2.1).1 _ hmem
          exact absurd hlt (Nat.lt_asymm hlater)
    · exact fun v hv => absurd hv (hyield v)
    · rintro v hv ⟨⟩
      exact Point.noConfusion (hv.symm.trans hu)
  · refine ⟨inv.owned, inv.queue, inv.ordered, ?_, inv.skipped, ?_, ?_, inv.idle⟩
    · intro v g hv
      simpa using fun hf => hwait v g hv ((inv.granted v g hv).mp hf)
    · exact fun v hv => absurd hv (hyield v)
    · simp

/-- After a release the lock is free or belongs to a task that has not resumed. -/
theorem Inv.release_owner (inv : Inv s) (hs' : Lock.release s t = .ok s') (u : τ)
    (hu : s'.ownerTask = some u) : ∃ f, s'.loop.point u = .waiting f := by
  obtain ⟨-, ⟨before, v, f, after, hsplit, -, -, rfl⟩ | ⟨-, rfl⟩⟩ := release_cases hs'
  · refine ⟨f, ?_⟩
    obtain rfl : v = u := by simpa using hu
    exact (inv.queue v f).mp (by simp [hsplit])
  · simp at hu

theorem Inv.acquire (inv : Inv s) (hp : s.loop.point t = .outside) (c : Bool) :
    Inv (acquire s t c).1 := by
  have hfrom : ∀ f, s.loop.point t ≠ .waiting f := by simp [hp]
  unfold Lock.acquire
  split_ifs with hfree hc hfast hown
  · refine inv.move (t := t) (p := .checkpointIfCancelled) (by simp) rfl rfl hfrom (by simp)
      (by simp) (by simp [hfree.1]) fun u hu => ?_
    have hne : u ≠ t := fun he => by simp [he] at hu
    simpa using inv.idle u (by simpa [hne] using hu)
  · exact inv.take hfree.1 hfree.2 hp
  · refine (inv.take hfree.1 hfree.2 hp).move (t := t) (p := .shieldedCheckpoint) (by simp) rfl rfl
      hfrom (by simp) (by simp) (by simp) fun u hu => ?_
    have hne : u ≠ t := fun he => by simp [he] at hu
    simpa using inv.idle u (by simpa [hne] using hu)
  · exact inv
  · exact inv.join hp hown

theorem Inv.acquireNowait (inv : Inv s) (hp : s.loop.point t = .outside) :
    Inv (acquireNowait s t).1 := by
  unfold Lock.acquireNowait
  split_ifs with hfree
  · exact inv.take hfree.1 hfree.2 hp
  · exact inv
  · exact inv

/-- The `except` blocks: the lock is released and the `CancelledError` is raised. -/
theorem Inv.releaseAndRaise (inv : Inv s) (hp : s.loop.point t = .outside)
    (ho : s.ownerTask = some t) :
    ∃ s', Lock.release s t = .ok s' ∧ Inv s' ∧
      releaseAndRaise s t = (s', .raised .cancelledError) := by
  obtain ⟨s', hs'⟩ := inv.release_ok ho hp
  exact ⟨s', hs', inv.release hp hs', by simp [Lock.releaseAndRaise, hs']⟩

/-- Resuming from an await outside of the queue. -/
theorem Inv.resume_outside (inv : Inv s) (hfrom : ∀ f, s.loop.point t ≠ .waiting f) :
    Inv { s with loop := s.loop.resumeAt t .outside } := by
  refine inv.move (t := t) (p := .outside) (by simp) rfl rfl hfrom (by simp) (by simp) (by simp)
    fun u hu => ?_
  by_cases hne : u = t
  · simp [hne]
  · simpa [hne] using inv.idle u (by simpa [hne] using hu)

theorem Inv.resume (inv : Inv s) : Inv (resume s t).1 := by
  unfold Lock.resume
  cases hp : s.loop.point t with
  | outside => exact inv
  | checkpointIfCancelled =>
      simp only
      split_ifs
      · exact inv.resume_outside (by simp [hp])
      · refine inv.move (t := t) (p := .checkpointIfCancelled) (by simp) rfl rfl (by simp [hp])
          (by simp) (by simp) (fun _ => inv.checking t hp) fun u hu => ?_
        have hne : u ≠ t := fun he => by simp [he] at hu
        simpa [hne] using inv.idle u (by simpa [hne] using hu)
  | shieldedCheckpoint =>
      have left := inv.resume_outside (t := t) (by simp [hp])
      simp only
      split_ifs
      · obtain ⟨s', -, inv', heq⟩ := left.releaseAndRaise (by simp) (inv.yielding t hp)
        rw [heq]
        exact inv'
      · exact left
  | waiting fut =>
      have left := inv.leave_queue hp
      simp only
      split_ifs with _ ho
      · obtain ⟨s', -, inv', heq⟩ := left.releaseAndRaise (by simp) ho
        rw [heq]
        exact inv'
      · exact left
      · exact left

theorem Inv.step {a : Action τ} {o : Outcome Point Unit} (inv : Inv s)
    (h : step s a = some (s', o)) : Inv s' := by
  cases a with
  | acquire t c =>
      simp only [Lock.step, Option.ite_none_right_eq_some, Option.some.injEq] at h
      simpa [h.2] using inv.acquire h.1 c
  | acquireNowait t =>
      simp only [Lock.step, Option.ite_none_right_eq_some, Option.some.injEq] at h
      simpa [h.2] using inv.acquireNowait h.1
  | release t =>
      simp only [Lock.step, Option.ite_none_right_eq_some] at h
      obtain ⟨hp, h⟩ := h
      split at h
      · rename_i s'' hs''
        cases h
        exact inv.release hp hs''
      · cases h
        exact inv
  | cancel t =>
      simp only [Lock.step, Option.ite_none_right_eq_some, Option.some.injEq, Prod.mk.injEq] at h
      obtain ⟨hp, rfl, -⟩ := h
      exact inv.cancel hp
  | resume t =>
      simp only [Lock.step, Option.ite_none_right_eq_some, Option.some.injEq] at h
      simpa [h.2] using inv.resume (t := t)

end Anyio.Lock
