import Anyio.Semaphore.Invariant
import Mathlib.Data.Set.Card

/-!
# Conservation of the permits of an asyncio `Semaphore`

A permit is counted in `_value`, recorded as held by a task whose acquire
succeeded, taken by a task that is still in the checkpoint of its fast
acquire, or handed to a waiter that has not resumed. Whoever raises out of
`acquire()` in the last two places gives its permit back on the way.
-/

namespace Anyio.Semaphore

open Asyncio Library

variable {τ : Type*}

/-- The tasks that took a permit and are in the checkpoint after it. -/
def yielding (s : State τ) : Set τ := { t | s.loop.point t = .shieldedCheckpoint }

/-- The waiters that were handed a permit and have not resumed. -/
def handed (s : State τ) : Set τ :=
  { t | ∃ f, s.loop.point t = .waiting f ∧ s.loop.future f = .finished }

/-- The permits that are not held by a task outside `acquire()` add up to `n`. -/
structure Balanced (s : State τ) (n : Int) : Prop where
  finite_yielding : (yielding s).Finite
  finite_handed : (handed s).Finite
  total : s.value + (yielding s).ncard + (handed s).ncard = n

variable {s s' : State τ} {t : τ} {f : FutureId} {n : Int}

theorem Balanced.value_le (b : Balanced s n) : s.value ≤ n := by
  have := b.total
  omega

theorem Balanced.congr {m : Int} (b : Balanced s n) (h : n = m) : Balanced s m := h ▸ b

/-- The sets did not change, and the count changed with the value. -/
theorem Balanced.frame {r : State τ} (b : Balanced s n) (hy : yielding r = yielding s)
    (hh : handed r = handed s) : Balanced r (n + (r.value - s.value)) := by
  refine ⟨hy ▸ b.finite_yielding, hh ▸ b.finite_handed, ?_⟩
  rw [hy, hh]
  have := b.total
  omega

theorem Balanced.insert_yielding {r : State τ} (b : Balanced s n)
    (hy : yielding r = insert t (yielding s)) (ht : t ∉ yielding s) (hh : handed r = handed s) :
    Balanced r (n + (r.value - s.value) + 1) := by
  refine ⟨hy ▸ b.finite_yielding.insert t, hh ▸ b.finite_handed, ?_⟩
  rw [hy, hh, Set.ncard_insert_of_notMem ht b.finite_yielding]
  have := b.total
  push_cast
  omega

theorem Balanced.insert_handed {r : State τ} (b : Balanced s n) (hy : yielding r = yielding s)
    (hh : handed r = insert t (handed s)) (ht : t ∉ handed s) :
    Balanced r (n + (r.value - s.value) + 1) := by
  refine ⟨hy ▸ b.finite_yielding, hh ▸ b.finite_handed.insert t, ?_⟩
  rw [hy, hh, Set.ncard_insert_of_notMem ht b.finite_handed]
  have := b.total
  push_cast
  omega

theorem Balanced.remove_yielding (b : Balanced s n) (hy : yielding s' = yielding s \ {t})
    (ht : t ∈ yielding s) (hh : handed s' = handed s) (hv : s'.value = s.value) :
    Balanced s' (n - 1) := by
  refine ⟨hy ▸ b.finite_yielding.subset Set.sdiff_subset, hh ▸ b.finite_handed, ?_⟩
  have hcard := Set.ncard_sdiff_singleton_add_one ht b.finite_yielding
  rw [hy, hh, hv]
  have := b.total
  omega

theorem Balanced.remove_handed (b : Balanced s n) (hy : yielding s' = yielding s)
    (hh : handed s' = handed s \ {t}) (ht : t ∈ handed s) (hv : s'.value = s.value) :
    Balanced s' (n - 1) := by
  refine ⟨hy ▸ b.finite_yielding, hh ▸ b.finite_handed.subset Set.sdiff_subset, ?_⟩
  have hcard := Set.ncard_sdiff_singleton_add_one ht b.finite_handed
  rw [hy, hh, hv]
  have := b.total
  omega

/-- `release` puts one permit back, below the bound it checks. -/
theorem Balanced.release (b : Balanced s n) (inv : Inv s)
    (hmax : ∀ m, s.maxValue = some m → n < m) :
    ∃ s', release s = .ok s' ∧ Balanced s' (n + 1) := by
  cases h : Semaphore.release s with
  | error e =>
      have hbound := hmax s.value (inv.release_error h).1
      exact absurd b.value_le (not_le.mpr hbound)
  | ok s' =>
      refine ⟨s', rfl, ?_⟩
      obtain ⟨-, ⟨f, hf, hpending, rfl⟩ | ⟨-, rfl⟩⟩ := release_cases h
      · obtain ⟨u, hu, -⟩ := (inv.queue f).mp hf
        have hnot : u ∉ handed s := by
          rintro ⟨g, hg, hfin⟩
          obtain rfl := Point.waiting.inj (hu.symm.trans hg)
          simp [hpending] at hfin
        have hb := b.insert_handed (t := u) (r := { s with
            waiters := s.waiters.erase f
            loop := { s.loop with future := Function.update s.loop.future f .finished } })
          rfl ?_ hnot
        · simpa using hb
        · ext v
          change (∃ g, s.loop.point v = .waiting g ∧
            Function.update s.loop.future f .finished g = .finished) ↔ v = u ∨ v ∈ handed s
          constructor
          · rintro ⟨g, hg, hfin⟩
            by_cases hgf : g = f
            · exact .inl (inv.unique (hgf ▸ hg) hu)
            · exact .inr ⟨g, hg, by simpa [Function.update_of_ne hgf] using hfin⟩
          · rintro (rfl | ⟨g, hg, hfin⟩)
            · exact ⟨f, hu, by simp⟩
            · have hgf : g ≠ f := fun he => by simp [he, hpending] at hfin
              exact ⟨g, hg, by simpa [Function.update_of_ne hgf] using hfin⟩
      · simpa using b.frame (r := { s with value := s.value + 1 }) rfl rfl

theorem Balanced.releaseAndRaise (b : Balanced s n) (inv : Inv s)
    (hmax : ∀ m, s.maxValue = some m → n < m) :
    ∃ s', Semaphore.release s = .ok s' ∧ Balanced s' (n + 1) ∧
      releaseAndRaise s = (s', .raised .cancelledError) := by
  obtain ⟨s', hs', hb⟩ := b.release inv hmax
  exact ⟨s', hs', hb, by simp [Semaphore.releaseAndRaise, hs']⟩

/-- A task that leaves a point without a permit changes no set. -/
theorem Balanced.move [DecidableEq τ] (b : Balanced s n) {p : Point}
    (hy : t ∉ yielding s) (hh : t ∉ handed s) (hp : p ≠ .shieldedCheckpoint)
    (hl : ∀ u, s'.loop.point u = if u = t then p else s.loop.point u)
    (hf : ∀ u g, u ≠ t → s.loop.point u = .waiting g →
      (s'.loop.future g = .finished ↔ s.loop.future g = .finished))
    (hnew : ∀ g, p = .waiting g → s'.loop.future g ≠ .finished)
    (hv : s'.value = s.value) : Balanced s' n := by
  have hb := b.frame (r := s') ?_ ?_
  · simpa [hv] using hb
  · ext u
    by_cases hut : u = t
    · subst hut
      simpa [yielding, hl, hp] using hy
    · simp [yielding, hl, hut]
  · ext u
    by_cases hut : u = t
    · subst hut
      simp only [handed, hl, if_true, Set.mem_ofPred_eq]
      exact ⟨fun ⟨g, hg, hfin⟩ => absurd hfin (hnew g hg), fun h => absurd h hh⟩
    · simp only [handed, hl, hut, if_false, Set.mem_ofPred_eq]
      exact exists_congr fun g => and_congr_right fun hg => hf u g hut hg

section Ledger
variable [DecidableEq τ]

/-- The permits held by tasks whose acquire returned, one entry for each. -/
abbrev Ledger (τ : Type*) := List τ

def record (h : Ledger τ) (_ : State τ) : Action τ → Outcome Point Unit → Ledger τ
  | .acquire t _, .returned _ => t :: h
  | .acquireNowait t, .returned _ => t :: h
  | .resume t, .returned _ => t :: h
  | .release t, .returned _ => h.erase t
  | _, _ => h

/-- The semaphore together with the permits its tasks hold. -/
def recorded (τ : Type*) [DecidableEq τ] :
    Machine (State τ × Ledger τ) (Action τ) (Outcome Point Unit) :=
  (machine τ).withHistory record

/-- `release()` is called by a task that holds a permit. -/
def HolderReleases (p : State τ × Ledger τ) : Action τ → Prop
  | .release t => t ∈ p.2
  | _ => True

instance (p : State τ × Ledger τ) (a : Action τ) : Decidable (HolderReleases p a) :=
  match a with
  | .release t => inferInstanceAs (Decidable (t ∈ p.2))
  | .acquire _ _ | .acquireNowait _ | .cancel _ | .resume _ => .isTrue trivial

/-- What holds in every state of a run in which only holders release. -/
structure Known (initialValue : Int) (s : State τ) (h : Ledger τ) : Prop where
  inv : Inv s
  balanced : Balanced s (initialValue - h.length)
  bound : ∀ m, s.maxValue = some m → initialValue ≤ m

variable {initialValue : Int} {h : Ledger τ}

omit [DecidableEq τ] in
theorem Known.created {maxValue : Option Int} {fastAcquire : Bool}
    (hcreate : create τ initialValue maxValue fastAcquire = .ok s) :
    Known initialValue s ([] : Ledger τ) := by
  have inv := Inv.created hcreate
  obtain ⟨-, hmax, rfl⟩ := create_ok hcreate
  have hy : yielding ({
      fastAcquire := fastAcquire
      maxValue := maxValue
      value := initialValue
      waiters := []
      loop := Loop.initial .outside } : State τ) = ∅ := by
    ext t
    simp [yielding]
  have hh : handed ({
      fastAcquire := fastAcquire
      maxValue := maxValue
      value := initialValue
      waiters := []
      loop := Loop.initial .outside } : State τ) = ∅ := by
    ext t
    simp [handed]
  exact ⟨inv, ⟨by simp [hy], by simp [hh], by simp [hy, hh]⟩, hmax⟩

omit [DecidableEq τ] in
/-- A free permit is taken. -/
theorem Known.taken (k : Known initialValue s h) (t : τ) :
    Balanced { s with value := s.value - 1 } (initialValue - ((t :: h).length : Nat)) := by
  have hb := k.balanced.frame (r := { s with value := s.value - 1 }) rfl rfl
  apply hb.congr
  simp only [List.length_cons]
  push_cast
  omega

theorem Known.acquire (k : Known initialValue s h) (hp : s.loop.point t = .outside) (c : Bool) :
    Known initialValue (acquire s t c).1 (record h s (.acquire t c) (acquire s t c).2) := by
  have hy : t ∉ yielding s := by simp [yielding, hp]
  have hh : t ∉ handed s := by simp [handed, hp]
  refine ⟨k.inv.acquire hp c, ?_, ?_⟩
  all_goals unfold Semaphore.acquire; split_ifs with hfree hc hfast
  · exact k.balanced.move (p := .checkpointIfCancelled) hy hh (by simp) (by simp)
      (by simp) (by simp) rfl
  · exact k.taken t
  · have hb := k.balanced.insert_yielding (t := t) (r := { s with
      value := s.value - 1, loop := s.loop.moveTo t .shieldedCheckpoint }) ?_ hy ?_
    · apply hb.congr
      simp only [record]
      omega
    · ext u
      by_cases hut : u = t <;> simp [yielding, hut]
    · ext u
      by_cases hut : u = t <;> simp [handed, hut, hp]
  · refine k.balanced.move (p := .waiting s.loop.nextFuture) hy hh (by simp) (by simp)
      (fun u g _ hu => ?_) (fun g hg => ?_) rfl
    · simp [(k.inv.fresh hu).ne]
    · simp [← Point.waiting.inj hg]
  · exact k.bound
  · exact k.bound
  · exact k.bound
  · exact k.bound

theorem Known.acquireNowait (k : Known initialValue s h) :
    Known initialValue (acquireNowait s).1
      (record h s (.acquireNowait t) (acquireNowait s).2) := by
  refine ⟨k.inv.acquireNowait, ?_, ?_⟩
  all_goals unfold Semaphore.acquireNowait; split_ifs
  · exact k.balanced
  · exact k.taken t
  · exact k.bound
  · exact k.bound

omit [DecidableEq τ] in
theorem release_maxValue (h : release s = .ok s') : s'.maxValue = s.maxValue := by
  obtain ⟨-, ⟨f, -, -, rfl⟩ | ⟨-, rfl⟩⟩ := release_cases h <;> rfl

/-- A holder's `release` is not refused. -/
theorem Known.release (k : Known initialValue s h) (ht : t ∈ h) :
    ∃ s', release s = .ok s' ∧ Known initialValue s' (h.erase t) := by
  have hlen := List.length_erase_add_one ht
  have hbelow : ∀ m, s.maxValue = some m → initialValue - h.length < m := fun m hm => by
    have := k.bound m hm
    omega
  obtain ⟨s', hs', hb⟩ := k.balanced.release k.inv hbelow
  refine ⟨s', hs', k.inv.release hs', ?_, release_maxValue hs' ▸ k.bound⟩
  apply hb.congr
  omega

omit [DecidableEq τ] in
/-- Giving back the permit that a cancelled `acquire()` had. -/
theorem Known.giveBack {left : State τ} (k : Known initialValue s h) (inv : Inv left)
    (b : Balanced left (initialValue - h.length - 1)) (hmax : left.maxValue = s.maxValue) :
    ∃ s', releaseAndRaise left = (s', .raised .cancelledError) ∧ Known initialValue s' h ∧
      ∀ u, s'.loop.point u = left.loop.point u := by
  have hbelow : ∀ m, left.maxValue = some m → initialValue - h.length - 1 < m := fun m hm => by
    have := k.bound m (hmax ▸ hm)
    omega
  obtain ⟨s', hs', hb, heq⟩ := b.releaseAndRaise inv hbelow
  refine ⟨s', heq, ⟨inv.release hs', ?_, ?_⟩, ?_⟩
  · apply hb.congr
    omega
  · rw [release_maxValue hs', hmax]
    exact k.bound
  · obtain ⟨-, ⟨f, -, -, rfl⟩ | ⟨-, rfl⟩⟩ := release_cases hs' <;> exact fun _ => rfl

theorem Known.cancel (k : Known initialValue s h) (hp : s.loop.point t ≠ .outside) :
    Known initialValue { s with loop := s.loop.cancel t } h := by
  have hb := k.balanced.frame (r := { s with loop := s.loop.cancel t })
    (by simp [yielding]) (by simp [handed, Loop.cancel_finished_iff])
  exact ⟨k.inv.cancel hp, by simpa using hb, k.bound⟩

/-- The step after a wake-up: how it ends, and that the permits still add up. -/
theorem Known.resume (k : Known initialValue s h) (hwake : s.loop.wakeUpQueued t = true) :
    Known initialValue (resume s t).1 (record h s (.resume t) (resume s t).2) ∧
      ∀ e, (resume s t).2 = .raised e →
        e = .cancelledError ∧ (resume s t).1.loop.point t = .outside := by
  have hinv := k.inv.resume hwake
  unfold Semaphore.resume at hinv ⊢
  cases hp : s.loop.point t with
  | outside => simp [Loop.wakeUpQueued, Loop.waits, hp, Coroutine.waits] at hwake
  | checkpointIfCancelled =>
      have hy : t ∉ yielding s := by simp [yielding, hp]
      have hh : t ∉ handed s := by simp [handed, hp]
      simp only [hp] at hinv ⊢
      split_ifs at hinv ⊢
      · refine ⟨⟨hinv, ?_, k.bound⟩, fun e he => ⟨(Outcome.raised.inj he).symm, by simp⟩⟩
        exact k.balanced.move (p := .outside) hy hh (by simp) (by simp) (by simp) (by simp) rfl
      · refine ⟨⟨hinv, ?_, k.bound⟩, by simp⟩
        exact k.balanced.move (p := .checkpointIfCancelled) hy hh (by simp) (by simp)
          (by simp) (by simp) rfl
  | shieldedCheckpoint =>
      have left : Inv { s with loop := s.loop.resumeAt t .outside } :=
        k.inv.leave (by simp [hp]) (by simp)
      have hb : Balanced { s with loop := s.loop.resumeAt t .outside }
          (initialValue - h.length - 1) := by
        refine k.balanced.remove_yielding (t := t) ?_ (by simp [yielding, hp]) ?_ rfl
        · ext u
          by_cases hut : u = t <;> simp [yielding, hut]
        · ext u
          by_cases hut : u = t <;> simp [handed, hut, hp]
      simp only [hp] at hinv ⊢
      split_ifs
      · obtain ⟨s', heq, hk, hpt⟩ := k.giveBack left hb rfl
        rw [heq]
        exact ⟨hk, fun e he => ⟨(Outcome.raised.inj he).symm, by simp [hpt]⟩⟩
      · refine ⟨⟨left, ?_, k.bound⟩, by simp⟩
        apply hb.congr
        simp only [record, List.length_cons]
        push_cast
        omega
  | waiting f =>
      have hy : t ∉ yielding s := by simp [yielding, hp]
      -- a wait that ends with a finished future had been handed a permit
      have hgone : s.loop.future f = .finished →
          Balanced { s with loop := s.loop.resumeAt t .outside }
            (initialValue - h.length - 1) := by
        intro hfin
        refine k.balanced.remove_handed (t := t) ?_ ?_ ⟨f, hp, hfin⟩ rfl
        · ext u
          by_cases hut : u = t <;> simp [yielding, hut, hp]
        · ext u
          by_cases hut : u = t <;> simp [handed, hut]
      simp only [hp] at hinv ⊢
      split_ifs at hinv ⊢ with hthrow hmem
      · obtain ⟨u, hu, hne⟩ := (k.inv.queue f).mp hmem
        have hh : t ∉ handed s := by
          rintro ⟨g, hg, hfin⟩
          exact hne (Point.waiting.inj (hp.symm.trans hg) ▸ hfin)
        refine ⟨⟨hinv, ?_, k.bound⟩, fun e he => ⟨(Outcome.raised.inj he).symm, by simp⟩⟩
        exact k.balanced.move (p := .outside) hy hh (by simp) (by simp) (by simp) (by simp) rfl
      · have hfin : s.loop.future f = .finished := by
          by_contra hne
          exact hmem ((k.inv.queue f).mpr ⟨t, hp, hne⟩)
        have left : Inv { s with loop := s.loop.resumeAt t .outside } :=
          k.inv.leave (by simp [hp, hmem]) (by simp)
        obtain ⟨s', heq, hk, hpt⟩ := k.giveBack left (hgone hfin) rfl
        rw [heq]
        exact ⟨hk, fun e he => ⟨(Outcome.raised.inj he).symm, by simp [hpt]⟩⟩
      · obtain ⟨-, hfin⟩ := Loop.finished_of_woken (waits_waiting hp) hwake hthrow
        refine ⟨⟨hinv, ?_, k.bound⟩, by simp⟩
        apply (hgone hfin).congr
        simp only [record, List.length_cons]
        push_cast
        omega

/-- A step of a run in which only holders release keeps the balance. If it
raises, it is a refused `acquire_nowait()`, or a cancelled `acquire()` that
leaves its task outside and the permits of all tasks as they were. -/
theorem Known.step (k : Known initialValue s h) {a : Action τ} {o : Outcome Point Unit}
    (ok : HolderReleases (s, h) a) (hs : step s a = some (s', o)) :
    Known initialValue s' (record h s a o) ∧
      ∀ e, o = .raised e → e = .wouldBlock ∧ s' = s ∨
        e = .cancelledError ∧ ∃ t, a = .resume t ∧ s'.loop.point t = .outside := by
  cases a with
  | acquire t c =>
      simp only [Semaphore.step, Option.ite_none_right_eq_some, Option.some.injEq] at hs
      obtain ⟨hp, hs⟩ := hs
      refine ⟨by simpa [hs] using k.acquire hp c, fun e he => ?_⟩
      subst he
      unfold Semaphore.acquire at hs
      split_ifs at hs <;> simp at hs
  | acquireNowait t =>
      simp only [Semaphore.step, Option.ite_none_right_eq_some, Option.some.injEq] at hs
      obtain ⟨-, hs⟩ := hs
      refine ⟨by simpa [hs] using k.acquireNowait (t := t), fun e he => ?_⟩
      subst he
      unfold Semaphore.acquireNowait at hs
      split_ifs at hs
      · simp only [Prod.mk.injEq, Outcome.raised.injEq] at hs
        exact .inl ⟨hs.2.symm, hs.1.symm⟩
      · simp at hs
  | release t =>
      obtain ⟨s'', hs'', hk⟩ := k.release ok
      simp only [Semaphore.step, hs'', Option.ite_none_right_eq_some, Option.some.injEq,
        Prod.mk.injEq] at hs
      obtain ⟨-, rfl, rfl⟩ := hs
      exact ⟨hk, by simp⟩
  | cancel t =>
      simp only [Semaphore.step, Option.ite_none_right_eq_some, Option.some.injEq,
        Prod.mk.injEq] at hs
      obtain ⟨hp, rfl, rfl⟩ := hs
      exact ⟨k.cancel hp, by simp⟩
  | resume t =>
      simp only [Semaphore.step, Option.ite_none_right_eq_some, Option.some.injEq] at hs
      obtain ⟨hwake, hs⟩ := hs
      obtain ⟨hk, hraise⟩ := k.resume hwake
      rw [hs] at hk hraise
      exact ⟨hk, fun e he => .inr ⟨(hraise e he).1, t, rfl, (hraise e he).2⟩⟩

theorem Known.reachable {maxValue : Option Int} {fastAcquire : Bool} {start : State τ}
    (hcreate : create τ initialValue maxValue fastAcquire = .ok start)
    (run : (recorded τ).Reachable HolderReleases (start, []) (s, h)) :
    Known initialValue s h :=
  run.invariant_history (I := Known initialValue) (.created hcreate)
    fun _ _ _ _ _ k ok hs => (k.step ok hs).1

/-- If only holders release, the value, the permits held after a successful
acquire, those taken by tasks still in the checkpoint of a fast acquire, and
those handed to waiters that have not resumed add up to the initial value. So
the value stays between zero and the bound. No call raises but a refused
`acquire_nowait()` and a cancelled `acquire()`: in particular no `ValueError`
and no future completed twice. The cancelled call leaves its task outside,
with the permits of all tasks as they were before it ended. -/
theorem permit_conservation {maxValue : Option Int} {fastAcquire : Bool} {start : State τ}
    (hcreate : create τ initialValue maxValue fastAcquire = .ok start)
    (run : (recorded τ).Reachable HolderReleases (start, []) (s, h)) :
    ((yielding s).Finite ∧ (handed s).Finite ∧
      s.value + (h.length + (yielding s).ncard) + (handed s).ncard = initialValue) ∧
    (0 ≤ s.value ∧ ∀ m, s.maxValue = some m → s.value ≤ m) ∧
    ∀ a s' e, HolderReleases (s, h) a → step s a = some (s', .raised e) →
      e = .wouldBlock ∧ s' = s ∨
        e = .cancelledError ∧ ∃ t, a = .resume t ∧ s'.loop.point t = .outside ∧
          record h s a (.raised e) = h ∧
          s'.value + (h.length + (yielding s').ncard) + (handed s').ncard = initialValue := by
  have k := Known.reachable hcreate run
  have htotal := k.balanced.total
  refine ⟨⟨k.balanced.finite_yielding, k.balanced.finite_handed, by omega⟩,
    ⟨k.inv.nonneg, fun m hm => ?_⟩, ?_⟩
  · have := k.bound m hm
    have := k.balanced.value_le
    omega
  · intro a s' e ok hs
    obtain ⟨k', hraise⟩ := k.step ok hs
    rcases hraise e rfl with h | ⟨rfl, t, rfl, hout⟩
    · exact .inl h
    · have htotal' := k'.balanced.total
      simp only [record] at htotal'
      exact .inr ⟨rfl, t, rfl, hout, rfl, by omega⟩

/-- A semaphore with one permit, all tasks outside. -/
def onePermit (τ : Type*) : State τ where
  fastAcquire := false
  maxValue := some 1
  value := 1
  waiters := []
  loop := Loop.initial .outside

/-- Task 0 hands its permit to the waiting task 1, which is cancelled before it resumes. -/
def handedAndCancelled : State (Fin 2) × Ledger (Fin 2) :=
  ((recorded (Fin 2)).exec HolderReleases (onePermit (Fin 2), [])
    [.acquireNowait 0, .acquire 1 false, .release 0, .cancel 1, .resume 1]).get (by decide)

theorem permit_conservation_cancelled :
    handedAndCancelled.2 = [] ∧ handedAndCancelled.1.value = 1 ∧
      handedAndCancelled.1.value + (handedAndCancelled.2.length +
        (yielding handedAndCancelled.1).ncard) + (handed handedAndCancelled.1).ncard = 1 := by
  have run : (recorded (Fin 2)).Reachable HolderReleases (onePermit (Fin 2), [])
      handedAndCancelled := Machine.exec_get_reachable _ _ _
  have created : create (Fin 2) 1 (some 1) false = .ok (onePermit (Fin 2)) := rfl
  exact ⟨by decide, by decide, (permit_conservation (s := handedAndCancelled.1)
    (h := handedAndCancelled.2) created run).1.2.2⟩

end Ledger

end Anyio.Semaphore
