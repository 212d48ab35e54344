import Anyio.CapacityLimiter.Model
import Mathlib.Tactic.Common

/-!
# What a step of the asyncio `CapacityLimiter` does

Every step has one of a dozen effects on the limiter, and each of them moves
one task, one entry of the queue or one borrower. A waiter is notified from
the moment its event is set until it resumes, unless a cancellation reaches it
in between; the results on the limiter are about that window.
-/

namespace Anyio.CapacityLimiter

open Asyncio Library

variable {τ β : Type*}

/-- The borrower for which a task was notified and has not resumed yet. -/
def notified (l : Loop τ (Point β)) (t : τ) : Option β :=
  match l.point t with
  | .waiting b event =>
      if l.future event = .finished ∧ (l.task t).mustCancel = false then some b else none
  | _ => none

theorem notified_eq_some {l : Loop τ (Point β)} {t : τ} {b : β} :
    notified l t = some b ↔ ∃ f, l.point t = .waiting b f ∧ l.future f = .finished ∧
      (l.task t).mustCancel = false := by
  unfold notified
  cases hp : l.point t with
  | waiting c f =>
      simp only [Option.ite_none_right_eq_some, Option.some.injEq, Point.waiting.injEq]
      constructor
      · rintro ⟨⟨hf, hm⟩, rfl⟩
        exact ⟨f, ⟨rfl, rfl⟩, hf, hm⟩
      · rintro ⟨g, ⟨rfl, rfl⟩, hf, hm⟩
        exact ⟨⟨hf, hm⟩, rfl⟩
  | outside => simp
  | checkpointIfCancelled => simp
  | shieldedCheckpoint => simp

theorem waits_waiting {l : Loop τ (Point β)} {t : τ} {b : β} {f : FutureId}
    (h : l.point t = .waiting b f) : l.waits t = .future f := by
  simp [Loop.waits, h, Coroutine.waits]

/-- The points of `acquire_on_behalf_of()` other than the wait for a token. -/
def Point.idle : Point β → Prop
  | .waiting _ _ => False
  | _ => True

theorem Point.idle.not_future {p : Point β} (h : p.idle) (f : FutureId) :
    Coroutine.waits p ≠ .future f := by
  cases p with
  | waiting b g => exact h.elim
  | outside => simp [Coroutine.waits]
  | checkpointIfCancelled => simp [Coroutine.waits]
  | shieldedCheckpoint => simp [Coroutine.waits]

theorem Point.idle.ne {p : Point β} (h : p.idle) (b : β) (f : FutureId) : p ≠ .waiting b f := by
  rintro rfl
  exact h

theorem notified_of_idle {l : Loop τ (Point β)} {t : τ} (h : (l.point t).idle) :
    notified l t = none := by
  unfold notified
  split
  · rename_i heq
    exact absurd heq (h.ne _ _)
  · rfl

/-- Nothing about the other tasks changes. -/
theorem notified_congr {l l' : Loop τ (Point β)} {u : τ} (hp : l'.point u = l.point u)
    (hm : (l'.task u).mustCancel = (l.task u).mustCancel)
    (hf : ∀ b f, l.point u = .waiting b f → (l'.future f = .finished ↔ l.future f = .finished)) :
    notified l' u = notified l u := by
  apply Option.ext
  intro b
  rw [notified_eq_some, notified_eq_some, hp, hm]
  constructor
  · rintro ⟨f, hw, hfin, hc⟩
    exact ⟨f, hw, (hf b f hw).mp hfin, hc⟩
  · rintro ⟨f, hw, hfin, hc⟩
    exact ⟨f, hw, (hf b f hw).mpr hfin, hc⟩

section Notified
variable [DecidableEq τ] {l : Loop τ (Point β)} {t : τ}

theorem notified_moveTo {p : Point β} (hp : p.idle) (u : τ) :
    notified (l.moveTo t p) u = if u = t then none else notified l u := by
  split_ifs with hu
  · exact notified_of_idle (by simpa [hu] using hp)
  · exact notified_congr (by simp [hu]) (by simp) (by simp)

theorem notified_resumeAt {p : Point β} (hp : p.idle) (u : τ) :
    notified (l.resumeAt t p) u = if u = t then none else notified l u := by
  split_ifs with hu
  · exact notified_of_idle (by simpa [hu] using hp)
  · exact notified_congr (by simp [hu]) (by simp [hu]) (by simp)

/-- A task that joins the queue is not notified. -/
theorem notified_join (owned : l.Owned) (b : β) (u : τ) :
    notified (l.createFuture.moveTo t (.waiting b l.nextFuture)) u =
      if u = t then none else notified l u := by
  split_ifs with hu
  · unfold notified
    simp [hu]
  · apply notified_congr (by simp [hu]) (by simp)
    intro c f hw
    have hne : f ≠ l.nextFuture := (owned.created u f (waits_waiting hw)).ne
    simp [hne]

/-- A cancellation takes the notification from its task and from nobody else. -/
theorem notified_cancel (u : τ) :
    notified (l.cancel t) u = if u = t then none else notified l u := by
  split_ifs with hu
  · subst hu
    by_contra hsome
    obtain ⟨b, hb⟩ := Option.ne_none_iff_exists'.mp hsome
    obtain ⟨f, hw, hfin, hm⟩ := notified_eq_some.mp hb
    have hthrow := Loop.cancel_throws (l := l) (t := u) rfl
    simp [Loop.throws, waits_waiting hw, hfin, hm] at hthrow
  · apply notified_congr (by simp) (by rw [Loop.cancel_task_of_ne hu])
    intro b f _
    rcases l.cancel_future_cases t f with h | ⟨-, h, h'⟩ <;> simp [*]

end Notified

/-- Setting an event notifies the task that waits for it, unless it was cancelled. -/
theorem notified_setEvent {l : Loop τ (Point β)} {f : FutureId} {t : τ} {b : β} :
    notified (l.setEvent f) t = some b ↔ notified l t = some b ∨
      l.point t = .waiting b f ∧ l.future f = .pending ∧ (l.task t).mustCancel = false := by
  rw [notified_eq_some, notified_eq_some]
  simp only [Loop.setEvent_point, Loop.setEvent_task, Loop.setEvent_future]
  constructor
  · rintro ⟨g, hw, hg, hm⟩
    split_ifs at hg with h
    · exact .inr ⟨h.1 ▸ hw, h.2, hm⟩
    · exact .inl ⟨g, hw, hg, hm⟩
  · rintro (⟨g, hw, hg, hm⟩ | ⟨hw, hf, hm⟩)
    · exact ⟨g, hw, by simp [hg], hm⟩
    · exact ⟨f, hw, by simp [hf], hm⟩

/-- `acquire_on_behalf_of_nowait(b)` succeeds. -/
def Grants (s : State τ β) (b : β) : Prop :=
  b ∉ s.borrowers ∧ s.waitQueue.entries = [] ∧ s.totalTokens.covers (s.borrowers.card + 1)

/-- `acquire_on_behalf_of_nowait(b)` raises `WouldBlock`. -/
def Blocks (s : State τ β) (b : β) : Prop :=
  b ∉ s.borrowers ∧
    (s.waitQueue.entries ≠ [] ∨ ¬s.totalTokens.covers (s.borrowers.card + 1))

section Effects
variable [DecidableEq β] [DecidableEq τ]

/-- What the steps of an action can do. -/
inductive Effect (currentTask : τ → β) (s : State τ β) : Action τ β → State τ β → Prop
  | refused {a : Action τ β} : Effect currentTask s a s
  | parked {t : τ} {b : β} (outside : s.loop.point t = .outside) :
      Effect currentTask s (.acquireOnBehalfOf t b true)
        { s with loop := s.loop.moveTo t .checkpointIfCancelled }
  | granted {t : τ} {b : β} (outside : s.loop.point t = .outside) (grants : Grants s b) :
      Effect currentTask s (.acquireOnBehalfOf t b false)
        { s with
          borrowers := insert b s.borrowers
          loop := s.loop.moveTo t .shieldedCheckpoint }
  | queued {t : τ} {b : β} (outside : s.loop.point t = .outside) (blocks : Blocks s b) :
      Effect currentTask s (.acquireOnBehalfOf t b false)
        { s with
          waitQueue := s.waitQueue.assign b s.loop.nextFuture
          loop := s.loop.createFuture.moveTo t (.waiting b s.loop.nextFuture) }
  | grantedNowait {b : β} (grants : Grants s b) :
      Effect currentTask s (.acquireOnBehalfOfNowait b)
        { s with borrowers := insert b s.borrowers }
  | released {b : β} (holds : b ∈ s.borrowers) :
      Effect currentTask s (.releaseOnBehalfOf b)
        (notifyIfFree { s with borrowers := s.borrowers.erase b })
  | adjusted {value : Number} {total : Bound} (valid : newTotal s value = .ok total) :
      Effect currentTask s (.setTotalTokens value) (adjustTotal s total)
  | cancelled {t : τ} (inside : s.loop.point t ≠ .outside) :
      Effect currentTask s (.cancel t) { s with loop := s.loop.cancel t }
  | left {t : τ} {p : Point β} (hfrom : (s.loop.point t).idle) (hto : p.idle) :
      Effect currentTask s (.resume t) { s with loop := s.loop.resumeAt t p }
  | gaveBack {t : τ} (hfrom : s.loop.point t = .shieldedCheckpoint)
      (thrown : s.loop.throws t = true) (holds : currentTask t ∈ s.borrowers) :
      Effect currentTask s (.resume t)
        (notifyIfFree { s with
          borrowers := s.borrowers.erase (currentTask t)
          loop := s.loop.resumeAt t .outside })
  | took {t : τ} {b : β} (note : notified s.loop t = some b) :
      Effect currentTask s (.resume t)
        { s with
          borrowers := insert b s.borrowers
          loop := s.loop.resumeAt t .outside }
  | withdrew {t : τ} {b : β} {f : FutureId} (hfrom : s.loop.point t = .waiting b f)
      (thrown : s.loop.throws t = true) :
      Effect currentTask s (.resume t)
        { s with
          waitQueue := s.waitQueue.pop b
          loop := s.loop.resumeAt t .outside }

variable (currentTask : τ → β) {s s' : State τ β} {t : τ} {b : β}

omit [DecidableEq τ] in
theorem nowait_ok (h : acquireOnBehalfOfNowait s b = .ok s') :
    Grants s b ∧ s' = { s with borrowers := insert b s.borrowers } := by
  unfold acquireOnBehalfOfNowait at h
  split_ifs at h with hb hfull
  rw [not_or, not_not, not_not] at hfull
  exact ⟨⟨hb, hfull.1, hfull.2⟩, (Except.ok.inj h).symm⟩

omit [DecidableEq τ] in
theorem nowait_wouldBlock (h : acquireOnBehalfOfNowait s b = .error .wouldBlock) :
    Blocks s b := by
  unfold acquireOnBehalfOfNowait at h
  split_ifs at h with hb hfull
  · cases h
  · exact ⟨hb, hfull⟩

theorem effect_of_acquire (hp : s.loop.point t = .outside) (c : Bool) :
    Effect currentTask s (.acquireOnBehalfOf t b c) (acquireOnBehalfOf s t b c).1 := by
  unfold acquireOnBehalfOf
  cases c with
  | true => exact .parked hp
  | false =>
      rw [if_neg Bool.false_ne_true]
      split
      · rename_i s' h
        obtain ⟨grants, rfl⟩ := nowait_ok h
        exact .granted hp grants
      · rename_i h
        exact .queued hp (nowait_wouldBlock h)
      · exact .refused

theorem effect_of_resume (hwake : s.loop.wakeUpQueued t = true) :
    Effect currentTask s (.resume t) (resume currentTask s t).1 := by
  unfold resume
  cases hp : s.loop.point t with
  | outside => exact .refused
  | checkpointIfCancelled =>
      simp only
      split_ifs
      · exact .left (by simp [hp, Point.idle]) trivial
      · exact .left (by simp [hp, Point.idle]) trivial
  | shieldedCheckpoint =>
      have hleft : Effect currentTask s (.resume t)
          { s with loop := s.loop.resumeAt t .outside } :=
        .left (by simp [hp, Point.idle]) trivial
      simp only
      split_ifs with hthrow
      · by_cases hb : currentTask t ∈ s.borrowers
        · simp only [releaseOnBehalfOf, hb, if_true]
          exact .gaveBack hp hthrow hb
        · simpa only [releaseOnBehalfOf, hb, if_false] using hleft
      · exact hleft
  | waiting b f =>
      simp only
      split_ifs with hthrow
      · exact .withdrew hp hthrow
      · obtain ⟨hm, hfin⟩ := Loop.finished_of_woken (waits_waiting hp) hwake hthrow
        exact .took (notified_eq_some.mpr ⟨f, hp, hfin, hm⟩)

variable {currentTask}

theorem effect_of_step {a : Action τ β} {o : Outcome (Point β) Unit}
    (h : step currentTask s a = some (s', o)) : Effect currentTask s a s' := by
  cases a with
  | acquireOnBehalfOf t b c =>
      simp only [step, Option.ite_none_right_eq_some, Option.some.injEq] at h
      simpa [h.2] using effect_of_acquire currentTask (b := b) h.1 c
  | acquireOnBehalfOfNowait b =>
      simp only [step] at h
      split at h
      · rename_i s'' hs''
        obtain ⟨grants, rfl⟩ := nowait_ok hs''
        cases h
        exact .grantedNowait grants
      · cases h
        exact .refused
  | releaseOnBehalfOf b =>
      simp only [step, releaseOnBehalfOf] at h
      split_ifs at h with hb
      · cases h
        exact .released hb
      · cases h
        exact .refused
  | setTotalTokens value =>
      simp only [step, setTotalTokens] at h
      cases hv : newTotal s value with
      | ok total =>
          simp only [hv, Except.map] at h
          cases h
          exact .adjusted hv
      | error e =>
          simp only [hv, Except.map] at h
          cases h
          exact .refused
  | cancel t =>
      simp only [step, Option.ite_none_right_eq_some, Option.some.injEq, Prod.mk.injEq] at h
      obtain ⟨hp, rfl, -⟩ := h
      exact .cancelled hp
  | resume t =>
      simp only [step, Option.ite_none_right_eq_some, Option.some.injEq] at h
      simpa [h.2] using effect_of_resume currentTask h.1

end Effects

section Notify
variable (s : State τ β)

theorem notifyNext_cases : s.waitQueue.entries = [] ∧ notifyNext s = s ∨
    ∃ e rest, s.waitQueue.popItem = some (e, rest) ∧
      notifyNext s = { s with waitQueue := rest, loop := s.loop.setEvent e.2 } := by
  unfold notifyNext
  split
  · exact .inl ⟨OrderedDict.popItem_eq_none.mp ‹_›, rfl⟩
  · exact .inr ⟨_, _, ‹_›, rfl⟩

@[simp] theorem notifyNext_borrowers : (notifyNext s).borrowers = s.borrowers := by
  obtain ⟨-, h⟩ | ⟨e, rest, -, h⟩ := notifyNext_cases s <;> rw [h]

@[simp] theorem notifyNext_totalTokens : (notifyNext s).totalTokens = s.totalTokens := by
  obtain ⟨-, h⟩ | ⟨e, rest, -, h⟩ := notifyNext_cases s <;> rw [h]

@[simp] theorem notifyNext_point (t : τ) : (notifyNext s).loop.point t = s.loop.point t := by
  obtain ⟨-, h⟩ | ⟨e, rest, -, h⟩ := notifyNext_cases s <;> rw [h]
  exact Loop.setEvent_point _ _ _

theorem notifyNext_entries :
    (notifyNext s).waitQueue.entries = s.waitQueue.entries.tail := by
  obtain ⟨hnil, h⟩ | ⟨e, rest, hpop, h⟩ := notifyNext_cases s
  · rw [h, hnil, List.tail_nil]
  · rw [h, OrderedDict.popItem_eq_some hpop, List.tail_cons]

/-- What holds after every notification holds after several. -/
theorem notify_induction {P : State τ β → Prop} (hs : P s) (hnext : ∀ s, P s → P (notifyNext s))
    (n : Nat) : P (notifyNext^[n] s) := by
  induction n with
  | zero => exact hs
  | succ n ih =>
      rw [Function.iterate_succ_apply']
      exact hnext _ ih

theorem notify_borrowers (n : Nat) : (notifyNext^[n] s).borrowers = s.borrowers := by
  induction n with
  | zero => rfl
  | succ n ih => rw [Function.iterate_succ_apply', notifyNext_borrowers, ih]

theorem notify_point (n : Nat) (t : τ) :
    (notifyNext^[n] s).loop.point t = s.loop.point t := by
  induction n with
  | zero => rfl
  | succ n ih => rw [Function.iterate_succ_apply', notifyNext_point, ih]

theorem notify_totalTokens (n : Nat) : (notifyNext^[n] s).totalTokens = s.totalTokens := by
  induction n with
  | zero => rfl
  | succ n ih => rw [Function.iterate_succ_apply', notifyNext_totalTokens, ih]

theorem notify_entries (n : Nat) :
    (notifyNext^[n] s).waitQueue.entries = s.waitQueue.entries.drop n := by
  induction n with
  | zero => rfl
  | succ n ih =>
      rw [Function.iterate_succ_apply', notifyNext_entries, ih, List.tail_drop]

@[simp] theorem adjustTotal_totalTokens (total : Bound) :
    (adjustTotal s total).totalTokens = total :=
  notify_totalTokens _ _

@[simp] theorem adjustTotal_borrowers (total : Bound) :
    (adjustTotal s total).borrowers = s.borrowers :=
  notify_borrowers _ _

@[simp] theorem adjustTotal_point (total : Bound) (t : τ) :
    (adjustTotal s total).loop.point t = s.loop.point t :=
  notify_point _ _ _

theorem adjustTotal_entries (total : Bound) :
    (adjustTotal s total).waitQueue.entries =
      s.waitQueue.entries.drop (waitersToNotify s total) :=
  notify_entries _ _

@[simp] theorem notifyIfFree_borrowers : (notifyIfFree s).borrowers = s.borrowers := by
  unfold notifyIfFree
  split_ifs
  · exact notifyNext_borrowers s
  · rfl

@[simp] theorem notifyIfFree_point (t : τ) :
    (notifyIfFree s).loop.point t = s.loop.point t := by
  unfold notifyIfFree
  split_ifs
  · exact notifyNext_point s t
  · rfl

@[simp] theorem notifyIfFree_totalTokens : (notifyIfFree s).totalTokens = s.totalTokens := by
  unfold notifyIfFree
  split_ifs
  · exact notifyNext_totalTokens s
  · rfl

end Notify

/-- What holds in every reachable state: the events of the queue belong to
waits that were not notified, and a request against a wait whose event is not
set is the cancellation of its future. -/
structure Inv (s : State τ β) : Prop where
  owned : s.loop.Owned
  queued : ∀ e ∈ s.waitQueue.entries,
    ∃ t, s.loop.point t = .waiting e.1 e.2 ∧ s.loop.future e.2 ≠ .finished
  clear : ∀ t f, s.loop.waits t = .future f → s.loop.future f = .pending →
    (s.loop.task t).mustCancel = false
  idle : ∀ t, s.loop.point t = .outside → (s.loop.task t).mustCancel = false

section Preservation
variable {s : State τ β} {t : τ}

/-- A task waits for one event, and for one borrower. -/
theorem Inv.unique (inv : Inv s) {u : τ} {b c : β} {f : FutureId}
    (ht : s.loop.point t = .waiting b f) (hu : s.loop.point u = .waiting c f) :
    t = u ∧ b = c := by
  have htu := inv.owned.injective t u f (waits_waiting ht) (waits_waiting hu)
  subst htu
  exact ⟨rfl, (Point.waiting.inj (ht.symm.trans hu)).1⟩

theorem Inv.notifyNext (inv : Inv s) : Inv (notifyNext s) := by
  obtain ⟨-, h⟩ | ⟨e, rest, hpop, h⟩ := notifyNext_cases s
  · rwa [h]
  · rw [h]
    have hentries := OrderedDict.popItem_eq_some hpop
    constructor
    · exact inv.owned.congr (fun u => by simp) (by simp)
    · intro c hc
      obtain ⟨u, hu, hf⟩ := inv.queued c (hentries ▸ List.mem_cons_of_mem _ hc)
      refine ⟨u, by simpa using hu, ?_⟩
      -- the event that was set is the one of another entry
      have hne : c.2 ≠ e.2 := by
        intro heq
        obtain ⟨v, hv, -⟩ := inv.queued e (hentries ▸ List.mem_cons_self)
        have hkey := (inv.unique (heq ▸ hu) hv).2
        exact OrderedDict.popItem_not_mem hpop c.2 (hkey ▸ hc)
      simpa [Loop.setEvent_future, hne] using hf
    · intro u f hw hf
      have hpending : s.loop.future f = .pending := by
        simp only [Loop.setEvent_future] at hf
        split_ifs at hf
        exact hf
      simpa using inv.clear u f (by simpa [Loop.waits] using hw) hpending
    · intro u hu
      simpa using inv.idle u (by simpa using hu)

theorem Inv.frame {s' : State τ β} (inv : Inv s) (hq : s'.waitQueue = s.waitQueue)
    (hl : s'.loop = s.loop) : Inv s' := by
  constructor
  · simpa [hl] using inv.owned
  · simpa [hl, hq] using inv.queued
  · simpa [hl] using inv.clear
  · simpa [hl] using inv.idle

variable [DecidableEq τ]

/-- A task leaves its point, and the queue has no entry of it. -/
theorem Inv.leave {s' : State τ β} {p : Point β} (inv : Inv s) (hp : p.idle)
    (hl : s'.loop = s.loop.resumeAt t p)
    (hq : ∀ e ∈ s'.waitQueue.entries, e ∈ s.waitQueue.entries ∧
      s.loop.point t ≠ .waiting e.1 e.2) : Inv s' := by
  constructor
  · rw [hl]
    exact inv.owned.leave (t := t) (p := p) (by simp) rfl hp.not_future
  · intro e he
    obtain ⟨hmem, hne⟩ := hq e he
    obtain ⟨u, hu, hf⟩ := inv.queued e hmem
    have hut : u ≠ t := by
      rintro rfl
      exact hne hu
    exact ⟨u, by simpa [hl, hut] using hu, by simpa [hl] using hf⟩
  · intro u f hw hf
    rw [hl] at hw hf ⊢
    by_cases hut : u = t
    · simp [hut]
    · rw [Loop.resumeAt_task_of_ne hut]
      exact inv.clear u f (by simpa [Loop.waits, hut] using hw) hf
  · intro u hu
    rw [hl] at hu ⊢
    by_cases hut : u = t
    · simp [hut]
    · rw [Loop.resumeAt_task_of_ne hut]
      exact inv.idle u (by simpa [hut] using hu)

/-- A task from outside goes to a point that is no wait. -/
theorem Inv.move {s' : State τ β} {p : Point β} (inv : Inv s)
    (hfrom : s.loop.point t = .outside) (hp : p.idle) (hl : s'.loop = s.loop.moveTo t p)
    (hq : s'.waitQueue = s.waitQueue) : Inv s' := by
  rw [Loop.moveTo_eq_resumeAt (inv.idle t hfrom)] at hl
  exact inv.leave hp hl fun e he => ⟨hq ▸ he, by simp [hfrom]⟩

theorem Inv.join [DecidableEq β] (inv : Inv s) (hfrom : s.loop.point t = .outside) (b : β) :
    Inv { s with
      waitQueue := s.waitQueue.assign b s.loop.nextFuture
      loop := s.loop.createFuture.moveTo t (.waiting b s.loop.nextFuture) } := by
  constructor
  · exact inv.owned.await_new (t := t) (p := .waiting b s.loop.nextFuture)
      (fun u => by simp) (by simp) rfl
  · intro e he
    rcases OrderedDict.mem_assign.mp he with rfl | ⟨hmem, -⟩
    · exact ⟨t, by simp, by simp⟩
    · obtain ⟨u, hu, hf⟩ := inv.queued e hmem
      have hut : u ≠ t := by
        rintro rfl
        simp [hfrom] at hu
      have hne := (inv.owned.created u e.2 (waits_waiting hu)).ne
      exact ⟨u, by simpa [hut] using hu, by simpa [hne] using hf⟩
  · intro u f hw hf
    by_cases hut : u = t
    · simpa [hut] using inv.idle t hfrom
    · have hw' : s.loop.waits u = .future f := by simpa [Loop.waits, hut] using hw
      have hne := (inv.owned.created u f hw').ne
      simpa using inv.clear u f hw' (by simpa [hne] using hf)
  · intro u hu
    by_cases hut : u = t
    · simp [hut] at hu
    · simpa using inv.idle u (by simpa [hut] using hu)

theorem Inv.cancel (inv : Inv s) (hfrom : s.loop.point t ≠ .outside) :
    Inv { s with loop := s.loop.cancel t } := by
  constructor
  · exact inv.owned.congr (fun u => by simp) (by simp)
  · intro e he
    obtain ⟨u, hu, hf⟩ := inv.queued e he
    refine ⟨u, by simpa using hu, ?_⟩
    rcases s.loop.cancel_future_cases t e.2 with h | ⟨-, -, h⟩ <;> simp [*]
  · intro u f hw hf
    have hw' : s.loop.waits u = .future f := by simpa using hw
    rcases s.loop.cancel_future_cases t f with h | ⟨-, -, h⟩
    · rw [h] at hf
      by_cases hut : u = t
      · subst hut
        exact (Loop.cancel_mustCancel_of_pending hw' hf).trans (inv.clear u f hw' hf)
      · simpa [hut] using inv.clear u f hw' hf
    · simp [h] at hf
  · intro u hu
    have hut : u ≠ t := by
      rintro rfl
      exact hfrom (by simpa using hu)
    simpa [hut] using inv.idle u (by simpa using hu)

omit [DecidableEq τ] in
theorem Inv.notifyIfFree (inv : Inv s) : Inv (notifyIfFree s) := by
  unfold CapacityLimiter.notifyIfFree
  split_ifs
  · exact inv.notifyNext
  · exact inv

variable [DecidableEq β] {currentTask : τ → β}

theorem Inv.effect {s' : State τ β} {a : Action τ β} (inv : Inv s)
    (h : Effect currentTask s a s') : Inv s' := by
  cases h with
  | refused => exact inv
  | parked outside => exact inv.move (p := .checkpointIfCancelled) outside trivial rfl rfl
  | granted outside _ => exact inv.move (p := .shieldedCheckpoint) outside trivial rfl rfl
  | queued outside _ => exact inv.join outside _
  | grantedNowait _ => exact inv.frame rfl rfl
  | released _ => exact Inv.notifyIfFree (inv.frame rfl rfl)
  | adjusted _ =>
      have hset : ∀ total, Inv { s with totalTokens := total } := fun _ => inv.frame rfl rfl
      exact notify_induction _ (hset _) (fun _ h => h.notifyNext) _
  | cancelled inside => exact inv.cancel inside
  | left hfrom hto => exact inv.leave hto rfl fun e he => ⟨he, hfrom.ne _ _⟩
  | gaveBack hfrom _ _ =>
      exact Inv.notifyIfFree (inv.leave (p := .outside) trivial rfl fun e he =>
        ⟨he, by simp [hfrom]⟩)
  | took note =>
      obtain ⟨f, hw, hfin, -⟩ := notified_eq_some.mp note
      refine inv.leave (p := .outside) trivial rfl fun e he => ⟨he, fun hpt => ?_⟩
      obtain ⟨u, hu, hne⟩ := inv.queued e he
      exact hne ((Point.waiting.inj (hpt.symm.trans hw)).2 ▸ hfin)
  | withdrew hfrom _ =>
      apply inv.leave (p := .outside) trivial rfl
      intro e he
      rw [OrderedDict.mem_pop] at he
      exact ⟨he.1, fun hpt => he.2 (Point.waiting.inj (hpt.symm.trans hfrom)).1⟩

end Preservation

theorem create_ok {value : Number} {s : State τ β} (h : create τ β value = .ok s) :
    ∃ total, s = {
      totalTokens := total
      borrowers := ∅
      waitQueue := .empty
      loop := Loop.initial .outside } := by
  unfold create setTotalTokens at h
  generalize newTotal _ value = checked at h
  cases checked with
  | error e => simp [Except.map] at h
  | ok total =>
      simp only [Except.map, Except.ok.injEq] at h
      refine ⟨total, h.symm.trans ?_⟩
      exact (Function.iterate_fixed (f := notifyNext) rfl _)

theorem Inv.created {value : Number} {s : State τ β} (h : create τ β value = .ok s) : Inv s := by
  obtain ⟨total, rfl⟩ := create_ok h
  constructor
  · constructor <;> simp [Loop.waits, Coroutine.waits]
  · simp
  · intro t f _ _
    rfl
  · intro t _
    rfl

end Anyio.CapacityLimiter
