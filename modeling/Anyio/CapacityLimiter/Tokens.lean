import Anyio.CapacityLimiter.Invariant
import Mathlib.Data.Fintype.Powerset

/-!
# Tokens in flight in the asyncio `CapacityLimiter`

A token is promised when a waiter is notified, and taken when the waiter
resumes, without a second look at `_total_tokens`. In between it is counted
nowhere: a call that does not wait, or an assignment of `total_tokens`, can
give it away. Where that does not happen, the tokens in flight always fit in
beside the borrowers.
-/

namespace Anyio.CapacityLimiter

open Asyncio Library

variable {τ β : Type*}

/-- Beside `n` borrowers there is room for every task of `P`. Nothing is said
about the borrowers themselves when `P` is empty. -/
def RoomFor (total : Bound) (n : Nat) (P : τ → Prop) : Prop :=
  ∀ Q : Finset τ, Q.Nonempty → (∀ t ∈ Q, P t) → total.covers (n + Q.card)

instance [Fintype τ] [DecidableEq τ] (total : Bound) (n : Nat) (P : τ → Prop)
    [DecidablePred P] : Decidable (RoomFor total n P) :=
  inferInstanceAs (Decidable (∀ Q : Finset τ, Q.Nonempty → (∀ t ∈ Q, P t) →
    total.covers (n + Q.card)))

section Room
variable {total : Bound} {n : Nat} {P P' : τ → Prop} {u : τ}

theorem RoomFor.mono {m : Nat} (room : RoomFor total n P) (hm : m ≤ n)
    (hP : ∀ t, P' t → P t) : RoomFor total m P' := by
  intro Q hQ hmem
  have h := room Q hQ fun t ht => hP t (hmem t ht)
  exact h.mono (Nat.add_le_add_right hm _)

theorem RoomFor.covers_succ (room : RoomFor total n P) (hu : P u) : total.covers (n + 1) := by
  have h := room {u} (Finset.singleton_nonempty u) (by simpa using hu)
  simpa using h

variable [DecidableEq τ]

/-- A task of `P` becomes a borrower. -/
theorem RoomFor.take (room : RoomFor total n P) (hu : P u)
    (hP : ∀ t, P' t → P t ∧ t ≠ u) : RoomFor total (n + 1) P' := by
  intro Q _ hmem
  have hnot : u ∉ Q := fun h => (hP u (hmem u h)).2 rfl
  have h := room (insert u Q) (Finset.insert_nonempty u Q) (by
    intro t ht
    rcases Finset.mem_insert.mp ht with rfl | ht
    · exact hu
    · exact (hP t (hmem t ht)).1)
  rw [Finset.card_insert_of_notMem hnot] at h
  exact h.mono (by omega)

/-- A borrower leaves and one task joins `P`. -/
theorem RoomFor.pass (room : RoomFor total (n + 1) P) (hfree : total.covers (n + 1))
    (hP : ∀ t, P' t → P t ∨ t = u) : RoomFor total n P' := by
  intro Q hQ hmem
  have hrest : ∀ t ∈ Q.erase u, P t := by
    intro t ht
    rw [Finset.mem_erase] at ht
    exact (hP t (hmem t ht.2)).resolve_right ht.1
  have hcard : Q.card - 1 ≤ (Q.erase u).card := Finset.pred_card_le_card_erase
  rcases (Q.erase u).eq_empty_or_nonempty with hempty | hne
  · rw [hempty, Finset.card_empty] at hcard
    exact hfree.mono (by omega)
  · have h := room (Q.erase u) hne hrest
    exact h.mono (by omega)

end Room

/-- The task was notified and has not resumed. -/
def InFlight (s : State τ β) (t : τ) : Prop := (notified s.loop t).isSome

instance (s : State τ β) (t : τ) : Decidable (InFlight s t) :=
  inferInstanceAs (Decidable ((notified s.loop t).isSome = true))

/-- An assignment of `total` would notify the task. -/
def ToNotify (s : State τ β) (total : Bound) (t : τ) : Prop :=
  ∃ e ∈ s.waitQueue.entries.take (waitersToNotify s total),
    s.loop.waits t = .future e.2 ∧ s.loop.future e.2 = .pending

instance (s : State τ β) (total : Bound) (t : τ) : Decidable (ToNotify s total t) :=
  inferInstanceAs (Decidable (∃ e ∈ s.waitQueue.entries.take (waitersToNotify s total), _))

/-- A token is granted without waiting only if the tokens in flight still fit
in, and `total_tokens` is only set to a value that has room for the tokens in
flight after it. -/
def Reserves (s : State τ β) : Action τ β → Prop
  | .acquireOnBehalfOf _ b scopeCancelled => scopeCancelled = false → Grants s b →
      RoomFor s.totalTokens (s.borrowers.card + 1) (InFlight s)
  | .acquireOnBehalfOfNowait b => Grants s b →
      RoomFor s.totalTokens (s.borrowers.card + 1) (InFlight s)
  | .setTotalTokens value => ∀ total, newTotal s value = .ok total →
      RoomFor total s.borrowers.card fun t => InFlight s t ∨ ToNotify s total t
  | _ => True

/-- The assignment does not lower `total_tokens`. -/
def KeepsTotal (s : State τ β) : Action τ β → Prop
  | .setTotalTokens value => ∀ total, newTotal s value = .ok total → s.totalTokens.le total
  | _ => True

section Decide
variable [DecidableEq β]

instance (s : State τ β) (b : β) : Decidable (Grants s b) :=
  inferInstanceAs (Decidable (_ ∧ _ ∧ _))

/-- A condition on the value that an assignment stores is checked on that value. -/
instance (checked : Except Error Bound) (P : Bound → Prop) [DecidablePred P] :
    Decidable (∀ total, checked = .ok total → P total) :=
  match checked with
  | .ok total => decidable_of_iff (P total) (by simp)
  | .error _ => .isTrue (by simp)

instance [Fintype τ] [DecidableEq τ] (s : State τ β) (a : Action τ β) :
    Decidable (Reserves s a) :=
  match a with
  | .acquireOnBehalfOf _ b scopeCancelled =>
      inferInstanceAs (Decidable (scopeCancelled = false → Grants s b → RoomFor _ _ _))
  | .acquireOnBehalfOfNowait b => inferInstanceAs (Decidable (Grants s b → RoomFor _ _ _))
  | .setTotalTokens value =>
      inferInstanceAs (Decidable (∀ total, newTotal s value = .ok total → RoomFor _ _ _))
  | .releaseOnBehalfOf _ | .cancel _ | .resume _ => .isTrue trivial

instance (s : State τ β) (a : Action τ β) : Decidable (KeepsTotal s a) :=
  match a with
  | .setTotalTokens value =>
      inferInstanceAs (Decidable (∀ total, newTotal s value = .ok total → s.totalTokens.le total))
  | .acquireOnBehalfOf _ _ _ | .acquireOnBehalfOfNowait _ | .releaseOnBehalfOf _ | .cancel _
  | .resume _ => .isTrue trivial

end Decide

/-- The tokens in flight fit in. -/
def Reserved (s : State τ β) : Prop :=
  RoomFor s.totalTokens s.borrowers.card (InFlight s)

section Preservation
variable {s s' : State τ β} {t : τ} {b : β}

theorem inFlight_setEvent {f : FutureId} (h : (notified (s.loop.setEvent f) t).isSome) :
    InFlight s t ∨ s.loop.waits t = .future f ∧ s.loop.future f = .pending := by
  obtain ⟨b, hb⟩ := Option.isSome_iff_exists.mp h
  rcases notified_setEvent.mp hb with hn | ⟨hw, hf, -⟩
  · exact .inl (Option.isSome_iff_exists.mpr ⟨b, hn⟩)
  · exact .inr ⟨waits_waiting hw, hf⟩

/-- Several notifications put the tasks of the popped entries in flight. -/
theorem inFlight_notify (n : Nat) (h : InFlight (notifyNext^[n] s) t) :
    InFlight s t ∨ ∃ e ∈ s.waitQueue.entries.take n,
      s.loop.waits t = .future e.2 ∧ s.loop.future e.2 = .pending := by
  induction n generalizing s with
  | zero => exact .inl h
  | succ n ih =>
      rw [Function.iterate_succ_apply] at h
      obtain ⟨-, hs⟩ | ⟨e, rest, hpop, hs⟩ := notifyNext_cases s
      · rw [hs] at h
        rcases ih h with hin | ⟨e, he, hw⟩
        · exact .inl hin
        · exact .inr ⟨e, List.take_subset_take_left _ (Nat.le_succ n) he, hw⟩
      · rw [hs] at h
        have hentries := OrderedDict.popItem_eq_some hpop
        rcases ih h with hin | ⟨c, hc, hw, hf⟩
        · rcases inFlight_setEvent hin with hin | hset
          · exact .inl hin
          · exact .inr ⟨e, by simp [hentries], hset⟩
        · refine .inr ⟨c, by simp [hentries, hc], by simpa [Loop.waits] using hw, ?_⟩
          rw [Loop.setEvent_future] at hf
          split_ifs at hf
          exact hf

theorem Reserved.frame (res : Reserved s) (ht : s'.totalTokens = s.totalTokens)
    (hb : s'.borrowers.card ≤ s.borrowers.card) (hf : ∀ t, InFlight s' t → InFlight s t) :
    Reserved s' := by
  unfold Reserved
  rw [ht]
  exact res.mono hb hf

variable [DecidableEq τ] [DecidableEq β]

/-- A released token goes to the next task in line only if it is free. -/
theorem Reserved.release (res : Reserved s) (inv : Inv s) (hb : b ∈ s.borrowers) :
    Reserved (notifyIfFree { s with borrowers := s.borrowers.erase b }) := by
  have hcard := Finset.card_erase_add_one hb
  unfold notifyIfFree
  split_ifs with hfree
  · obtain ⟨-, h⟩ | ⟨e, rest, hpop, h⟩ :=
      notifyNext_cases { s with borrowers := s.borrowers.erase b }
    · rw [h]
      exact res.frame rfl (Finset.card_erase_le) fun _ => id
    · rw [h]
      have hentries : s.waitQueue.entries = e :: rest.entries := OrderedDict.popItem_eq_some hpop
      obtain ⟨u, hu, -⟩ := inv.queued e (hentries ▸ List.mem_cons_self)
      have hroom : RoomFor s.totalTokens ((s.borrowers.erase b).card + 1) (InFlight s) := by
        rw [hcard]
        exact res
      apply hroom.pass (u := u) hfree.2
      intro t ht
      rcases inFlight_setEvent (s := s) ht with hin | ⟨hw, -⟩
      · exact .inl hin
      · exact .inr (inv.owned.injective t u e.2 hw (waits_waiting hu))
  · exact res.frame rfl (Finset.card_erase_le) fun _ => id

omit [DecidableEq β] in
theorem inFlight_of_ite {l : Loop τ (Point β)} (h : ∀ u, notified l u =
    if u = t then none else notified s.loop u) (u : τ) (hu : (notified l u).isSome) :
    InFlight s u ∧ u ≠ t := by
  rw [h] at hu
  split_ifs at hu with hut
  · simp at hu
  · exact ⟨hu, hut⟩

variable {currentTask : τ → β}

theorem Reserved.effect {a : Action τ β} (res : Reserved s) (inv : Inv s) (ok : Reserves s a)
    (h : Effect currentTask s a s') : Reserved s' := by
  cases h with
  | refused => exact res
  | parked _ =>
      exact res.frame rfl le_rfl fun u hu =>
        (inFlight_of_ite (notified_moveTo (p := .checkpointIfCancelled) trivial) u hu).1
  | granted _ grants =>
      apply (ok rfl grants).mono (Finset.card_insert_le _ _)
      intro u hu
      exact (inFlight_of_ite (notified_moveTo (p := .shieldedCheckpoint) trivial) u hu).1
  | queued _ _ =>
      exact res.frame rfl le_rfl fun u hu =>
        (inFlight_of_ite (notified_join inv.owned _) u hu).1
  | grantedNowait grants =>
      exact RoomFor.mono (ok grants) (Finset.card_insert_le _ _) fun _ => id
  | released holds => exact res.release inv holds
  | @adjusted _ total valid =>
      unfold Reserved
      rw [adjustTotal_totalTokens, adjustTotal_borrowers]
      exact (ok total valid).mono le_rfl fun u hu =>
        inFlight_notify (s := { s with totalTokens := total }) _ hu
  | cancelled _ =>
      exact res.frame rfl le_rfl fun u hu => (inFlight_of_ite notified_cancel u hu).1
  | left _ hto =>
      exact res.frame rfl le_rfl fun u hu => (inFlight_of_ite (notified_resumeAt hto) u hu).1
  | @gaveBack t hfrom _ holds =>
      have hleft : ∀ u, InFlight { s with loop := s.loop.resumeAt t .outside } u → InFlight s u :=
        fun u hu => (inFlight_of_ite (notified_resumeAt (p := .outside) trivial) u hu).1
      refine Reserved.release (s := { s with loop := s.loop.resumeAt t .outside })
        (res.frame rfl le_rfl hleft) ?_ holds
      exact inv.leave (p := .outside) trivial rfl fun e he => ⟨he, by simp [hfrom]⟩
  | took note =>
      refine RoomFor.mono (m := _) (res.take (u := _) (Option.isSome_iff_exists.mpr ⟨_, note⟩)
        fun u hu => ?_) (Finset.card_insert_le _ _) fun _ => id
      exact inFlight_of_ite (notified_resumeAt (p := .outside) trivial) u hu
  | withdrew _ _ =>
      exact res.frame rfl le_rfl fun u hu =>
        (inFlight_of_ite (notified_resumeAt (p := .outside) trivial) u hu).1

/-- A borrower is added by a call that finds a free token, or by a waiter whose
token is in flight. -/
theorem Reserved.borrows {a : Action τ β} (res : Reserved s) (h : Effect currentTask s a s')
    (hb : b ∈ s'.borrowers) (hnew : b ∉ s.borrowers) :
    s.totalTokens.covers (s.borrowers.card + 1) := by
  cases h with
  | granted _ grants => exact grants.2.2
  | grantedNowait grants => exact grants.2.2
  | took note => exact res.covers_succ (Option.isSome_iff_exists.mpr ⟨_, note⟩)
  | released _ =>
      rw [notifyIfFree_borrowers] at hb
      exact absurd (Finset.mem_of_mem_erase hb) hnew
  | gaveBack _ _ _ =>
      rw [notifyIfFree_borrowers] at hb
      exact absurd (Finset.mem_of_mem_erase hb) hnew
  | adjusted _ => exact absurd (adjustTotal_borrowers s _ ▸ hb) hnew
  | refused => exact absurd hb hnew
  | parked _ => exact absurd hb hnew
  | queued _ _ => exact absurd hb hnew
  | cancelled _ => exact absurd hb hnew
  | left _ _ => exact absurd hb hnew
  | withdrew _ _ => exact absurd hb hnew

/-- While `total_tokens` is never lowered, the borrowers fit in too. -/
theorem Reserved.covers_card {a : Action τ β} (res : Reserved s)
    (fits : s.totalTokens.covers s.borrowers.card) (keeps : KeepsTotal s a)
    (h : Effect currentTask s a s') : s'.totalTokens.covers s'.borrowers.card := by
  cases h with
  | granted _ grants => exact grants.2.2.mono (Finset.card_insert_le _ _)
  | grantedNowait grants => exact grants.2.2.mono (Finset.card_insert_le _ _)
  | took note =>
      have hroom := res.covers_succ (Option.isSome_iff_exists.mpr ⟨_, note⟩)
      exact hroom.mono (Finset.card_insert_le _ _)
  | released _ =>
      rw [notifyIfFree_borrowers, notifyIfFree_totalTokens]
      exact fits.mono Finset.card_erase_le
  | gaveBack _ _ _ =>
      rw [notifyIfFree_borrowers, notifyIfFree_totalTokens]
      exact fits.mono Finset.card_erase_le
  | adjusted valid =>
      rw [adjustTotal_borrowers, adjustTotal_totalTokens]
      exact (keeps _ valid).covers fits
  | refused => exact fits
  | parked _ => exact fits
  | queued _ _ => exact fits
  | cancelled _ => exact fits
  | left _ _ => exact fits
  | withdrew _ _ => exact fits

variable (currentTask) in
/-- No step of a run that reserves the tokens in flight adds a borrower
without a free token. If `total_tokens` is also never lowered, it bounds the
number of borrowers in every state. -/
theorem no_over_grant {value : Number} {start : State τ β}
    (hcreate : create τ β value = .ok start) :
    (∀ s, (machine currentTask).Reachable Reserves start s →
      ∀ a s' o b, step currentTask s a = some (s', o) → b ∈ s'.borrowers → b ∉ s.borrowers →
        s.totalTokens.covers (s.borrowers.card + 1)) ∧
    ∀ s, (machine currentTask).Reachable (fun s a => Reserves s a ∧ KeepsTotal s a) start s →
      s.totalTokens.covers s.borrowers.card := by
  obtain ⟨total, hstart⟩ := create_ok hcreate
  have hreserved : Reserved start := by
    subst hstart
    rintro Q ⟨t, ht⟩ hmem
    have h := hmem t ht
    simp [InFlight, notified] at h
  have kept : ∀ s a s' o, Inv s ∧ Reserved s → Reserves s a →
      step currentTask s a = some (s', o) → Inv s' ∧ Reserved s' := by
    intro s a s' o hi ok hs
    have heffect := effect_of_step hs
    exact ⟨hi.1.effect heffect, hi.2.effect hi.1 ok heffect⟩
  constructor
  · intro s run a s' o b hs hb hnew
    obtain ⟨-, res⟩ := run.invariant (I := fun s => Inv s ∧ Reserved s)
      ⟨.created hcreate, hreserved⟩ kept
    exact res.borrows (effect_of_step hs) hb hnew
  · intro s run
    refine (run.invariant (I := fun s => (Inv s ∧ Reserved s) ∧
      s.totalTokens.covers s.borrowers.card) ⟨⟨.created hcreate, hreserved⟩, ?_⟩ ?_).2
    · subst hstart
      cases total <;> simp
    · intro s a s' o hi ok hs
      exact ⟨kept s a s' o hi.1 ok.1 hs, hi.1.2.covers_card hi.2 ok.2 (effect_of_step hs)⟩

end Preservation

/-- A limiter with one token, all tasks outside. -/
def oneToken (τ β : Type*) : State τ β where
  totalTokens := .count 1
  borrowers := ∅
  waitQueue := .empty
  loop := Loop.initial .outside

/-- Task 1 waits for the token of task 0 and is notified by its release. -/
def notifiedWaiter : State (Fin 2) (Fin 2) :=
  ((machine id).exec Reserves (oneToken (Fin 2) (Fin 2))
    [.acquireOnBehalfOfNowait 0, .acquireOnBehalfOf 1 1 false, .releaseOnBehalfOf 0]).get
    (by decide)

/-- The same run up to the resumption of task 1. -/
def servedWaiter : State (Fin 2) (Fin 2) :=
  ((machine id).exec (fun s a => Reserves s a ∧ KeepsTotal s a) (oneToken (Fin 2) (Fin 2))
    [.acquireOnBehalfOfNowait 0, .acquireOnBehalfOf 1 1 false, .releaseOnBehalfOf 0,
      .resume 1]).get (by decide)

theorem no_over_grant_served :
    notifiedWaiter.totalTokens.covers (notifiedWaiter.borrowers.card + 1) ∧
      1 ∈ servedWaiter.borrowers ∧
      servedWaiter.totalTokens.covers servedWaiter.borrowers.card := by
  have run : (machine id).Reachable Reserves (oneToken (Fin 2) (Fin 2)) notifiedWaiter :=
    Machine.exec_get_reachable _ _ _
  have run' : (machine id).Reachable (fun s a => Reserves s a ∧ KeepsTotal s a)
      (oneToken (Fin 2) (Fin 2)) servedWaiter := Machine.exec_get_reachable _ _ _
  have created : create (Fin 2) (Fin 2) (.int 1) = .ok (oneToken (Fin 2) (Fin 2)) := rfl
  have safe := no_over_grant id created
  exact ⟨safe.1 notifiedWaiter run (.resume 1) _ _ 1 rfl (by decide) (by decide), by decide,
    safe.2 servedWaiter run'⟩

/-- Before the notified task 1 resumes, task 0 takes the token again. -/
def overGranted : State (Fin 2) (Fin 2) :=
  ((machine id).exec KeepsTotal (oneToken (Fin 2) (Fin 2))
    [.acquireOnBehalfOfNowait 0, .acquireOnBehalfOf 1 1 false, .releaseOnBehalfOf 0,
      .acquireOnBehalfOfNowait 0, .resume 1]).get (by decide)

/-- A run that never assigns `total_tokens` and in which two borrowers hold the one token. -/
theorem over_granted :
    create (Fin 2) (Fin 2) (.int 1) = .ok (oneToken (Fin 2) (Fin 2)) ∧
      (machine id).Reachable KeepsTotal (oneToken (Fin 2) (Fin 2)) overGranted ∧
      overGranted.totalTokens = .count 1 ∧ overGranted.borrowers = {0, 1} :=
  ⟨rfl, Machine.exec_get_reachable _ _ _, by decide, by decide⟩

end Anyio.CapacityLimiter
