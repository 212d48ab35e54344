import Anyio.CancelScope.Caught
import Anyio.CancelScope.Counting

/-!
# Native requests inside a scope

The message of the `CancelledError` that reaches a task tells whether a delivery
or a native `Task.cancel()` asked for it. A future that was cancelled keeps its
message, so a native request that comes after a delivery has cancelled what the
task awaits is counted, but leaves no message: the scope swallows it. So it
does if the native error on its way is replaced by one of a delivery, or has one
along its `__context__`. Otherwise nothing native is swallowed.

## Implementation notes

The messages are read off the steps as a history: who cancelled a future first,
and who set `_must_cancel` last. Native requests come without a message of
their own.
-/

namespace Anyio.CancelScope

open Asyncio Library

variable {τ : Type*}

/-- Who asked for a cancellation, as far as its message tells. -/
inductive Origin
  | native
  | delivery
  deriving DecidableEq

/-- The origins of the `_cancel_message` of each task and of each future, the
`CancelledError` that was last raised in the task under consideration, and the
native requests that reached it. -/
structure Flight (τ : Type*) where
  message : τ → Origin
  future : FutureId → Origin
  raised : Option Origin
  natives : Nat

def Flight.start : Flight τ := ⟨fun _ => .native, fun _ => .native, none, 0⟩

/-- From here on, nothing was raised and no native request was made. -/
def Flight.since (h : Flight τ) : Flight τ := { h with raised := none, natives := 0 }

/-- The `CancelledError` that the next step of a suspended task starts with. -/
def Flight.arriving (h : Flight τ) (w : World τ) (t : τ) : Option Origin :=
  match w.loop.waits t with
  | .future f =>
      match w.loop.future f with
      | .cancelled => some (h.future f)
      | .finished => if (w.loop.task t).mustCancel then some (h.message t) else none
      | .pending => none
  | _ => if (w.loop.task t).mustCancel then some (h.message t) else none

variable [DecidableEq τ]

/-- The state after a step. -/
def World.after (w : World τ) (a : Action τ) : World τ := (step w a).elim w Prod.fst

/-- Who set `_must_cancel` of task `u`, if that was done by this step. -/
def Flight.setMessage (h : Flight τ) (w : World τ) (a : Action τ) (u : τ) : Origin :=
  let set := ((w.after a).loop.task u).mustCancel
  match a with
  | .nativeCancel v =>
      if u = v ∧ set then .native else h.message u
  | _ => if (w.loop.task u).mustCancel = false ∧ set then .delivery else h.message u

/-- Who cancelled the future `f`, if that was done by this step. A task that awaits
a future passes the request on that it got while it was running. -/
def Flight.setFuture (h : Flight τ) (w : World τ) (a : Action τ) (f : FutureId) : Origin :=
  if w.loop.future f ≠ .cancelled ∧ (w.after a).loop.future f = .cancelled then
    match a with
    | .nativeCancel _ => .native
    | .await _ => (w.current.map h.message).getD .native
    | _ => .delivery
  else h.future f

/-- The `CancelledError` raised in task `t`, until a scope swallows it. -/
def Flight.setRaised (t : τ) (h : Flight τ) (w : World τ) : Action τ → Answer → Option Origin
  | .resume u, _ => if u = t then (h.arriving w t).or h.raised else h.raised
  | .exit _ _, .ok (some true) => if w.current = some t then none else h.raised
  | _, _ => h.raised

/-- The history for task `t`. -/
def Flight.record (t : τ) (h : Flight τ) (w : World τ) (a : Action τ) (o : Answer) : Flight τ where
  message := h.setMessage w a
  future := h.setFuture w a
  raised := h.setRaised t w a o
  natives := nativeRequests t h.natives w a o

/-- Fresh scopes with shields set beforehand. Task `t` is natively cancelled by other tasks. -/
def Interleaved (t : τ) (w : World τ) (a : Action τ) : Prop :=
  Fresh w a ∧
    match a with
    | .setShield c _ => c ∉ w.entered
    | .nativeCancel u => u = t → w.current ≠ some t
    | _ => True

/-- Nothing but cancellations by AnyIO leaves a block, each by its message or one along its
`__context__`. -/
def LooksAnyio (exc : Option Exc) : Prop := leaving exc ≠ [] ∧ ∀ e ∈ leaving exc, AnyioLeaf e

instance : DecidablePred AnyioLeaf
  | .cancelled message contexts =>
      inferInstanceAs (Decidable (∃ m ∈ message :: contexts, isAnyioCancellation m = true))
  | .other | .group _ => .isFalse not_false

instance (exc : Option Exc) : Decidable (LooksAnyio exc) := inferInstanceAs (Decidable (_ ∧ _))

/-- A delivery has cancelled the future that task `t` awaits. -/
def Flight.late (h : Flight τ) (w : World τ) (t : τ) : Bool :=
  match w.loop.waits t with
  | .future f => w.loop.future f = .cancelled && h.future f = .delivery
  | _ => false

/-- A native request to task `t` is not masked: it does not come after a delivery has cancelled
what the task awaits; the error of no delivery is raised in the task while a native one is on its
way there; and no scope that would catch it sees the native error as one by AnyIO. -/
def Unmasked (t : τ) (p : World τ × Flight τ) : Action τ → Prop
  | .nativeCancel u => u = t → p.2.late p.1 t = false
  | .resume u => u = t → p.2.natives ≠ 0 → p.2.raised = some .native →
      p.2.arriving p.1 t ≠ some .delivery
  | .exit c exc => p.1.current = some t → p.2.natives ≠ 0 → p.2.raised = some .native →
      ¬ (p.1.catches c = true ∧ LooksAnyio exc)
  | _ => True

instance (t : τ) (w : World τ) (a : Action τ) : Decidable (Interleaved t w a) :=
  match a with
  | .setShield c _ => inferInstanceAs (Decidable (_ ∧ c ∉ w.entered))
  | .nativeCancel u => inferInstanceAs (Decidable (_ ∧ (u = t → w.current ≠ some t)))
  | .enter _ | .exit _ _ | .cancel _ | .setDeadline _ _ | .timeout _ _ | .deliverCancellation _ _
  | .spawn _ _ | .taskWrapper _ | .createTask _ | .resume _ | .sleep | .await _ | .finish
  | .taskDone _ _ | .createFuture | .setResult _ | .setTime _ =>
      inferInstanceAs (Decidable (_ ∧ True))

instance (t : τ) (p : World τ × Flight τ) (a : Action τ) : Decidable (Unmasked t p a) :=
  match a with
  | .nativeCancel u => inferInstanceAs (Decidable (u = t → p.2.late p.1 t = false))
  | .resume u => inferInstanceAs (Decidable (u = t → p.2.natives ≠ 0 →
      p.2.raised = some .native → p.2.arriving p.1 t ≠ some .delivery))
  | .exit c exc => inferInstanceAs (Decidable (p.1.current = some t → p.2.natives ≠ 0 →
      p.2.raised = some .native → ¬ (p.1.catches c = true ∧ LooksAnyio exc)))
  | .enter _ | .cancel _ | .setShield _ _ | .setDeadline _ _ | .timeout _ _
  | .deliverCancellation _ _ | .spawn _ _ | .taskWrapper _ | .createTask _ | .sleep | .await _
  | .finish | .taskDone _ _ | .createFuture | .setResult _ | .setTime _ => .isTrue trivial

/-- Every awaited future was created. -/
def Created (w : World τ) : Prop :=
  ∀ t f, w.loop.waits t = .future f → f < w.loop.nextFuture

/-- What a step of others keeps of a suspended task. -/
structure Suspended (w w' : World τ) (t : τ) : Prop where
  current : w'.current ≠ some t
  waits : w'.loop.waits t = w.loop.waits t
  done : ∀ f < w.loop.nextFuture, w.loop.future f ≠ .pending → w'.loop.future f = w.loop.future f
  mustCancel : (w.loop.task t).mustCancel = true → (w'.loop.task t).mustCancel = true

variable {w w' w₁ w₂ w₃ w₄ mid : World τ} {a : Action τ} {o : Answer} {h h' : Flight τ}
  {c d x : ScopeId} {t u host : τ} {exc : Option Exc} {base n : Nat} {b : Bool}

/-! ## Suspended tasks -/

omit [DecidableEq τ] in
theorem Created.of_points (created : Created w) (hn : w.loop.nextFuture ≤ w'.loop.nextFuture)
    (h : ∀ u f, w'.loop.waits u = .future f →
      w.loop.waits u = .future f ∨ f < w.loop.nextFuture) : Created w' := by
  intro u f hf
  apply Nat.lt_of_lt_of_le _ hn
  exact (h u f hf).elim (created u f) id

omit [DecidableEq τ] in
theorem waits_congr (h : w'.loop.point t = w.loop.point t) :
    w'.loop.waits t = w.loop.waits t := by
  simp [Loop.waits, h]

/-- Moving one task keeps `Created` if the future that it comes to await was created. -/
theorem Created.move (created : Created w) {p : Point} (hp : ∀ u, w'.loop.point u =
    if u = t then p else w.loop.point u) (hn : w'.loop.nextFuture = w.loop.nextFuture)
    (hf : ∀ f, Coroutine.waits p = .future f → f < w.loop.nextFuture) : Created w' := by
  apply created.of_points hn.ge
  intro u f hu
  by_cases hut : u = t
  · rw [Loop.waits, hp, if_pos hut] at hu
    exact .inr (hf f hu)
  · exact .inl ((waits_congr ((hp u).trans (if_neg hut))).symm.trans hu)

/-- A task comes to await a created future only. -/
theorem Created.schedule (created : Created w) (ha : a.kind = .schedules)
    (hstep : CancelScope.step w a = some (w', o)) : Created w' := by
  cases a with
  | createTask v =>
      obtain ⟨-, hstep⟩ := Option.ite_none_right_eq_some.mp hstep
      cases hstep
      apply created.move (t := v) (p := .created) (fun u => by simp) (by simp)
      intro f hf
      cases hf
  | resume v =>
      obtain ⟨-, hstep⟩ := Option.ite_none_right_eq_some.mp hstep
      cases hstep
      apply created.move (t := v) (p := .running) (fun u => by simp) (by simp)
      intro f hf
      cases hf
  | sleep =>
      simp only [CancelScope.step] at hstep
      split at hstep
      · cases hstep
      · rename_i v _
        cases hstep
        apply created.move (t := v) (p := .yielding) (fun u => by simp) (by simp)
        intro f hf
        cases hf
  | await g =>
      simp only [CancelScope.step] at hstep
      split at hstep
      · cases hstep
      · rename_i v _
        obtain ⟨⟨hg, -⟩, hstep⟩ := Option.ite_none_right_eq_some.mp hstep
        cases hstep
        apply created.move (t := v) (p := .awaiting g) (fun u => by simp) (by simp)
        intro f hf
        cases hf
        exact hg
  | nativeCancel v =>
      obtain ⟨-, hstep⟩ := Option.ite_none_right_eq_some.mp hstep
      cases hstep
      exact created.of_points (by simp) fun u f hu => .inl (by simpa using hu)
  | createFuture =>
      cases hstep
      exact created.of_points (Nat.le_succ _) fun u f hu => .inl hu
  | setResult f =>
      simp only [CancelScope.step] at hstep
      split at hstep
      · cases hstep
        exact created
      · rename_i l hl
        cases hstep
        obtain ⟨-, rfl⟩ := Loop.setResult_eq_some.mp hl
        exact created.of_points (Nat.le_refl _) fun u f hu => .inl hu
  | setTime now =>
      obtain ⟨-, hstep⟩ := Option.ite_none_right_eq_some.mp hstep
      cases hstep
      exact created
  | enter _ | exit _ _ | cancel _ | setShield _ _ | setDeadline _ _ | timeout _ _
  | deliverCancellation _ _ | spawn _ _ | taskWrapper _ | finish | taskDone _ _ => cases ha

theorem Created.step (created : Created w) (change : Change w a w' o)
    (hstep : CancelScope.step w a = some (w', o)) : Created w' := by
  cases change with
  | refused => exact created
  | @entered c host mid _ _ hmid =>
      have hc : Charged (some c) none c mid (mid.activate c host) := activate_charged mid c host
      apply created.of_points
      · rw [hc.loop.nextFuture, hmid.loop]
      · intro u f hu
        rw [waits_congr (hc.loop.point u), hmid.loop] at hu
        exact .inl hu
  | @left c host exc mid _ _ _ _ hmid =>
      obtain ⟨undone, restarted, origin, hundone, hc, -, -, -, heq⟩ :=
        conclude_stages mid c host exc
      rw [heq]
      apply created.of_points
      · change _ ≤ restarted.loop.nextFuture
        rw [hc.loop.nextFuture, hundone.future.2, hmid.loop]
      · intro u f hu
        change restarted.loop.waits u = _ at hu
        rw [waits_congr (hc.loop.point u), waits_congr (hundone.point u), hmid.loop] at hu
        exact .inl hu
  | charged _ _ _ hc =>
      apply created.of_points hc.loop.nextFuture.ge
      exact fun u f hu => .inl ((waits_congr (hc.loop.point u)).symm.trans hu)
  | @placed _ _ v _ hp _ =>
      apply created.of_points hp.future.2.ge
      intro u f hu
      by_cases huv : u = v
      · subst huv
        rcases hp.moves with hm | hm | hm
        · exact .inl ((waits_congr hm).symm.trans hu)
        · rw [Loop.waits, hm] at hu
          cases hu
        · rw [Loop.waits, hm] at hu
          cases hu
      · exact .inl ((waits_congr (hp.others u huv).2).symm.trans hu)
  | scheduled ha _ => exact created.schedule ha hstep

omit [DecidableEq τ] in
theorem Requested.suspended (h : Requested w.loop w'.loop) (hcur : w'.current ≠ some t) :
    Suspended w w' t where
  current := hcur
  waits := waits_congr (h.point t)
  done f _ hf := h.done f hf
  mustCancel := h.mustCancel t

/-- A scheduling step of another task leaves a suspended task alone. -/
theorem schedule_suspended (ha : a.kind = .schedules) (hcur : w.current ≠ some t)
    (hborn : w.loop.point t ≠ .unborn) (hresume : a ≠ .resume t)
    (hstep : step w a = some (w', o)) : Suspended w w' t := by
  cases a with
  | createTask v =>
      obtain ⟨hv, hstep⟩ := Option.ite_none_right_eq_some.mp hstep
      cases hstep
      have htv : t ≠ v := fun h => hborn (h ▸ hv)
      exact ⟨hcur, waits_congr (by simp [htv]), fun f _ _ => rfl, by simp⟩
  | resume v =>
      obtain ⟨-, hstep⟩ := Option.ite_none_right_eq_some.mp hstep
      cases hstep
      have htv : t ≠ v := fun h => hresume (h ▸ rfl)
      exact ⟨by simpa using htv.symm, waits_congr (by simp [htv]), fun f _ _ => rfl,
        by simp [htv]⟩
  | sleep =>
      simp only [step] at hstep
      split at hstep
      · cases hstep
      · rename_i v hv
        cases hstep
        have htv : t ≠ v := fun h => hcur (h ▸ hv)
        exact ⟨by simp, waits_congr (by simp [htv]), fun f _ _ => rfl,
          by simp [Loop.suspend, Coroutine.waits]⟩
  | await g =>
      simp only [step] at hstep
      split at hstep
      · cases hstep
      · rename_i v hv
        obtain ⟨⟨-, hg⟩, hstep⟩ := Option.ite_none_right_eq_some.mp hstep
        cases hstep
        have htv : t ≠ v := fun h => hcur (h ▸ hv)
        refine ⟨by simp, waits_congr (by simp [htv]), fun f _ hf => ?_, fun hm => ?_⟩
        · have hfg : f ≠ g := fun h => hf (h ▸ hg)
          unfold Loop.suspend
          simp only [Coroutine.waits]
          split_ifs <;> simp [hfg]
        · unfold Loop.suspend
          simp only [Coroutine.waits]
          split_ifs <;> simp [htv, hm]
  | nativeCancel v =>
      obtain ⟨-, hstep⟩ := Option.ite_none_right_eq_some.mp hstep
      cases hstep
      have hr : Requested w.loop (w.loop.cancel v) := .cancel w.loop v
      exact ⟨hcur, waits_congr (hr.point t), fun f _ hf => hr.done f hf, hr.mustCancel t⟩
  | createFuture =>
      cases hstep
      exact ⟨hcur, rfl, fun f hf _ => by simp [Nat.ne_of_lt hf], id⟩
  | setResult g =>
      simp only [step] at hstep
      split at hstep
      · cases hstep
        exact ⟨hcur, rfl, fun _ _ _ => rfl, id⟩
      · rename_i l hl
        cases hstep
        obtain ⟨hg, rfl⟩ := Loop.setResult_eq_some.mp hl
        refine ⟨hcur, rfl, fun f _ hf => ?_, id⟩
        have hfg : f ≠ g := fun h => hf (h ▸ hg)
        simp [hfg]
  | setTime now =>
      obtain ⟨-, hstep⟩ := Option.ite_none_right_eq_some.mp hstep
      cases hstep
      exact ⟨hcur, rfl, fun _ _ _ => rfl, id⟩
  | enter _ | exit _ _ | cancel _ | setShield _ _ | setDeadline _ _ | timeout _ _
  | deliverCancellation _ _ | spawn _ _ | taskWrapper _ | finish | taskDone _ _ => cases ha

/-- So does every other step, if the task is alive inside a scope of its own. -/
theorem Change.suspended (change : Change w a w' o) (hstep : CancelScope.step w a = some (w', o))
    (reg : Registered w) (hc : (w.scope c).hostTask = some t) (halive : w.loop.point t ≠ .finished)
    (hcur : w.current ≠ some t) (hresume : a ≠ .resume t) : Suspended w w' t := by
  have hborn : w.loop.point t ≠ .unborn := fun hb => (reg.unborn t hb).2.2 c hc
  cases change with
  | refused => exact ⟨hcur, rfl, fun _ _ _ => rfl, id⟩
  | @entered d host mid _ _ hmid =>
      have hcharged : Charged (some d) none d mid (mid.activate d host) :=
        activate_charged mid d host
      have hr := hcharged.loop
      rw [hmid.loop] at hr
      apply hr.suspended
      rw [hcharged.current, hmid.current]
      exact hcur
  | @left d host exc mid hcur' _ _ _ hmid =>
      obtain ⟨undone, restarted, origin, hundone, hcharged, -, -, -, heq⟩ :=
        conclude_stages mid d host exc
      have hth : t ≠ host := fun h => hcur (h ▸ hcur')
      have hr := hcharged.loop
      have htask : undone.loop.task t = w.loop.task t := by
        rw [hundone.others t hth, hmid.loop]
      have hfuture : undone.loop.future = w.loop.future := by rw [hundone.future.1, hmid.loop]
      rw [heq]
      refine ⟨?_, ?_, fun f _ hf => ?_, fun hm => hr.mustCancel t (htask ▸ hm)⟩
      · change restarted.current ≠ some t
        rw [hcharged.current, hundone.current, hmid.current]
        exact hcur
      · apply waits_congr
        change restarted.loop.point t = _
        rw [hr.point, hundone.point, hmid.loop]
      · exact (hr.done f (hfuture ▸ hf)).trans (congrFun hfuture f)
  | charged _ hl _ hcharged =>
      exact hcharged.loop.suspended fun h => hcur (hl.current ▸ h)
  | @placed _ _ u _ hp hu =>
      have htu : t ≠ u := by
        rintro rfl
        rcases hu with ⟨_, -, hb⟩ | ⟨_, -, hcur', -⟩ | ⟨-, hcur', -⟩ | ⟨_, -, hf⟩
        · exact hborn hb
        · exact hcur hcur'
        · exact hcur hcur'
        · exact halive hf
      refine ⟨fun h => hcur (hp.current t h), waits_congr (hp.others t htu).2, fun f _ _ => ?_,
        fun hm => (hp.requests t).2 ▸ hm⟩
      rw [hp.future.1]
  | scheduled ha _ => exact schedule_suspended ha hcur hborn hresume hstep

/-! ## The message that arrives -/

theorem after_eq (hstep : step w a = some (w', o)) : w.after a = w' := by
  simp [World.after, hstep]

/-- A native `CancelledError` on its way to a suspended task stays on its way. -/
theorem Suspended.arriving (hs : Suspended w w' t) (created : Created w)
    (hstep : step w a = some (w', o)) (ha : h.arriving w t = some .native) :
    (h.record t w a o).arriving w' t = some .native := by
  have hfuture : ∀ f, w.loop.future f = .cancelled → h.setFuture w a f = h.future f := by
    intro f hf
    simp [Flight.setFuture, hf]
  have hmessage : (w.loop.task t).mustCancel = true → h.message t = .native →
      h.setMessage w a t = .native := by
    intro hm hn
    unfold Flight.setMessage
    split
    · simp [hn]
    · simp [hm, hn]
  unfold Flight.arriving at ha ⊢
  rw [hs.waits]
  cases hw : w.loop.waits t with
  | future f =>
      have hdone := hs.done f (created t f hw)
      cases hf : w.loop.future f with
      | pending => simp [hw, hf] at ha
      | cancelled =>
          have hnative : h.future f = .native := by simpa [hw, hf] using ha
          simp [hdone (by simp [hf]), hf, Flight.record, hfuture f hf, hnative]
      | finished =>
          obtain ⟨hm, hn⟩ : (w.loop.task t).mustCancel = true ∧ h.message t = .native := by
            simpa [hw, hf] using ha
          simp [hdone (by simp [hf]), hf, hs.mustCancel hm, Flight.record, hmessage hm hn]
  | nothing | step =>
      obtain ⟨hm, hn⟩ : (w.loop.task t).mustCancel = true ∧ h.message t = .native := by
        simpa [hw] using ha
      simp [hs.mustCancel hm, Flight.record, hmessage hm hn]

/-- A native request that is not too late is what arrives. -/
theorem arriving_of_native (hstep : step w (.nativeCancel t) = some (w', o))
    (halive : w.loop.point t ≠ .finished)
    (intime : h.late w t = false) :
    (h.record t w (.nativeCancel t) o).arriving w' t = some .native := by
  have hafter := after_eq hstep
  obtain ⟨-, hstep⟩ := Option.ite_none_right_eq_some.mp hstep
  cases hstep
  have hd : Coroutine.done (w.loop.point t) = false := done_eq_false halive
  unfold Flight.arriving
  change (match (w.loop.cancel t).waits t with
    | .future f => _
    | _ => _) = _
  rw [Loop.cancel_waits]
  cases hw : w.loop.waits t with
  | future f =>
      cases hf : w.loop.future f with
      | pending =>
          have hcancelled : (w.loop.cancel t).future f = .cancelled := by
            simp [Loop.cancel, hd, hw, hf]
          simp [hcancelled, Flight.record, Flight.setFuture, hafter, hf]
      | cancelled =>
          have hcancelled : (w.loop.cancel t).future f = .cancelled :=
            (Loop.cancel_future_of_done (by simp [hf])).trans hf
          have hnative : h.future f = .native := by
            cases ho : h.future f with
            | native => rfl
            | delivery => simp [Flight.late, hw, hf, ho] at intime
          simp [hcancelled, Flight.record, Flight.setFuture, hf, hnative]
      | finished =>
          have hfinished : (w.loop.cancel t).future f = .finished :=
            (Loop.cancel_future_of_done (by simp [hf])).trans hf
          have hm : ((w.loop.cancel t).task t).mustCancel = true := by
            simp [Loop.cancel, hd, hw, hf]
          simp [hfinished, hm, Flight.record, Flight.setMessage, hafter]
  | nothing | step =>
      have hm : ((w.loop.cancel t).task t).mustCancel = true := by
        simp [Loop.cancel, hd, hw]
      simp [hm, Flight.record, Flight.setMessage, hafter]

/-! ## What a scope swallows -/

/-- An exit that is not refused swallows what looks like cancellations by AnyIO, and only if
`_uncancel` would catch them. -/
theorem Left.swallows (hmid : Left w c host mid) (hs : (mid.conclude c host exc).2 = true) :
    w.catches c = true ∧ LooksAnyio exc := by
  have hq := undoCancellations_quiet mid c host
  have hattr := fun d => Scope.attributes_ext (hmid.attributes d)
  obtain ⟨heff, hvis⟩ := visible_congr hmid.parentScope (fun d => (hattr d).2.1)
    (fun d => (hattr d).1) hmid.entered c
  have hcatches : (mid.undoCancellations c host).catches c = w.catches c := by
    rw [hq.toSameTree.catches, World.catches, World.catches, heff, hvis]
  change (World.swallow c (leaving exc) (mid.undoCancellations c host) false false).2 = true at hs
  cases hcalled : ((mid.undoCancellations c host).scope c).cancelCalled with
  | false =>
      rw [swallow_uncalled hcalled] at hs
      cases hs
  | true =>
      obtain ⟨-, hall, hanswer⟩ := (swallow_answer hcalled (leaving exc) false false).mp hs
      split_ifs at hanswer with hnil
      exact ⟨hcatches ▸ hanswer, hnil, hall⟩

omit [DecidableEq τ] in
/-- What `Visible` says is what the program computes. -/
theorem Registered.visible (reg : Registered w) (hv : w.Visible c) :
    w.parentCancellationIsVisibleToUs c = true := by
  obtain ⟨pass, p, d, hp, hnear⟩ := hv
  have hfound : w.nearestCancelled (some p) = some d :=
    nearest_complete (fun y p hp => (reg.older y p hp).1) hnear
      (Nat.lt_succ_of_le List.idxOf_le_length)
  simp [World.parentCancellationIsVisibleToUs, hp, pass, World.effectivelyCancelled, hfound]

/-- Cancelled scopes stay cancelled, and only the setter changes the shield of an
entered scope. -/
theorem Change.flags (change : Change w a w' o) (d : ScopeId) :
    ((w.scope d).cancelCalled = true → (w'.scope d).cancelCalled = true) ∧
      ((∀ v, a ≠ .setShield d v) → (w'.scope d).shield = (w.scope d).shield) := by
  cases change with
  | refused => exact ⟨id, fun _ => rfl⟩
  | @entered c host mid _ _ hmid =>
      have hc : Charged (some c) none c mid (mid.activate c host) := activate_charged mid c host
      obtain ⟨hshield, hcalled, -⟩ := Scope.attributes_ext (hmid.attributes d)
      exact ⟨fun h => hc.called d (hcalled.trans h),
        fun _ => (hc.shield d (by simp)).trans hshield⟩
  | @left c host exc mid _ _ _ _ hmid =>
      obtain ⟨hshield, hcalled, -⟩ := Scope.attributes_ext (hmid.attributes d)
      obtain ⟨hcalled', hshield'⟩ := conclude_flags mid c host exc d
      exact ⟨fun h => hcalled'.trans (hcalled.trans h), fun _ => hshield'.trans hshield⟩
  | charged _ _ hs hc =>
      refine ⟨hc.called d, fun hn => hc.shield d fun hd => ?_⟩
      obtain ⟨v, hv⟩ := hs d hd
      exact hn v hv
  | placed _ hp _ =>
      rw [hp.scope]
      exact ⟨id, fun _ => rfl⟩
  | scheduled _ hs =>
      rw [hs.scope]
      exact ⟨id, fun _ => rfl⟩

/-- With shields that stay as they are, what a scope can see it sees later too. -/
theorem Change.visible (change : Change w a w' o) (reg : Registered w) (hc : c ∈ w.entered)
    (ok : ∀ d ∈ w.entered, ∀ v, a ≠ .setShield d v) (hv : w.Visible c) : w'.Visible c := by
  obtain ⟨pass, p, d, hp, hnear⟩ := hv
  have hparent : ∀ y q, y ∈ w.entered → (w.scope y).parentScope = some q →
      (w'.scope y).parentScope = some q ∧ q ∈ w.entered := by
    intro y q hy hq
    refine ⟨(change.kept hy).parentScope.trans hq, ?_⟩
    exact List.idxOf_lt_length_iff.mp ((reg.older y q hq).1.trans_le List.idxOf_le_length)
  obtain ⟨hp', hpe⟩ := hparent c p hc hp
  obtain ⟨d', hd'⟩ := hnear.persists (P := fun y => y ∈ w.entered) hpe hparent
    (fun y _ => (change.flags y).1) fun y hy => (change.flags y).2 (ok y hy)
  exact ⟨((change.flags c).2 (ok c hc)).trans pass, p, d', hp', hd'⟩

/-! ## Runs -/

/-- A native request made since `c` was entered was raised in the host, or is about to be. -/
structure Guarded (t : τ) (c : ScopeId) (base : Nat) (w : World τ) (h : Flight τ) : Prop where
  accounted : Accounted t c w (base + h.natives)
  entered : c ∈ w.entered
  created : Created w
  noticed : (w.scope c).active = true → w.loop.point t ≠ .finished → h.natives ≠ 0 →
    h.raised = some .native ∨ w.current ≠ some t ∧ h.arriving w t = some .native

/-- An exit that answers true is one of an active scope that would catch a cancellation, and takes
the exception for one. -/
theorem Change.swallows (change : Change w (.exit c exc) w' (.ok (some true))) :
    (w.scope c).active = true ∧ w.catches c = true ∧ LooksAnyio exc := by
  generalize ho : (Except.ok (some true) : Answer) = o at change
  cases change with
  | refused => cases ho
  | @left _ host _ mid _ hactive _ _ hmid =>
      have hanswer : (mid.conclude c host exc).2 = true := by
        simpa using ho.symm
      exact ⟨hactive, hmid.swallows hanswer⟩
  | charged ha _ _ _ => cases ha.1
  | placed ha _ _ => cases ha
  | scheduled ha _ => cases ha

/-- A native `CancelledError` that is not masked passes every exit. -/
theorem Change.raised (change : Change w a w' o) (unmasked : Unmasked t (w, h) a)
    (hne : h.natives ≠ 0) (hraised : h.raised = some .native) :
    (h.record t w a o).raised = some .native := by
  change h.setRaised t w a o = _
  unfold Flight.setRaised
  split
  · rename_i u
    split_ifs with hut
    · cases harriving : h.arriving w t with
      | none => exact hraised
      | some origin =>
          cases origin with
          | native => rfl
          | delivery => exact absurd harriving (unmasked hut hne hraised)
    · exact hraised
  · rename_i d exc
    split_ifs with hcur
    · exact absurd change.swallows.2 (unmasked hcur hne hraised)
    · exact hraised
  · exact hraised

theorem Guarded.step (g : Guarded t c base w h) (ok : Interleaved t w a)
    (unmasked : Unmasked t (w, h) a) (hstep : CancelScope.step w a = some (w', o)) :
    Guarded t c base w' (h.record t w a o) := by
  obtain ⟨fresh, hothers⟩ := ok
  have reg := g.accounted.toRegistered
  have change := step_change reg g.accounted.called fresh hstep
  have hkept := change.kept g.entered
  have hshield : ∀ d ∈ w.entered, ∀ v, a ≠ .setShield d v := by
    rintro d hd v rfl
    exact hothers hd
  refine ⟨?_, hkept.entered, g.created.step change hstep, fun hactive halive' hne => ?_⟩
  · change Accounted t c w' (base + nativeRequests t h.natives w a o)
    rw [← nativeRequests_add]
    exact g.accounted.step g.entered fresh hstep (change.visible reg g.entered hshield)
  · have halive : w.loop.point t ≠ .finished := fun hf => halive' (change.ended hf)
    obtain ⟨hactive, -⟩ := hkept.active hactive
    by_cases hz : h.natives = 0
    · obtain rfl : a = .nativeCancel t := by
        by_contra hn
        apply hne
        change nativeRequests t h.natives w a o = 0
        unfold nativeRequests
        split
        · rename_i u
          have hut : u ≠ t := fun heq => hn (heq ▸ rfl)
          simp [hut, hz]
        · exact hz
      refine .inr ⟨?_, arriving_of_native hstep halive (unmasked rfl)⟩
      obtain ⟨-, hstep⟩ := Option.ite_none_right_eq_some.mp hstep
      cases hstep
      exact hothers rfl
    · rcases g.noticed hactive halive hz with hraised | ⟨hcur, harriving⟩
      · exact .inl (change.raised unmasked hz hraised)
      · by_cases hresume : a = .resume t
        · subst hresume
          obtain ⟨-, hstep⟩ := Option.ite_none_right_eq_some.mp hstep
          cases hstep
          exact .inl (by simp [Flight.record, Flight.setRaised, harriving])
        · obtain ⟨inner, beyond, outer, hcounted, hlast, -⟩ := g.accounted.counted hactive halive
          have hhost := hcounted.hosted c (List.mem_of_getLast? hlast)
          have hs := change.suspended hstep reg hhost halive hcur hresume
          exact .inr ⟨hs.current, hs.arriving g.created hstep harriving⟩

/-- Task 0 was natively cancelled before its first step, and enters the scope 0. -/
def hostStarted : World (Fin 2) × Flight (Fin 2) :=
  (((machine (Fin 2)).withHistory (Flight.record 0)).exec (fun p => Fresh p.1)
    (initial (Fin 2) 12, .start) [.createTask 0, .nativeCancel 0, .resume 0]).get (by decide)

/-- Task 0 enters the scope `c`. -/
def enteredBy (p : World (Fin 2) × Flight (Fin 2)) (c : ScopeId) :
    World (Fin 2) × Flight (Fin 2) :=
  ((p.1.enter c 0).1, (Flight.record 0 p.2 p.1 (.enter c) (.ok none)).since)

/-- A delivery interrupts the host. -/
def interrupted : World (Fin 2) × Flight (Fin 2) :=
  (((machine (Fin 2)).withHistory (Flight.record 0)).exec
    (fun p a => Interleaved 0 p.1 a ∧ Unmasked 0 p a) (enteredBy hostStarted 0)
    [.createFuture, .await 0, .cancel 0, .resume 0]).get (by decide)

/-- The native error is raised in the host. The host waits again before it leaves the scope, and
there a delivery interrupts it. -/
def replaced : World (Fin 2) × Flight (Fin 2) :=
  (((machine (Fin 2)).withHistory (Flight.record 0)).exec (fun p => Interleaved 0 p.1)
    (enteredBy hostStarted 0)
    [.createFuture, .await 0, .nativeCancel 0, .resume 0, .createFuture, .await 1, .cancel 0,
      .resume 0]).get (by decide)

/-- The scope 0 was cancelled. While its host handles the error, it enters the shielded scope 1. -/
def handling : World (Fin 2) × Flight (Fin 2) :=
  (((machine (Fin 2)).withHistory (Flight.record 0)).exec (fun p => Fresh p.1)
    (initial (Fin 2) 12, .start)
    [.createTask 0, .resume 0, .enter 0, .createFuture, .await 0, .cancel 0, .resume 0,
      .setShield 1 true]).get (by decide)

/-- A native request reaches the host there, and then the scope 1 is cancelled. -/
def contextual : World (Fin 2) × Flight (Fin 2) :=
  (((machine (Fin 2)).withHistory (Flight.record 0)).exec (fun p => Interleaved 0 p.1)
    (enteredBy handling 1)
    [.createFuture, .await 1, .nativeCancel 0, .cancel 1, .resume 0]).get (by decide)

end Anyio.CancelScope
