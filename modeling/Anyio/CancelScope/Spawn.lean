import Anyio.CancelScope.Sight

/-!
# Tasks placed into a cancelled scope

`_spawn` and `task_wrapper` add a task to the scope and start no delivery. The
new task is cancelled as long as the delivery of the closest cancelled scope
goes on, and that is decided by the tasks: it ends when it runs and all tasks
are behind shields, in other cancelled scopes or gone.
-/

namespace Anyio.CancelScope

open Asyncio Library

variable {τ : Type*} {w w' : World τ} {a : Action τ} {o : Answer} {c d x : ScopeId} {t : τ}
  {seen : ScopeId → Bool}

/-- A `_deliver_cancellation` callback is queued for the closest cancelled scope of `c`. -/
def NearestDelivers (w : World τ) (c : ScopeId) : Prop :=
  ∀ d, w.nearestCancelled (some c) = some d → d ∈ w.callbacks.map Prod.snd

instance (w : World τ) (c : ScopeId) : Decidable (NearestDelivers w c) :=
  match h : w.nearestCancelled (some c) with
  | none => .isTrue fun d hd => by simp [h] at hd
  | some d => decidable_of_iff (d ∈ w.callbacks.map Prod.snd) (by simp [NearestDelivers, h])

/-- The closest cancelled scope of `c` sees a task, or has seen one since its callback last ran. -/
def Attended (seen : ScopeId → Bool) (w : World τ) (c : ScopeId) : Prop :=
  ∀ d, w.nearestCancelled (some c) = some d → seen d = true ∨ Sees w d

instance (seen : ScopeId → Bool) (w : World τ) (c : ScopeId) : Decidable (Attended seen w c) :=
  match h : w.nearestCancelled (some c) with
  | none => .isTrue fun d hd => by simp [h] at hd
  | some d => decidable_of_iff (seen d = true ∨ Sees w d) (by simp [Attended, h])

/-- The action runs a callback of the scope `d`. -/
def Action.runsCallback (d : ScopeId) : Action τ → Bool
  | .deliverCancellation _ c => c = d
  | _ => false

/-- The scopes that have seen a task since their callback last ran. -/
def record (seen : ScopeId → Bool) (w : World τ) (a : Action τ) (_ : Answer) : ScopeId → Bool :=
  fun d => (seen d || decide (Sees w d)) && !a.runsCallback d

theorem Orderly.mono {mayPlace mayPlace' : World τ → ScopeId → Prop} (ok : Orderly mayPlace w a)
    (h : ∀ c, mayPlace w c → mayPlace' w c) : Orderly mayPlace' w a := by
  cases a with
  | spawn c t => exact ⟨ok.1, h c ok.2⟩
  | taskWrapper c => exact ⟨ok.1, h c ok.2⟩
  | enter _ | exit _ _ => exact ok
  | _ => trivial

variable [DecidableEq τ]

/-- The runs with what the scopes have seen. -/
def recorded (τ : Type*) [DecidableEq τ] : Machine (World τ × (ScopeId → Bool)) (Action τ) Answer :=
  (machine τ).withHistory record

/-- Whoever sees a task, or has seen one since its callback last ran, has a callback queued. -/
structure Delivering (w : World τ) (seen : ScopeId → Bool) : Prop extends Registered w where
  called : Called w
  sound : Sound .queue w
  queued : ∀ d, seen d = true → d ∈ w.callbacks.map Prod.snd

namespace Delivering

omit [DecidableEq τ] in
theorem sees (inv : Delivering w seen) (h : Sees w d) : d ∈ w.callbacks.map Prod.snd := by
  obtain ⟨x, -, htasks, hnear⟩ := h
  obtain ⟨t, ht⟩ := List.exists_mem_of_ne_nil _ htasks
  exact (inv.sound.level t x d ht (inv.sound.linked.nearestCancelled.mp hnear)).resolve_right id

omit [DecidableEq τ] in
theorem attended (inv : Delivering w seen) (h : Attended seen w c) : NearestDelivers w c := by
  intro d hd
  obtain hseen | hsees := h d hd
  · exact inv.queued d hseen
  · exact inv.sees hsees

theorem step (inv : Delivering w seen) (ok : Orderly (Attended seen) w a)
    (h : CancelScope.step w a = some (w', o)) : Delivering w' (record seen w a o) where
  toRegistered := inv.toRegistered.step inv.called (ok.fresh inv.toRegistered) h
  called := inv.called.step (step_change inv.toRegistered inv.called (ok.fresh inv.toRegistered) h)
  sound := by
    have hplaces : ∀ c, Attended seen w c → ∀ d, Near w c d → Live .queue w d := by
      intro c hc d hd
      exact inv.attended hc d (inv.sound.linked.nearestCancelled.mpr hd)
    have hmay : ∀ (v : World τ) c, Sound .queue v → (∀ d, Near v c d → Live .queue v d) →
        ∀ d, Near v c d → Live .queue v d := fun _ _ _ hmay => hmay
    exact inv.sound.step hmay (ok.mono hplaces) h
  queued d hd := by
    have hkept : (seen d = true ∨ Sees w d) ∧ a.runsCallback d = false := by
      simpa [record] using hd
    have hmem : d ∈ w.callbacks.map Prod.snd := hkept.1.elim (inv.queued d) inv.sees
    obtain ⟨e, he, rfl⟩ := List.mem_map.mp hmem
    apply List.mem_map_of_mem
    apply (inv.sound.step_queues inv.toRegistered inv.called ok h).grows
    cases a with
    | deliverCancellation g c =>
        have hne : c ≠ e.2 := by simpa [Action.runsCallback] using hkept.2
        apply (List.mem_erase_of_ne _).mpr he
        rintro rfl
        exact hne rfl
    | _ => exact he

omit [DecidableEq τ] in
theorem initial (minor : Nat) : Delivering (CancelScope.initial τ minor) fun _ => false where
  toRegistered := .initial minor
  called _ h := nomatch h
  sound := .initial minor
  queued _ h := nomatch h

end Delivering

/-- With one callback for each scope, nobody else has one. -/
structure Exact (w : World τ) (seen : ScopeId → Bool) : Prop extends Delivering w seen where
  one : OneLoop w
  attends : ∀ e ∈ w.callbacks, seen e.2 = true ∨ Sees w e.2

theorem Exact.step (inv : Exact w seen) (ok : Orderly (Attended seen) w a) (prompt : Prompt w a)
    (h : CancelScope.step w a = some (w', o)) : Exact w' (record seen w a o) where
  toDelivering := inv.toDelivering.step ok h
  one := inv.one.step prompt h
  attends := by
    rintro ⟨g', d⟩ he
    obtain he | hsees := (inv.sound.step_queues inv.toRegistered inv.called ok h).added _ he
    · left
      have hold : (g', d) ∈ w.callbacks ∧ a.runsCallback d = false := by
        cases a with
        | deliverCancellation g c =>
            refine ⟨List.mem_of_mem_erase he, ?_⟩
            obtain ⟨⟨-, hmem⟩, -⟩ := Option.ite_none_right_eq_some.mp h
            by_contra hruns
            obtain rfl : c = d := by simpa [Action.runsCallback] using hruns
            have hother : g' ∈ handlesFor (w.callbacks.erase (g, c)) c := mem_handlesFor.mpr he
            rw [inv.one.no_other hmem] at hother
            cases hother
        | _ => exact ⟨he, rfl⟩
      have hattends := inv.attends (g', d) hold.1
      simpa [record, hold.2] using hattends
    · exact .inr hsees

end Anyio.CancelScope
