import Mathlib.Logic.Basic
import Mathlib.Data.Option.Basic

/-!
# Machines with a partial step function

A machine reads its state and one action and either refuses the action or
answers with the next state and an outcome. Runs are restricted by a
condition on the state before a step and the action taken there, so that a
result about the runs whose steps all meet a condition is a result about
`Reachable` for that condition.

## Implementation notes

The step is a function and not a relation. Every choice of the environment
(who moves next, which request arrives) is part of the action, so a run is
determined by its actions and can be executed.
-/

namespace Anyio.Library

/-- A state space, its actions and their outcomes, with a partial step. -/
structure Machine (σ α ω : Type*) where
  step : σ → α → Option (σ × ω)

namespace Machine

variable {σ α ω η : Type*} (M : Machine σ α ω)

/-- The states of the runs from `start` in which every step meets `allowed`. -/
inductive Reachable (allowed : σ → α → Prop) (start : σ) : σ → Prop
  | refl : Reachable allowed start start
  | tail {s a s' o} (head : Reachable allowed start s) (ok : allowed s a)
      (h : M.step s a = some (s', o)) : Reachable allowed start s'

/-- The tasks of small runs are numbered in `Fin 2` or `Fin 3`. -/
instance neZeroTwo : @NeZero Nat Zero.ofOfNat0 2 := ⟨Nat.succ_ne_zero 1⟩

instance neZeroThree : @NeZero Nat Zero.ofOfNat0 3 := ⟨Nat.succ_ne_zero 2⟩

/-- No restriction on the steps of a run. -/
def anyStep : σ → α → Prop := fun _ _ => True

instance (s : σ) (a : α) : Decidable (anyStep s a) := .isTrue trivial

variable {M}

/-- What holds at the start and is kept by every allowed step holds in every
state of every allowed run. -/
theorem Reachable.invariant {allowed : σ → α → Prop} {start s : σ} {I : σ → Prop}
    (run : M.Reachable allowed start s) (hstart : I start)
    (hstep : ∀ s a s' o, I s → allowed s a → M.step s a = some (s', o) → I s') : I s := by
  induction run with
  | refl => exact hstart
  | tail _ ok h ih => exact hstep _ _ _ _ ih ok h

variable (M)

/-- Execute a list of actions, giving up as soon as one of them is refused or
does not meet `allowed`. -/
def exec (allowed : σ → α → Prop) [∀ s a, Decidable (allowed s a)] (s : σ) :
    List α → Option σ
  | [] => some s
  | a :: rest =>
      if allowed s a then (M.step s a).bind fun r => exec allowed r.1 rest else none

variable {M}

section Exec
variable {allowed : σ → α → Prop} [∀ s a, Decidable (allowed s a)]

theorem exec_reachable_from {start s s' : σ} {actions : List α}
    (run : M.Reachable allowed start s) (h : M.exec allowed s actions = some s') :
    M.Reachable allowed start s' := by
  induction actions generalizing s with
  | nil =>
      cases h
      exact run
  | cons a rest ih =>
      obtain ⟨ok, h⟩ := Option.ite_none_right_eq_some.mp h
      obtain ⟨⟨mid, o⟩, hstep, hrest⟩ := Option.bind_eq_some_iff.mp h
      exact ih (run.tail ok hstep) hrest

/-- The end of an execution is reachable. -/
theorem exec_get_reachable (start : σ) (actions : List α)
    (h : (M.exec allowed start actions).isSome) :
    M.Reachable allowed start ((M.exec allowed start actions).get h) :=
  exec_reachable_from .refl (Option.some_get h).symm

end Exec

variable (M)

/-- The machine that also keeps a history, computed from each action, the
state it was taken in and its outcome. The history never influences a step. -/
def withHistory (record : η → σ → α → ω → η) : Machine (σ × η) α ω where
  step p a := (M.step p.1 a).map fun r => ((r.1, record p.2 p.1 a r.2), r.2)

variable {M}

/-- A step of the recording machine is a step of the machine, recorded. -/
theorem withHistory_step {record : η → σ → α → ω → η} {s s' : σ} {h h' : η} {a : α} {o : ω} :
    (M.withHistory record).step (s, h) a = some ((s', h'), o) ↔
      M.step s a = some (s', o) ∧ h' = record h s a o := by
  simp only [withHistory, Option.map_eq_some_iff, Prod.mk.injEq, Prod.exists]
  constructor
  · rintro ⟨t, o', ht, ⟨rfl, rfl⟩, rfl⟩
    exact ⟨ht, rfl⟩
  · rintro ⟨ht, rfl⟩
    exact ⟨s', o, ht, ⟨rfl, rfl⟩, rfl⟩

/-- Forgetting the history gives back a run of the machine, under every
restriction that the recorded run is known to meet. -/
theorem Reachable.forget {record : η → σ → α → ω → η} {allowed : σ × η → α → Prop}
    {weaker : σ → α → Prop} {start p : σ × η}
    (run : (M.withHistory record).Reachable allowed start p)
    (hw : ∀ q a, allowed q a → weaker q.1 a) : M.Reachable weaker start.1 p.1 := by
  induction run with
  | refl => exact .refl
  | tail _ ok h ih => exact .tail ih (hw _ _ ok) (withHistory_step.mp h).1

/-- The invariant rule for a property that relates the state and the history. -/
theorem Reachable.invariant_history {record : η → σ → α → ω → η}
    {allowed : σ × η → α → Prop} {start s : σ} {first h : η} {I : σ → η → Prop}
    (run : (M.withHistory record).Reachable allowed (start, first) (s, h))
    (hstart : I start first)
    (hstep : ∀ s h a s' o, I s h → allowed (s, h) a → M.step s a = some (s', o) →
      I s' (record h s a o)) : I s h := by
  apply run.invariant (I := fun p => I p.1 p.2) hstart
  rintro ⟨s, h⟩ a ⟨s', h'⟩ o hi ok hs
  obtain ⟨hm, rfl⟩ := withHistory_step.mp hs
  exact hstep s h a s' o hi ok hm

end Machine

end Anyio.Library
