import Anyio.Library.Machine

/-!
# Two machines in lockstep

Two machines that take the same actions, each in its own state. A relation
between the states that holds at the start and is kept by the steps taken
together holds wherever the two get to.
-/

namespace Anyio.Library.Machine

variable {σ ρ α ω κ : Type*} {M : Machine σ α ω} {N : Machine ρ α ω}

/-- The machine whose step is a step of both, with both outcomes. -/
def lockstep (M : Machine σ α ω) (N : Machine ρ α ω) : Machine (σ × ρ) α (ω × ω) where
  step p a :=
    (M.step p.1 a).bind fun r => (N.step p.2 a).map fun q => ((r.1, q.1), (r.2, q.2))

theorem lockstep_step {s s' : σ} {t t' : ρ} {a : α} {o q : ω} :
    (lockstep M N).step (s, t) a = some ((s', t'), (o, q)) ↔
      M.step s a = some (s', o) ∧ N.step t a = some (t', q) := by
  simp only [lockstep, Option.bind_eq_some_iff, Option.map_eq_some_iff, Prod.mk.injEq, Prod.exists]
  constructor
  · rintro ⟨s₁, o₁, hM, t₁, q₁, hN, ⟨rfl, rfl⟩, rfl, rfl⟩
    exact ⟨hM, hN⟩
  · rintro ⟨hM, hN⟩
    exact ⟨s', o, hM, t', q, hN, ⟨rfl, rfl⟩, rfl, rfl⟩

/-- The simulation rule for runs in which every step meets a condition. -/
theorem Reachable.related {allowed : σ × ρ → α → Prop} {start s : σ} {begun t : ρ}
    {R : σ → ρ → Prop} (run : (lockstep M N).Reachable allowed (start, begun) (s, t))
    (hstart : R start begun)
    (hstep : ∀ s t a s' t' o q, R s t → allowed (s, t) a → M.step s a = some (s', o) →
      N.step t a = some (t', q) → R s' t') : R s t := by
  apply run.invariant (I := fun p => R p.1 p.2) hstart
  rintro ⟨s, t⟩ a ⟨s', t'⟩ ⟨o, q⟩ hR ok h
  obtain ⟨hM, hN⟩ := lockstep_step.mp h
  exact hstep s t a s' t' o q hR ok hM hN

/-- Wherever the two get to without an exempt step, they look the same from outside, and the
actions that they answer alike are those that are not exempt there. -/
def InStep (M : Machine σ α ω) (N : Machine ρ α ω) (exempt : σ → ρ → α → Prop) (view : σ → κ)
    (look : ρ → κ) (start : σ) (begun : ρ) : Prop :=
  ∀ s t, (lockstep M N).Reachable (fun p a => ¬ exempt p.1 p.2 a) (start, begun) (s, t) →
    view s = look t ∧
      ∀ a, (M.step s a).map Prod.snd = (N.step t a).map Prod.snd ↔ ¬ exempt s t a

/-- A relation shows that two machines are in step if it is kept by the steps that are not
exempt, and gives back the outcome of each of them and a difference for each exempt one. -/
theorem InStep.of_relation {exempt : σ → ρ → α → Prop} {view : σ → κ} {look : ρ → κ} {start : σ}
    {begun : ρ} (R : σ → ρ → Prop) (hstart : R start begun)
    (hview : ∀ s t, R s t → view s = look t)
    (hkept : ∀ s t a s' t' o q, R s t → ¬ exempt s t a → M.step s a = some (s', o) →
      N.step t a = some (t', q) → R s' t')
    (hsame : ∀ s t a, R s t →
      ((M.step s a).map Prod.snd = (N.step t a).map Prod.snd ↔ ¬ exempt s t a)) :
    InStep M N exempt view look start begun := by
  intro s t run
  have hR : R s t := run.related hstart hkept
  exact ⟨hview s t hR, fun a => hsame s t a hR⟩

/-- Two constructors agree: they raise the same error, or what they make is in step. -/
def ConstructedAlike {ε : Type*} (M : Machine σ α ω) (N : Machine ρ α ω)
    (exempt : σ → ρ → α → Prop) (view : σ → κ) (look : ρ → κ) : Except ε σ → Except ε ρ → Prop
  | .error e, .error e' => e = e'
  | .ok start, .ok begun => InStep M N exempt view look start begun
  | _, _ => False

end Anyio.Library.Machine
