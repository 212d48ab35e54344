import Anyio.CancelScope.Doom
import Mathlib.Order.Basic

/-!
# The walks over the scopes around a task

`_effectively_cancelled`, `checkpoint_if_cancelled()`, `check_cancelled()` and
`current_effective_deadline()` each go through the scopes from the innermost
one outwards. They see the same cancellation.

## Implementation notes

A walk changes no scope and ends before anything else runs, so a scope is what
is read of it, and the list of scopes is what `_parent_scope` leads to. The
deadlines are taken from any type with the two infinities; two of them need not
be comparable, since one may be `nan`.
-/

namespace Anyio.CancelScope

open Library

/-- The type of the deadlines, with `math.inf` and `-math.inf`. -/
class Time (δ : Type*) extends Preorder δ where
  inf : δ
  negInf : δ
  negInf_lt_inf : negInf < inf

/-- The integers with the two infinities. -/
inductive ExtendedInt
  | negInf
  | finite (time : Int)
  | inf
  deriving DecidableEq, Repr

namespace ExtendedInt

def before : ExtendedInt → ExtendedInt → Bool
  | .negInf, .negInf => false
  | .negInf, _ => true
  | .finite a, .finite b => decide (a < b)
  | .finite _, .inf => true
  | _, _ => false

instance : Time ExtendedInt where
  le a b := before b a = false
  lt a b := before a b = true
  le_refl a := by cases a <;> simp [before]
  le_trans a b c hab hbc := by
    cases a <;> cases b <;> cases c <;> simp_all [before]
    omega
  lt_iff_le_not_ge a b := by
    cases a <;> cases b <;> simp [before]
    omega
  inf := .inf
  negInf := .negInf
  negInf_lt_inf := rfl

instance : DecidableLT ExtendedInt := fun a b => inferInstanceAs (Decidable (before a b = true))

/-- The deadline of a scope, `none` being `math.inf`. -/
def ofDeadline : Option Int → ExtendedInt
  | none => .inf
  | some deadline => .finite deadline

end ExtendedInt

/-- What the walks read of a scope. -/
structure Attributes (δ : Type*) where
  cancelCalled : Bool
  shield : Bool
  deadline : δ
  id : Nat

/-- A scope and those around it, from the inside out; empty for `None`. -/
abbrev Chain (δ : Type*) := List (Attributes δ)

/-- The `CancelledError` of `check_cancelled()`. -/
structure CancelledError where
  message : String
  deriving DecidableEq, Repr

namespace Walks

variable {δ τ : Type*}

/-- `CancelScope._effectively_cancelled` -/
def effectivelyCancelled : Chain δ → Bool
  | [] => false
  | scope :: parents =>
      if scope.cancelCalled then true
      else if scope.shield then false
      else effectivelyCancelled parents

/-- The loop of `checkpoint_if_cancelled()`. It suspends in `sleep(0)`, at the scope where it
goes on unless it is interrupted. -/
def checkpointLoop : Chain δ → Outcome (Chain δ) Unit
  | [] => .returned ()
  | scope :: parents =>
      if scope.cancelCalled then .suspended (scope :: parents)
      else if scope.shield then .returned ()
      else checkpointLoop parents

/-- `checkpoint_if_cancelled()`, by the current task and `_task_states[task].cancel_scope`. -/
def checkpointIfCancelled (currentTask : Option τ) (taskStates : τ → Option (Chain δ)) :
    Outcome (Chain δ) Unit :=
  match currentTask with
  | none => .returned ()
  | some task =>
      match taskStates task with
      | none => .returned ()
      | some cancelScope => checkpointLoop cancelScope

/-- `f"Cancelled by cancel scope {id(scope):x}"` -/
def cancelMessage (id : Nat) : String :=
  "Cancelled by cancel scope " ++ String.ofList (Nat.toDigits 16 id)

/-- `check_cancelled()` in a worker thread with this `current_cancel_scope`. -/
def checkCancelled : Chain δ → Except CancelledError Unit
  | [] => .ok ()
  | scope :: parents =>
      if scope.cancelCalled then .error ⟨cancelMessage scope.id⟩
      else if scope.shield then .ok ()
      else checkCancelled parents

variable [Time δ] [DecidableLT δ]

/-- `min(a, b)`: the first argument unless the second one is smaller. -/
def minimum (a b : δ) : δ := if b < a then b else a

/-- The loop of `current_effective_deadline()`. -/
def deadlineLoop (deadline : δ) : Chain δ → δ
  | [] => deadline
  | scope :: parents =>
      -- the deadline of a shielded scope counts too
      let nearer : δ := minimum deadline scope.deadline
      if scope.cancelCalled then Time.negInf
      else if scope.shield then nearer
      else deadlineLoop nearer parents

/-- A `WeakKeyDictionary` has no place for `None`. -/
def noCurrentTask : Error := .typeError "cannot create weak reference to 'NoneType' object"

/-- `current_effective_deadline()` -/
def currentEffectiveDeadline (currentTask : Option τ) (taskStates : τ → Option (Chain δ)) :
    Except Error δ :=
  match currentTask with
  | none => .error noCurrentTask
  | some task =>
      match taskStates task with
      | none => .ok Time.inf
      | some cancelScope => .ok (deadlineLoop Time.inf cancelScope)

/-- The scopes whose cancellation and deadline count: up to the first shielded one. -/
def inSight (chain : Chain δ) : Chain δ := upTo Attributes.shield chain

/-- There is a cancelled scope in sight. -/
def Visible (chain : Chain δ) : Prop := ∃ scope ∈ inSight chain, scope.cancelCalled = true

/-- The walk that the programs have in common, by what they do at a cancelled scope in sight
and what they do without one. -/
def walk {ρ : Type*} (found : Attributes δ → Chain δ → ρ) (otherwise : ρ) : Chain δ → ρ
  | [] => otherwise
  | scope :: parents =>
      if scope.cancelCalled then found scope parents
      else if scope.shield then otherwise
      else walk found otherwise parents

/-- One of the times, not after `inf`, and none of them is before it. -/
structure IsMinimum (m : δ) (times : List δ) : Prop where
  mem : m ∈ times
  le_inf : m ≤ Time.inf
  not_lt : ∀ d ∈ times, ¬ d < m

section Visible

omit [Time δ] [DecidableLT δ]

variable {chain parents : Chain δ} {scope : Attributes δ}

theorem visible_cons :
    Visible (scope :: parents) ↔
      scope.cancelCalled = true ∨ scope.shield = false ∧ Visible parents := by
  cases hs : scope.shield <;> simp [Visible, inSight, upTo, hs]

theorem not_visible_nil : ¬ Visible ([] : Chain δ) := by
  rintro ⟨scope, hscope, -⟩
  cases hscope

/-- An uncancelled scope hides what is around it if it is shielded. -/
theorem visible_cons_of_not (hcalled : ¬ scope.cancelCalled = true) :
    Visible (scope :: parents) ↔ ¬ scope.shield = true ∧ Visible parents := by
  rw [visible_cons, or_iff_right hcalled, Bool.not_eq_true]

theorem not_visible_cons :
    ¬ Visible (scope :: parents) ↔
      ¬ scope.cancelCalled = true ∧ (¬ scope.shield = true → ¬ Visible parents) := by
  rw [visible_cons, not_or, not_and, Bool.not_eq_true scope.shield]

section Walk

variable {ρ : Type*} {found : Attributes δ → Chain δ → ρ} {otherwise : ρ}

theorem walk_of_visible (h : Visible chain) :
    ∃ scope ∈ inSight chain, scope.cancelCalled = true ∧
      ∃ parents, walk found otherwise chain = found scope parents := by
  induction chain with
  | nil => exact absurd h not_visible_nil
  | cons scope parents ih =>
      rw [walk, inSight, upTo]
      by_cases hcalled : scope.cancelCalled = true
      · refine ⟨scope, ?_, hcalled, parents, if_pos hcalled⟩
        split_ifs <;> exact List.mem_cons_self
      · obtain ⟨hshield, hparents⟩ := (visible_cons_of_not hcalled).mp h
        obtain ⟨first, hfirst, hfirstCalled, hrest⟩ := ih hparents
        rw [if_neg hcalled, if_neg hshield, if_neg hshield]
        exact ⟨first, List.mem_cons_of_mem scope hfirst, hfirstCalled, hrest⟩

theorem walk_of_not_visible (h : ¬ Visible chain) : walk found otherwise chain = otherwise := by
  induction chain with
  | nil => rfl
  | cons scope parents ih =>
      obtain ⟨hcalled, hparents⟩ := not_visible_cons.mp h
      rw [walk, if_neg hcalled]
      split_ifs with hshield
      · rfl
      · exact ih (hparents hshield)

/-- What tells a cancelled scope from the end of the walk tells whether one is in sight. -/
theorem walk_iff (P : ρ → Prop) (hfound : ∀ scope parents, P (found scope parents))
    (hotherwise : ¬ P otherwise) : P (walk found otherwise chain) ↔ Visible chain := by
  constructor
  · intro h
    by_contra hnot
    rw [walk_of_not_visible hnot] at h
    exact hotherwise h
  · intro h
    obtain ⟨scope, -, -, parents, hwalk⟩ := walk_of_visible h
    rw [hwalk]
    exact hfound scope parents

end Walk

theorem effectivelyCancelled_eq_walk (chain : Chain δ) :
    effectivelyCancelled chain = walk (fun _ _ => true) false chain := by
  induction chain with
  | nil => rfl
  | cons scope parents ih => rw [effectivelyCancelled, walk, ih]

theorem checkpointLoop_eq_walk (chain : Chain δ) :
    checkpointLoop chain =
      walk (fun scope parents => .suspended (scope :: parents)) (.returned ()) chain := by
  induction chain with
  | nil => rfl
  | cons scope parents ih => rw [checkpointLoop, walk, ih]

theorem checkCancelled_eq_walk (chain : Chain δ) :
    checkCancelled chain =
      walk (fun scope _ => .error ⟨cancelMessage scope.id⟩) (.ok ()) chain := by
  induction chain with
  | nil => rfl
  | cons scope parents ih => rw [checkCancelled, walk, ih]

theorem effectivelyCancelled_iff : effectivelyCancelled chain = true ↔ Visible chain := by
  rw [effectivelyCancelled_eq_walk]
  exact walk_iff (fun cancelled => cancelled = true) (fun _ _ => rfl) Bool.false_ne_true

theorem checkpointLoop_iff :
    (∃ point, checkpointLoop chain = .suspended point) ↔ Visible chain := by
  rw [checkpointLoop_eq_walk]
  apply walk_iff fun outcome : Outcome (Chain δ) Unit => ∃ point, outcome = .suspended point
  · exact fun _ _ => ⟨_, rfl⟩
  · rintro ⟨point, h⟩
    cases h

theorem checkCancelled_iff : (∃ exc, checkCancelled chain = .error exc) ↔ Visible chain := by
  rw [checkCancelled_eq_walk]
  apply walk_iff fun outcome : Except CancelledError Unit => ∃ exc, outcome = .error exc
  · exact fun _ _ => ⟨_, rfl⟩
  · rintro ⟨exc, h⟩
    cases h

end Visible

section Deadline

variable {chain : Chain δ} {d m : δ} {times : List δ}

theorem minimum_le (a b : δ) : minimum a b ≤ a := by
  unfold minimum
  split_ifs with h
  · exact le_of_lt h
  · exact le_refl a

theorem deadlineLoop_of_visible (h : Visible chain) : deadlineLoop d chain = Time.negInf := by
  induction chain generalizing d with
  | nil => exact absurd h not_visible_nil
  | cons scope parents ih =>
      simp only [deadlineLoop]
      by_cases hcalled : scope.cancelCalled = true
      · rw [if_pos hcalled]
      · obtain ⟨hshield, hparents⟩ := (visible_cons_of_not hcalled).mp h
        rw [if_neg hcalled, if_neg hshield]
        exact ih hparents

theorem deadlineLoop_of_not_visible (h : ¬ Visible chain) :
    deadlineLoop d chain = ((inSight chain).map Attributes.deadline).foldl minimum d := by
  induction chain generalizing d with
  | nil => rfl
  | cons scope parents ih =>
      obtain ⟨hcalled, hparents⟩ := not_visible_cons.mp h
      simp only [deadlineLoop, inSight, upTo, if_neg hcalled]
      split_ifs with hshield
      · rfl
      · exact ih (hparents hshield)

/-- What the repeated `min()` comes to, from the start on. -/
theorem foldl_minimum (d : δ) (times : List δ) :
    times.foldl minimum d ∈ d :: times ∧ times.foldl minimum d ≤ d ∧
      ∀ x ∈ d :: times, ¬ x < times.foldl minimum d := by
  induction times generalizing d with
  | nil => simp
  | cons x times ih =>
      obtain ⟨hmem, hle, hleast⟩ := ih (minimum d x)
      rw [List.foldl_cons]
      generalize times.foldl minimum (minimum d x) = m at hmem hle hleast
      obtain ⟨hstart, htimes⟩ := List.forall_mem_cons.mp hleast
      have hled : m ≤ d := hle.trans (minimum_le d x)
      have hx : ¬ x < m := by
        intro hxm
        unfold minimum at hle
        split_ifs at hle with hxd
        · exact hle.not_gt hxm
        · exact hxd (hxm.trans_le hle)
      refine ⟨?_, hled, by simpa using ⟨hled.not_gt, hx, htimes⟩⟩
      unfold minimum at hmem
      split_ifs at hmem
      · exact List.mem_cons_of_mem d hmem
      · rcases List.mem_cons.mp hmem with rfl | hmem
        · exact List.mem_cons_self
        · exact List.mem_cons_of_mem d (List.mem_cons_of_mem x hmem)

theorem deadlineLoop_isMinimum (h : ¬ Visible chain) :
    IsMinimum (deadlineLoop Time.inf chain)
      (Time.inf :: (inSight chain).map Attributes.deadline) := by
  rw [deadlineLoop_of_not_visible h]
  obtain ⟨hmem, hle, hleast⟩ :=
    foldl_minimum Time.inf ((inSight chain).map Attributes.deadline)
  exact ⟨hmem, hle, hleast⟩

/-- Without a deadline of `-inf`, this value stands for a visible cancellation only. -/
theorem deadlineLoop_eq_negInf (hdeadlines : ∀ s ∈ chain, s.deadline ≠ Time.negInf) :
    deadlineLoop Time.inf chain = Time.negInf ↔ Visible chain := by
  constructor
  · intro hnegInf
    by_contra h
    have hmem := (deadlineLoop_isMinimum h).mem
    rw [hnegInf] at hmem
    rcases List.mem_cons.mp hmem with hinf | hmem
    · exact Time.negInf_lt_inf.ne hinf
    · obtain ⟨s, hs, hdeadline⟩ := List.mem_map.mp hmem
      exact hdeadlines s (mem_of_mem_upTo hs) hdeadline
  · exact deadlineLoop_of_visible

end Deadline

variable {chain : Chain δ} {task : τ} {taskStates : τ → Option (Chain δ)}

omit [Time δ] [DecidableLT δ] in
theorem checkpointIfCancelled_eq (hstate : taskStates task = some chain) :
    checkpointIfCancelled (some task) taskStates = checkpointLoop chain := by
  simp only [checkpointIfCancelled, hstate]

theorem currentEffectiveDeadline_eq (hstate : taskStates task = some chain) :
    currentEffectiveDeadline (some task) taskStates = .ok (deadlineLoop Time.inf chain) := by
  simp only [currentEffectiveDeadline, hstate]

/-- The walks agree: the checkpoint suspends, the worker thread is told and the effective
deadline is `-inf` if and only if the scope is effectively cancelled. If it is not, the effective
deadline is the first of the deadlines in sight. -/
theorem scope_walks_agree (hstate : taskStates task = some chain)
    (hdeadlines : ∀ s ∈ chain, s.deadline ≠ Time.negInf) :
    ((∃ point, checkpointIfCancelled (some task) taskStates = .suspended point) ↔
        effectivelyCancelled chain = true) ∧
      ((∃ exc, checkCancelled chain = .error exc) ↔ effectivelyCancelled chain = true) ∧
      (currentEffectiveDeadline (some task) taskStates = .ok Time.negInf ↔
        effectivelyCancelled chain = true) ∧
      (effectivelyCancelled chain = false →
        ∃ m, currentEffectiveDeadline (some task) taskStates = .ok m ∧
          IsMinimum m (Time.inf :: (inSight chain).map Attributes.deadline)) := by
  rw [currentEffectiveDeadline_eq hstate, Except.ok.injEq, deadlineLoop_eq_negInf hdeadlines,
    checkpointIfCancelled_eq hstate, checkpointLoop_iff, checkCancelled_iff,
    effectivelyCancelled_iff, ← Bool.not_eq_true, effectivelyCancelled_iff]
  exact ⟨.rfl, .rfl, .rfl, fun h => ⟨_, rfl, deadlineLoop_isMinimum h⟩⟩

/-- A scope in a shielded one, in a cancelled one. -/
def sheltered : Chain ExtendedInt :=
  [⟨false, false, .finite 8, 3⟩, ⟨false, true, .finite 5, 2⟩,
    ⟨true, false, .finite 4, 1⟩]

theorem scope_walks_agree_sheltered :
    effectivelyCancelled sheltered = false ∧
      ∃ m, currentEffectiveDeadline (some ()) (fun _ => some sheltered) = .ok m ∧
        IsMinimum m (Time.inf :: (inSight sheltered).map Attributes.deadline) := by
  have hclear : effectivelyCancelled sheltered = false := rfl
  obtain ⟨-, -, -, hdeadline⟩ :=
    @scope_walks_agree _ Unit _ _ sheltered () (fun _ => some sheltered) rfl (by decide)
  exact ⟨hclear, hdeadline hclear⟩

end Walks

open Walks (inSight Visible)

section World

variable {τ : Type*}

def World.attributes (w : World τ) (c : ScopeId) : Attributes ExtendedInt where
  cancelCalled := (w.scope c).cancelCalled
  shield := (w.scope c).shield
  deadline := .ofDeadline (w.scope c).deadline
  id := c

/-- The scope `c` and those around it, as a walk sees them. -/
def World.chain (w : World τ) (c : ScopeId) : Chain ExtendedInt :=
  (w.lineage c).map w.attributes

/-- `_task_states`, with the chain of the current scope of each task. -/
def World.taskStates (w : World τ) (t : τ) : Option (Chain ExtendedInt) :=
  (w.taskState t).map fun cancelScope =>
    match cancelScope with
    | none => []
    | some c => w.chain c

variable [DecidableEq τ] {w : World τ} {c : ScopeId} {t : τ}

omit [DecidableEq τ] in
/-- The walk in a world is the walk over the chain. -/
theorem Registered.visible_chain (reg : Registered w) :
    Visible (w.chain c) ↔ w.effectivelyCancelled c = true := by
  rw [reg.near_iff, Near, (reg.lineage c).nearest_iff, outermost_ne_none, Visible, inSight,
    World.chain, upTo_map]
  simp [World.attributes, Function.comp_def]

omit [DecidableEq τ] in
theorem World.chain_deadline_ne (w : World τ) (c : ScopeId) :
    ∀ s ∈ w.chain c, s.deadline ≠ Time.negInf := by
  intro s hs
  obtain ⟨d, -, rfl⟩ := List.mem_map.mp hs
  cases hdeadline : (w.scope d).deadline <;>
    simp [World.attributes, ExtendedInt.ofDeadline, hdeadline, Time.negInf]

/-- In every run in which scopes are entered once, the walks of the task that runs in a scope
agree with `_effectively_cancelled` of that scope. -/
theorem walks_of_run {minor : Nat} (run : (machine τ).Reachable Fresh (initial τ minor) w)
    (hscope : w.currentScope t = some c) :
    ((∃ point, Walks.checkpointIfCancelled (some t) w.taskStates = .suspended point) ↔
        w.effectivelyCancelled c = true) ∧
      ((∃ exc, Walks.checkCancelled (w.chain c) = .error exc) ↔
        w.effectivelyCancelled c = true) ∧
      (Walks.currentEffectiveDeadline (some t) w.taskStates = .ok Time.negInf ↔
        w.effectivelyCancelled c = true) := by
  obtain ⟨reg, -⟩ := registered_of_run run
  have hstate : w.taskStates t = some (w.chain c) := by
    have htask : w.taskState t = some (some c) := by
      simpa [World.currentScope, Option.join_eq_some_iff] using hscope
    simp [World.taskStates, htask]
  rw [Walks.checkpointIfCancelled_eq hstate, Walks.checkpointLoop_iff, Walks.checkCancelled_iff,
    Walks.currentEffectiveDeadline_eq hstate, Except.ok.injEq,
    Walks.deadlineLoop_eq_negInf (w.chain_deadline_ne c), reg.visible_chain]
  exact ⟨.rfl, .rfl, .rfl⟩

end World

end Anyio.CancelScope
