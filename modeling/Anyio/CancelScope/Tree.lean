import Anyio.CancelScope.Model
import Mathlib.Data.List.Basic

/-!
# The tree of cancel scopes

What a run with properly nested scopes keeps of the tree: a task is listed in
the scope it is in, an open scope is listed in its open parent, and parents
are entered before their children. The last fact bounds every walk over the
tree by the number of scopes that were ever entered.
-/

namespace Anyio.CancelScope

open Asyncio Library

variable {τ : Type*}

/-- The closest cancelled scope on the way up from `x` is `c`. -/
def Near (w : World τ) : ScopeId → ScopeId → Prop :=
  Nearest (fun c => (w.scope c).parentScope) (fun c => (w.scope c).cancelCalled)
    fun c => (w.scope c).shield

/-- The scopes that a delivery which starts at `c` gets to. -/
def Reaches (w : World τ) : ScopeId → ScopeId → Prop :=
  Descends (fun c => (w.scope c).childScopes) fun c =>
    (w.scope c).shield || (w.scope c).cancelCalled

/-- The links between the tasks and the scopes of which `Opened` tells that they
are entered and not exited. -/
structure Linked (w : World τ) (Opened : ScopeId → Prop) : Prop where
  inside : ∀ t x, w.loop.point t ≠ .finished → w.currentScope t = some x →
    t ∈ (w.scope x).tasks ∧ Opened x
  members : ∀ t x, t ∈ (w.scope x).tasks → Opened x
  distinct : ∀ x, (w.scope x).tasks.Nodup
  hosted : ∀ x, Opened x → (w.scope x).hostTask ≠ none
  listed : ∀ x p, Opened x → (w.scope x).parentScope = some p →
    x ∈ (w.scope p).childScopes ∧ Opened p
  child : ∀ x p, x ∈ (w.scope p).childScopes → (w.scope x).parentScope = some p
  older : ∀ x p, (w.scope x).parentScope = some p →
    w.entered.idxOf p < w.entered.idxOf x ∧ x ∈ w.entered
  known : ∀ x, Opened x → x ∈ w.entered
  running : ∀ t, w.current = some t → w.loop.point t = .running

/-- A scope without what no walk over the tree depends on. -/
def Scope.tree (s : Scope τ) : Scope τ :=
  { s with
    deadline := none
    cancelledCaught := false
    timeoutHandle := none
    cancelHandle := none
    cancelCalls := 0
    cancelling := none }

/-- The two states have the same tree, with the same tasks in it. -/
structure SameTree (w w' : World τ) : Prop where
  scope : ∀ c, (w'.scope c).tree = (w.scope c).tree
  entered : w'.entered = w.entered
  taskState : w'.taskState = w.taskState
  point : ∀ t, w'.loop.point t = w.loop.point t
  current : w'.current = w.current
  groups : w'.groupTasks = w.groupTasks ∧ w'.doneCallbacks = w.doneCallbacks ∧
    w'.placedScope = w.placedScope

/-- A scope without what the links do not depend on. -/
def Scope.links (s : Scope τ) : Scope τ :=
  { s.tree with
    shield := false
    cancelCalled := false }

/-- The two states have the same links. -/
structure SameLinks (w w' : World τ) : Prop where
  scope : ∀ c, (w'.scope c).links = (w.scope c).links
  entered : w'.entered = w.entered
  taskState : w'.taskState = w.taskState
  groups : w'.groupTasks = w.groupTasks ∧ w'.doneCallbacks = w.doneCallbacks ∧
    w'.placedScope = w.placedScope
  point : ∀ t, w'.loop.point t = w.loop.point t
  current : w'.current = w.current

variable {w w' w'' : World τ} {Opened : ScopeId → Prop} {c x y p : ScopeId} {t : τ}

@[simp] theorem World.modify_scope (w : World τ) (c d : ScopeId) (f : Scope τ → Scope τ) :
    (w.modify c f).scope d = if d = c then f (w.scope c) else w.scope d := by
  simp [World.modify, Function.update_apply]

theorem Linked.congr (hl : Linked w Opened)
    (hparent : ∀ c, (w'.scope c).parentScope = (w.scope c).parentScope)
    (hchildren : ∀ c, (w'.scope c).childScopes = (w.scope c).childScopes)
    (htasks : ∀ c, (w'.scope c).tasks = (w.scope c).tasks)
    (hhost : ∀ c, (w'.scope c).hostTask = (w.scope c).hostTask)
    (hentered : w'.entered = w.entered) (hstate : w'.taskState = w.taskState)
    (hpoint : ∀ t, w'.loop.point t = w.loop.point t) (hcurrent : w'.current = w.current) :
    Linked w' Opened where
  inside t x hp hx := by
    rw [htasks]
    apply hl.inside t x (hpoint t ▸ hp)
    simpa [World.currentScope, hstate] using hx
  members t x hx := hl.members t x (htasks x ▸ hx)
  distinct x := htasks x ▸ hl.distinct x
  hosted x hx := by
    rw [hhost]
    exact hl.hosted x hx
  listed x p hx hp := by
    rw [hchildren]
    exact hl.listed x p hx (hparent x ▸ hp)
  child x p hx := by
    rw [hparent]
    exact hl.child x p (hchildren p ▸ hx)
  older x p hp := by
    rw [hentered]
    exact hl.older x p (hparent x ▸ hp)
  known x hx := by
    rw [hentered]
    exact hl.known x hx
  running t ht := by
    rw [hpoint]
    exact hl.running t (hcurrent ▸ ht)

/-- Changing the attributes of one scope other than its links. -/
theorem Linked.modify (hl : Linked w Opened) (c : ScopeId) {f : Scope τ → Scope τ}
    (hparent : (f (w.scope c)).parentScope = (w.scope c).parentScope)
    (hchildren : (f (w.scope c)).childScopes = (w.scope c).childScopes)
    (htasks : (f (w.scope c)).tasks = (w.scope c).tasks)
    (hhost : (f (w.scope c)).hostTask = (w.scope c).hostTask) :
    Linked (w.modify c f) Opened := by
  have keep : ∀ d, ((w.modify c f).scope d).parentScope = (w.scope d).parentScope ∧
      ((w.modify c f).scope d).childScopes = (w.scope d).childScopes ∧
      ((w.modify c f).scope d).tasks = (w.scope d).tasks ∧
      ((w.modify c f).scope d).hostTask = (w.scope d).hostTask := by
    intro d
    by_cases hd : d = c <;> simp [*]
  exact hl.congr (fun d => (keep d).1) (fun d => (keep d).2.1) (fun d => (keep d).2.2.1)
    (fun d => (keep d).2.2.2) rfl rfl (fun _ => rfl) rfl

/-- A scope that is not open needs no host. -/
theorem Linked.forgetHost (hl : Linked w Opened) (hc : ¬ Opened c) :
    Linked (w.modify c fun s => { s with hostTask := none }) Opened := by
  have keep : ∀ d, ((w.modify c fun s => { s with hostTask := none }).scope d).parentScope =
      (w.scope d).parentScope ∧
      ((w.modify c fun s => { s with hostTask := none }).scope d).childScopes =
        (w.scope d).childScopes ∧
      ((w.modify c fun s => { s with hostTask := none }).scope d).tasks = (w.scope d).tasks := by
    intro d
    by_cases hd : d = c <;> simp [hd]
  constructor
  · intro t x hp hx
    rw [(keep x).2.2]
    exact hl.inside t x hp hx
  · intro t x hx
    exact hl.members t x ((keep x).2.2 ▸ hx)
  · intro x
    exact (keep x).2.2 ▸ hl.distinct x
  · intro x hx
    have hxc : x ≠ c := fun h => hc (h ▸ hx)
    simpa [hxc] using hl.hosted x hx
  · intro x p hx hp
    rw [(keep p).2.1]
    exact hl.listed x p hx ((keep x).1 ▸ hp)
  · intro x p hx
    rw [(keep x).1]
    exact hl.child x p ((keep p).2.1 ▸ hx)
  · exact fun x p hp => hl.older x p ((keep x).1 ▸ hp)
  · exact hl.known
  · exact hl.running

namespace SameTree

theorem refl (w : World τ) : SameTree w w :=
  ⟨fun _ => rfl, rfl, rfl, fun _ => rfl, rfl, rfl, rfl, rfl⟩

theorem trans (h : SameTree w w') (h' : SameTree w' w'') : SameTree w w'' where
  scope c := (h'.scope c).trans (h.scope c)
  entered := h'.entered.trans h.entered
  taskState := h'.taskState.trans h.taskState
  point t := (h'.point t).trans (h.point t)
  current := h'.current.trans h.current
  groups := ⟨h'.groups.1.trans h.groups.1, h'.groups.2.1.trans h.groups.2.1,
    h'.groups.2.2.trans h.groups.2.2⟩

theorem parentScope (h : SameTree w w') (c : ScopeId) :
    (w'.scope c).parentScope = (w.scope c).parentScope := by
  simpa only [Scope.tree] using congrArg Scope.parentScope (h.scope c)

theorem childScopes (h : SameTree w w') (c : ScopeId) :
    (w'.scope c).childScopes = (w.scope c).childScopes := by
  simpa only [Scope.tree] using congrArg Scope.childScopes (h.scope c)

theorem cancelCalled (h : SameTree w w') (c : ScopeId) :
    (w'.scope c).cancelCalled = (w.scope c).cancelCalled := by
  simpa only [Scope.tree] using congrArg Scope.cancelCalled (h.scope c)

theorem shield (h : SameTree w w') (c : ScopeId) : (w'.scope c).shield = (w.scope c).shield := by
  simpa only [Scope.tree] using congrArg Scope.shield (h.scope c)

theorem active (h : SameTree w w') (c : ScopeId) : (w'.scope c).active = (w.scope c).active := by
  simpa only [Scope.tree] using congrArg Scope.active (h.scope c)

theorem tasks (h : SameTree w w') (c : ScopeId) : (w'.scope c).tasks = (w.scope c).tasks := by
  simpa only [Scope.tree] using congrArg Scope.tasks (h.scope c)

theorem hostTask (h : SameTree w w') (c : ScopeId) :
    (w'.scope c).hostTask = (w.scope c).hostTask := by
  simpa only [Scope.tree] using congrArg Scope.hostTask (h.scope c)

theorem currentScope (h : SameTree w w') (t : τ) : w'.currentScope t = w.currentScope t := by
  simp [World.currentScope, h.taskState]

theorem near (h : SameTree w w') : Near w' = Near w := by
  unfold Near
  simp only [h.parentScope, h.cancelCalled, h.shield]

theorem reaches (h : SameTree w w') : Reaches w' = Reaches w := by
  unfold Reaches
  simp only [h.childScopes, h.cancelCalled, h.shield]

theorem linked (h : SameTree w w') (hl : Linked w Opened) : Linked w' Opened :=
  hl.congr h.parentScope h.childScopes h.tasks h.hostTask h.entered h.taskState h.point h.current

/-- Changing one scope outside of the tree keeps the tree. -/
theorem modify (w : World τ) (c : ScopeId) {f : Scope τ → Scope τ}
    (hf : (f (w.scope c)).tree = (w.scope c).tree) : SameTree w (w.modify c f) where
  scope d := by
    by_cases hd : d = c
    · simp [hd, hf]
    · simp [hd]
  entered := rfl
  taskState := rfl
  point _ := rfl
  current := rfl
  groups := ⟨rfl, rfl, rfl⟩

end SameTree

namespace SameLinks

theorem refl (w : World τ) : SameLinks w w :=
  ⟨fun _ => rfl, rfl, rfl, ⟨rfl, rfl, rfl⟩, fun _ => rfl, rfl⟩

theorem trans (h : SameLinks w w') (h' : SameLinks w' w'') : SameLinks w w'' where
  scope c := (h'.scope c).trans (h.scope c)
  entered := h'.entered.trans h.entered
  taskState := h'.taskState.trans h.taskState
  groups := ⟨h'.groups.1.trans h.groups.1, h'.groups.2.1.trans h.groups.2.1,
    h'.groups.2.2.trans h.groups.2.2⟩
  point t := (h'.point t).trans (h.point t)
  current := h'.current.trans h.current

theorem parentScope (h : SameLinks w w') (c : ScopeId) :
    (w'.scope c).parentScope = (w.scope c).parentScope := by
  simpa only [Scope.links, Scope.tree] using congrArg Scope.parentScope (h.scope c)

theorem childScopes (h : SameLinks w w') (c : ScopeId) :
    (w'.scope c).childScopes = (w.scope c).childScopes := by
  simpa only [Scope.links, Scope.tree] using congrArg Scope.childScopes (h.scope c)

theorem active (h : SameLinks w w') (c : ScopeId) : (w'.scope c).active = (w.scope c).active := by
  simpa only [Scope.links, Scope.tree] using congrArg Scope.active (h.scope c)

theorem tasks (h : SameLinks w w') (c : ScopeId) : (w'.scope c).tasks = (w.scope c).tasks := by
  simpa only [Scope.links, Scope.tree] using congrArg Scope.tasks (h.scope c)

theorem hostTask (h : SameLinks w w') (c : ScopeId) :
    (w'.scope c).hostTask = (w.scope c).hostTask := by
  simpa only [Scope.links, Scope.tree] using congrArg Scope.hostTask (h.scope c)

theorem currentScope (h : SameLinks w w') (t : τ) : w'.currentScope t = w.currentScope t := by
  simp [World.currentScope, h.taskState]

/-- Changing one scope outside of the links keeps the links. -/
theorem modify (w : World τ) (c : ScopeId) {f : Scope τ → Scope τ}
    (hf : (f (w.scope c)).links = (w.scope c).links) : SameLinks w (w.modify c f) where
  scope d := by
    by_cases hd : d = c
    · simp [hd, hf]
    · simp [hd]
  entered := rfl
  taskState := rfl
  groups := ⟨rfl, rfl, rfl⟩
  point _ := rfl
  current := rfl

end SameLinks

theorem SameTree.sameLinks (h : SameTree w w') : SameLinks w w' where
  scope c := by
    rw [Scope.links, Scope.links, h.scope]
  entered := h.entered
  taskState := h.taskState
  groups := h.groups
  point := h.point
  current := h.current

theorem Linked.fresh_parent (hl : Linked w Opened) (hc : c ∉ w.entered) :
    (w.scope c).parentScope = none := by
  cases hp : (w.scope c).parentScope with
  | none => rfl
  | some p => exact absurd (hl.older c p hp).2 hc

/-- A scope that was never entered is no one's parent. -/
theorem Linked.parent_ne (hl : Linked w Opened) (hc : c ∉ w.entered) {x : ScopeId}
    (hp : (w.scope x).parentScope = some p) : p ≠ c := by
  rintro rfl
  obtain ⟨hlt, -⟩ := hl.older x p hp
  have hle := List.idxOf_le_length (a := x) (l := w.entered)
  have heq := List.idxOf_eq_length_iff.mpr hc
  omega

theorem Linked.parent_ne_self (hl : Linked w Opened) (hp : (w.scope c).parentScope = some p) :
    p ≠ c := by
  rintro rfl
  exact Nat.lt_irrefl _ (hl.older p p hp).1

theorem Linked.alive (hl : Linked w Opened) (hcur : w.current = some t) :
    w.loop.point t ≠ .finished := by
  simp [hl.running t hcur]

theorem Near.cancelCalled (h : Near w x c) : (w.scope c).cancelCalled = true := h.hit_of

/-- Changing one scope other than in its parent and its flags keeps the walks. -/
theorem near_modify (c : ScopeId) {f : Scope τ → Scope τ}
    (hparent : (f (w.scope c)).parentScope = (w.scope c).parentScope)
    (hcalled : (f (w.scope c)).cancelCalled = (w.scope c).cancelCalled)
    (hshield : (f (w.scope c)).shield = (w.scope c).shield) : Near (w.modify c f) = Near w := by
  have keep : ∀ d, ((w.modify c f).scope d).parentScope = (w.scope d).parentScope ∧
      ((w.modify c f).scope d).cancelCalled = (w.scope d).cancelCalled ∧
      ((w.modify c f).scope d).shield = (w.scope d).shield := by
    intro d
    by_cases hd : d = c <;> simp [*]
  unfold Near
  simp only [keep]

theorem Linked.near_opened (hl : Linked w Opened) (hx : Opened x) (h : Near w x c) : Opened c :=
  h.closed hx fun y p hy hp => (hl.listed y p hy hp).2

/-- A delivery that starts at the closest cancelled scope gets to where the walk began. -/
theorem Linked.reaches (hl : Linked w Opened) (hx : Opened x) (h : Near w x c) :
    Reaches w c x :=
  h.descends hx hl.listed

/-- The program finds what the walk finds. -/
theorem Linked.nearestCancelled (hl : Linked w Opened) :
    w.nearestCancelled (some x) = some c ↔ Near w x c := by
  constructor
  · intro h
    obtain ⟨y, hy, hn⟩ := nearest_sound h
    cases hy
    exact hn
  · intro h
    apply nearest_complete (fun y p hp => (hl.older y p hp).1) h
    exact Nat.lt_succ_of_le List.idxOf_le_length

theorem Linked.effectivelyCancelled (hl : Linked w Opened) :
    w.effectivelyCancelled x = true ↔ ∃ c, Near w x c := by
  simp [World.effectivelyCancelled, Option.isSome_iff_exists, hl.nearestCancelled]

theorem Linked.initial (minor : Nat) :
    Linked (initial τ minor) fun c => ((CancelScope.initial τ minor).scope c).active = true where
  inside _ _ _ h := by simp [CancelScope.initial, World.currentScope] at h
  members _ _ h := by simp [CancelScope.initial] at h
  distinct _ := by simp [CancelScope.initial]
  hosted _ h := by simp [CancelScope.initial] at h
  listed _ _ h := by simp [CancelScope.initial] at h
  child _ _ h := by simp [CancelScope.initial] at h
  older _ _ h := by simp [CancelScope.initial] at h
  known _ h := by simp [CancelScope.initial] at h
  running _ h := by simp [CancelScope.initial] at h

end Anyio.CancelScope
