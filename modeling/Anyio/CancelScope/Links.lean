import Anyio.CancelScope.Nesting

/-!
# Links between tasks and scopes

`_task_states`, the sets `_tasks` and `_child_scopes`, the parent pointers, the
tasks of the groups and the queued `task_done` callbacks agree with each other
in every run in which each scope is entered once. Scopes may be left while
other tasks are still inside, and every misuse may be attempted.
-/

namespace Anyio.CancelScope

open Asyncio Library

variable {τ : Type*}

/-- Scopes are entered once, and tasks are placed into scopes that were entered. -/
def Fresh (w : World τ) : Action τ → Prop
  | .enter c => c ∈ w.entered → (w.scope c).active = true
  | .spawn c _ => c ∈ w.entered
  | .taskWrapper c => c ∈ w.entered
  | _ => True

instance (w : World τ) (a : Action τ) : Decidable (Fresh w a) :=
  match a with
  | .enter c => inferInstanceAs (Decidable (c ∈ w.entered → (w.scope c).active = true))
  | .spawn c _ => inferInstanceAs (Decidable (c ∈ w.entered))
  | .taskWrapper c => inferInstanceAs (Decidable (c ∈ w.entered))
  | .exit _ _ | .cancel _ | .setShield _ _ | .setDeadline _ _ | .timeout _ _
  | .deliverCancellation _ _ | .createTask _ | .resume _ | .sleep | .await _ | .finish
  | .taskDone _ _ | .nativeCancel _ | .createFuture | .setResult _ | .setTime _ => .isTrue trivial

/-- A task that is unfinished, or whose `task_done` is still to run. -/
def World.Inside (w : World τ) (t : τ) : Prop :=
  w.loop.point t ≠ .finished ∨ ∃ group, (t, group) ∈ w.doneCallbacks

/-- Tasks and scopes are registered where they are. -/
structure Registered (w : World τ) : Prop where
  inside : ∀ t x, w.Inside t → w.currentScope t = some x → t ∈ (w.scope x).tasks
  only : ∀ t x, t ∈ (w.scope x).tasks → w.currentScope t = some x
  distinct : ∀ x, (w.scope x).tasks.Nodup ∧ (w.scope x).childScopes.Nodup
  child : ∀ p x, x ∈ (w.scope p).childScopes ↔
    (w.scope x).active = true ∧ (w.scope x).parentScope = some p
  older : ∀ x p, (w.scope x).parentScope = some p →
    w.entered.idxOf p < w.entered.idxOf x ∧ x ∈ w.entered
  located : ∀ t x, w.currentScope t = some x → x ∈ w.entered
  known : ∀ x, (w.scope x).active = true → x ∈ w.entered
  hosted : ∀ x, (w.scope x).hostTask ≠ none ↔ (w.scope x).active = true
  grouped : ∀ t group, t ∈ w.groupTasks group ↔ (t, group) ∈ w.doneCallbacks
  groupsDistinct : (w.doneCallbacks.map Prod.fst).Nodup ∧ ∀ group, (w.groupTasks group).Nodup
  spawned : ∀ t group, (t, group) ∈ w.doneCallbacks →
    w.currentScope t ≠ none ∧ w.placedScope t = none ∧
      ∀ x, (w.scope x).hostTask = some t → (w.scope x).parentScope ≠ none
  unborn : ∀ t, w.loop.point t = .unborn →
    w.taskState t = none ∧ w.placedScope t = none ∧ ∀ x, (w.scope x).hostTask ≠ some t
  running : ∀ t, w.current = some t → w.loop.point t = .running

variable {w w' w'' : World τ} {c d x y p : ScopeId} {t u host : τ}

theorem Registered.congr (reg : Registered w) (h : SameLinks w w') : Registered w' := by
  obtain ⟨hgroups, hdone, hplaced⟩ := h.groups
  have hinside : ∀ t, w'.Inside t ↔ w.Inside t := fun t => by simp [World.Inside, h.point, hdone]
  constructor
  case inside => simpa only [hinside, h.currentScope, h.tasks] using reg.inside
  case only => simpa only [h.currentScope, h.tasks] using reg.only
  case distinct => simpa only [h.tasks, h.childScopes] using reg.distinct
  case child => simpa only [h.childScopes, h.active, h.parentScope] using reg.child
  case older => simpa only [h.parentScope, h.entered] using reg.older
  case located => simpa only [h.currentScope, h.entered] using reg.located
  case known => simpa only [h.active, h.entered] using reg.known
  case hosted => simpa only [h.hostTask, h.active] using reg.hosted
  case grouped => simpa only [hgroups, hdone] using reg.grouped
  case groupsDistinct => simpa only [hgroups, hdone] using reg.groupsDistinct
  case spawned =>
    simpa only [hdone, hplaced, h.currentScope, h.hostTask, h.parentScope] using reg.spawned
  case unborn => simpa only [h.point, h.taskState, hplaced, h.hostTask] using reg.unborn
  case running => simpa only [h.point, h.current] using reg.running

/-- The chain of parents has no cycle. -/
theorem Registered.acyclic (reg : Registered w) (x : ScopeId) :
    ¬ Relation.TransGen (fun y p => (w.scope y).parentScope = some p) x x := by
  have hlt : ∀ y p, Relation.TransGen (fun y p => (w.scope y).parentScope = some p) y p →
      w.entered.idxOf p < w.entered.idxOf y := by
    intro y p h
    induction h with
    | single hp => exact (reg.older _ _ hp).1
    | tail _ hp ih => exact (reg.older _ _ hp).1.trans ih
  exact fun h => Nat.lt_irrefl _ (hlt x x h)

theorem Registered.fresh_parent (reg : Registered w) (hc : c ∉ w.entered) :
    (w.scope c).parentScope = none := by
  cases hp : (w.scope c).parentScope with
  | none => rfl
  | some p => exact absurd (reg.older c p hp).2 hc

theorem Registered.parent_ne_self (reg : Registered w) (hp : (w.scope c).parentScope = some p) :
    p ≠ c := by
  rintro rfl
  exact Nat.lt_irrefl _ (reg.older p p hp).1

/-- A scope that was never entered has no tasks, no children and no host. -/
theorem Registered.fresh_empty (reg : Registered w) (hc : c ∉ w.entered) :
    (w.scope c).tasks = [] ∧ (w.scope c).childScopes = [] ∧ (w.scope c).hostTask = none := by
  refine ⟨List.eq_nil_iff_forall_not_mem.mpr fun t ht => hc (reg.located t c (reg.only t c ht)),
    List.eq_nil_iff_forall_not_mem.mpr fun y hy => ?_, ?_⟩
  · have hp := ((reg.child c y).mp hy).2
    obtain ⟨hlt, hmem⟩ := reg.older y c hp
    exact hc (List.idxOf_lt_length_iff.mp (hlt.trans (List.idxOf_lt_length_of_mem hmem)))
  · by_contra hhost
    exact hc (reg.known c ((reg.hosted c).mp hhost))

theorem Registered.alive (reg : Registered w) (hcur : w.current = some t) : w.Inside t := by
  left
  simp [reg.running t hcur]

variable [DecidableEq τ]

/-! ## Entering and leaving -/

/-- Entering a fresh scope registers its host there and nowhere else. -/
theorem Entered.registered (h : Entered w c host w') (reg : Registered w) (hc : c ∉ w.entered)
    (hcur : w.current = some host) :
    Registered (w'.modify c fun s => { s with active := true }) := by
  obtain ⟨htasks, hchildren, -⟩ := reg.fresh_empty hc
  have hpc : ∀ p, w.currentScope host = some p → p ≠ c := fun p hp h =>
    hc (h ▸ reg.located host p hp)
  have hnew : ∀ d, ((w'.modify c fun s => { s with active := true }).scope d).tasks =
      (w'.scope d).tasks ∧
      ((w'.modify c fun s => { s with active := true }).scope d).childScopes =
        (w'.scope d).childScopes ∧
      ((w'.modify c fun s => { s with active := true }).scope d).parentScope =
        (w'.scope d).parentScope ∧
      ((w'.modify c fun s => { s with active := true }).scope d).hostTask =
        (w'.scope d).hostTask ∧
      ((w'.modify c fun s => { s with active := true }).scope d).active =
        (if d = c then true else (w.scope d).active) := by
    intro d
    by_cases hd : d = c
    · simp [hd]
    · simp [hd, h.active]
  have hin : ∀ t, w.Inside t ↔ w'.Inside t := fun t => by
    simp [World.Inside, h.loop, h.groups.2.1]
  have hidx : ∀ d, d ∈ w.entered → (w.entered ++ [c]).idxOf d = w.entered.idxOf d := fun d hd =>
    List.idxOf_append_of_mem hd
  constructor
  case inside =>
    intro t x ht hx
    rw [(hnew x).1]
    replace hx : w'.currentScope t = some x := hx
    rw [h.currentScope] at hx
    split_ifs at hx with hth
    · cases hx
      exact hth ▸ h.host_mem
    · exact (h.mem_tasks hth x).mpr (reg.inside t x ((hin t).mpr ht) hx)
  case only =>
    intro t x ht
    rw [(hnew x).1] at ht
    change w'.currentScope t = some x
    rw [h.currentScope]
    split_ifs with hth
    · subst hth
      rw [h.tasks] at ht
      split_ifs at ht with hxc hpx
      · rw [hxc]
      · exact absurd ht ((reg.distinct x).1.not_mem_erase)
      · exact absurd (reg.only t x ht) hpx
    · exact reg.only t x ((h.mem_tasks hth x).mp ht)
  case distinct =>
    intro x
    rw [(hnew x).1, (hnew x).2.1, h.tasks, h.childScopes]
    obtain ⟨hnt, hnc⟩ := reg.distinct x
    split_ifs
    all_goals exact ⟨by first | exact hnt.insert | exact hnt.erase _ | exact hnt,
      by first | exact hnc.insert | exact hnc⟩
  case child =>
    intro p x
    rw [(hnew p).2.1, (hnew x).2.2.1, (hnew x).2.2.2.2, h.mem_childScopes, h.parentScope]
    split_ifs with hx
    · subst hx
      have hnot : x ∉ (w.scope p).childScopes := fun hmem =>
        hc (reg.known x ((reg.child p x).mp hmem).1)
      simp [hnot]
    · rw [reg.child]
      simp [hx]
  case older =>
    intro x p hp
    rw [(hnew x).2.2.1, h.parentScope] at hp
    change w'.entered.idxOf p < w'.entered.idxOf x ∧ x ∈ w'.entered
    rw [h.entered]
    split_ifs at hp with hx
    · subst hx
      have hmem := reg.located host p hp
      rw [hidx p hmem, List.idxOf_append_of_notMem hc]
      exact ⟨Nat.lt_add_right _ (List.idxOf_lt_length_of_mem hmem), by simp⟩
    · obtain ⟨hlt, hmem⟩ := reg.older x p hp
      have hpmem := List.idxOf_lt_length_iff.mp (hlt.trans (List.idxOf_lt_length_of_mem hmem))
      rw [hidx p hpmem, hidx x hmem]
      exact ⟨hlt, List.mem_append_left _ hmem⟩
  case located =>
    intro t x hx
    change x ∈ w'.entered
    replace hx : w'.currentScope t = some x := hx
    rw [h.currentScope] at hx
    rw [h.entered]
    split_ifs at hx
    · cases hx
      simp
    · exact List.mem_append_left _ (reg.located t x hx)
  case known =>
    intro x hx
    change x ∈ w'.entered
    rw [(hnew x).2.2.2.2] at hx
    rw [h.entered]
    split_ifs at hx with hxc
    · simp [hxc]
    · exact List.mem_append_left _ (reg.known x hx)
  case hosted =>
    intro x
    rw [(hnew x).2.2.2.1, (hnew x).2.2.2.2, h.hostTask]
    split_ifs
    · simp
    · exact reg.hosted x
  case grouped =>
    change ∀ t group, t ∈ w'.groupTasks group ↔ (t, group) ∈ w'.doneCallbacks
    rw [h.groups.1, h.groups.2.1]
    exact reg.grouped
  case groupsDistinct =>
    change (w'.doneCallbacks.map Prod.fst).Nodup ∧ ∀ group, (w'.groupTasks group).Nodup
    rw [h.groups.1, h.groups.2.1]
    exact reg.groupsDistinct
  case spawned =>
    intro t group ht
    replace ht : (t, group) ∈ w'.doneCallbacks := ht
    rw [h.groups.2.1] at ht
    obtain ⟨hscope, hplaced, hparents⟩ := reg.spawned t group ht
    refine ⟨?_, ?_, fun x hx => ?_⟩
    · change w'.currentScope t ≠ none
      rw [h.currentScope]
      split_ifs
      · simp
      · exact hscope
    · change w'.placedScope t = none
      rw [h.groups.2.2, hplaced]
    · rw [(hnew x).2.2.2.1, h.hostTask] at hx
      rw [(hnew x).2.2.1, h.parentScope]
      split_ifs at hx ⊢ with hxc
      · cases hx
        exact hscope
      · exact hparents x hx
  case unborn =>
    intro t ht
    replace ht : w'.loop.point t = .unborn := ht
    rw [h.loop] at ht
    have hth : t ≠ host := by
      rintro rfl
      rw [reg.running t hcur] at ht
      cases ht
    obtain ⟨hstate, hplaced, hhost⟩ := reg.unborn t ht
    refine ⟨?_, ?_, fun x => ?_⟩
    · change w'.taskState t = none
      rw [h.taskState, Function.update_of_ne hth, hstate]
    · change w'.placedScope t = none
      rw [h.groups.2.2, hplaced]
    · rw [(hnew x).2.2.2.1, h.hostTask]
      split_ifs
      · simpa using Ne.symm hth
      · exact hhost x
  case running =>
    change ∀ t, w'.current = some t → w'.loop.point t = .running
    rw [h.current, h.loop]
    exact reg.running

/-- Leaving the current scope registers the host in the parent of that scope. -/
theorem Left.registered (h : Left w c host w') (reg : Registered w)
    (hscope : w.currentScope host = some c) (hhost : (w.scope c).hostTask = some host)
    (hcur : w.current = some host) :
    Registered (w'.modify c fun s => { s with hostTask := none }) := by
  have hnew : ∀ d, ((w'.modify c fun s => { s with hostTask := none }).scope d).tasks =
      (w'.scope d).tasks ∧
      ((w'.modify c fun s => { s with hostTask := none }).scope d).childScopes =
        (w'.scope d).childScopes ∧
      ((w'.modify c fun s => { s with hostTask := none }).scope d).parentScope =
        (w.scope d).parentScope ∧
      ((w'.modify c fun s => { s with hostTask := none }).scope d).hostTask =
        (if d = c then none else (w.scope d).hostTask) ∧
      ((w'.modify c fun s => { s with hostTask := none }).scope d).active =
        (if d = c then false else (w.scope d).active) := by
    intro d
    by_cases hd : d = c <;> simp [hd, h.parentScope, h.hostTask, h.active]
  have hin : ∀ t, w.Inside t ↔ w'.Inside t := fun t => by
    simp [World.Inside, h.loop, h.groups.2.1]
  constructor
  case inside =>
    intro t x ht hx
    rw [(hnew x).1]
    replace hx : w'.currentScope t = some x := hx
    rw [h.currentScope] at hx
    split_ifs at hx with hth
    · exact hth ▸ h.host_mem (reg.parent_ne_self hx) hx
    · exact (h.mem_tasks hth x).mpr (reg.inside t x ((hin t).mpr ht) hx)
  case only =>
    intro t x ht
    rw [(hnew x).1] at ht
    change w'.currentScope t = some x
    rw [h.currentScope]
    split_ifs with hth
    · subst hth
      rw [h.tasks] at ht
      split_ifs at ht with hxc hpx
      · subst hxc
        exact absurd ht ((reg.distinct x).1.not_mem_erase)
      · exact hpx
      · exact absurd (Option.some.inj (hscope.symm.trans (reg.only t x ht))).symm hxc
    · exact reg.only t x ((h.mem_tasks hth x).mp ht)
  case distinct =>
    intro x
    rw [(hnew x).1, (hnew x).2.1, h.tasks, h.childScopes]
    obtain ⟨hnt, hnc⟩ := reg.distinct x
    split_ifs
    all_goals exact ⟨by first | exact hnt.insert | exact hnt.erase _ | exact hnt,
      by first | exact hnc.erase _ | exact hnc⟩
  case child =>
    intro p x
    rw [(hnew p).2.1, (hnew x).2.2.1, (hnew x).2.2.2.2]
    by_cases hx : x = c
    · subst hx
      rw [h.childScopes]
      by_cases hp : (w.scope x).parentScope = some p
      · simp [hp, (reg.distinct p).2.not_mem_erase]
      · simp [hp, reg.child]
    · rw [h.mem_childScopes_of_ne hx, reg.child]
      simp [hx]
  case older =>
    intro x p hp
    rw [(hnew x).2.2.1] at hp
    change w'.entered.idxOf p < w'.entered.idxOf x ∧ x ∈ w'.entered
    rw [h.entered]
    exact reg.older x p hp
  case located =>
    intro t x hx
    change x ∈ w'.entered
    replace hx : w'.currentScope t = some x := hx
    rw [h.currentScope] at hx
    rw [h.entered]
    split_ifs at hx
    · obtain ⟨hlt, hmem⟩ := reg.older c x hx
      exact List.idxOf_lt_length_iff.mp (hlt.trans (List.idxOf_lt_length_of_mem hmem))
    · exact reg.located t x hx
  case known =>
    intro x hx
    change x ∈ w'.entered
    rw [(hnew x).2.2.2.2] at hx
    rw [h.entered]
    split_ifs at hx
    exact reg.known x hx
  case hosted =>
    intro x
    rw [(hnew x).2.2.2.1, (hnew x).2.2.2.2]
    split_ifs
    · simp
    · exact reg.hosted x
  case grouped =>
    change ∀ t group, t ∈ w'.groupTasks group ↔ (t, group) ∈ w'.doneCallbacks
    rw [h.groups.1, h.groups.2.1]
    exact reg.grouped
  case groupsDistinct =>
    change (w'.doneCallbacks.map Prod.fst).Nodup ∧ ∀ group, (w'.groupTasks group).Nodup
    rw [h.groups.1, h.groups.2.1]
    exact reg.groupsDistinct
  case spawned =>
    intro t group ht
    replace ht : (t, group) ∈ w'.doneCallbacks := ht
    rw [h.groups.2.1] at ht
    obtain ⟨hne, hplaced, hparents⟩ := reg.spawned t group ht
    refine ⟨?_, ?_, fun x hx => ?_⟩
    · change w'.currentScope t ≠ none
      rw [h.currentScope]
      split_ifs with hth
      · exact hparents c (hth ▸ hhost)
      · exact hne
    · change w'.placedScope t = none
      rw [h.groups.2.2, hplaced]
    · rw [(hnew x).2.2.2.1] at hx
      rw [(hnew x).2.2.1]
      split_ifs at hx
      exact hparents x hx
  case unborn =>
    intro t ht
    replace ht : w'.loop.point t = .unborn := ht
    rw [h.loop] at ht
    have hth : t ≠ host := by
      rintro rfl
      rw [reg.running t hcur] at ht
      cases ht
    obtain ⟨hstate, hplaced, hhosts⟩ := reg.unborn t ht
    refine ⟨?_, ?_, fun x => ?_⟩
    · change w'.taskState t = none
      rw [h.taskState, Function.update_of_ne hth, hstate]
    · change w'.placedScope t = none
      rw [h.groups.2.2, hplaced]
    · rw [(hnew x).2.2.2.1]
      split_ifs
      · simp
      · exact hhosts x
  case running =>
    change ∀ t, w'.current = some t → w'.loop.point t = .running
    rw [h.current, h.loop]
    exact reg.running

/-- `__enter__()` refuses an active scope, and puts the host into a fresh one. -/
theorem Registered.enter_cases (reg : Registered w) (hcur : w.current = some host)
    (ok : c ∈ w.entered → (w.scope c).active = true) :
    w.enter c host = (w, .error usedTwice) ∨ c ∉ w.entered ∧
      ∃ w', Entered w c host w' ∧ w.enter c host = (w'.activate c host, .ok ()) := by
  cases hactive : (w.scope c).active with
  | true =>
      left
      unfold World.enter
      rw [if_pos hactive]
  | false =>
      have hc : c ∉ w.entered := fun h => by simp [ok h] at hactive
      refine .inr ⟨hc, CancelScope.enter_cases (reg.fresh_parent hc) (fun p hp => ?_) hactive⟩
      exact ⟨reg.inside host p (reg.alive hcur) hp, fun h => hc (h ▸ reg.located host p hp)⟩

theorem Registered.exit_cases (reg : Registered w) (hcur : w.current = some host) (c : ScopeId)
    (exc : Option Exc) :
    (∃ message, w.exit c host exc = (w, .error (.runtimeError message))) ∨
      (w.scope c).active = true ∧ (w.scope c).hostTask = some host ∧
        w.currentScope host = some c ∧ ∃ w', Left w c host w' ∧
          w.exit c host exc = ((w'.conclude c host exc).1, .ok (w'.conclude c host exc).2) := by
  apply CancelScope.exit_cases (fun hscope => reg.inside host c (reg.alive hcur) hscope)
  intro p hactive hp
  exact ⟨reg.parent_ne_self hp, (reg.child p c).mpr ⟨hactive, hp⟩⟩

/-! ## Tasks that come and go -/

omit [DecidableEq τ] in
/-- A step of the loop: no task becomes unborn again or comes back to life. -/
theorem Registered.move (reg : Registered w) {l : Loop τ Point} {current : Option τ}
    (hunborn : ∀ u, l.point u = .unborn → w.loop.point u = .unborn)
    (hfinished : ∀ u, w.loop.point u = .finished → l.point u = .finished)
    (hrun : ∀ u, current = some u → l.point u = .running) :
    Registered { w with loop := l, current := current } where
  inside t x ht hx := by
    refine reg.inside t x (ht.imp_left fun h => ?_) hx
    exact fun hw => h (hfinished t hw)
  only := reg.only
  distinct := reg.distinct
  child := reg.child
  older := reg.older
  located := reg.located
  known := reg.known
  hosted := reg.hosted
  grouped := reg.grouped
  groupsDistinct := reg.groupsDistinct
  spawned := reg.spawned
  unborn t ht := reg.unborn t (hunborn t ht)
  running := hrun

omit [DecidableEq τ] in
/-- Where only the tasks of one scope change, the tree of scopes does not. -/
theorem kept_of_tasks {f : List τ → List τ}
    (hscope : w'.scope = (w.modify c fun s => { s with tasks := f s.tasks }).scope)
    (d : ScopeId) :
    (w'.scope d).parentScope = (w.scope d).parentScope ∧
      (w'.scope d).childScopes = (w.scope d).childScopes ∧
      (w'.scope d).active = (w.scope d).active ∧
      (w'.scope d).hostTask = (w.scope d).hostTask := by
  rw [hscope]
  by_cases hd : d = c <;> simp [hd]

/-- A task that is nowhere is put into the entered scope `c`. -/
theorem Registered.place (reg : Registered w) (ht : w.taskState t = none) (hc : c ∈ w.entered)
    (hscope : w'.scope = (w.modify c fun s => { s with tasks := s.tasks.insert t }).scope)
    (hstate : w'.taskState = Function.update w.taskState t (some (some c)))
    (hentered : w'.entered = w.entered) (hcurrent : w'.current = w.current)
    (hself : w'.loop.point t ≠ .unborn ∧ (w.current = some t → w'.loop.point t = .running))
    (hothers : ∀ u, u ≠ t → w'.loop.point u = w.loop.point u ∧
      w'.placedScope u = w.placedScope u ∧
      ∀ group, (u, group) ∈ w'.doneCallbacks ↔ (u, group) ∈ w.doneCallbacks)
    (hgrouped : ∀ u group, u ∈ w'.groupTasks group ↔ (u, group) ∈ w'.doneCallbacks)
    (hdistinct : (w'.doneCallbacks.map Prod.fst).Nodup ∧ ∀ group, (w'.groupTasks group).Nodup)
    (hspawned : ∀ group, (t, group) ∈ w'.doneCallbacks →
      w'.placedScope t = none ∧ ∀ x, (w.scope x).hostTask ≠ some t) :
    Registered w' := by
  have hnone : w.currentScope t = none := by simp [World.currentScope, ht]
  have htasks : ∀ d u, u ∈ (w'.scope d).tasks ↔ u ∈ (w.scope d).tasks ∨ u = t ∧ d = c := by
    intro d u
    rw [hscope]
    by_cases hd : d = c <;> simp [hd, or_comm]
  have hkeep := kept_of_tasks (f := fun tasks => tasks.insert t) hscope
  have hcur : ∀ u, w'.currentScope u = if u = t then some c else w.currentScope u := by
    intro u
    by_cases hu : u = t <;> simp [World.currentScope, hstate, hu]
  constructor
  case inside =>
    intro u x hu hx
    rw [hcur] at hx
    apply (htasks x u).mpr
    split_ifs at hx with hut
    · cases hx
      exact .inr ⟨hut, rfl⟩
    · obtain ⟨hpoint, -, hdone⟩ := hothers u hut
      exact .inl (reg.inside u x (by simpa [World.Inside, hpoint, hdone] using hu) hx)
  case only =>
    intro u x hu
    rw [hcur]
    rcases (htasks x u).mp hu with hu | ⟨rfl, rfl⟩
    · have hx := reg.only u x hu
      rw [if_neg, hx]
      rintro rfl
      rw [hnone] at hx
      cases hx
    · exact if_pos rfl
  case distinct =>
    intro x
    obtain ⟨hnt, hnc⟩ := reg.distinct x
    rw [(hkeep x).2.1, hscope]
    refine ⟨?_, hnc⟩
    by_cases hx : x = c
    · subst hx
      simpa using hnt.insert
    · simpa [hx] using hnt
  case child => simpa only [hkeep] using reg.child
  case older => simpa only [hkeep, hentered] using reg.older
  case located =>
    intro u x hx
    rw [hcur] at hx
    rw [hentered]
    split_ifs at hx
    · cases hx
      exact hc
    · exact reg.located u x hx
  case known => simpa only [hkeep, hentered] using reg.known
  case hosted => simpa only [hkeep] using reg.hosted
  case grouped => exact hgrouped
  case groupsDistinct => exact hdistinct
  case spawned =>
    intro u group hu
    simp only [hkeep]
    by_cases hut : u = t
    · subst hut
      obtain ⟨hplaced, hhosts⟩ := hspawned group hu
      exact ⟨by simp [hcur], hplaced, fun x hx => absurd hx (hhosts x)⟩
    · obtain ⟨-, hplaced, hdone⟩ := hothers u hut
      rw [hcur, if_neg hut, hplaced]
      exact reg.spawned u group ((hdone group).mp hu)
  case unborn =>
    intro u hu
    have hut : u ≠ t := by
      rintro rfl
      exact hself.1 hu
    obtain ⟨hpoint, hplaced, -⟩ := hothers u hut
    simp only [hkeep]
    rw [hstate, Function.update_of_ne hut, hplaced]
    exact reg.unborn u (hpoint ▸ hu)
  case running =>
    intro u hu
    rw [hcurrent] at hu
    by_cases hut : u = t
    · exact hut ▸ hself.2 (hut ▸ hu)
    · exact (hothers u hut).1 ▸ reg.running u hu

theorem Registered.spawn (reg : Registered w) (ht : w.loop.point t = .unborn)
    (hc : c ∈ w.entered) : Registered (w.spawn c t) := by
  obtain ⟨hstate, hplaced, hhosts⟩ := reg.unborn t ht
  have hdone : ∀ group, (t, group) ∉ w.doneCallbacks := fun group hmem =>
    (reg.spawned t group hmem).1 (by simp [World.currentScope, hstate])
  refine reg.place hstate hc rfl rfl rfl rfl ⟨by simp [World.spawn], fun hcur => ?_⟩
    (fun u hu => ⟨by simp [World.spawn, hu], rfl, fun group => by simp [World.spawn, hu]⟩)
    (fun u group => ?_) ⟨?_, fun group => ?_⟩ fun group _ => ⟨hplaced, hhosts⟩
  · rw [reg.running t hcur] at ht
    cases ht
  · have hg := reg.grouped u group
    by_cases hgc : group = c <;> by_cases hut : u = t <;> simp_all [World.spawn]
  · refine List.nodup_cons.mpr ⟨fun hmem => ?_, reg.groupsDistinct.1⟩
    obtain ⟨⟨u, group⟩, hqueued, rfl⟩ := List.mem_map.mp hmem
    exact hdone group hqueued
  · by_cases hg : group = c
    · subst hg
      simpa [World.spawn] using (reg.groupsDistinct.2 group).insert
    · simpa [World.spawn, hg] using reg.groupsDistinct.2 group

theorem Registered.taskWrapper (reg : Registered w) (hcur : w.current = some t)
    (ht : w.taskState t = none) (hc : c ∈ w.entered) : Registered (w.taskWrapper c t) := by
  have hdone : ∀ group, (t, group) ∉ w.doneCallbacks := fun group hmem =>
    (reg.spawned t group hmem).1 (by simp [World.currentScope, ht])
  have hrun := reg.running t hcur
  refine reg.place ht hc rfl rfl rfl rfl ⟨?_, fun _ => hrun⟩
    (fun u hu => ⟨rfl, by simp [World.taskWrapper, hu], fun _ => Iff.rfl⟩) reg.grouped
    reg.groupsDistinct fun group hmem => absurd hmem (hdone group)
  change w.loop.point t ≠ .unborn
  simp [hrun]

/-- Task `t` is taken out of the `_tasks` of one scope and is nowhere any more. -/
theorem Registered.remove (reg : Registered w)
    (hscope : w'.scope = (w.modify c fun s => { s with tasks := s.tasks.erase t }).scope)
    (hentered : w'.entered = w.entered) (hpoint : ∀ u, u ≠ t → w'.loop.point u = w.loop.point u)
    (hothers : ∀ u, u ≠ t → w'.taskState u = w.taskState u ∧ w'.placedScope u = w.placedScope u)
    (hself : w'.loop.point t = .finished)
    (hdone : ∀ u group, (u, group) ∈ w'.doneCallbacks ↔ u ≠ t ∧ (u, group) ∈ w.doneCallbacks)
    (honly : ∀ x, t ∈ (w'.scope x).tasks → w'.currentScope t = some x)
    (hlocated : ∀ x, w'.currentScope t = some x → x ∈ w.entered)
    (hgrouped : ∀ u group, u ∈ w'.groupTasks group ↔ (u, group) ∈ w'.doneCallbacks)
    (hdistinct : (w'.doneCallbacks.map Prod.fst).Nodup ∧ ∀ group, (w'.groupTasks group).Nodup)
    (hrun : ∀ u, w'.current = some u → u ≠ t ∧ w.current = some u) :
    Registered w' := by
  have htasks : ∀ d u, u ≠ t → (u ∈ (w'.scope d).tasks ↔ u ∈ (w.scope d).tasks) := by
    intro d u hu
    rw [hscope]
    by_cases hd : d = c <;> simp [hd, List.mem_erase_of_ne hu]
  have hkeep := kept_of_tasks (f := fun tasks => tasks.erase t) hscope
  have hcur : ∀ u, u ≠ t → w'.currentScope u = w.currentScope u := fun u hu => by
    simp [World.currentScope, (hothers u hu).1]
  constructor
  case inside =>
    intro u x hu hx
    have hut : u ≠ t := by
      rintro rfl
      rcases hu with hu | ⟨group, hu⟩
      · exact hu hself
      · exact ((hdone u group).mp hu).1 rfl
    refine (htasks x u hut).mpr (reg.inside u x ?_ (hcur u hut ▸ hx))
    apply hu.imp (fun h => hpoint u hut ▸ h)
    rintro ⟨group, h⟩
    exact ⟨group, ((hdone u group).mp h).2⟩
  case only =>
    intro u x hu
    by_cases hut : u = t
    · exact hut ▸ honly x (hut ▸ hu)
    · rw [hcur u hut]
      exact reg.only u x ((htasks x u hut).mp hu)
  case distinct =>
    intro x
    obtain ⟨hnt, hnc⟩ := reg.distinct x
    rw [(hkeep x).2.1, hscope]
    refine ⟨?_, hnc⟩
    by_cases hx : x = c
    · subst hx
      simpa using hnt.erase t
    · simpa [hx] using hnt
  case child => simpa only [hkeep] using reg.child
  case older => simpa only [hkeep, hentered] using reg.older
  case located =>
    intro u x hx
    rw [hentered]
    by_cases hut : u = t
    · exact hlocated x (hut ▸ hx)
    · exact reg.located u x (hcur u hut ▸ hx)
  case known => simpa only [hkeep, hentered] using reg.known
  case hosted => simpa only [hkeep] using reg.hosted
  case grouped => exact hgrouped
  case groupsDistinct => exact hdistinct
  case spawned =>
    intro u group hu
    obtain ⟨hut, hu⟩ := (hdone u group).mp hu
    simp only [hkeep]
    rw [hcur u hut, (hothers u hut).2]
    exact reg.spawned u group hu
  case unborn =>
    intro u hu
    have hut : u ≠ t := by
      rintro rfl
      rw [hself] at hu
      cases hu
    simp only [hkeep]
    rw [(hothers u hut).1, (hothers u hut).2]
    exact reg.unborn u (hpoint u hut ▸ hu)
  case running =>
    intro u hu
    obtain ⟨hut, hu⟩ := hrun u hu
    exact hpoint u hut ▸ reg.running u hu

theorem Registered.finish (reg : Registered w) (hcur : w.current = some t) :
    Registered (w.finish t) := by
  have hmove : Registered { w with loop := w.loop.moveTo t .finished, current := none } := by
    refine reg.move (fun u hu => ?_) (fun u hu => ?_) (by simp)
    · by_cases hut : u = t
      · simp [hut] at hu
      · simpa [hut] using hu
    · by_cases hut : u = t <;> simp [hut, hu]
  unfold World.finish
  cases hplaced : w.placedScope t with
  | none => exact hmove
  | some c =>
      have hdone : ∀ group, (t, group) ∉ w.doneCallbacks := fun group hmem => by
        have h := (reg.spawned t group hmem).2.1
        rw [hplaced] at h
        cases h
      refine hmove.remove (c := c) (t := t) rfl rfl (fun u hu => rfl) (fun u hu => ⟨rfl, rfl⟩)
        (by simp) (fun u group => ?_) (fun x hx => ?_) (reg.located t) reg.grouped
        reg.groupsDistinct (by simp)
      · refine ⟨fun hmem => ⟨?_, hmem⟩, And.right⟩
        rintro rfl
        exact hdone group hmem
      · apply reg.only t x
        by_cases hxc : x = c
        · subst hxc
          simp only [World.modify_scope, if_true] at hx
          exact List.mem_of_mem_erase hx
        · simpa [hxc] using hx

/-- `task_done` finds its task where the assertions say that it is. -/
theorem Registered.taskDone (reg : Registered w) {group : ScopeId}
    (hp : w.loop.point t = .finished) (hdone : (t, group) ∈ w.doneCallbacks)
    (hcur : w.current ≠ some t) :
    Registered (w.taskDone t group).1 ∧ (w.taskDone t group).2 = .ok () := by
  obtain ⟨x, hx⟩ := Option.ne_none_iff_exists'.mp (reg.spawned t group hdone).1
  have hstate : w.taskState t = some (some x) := by
    simpa [World.currentScope, Option.join_eq_some_iff] using hx
  have hmem := reg.inside t x (.inr ⟨group, hdone⟩) hx
  have hgroup := (reg.grouped t group).mpr hdone
  have hnodup := reg.groupsDistinct.1
  have hpairs : w.doneCallbacks.Nodup := hnodup.of_map
  have hdone' : ∀ u g, (u, g) ∈ w.doneCallbacks.erase (t, group) ↔
      u ≠ t ∧ (u, g) ∈ w.doneCallbacks := by
    intro u g
    rw [hpairs.mem_erase_iff]
    constructor
    · rintro ⟨hne, hq⟩
      exact ⟨fun hut => hne (List.inj_on_of_nodup_map hnodup hq hdone hut), hq⟩
    · rintro ⟨hut, hq⟩
      exact ⟨fun h => hut (congrArg Prod.fst h), hq⟩
  unfold World.taskDone
  simp only [hstate, hmem, not_true, if_false, hgroup, if_true, and_true]
  refine reg.remove (c := x) (t := t) rfl rfl (fun _ _ => rfl) (fun u hu => ⟨by simp [hu], rfl⟩)
    hp hdone' (fun y hy => ?_) (fun y hy => ?_) (fun u g => ?_) ⟨?_, fun g => ?_⟩
    fun u hu => ⟨?_, hu⟩
  · exfalso
    have hy' : t ∈ (w.scope y).tasks ∧ y ≠ x := by
      by_cases hyx : y = x
      · subst hyx
        simp only [World.modify, Function.update_self] at hy
        exact absurd hy (reg.distinct y).1.not_mem_erase
      · exact ⟨by simpa [World.modify, hyx] using hy, hyx⟩
    exact hy'.2 (Option.some.inj ((reg.only t y hy'.1).symm.trans hx))
  · simp [World.currentScope] at hy
  · refine Iff.trans ?_ (hdone' u g).symm
    change u ∈ Function.update w.groupTasks group ((w.groupTasks group).erase t) g ↔ _
    by_cases hg : g = group
    · subst hg
      rw [Function.update_self, (reg.groupsDistinct.2 g).mem_erase_iff, reg.grouped]
    · rw [Function.update_of_ne hg, reg.grouped]
      refine ⟨fun h => ⟨fun hut => hg ?_, h⟩, And.right⟩
      exact congrArg Prod.snd (List.inj_on_of_nodup_map hnodup h hdone hut)
  · exact hnodup.sublist ((List.erase_sublist).map Prod.fst)
  · by_cases hg : g = group
    · subst hg
      simpa using (reg.groupsDistinct.2 g).erase t
    · simpa [hg] using reg.groupsDistinct.2 g
  · rintro rfl
    exact hcur hu

end Anyio.CancelScope
