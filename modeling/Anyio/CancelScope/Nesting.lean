import Anyio.CancelScope.Invariant

/-!
# Entering and leaving scopes

`__enter__()` puts the host below its former scope and `__exit__()` puts it
back. The rest of both calls is about flags, timers and deliveries, and is
followed with the invariant from the moment the links are in place.
-/

namespace Anyio.CancelScope

open Asyncio Library

variable {τ : Type*} [DecidableEq τ]

/-- A scope without its links, and without what entering or leaving it writes first. -/
def Scope.attributes (s : Scope τ) : Scope τ :=
  { s with
    parentScope := none
    childScopes := []
    active := false
    timeoutHandle := none
    tasks := []
    hostTask := none }

/-- What is written of the state when the task `host` enters `c`, from `w` to `w'`. -/
structure Entered (w : World τ) (c : ScopeId) (host : τ) (w' : World τ) : Prop where
  parentScope : ∀ d, (w'.scope d).parentScope =
    if d = c then w.currentScope host else (w.scope d).parentScope
  childScopes : ∀ d, (w'.scope d).childScopes =
    if w.currentScope host = some d then (w.scope d).childScopes.insert c
    else (w.scope d).childScopes
  tasks : ∀ d, (w'.scope d).tasks =
    if d = c then (w.scope d).tasks.insert host
    else if w.currentScope host = some d then (w.scope d).tasks.erase host
    else (w.scope d).tasks
  hostTask : ∀ d, (w'.scope d).hostTask = if d = c then some host else (w.scope d).hostTask
  active : ∀ d, (w'.scope d).active = (w.scope d).active
  attributes : ∀ d, (w'.scope d).attributes = (w.scope d).attributes
  taskState : w'.taskState = Function.update w.taskState host (some (some c))
  entered : w'.entered = w.entered ++ [c]
  groups : w'.groupTasks = w.groupTasks ∧ w'.doneCallbacks = w.doneCallbacks ∧
    w'.placedScope = w.placedScope
  loop : w'.loop = w.loop
  current : w'.current = w.current
  callbacks : w'.callbacks = w.callbacks
  pythonMinor : w'.pythonMinor = w.pythonMinor

/-- What is written of the state when the task `host` is back in the parent of `c`. -/
structure Left (w : World τ) (c : ScopeId) (host : τ) (w' : World τ) : Prop where
  parentScope : ∀ d, (w'.scope d).parentScope = (w.scope d).parentScope
  childScopes : ∀ d, (w'.scope d).childScopes =
    if (w.scope c).parentScope = some d then (w.scope d).childScopes.erase c
    else (w.scope d).childScopes
  tasks : ∀ d, (w'.scope d).tasks =
    if d = c then (w.scope d).tasks.erase host
    else if (w.scope c).parentScope = some d then (w.scope d).tasks.insert host
    else (w.scope d).tasks
  hostTask : ∀ d, (w'.scope d).hostTask = (w.scope d).hostTask
  active : ∀ d, (w'.scope d).active = if d = c then false else (w.scope d).active
  attributes : ∀ d, (w'.scope d).attributes = (w.scope d).attributes
  taskState : w'.taskState = Function.update w.taskState host (some (w.scope c).parentScope)
  entered : w'.entered = w.entered
  groups : w'.groupTasks = w.groupTasks ∧ w'.doneCallbacks = w.doneCallbacks ∧
    w'.placedScope = w.placedScope
  loop : w'.loop = w.loop
  current : w'.current = w.current
  callbacks : w'.callbacks = w.callbacks
  pythonMinor : w'.pythonMinor = w.pythonMinor

variable {w w' : World τ} {k : Watch} {Opened except : ScopeId → Prop} {c p : ScopeId}
  {host t : τ}

omit [DecidableEq τ] in
theorem Scope.attributes_ext {s s' : Scope τ} (h : s'.attributes = s.attributes) :
    s'.shield = s.shield ∧ s'.cancelCalled = s.cancelCalled ∧ s'.cancelHandle = s.cancelHandle ∧
      s'.cancelledCaught = s.cancelledCaught ∧ s'.cancelCalls = s.cancelCalls ∧
      s'.cancelling = s.cancelling := by
  simp only [Scope.attributes, Scope.mk.injEq] at h
  tauto

namespace Entered

variable (h : Entered w c host w')
include h

theorem flags (d : ScopeId) : (w'.scope d).shield = (w.scope d).shield ∧
    (w'.scope d).cancelCalled = (w.scope d).cancelCalled := by
  obtain ⟨hshield, hcalled, -⟩ := Scope.attributes_ext (h.attributes d)
  exact ⟨hshield, hcalled⟩

theorem handle (d : ScopeId) : (w'.scope d).cancelHandle = (w.scope d).cancelHandle :=
  (Scope.attributes_ext (h.attributes d)).2.2.1

theorem currentScope (u : τ) :
    w'.currentScope u = if u = host then some c else w.currentScope u := by
  by_cases hu : u = host <;> simp [World.currentScope, h.taskState, hu]

theorem point (u : τ) : w'.loop.point u = w.loop.point u := by
  rw [h.loop]

theorem mem_childScopes (d z : ScopeId) : z ∈ (w'.scope d).childScopes ↔
    z ∈ (w.scope d).childScopes ∨ z = c ∧ w.currentScope host = some d := by
  rw [h.childScopes]
  by_cases hd : w.currentScope host = some d <;> simp [hd, or_comm]

theorem host_mem : host ∈ (w'.scope c).tasks := by
  simp [h.tasks]

theorem mem_tasks {u : τ} (hu : u ≠ host) (d : ScopeId) :
    u ∈ (w'.scope d).tasks ↔ u ∈ (w.scope d).tasks := by
  rw [h.tasks]
  split_ifs <;> simp [hu, List.mem_erase_of_ne hu]

theorem listed_before {u : τ} {d : ScopeId} (hd : d ≠ c) (hu : u ∈ (w'.scope d).tasks) :
    u ∈ (w.scope d).tasks := by
  rw [h.tasks, if_neg hd] at hu
  split_ifs at hu
  · exact List.mem_of_mem_erase hu
  · exact hu

end Entered

namespace Left

variable (h : Left w c host w')
include h

theorem flags (d : ScopeId) : (w'.scope d).shield = (w.scope d).shield ∧
    (w'.scope d).cancelCalled = (w.scope d).cancelCalled := by
  obtain ⟨hshield, hcalled, -⟩ := Scope.attributes_ext (h.attributes d)
  exact ⟨hshield, hcalled⟩

theorem handle (d : ScopeId) : (w'.scope d).cancelHandle = (w.scope d).cancelHandle :=
  (Scope.attributes_ext (h.attributes d)).2.2.1

theorem currentScope (u : τ) :
    w'.currentScope u = if u = host then (w.scope c).parentScope else w.currentScope u := by
  by_cases hu : u = host <;> simp [World.currentScope, h.taskState, hu]

theorem point (u : τ) : w'.loop.point u = w.loop.point u := by
  rw [h.loop]

theorem mem_childScopes_of_ne {z : ScopeId} (hz : z ≠ c) (d : ScopeId) :
    z ∈ (w'.scope d).childScopes ↔ z ∈ (w.scope d).childScopes := by
  rw [h.childScopes]
  split_ifs <;> simp [List.mem_erase_of_ne hz]

theorem childScopes_subset {d z : ScopeId} (hz : z ∈ (w'.scope d).childScopes) :
    z ∈ (w.scope d).childScopes := by
  rw [h.childScopes] at hz
  split_ifs at hz
  · exact List.mem_of_mem_erase hz
  · exact hz

theorem host_mem (hpc : p ≠ c) (hp : (w.scope c).parentScope = some p) :
    host ∈ (w'.scope p).tasks := by
  simp [h.tasks, hpc, hp]

theorem mem_tasks {u : τ} (hu : u ≠ host) (d : ScopeId) :
    u ∈ (w'.scope d).tasks ↔ u ∈ (w.scope d).tasks := by
  rw [h.tasks]
  split_ifs <;> simp [hu, List.mem_erase_of_ne hu]

/-- Nobody is left in a scope that only its host was in. -/
theorem emptied (htasks : ∀ u ∈ (w.scope c).tasks, u = host)
    (hdistinct : (w.scope c).tasks.Nodup) : (w'.scope c).tasks = [] := by
  rw [h.tasks, if_pos rfl]
  apply List.eq_nil_iff_forall_not_mem.mpr
  intro u hu
  obtain ⟨hne, hmem⟩ := hdistinct.mem_erase_iff.mp hu
  exact hne (htasks u hmem)

/-- The tasks that are listed elsewhere were there before, but for the host in the parent. -/
theorem listed_before {u : τ} {d : ScopeId} (hd : d ≠ c) (hu : u ∈ (w'.scope d).tasks) :
    u ∈ (w.scope d).tasks ∨ (w.scope c).parentScope = some d := by
  rw [h.tasks, if_neg hd] at hu
  split_ifs at hu with hp
  · exact .inr hp
  · exact .inl hu

end Left

theorem Entered.linked (h : Entered w c host w') (hl : Linked w Opened) (hc : c ∉ w.entered)
    (hcur : w.current = some host) : Linked w' fun y => y = c ∨ Opened y where
  inside t x hp hx := by
    rw [h.currentScope] at hx
    split_ifs at hx with ht
    · cases hx
      exact ⟨ht ▸ h.host_mem, .inl rfl⟩
    · obtain ⟨hmem, hopen⟩ := hl.inside t x (h.point t ▸ hp) hx
      exact ⟨(h.mem_tasks ht x).mpr hmem, .inr hopen⟩
  members t x hx := by
    by_cases hxc : x = c
    · exact .inl hxc
    · exact .inr (hl.members t x (h.listed_before hxc hx))
  distinct x := by
    rw [h.tasks]
    split_ifs
    · exact (hl.distinct x).insert
    · exact (hl.distinct x).erase host
    · exact hl.distinct x
  hosted x hx := by
    rw [h.hostTask]
    split_ifs with hxc
    · simp
    · exact hl.hosted x (hx.resolve_left hxc)
  listed x q hx hq := by
    rw [h.parentScope] at hq
    rw [h.mem_childScopes]
    split_ifs at hq with hxc
    · exact ⟨.inr ⟨hxc, hq⟩, .inr (hl.inside host q (hl.alive hcur) hq).2⟩
    · obtain ⟨hmem, hopen⟩ := hl.listed x q (hx.resolve_left hxc) hq
      exact ⟨.inl hmem, .inr hopen⟩
  child x q hx := by
    rw [h.parentScope]
    rcases (h.mem_childScopes q x).mp hx with hx | ⟨rfl, hq⟩
    · have hq := hl.child x q hx
      rw [if_neg, hq]
      rintro rfl
      rw [hl.fresh_parent hc] at hq
      cases hq
    · rw [if_pos rfl, hq]
  older x q hq := by
    rw [h.parentScope] at hq
    rw [h.entered]
    split_ifs at hq with hxc
    · have hq' := hl.known q (hl.inside host q (hl.alive hcur) hq).2
      subst hxc
      refine ⟨?_, by simp⟩
      rw [List.idxOf_append_of_mem hq', List.idxOf_append_of_notMem hc]
      exact Nat.lt_add_right _ (List.idxOf_lt_length_of_mem hq')
    · obtain ⟨hlt, hmem⟩ := hl.older x q hq
      have hq' : q ∈ w.entered :=
        List.idxOf_lt_length_iff.mp (hlt.trans (List.idxOf_lt_length_of_mem hmem))
      rw [List.idxOf_append_of_mem hq', List.idxOf_append_of_mem hmem]
      exact ⟨hlt, List.mem_append_left _ hmem⟩
  known x hx := by
    rw [h.entered]
    rcases hx with rfl | hx
    · simp
    · exact List.mem_append_left _ (hl.known x hx)
  running t ht := by
    rw [h.point]
    exact hl.running t (h.current ▸ ht)

/-- The walks that do not start in the new scope are the old ones. -/
theorem Entered.near (h : Entered w c host w') (hl : Linked w Opened) (hc : c ∉ w.entered)
    {x d : ScopeId} (hx : x ≠ c) (hn : Near w' x d) : Near w x d := by
  refine Nearest.congr_on (P := fun y => y ≠ c) hn hx (fun y q hy hq => ?_) (fun y _ => ?_)
    fun y _ => ?_
  · simp only [h.parentScope, if_neg hy] at hq
    exact ⟨hq, hl.parent_ne hc hq⟩
  · exact (h.flags y).2.symm
  · exact (h.flags y).1.symm

/-- Right after the links are in place only the new scope can owe a delivery. -/
theorem Entered.inv (h : Entered w c host w') (inv : Inv k Opened except w) (hc : c ∉ w.entered)
    (hcur : w.current = some host) :
    Inv k (fun y => y = c ∨ Opened y) (fun d => except d ∨ d = c) w' where
  linked := h.linked inv.linked hc hcur
  queued d g hg := h.callbacks ▸ inv.queued d g (h.handle d ▸ hg)
  level t x d hx hn := by
    have hlive : ∀ {u y}, u ∈ (w.scope y).tasks → Near w y d →
        Live k w' d ∨ except d ∨ d = c := by
      intro u y hy hd
      exact (inv.level u y d hy hd).imp
        (fun hl => hl.mono (h.handle d) (by simp [h.callbacks])) .inl
    by_cases hxc : x = c
    · subst hxc
      by_cases hdc : d = x
      · exact .inr (.inr hdc)
      · obtain ⟨-, q, hq, hn⟩ := hn.of_miss (Bool.eq_false_iff.mpr fun hcalled =>
          hdc (hn.unique (.here hcalled)))
        simp only [h.parentScope, if_true] at hq
        obtain ⟨hmem, hopen⟩ := inv.linked.inside host q (inv.linked.alive hcur) hq
        have hqc : q ≠ x := by
          rintro rfl
          exact hc (inv.linked.known q hopen)
        exact hlive hmem (h.near inv.linked hc hqc hn)
    · exact hlive (h.listed_before hxc hx) (h.near inv.linked hc hxc hn)

theorem Left.linked (h : Left w c host w') (hl : Linked w Opened)
    (hscope : w.currentScope host = some c) (hcur : w.current = some host)
    (htasks : ∀ u ∈ (w.scope c).tasks, u = host) (hchildren : (w.scope c).childScopes = []) :
    Linked w' fun y => y ≠ c ∧ Opened y where
  inside t x hp hx := by
    rw [h.currentScope] at hx
    split_ifs at hx with ht
    · have hopen := (hl.inside host c (hl.alive hcur) hscope).2
      have hxc := hl.parent_ne_self hx
      exact ⟨ht ▸ h.host_mem hxc hx, hxc, (hl.listed c x hopen hx).2⟩
    · obtain ⟨hmem, hopen⟩ := hl.inside t x (h.point t ▸ hp) hx
      refine ⟨(h.mem_tasks ht x).mpr hmem, ?_, hopen⟩
      rintro rfl
      exact ht (htasks t hmem)
  members t x hx := by
    have hxc : x ≠ c := by
      rintro rfl
      rw [h.emptied htasks (hl.distinct x)] at hx
      cases hx
    obtain hx | hp := h.listed_before hxc hx
    · exact ⟨hxc, hl.members t x hx⟩
    · have hopen := (hl.inside host c (hl.alive hcur) hscope).2
      exact ⟨hxc, (hl.listed c x hopen hp).2⟩
  distinct x := by
    rw [h.tasks]
    split_ifs
    · exact (hl.distinct x).erase host
    · exact (hl.distinct x).insert
    · exact hl.distinct x
  hosted x hx := by
    rw [h.hostTask]
    exact hl.hosted x hx.2
  listed x q hx hq := by
    rw [h.parentScope] at hq
    obtain ⟨hmem, hopen⟩ := hl.listed x q hx.2 hq
    refine ⟨(h.mem_childScopes_of_ne hx.1 q).mpr hmem, ?_, hopen⟩
    rintro rfl
    simp [hchildren] at hmem
  child x q hx := by
    rw [h.parentScope]
    exact hl.child x q (h.childScopes_subset hx)
  older x q hq := by
    rw [h.entered]
    exact hl.older x q (h.parentScope x ▸ hq)
  known x hx := by
    rw [h.entered]
    exact hl.known x hx.2
  running t ht := by
    rw [h.point]
    exact hl.running t (h.current ▸ ht)

theorem Left.near (h : Left w c host w') : Near w' = Near w := by
  unfold Near
  simp only [h.parentScope, h.flags]

/-- What comes into sight when the host is back in the parent scope is found
on the walk up from there. -/
theorem Left.inv (h : Left w c host w') (inv : Inv k Opened except w)
    (hscope : w.currentScope host = some c) (hcur : w.current = some host)
    (htasks : ∀ u ∈ (w.scope c).tasks, u = host) (hchildren : (w.scope c).childScopes = []) :
    Inv k (fun y => y ≠ c ∧ Opened y)
      (fun d => except d ∨ ∃ p, (w'.scope c).parentScope = some p ∧ Near w' p d) w' where
  linked := h.linked inv.linked hscope hcur htasks hchildren
  queued d g hg := h.callbacks ▸ inv.queued d g (h.handle d ▸ hg)
  level t x d hx hn := by
    have hxc : x ≠ c := by
      rintro rfl
      rw [h.emptied htasks (inv.linked.distinct x)] at hx
      cases hx
    obtain hx | hp := h.listed_before hxc hx
    · exact (inv.level t x d hx (h.near ▸ hn)).imp
        (fun hl => hl.mono (h.handle d) (by simp [h.callbacks])) .inl
    · exact .inr (.inr ⟨x, (h.parentScope c).trans hp, hn⟩)

/-! ## The calls -/

omit [DecidableEq τ] in
theorem recordCancelling_quiet (w : World τ) (c : ScopeId) (host : τ) :
    Quiet w (w.recordCancelling c host) := by
  unfold World.recordCancelling
  split_ifs
  · exact .modify w c rfl rfl
  · exact .refl w

/-- Of the links, activating a scope writes only `_active`. -/
theorem activate_links (w : World τ) (c : ScopeId) (host : τ) :
    SameLinks (w.modify c fun s => { s with active := true }) (w.activate c host) := by
  have htimed := timeout_links w c
  have hopened : SameLinks (w.modify c fun s => { s with active := true })
      ((w.timeout c).modify c fun s => { s with active := true }) := by
    refine ⟨fun d => ?_, htimed.entered, htimed.taskState, htimed.groups, htimed.point,
      htimed.current⟩
    have hd := htimed.scope d
    by_cases hdc : d = c
    · subst hdc
      simp only [Scope.links, Scope.tree, Scope.mk.injEq] at hd ⊢
      simp [hd]
    · simpa [hdc] using hd
  have hready := hopened.trans (recordCancelling_quiet _ c host).toSameTree.sameLinks
  unfold World.activate
  simp only
  split_ifs
  · exact hready.trans (deliver_links _ c)
  · exact hready

theorem Inv.activate (inv : Inv k Opened (fun d => except d ∨ d = c) w) (host : τ) :
    Inv k Opened except (w.activate c host) := by
  have timed := inv.timeout c
  have opened : Inv k Opened (fun d => except d ∨ d = c)
      ((w.timeout c).modify c fun s => { s with active := true }) :=
    timed.setAttribute (timed.linked.modify c rfl rfl rfl rfl) rfl rfl rfl rfl rfl
  have ready := (recordCancelling_quiet _ c host).inv opened
  unfold World.activate
  simp only
  split_ifs with hcalled
  · exact .deliver ready.linked (fun d _ => ready.queued d) ready.level
  · refine ⟨ready.linked, ready.queued, fun t x d hx hn => ?_⟩
    rcases ready.level t x d hx hn with hlive | he | rfl
    · exact .inl hlive
    · exact .inr he
    · exact absurd hn.cancelCalled hcalled

/-- Entering the first scope of a task. -/
theorem hold_entered (hparent : (w.scope c).parentScope = none)
    (hroot : w.currentScope host = none) : Entered w c host (w.hold c host) where
  parentScope d := by
    by_cases hd : d = c <;> simp [World.hold, hd, hroot, hparent]
  childScopes d := by
    by_cases hd : d = c <;> simp [World.hold, hd, hroot]
  tasks d := by
    by_cases hd : d = c <;> simp [World.hold, hd, hroot]
  hostTask d := by
    by_cases hd : d = c <;> simp [World.hold, hd]
  active d := by
    by_cases hd : d = c <;> simp [World.hold, hd]
  attributes d := by
    by_cases hd : d = c <;> simp [World.hold, hd, Scope.attributes]
  taskState := rfl
  entered := rfl
  groups := ⟨rfl, rfl, rfl⟩
  loop := rfl
  current := rfl
  callbacks := rfl
  pythonMinor := rfl

/-- `__enter__()` below the scope `p`: link both scopes and take the host out of `p`. -/
def World.holdBelow (w : World τ) (c p : ScopeId) (host : τ) : World τ :=
  (((w.hold c host).modify c fun s => { s with parentScope := some p }).modify p fun s =>
    { s with childScopes := s.childScopes.insert c }).modify p fun s =>
      { s with tasks := s.tasks.erase host }

theorem holdBelow_entered (hpc : p ≠ c) (hp : w.currentScope host = some p) :
    Entered w c host (w.holdBelow c p host) where
  parentScope d := by
    by_cases hd : d = p <;> by_cases hdc : d = c <;> simp_all [World.holdBelow, World.hold]
  childScopes d := by
    have hpd : (p = d) = (d = p) := propext eq_comm
    by_cases hd : d = p <;> by_cases hdc : d = c <;> simp_all [World.holdBelow, World.hold]
  tasks d := by
    have hpd : (p = d) = (d = p) := propext eq_comm
    by_cases hd : d = p <;> by_cases hdc : d = c <;> simp_all [World.holdBelow, World.hold]
  hostTask d := by
    by_cases hd : d = p <;> by_cases hdc : d = c <;> simp_all [World.holdBelow, World.hold]
  active d := by
    by_cases hd : d = p <;> by_cases hdc : d = c <;> simp_all [World.holdBelow, World.hold]
  attributes d := by
    by_cases hd : d = p <;> by_cases hdc : d = c <;>
      simp_all [World.holdBelow, World.hold, Scope.attributes]
  taskState := rfl
  entered := rfl
  groups := ⟨rfl, rfl, rfl⟩
  loop := rfl
  current := rfl
  callbacks := rfl
  pythonMinor := rfl

/-- `__enter__()` of a scope that has no parent yet, when its host is listed
where it is, writes its links and activates it. -/
theorem enter_cases (hparent : (w.scope c).parentScope = none)
    (hlisted : ∀ p, w.currentScope host = some p → host ∈ (w.scope p).tasks ∧ p ≠ c)
    (hactive : (w.scope c).active = false) :
    ∃ w', Entered w c host w' ∧ w.enter c host = (w'.activate c host, .ok ()) := by
  unfold World.enter
  rw [if_neg (by simp [hactive])]
  simp only
  cases hstate : w.taskState host with
  | none =>
      have hroot : w.currentScope host = none := by simp [World.currentScope, hstate]
      exact ⟨_, hold_entered hparent hroot, rfl⟩
  | some scope =>
      cases scope with
      | none =>
          have hroot : w.currentScope host = none := by simp [World.currentScope, hstate]
          have hsame : (w.hold c host).modify c (fun s => { s with parentScope := none }) =
              w.hold c host := by
            simp [World.hold, World.modify, hparent]
          exact ⟨_, hold_entered hparent hroot, by simp only [hsame]⟩
      | some p =>
          have hp : w.currentScope host = some p := by simp [World.currentScope, hstate]
          obtain ⟨hmem, hpc⟩ := hlisted p hp
          refine ⟨_, holdBelow_entered hpc hp, ?_⟩
          simp only
          rw [if_pos]
          · rfl
          · simpa [World.hold, hpc] using hmem

section Exit

omit [DecidableEq τ] in
/-- Dropping a timer writes `_timeout_handle` and the timers only. -/
theorem dropTimer_eq (w : World τ) (c : ScopeId) : ∃ timers, w.dropTimer c =
    { w.modify c (fun s => { s with timeoutHandle := none }) with timers := timers } := by
  unfold World.dropTimer
  cases h : (w.scope c).timeoutHandle with
  | none =>
      refine ⟨w.timers, ?_⟩
      have hsame : { w.scope c with timeoutHandle := none } = w.scope c := by
        rw [← h]
      simp [World.modify, hsame]
  | some _ => exact ⟨_, rfl⟩

/-- `__exit__()` up to the removal of the host from the scope. -/
def World.release (w : World τ) (c : ScopeId) (host : τ) : World τ :=
  ((w.modify c fun s => { s with active := false }).dropTimer c).modify c fun s =>
    { s with tasks := s.tasks.erase host }

/-- Leaving the first scope of a task. -/
theorem release_left (hroot : (w.scope c).parentScope = none) :
    Left w c host { w.release c host with
      taskState := Function.update (w.release c host).taskState host (some none) } := by
  obtain ⟨timers, heq⟩ := dropTimer_eq (w.modify c fun s => { s with active := false }) c
  rw [World.release, heq]
  constructor
  case groups => exact ⟨rfl, rfl, rfl⟩
  case taskState => simp [World.modify, hroot]
  case entered | loop | current | callbacks | pythonMinor => rfl
  all_goals
    intro d
    by_cases hd : d = c <;> simp [World.modify, Scope.attributes, hd, hroot]

/-- Leaving a scope below `p`. -/
theorem releaseBelow_left (hp : (w.scope c).parentScope = some p) (hpc : p ≠ c) :
    Left w c host { (w.release c host).modify p fun s =>
        { s with childScopes := s.childScopes.erase c, tasks := s.tasks.insert host } with
      taskState := Function.update (w.release c host).taskState host (some (some p)) } := by
  obtain ⟨timers, heq⟩ := dropTimer_eq (w.modify c fun s => { s with active := false }) c
  rw [World.release, heq]
  constructor
  case groups => exact ⟨rfl, rfl, rfl⟩
  case taskState => simp [World.modify, hp]
  case entered | loop | current | callbacks | pythonMinor => rfl
  all_goals
    intro d
    have hpd : (p = d) = (d = p) := propext eq_comm
    by_cases hd : d = p <;> by_cases hdc : d = c <;>
      simp_all [World.modify, Scope.attributes]

/-- `__exit__()` refuses and changes nothing, or brings the host back into the
parent of its current scope. -/
theorem exit_cases (hmem : w.currentScope host = some c → host ∈ (w.scope c).tasks)
    (hlisted : ∀ p, (w.scope c).active = true → (w.scope c).parentScope = some p →
      p ≠ c ∧ c ∈ (w.scope p).childScopes) (exc : Option Exc) :
    (∃ message, w.exit c host exc = (w, .error (.runtimeError message))) ∨
      (w.scope c).active = true ∧ (w.scope c).hostTask = some host ∧
        w.currentScope host = some c ∧ ∃ w', Left w c host w' ∧
          w.exit c host exc = ((w'.conclude c host exc).1, .ok (w'.conclude c host exc).2) := by
  unfold World.exit
  split_ifs with hactive hhost hstate
  · exact .inl ⟨_, rfl⟩
  · exact .inl ⟨_, rfl⟩
  · exact .inl ⟨_, rfl⟩
  · rw [ne_eq, not_not] at hhost hstate
    rw [Bool.not_eq_false] at hactive
    have hscope : w.currentScope host = some c := by simp [World.currentScope, hstate]
    refine .inr ⟨hactive, hhost, hscope, ?_⟩
    have hq := dropTimer_quiet (w.modify c fun s => { s with active := false }) c
    have hmem' : host ∈ (((w.modify c fun s => { s with active := false }).dropTimer c).scope
        c).tasks := by
      simpa [hq.tasks] using hmem hscope
    simp only [hmem', not_true, if_false]
    cases hp : (w.scope c).parentScope with
    | none =>
        simp only [World.modify_scope, if_true, hq.parentScope, hp]
        exact ⟨_, release_left hp, rfl⟩
    | some p =>
        obtain ⟨hpc, hchild⟩ := hlisted p hactive hp
        simp only [World.modify_scope, if_true, hq.parentScope, hp, hpc, if_false,
          hq.childScopes, hchild, not_true]
        exact ⟨_, releaseBelow_left hp hpc, rfl⟩

theorem uncancelHost_quiet (c : ScopeId) (host : τ) (limit n : Nat) (w : World τ) :
    Quiet w (World.uncancelHost c host limit n w) := by
  induction n generalizing w with
  | zero => exact .refl w
  | succ n ih =>
      have hm := Quiet.modify w c (f := fun s => { s with cancelCalls := n }) rfl rfl
      have hstep : Quiet w { w.modify c fun s => { s with cancelCalls := n } with
          loop := w.loop.uncancel host (13 ≤ w.pythonMinor) } :=
        ⟨⟨hm.scope, rfl, rfl, fun u => by simp, rfl, rfl, rfl, rfl⟩, hm.handle, fun _ => id⟩
      unfold World.uncancelHost
      simp only
      split_ifs
      · exact hstep
      · exact hstep.trans (ih _)

theorem undoCancellations_quiet (w : World τ) (c : ScopeId) (host : τ) :
    Quiet w (w.undoCancellations c host) := by
  unfold World.undoCancellations
  cases (w.scope c).cancelling with
  | none => exact .refl w
  | some limit => exact uncancelHost_quiet c host limit _ w

omit [DecidableEq τ] in
theorem uncancel_quiet (w : World τ) (c : ScopeId) (messages : List (Option String)) :
    Quiet w (w.uncancel c messages).1 := by
  induction messages with
  | nil => exact .refl w
  | cons message contexts ih =>
      unfold World.uncancel
      simp only
      split_ifs
      · let caught := w.effectivelyCancelled c && !w.parentCancellationIsVisibleToUs c
        exact Quiet.modify w c (f := fun s => { s with cancelledCaught := caught }) rfl rfl
      · exact ih

omit [DecidableEq τ] in
theorem swallow_quiet (c : ScopeId) (excs : List Exc) (w : World τ) (swallowed rest : Bool) :
    Quiet w (World.swallow c excs w swallowed rest).1 := by
  induction excs generalizing w swallowed rest with
  | nil => exact .refl w
  | cons exc excs ih =>
      cases exc with
      | cancelled message contexts =>
          unfold World.swallow
          simp only
          split_ifs
          · exact (uncancel_quiet w c (message :: contexts)).trans (ih _ _ _)
          · exact ih _ _ _
      | other => exact ih _ _ _
      | group _ => exact ih _ _ _

/-- Of the links, the end of an exit clears only `_host_task`. -/
theorem conclude_links (w : World τ) (c : ScopeId) (host : τ) (exc : Option Exc) :
    SameLinks (w.modify c fun s => { s with hostTask := none }) (w.conclude c host exc).1 := by
  have hq := ((undoCancellations_quiet w c host).trans
    (swallow_quiet c ((exc.map iterateExceptions).getD []) _ false false)).toSameTree.sameLinks
  have h := hq.trans (restart_links (World.swallow c ((exc.map iterateExceptions).getD [])
    (w.undoCancellations c host) false false).1 c)
  refine ⟨fun d => ?_, h.entered, h.taskState, h.groups, h.point, h.current⟩
  have hd := h.scope d
  by_cases hdc : d = c
  · subst hdc
    simp only [Scope.links, Scope.tree, Scope.mk.injEq] at hd
    simp [World.conclude, Scope.links, Scope.tree, hd]
  · simpa [World.conclude, hdc] using hd

/-- `__exit__()` from the moment the host is back restarts the delivery in its parent. -/
theorem Inv.conclude {exc : Option Exc} (hc : ¬ Opened c)
    (inv : Inv k Opened (fun d => except d ∨ ∃ p, (w.scope c).parentScope = some p ∧ Near w p d)
      w) (host : τ) : Inv k Opened except (w.conclude c host exc).1 := by
  have hq := (undoCancellations_quiet w c host).trans
    (swallow_quiet c ((exc.map iterateExceptions).getD []) _ false false)
  have inv' := Inv.restart (c := c) ((hq.inv inv).weaken fun d hd => by
    rw [hq.parentScope, hq.near]
    exact hd)
  exact inv'.setAttribute (inv'.linked.forgetHost hc) rfl rfl rfl rfl rfl

theorem Sound.enter (inv : Sound k w) (hcur : w.current = some host)
    (ok : c ∈ w.entered → (w.scope c).active = true) : Sound k (w.enter c host).1 := by
  cases hactive : (w.scope c).active with
  | true =>
      unfold World.enter
      rw [if_pos hactive]
      exact inv
  | false =>
      have hc : c ∉ w.entered := fun h => by simp [ok h] at hactive
      have hlisted : ∀ p, w.currentScope host = some p → host ∈ (w.scope p).tasks ∧ p ≠ c := by
        intro p hp
        obtain ⟨hmem, hopen⟩ := inv.linked.inside host p (inv.linked.alive hcur) hp
        exact ⟨hmem, fun h => hc (h ▸ inv.linked.known p hopen)⟩
      obtain ⟨w', hentered, heq⟩ := enter_cases (inv.linked.fresh_parent hc) hlisted hactive
      rw [heq]
      apply Inv.sound ((hentered.inv inv hc hcur).activate host)
      intro y
      rw [(activate_links w' c host).active]
      by_cases hy : y = c <;> simp [hy, hentered.active]

theorem Sound.exit (inv : Sound k w) (hcur : w.current = some host) {exc : Option Exc}
    (ok : w.currentScope host = some c →
      (∀ u ∈ (w.scope c).tasks, u = host) ∧ (w.scope c).childScopes = []) :
    Sound k (w.exit c host exc).1 := by
  have hmem := fun hscope => (inv.linked.inside host c (inv.linked.alive hcur) hscope).1
  have hlisted : ∀ p, (w.scope c).active = true → (w.scope c).parentScope = some p →
      p ≠ c ∧ c ∈ (w.scope p).childScopes := fun p hactive hp =>
    ⟨inv.linked.parent_ne_self hp, (inv.linked.listed c p hactive hp).1⟩
  rcases exit_cases hmem hlisted exc with ⟨message, heq⟩ | ⟨-, -, hscope, w', hleft, heq⟩
  · rw [heq]
    exact inv
  · obtain ⟨htasks, hchildren⟩ := ok hscope
    rw [heq]
    apply Inv.sound ((hleft.inv inv hscope hcur htasks hchildren).conclude (by simp) host)
    intro y
    rw [(conclude_links w' c host exc).active]
    by_cases hy : y = c <;> simp [hy, hleft.active]

end Exit

end Anyio.CancelScope
