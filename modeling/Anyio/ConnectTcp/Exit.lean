import Anyio.ConnectTcp.Invariant

/-!
# The host in `__aexit__()` of the group

What the host does when it runs again in `__aexit__()`: it waits for the
tasks that are left, or it leaves the group and the call ends.
-/

namespace Anyio.ConnectTcp

open Asyncio Library
open TaskGroup (Exc)

variable {α ε : Type*} {s s' : State α ε} {i j : Nat} {reached : List Nat}

/-- The exception with which the host leaves its wait in `__aexit__()`. -/
def excAtExit (group : TaskGroup.State Party ε) : Option (Exc ε) :=
  if group.loop.throws .host then some (.cancelled true) else group.excVal

theorem excAtExit_none {group : TaskGroup.State Party ε} :
    excAtExit group = none ↔ group.loop.throws .host = false ∧ group.excVal = none := by
  rw [excAtExit]
  split_ifs with hthrow <;> simp [hthrow]

/-- The group when the host runs again in `__aexit__()`. -/
def awake (group : TaskGroup.State Party ε) : TaskGroup.State Party ε :=
  { group with
    cancelCalled := group.cancelCalled || group.loop.throws .host
    excVal := excAtExit group
    unfinished := []
    loop := group.loop.resumeAt .host .outside }

/-- The host is only ever interrupted by cancel scopes. -/
def OnlyAnyio (group : TaskGroup.State Party ε) : Prop :=
  group.excVal = none ∨ group.excVal = some (.cancelled true)

theorem resume_waiting {group : TaskGroup.State Party ε} {f : FutureId}
    (hp : group.loop.point .host = .waiting f) (hexc : OnlyAnyio group) (caught : Bool) :
    TaskGroup.resume group .host true caught =
      TaskGroup.waitForTasks (awake group) .host caught := by
  unfold TaskGroup.resume
  simp only [hp]
  split_ifs with hthrow
  · congr 1
    obtain hnone | hsome := hexc
    · simp [TaskGroup.waitCancelled, awake, excAtExit, hthrow, hnone]
    · simp [TaskGroup.waitCancelled, awake, excAtExit, hthrow, hsome]
  · congr 1
    simp [awake, excAtExit, hthrow]

theorem resume_checkpoint {group : TaskGroup.State Party ε}
    (hp : group.loop.point .host = .checkpoint)
    (hcalm : (group.loop.task .host).mustCancel = false) (htasks : group.tasks = [])
    (caught : Bool) :
    TaskGroup.resume group .host true caught =
      TaskGroup.waitForTasks { awake group with unfinished := group.unfinished } .host caught := by
  have hthrow : group.loop.throws .host = false := by
    simp [Loop.throws, Loop.waits, hp, Coroutine.waits, hcalm]
  unfold TaskGroup.resume
  simp only [hp, hthrow, Bool.false_eq_true, if_false, TaskGroup.waitForTasks, awake, htasks,
    if_true]
  simp [excAtExit, hthrow]

/-- How the call ends when the host leaves the group. -/
def endingOf (s : State α ε) : Ending ε :=
  match s.group.exceptions with
  | some (e :: es) => .raised (.group "unhandled errors in a TaskGroup" (e :: es)) none
  | _ =>
      if (excAtExit s.group).isSome ∧ s.outerCancelled = true then .raised (.cancelled true) none
      else afterGroup s

/-- Attempts fail with other exceptions than cancellations. -/
def OnlyOthers (group : TaskGroup.State Party ε) : Prop :=
  ∀ excs, group.exceptions = some excs → ∀ x ∈ excs, ∃ e, x = .other e

theorem noticed_group (s : State α ε) (reached : List Nat) :
    (noticed s reached).group =
      { s.group with cancelCalled := s.group.cancelCalled || s.group.loop.throws .host } := by
  rw [noticed]
  split_ifs with hthrow
  · rw [show _ = _ from cancelScope_group s reached, hthrow, Bool.or_true]
  · simp [hthrow]

theorem awake_noticed (s : State α ε) (reached : List Nat) :
    awake (noticed s reached).group = awake s.group := by
  rw [noticed_group]
  simp [awake, excAtExit]

/-- The group when the host goes on waiting. -/
def waitsAgain (group : TaskGroup.State Party ε) : TaskGroup.State Party ε :=
  { awake group with
    unfinished := group.tasks
    loop := (group.loop.resumeAt .host .outside).createFuture.moveTo .host
      (.waiting group.loop.nextFuture) }

/-- The group when the host has left it. -/
def departed (group : TaskGroup.State Party ε) (unfinished : List Party) :
    TaskGroup.State Party ε :=
  TaskGroup.departed { awake group with unfinished := unfinished } .host false

theorem excAtExit_cases {group : TaskGroup.State Party ε} (hexc : OnlyAnyio group) :
    excAtExit group = none ∨ excAtExit group = some (.cancelled true) := by
  rw [excAtExit]
  split_ifs
  · exact .inr rfl
  · exact hexc

/-- The scope catches an interruption unless the enclosing scope is cancelled, and nothing else. -/
theorem afterExit_eq (hothers : OnlyOthers s.group) (hexc : OnlyAnyio s.group)
    (hstream : s'.connectedStream = s.connectedStream) (herrors : s'.oserrors = s.oserrors) :
    afterExit s' (TaskGroup.exitResult (!s.outerCancelled) (TaskGroup.leaving (awake s.group))) =
      { s' with host := .ended (endingOf s) } := by
  have hafter : afterGroup s' = afterGroup s := by
    simp only [afterGroup, hstream, herrors]
  have hempty : TaskGroup.leaving (awake s.group) = excAtExit s.group →
      (endingOf s = if (excAtExit s.group).isSome ∧ s.outerCancelled = true then
        .raised (.cancelled true) none else afterGroup s) →
      afterExit s' (TaskGroup.exitResult (!s.outerCancelled)
        (TaskGroup.leaving (awake s.group))) = { s' with host := .ended (endingOf s) } := by
    intro hleaving hending
    rw [hleaving, hending, ← hafter]
    obtain hx | hx := excAtExit_cases hexc
    · simp [hx, TaskGroup.exitResult, afterExit]
    · cases houter : s.outerCancelled <;>
        simp [hx, TaskGroup.exitResult, TaskGroup.exitAnswer, TaskGroup.Exc.leaves, afterExit]
  cases hexcs : s.group.exceptions with
  | none => exact hempty (by simp [TaskGroup.leaving, awake, hexcs]) (by simp [endingOf, hexcs])
  | some excs =>
      cases excs with
      | nil => exact hempty (by simp [TaskGroup.leaving, awake, hexcs]) (by simp [endingOf, hexcs])
      | cons e es =>
          obtain ⟨x, rfl⟩ := hothers _ hexcs e List.mem_cons_self
          simp [TaskGroup.leaving, awake, hexcs, TaskGroup.exitResult, TaskGroup.exitAnswer,
            TaskGroup.Exc.leaves, TaskGroup.leavesOfEach, endingOf, afterExit]

/-- A cancellation by the host itself only reaches attempts. -/
theorem noticed_cases (s : State α ε) (reached : List Nat) :
    ∃ group ready attempt shielded, noticed s reached = { s with
      group := group
      ready := ready
      attempt := attempt
      waitShielded := shielded } := by
  rw [noticed]
  split_ifs
  · rw [cancelScope]
    split_ifs
    · exact ⟨_, _, _, _, rfl⟩
    · exact ⟨_, _, _, _, rfl⟩
  · exact ⟨_, _, _, _, rfl⟩

@[simp] theorem noticed_host (s : State α ε) (reached : List Nat) :
    (noticed s reached).host = s.host := by
  obtain ⟨_, _, _, _, h⟩ := noticed_cases s reached
  rw [h]

@[simp] theorem noticed_connectedStream (s : State α ε) (reached : List Nat) :
    (noticed s reached).connectedStream = s.connectedStream := by
  obtain ⟨_, _, _, _, h⟩ := noticed_cases s reached
  rw [h]

@[simp] theorem noticed_oserrors (s : State α ε) (reached : List Nat) :
    (noticed s reached).oserrors = s.oserrors := by
  obtain ⟨_, _, _, _, h⟩ := noticed_cases s reached
  rw [h]

/-- In `__aexit__()` the host is at its checkpoint or in a wait for tasks. -/
theorem exit_point {p : TaskGroup.Point Party} (h : p.isExit = true) :
    p = .checkpoint ∨ ∃ f, p = .waiting f := by
  cases p <;> simp [TaskGroup.Point.isExit] at h ⊢

/-- The step of the host in `__aexit__()` is one of the loop over the tasks. -/
theorem resume_exit (linked : Linked s) (hs : s.host = .exiting) (hexc : OnlyAnyio s.group)
    (reached : List Nat) (caught : Bool) :
    ∃ unfinished, TaskGroup.resume (noticed s reached).group .host true caught =
      TaskGroup.waitForTasks { awake s.group with unfinished := unfinished } .host caught := by
  have hexit := linked.inExit hs
  have hexc' : OnlyAnyio (noticed s reached).group := by
    rw [noticed_group]
    exact hexc
  have hgroup : (noticed s reached).group.loop = s.group.loop := by rw [noticed_group]
  obtain hp | ⟨f, hp⟩ := exit_point hexit.point
  · refine ⟨(noticed s reached).group.unfinished, ?_⟩
    rw [resume_checkpoint (by rw [hgroup, hp]) (by rw [hgroup, linked.calm])
      (by rw [noticed_group]; exact hexit.checkpoint hp), awake_noticed]
  · refine ⟨[], ?_⟩
    rw [resume_waiting (by rw [hgroup, hp]) hexc', awake_noticed]
    rfl

/-- The host goes on waiting for the tasks that are left. -/
theorem resumeExit_waits (linked : Linked s) (hs : s.host = .exiting) (hexc : OnlyAnyio s.group)
    (htasks : s.group.tasks ≠ []) (reached : List Nat) :
    resumeExit s reached = suspended { noticed s reached with group := waitsAgain s.group } := by
  obtain ⟨x, heq⟩ := resume_exit linked hs hexc reached (!s.outerCancelled)
  have htasks' : (awake s.group).tasks ≠ [] := htasks
  simp only [resumeExit, heq, TaskGroup.waitForTasks, htasks', if_false, afterExit]
  rfl

/-- The host leaves the group once there are no tasks left. -/
theorem resumeExit_ends (linked : Linked s) (hs : s.host = .exiting) (hexc : OnlyAnyio s.group)
    (hothers : OnlyOthers s.group) (htasks : s.group.tasks = []) (reached : List Nat) :
    ∃ unfinished, resumeExit s reached = { noticed s reached with
      group := departed s.group unfinished
      host := .ended (endingOf s) } := by
  obtain ⟨x, heq⟩ := resume_exit linked hs hexc reached (!s.outerCancelled)
  have htasks' : (awake s.group).tasks = [] := htasks
  refine ⟨x, ?_⟩
  rw [resumeExit, heq, TaskGroup.waitForTasks, if_pos htasks', TaskGroup.deactivate_eq]
  apply afterExit_eq hothers hexc
  · exact noticed_connectedStream s reached
  · exact noticed_oserrors s reached

theorem Linked.noticed (linked : Linked s) (reached : List Nat) : Linked (noticed s reached) := by
  rw [ConnectTcp.noticed]
  split_ifs
  · exact (linked.cancelScope false reached).keep rfl rfl (fun _ => rfl) (.inl rfl)
  · exact linked

/-- The host has gone on in `__aexit__()`, as far as the group is concerned. -/
theorem Linked.exitStep (linked : Linked s) {group : TaskGroup.State Party ε} {h : HostPoint ε}
    (hinv : TaskGroup.Inv group) (hhost : group.hostTask = s.group.hostTask)
    (hstatus : group.taskStatus = s.group.taskStatus)
    (htask : ∀ u, u ≠ .host → group.loop.task u = s.group.loop.task u)
    (hcalm : (group.loop.task .host).mustCancel = false)
    (hstands : Stands { s with group := group } h) :
    Linked { s with group := group, host := h } := by
  refine ⟨⟨hinv, hhost.trans linked.hostTask, ?_, ?_, ?_⟩, ?_⟩
  · intro u
    cases eq_or_ne u .host with
    | inl hu => rw [hu, hcalm]
    | inr hu => exact (congrArg Task.mustCancel (htask u hu)).trans (linked.calm u)
  · intro i
    exact (TaskGroup.point_congr (htask _ (by simp))).trans (linked.points i)
  · intro i
    rw [hstatus, linked.spawned]
  · exact hstands.congr rfl rfl rfl id rfl rfl fun _ => Iff.rfl

theorem waitsAgain_task {group : TaskGroup.State Party ε} {u : Party} (hu : u ≠ .host) :
    (waitsAgain group).loop.task u = group.loop.task u := by
  simp [waitsAgain, Loop.moveTo_task_of_ne hu, Loop.resumeAt_task_of_ne hu]

theorem departed_task {group : TaskGroup.State Party ε} {unfinished : List Party} {u : Party}
    (hu : u ≠ .host) : (departed group unfinished).loop.task u = group.loop.task u := by
  simp [departed, TaskGroup.departed, awake, Loop.moveTo_task_of_ne hu, Loop.resumeAt_task_of_ne hu]

@[simp] theorem excAtExit_noticed (s : State α ε) (reached : List Nat) :
    excAtExit (noticed s reached).group = excAtExit s.group := by
  rw [noticed_group]
  rfl

/-- The group when the host runs again, whatever it waited for. -/
theorem Linked.awake_inv (linked : Linked s) (hs : s.host = .exiting) (unfinished : List Party) :
    TaskGroup.Inv { awake s.group with unfinished := unfinished } := by
  have hpoint := (linked.inExit hs).point
  have hwoken := linked.inv.woken (t := .host) (by
    intro h
    simp [h, TaskGroup.Point.isExit] at hpoint)
  exact hwoken.frame ⟨rfl, rfl, rfl, rfl, rfl⟩ fun _ => rfl

theorem Linked.waitsAgain_inv (linked : Linked s) (hs : s.host = .exiting)
    (htasks : s.group.tasks ≠ []) : TaskGroup.Inv (waitsAgain s.group) := by
  have hinv := (linked.awake_inv hs []).waitForTasks linked.hostTask (linked.inExit hs).phase
    (by simp [awake]) false
  rw [TaskGroup.waitForTasks, if_neg (show (awake s.group).tasks ≠ [] from htasks)] at hinv
  exact hinv

theorem Linked.departed_inv (linked : Linked s) (hs : s.host = .exiting)
    (htasks : s.group.tasks = []) (unfinished : List Party) :
    TaskGroup.Inv (departed s.group unfinished) := by
  have hinv := (linked.awake_inv hs unfinished).waitForTasks linked.hostTask (linked.inExit hs).phase
    (by simp [awake]) false
  rw [TaskGroup.waitForTasks, if_pos (show (awake s.group).tasks = [] from htasks),
    TaskGroup.deactivate_eq] at hinv
  exact hinv

/-- The host in its next wait for the tasks that are left. -/
theorem Linked.goesOn (linked : Linked s) (hs : s.host = .exiting)
    (htasks : s.group.tasks ≠ []) (reached : List Nat) :
    Linked { ConnectTcp.noticed s reached with group := waitsAgain s.group } := by
  have hnoticed := linked.noticed reached
  have hgroup := noticed_group s reached
  have hstep : Linked { ConnectTcp.noticed s reached with
      group := waitsAgain s.group
      host := .exiting } := by
    apply hnoticed.exitStep (linked.waitsAgain_inv hs htasks)
    · rw [hgroup]
      rfl
    · rw [hgroup]
      rfl
    · intro u hu
      rw [hgroup, waitsAgain_task hu]
    · simp [waitsAgain]
    · refine ⟨(linked.inExit hs).phase, ?_, ?_, fun hnone => ?_⟩
      · simp [waitsAgain, TaskGroup.Point.isExit]
      · simp [waitsAgain]
      · apply (hnoticed.inExit (by simpa using hs)).started
        rw [hgroup]
        exact (excAtExit_none.mp hnone).2
  rwa [show HostPoint.exiting = (ConnectTcp.noticed s reached).host by simp [hs]] at hstep

theorem Linked.resumeExit (linked : Linked s) (hs : s.host = .exiting) (hexc : OnlyAnyio s.group)
    (hothers : OnlyOthers s.group) (reached : List Nat) : Linked (resumeExit s reached) := by
  have hnoticed := linked.noticed reached
  have hgroup := noticed_group s reached
  cases htasks : s.group.tasks with
  | nil =>
      obtain ⟨x, hends⟩ := resumeExit_ends linked hs hexc hothers htasks reached
      rw [hends]
      apply hnoticed.exitStep (linked.departed_inv hs htasks x)
      · rw [hgroup]
        rfl
      · rw [hgroup]
        rfl
      · intro u hu
        rw [hgroup, departed_task hu]
      · simp [departed, TaskGroup.departed, awake]
      · rfl
  | cons u rest =>
      have hsome : s.group.tasks ≠ [] := by simp [htasks]
      rw [resumeExit_waits linked hs hexc hsome reached]
      exact (linked.goesOn hs hsome reached).suspended

theorem Linked.timeout (linked : Linked s) : Linked (timeout s) := by
  rw [ConnectTcp.timeout]
  split
  · rename_i i hs
    exact linked.keep rfl rfl (fun _ => rfl) (.inr ⟨i, _, _, _, _, hs, rfl⟩)
  · rename_i i f t _ hs
    exact linked.keep rfl rfl (fun _ => rfl) (.inr ⟨i, _, t, _, _, hs, rfl⟩)
  · exact linked

theorem Linked.expire (linked : Linked s) (i : Nat) : Linked (expire s i) := by
  rw [ConnectTcp.expire]
  split
  · rename_i j t hs
    split_ifs
    · exact linked.keep rfl rfl (fun _ => rfl) (.inr ⟨j, _, t, _, _, hs, rfl⟩)
    · exact linked
  · exact linked

theorem Linked.cancelOuter (linked : Linked s) (reached : List Nat) :
    Linked (cancelOuter s reached) := by
  have called : Linked { s with outerCancelled := true } :=
    linked.keep rfl rfl (fun _ => rfl) (.inl rfl)
  rw [ConnectTcp.cancelOuter]
  dsimp only
  split_ifs
  · exact linked
  · exact called.push _
  · exact (called.deliver true reached).push _

@[simp] theorem setEvent_attempt (s : State α ε) (i : Nat) :
    (setEvent s i).attempt = s.attempt := by
  rw [setEvent]
  split
  · split_ifs <;> rfl
  · rfl

theorem reachHost_attempt (s : State α ε) : (reachHost s).attempt = s.attempt := by
  rw [reachHost]
  split
  · rfl
  · split
    · split_ifs <;> rfl
    · rfl
  · rfl

/-- A delivery of cancellation marks what it reaches. -/
theorem deliver_attempt (s : State α ε) (toHost : Bool) (reached : List Nat) (i : Nat) :
    (deliver s toHost reached).attempt i =
      if i ∈ reached then (s.attempt i).interrupt else s.attempt i := by
  rw [deliver]
  split_ifs with hhost hi
  · simp [reachAttempts, reachHost_attempt, hi]
  · simp [reachAttempts, reachHost_attempt, hi]
  · simp [reachAttempts, *]
  · simp [reachAttempts, *]

@[simp] theorem cancelScope_point (s : State α ε) (toHost : Bool) (reached : List Nat) (i : Nat) :
    ((cancelScope s toHost reached).attempt i).point = (s.attempt i).point := by
  rw [cancelScope]
  split_ifs
  · rfl
  · rw [startDelivery, push_attempt, deliver_attempt]
    split_ifs
    · exact Attempt.interrupt_point _
    · rfl

/-- The rest of `try_connect()` after its connection attempt. -/
theorem Linked.tryConnect (linked : Linked s) {b : Bool} (hi : s.attempt i = .connecting b)
    (how : Ends ε) (reached : List Nat) : Linked (tryConnect s i how reached) := by
  have hout : (s.attempt i).point = .outside := by rw [hi, Attempt.point]
  cases how with
  | connected =>
      rw [ConnectTcp.tryConnect]
      split
      · have won : Linked { s with
            connectedStream := some i
            stream := Function.update s.stream i .opened } :=
          linked.keep rfl rfl (fun _ => rfl) (.inl rfl)
        apply ((won.cancelScope true reached).setEvent i).finishAttempt
        rw [setEvent_attempt, cancelScope_point]
        exact hout
      · apply linked.moves (a := .closing false) (i := i)
        · simp
        · simp [hi]
        · simp [hout]
        · rfl
        · exact ⟨rfl, rfl, rfl, rfl, rfl⟩
        · exact fun _ _ => rfl
        · exact (linked.points i).trans hout
        · exact linked.calm _
        · rfl
        · rfl
        · rfl
  | osError e =>
      have noted : Linked { s with oserrors := s.oserrors ++ [e] } :=
        linked.keep rfl rfl (fun _ => rfl) (.inl rfl)
      apply (noted.setEvent i).finishAttempt
      rw [setEvent_attempt]
      exact hout
  | other e =>
      apply (linked.setEvent i).finishAttempt
      rw [setEvent_attempt]
      exact hout
  | cancelled =>
      apply (linked.setEvent i).finishAttempt
      rw [setEvent_attempt]
      exact hout

end Anyio.ConnectTcp
