import Anyio.ConnectTcp.Model
import Anyio.TaskGroup.Exit
import Anyio.TaskGroup.Steps

/-!
# What the steps of `connect_tcp()` keep

The group sees each attempt where it stands, and the host where it stands.
The stream that is stored is the only one that stays open: one that comes
later is closed by its own attempt.
-/

namespace Anyio.ConnectTcp

open Asyncio Library
open TaskGroup (Exc)

variable {α ε : Type*}

/-- Where the group sees the task of an attempt. -/
def Attempt.point : Attempt ε → TaskGroup.Point Party
  | .unborn => .unborn
  | .created => .created
  | .connecting _ => .outside
  | .closing _ => .outside
  | .ended _ => .finished

/-- The host is in the block of the group, and starts with the address `i` next. -/
structure InBlock (s : State α ε) (i : Nat) : Prop where
  phase : s.group.phase = .body
  active : s.group.active = true
  outside : s.group.loop.point .host = .outside
  started : ∀ j, s.attempt j = .unborn ↔ i ≤ j

/-- The host is in `__aexit__()`. -/
structure InExit (s : State α ε) : Prop where
  phase : s.group.phase = .exiting
  point : (s.group.loop.point .host).isExit = true
  checkpoint : s.group.loop.point .host = .checkpoint → s.group.tasks = []
  started : s.group.excVal = none → ∀ i < s.targetAddrs.length, s.attempt i ≠ .unborn

/-- Where the group sees the host. -/
def Stands (s : State α ε) : HostPoint ε → Prop
  | .eventWait i _ _ => i < s.targetAddrs.length ∧ InBlock s (i + 1)
  | .exiting => InExit s
  | .ended _ => s.group.phase = .left

/-- The group and the attempts agree. -/
structure Agree (s : State α ε) : Prop where
  inv : TaskGroup.Inv s.group
  hostTask : s.group.hostTask = some .host
  calm : ∀ u, (s.group.loop.task u).mustCancel = false
  points : ∀ i, s.group.loop.point (.attempt i) = (s.attempt i).point
  spawned : ∀ i, s.group.taskStatus (.attempt i) ≠ none ↔ s.attempt i ≠ .unborn

/-- The group, the attempts and the host agree. -/
structure Linked (s : State α ε) : Prop extends Agree s where
  stands : Stands s s.host

variable {s s' : State α ε} {i j : Nat} {reached : List Nat}

@[simp] theorem Attempt.interrupt_point (a : Attempt ε) : a.interrupt.point = a.point := by
  cases a <;> rfl

@[simp] theorem Attempt.interrupt_unborn {a : Attempt ε} :
    a.interrupt = .unborn ↔ a = .unborn := by
  cases a <;> simp [Attempt.interrupt]

@[simp] theorem Attempt.interrupt_ended {a : Attempt ε} {how : Ends ε} :
    a.interrupt = .ended how ↔ a = .ended how := by
  cases a <;> simp [Attempt.interrupt]

@[simp] theorem Attempt.point_unborn {a : Attempt ε} : a.point = .unborn ↔ a = .unborn := by
  cases a <;> simp [Attempt.point]

theorem Attempt.point_finished {a : Attempt ε} :
    a.point = .finished ↔ ∃ how, a = .ended how := by
  cases a <;> simp [Attempt.point]

/-- What the host finds where it stands does not change. -/
theorem Stands.congr {h : HostPoint ε} (stands : Stands s h)
    (hphase : s'.group.phase = s.group.phase) (hactive : s'.group.active = s.group.active)
    (hpoint : s'.group.loop.point .host = s.group.loop.point .host)
    (htasks : s.group.tasks = [] → s'.group.tasks = [])
    (hexcVal : s'.group.excVal = s.group.excVal) (haddrs : s'.targetAddrs = s.targetAddrs)
    (hunborn : ∀ i, s'.attempt i = .unborn ↔ s.attempt i = .unborn) : Stands s' h := by
  cases h with
  | eventWait i f t =>
      obtain ⟨hlt, block⟩ := stands
      refine ⟨haddrs ▸ hlt, hphase.trans block.phase, hactive.trans block.active,
        hpoint.trans block.outside, fun j => ?_⟩
      rw [hunborn, block.started]
  | exiting =>
      refine ⟨hphase.trans stands.phase, ?_, fun hcheck => ?_, fun hnone i hi => ?_⟩
      · rw [hpoint]
        exact stands.point
      · exact htasks (stands.checkpoint (hpoint.symm.trans hcheck))
      · rw [ne_eq, hunborn]
        exact stands.started (hexcVal.symm.trans hnone) i (haddrs ▸ hi)
  | ended e => exact hphase.trans stands

/-- The host may stand in the same wait with another future. -/
theorem Stands.same {h : HostPoint ε} (stands : Stands s s'.host)
    (hhost : h = s'.host ∨ ∃ i f t f' t', s'.host = .eventWait i f t ∧ h = .eventWait i f' t') :
    Stands s h := by
  obtain hsame | ⟨i, f, t, f', t', hold, hnew⟩ := hhost
  · rw [hsame]
    exact stands
  · rw [hnew]
    rw [hold] at stands
    exact stands

/-- The group, the attempts and the host stay where they are. -/
theorem Linked.congr (linked : Linked s) (hinv : TaskGroup.Inv s'.group)
    (hgroup : TaskGroup.SameGroup s.group s'.group)
    (hcalm : ∀ u, (s'.group.loop.task u).mustCancel = false)
    (hpoints : ∀ u, s'.group.loop.point u = s.group.loop.point u)
    (hexcVal : s'.group.excVal = s.group.excVal) (haddrs : s'.targetAddrs = s.targetAddrs)
    (hattempt : ∀ i, (s'.attempt i).point = (s.attempt i).point)
    (hhost : s'.host = s.host ∨ ∃ i f t f' t', s.host = .eventWait i f t ∧
      s'.host = .eventWait i f' t') : Linked s' := by
  have hunborn : ∀ i, s'.attempt i = .unborn ↔ s.attempt i = .unborn := by
    intro i
    rw [← Attempt.point_unborn, hattempt, Attempt.point_unborn]
  refine ⟨⟨hinv, ?_, hcalm, ?_, ?_⟩, ?_⟩
  · rw [hgroup.hostTask, linked.hostTask]
  · intro i
    rw [hpoints, hattempt, linked.points]
  · intro i
    rw [hgroup.taskStatus, linked.spawned]
    exact (not_congr (hunborn i)).symm
  · have hstands := Stands.congr linked.stands hgroup.phase hgroup.active (hpoints .host)
      (fun h => hgroup.tasks.trans h) hexcVal haddrs hunborn
    exact hstands.same hhost

/-- Nothing happens to the group. -/
theorem Linked.keep (linked : Linked s) (hgroup : s'.group = s.group)
    (haddrs : s'.targetAddrs = s.targetAddrs)
    (hattempt : ∀ i, (s'.attempt i).point = (s.attempt i).point)
    (hhost : s'.host = s.host ∨ ∃ i f t f' t', s.host = .eventWait i f t ∧
      s'.host = .eventWait i f' t') : Linked s' := by
  apply linked.congr
  · rw [hgroup]
    exact linked.inv
  · rw [hgroup]
    exact ⟨rfl, rfl, rfl, rfl, rfl⟩
  · rw [hgroup]
    exact linked.calm
  · intro u
    rw [hgroup]
  · rw [hgroup]
  · exact haddrs
  · exact hattempt
  · exact hhost

theorem Linked.notes (linked : Linked s) (errors : List ε) :
    Linked { s with oserrors := errors } :=
  linked.keep rfl rfl (fun _ => rfl) (.inl rfl)

theorem Attempt.eq_created {a : Attempt ε} (h : (a matches .created) = true) : a = .created := by
  cases a with
  | created => rfl
  | _ => cases h

theorem Linked.push (linked : Linked s) (handles : List Handle) : Linked (push s handles) :=
  linked.keep rfl rfl (fun _ => rfl) (.inl rfl)

theorem Linked.reachAttempts (linked : Linked s) (reached : List Nat) :
    Linked (reachAttempts s reached) := by
  apply linked.keep
  · rfl
  · rfl
  · intro i
    simp only [ConnectTcp.reachAttempts]
    split_ifs
    · exact Attempt.interrupt_point _
    · rfl
  · exact .inl rfl

theorem Linked.reachHost (linked : Linked s) : Linked (reachHost s) := by
  rw [ConnectTcp.reachHost]
  split
  · rename_i i hs
    exact linked.keep rfl rfl (fun _ => rfl) (.inr ⟨i, _, _, _, _, hs, rfl⟩)
  · split
    · rename_i hs f hp
      split_ifs with hf
      · have hwaits : s.group.loop.waits .host = .future f := by
          simp [Loop.waits, hp, Coroutine.waits]
        apply linked.congr
        · exact linked.inv.cancel (by simp [hp]) (by simp [hp])
        · exact ⟨rfl, rfl, rfl, rfl, rfl⟩
        · intro u
          cases eq_or_ne u .host with
          | inl hu =>
              rw [hu]
              exact (Loop.cancel_mustCancel_of_pending hwaits hf.2).trans (linked.calm .host)
          | inr hu =>
              exact (congrArg Task.mustCancel (Loop.cancel_task_of_ne hu)).trans (linked.calm u)
        · exact fun u => Loop.cancel_point _ _ u
        · rfl
        · rfl
        · exact fun _ => rfl
        · exact .inl rfl
      · exact linked
    · exact linked
  · exact linked

theorem Linked.deliver (linked : Linked s) (toHost : Bool) (reached : List Nat) :
    Linked (deliver s toHost reached) := by
  rw [ConnectTcp.deliver]
  split_ifs
  · exact linked.reachHost.reachAttempts reached
  · exact linked.reachAttempts reached

/-- The group is cancelled. -/
theorem Linked.called (linked : Linked s) (b : Bool) :
    Linked { s with group := { s.group with cancelCalled := b } } := by
  apply linked.congr
  · exact linked.inv.frame ⟨rfl, rfl, rfl, rfl, rfl⟩ fun _ => rfl
  · exact ⟨rfl, rfl, rfl, rfl, rfl⟩
  · exact linked.calm
  · exact fun _ => rfl
  · rfl
  · rfl
  · exact fun _ => rfl
  · exact .inl rfl

theorem Linked.startDelivery (linked : Linked s) (toHost : Bool) (reached : List Nat) :
    Linked (startDelivery s toHost reached) :=
  (linked.deliver toHost reached).push _

theorem Linked.cancelScope (linked : Linked s) (toHost : Bool) (reached : List Nat) :
    Linked (cancelScope s toHost reached) := by
  rw [ConnectTcp.cancelScope]
  split_ifs
  · exact linked
  · exact (linked.called true).startDelivery toHost reached

theorem Linked.setEvent (linked : Linked s) (i : Nat) : Linked (setEvent s i) := by
  rw [ConnectTcp.setEvent]
  split
  · rename_i j t hs
    split_ifs
    · exact linked.keep rfl rfl (fun _ => rfl) (.inr ⟨j, _, t, _, t, hs, rfl⟩)
    · exact linked
  · exact linked

/-- A task of an attempt moves on. -/
theorem Linked.moves (linked : Linked s) {a : Attempt ε} (ha : a ≠ .unborn)
    (hi : s.attempt i ≠ .unborn) (hlive : (s.attempt i).point ≠ .finished)
    (hattempt : s'.attempt = Function.update s.attempt i a)
    (hgroup : TaskGroup.SameGroup s.group s'.group)
    (htask : ∀ u, u ≠ .attempt i → s'.group.loop.task u = s.group.loop.task u)
    (hpoint : s'.group.loop.point (.attempt i) = a.point)
    (hcalm : (s'.group.loop.task (.attempt i)).mustCancel = false)
    (hexcVal : s'.group.excVal = s.group.excVal) (haddrs : s'.targetAddrs = s.targetAddrs)
    (hhost : s'.host = s.host) : Linked s' := by
  have hpoints : ∀ u, u ≠ .attempt i → s'.group.loop.point u = s.group.loop.point u :=
    fun u hu => TaskGroup.point_congr (htask u hu)
  have hunborn : ∀ j, s'.attempt j = .unborn ↔ s.attempt j = .unborn := by
    intro j
    rw [hattempt, Function.update_apply]
    split_ifs with hj
    · simp [ha, hj, hi]
    · rfl
  refine ⟨⟨?_, ?_, ?_, ?_, ?_⟩, ?_⟩
  · apply linked.inv.move (.attempt i) hgroup htask
    · rw [linked.points]
      exact hlive
    · rw [hpoint]
      exact fun h => ha (Attempt.point_unborn.mp h)
    · rw [hpoint]
      cases a <;> rfl
    · intro c f h
      rw [hpoint] at h
      cases a <;> cases h
    · exact fun _ => hcalm
  · rw [hgroup.hostTask, linked.hostTask]
  · intro u
    cases eq_or_ne u (.attempt i) with
    | inl hu => rw [hu, hcalm]
    | inr hu => rw [htask u hu, linked.calm]
  · intro j
    rw [hattempt, Function.update_apply]
    split_ifs with hj
    · rw [hj, hpoint]
    · rw [hpoints _ (by simpa using hj), linked.points]
  · intro j
    rw [hgroup.taskStatus, linked.spawned]
    exact (not_congr (hunborn j)).symm
  · rw [hhost]
    exact linked.stands.congr hgroup.phase hgroup.active (hpoints .host (by simp))
      (fun h => hgroup.tasks.trans h) hexcVal haddrs hunborn

/-- The task of an attempt that has come to one of its awaits is not done. -/
theorem Linked.finishAttempt (linked : Linked s) (hout : (s.attempt i).point = .outside)
    (how : Ends ε) (exc : Option (Exc ε)) : Linked (finishAttempt s i how exc) := by
  rw [ConnectTcp.finishAttempt]
  apply Linked.push
  apply linked.moves (a := .ended how) (i := i)
  · simp
  · intro h
    rw [h] at hout
    cases hout
  · simp [hout]
  · rfl
  · exact ⟨rfl, rfl, rfl, rfl, rfl⟩
  · exact fun u hu => Loop.moveTo_task_of_ne hu _
  · simp [Attempt.point]
  · simp [linked.calm]
  · rfl
  · rfl
  · rfl

/-- The first step of an attempt. -/
theorem resume_created (linked : Linked s) (hi : s.attempt i = .created) :
    TaskGroup.resume s.group (.attempt i) true false =
      ({ s.group with loop := s.group.loop.resumeAt (.attempt i) .outside }, .returned false) := by
  have hp : s.group.loop.point (.attempt i) = .created := by
    rw [linked.points, hi]
    rfl
  simp [TaskGroup.resume, hp, Loop.throws, Loop.waits, Coroutine.waits, linked.calm]

theorem Linked.start (linked : Linked s) (hi : s.attempt i = .created) :
    Linked { s with
      attempt := Function.update s.attempt i (.connecting false)
      group := (TaskGroup.resume s.group (.attempt i) true false).1 } := by
  rw [resume_created linked hi]
  apply linked.moves (a := .connecting false) (i := i)
  · simp
  · simp [hi]
  · simp [hi, Attempt.point]
  · rfl
  · exact ⟨rfl, rfl, rfl, rfl, rfl⟩
  · exact fun u hu => Loop.resumeAt_task_of_ne hu _
  · simp [Attempt.point]
  · simp
  · rfl
  · rfl
  · rfl

/-- What `task_done` of the task `u` does to `_exceptions` and to the scope of the group. -/
inductive Reported (group : TaskGroup.State Party ε) (u : Party) (outerCancelled : Bool) :
    Option (List (Exc ε)) → Bool → Prop
  | nothing (he : group.exception u = none) :
      Reported group u outerCancelled group.exceptions group.cancelCalled
  | cancelled {b} (he : group.exception u = some (.cancelled b)) :
      Reported group u outerCancelled group.exceptions (group.cancelCalled || !outerCancelled)
  | late {e} (he : group.exception u = some e) (hnone : group.exceptions = none) :
      Reported group u outerCancelled none group.cancelCalled
  | listed {e excs} (he : group.exception u = some e) (hcancelled : e.isCancelled = false)
      (hsome : group.exceptions = some excs) :
      Reported group u outerCancelled (some (excs ++ [e])) (group.cancelCalled || !outerCancelled)

theorem taskDone_cases (group : TaskGroup.State Party ε) (u : Party) (outerCancelled : Bool) :
    ∃ excs called, Reported group u outerCancelled excs called ∧
      (TaskGroup.taskDone group u none outerCancelled).1 =
        { TaskGroup.removed group u with exceptions := excs, cancelCalled := called } := by
  unfold TaskGroup.taskDone
  cases he : group.exception u with
  | none => exact ⟨_, _, .nothing he, rfl⟩
  | some e =>
      dsimp only
      unfold TaskGroup.report
      split_ifs with hcancelled
      · cases e with
        | cancelled b => exact ⟨_, _, .cancelled he, rfl⟩
        | known e => cases hcancelled
        | other e => cases hcancelled
        | group message es => cases hcancelled
      · cases hexcs : group.exceptions with
        | none => exact ⟨none, _, .late he hexcs, rfl⟩
        | some excs => exact ⟨_, _, .listed he (by simpa using hcancelled) hexcs, rfl⟩

/-- A finished child has left the group. -/
theorem Linked.removed (linked : Linked s) {how : Ends ε} (hi : s.attempt i = .ended how)
    (excs : Option (List (Exc ε))) (called : Bool) :
    Linked { s with group := { TaskGroup.removed s.group (.attempt i) with
      exceptions := excs
      cancelCalled := called } } := by
  have hfinished : s.group.loop.point (.attempt i) = .finished := by
    rw [linked.points, hi]
    rfl
  refine ⟨⟨?_, linked.hostTask, linked.calm, linked.points, linked.spawned⟩, ?_⟩
  · apply linked.inv.congr
    · rfl
    · rfl
    · rfl
    · rfl
    · intro u hu hmem
      have hne : u ≠ .attempt i := fun h => hu (h ▸ hfinished)
      exact (List.mem_erase_of_ne hne).mpr hmem
    · exact fun _ => rfl
  · apply linked.stands.congr
    · rfl
    · rfl
    · rfl
    · intro h
      simp [TaskGroup.removed, h]
    · rfl
    · rfl
    · exact fun _ => Iff.rfl

theorem Linked.taskDone (linked : Linked s) {how : Ends ε} (hi : s.attempt i = .ended how)
    (reached : List Nat) : Linked (taskDone s i reached) := by
  have hdone : Linked { s with
      group := (TaskGroup.taskDone s.group (.attempt i) none s.outerCancelled).1 } := by
    obtain ⟨excs, called, -, heq⟩ := taskDone_cases s.group (.attempt i) s.outerCancelled
    rw [heq]
    exact linked.removed hi excs called
  rw [ConnectTcp.taskDone]
  dsimp only
  split_ifs
  · exact hdone.startDelivery true reached
  · exact hdone

/-- Only the waiter of the host may get its result. -/
theorem onCompletion_loop (group : TaskGroup.State Party ε) (u : Party) (f : FutureId) :
    (TaskGroup.onCompletion group u f).loop.task = group.loop.task := by
  simp only [TaskGroup.onCompletion]
  split_ifs <;> simp

theorem Linked.onCompletion (linked : Linked s) (i : Nat) (f : FutureId) :
    Linked (onCompletion s i f) := by
  have hdone : Linked { s with group := TaskGroup.onCompletion s.group (.attempt i) f } := by
    have htask := onCompletion_loop s.group (.attempt i) f
    apply linked.congr
    · exact linked.inv.frame ⟨rfl, rfl, rfl, rfl, rfl⟩ fun u => congrFun htask u
    · exact ⟨rfl, rfl, rfl, rfl, rfl⟩
    · intro u
      rw [show _ = s.group.loop.task u from congrFun htask u, linked.calm]
    · exact fun u => TaskGroup.point_congr (congrFun htask u)
    · rfl
    · rfl
    · exact fun _ => rfl
    · exact .inl rfl
  rw [ConnectTcp.onCompletion]
  split_ifs
  · dsimp only
    split_ifs
    · exact hdone.push _
    · exact hdone
  · exact linked

theorem Linked.suspended (linked : Linked s) : Linked (suspended s) := by
  rw [ConnectTcp.suspended]
  split
  · exact linked.push _
  · exact linked.push _
  · exact linked

/-- The group at the first await of `__aexit__()`. -/
theorem aexit_group (group : TaskGroup.State Party ε) (exc : Option (Exc ε)) :
    (TaskGroup.aexit group .host exc).1 =
      if group.tasks = [] then
        { TaskGroup.exiting group exc with loop := group.loop.moveTo .host .checkpoint }
      else
        { TaskGroup.exiting group exc with
          unfinished := group.tasks
          loop := group.loop.createFuture.moveTo .host (.waiting group.loop.nextFuture) } := by
  rw [TaskGroup.aexit_eq]
  split_ifs with htasks
  · simp
  · simp [TaskGroup.waitForTasks, htasks]

theorem exiting_excVal (group : TaskGroup.State Party ε) (exc : Option (Exc ε)) :
    (TaskGroup.exiting group exc).excVal = exc := by
  cases exc <;> rfl

/-- The host goes from the block into `__aexit__()`: without an exception after the last
address only. -/
theorem Agree.exits (agree : Agree s) (hout : s.group.loop.point .host = .outside)
    {exc : Option (Exc ε)}
    (hexc : exc = none → ∀ i < s.targetAddrs.length, s.attempt i ≠ .unborn) :
    Linked { s with
      host := .exiting
      waitShielded := false
      group := (TaskGroup.aexit s.group .host exc).1 } := by
  have hinv := agree.inv.aexit agree.hostTask hout exc
  rw [aexit_group] at hinv ⊢
  split_ifs at hinv ⊢ with htasks
  · refine ⟨⟨hinv, by simpa using agree.hostTask, ?_, ?_, by simpa using agree.spawned⟩,
      by simp, ?_, ?_, ?_⟩
    · intro u
      simpa using agree.calm u
    · intro i
      simpa using agree.points i
    · simp [TaskGroup.Point.isExit]
    · simpa using htasks
    · simpa [exiting_excVal] using hexc
  · refine ⟨⟨hinv, by simpa using agree.hostTask, ?_, ?_, by simpa using agree.spawned⟩,
      by simp, ?_, ?_, ?_⟩
    · intro u
      simpa using agree.calm u
    · intro i
      simpa using agree.points i
    · simp [TaskGroup.Point.isExit]
    · simp
    · simpa [exiting_excVal] using hexc

@[simp] theorem push_host (s : State α ε) (handles : List Handle) :
    (push s handles).host = s.host := rfl

@[simp] theorem push_group (s : State α ε) (handles : List Handle) :
    (push s handles).group = s.group := rfl

@[simp] theorem push_attempt (s : State α ε) (handles : List Handle) :
    (push s handles).attempt = s.attempt := rfl

/-- The cancellation of the group by its own host. -/
theorem cancelScope_group (s : State α ε) (reached : List Nat) :
    (cancelScope s false reached).group = { s.group with cancelCalled := true } := by
  rw [cancelScope]
  split_ifs with hcalled
  · rw [← hcalled]
  · rfl

theorem Linked.exitCancelled (linked : Linked s) (hout : s.group.loop.point .host = .outside)
    (reached : List Nat) : Linked (exitGroup s (some (.cancelled true)) reached) := by
  have called := linked.cancelScope false reached
  apply Linked.suspended
  apply called.toAgree.exits
  · rw [cancelScope_group]
    exact hout
  · intro h
    cases h

/-- The loop over the addresses is at its end. -/
theorem Agree.exitBlock (agree : Agree s) (block : InBlock s i)
    (hlength : s.targetAddrs.length ≤ i) (reached : List Nat) :
    Linked (exitGroup s none reached) := by
  apply Linked.suspended
  apply agree.exits block.outside
  intro _ j hj h
  have hij := (block.started j).mp h
  omega

theorem startSoon_group (block : InBlock s i) :
    (TaskGroup.startSoon s.group tryConnectFunc (.attempt i)).1 =
      TaskGroup.added s.group (.attempt i) none := by
  simp [TaskGroup.startSoon, TaskGroup.spawn, block.active, tryConnectFunc, TaskGroup.added]

/-- The host starts the attempt for the next address and waits for it. -/
theorem Agree.nextAddress (agree : Agree s) (block : InBlock s i) (expired : Bool) :
    Linked (nextAddress s i expired) := by
  rw [ConnectTcp.nextAddress]
  split
  · rename_i hlt
    apply Linked.push
    have hunborn : s.attempt i = .unborn := (block.started i).mpr le_rfl
    have hinv : TaskGroup.Inv (TaskGroup.startSoon s.group tryConnectFunc (.attempt i)).1 :=
      agree.inv.startSoon (by rw [agree.points, hunborn]; rfl) (fun _ hcheck => by
        simp [TaskGroup.AtCheckpoint, agree.hostTask, block.outside] at hcheck)
    rw [startSoon_group block] at hinv ⊢
    refine ⟨⟨hinv, agree.hostTask, ?_, ?_, ?_⟩, hlt, block.phase, block.active, ?_, ?_⟩
    · intro u
      simpa [TaskGroup.added] using agree.calm u
    · intro j
      cases eq_or_ne j i with
      | inl hj => simp [TaskGroup.added, hj, Attempt.point]
      | inr hj => simpa [TaskGroup.added, hj] using agree.points j
    · intro j
      cases eq_or_ne j i with
      | inl hj => simp [TaskGroup.added, hj]
      | inr hj => simpa [TaskGroup.added, hj] using agree.spawned j
    · simpa [TaskGroup.added] using block.outside
    · intro j
      cases eq_or_ne j i with
      | inl hj => simp [hj]
      | inr hj =>
          simp only [Function.update_of_ne hj, block.started]
          omega
  · rename_i hlt
    exact agree.exitBlock block (not_lt.mp hlt) []

theorem Linked.inBlock (linked : Linked s) {f : FutureState} {t : Bool}
    (hs : s.host = .eventWait i f t) : InBlock s (i + 1) := by
  have hstands := linked.stands
  rw [hs] at hstands
  exact hstands.2

theorem Linked.inExit (linked : Linked s) (hs : s.host = .exiting) : InExit s := by
  have hstands := linked.stands
  rwa [hs] at hstands

theorem enteredGroup_point (u : Party) :
    (enteredGroup ε).loop.point u = if u = .host then .outside else .unborn := by
  simp [enteredGroup]

theorem enteredGroup_calm (u : Party) :
    ((enteredGroup ε).loop.task u).mustCancel = false := by
  simp [enteredGroup, Loop.initial]

theorem enteredGroup_inv : TaskGroup.Inv (enteredGroup ε) := by
  constructor
  · intro u hu
    exact absurd rfl hu
  · intro t c f h
    rw [enteredGroup_point] at h
    split_ifs at h
  · rintro t ⟨⟩
    rw [enteredGroup_point]
    simp [enteredGroup, TaskGroup.initial]
  · intro t h
    rw [enteredGroup_point] at h
    split_ifs at h <;> cases h
  · exact fun t _ _ => enteredGroup_calm t
  · intro t h
    rw [enteredGroup_point] at h
    split_ifs at h
  · intro h
    cases h
  · intro h
    cases h

theorem Agree.entered (targetAddrs : List α) : Agree (entered ε targetAddrs) := by
  refine ⟨enteredGroup_inv, rfl, enteredGroup_calm, fun i => ?_, fun i => ?_⟩
  · exact enteredGroup_point (.attempt i)
  · simp [ConnectTcp.entered, enteredGroup, TaskGroup.initial]

theorem InBlock.entered (targetAddrs : List α) : InBlock (entered ε targetAddrs) 0 :=
  ⟨rfl, rfl, enteredGroup_point .host, fun j => by simp [ConnectTcp.entered]⟩

theorem Linked.initial (targetAddrs : List α) (expired : Bool) :
    Linked (initial ε targetAddrs expired) :=
  (Agree.entered targetAddrs).nextAddress (.entered targetAddrs) expired

end Anyio.ConnectTcp
