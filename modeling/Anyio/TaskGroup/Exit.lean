import Anyio.TaskGroup.Invariant
import Mathlib.Data.Fintype.Basic

/-!
# No child outlives the asyncio `TaskGroup`

When `__aexit__()` has ended, the tasks spawned through the group are finished
and it refuses new ones, in every run in which nothing happens to the group
during the checkpoint that the host makes without child tasks. There the group
is still active: a task spawned meanwhile is not waited for, and a cancelled
checkpoint leaves the group active.
-/

namespace Anyio.TaskGroup

open Asyncio Library

variable {τ ε : Type*} [DecidableEq τ]

/-- The host is in the checkpoint that it makes when it finds no child tasks. -/
def AtCheckpoint (s : State τ ε) : Prop := s.hostTask.map s.loop.point = some .checkpoint

instance (s : State τ ε) : Decidable (AtCheckpoint s) :=
  inferInstanceAs (Decidable (s.hostTask.map s.loop.point = some .checkpoint))

/-- During the checkpoint no task is spawned and the host is not cancelled. -/
def QuietCheckpoint (s : State τ ε) : Action τ ε → Prop
  | .startSoon func _ => func.notCoroutine = none → ¬ AtCheckpoint s
  | .start _ func _ => func.notCoroutine = none → ¬ AtCheckpoint s
  | .cancel t => s.loop.point t ≠ .checkpoint
  | _ => True

instance (s : State τ ε) (a : Action τ ε) : Decidable (QuietCheckpoint s a) :=
  match a with
  | .startSoon func _ => inferInstanceAs (Decidable (func.notCoroutine = none → ¬AtCheckpoint s))
  | .start _ func _ => inferInstanceAs (Decidable (func.notCoroutine = none → ¬AtCheckpoint s))
  | .cancel t => inferInstanceAs (Decidable (s.loop.point t ≠ .checkpoint))
  | .createTask _ | .aenter _ | .aexit _ _ | .started _ | .finish _ _ | .taskDone _ _
  | .onCompletion _ | .resume _ _ _ => .isTrue trivial

variable {s r : State τ ε} {t u h : τ} {func : Func}

omit [DecidableEq τ] in
/-- The host is the only task that can be in the checkpoint. -/
theorem Inv.no_checkpoint (inv : Inv s) (hn : ¬ AtCheckpoint s) (t : τ) :
    s.loop.point t ≠ .checkpoint := by
  intro ht
  obtain ⟨hhost, -⟩ := inv.exit t (by simp [ht, Point.isExit])
  exact hn (by simp [AtCheckpoint, hhost, ht])

theorem Inv.startSoon (inv : Inv s) (hnew : s.loop.point u = .unborn)
    (ok : func.notCoroutine = none → ¬ AtCheckpoint s) : Inv (startSoon s func u).1 := by
  unfold TaskGroup.startSoon
  cases hs : TaskGroup.spawn s func u none with
  | error e => exact inv
  | ok s' => exact inv.spawn hnew (inv.no_checkpoint (ok (spawn_cases hs).2.1)) hs

theorem Inv.start (inv : Inv s) (ht : s.loop.point t = .outside)
    (hnew : s.loop.point u = .unborn) (ok : func.notCoroutine = none → ¬ AtCheckpoint s) :
    Inv (start s t func u).1 := by
  have created : Inv { s with loop := s.loop.createFuture } :=
    inv.frame ⟨rfl, rfl, rfl, rfl, rfl⟩ fun _ => rfl
  unfold TaskGroup.start
  simp only
  cases hs : TaskGroup.spawn { s with loop := s.loop.createFuture } func u
      (some s.loop.nextFuture) with
  | error e => exact inv
  | ok s' =>
      have spawned := created.spawn (by simpa using hnew)
        (by simpa using inv.no_checkpoint (ok (spawn_cases hs).2.1)) hs
      obtain ⟨-, -, rfl⟩ := spawn_cases hs
      have htu : t ≠ u := by
        rintro rfl
        simp [ht] at hnew
      exact spawned.move t ⟨rfl, rfl, rfl, rfl, rfl⟩
        (fun v hv => by simp [Loop.moveTo_task_of_ne hv]) (by simp [htu, ht]) (by simp)
        (by simp [Point.isExit]) (by simp +contextual) (by simp)

omit [DecidableEq τ] in
theorem Inv.started (inv : Inv s) (f : FutureId) : Inv (started s f).1 := by
  unfold TaskGroup.started
  cases hf : s.loop.setResult f with
  | none =>
      simp only
      split_ifs <;> exact inv
  | some l =>
      obtain ⟨-, rfl⟩ := Loop.setResult_eq_some.mp hf
      exact inv.frame ⟨rfl, rfl, rfl, rfl, rfl⟩ fun _ => rfl

omit [DecidableEq τ] in
theorem Inv.report (inv : Inv s) (exc : Exc ε) (outerCancelled : Bool) :
    Inv (report s exc outerCancelled).1 := by
  unfold TaskGroup.report
  simp only
  split_ifs
  · exact inv.frame ⟨rfl, rfl, rfl, rfl, rfl⟩ fun _ => rfl
  · split
    · exact inv
    · exact inv.frame ⟨rfl, rfl, rfl, rfl, rfl⟩ fun _ => rfl

omit [DecidableEq τ] in
theorem Inv.setException (inv : Inv s) (f : FutureId) (exc : Exc ε) :
    Inv (setException s f exc) :=
  inv.frame ⟨rfl, rfl, rfl, rfl, rfl⟩ fun u => by simp [TaskGroup.setException]

theorem Inv.taskDone (inv : Inv s) (hu : s.loop.point u = .finished) (f : Option FutureId)
    (outerCancelled : Bool) : Inv (taskDone s u f outerCancelled).1 := by
  have removed : Inv { s with
      tasks := s.tasks.erase u
      doneCallbacks := s.doneCallbacks.erase u } := by
    refine inv.congr rfl rfl rfl rfl (fun v hv hmem => ?_) fun _ => rfl
    have hvu : v ≠ u := fun he => hv (he ▸ hu)
    exact (List.mem_erase_of_ne hvu).mpr hmem
  unfold TaskGroup.taskDone
  simp only
  split
  · exact removed.report _ _
  · split
    · exact removed
    · exact removed.report _ _
    · exact removed.setException _ _
  · exact removed
  · split_ifs
    · exact removed.setException _ _
    · exact removed

theorem Inv.aexit (inv : Inv s) (hhost : s.hostTask = some h)
    (hout : s.loop.point h = .outside) (excVal : Option (Exc ε)) : Inv (aexit s h excVal).1 := by
  have exiting : ∀ e b c x, Inv { s with
      phase := .exiting, excVal := e, cancelCalled := b, exceptions := c, unfinished := x } := by
    intro e b c x
    refine ⟨inv.kept, inv.starts, inv.host, fun t ht => ?_, inv.calm, inv.checkpoint,
      by simp, by simp⟩
    exact ⟨(inv.exit t ht).1, rfl⟩
  have main : ∀ r : State τ ε, Inv r → r.phase = .exiting → r.hostTask = s.hostTask →
      r.loop = s.loop → r.tasks = s.tasks →
      Inv (if s.tasks = [] then
        (({ r with loop := r.loop.moveTo h .checkpoint }, .suspended .checkpoint) :
          State τ ε × Result τ ε)
      else TaskGroup.waitForTasks r h false).1 := by
    intro r inv' hp hh hl ht
    have hout' : r.loop.point h = .outside := hl ▸ hout
    split_ifs with hempty
    · refine inv'.suspend (p := .checkpoint) rfl (hh.trans hhost) hp hout'
        (fun _ => inv'.childless (ht.trans hempty)) ⟨rfl, rfl, rfl, rfl, rfl⟩ fun u => ?_
      by_cases hu : u = h <;> simp [Loop.moveTo, hu]
    · exact inv'.waitForTasks (hh.trans hhost) hp hout' false
  unfold TaskGroup.aexit
  cases excVal with
  | none => exact main _ (exiting _ _ _ _) rfl rfl rfl rfl
  | some e => exact main _ (exiting _ _ _ _) rfl rfl rfl rfl

/-- The woken task is back in code of its own. -/
theorem Inv.woken (inv : Inv s) (ht : s.loop.point t ≠ .finished) :
    Inv { s with loop := s.loop.resumeAt t .outside } :=
  inv.move t ⟨rfl, rfl, rfl, rfl, rfl⟩ (fun u hu => by simp [Loop.resumeAt_task_of_ne hu]) ht
    (by simp) (by simp [Point.isExit]) (by simp) (by simp)

theorem Inv.resume (inv : Inv s) (anyio caught : Bool) :
    Inv (resume s t anyio caught).1 := by
  unfold TaskGroup.resume
  cases hp : s.loop.point t with
  | created =>
      simp only
      split_ifs
      · exact inv.move t ⟨rfl, rfl, rfl, rfl, rfl⟩
          (fun u hu => by simp [Loop.resumeAt_task_of_ne hu]) (by simp [hp]) (by simp)
          (by simp [Point.isExit]) (by simp) (by simp)
      · exact inv.woken (by simp [hp])
  | waiting f =>
      obtain ⟨hhost, hphase⟩ := inv.exit t (by simp [hp, Point.isExit])
      have awake := inv.woken (t := t) (by simp [hp])
      have cleared : ∀ c e, Inv { s with
          loop := s.loop.resumeAt t .outside, unfinished := [], cancelCalled := c, excVal := e } :=
        fun c e => awake.frame ⟨rfl, rfl, rfl, rfl, rfl⟩ fun _ => rfl
      simp only
      split_ifs
      · exact (cleared true _).waitForTasks hhost hphase (by simp) caught
      · exact (cleared _ _).waitForTasks hhost hphase (by simp) caught
  | checkpoint =>
      obtain ⟨hhost, -⟩ := inv.exit t (by simp [hp, Point.isExit])
      obtain ⟨hm, hall⟩ := inv.checkpoint t hp
      have hthrow : s.loop.throws t = false := by
        simp [Loop.throws, hm, Loop.waits, hp, Coroutine.waits]
      simp only [hthrow, Bool.false_eq_true, if_false]
      refine (inv.woken (t := t) (by simp [hp])).deactivate hhost (by simp) (fun u hu => ?_) _
      have hut : u ≠ t := fun he => hu (he ▸ (inv.host t hhost).1)
      simpa [hut] using hall u hu
  | starting c f =>
      simp only
      split_ifs with _ hd
      · exact inv.woken (by simp [hp])
      · have hc := inv.starts t c f hp
        have joining : Inv { s with loop := s.loop.resumeAt t (.joining c) } :=
          inv.move t ⟨rfl, rfl, rfl, rfl, rfl⟩
            (fun u hu => by simp [Loop.resumeAt_task_of_ne hu]) (by simp [hp]) (by simp)
            (by simp [Point.isExit]) (by simp) (by simp)
        apply joining.requestCancel
        intro hcheck
        obtain ⟨hhost, -⟩ := joining.exit c (by simp [hcheck, Point.isExit])
        exact hc (inv.host c hhost).1
      · split <;> exact inv.woken (by simp [hp])
  | joining c =>
      simp only
      split_ifs <;> exact inv.woken (by simp [hp])
  | unborn => exact inv
  | outside => exact inv
  | finished => exact inv

omit [DecidableEq τ] in
theorem fst_of_some {p : State τ ε × Result τ ε} {o : Result τ ε} (h : some p = some (r, o)) :
    p.1 = r := by
  simp [Option.some.inj h]

theorem Inv.step {a : Action τ ε} {o : Result τ ε} (inv : Inv s) (ok : QuietCheckpoint s a)
    (h : step s a = some (r, o)) : Inv r := by
  cases a with
  | createTask t =>
      obtain ⟨hp, h⟩ := Option.ite_none_right_eq_some.mp h
      cases h
      exact inv.move t ⟨rfl, rfl, rfl, rfl, rfl⟩
        (fun u hu => by simp [Loop.moveTo_task_of_ne hu]) (by simp [hp]) (by simp)
        (by simp [Point.isExit]) (by simp) (by simp)
  | aenter t =>
      obtain ⟨⟨hphase, hout⟩, h⟩ := Option.ite_none_right_eq_some.mp h
      cases h
      obtain ⟨-, hnone⟩ := inv.fresh hphase
      refine ⟨inv.kept, inv.starts, fun u hu => ?_, fun u hu => ?_, inv.calm, inv.checkpoint,
        by simp, by simp⟩
      · obtain rfl : t = u := Option.some.inj hu
        simp [hnone, hout]
      · have hexit := (inv.exit u hu).2
        simp [hphase] at hexit
  | aexit t excVal =>
      obtain ⟨⟨-, hhost, hout⟩, h⟩ := Option.ite_none_right_eq_some.mp h
      exact fst_of_some h ▸ inv.aexit hhost hout excVal
  | startSoon func u =>
      obtain ⟨hnew, h⟩ := Option.ite_none_right_eq_some.mp h
      exact fst_of_some h ▸ inv.startSoon hnew ok
  | start t func u =>
      obtain ⟨⟨ht, hnew⟩, h⟩ := Option.ite_none_right_eq_some.mp h
      exact fst_of_some h ▸ inv.start ht hnew ok
  | started u =>
      simp only [TaskGroup.step] at h
      split at h
      · exact fst_of_some h ▸ inv.started _
      · cases h
  | finish t exc =>
      obtain ⟨hp, h⟩ := Option.ite_none_right_eq_some.mp h
      cases h
      exact inv.move t ⟨rfl, rfl, rfl, rfl, rfl⟩
        (fun u hu => by simp [Loop.moveTo_task_of_ne hu]) (by simp [hp]) (by simp)
        (by simp [Point.isExit]) (by simp) (by simp)
  | taskDone u outerCancelled =>
      simp only [TaskGroup.step] at h
      split at h
      · obtain ⟨⟨hp, -⟩, h⟩ := Option.ite_none_right_eq_some.mp h
        exact fst_of_some h ▸ inv.taskDone hp _ _
      · cases h
  | onCompletion u =>
      simp only [TaskGroup.step] at h
      split at h
      · obtain ⟨-, h⟩ := Option.ite_none_right_eq_some.mp h
        cases h
        refine inv.frame ⟨rfl, rfl, rfl, rfl, rfl⟩ fun v => ?_
        simp only [onCompletion]
        split_ifs <;> simp
      · cases h
  | cancel t =>
      obtain ⟨-, h⟩ := Option.ite_none_right_eq_some.mp h
      cases h
      exact inv.requestCancel ok
  | resume t anyio caught =>
      obtain ⟨-, h⟩ := Option.ite_none_right_eq_some.mp h
      exact fst_of_some h ▸ inv.resume anyio caught

/-- A call that would create a task in the group. -/
inductive Spawns : Action τ ε → Prop
  | startSoon (func : Func) (u : τ) : Spawns (.startSoon func u)
  | start (t : τ) (func : Func) (u : τ) : Spawns (.start t func u)

/-- An inactive group refuses to spawn and is not changed. -/
theorem spawns_refused {a : Action τ ε} {o : Result τ ε} (hactive : s.active = false)
    (ha : Spawns a) (h : step s a = some (r, o)) :
    r = s ∧ o = .raised (.known groupNotActive) := by
  cases ha with
  | startSoon func u =>
      obtain ⟨-, h⟩ := Option.ite_none_right_eq_some.mp h
      simp only [startSoon, spawn, hactive, if_true, Option.some.injEq, Prod.mk.injEq] at h
      exact ⟨h.1.symm, h.2.symm⟩
  | start t func u =>
      obtain ⟨-, h⟩ := Option.ite_none_right_eq_some.mp h
      simp only [start, spawn, hactive, if_true, Option.some.injEq, Prod.mk.injEq] at h
      exact ⟨h.1.symm, h.2.symm⟩

/-- In a run in which, while the host is in the checkpoint of an `__aexit__()`
that found no child tasks, no task is spawned and the host is not cancelled:
once `__aexit__()` has returned or raised, every task spawned through the
group is finished, and every later `start_soon()` or `start()` raises
`RuntimeError` and creates no task. -/
theorem children_finish_first {python312 : Bool}
    (run : (machine τ ε).Reachable QuietCheckpoint (initial τ ε python312) s)
    (hleft : s.phase = .left) :
    (∀ u, s.taskStatus u ≠ none → s.loop.point u = .finished) ∧
      ∀ a r o, Spawns a → step s a = some (r, o) →
        r = s ∧ o = .raised (.known groupNotActive) := by
  have inv : Inv s := run.invariant (.initial python312) fun _ _ _ _ hi ok h => hi.step ok h
  obtain ⟨hactive, hall⟩ := inv.left hleft
  exact ⟨hall, fun a r o ha h => spawns_refused hactive ha h⟩

/-- A function that makes coroutines. -/
def child : Func where
  module := some "app"
  qualname := "child"

/-- Task 1 is started in the group, the host is cancelled in its wait, and
task 1 ends with that. -/
def leftAfterChild : State (Fin 3) Unit :=
  ((machine (Fin 3) Unit).exec QuietCheckpoint (initial (Fin 3) Unit true)
    [.createTask 0, .resume 0 false false, .aenter 0, .startSoon child 1, .aexit 0 none, .cancel 0,
      .resume 0 true false, .resume 1 false false, .finish 1 (some (.cancelled true)),
      .taskDone 1 false, .onCompletion 1, .resume 0 false true]).get (by decide)

theorem children_finish_first_cancelled :
    leftAfterChild.phase = .left ∧ leftAfterChild.taskStatus 1 = some none ∧
      leftAfterChild.loop.point 1 = .finished := by
  have run : (machine (Fin 3) Unit).Reachable QuietCheckpoint (initial (Fin 3) Unit true)
      leftAfterChild := Machine.exec_get_reachable _ _ _
  have hstatus : leftAfterChild.taskStatus 1 = some none := by decide
  exact ⟨by decide, hstatus,
    (children_finish_first run (by decide)).1 1 (by simp [hstatus])⟩

/-- While the host is in its checkpoint, task 1 spawns task 2. -/
def leftOrphan : State (Fin 3) Unit :=
  ((machine (Fin 3) Unit).exec Machine.anyStep (initial (Fin 3) Unit true)
    [.createTask 0, .resume 0 false false, .aenter 0, .aexit 0 none, .startSoon child 2,
      .resume 0 false false]).get (by decide)

/-- The host is cancelled in its checkpoint. -/
def leftActive : State (Fin 3) Unit :=
  ((machine (Fin 3) Unit).exec Machine.anyStep (initial (Fin 3) Unit true)
    [.createTask 0, .resume 0 false false, .aenter 0, .aexit 0 none, .cancel 0,
      .resume 0 false false]).get (by decide)

/-- A reachable state after `__aexit__()` with a task of the group that has not
even started, and one in which the group still creates tasks. -/
theorem child_outlives_group :
    ((machine (Fin 3) Unit).Reachable Machine.anyStep (initial (Fin 3) Unit true) leftOrphan ∧
      leftOrphan.phase = .left ∧ leftOrphan.taskStatus 2 = some none ∧
      leftOrphan.loop.point 2 = .created) ∧
    ((machine (Fin 3) Unit).Reachable Machine.anyStep (initial (Fin 3) Unit true) leftActive ∧
      leftActive.phase = .left ∧ ∃ s, step leftActive (.startSoon child 2) =
        some (s, .returned false) ∧ s.loop.point 2 = .created) := by
  refine ⟨⟨Machine.exec_get_reachable _ _ _, by decide, by decide, by decide⟩,
    Machine.exec_get_reachable _ _ _, by decide, _, rfl, by decide⟩

end Anyio.TaskGroup
