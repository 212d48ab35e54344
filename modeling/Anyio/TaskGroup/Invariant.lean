import Anyio.TaskGroup.Model
import Mathlib.Tactic.Common

/-!
# What the steps of the asyncio `TaskGroup` keep

A child that is not finished is in `_tasks`, and only the host is ever in an
await of `__aexit__()`. The rest of the invariant is about the checkpoint that
the host makes without child tasks: as long as nothing happens to the group
meanwhile, there still are none when it ends.
-/

namespace Anyio.TaskGroup

open Asyncio Library

variable {τ ε : Type*}

/-- The awaits of `__aexit__()`. -/
def Point.isExit : Point τ → Bool
  | .waiting _ => true
  | .checkpoint => true
  | _ => false

/-- Every task spawned through the group is finished. -/
def Childless (s : State τ ε) : Prop :=
  ∀ u, s.taskStatus u ≠ none → s.loop.point u = .finished

structure Inv (s : State τ ε) : Prop where
  kept : ∀ u, s.taskStatus u ≠ none → s.loop.point u ≠ .finished → u ∈ s.tasks
  starts : ∀ t c f, s.loop.point t = .starting c f → s.taskStatus c ≠ none
  host : ∀ t, s.hostTask = some t → s.taskStatus t = none ∧ s.loop.point t ≠ .unborn
  exit : ∀ t, (s.loop.point t).isExit = true → s.hostTask = some t ∧ s.phase = .exiting
  calm : ∀ t, s.taskStatus t = none → s.loop.point t = .outside →
    (s.loop.task t).mustCancel = false
  checkpoint : ∀ t, s.loop.point t = .checkpoint →
    (s.loop.task t).mustCancel = false ∧ Childless s
  fresh : s.phase = .new → s.active = false ∧ ∀ u, s.taskStatus u = none
  left : s.phase = .left → s.active = false ∧ Childless s

/-- What the invariant reads besides the tasks of the loop. -/
structure SameGroup (s r : State τ ε) : Prop where
  phase : r.phase = s.phase
  hostTask : r.hostTask = s.hostTask
  active : r.active = s.active
  taskStatus : r.taskStatus = s.taskStatus
  tasks : r.tasks = s.tasks

variable {s r : State τ ε} {t u h : τ}

theorem Inv.initial (python312 : Bool) : Inv (initial τ ε python312) where
  kept _ h := by simp [TaskGroup.initial] at h
  starts _ _ _ h := by simp [TaskGroup.initial] at h
  host _ h := by simp [TaskGroup.initial] at h
  exit _ h := by simp [TaskGroup.initial, Point.isExit] at h
  calm _ _ h := by simp [TaskGroup.initial] at h
  checkpoint _ h := by simp [TaskGroup.initial] at h
  fresh _ := ⟨rfl, fun _ => rfl⟩
  left h := by simp [TaskGroup.initial] at h

theorem point_congr {l l' : Loop τ (Point τ)} (h : l'.task u = l.task u) :
    l'.point u = l.point u := by
  simp [Loop.point, h]

/-- Without children in `_tasks` all of them are finished. -/
theorem Inv.childless (inv : Inv s) (h : s.tasks = []) : Childless s := by
  intro u hu
  by_contra hf
  have hmem := inv.kept u hu hf
  simp [h] at hmem

/-- The tasks stand where they stood, and only finished children were removed. -/
theorem Inv.congr (inv : Inv s) (hphase : r.phase = s.phase) (hhost : r.hostTask = s.hostTask)
    (hactive : r.active = s.active) (hstatus : r.taskStatus = s.taskStatus)
    (htasks : ∀ u, s.loop.point u ≠ .finished → u ∈ s.tasks → u ∈ r.tasks)
    (hl : ∀ u, r.loop.task u = s.loop.task u) : Inv r := by
  have hpoint : ∀ u, r.loop.point u = s.loop.point u := fun u => point_congr (hl u)
  have hchildless : Childless s → Childless r := fun hc u hu => by
    rw [hpoint]
    exact hc u (hstatus ▸ hu)
  constructor
  · intro u hu hp
    rw [hstatus] at hu
    rw [hpoint] at hp
    exact htasks u hp (inv.kept u hu hp)
  · intro t c f ht
    rw [hstatus]
    exact inv.starts t c f (hpoint t ▸ ht)
  · intro t ht
    rw [hstatus, hpoint]
    exact inv.host t (hhost ▸ ht)
  · intro t ht
    rw [hhost, hphase]
    exact inv.exit t (hpoint t ▸ ht)
  · intro t ht ho
    rw [hl]
    exact inv.calm t (hstatus ▸ ht) (hpoint t ▸ ho)
  · intro t ht
    obtain ⟨hm, hc⟩ := inv.checkpoint t (hpoint t ▸ ht)
    exact ⟨hl t ▸ hm, hchildless hc⟩
  · intro hp
    rw [hactive, hstatus]
    exact inv.fresh (hphase ▸ hp)
  · intro hp
    obtain ⟨ha, hc⟩ := inv.left (hphase ▸ hp)
    exact ⟨hactive ▸ ha, hchildless hc⟩

theorem Inv.frame (inv : Inv s) (same : SameGroup s r)
    (hl : ∀ u, r.loop.task u = s.loop.task u) : Inv r :=
  inv.congr same.phase same.hostTask same.active same.taskStatus
    (fun _ _ hu => same.tasks ▸ hu) hl

/-- One task moves on to a point that is not in `__aexit__()`. -/
theorem Inv.move (inv : Inv s) (t : τ) (same : SameGroup s r)
    (hl : ∀ u, u ≠ t → r.loop.task u = s.loop.task u) (hold : s.loop.point t ≠ .finished)
    (hborn : r.loop.point t ≠ .unborn) (hexit : (r.loop.point t).isExit = false)
    (hstart : ∀ c f, r.loop.point t = .starting c f → s.taskStatus c ≠ none)
    (hcalm : r.loop.point t = .outside → (r.loop.task t).mustCancel = false) : Inv r := by
  have hpoint : ∀ u, u ≠ t → r.loop.point u = s.loop.point u := fun u hu => point_congr (hl u hu)
  have hchildless : Childless s → Childless r := by
    intro hc u hu
    rw [same.taskStatus] at hu
    have hut : u ≠ t := fun h => hold (h ▸ hc u hu)
    rw [hpoint u hut]
    exact hc u hu
  constructor
  · intro u hu hp
    rw [same.taskStatus] at hu
    rw [same.tasks]
    by_cases hut : u = t
    · exact inv.kept u hu (hut ▸ hold)
    · exact inv.kept u hu (hpoint u hut ▸ hp)
  · intro u c f hu
    rw [same.taskStatus]
    by_cases hut : u = t
    · exact hstart c f (hut ▸ hu)
    · exact inv.starts u c f (hpoint u hut ▸ hu)
  · intro u hu
    rw [same.hostTask] at hu
    obtain ⟨hs, hb⟩ := inv.host u hu
    refine ⟨same.taskStatus ▸ hs, ?_⟩
    by_cases hut : u = t
    · exact hut ▸ hborn
    · exact hpoint u hut ▸ hb
  · intro u hu
    have hut : u ≠ t := by
      rintro rfl
      simp [hexit] at hu
    rw [same.hostTask, same.phase]
    exact inv.exit u (hpoint u hut ▸ hu)
  · intro u hu ho
    by_cases hut : u = t
    · subst hut
      exact hcalm ho
    · rw [hl u hut]
      exact inv.calm u (same.taskStatus ▸ hu) (hpoint u hut ▸ ho)
  · intro u hu
    have hut : u ≠ t := by
      rintro rfl
      simp [hu, Point.isExit] at hexit
    obtain ⟨hm, hc⟩ := inv.checkpoint u (hpoint u hut ▸ hu)
    exact ⟨hl u hut ▸ hm, hchildless hc⟩
  · intro hp
    rw [same.active, same.taskStatus]
    exact inv.fresh (same.phase ▸ hp)
  · intro hp
    obtain ⟨ha, hc⟩ := inv.left (same.phase ▸ hp)
    exact ⟨same.active ▸ ha, hchildless hc⟩

variable [DecidableEq τ]

/-- A request to a task that is not in code of its own, other than the host in its
checkpoint. -/
theorem Inv.cancel (inv : Inv s) (hu : s.loop.point u ≠ .outside)
    (hc : s.loop.point u ≠ .checkpoint) : Inv { s with loop := s.loop.cancel u } where
  kept v hv hp := inv.kept v hv (by simpa using hp)
  starts t c f ht := inv.starts t c f (by simpa using ht)
  host t ht := by simpa using inv.host t ht
  exit t ht := inv.exit t (by simpa using ht)
  calm t ht ho := by
    simp only [Loop.cancel_point] at ho
    have htu : t ≠ u := by
      rintro rfl
      exact hu ho
    simpa [Loop.cancel_task_of_ne htu] using inv.calm t ht ho
  checkpoint t ht := by
    simp only [Loop.cancel_point] at ht
    have htu : t ≠ u := by
      rintro rfl
      exact hc ht
    obtain ⟨hm, hall⟩ := inv.checkpoint t ht
    exact ⟨by simpa [Loop.cancel_task_of_ne htu] using hm, fun v hv => by simpa using hall v hv⟩
  fresh := inv.fresh
  left hp := by
    obtain ⟨ha, hall⟩ := inv.left hp
    exact ⟨ha, fun v hv => by simpa using hall v hv⟩

/-- A request that reaches a suspended task other than the host in its checkpoint. -/
theorem Inv.requestCancel (inv : Inv s) (hc : s.loop.point u ≠ .checkpoint) :
    Inv { s with loop := requestCancel s.loop u } := by
  unfold TaskGroup.requestCancel
  split
  · exact inv
  · rename_i hp
    split_ifs
    · exact inv.cancel (by simp [hp]) hc
    · exact inv
  · rename_i hp _
    exact inv.cancel hp hc

/-- `_spawn` of an active group with a coroutine function. -/
theorem spawn_cases {func : Func} {f : Option FutureId} (h : spawn s func u f = .ok r) :
    s.active = true ∧ func.notCoroutine = none ∧ r = { s with
      tasks := s.tasks.insert u
      taskStatus := Function.update s.taskStatus u (some f)
      doneCallbacks := u :: s.doneCallbacks
      loop := s.loop.moveTo u .created } := by
  unfold spawn at h
  split_ifs at h with ha
  split at h
  · cases h
  · rename_i hf
    cases h
    exact ⟨by simpa using ha, hf, rfl⟩

/-- A child is spawned while the host is not in its checkpoint. -/
theorem Inv.spawn (inv : Inv s) {func : Func} {f : Option FutureId}
    (hnew : s.loop.point u = .unborn) (quiet : ∀ t, s.loop.point t ≠ .checkpoint)
    (h : spawn s func u f = .ok r) : Inv r := by
  obtain ⟨hactive, -, rfl⟩ := spawn_cases h
  constructor
  · intro v hv hp
    by_cases hvu : v = u
    · simp [hvu]
    · simp only [Function.update_of_ne hvu] at hv
      simp only [Loop.moveTo_point, hvu, if_false] at hp
      simp [inv.kept v hv hp]
  · intro t c g ht
    by_cases hcu : c = u
    · simp [hcu]
    · by_cases htu : t = u
      · simp [htu] at ht
      · simp only [Loop.moveTo_point, htu, if_false] at ht
        simpa [hcu] using inv.starts t c g ht
  · intro t ht
    obtain ⟨hs, hb⟩ := inv.host t ht
    have htu : t ≠ u := fun he => hb (he ▸ hnew)
    simp [htu, hs, hb]
  · intro t ht
    by_cases htu : t = u
    · simp [htu, Point.isExit] at ht
    · simp only [Loop.moveTo_point, htu, if_false] at ht
      exact inv.exit t ht
  · intro t ht ho
    by_cases htu : t = u
    · simp [htu] at ht
    · simp only [Function.update_of_ne htu] at ht
      simp only [Loop.moveTo_point, htu, if_false] at ho
      simpa using inv.calm t ht ho
  · intro t ht
    by_cases htu : t = u
    · simp [htu] at ht
    · simp only [Loop.moveTo_point, htu, if_false] at ht
      exact absurd ht (quiet t)
  · intro hp
    simp [(inv.fresh hp).1] at hactive
  · intro hp
    simp [(inv.left hp).1] at hactive

/-- The host leaves `__aexit__()` with the group inactive and no child alive. -/
theorem Inv.depart (inv : Inv s) (hhost : s.hostTask = some h) (hout : s.loop.point h = .outside)
    (hall : Childless s) (hphase : r.phase = .left) (hactive : r.active = false)
    (hkeep : r.hostTask = s.hostTask ∧ r.taskStatus = s.taskStatus ∧ r.tasks = s.tasks)
    (hl : r.loop = s.loop.moveTo h .outside) : Inv r := by
  obtain ⟨hh, hstatus, htasks⟩ := hkeep
  have htask : ∀ u, r.loop.task u = s.loop.task u := by
    intro u
    rw [hl]
    by_cases hu : u = h
    · subst hu
      simp only [Loop.moveTo, Function.update_self]
      rw [← hout]
      rfl
    · exact Loop.moveTo_task_of_ne hu _
  have hpoint : ∀ u, r.loop.point u = s.loop.point u := fun u => point_congr (htask u)
  have hchildless : Childless r := fun u hu => by
    rw [hpoint]
    exact hall u (hstatus ▸ hu)
  constructor
  · exact fun u hu hp => absurd (hchildless u hu) hp
  · exact fun t c f ht => hstatus ▸ inv.starts t c f (hpoint t ▸ ht)
  · intro t ht
    rw [hstatus, hpoint]
    exact inv.host t (hh ▸ ht)
  · intro t ht
    rw [hpoint] at ht
    obtain ⟨ht', -⟩ := inv.exit t ht
    obtain rfl : h = t := Option.some.inj (hhost.symm.trans ht')
    simp [hout, Point.isExit] at ht
  · intro t ht ho
    rw [htask]
    exact inv.calm t (hstatus ▸ ht) (hpoint t ▸ ho)
  · intro t ht
    rw [hpoint] at ht
    obtain ⟨hm, -⟩ := inv.checkpoint t ht
    exact ⟨htask t ▸ hm, hchildless⟩
  · simp [hphase]
  · exact fun _ => ⟨hactive, hchildless⟩

/-- `__aexit__()` from `self._active = False` on, without living children. -/
theorem Inv.deactivate (inv : Inv s) (hhost : s.hostTask = some h)
    (hout : s.loop.point h = .outside) (hall : Childless s) (caught : Bool) :
    Inv (deactivate s h caught).1 := by
  unfold TaskGroup.deactivate TaskGroup.leave
  split <;> split <;> exact inv.depart hhost hout hall rfl rfl ⟨rfl, rfl, rfl⟩ rfl

/-- The host suspends in `__aexit__()`, at the checkpoint only without living children. -/
theorem Inv.suspend (inv : Inv s) {p : Point τ} (hp : p.isExit = true)
    (hhost : s.hostTask = some h) (hphase : s.phase = .exiting) (hout : s.loop.point h = .outside)
    (hcheck : p = .checkpoint → Childless s) (same : SameGroup s r)
    (hl : ∀ u, r.loop.task u = if u = h then { s.loop.task h with point := p }
      else s.loop.task u) : Inv r := by
  have hpoint : ∀ u, r.loop.point u = if u = h then p else s.loop.point u := by
    intro u
    by_cases hu : u = h <;> simp [Loop.point, hl, hu]
  obtain ⟨hchild, -⟩ := inv.host h hhost
  have hchildless : Childless s → Childless r := by
    intro hall u hu
    rw [same.taskStatus] at hu
    have huh : u ≠ h := fun he => hu (he ▸ hchild)
    rw [hpoint, if_neg huh]
    exact hall u hu
  have hexit : ∀ t, (s.loop.point t).isExit = true → False := by
    intro t ht
    obtain rfl : h = t := Option.some.inj (hhost.symm.trans (inv.exit t ht).1)
    simp [hout, Point.isExit] at ht
  constructor
  · intro u hu hf
    rw [same.taskStatus] at hu
    have huh : u ≠ h := fun he => hu (he ▸ hchild)
    rw [same.tasks]
    rw [hpoint, if_neg huh] at hf
    exact inv.kept u hu hf
  · intro t c f ht
    rw [same.taskStatus]
    by_cases hth : t = h
    · rw [hpoint, if_pos hth] at ht
      simp [ht, Point.isExit] at hp
    · rw [hpoint, if_neg hth] at ht
      exact inv.starts t c f ht
  · intro t ht
    rw [same.hostTask] at ht
    rw [same.taskStatus]
    refine ⟨(inv.host t ht).1, fun hb => ?_⟩
    obtain rfl : h = t := Option.some.inj (hhost.symm.trans ht)
    rw [hpoint, if_pos rfl] at hb
    simp [hb, Point.isExit] at hp
  · intro t ht
    rw [same.hostTask, same.phase]
    by_cases hth : t = h
    · exact ⟨hth ▸ hhost, hphase⟩
    · rw [hpoint, if_neg hth] at ht
      exact absurd (hexit t ht) id
  · intro t ht ho
    rw [same.taskStatus] at ht
    by_cases hth : t = h
    · rw [hpoint, if_pos hth] at ho
      simp [ho, Point.isExit] at hp
    · rw [hpoint, if_neg hth] at ho
      rw [hl, if_neg hth]
      exact inv.calm t ht ho
  · intro t ht
    by_cases hth : t = h
    · rw [hpoint, if_pos hth] at ht
      rw [hl, if_pos hth]
      exact ⟨inv.calm h hchild hout, hchildless (hcheck ht)⟩
    · rw [hpoint, if_neg hth] at ht
      exact absurd (hexit t (by simp [ht, Point.isExit])) id
  · simp [same.phase, hphase]
  · simp [same.phase, hphase]

/-- The loop of `__aexit__()` either waits for the children or finds none. -/
theorem Inv.waitForTasks (inv : Inv s) (hhost : s.hostTask = some h)
    (hphase : s.phase = .exiting) (hout : s.loop.point h = .outside) (caught : Bool) :
    Inv (waitForTasks s h caught).1 := by
  unfold TaskGroup.waitForTasks
  split_ifs with htasks
  · exact inv.deactivate hhost hout (inv.childless htasks) caught
  · refine inv.suspend (p := .waiting s.loop.nextFuture) rfl hhost hphase hout (by simp)
      ⟨rfl, rfl, rfl, rfl, rfl⟩ fun u => ?_
    by_cases hu : u = h <;> simp [Loop.moveTo, hu]

end Anyio.TaskGroup
