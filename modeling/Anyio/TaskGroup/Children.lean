import Anyio.TaskGroup.Steps

/-!
# The children of the asyncio `TaskGroup`

A child is in `_tasks` until its done callback has run, and after that it is
finished. This holds in every run.
-/

namespace Anyio.TaskGroup

open Asyncio Library

variable {τ ε : Type*}

/-- The children of the group and its host. -/
structure Children (s : State τ ε) : Prop where
  same : s.tasks = s.doneCallbacks
  once : s.doneCallbacks.Nodup
  spawned : ∀ u ∈ s.doneCallbacks, s.taskStatus u ≠ none
  ran : ∀ u, s.taskStatus u ≠ none → u ∉ s.doneCallbacks → s.loop.point u = .finished
  born : ∀ u, s.taskStatus u ≠ none → s.loop.point u ≠ .unborn
  host : ∀ t, s.hostTask = some t → s.taskStatus t = none ∧ s.loop.point t ≠ .unborn
  exit : ∀ t, (s.loop.point t).isExit = true → s.hostTask = some t ∧ s.phase = .exiting
  fresh : s.phase = .new → s.active = false ∧ ∀ u, s.taskStatus u = none

/-- What a step that creates no child and runs no callback leaves as it is. -/
structure SameChildren (s s' : State τ ε) : Prop where
  tasks : s'.tasks = s.tasks
  doneCallbacks : s'.doneCallbacks = s.doneCallbacks
  taskStatus : s'.taskStatus = s.taskStatus
  hostTask : s'.hostTask = s.hostTask

section Children
variable {s s' : State τ ε} {t u : τ} {a : Action τ ε} {o : Result τ ε}

/-- Task `t` may move on. -/
theorem Children.move (kids : Children s) (same : SameChildren s s') (t : τ)
    (hother : ∀ u, u ≠ t → s'.loop.point u = s.loop.point u)
    (hfinished : s.loop.point t = .finished → s'.loop.point t = .finished)
    (hborn : s'.loop.point t ≠ .unborn ∨ s.loop.point t = .unborn)
    (hexit : ∀ u, (s'.loop.point u).isExit = true → s.hostTask = some u ∧ s'.phase = .exiting)
    (hfresh : s'.phase = .new → s.phase = .new ∧ s'.active = s.active) : Children s' := by
  have hunborn : ∀ u, s.loop.point u ≠ .unborn → s'.loop.point u ≠ .unborn := by
    intro u hu
    by_cases hut : u = t
    · exact hborn.elim (fun h => hut ▸ h) fun h => absurd h (hut ▸ hu)
    · rwa [hother u hut]
  constructor
  · rw [same.tasks, same.doneCallbacks, kids.same]
  · rw [same.doneCallbacks]
    exact kids.once
  · rw [same.doneCallbacks, same.taskStatus]
    exact kids.spawned
  · intro u hu hdone
    rw [same.taskStatus] at hu
    rw [same.doneCallbacks] at hdone
    have hpoint := kids.ran u hu hdone
    by_cases hut : u = t
    · exact hut ▸ hfinished (hut ▸ hpoint)
    · rw [hother u hut, hpoint]
  · intro u hu
    exact hunborn u (kids.born u (same.taskStatus ▸ hu))
  · intro u hu
    obtain ⟨hs, hb⟩ := kids.host u (same.hostTask ▸ hu)
    exact ⟨same.taskStatus ▸ hs, hunborn u hb⟩
  · intro u hu
    rw [same.hostTask]
    exact hexit u hu
  · intro hp
    obtain ⟨hold, ha⟩ := hfresh hp
    rw [same.taskStatus, ha]
    exact kids.fresh hold

/-- Nobody moves. -/
theorem Children.congr (kids : Children s) (same : SameChildren s s')
    (hpoint : ∀ u, s'.loop.point u = s.loop.point u) (hphase : s'.phase = s.phase)
    (hactive : s'.active = s.active) : Children s' := by
  constructor
  · rw [same.tasks, same.doneCallbacks, kids.same]
  · rw [same.doneCallbacks]
    exact kids.once
  · rw [same.doneCallbacks, same.taskStatus]
    exact kids.spawned
  · intro u hu hdone
    rw [hpoint]
    exact kids.ran u (same.taskStatus ▸ hu) (same.doneCallbacks ▸ hdone)
  · intro u hu
    rw [hpoint]
    exact kids.born u (same.taskStatus ▸ hu)
  · intro u hu
    rw [same.taskStatus, hpoint]
    exact kids.host u (same.hostTask ▸ hu)
  · intro u hu
    rw [same.hostTask, hphase]
    exact kids.exit u (hpoint u ▸ hu)
  · intro hp
    rw [hactive, same.taskStatus]
    exact kids.fresh (hphase ▸ hp)

/-- Task `t` moves in code that is not the end of `__aexit__()`. -/
theorem Children.walk (kids : Children s) (same : SameChildren s s') (t : τ)
    (hother : ∀ u, u ≠ t → s'.loop.point u = s.loop.point u)
    (hfinished : s.loop.point t ≠ .finished) (hborn : s'.loop.point t ≠ .unborn)
    (hexit : (s'.loop.point t).isExit = false) (hphase : s'.phase = s.phase)
    (hactive : s'.active = s.active) : Children s' := by
  refine kids.move same t hother (fun h => absurd h hfinished) (.inl hborn) (fun u hu => ?_)
    fun hp => ⟨hphase ▸ hp, hactive⟩
  have hut : u ≠ t := by
    rintro rfl
    simp [hexit] at hu
  rw [hphase]
  exact kids.exit u (hother u hut ▸ hu)

/-- The host is the only task in `__aexit__()`. -/
theorem Children.host_only (kids : Children s) (ht : s.hostTask = some t) (hut : u ≠ t) :
    (s.loop.point u).isExit = false := by
  by_contra h
  obtain ⟨hu, -⟩ := kids.exit u (by simpa using h)
  exact hut (Option.some.inj (hu.symm.trans ht))

/-- The host moves within `__aexit__()` or out of it. -/
theorem Children.hostMoves (kids : Children s) (same : SameChildren s s')
    (ht : s.hostTask = some t) (hother : ∀ u, u ≠ t → s'.loop.point u = s.loop.point u)
    (hfinished : s.loop.point t ≠ .finished) (hborn : s'.loop.point t ≠ .unborn)
    (hexit : (s'.loop.point t).isExit = true → s'.phase = .exiting)
    (hnew : s'.phase ≠ .new) : Children s' := by
  refine kids.move same t hother (fun h => absurd h hfinished) (.inl hborn) (fun u hu => ?_)
    fun hp => absurd hp hnew
  by_cases hut : u = t
  · exact ⟨hut ▸ ht, hexit (hut ▸ hu)⟩
  · rw [hother u hut, kids.host_only ht hut] at hu
    cases hu

/-- A task that is not born is no child. -/
theorem Children.unspawned (kids : Children s) (hu : s.loop.point u = .unborn) :
    s.taskStatus u = none := by
  by_contra hne
  exact kids.born u hne hu

variable [DecidableEq τ]

/-- The host leaves the group. -/
theorem Children.departs {m : State τ ε} (kids : Children s) (same : SameChildren s m)
    (hloop : m.loop = s.loop.resumeAt t .outside) (hexit : (s.loop.point t).isExit = true)
    (active : Bool) : Children (departed m t active) := by
  obtain ⟨hhost, -⟩ := kids.exit t hexit
  have hfinished : s.loop.point t ≠ .finished := by
    intro h
    simp [h, Point.isExit] at hexit
  exact kids.hostMoves (t := t) ⟨same.tasks, same.doneCallbacks, same.taskStatus, same.hostTask⟩
    hhost (fun u hu => by simp [departed, hloop, hu]) hfinished (by simp [departed])
    (by simp [departed, Point.isExit]) (by simp [departed])

/-- A new child is added. -/
theorem Children.added (kids : Children s) (hactive : s.active = true)
    (hu : s.loop.point u = .unborn) (f : Option FutureId) : Children (added s u f) := by
  have hnone := kids.unspawned hu
  have hnot : u ∉ s.doneCallbacks := fun hmem => kids.spawned u hmem hnone
  have htasks : u ∉ s.tasks := kids.same ▸ hnot
  constructor
  · have hinsert : s.tasks.insert u = u :: s.doneCallbacks := by
      rw [List.insert_of_not_mem htasks, kids.same]
    exact hinsert
  · exact List.nodup_cons.mpr ⟨hnot, kids.once⟩
  · intro v hv
    by_cases hvu : v = u
    · simp [TaskGroup.added, hvu]
    · simpa [TaskGroup.added, hvu] using kids.spawned v (List.mem_of_ne_of_mem hvu hv)
  · intro v hv hdone
    have hvu : v ≠ u := by
      rintro rfl
      exact hdone List.mem_cons_self
    simp only [TaskGroup.added, Function.update_of_ne hvu] at hv
    simpa [TaskGroup.added, hvu] using kids.ran v hv fun hmem =>
      hdone (List.mem_cons_of_mem _ hmem)
  · intro v hv
    by_cases hvu : v = u
    · simp [TaskGroup.added, hvu]
    · simp only [TaskGroup.added, Function.update_of_ne hvu] at hv
      simpa [TaskGroup.added, hvu] using kids.born v hv
  · intro v hv
    obtain ⟨hs, hb⟩ := kids.host v hv
    have hvu : v ≠ u := fun h => hb (h ▸ hu)
    simp [TaskGroup.added, hvu, hs, hb]
  · intro v hv
    have hvu : v ≠ u := by
      rintro rfl
      simp [TaskGroup.added, Point.isExit] at hv
    exact kids.exit v (by simpa [TaskGroup.added, hvu] using hv)
  · intro hp
    rw [(kids.fresh hp).1] at hactive
    cases hactive

/-- The done callback of a finished child runs. -/
theorem Children.removed (kids : Children s) (hu : s.loop.point u = .finished) :
    Children (removed s u) := by
  constructor
  · simp [TaskGroup.removed, kids.same]
  · exact kids.once.erase u
  · exact fun v hv => kids.spawned v (List.mem_of_mem_erase hv)
  · intro v hv hdone
    by_cases hvu : v = u
    · exact hvu ▸ hu
    · exact kids.ran v hv fun hmem => hdone ((List.mem_erase_of_ne hvu).mpr hmem)
  · exact kids.born
  · exact kids.host
  · exact kids.exit
  · exact kids.fresh

theorem Children.step (kids : Children s) (change : Change s a s' o) : Children s' := by
  cases change with
  | refused => exact kids
  | @created t hp =>
      exact kids.walk ⟨rfl, rfl, rfl, rfl⟩ t (fun u hu => by simp [hu]) (by simp [hp]) (by simp)
        (by simp [Point.isExit]) rfl rfl
  | @entered t hphase hp =>
      refine ⟨kids.same, kids.once, kids.spawned, kids.ran, kids.born, fun u hu => ?_,
        fun u hu => ?_, by simp⟩
      · obtain rfl : t = u := Option.some.inj hu
        exact ⟨(kids.fresh hphase).2 t, by simp [hp]⟩
      · have hexit := (kids.exit u hu).2
        simp [hphase] at hexit
  | @checks t excVal hphase hhost hp =>
      exact kids.hostMoves (t := t) ⟨by simp, by simp, by simp, by simp⟩ hhost
        (fun u hu => by simp [hu]) (by simp [hp]) (by simp) (by simp) (by simp)
  | @waits t excVal hphase hhost hp =>
      exact kids.hostMoves (t := t) ⟨by simp, by simp, by simp, by simp⟩ hhost
        (fun u hu => by simp [hu]) (by simp [hp]) (by simp) (by simp) (by simp)
  | spawned hactive hp => exact kids.added hactive hp none
  | @starts t func u hactive ht hp =>
      have created : Children { s with loop := s.loop.createFuture } :=
        kids.congr ⟨rfl, rfl, rfl, rfl⟩ (fun _ => rfl) rfl rfl
      have htu : t ≠ u := by
        rintro rfl
        simp [ht] at hp
      exact (created.added hactive hp _).walk ⟨rfl, rfl, rfl, rfl⟩ t
        (fun v hv => by simp [TaskGroup.added, hv]) (by simp [TaskGroup.added, htu, ht]) (by simp)
        (by simp [Point.isExit]) rfl rfl
  | valued => exact kids.congr ⟨rfl, rfl, rfl, rfl⟩ (fun _ => rfl) rfl rfl
  | late => exact kids
  | @finished t exc hp =>
      exact kids.walk ⟨rfl, rfl, rfl, rfl⟩ t (fun u hu => by simp [hu]) (by simp [hp]) (by simp)
        (by simp [Point.isExit]) rfl rfl
  | unreported hp =>
      exact (kids.removed hp).congr ⟨rfl, rfl, rfl, rfl⟩ (fun _ => rfl) rfl rfl
  | failed hp =>
      exact (kids.removed hp).congr ⟨rfl, rfl, rfl, rfl⟩ (by simp [setException]) rfl rfl
  | reported hp =>
      exact (kids.removed hp).congr ⟨rfl, rfl, rfl, rfl⟩ (fun _ => rfl) rfl rfl
  | lost hp => exact kids.removed hp
  | completed =>
      refine kids.congr ⟨rfl, rfl, rfl, rfl⟩ (fun u => ?_) rfl rfl
      simp only [onCompletion]
      split_ifs <;> simp
  | requested => exact kids.congr ⟨rfl, rfl, rfl, rfl⟩ (by simp) rfl rfl
  | @refusedFirst t _ _ hp =>
      exact kids.walk ⟨rfl, rfl, rfl, rfl⟩ t (fun u hu => by simp [hu]) (by simp [hp]) (by simp)
        (by simp [Point.isExit]) rfl rfl
  | @first t _ _ hp =>
      exact kids.walk ⟨rfl, rfl, rfl, rfl⟩ t (fun u hu => by simp [hu]) (by simp [hp]) (by simp)
        (by simp [Point.isExit]) rfl rfl
  | @waitsAgain t _ _ f _ _ hp =>
      obtain ⟨hhost, hphase⟩ := kids.exit t (by simp [hp, Point.isExit])
      exact kids.hostMoves (t := t) ⟨rfl, rfl, rfl, rfl⟩ hhost (fun u hu => by simp [hu])
        (by simp [hp]) (by simp) (fun _ => hphase) (by simp [hphase])
  | waited hp =>
      refine kids.departs ?_ ?_ (by simp [hp, Point.isExit]) _
      · exact ⟨rfl, rfl, rfl, rfl⟩
      · rfl
  | checked hp | interrupted hp =>
      refine kids.departs ?_ ?_ (by simp [hp, Point.isExit]) _
      · exact ⟨rfl, rfl, rfl, rfl⟩
      · rfl
  | @joins t u f _ _ hp =>
      exact kids.walk ⟨rfl, rfl, rfl, rfl⟩ t (fun v hv => by simp [hv]) (by simp [hp]) (by simp)
        (by simp [Point.isExit]) rfl rfl
  | @ends t u _ _ o hchild =>
      have hp : s.loop.point t ≠ .finished := by
        intro h
        simp [h, Point.child] at hchild
      exact kids.walk ⟨rfl, rfl, rfl, rfl⟩ t (fun v hv => by simp [hv]) hp (by simp)
        (by simp [Point.isExit]) rfl rfl

end Children

theorem Children.initial (python312 : Bool) : Children (initial τ ε python312) where
  same := rfl
  once := .nil
  spawned _ h := absurd h List.not_mem_nil
  ran _ h := absurd rfl h
  born _ h := absurd rfl h
  host _ h := by cases h
  exit _ h := by simp [TaskGroup.initial, Point.isExit] at h
  fresh _ := ⟨rfl, fun _ => rfl⟩

end Anyio.TaskGroup
