import Anyio.ConnectTcp.Delivery

/-!
# Where a call of `connect_tcp()` stands

In each step of a call of which nothing is decided yet something is decided,
or the enclosing scope interrupts the host, or the call stays undisturbed.
-/

namespace Anyio.ConnectTcp

open Asyncio Library
open TaskGroup (Exc)

variable {α ε : Type*} {s s' : State α ε} {i j : Nat} {reached : List Nat}

theorem Quiet.exits (hs : s.host = .exiting) (hcalled : s.group.cancelCalled = false)
    (hexc : excAtExit s.group = none) (hshield : s.waitShielded = false)
    (hwaits : ∀ f, s.group.loop.point .host = .waiting f → WaitsFor s f) : Quiet s where
  called := hcalled
  finished j t h := by
    rw [hs] at h
    cases h
  cancelled j t h := by
    rw [hs] at h
    cases h
  exiting _ := ⟨hexc, hshield⟩
  waiting := hwaits

theorem Held.inBlock {future : FutureState} {t : Bool} (hs : s.host = .eventWait j future t)
    (hqueued : .deliver .outer ∈ s.ready) : Held s where
  queued := hqueued
  exiting h := by
    rw [hs] at h
    cases h
  ongoing e h := by
    rw [hs] at h
    cases h

/-- The event of an attempt wakes the host up before the group hears of the attempt. -/
theorem Undisturbed.setEvent (undisturbed : Undisturbed s) (sound : Sound s) {b : Bool}
    (hi : s.attempt i = .connecting b) : Undisturbed (setEvent s i) := by
  rw [ConnectTcp.setEvent]
  split
  · rename_i j t hs
    split_ifs with hij
    · have hended : ¬ ∃ how, s.attempt j = .ended how := by
        rintro ⟨how, h⟩
        rw [← hij, hi] at h
        cases h
      have woken : WokenBy (ConnectTcp.push { s with host := .eventWait j .finished t } [.host])
          j := by
        refine ⟨?_, ⟨s.ready, [], rfl, fun h => hended (sound.due _ h)⟩, fun f h => ?_⟩
        · exact sound.mem_tasks (by simp [← hij, hi]) (by simp [← hij, hi])
        · obtain h | h := List.mem_append.mp h
          · exact hended (sound.due _ h)
          · simp at h
      constructor
      · constructor
        · exact undisturbed.called
        · intro k t' hs'
          cases hs'
          exact woken
        · intro k t' hs'
          cases hs'
        · intro hs'
          cases hs'
        · intro f hf
          have hwaits := undisturbed.waiting f hf
          exact ⟨hwaits.unfinished, hwaits.future⟩
      · intro k hk
        have hheld := undisturbed.held k hk
        exact .inBlock rfl (List.mem_append_left _ hheld.queued)
    · exact undisturbed
  · exact undisturbed

/-- An attempt fails with an `OSError` or a cancellation. -/
theorem Undisturbed.finishAttempt (undisturbed : Undisturbed s) (linked : Linked s) {b : Bool}
    (hi : s.attempt i = .connecting b) {how : Ends ε} (hhow : how = .cancelled → b = true)
    (exc : Option (Exc ε)) : Undisturbed (finishAttempt s i how exc) := by
  rw [ConnectTcp.finishAttempt]
  apply Undisturbed.push
  · have hthrows := throws_congr (l := s.group.loop)
      (k := s.group.loop.moveTo (.attempt i) .finished) (Loop.moveTo_task_of_ne (by simp) _) rfl
    apply undisturbed.aside
    · constructor
      · rfl
      · rfl
      · rfl
      · rfl
      · simp
      · rfl
      · simp only [excAtExit, hthrows]
      · rfl
      · rfl
      · exact fun _ _ _ h => h
      · intro k hk
        cases eq_or_ne k i with
        | inl hki => exact absurd (by simp [hki]) (hk.2 how)
        | inr hki => simpa [Live, hki] using hk
    · intro k hk
      cases eq_or_ne k i with
      | inl hki =>
          left
          rw [hki] at hk ⊢
          simp only [Touched, Function.update_self] at hk
          obtain hk | hk := hk
          · cases hk
          · rw [hi, hhow (Attempt.ended.inj hk)]
      | inr hki => simpa [Touched, hki] using hk
  · intro j t hs k f hmem
    have hs' : s.host = .eventWait j .finished t := hs
    simp [completion, (linked.inBlock hs').outside] at hmem

theorem Undisturbed.oserrors (undisturbed : Undisturbed s) (errors : List ε) :
    Undisturbed { s with oserrors := errors } := by
  apply undisturbed.aside
  · exact ⟨rfl, rfl, rfl, rfl, rfl, rfl, rfl, rfl, rfl, fun _ _ _ => id, fun _ => id⟩
  · exact fun _ => id

/-- The end of an attempt decides something, or it disturbs nothing. -/
theorem Undisturbed.tryConnect (undisturbed : Undisturbed s) (sound : Sound s) {b : Bool}
    (hi : s.attempt i = .connecting b) {how : Ends ε} (hhow : how = .cancelled → b = true)
    (reached : List Nat) : Fate (tryConnect s i how reached) := by
  cases how with
  | connected =>
      apply Fate.decided
      left
      cases hstream : s.connectedStream with
      | none =>
          have hsignals : Signalled (stores s i)
              (ConnectTcp.setEvent (cancelScope (stores s i) true reached) i) :=
            (Signalled.cancelScope _ true reached).trans (.setEvent _ i)
          have hstored : (ConnectTcp.tryConnect s i .connected reached).connectedStream = some i := by
            rw [tryConnect_first hstream]
            exact hsignals.connectedStream
          simp [hstored]
      | some w =>
          rw [tryConnect_late hstream]
          simp [discards, hstream]
  | osError e =>
      apply Fate.undisturbed
      have hlinked := sound.toLinked.notes (s.oserrors ++ [e])
      obtain ⟨hsound, -⟩ := sound.signalled hlinked (.notes s (s.oserrors ++ [e]))
      have hevent := (undisturbed.oserrors (s.oserrors ++ [e])).setEvent hsound hi
      exact hevent.finishAttempt (b := b) (hlinked.setEvent i) (by simpa using hi) (by simp) none
  | other e =>
      apply Fate.decided
      exact .inr ⟨i, e, by simp [ConnectTcp.tryConnect, ConnectTcp.finishAttempt]⟩
  | cancelled =>
      apply Fate.undisturbed
      have hevent := undisturbed.setEvent sound hi
      exact hevent.finishAttempt (b := b) (sound.toLinked.setEvent i) (by simpa using hi) hhow _

/-- A task of an attempt starts. -/
theorem Undisturbed.start (undisturbed : Undisturbed s) (linked : Linked s)
    (hj : s.attempt j = .created) : Undisturbed { s with
      attempt := Function.update s.attempt j (.connecting false)
      group := (TaskGroup.resume s.group (.attempt j) true false).1 } := by
  rw [resume_created linked hj]
  have hthrows := throws_congr (l := s.group.loop)
    (k := s.group.loop.resumeAt (.attempt j) .outside) (Loop.resumeAt_task_of_ne (by simp) _) rfl
  apply undisturbed.aside
  · constructor
    · rfl
    · rfl
    · rfl
    · rfl
    · simp
    · rfl
    · simp only [excAtExit, hthrows]
    · rfl
    · rfl
    · exact fun _ _ _ h => h
    · intro k hk
      cases eq_or_ne k j with
      | inl hkj => simp [hkj, Live, hj]
      | inr hkj => simpa [Live, hkj] using hk
  · intro k hk
    cases eq_or_ne k j with
    | inl hkj => simp [hkj, Touched] at hk
    | inr hkj => simpa [Touched, hkj] using hk

/-- The group hears of an attempt that raised nothing, or that was cancelled with the enclosing
scope. -/
theorem taskDone_eq (hcalled : s.group.cancelCalled = false)
    (he : s.group.exception (.attempt j) = none ∨
      s.group.exception (.attempt j) = some (.cancelled true) ∧ s.outerCancelled = true)
    (reached : List Nat) :
    taskDone s j reached = { s with group := TaskGroup.removed s.group (.attempt j) } := by
  have hdone : (TaskGroup.taskDone s.group (.attempt j) none s.outerCancelled).1 =
      TaskGroup.removed s.group (.attempt j) := by
    unfold TaskGroup.taskDone
    obtain he | ⟨he, houter⟩ := he
    · rw [he]
      rfl
    · rw [he]
      simp [TaskGroup.report, TaskGroup.Exc.isCancelled, TaskGroup.removed, houter]
  rw [taskDone, hdone]
  have hsame : (TaskGroup.removed s.group (.attempt j)).cancelCalled = false := hcalled
  simp [hsame]

/-- The task of an attempt leaves the group. -/
theorem Undisturbed.taskDone (undisturbed : Undisturbed s) (sound : Sound s) {rest : List Handle}
    (hready : s.ready = .taskDone j :: rest) (reached : List Nat) :
    Fate (taskDone { s with ready := rest } j reached) := by
  obtain ⟨how, hj⟩ : ∃ how, s.attempt j = .ended how :=
    sound.due (.taskDone j) (hready ▸ List.mem_cons_self)
  obtain ⟨hserved, -⟩ := sound.served hready
  obtain ⟨-, hprogress⟩ := hserved.taskDone (i := j) hj reached
  have hraises := sound.accounts.outcome j how hj
  have served := undisturbed.served hready (by simp) (by simp)
  have removed : Undisturbed { s with
      ready := rest
      group := TaskGroup.removed s.group (.attempt j) } := by
    apply served.aside
    · constructor
      · rfl
      · rfl
      · rfl
      · rfl
      · rfl
      · rfl
      · rfl
      · rfl
      · rfl
      · intro k t hs hmem
        have hne : k ≠ j := by
          rintro rfl
          obtain ⟨front, back, hqueue, hfront⟩ := (undisturbed.finished k t hs).queued
          rw [hready] at hqueue
          cases front with
          | nil => simp at hqueue
          | cons x front =>
              rw [List.cons_append, List.cons.injEq] at hqueue
              simp [← hqueue.1] at hfront
        exact (List.mem_erase_of_ne (by simpa using hne)).mpr hmem
      · exact fun _ h => h
    · exact fun _ h => h
  cases how with
  | connected =>
      have hdecided : Decided { s with ready := rest } := .inl (sound.accounts.won j hj)
      exact .decided (hdecided.later hprogress)
  | other e =>
      have hdecided : Decided { s with ready := rest } := .inr ⟨j, e, hj⟩
      exact .decided (hdecided.later hprogress)
  | osError e =>
      apply Fate.undisturbed
      rw [taskDone_eq (s := { s with ready := rest }) undisturbed.called (.inl hraises)]
      exact removed
  | cancelled =>
      apply Fate.undisturbed
      have houter := undisturbed.outerCancelled sound.due (i := j) (.inr hj)
      rw [taskDone_eq (s := { s with ready := rest }) undisturbed.called (.inr ⟨hraises, houter⟩)]
      exact removed

/-- The host waits for tasks in `__aexit__()` only. -/
theorem Linked.exiting_of_waiting (linked : Linked s) {f : FutureId}
    (h : s.group.loop.point .host = .waiting f) : s.host = .exiting := by
  have hphase := (linked.inv.exit .host (by simp [h, TaskGroup.Point.isExit])).2
  have hstands := linked.stands
  cases hs : s.host with
  | eventWait i future timedOut =>
      rw [hs] at hstands
      rw [hstands.2.outside] at h
      cases h
  | exiting => rfl
  | ended e =>
      rw [hs] at hstands
      rw [show _ = _ from hstands] at hphase
      cases hphase

/-- A callback of the wait in `__aexit__()`, which goes on until the next delivery. -/
theorem Undisturbed.onCompletion (undisturbed : Undisturbed s) (sound : Sound s) {f : FutureId}
    {rest : List Handle} (hready : s.ready = .onCompletion j f :: rest) :
    Undisturbed (onCompletion { s with ready := rest } j f) := by
  obtain ⟨how, hj⟩ : ∃ how, s.attempt j = .ended how :=
    sound.due (.onCompletion j f) (hready ▸ List.mem_cons_self)
  have served := undisturbed.served hready (by simp) (by simp)
  have main : s.group.loop.point .host = .waiting f → Undisturbed { s with
      ready := rest
      group := TaskGroup.onCompletion s.group (.attempt j) f } := by
    intro hpoint
    have hs := sound.toLinked.exiting_of_waiting hpoint
    obtain ⟨hexc, hshield⟩ := undisturbed.exiting hs
    obtain ⟨hunfinished, hfuture⟩ := undisturbed.waiting f hpoint
    have hpoint' : (TaskGroup.onCompletion s.group (.attempt j) f).loop.point .host = .waiting f :=
      (TaskGroup.point_congr (congrFun (onCompletion_loop _ _ _) _)).trans hpoint
    have hrest : ∀ i, Live s i → .attempt i ∈ s.group.unfinished.erase (.attempt j) := by
      intro i hi
      have hne : i ≠ j := by
        rintro rfl
        exact hi.2 how hj
      exact (List.mem_erase_of_ne (by simpa using hne)).mpr (hunfinished i hi)
    constructor
    · apply Quiet.exits
      · exact hs
      · exact undisturbed.called
      · simpa using hexc
      · exact hshield
      · intro g hg
        obtain rfl : f = g := TaskGroup.Point.waiting.inj (hpoint'.symm.trans hg)
        refine ⟨hrest, ?_⟩
        simp only [TaskGroup.onCompletion]
        split_ifs with hempty
        · right
          intro i hi
          have hmem := hrest i hi
          rw [hempty] at hmem
          cases hmem
        · exact hfuture
    · intro k hk
      have hheld := undisturbed.held k hk
      have hheld' := hheld.served hready (by simp)
      refine ⟨hheld'.queued, fun _ => ?_, hheld.ongoing⟩
      obtain ⟨g, w, front, back, houtlasts⟩ := hheld.exiting hs
      obtain ⟨front', hfront, hqueue⟩ : ∃ front', front = .onCompletion j f :: front' ∧
          rest = front' ++ .deliver .outer :: back := by
        have hqueue := houtlasts.queued
        rw [hready] at hqueue
        cases front with
        | nil => simp at hqueue
        | cons x front' =>
            rw [List.cons_append, List.cons.injEq] at hqueue
            exact ⟨front', by rw [hqueue.1], hqueue.2⟩
      have hne : w ≠ j := by
        rintro rfl
        exact houtlasts.completion f (by simp [hfront])
      have hmem : .attempt w ∈ s.group.unfinished.erase (.attempt j) :=
        (List.mem_erase_of_ne (by simpa using hne)).mpr houtlasts.unfinished
      have hsome : s.group.unfinished.erase (.attempt j) ≠ [] := List.ne_nil_of_mem hmem
      refine ⟨g, w, front', back, ?_, ?_, hmem, hqueue, fun g h => ?_⟩
      · simpa [TaskGroup.onCompletion, hsome] using houtlasts.point
      · simpa [TaskGroup.onCompletion, hsome] using houtlasts.future
      · exact houtlasts.completion g (by simp [hfront, h])
  rw [ConnectTcp.onCompletion]
  split_ifs with hpoint
  · dsimp only
    split_ifs
    · exact (main hpoint).push (by simp)
    · exact main hpoint
  · exact served

theorem suspended_eq (s : State α ε) : ∃ handles, suspended s = push s handles := by
  rw [suspended]
  split
  · exact ⟨_, rfl⟩
  · exact ⟨_, rfl⟩
  · exact ⟨[], by simp [push]⟩

/-- A wait for all tasks that are left begins. -/
theorem WaitsFor.begins (agree : Agree s) (hattempt : s'.attempt = s.attempt)
    (hunfinished : s'.group.unfinished = s.group.tasks) {f : FutureId}
    (hfuture : s'.group.loop.future f = .pending) : WaitsFor s' f where
  unfinished i hi := by
    rw [hunfinished]
    rw [Live, hattempt] at hi
    exact agree.mem_tasks hi.1 hi.2
  future := .inl hfuture

/-- The enclosing scope comes back before the group can be left. -/
structure Coming (s : State α ε) (w : Nat) : Prop where
  queued : .deliver .outer ∈ s.ready
  task : .attempt w ∈ s.group.tasks
  completion : ∀ f, .onCompletion w f ∉ s.ready

/-- The host comes to `__aexit__()` after its block. -/
theorem Undisturbed.entersExit (hcalled : s.group.cancelCalled = false) (agree : Agree s)
    (hcoming : ∀ k, Touched s k → ∃ w, Coming s w) : Undisturbed (entersExit s none) := by
  have hcalm := agree.calm .host
  have hgroup := aexit_group s.group none
  cases htasks : s.group.tasks with
  | nil =>
      rw [if_pos htasks] at hgroup
      simp only [ConnectTcp.entersExit, hgroup]
      constructor
      · apply Quiet.exits
        · rfl
        · exact hcalled
        · simp [excAtExit_none, Loop.throws, Loop.waits, Coroutine.waits, hcalm, exiting_excVal]
        · rfl
        · intro f hf
          simp at hf
      · intro k hk
        obtain ⟨w, hcoming⟩ := hcoming k hk
        have hmem := hcoming.task
        rw [htasks] at hmem
        cases hmem
  | cons u rest =>
      rw [if_neg (by simp [htasks])] at hgroup
      have hpending : (s.group.loop.createFuture.moveTo .host
          (.waiting s.group.loop.nextFuture)).future s.group.loop.nextFuture = .pending := by
        simp
      simp only [ConnectTcp.entersExit, hgroup]
      constructor
      · apply Quiet.exits
        · rfl
        · exact hcalled
        · simp [excAtExit_none, Loop.throws, Loop.waits, Coroutine.waits, hcalm, exiting_excVal]
        · rfl
        · intro f hf
          obtain rfl : s.group.loop.nextFuture = f := by simpa using hf
          apply WaitsFor.begins agree
          · rfl
          · rfl
          · exact hpending
      · intro k hk
        obtain ⟨w, hcoming⟩ := hcoming k hk
        obtain ⟨front, back, hqueue⟩ := List.append_of_mem hcoming.queued
        refine ⟨hcoming.queued, fun _ => ?_, by simp⟩
        refine ⟨s.group.loop.nextFuture, w, front, back, by simp, hpending, hcoming.task, hqueue, ?_⟩
        intro g h
        apply hcoming.completion g
        rw [hqueue]
        exact List.mem_append_left _ h

/-- The host comes to its next wait in the block, or to the one in `__aexit__()`. -/
theorem Undisturbed.nextAddress (hcalled : s.group.cancelCalled = false) (agree : Agree s)
    (block : InBlock s i) (hcoming : ∀ k, Touched s k → ∃ w, Coming s w) (expired : Bool) :
    Undisturbed (nextAddress s i expired) := by
  rw [ConnectTcp.nextAddress]
  split
  · rw [startSoon_group block]
    have hpoint : (TaskGroup.added s.group (.attempt i) none).loop.point .host = .outside := by
      simpa [TaskGroup.added] using block.outside
    constructor
    · constructor
      · exact hcalled
      · intro j t hs
        cases hs
      · intro j t hs
        cases hs
      · intro hs
        cases hs
      · intro f hf
        rw [push_group, hpoint] at hf
        cases hf
    · intro k hk
      have htouched : Touched s k := by
        cases eq_or_ne k i with
        | inl hki => simp [hki, Touched] at hk
        | inr hki => simpa [Touched, hki] using hk
      obtain ⟨w, hcoming⟩ := hcoming k htouched
      exact .inBlock rfl (List.mem_append_left _ hcoming.queued)
  · rw [exitGroup_none]
    obtain ⟨handles, heq⟩ := suspended_eq (ConnectTcp.entersExit s none)
    rw [heq]
    apply (Undisturbed.entersExit hcalled agree hcoming).push
    intro j t hs
    cases hs

/-- The host goes on in `__aexit__()` without an interruption. -/
theorem Undisturbed.resumeExit (undisturbed : Undisturbed s) (sound : Sound s)
    (hs : s.host = .exiting) (hnone : ∀ i, ¬ Touched s i) (reached : List Nat) :
    Undisturbed (resumeExit s reached) := by
  obtain ⟨hexc, hshield⟩ := undisturbed.exiting hs
  have hthrows := (excAtExit_none.mp hexc).1
  have hnoticed : noticed s reached = s := by simp [noticed, hthrows]
  cases htasks : s.group.tasks with
  | nil =>
      obtain ⟨x, hends⟩ := resumeExit_ends sound.toLinked hs sound.accounts.interrupted
        sound.accounts.others htasks reached
      rw [hends, hnoticed]
      constructor
      · constructor
        · simp [departed, TaskGroup.departed, awake, undisturbed.called, hthrows]
        · intro j t hs'
          cases hs'
        · intro j t hs'
          cases hs'
        · intro hs'
          cases hs'
        · intro f hf
          simp [departed, TaskGroup.departed] at hf
      · exact fun i hi => absurd hi (hnone i)
  | cons u rest =>
      have hsome : s.group.tasks ≠ [] := by simp [htasks]
      rw [resumeExit_waits sound.toLinked hs sound.accounts.interrupted hsome reached, hnoticed]
      obtain ⟨handles, heq⟩ := suspended_eq { s with group := waitsAgain s.group }
      rw [heq]
      apply Undisturbed.push
      · constructor
        · apply Quiet.exits
          · exact hs
          · simp [waitsAgain, awake, undisturbed.called, hthrows]
          · simp [excAtExit_none, waitsAgain, awake, hexc, Loop.throws, Loop.waits, Coroutine.waits]
          · exact hshield
          · intro f hf
            obtain rfl : s.group.loop.nextFuture = f := by simpa [waitsAgain] using hf
            apply WaitsFor.begins sound.toAgree
            · rfl
            · rfl
            · simp [waitsAgain]
        · exact fun i hi => absurd hi (hnone i)
      · intro j t hs'
        rw [show s.host = _ from hs'] at hs
        cases hs

theorem HostInterrupted.reachHost_eventWait (hs : s.host = .eventWait j .pending false) :
    HostInterrupted (reachHost s) := by
  simp [reachHost, hs, HostInterrupted, push]

theorem HostInterrupted.reachHost_exiting (hs : s.host = .exiting) {f : FutureId}
    (hpoint : s.group.loop.point .host = .waiting f) (hshield : s.waitShielded = false)
    (hpending : s.group.loop.future f = .pending) : HostInterrupted (reachHost s) := by
  have hthrows : (s.group.loop.cancel .host).throws .host = true :=
    Loop.cancel_throws (by simp [hpoint, Coroutine.done])
  simp [reachHost, hs, hpoint, hshield, hpending, HostInterrupted, excAtExit_some, hthrows]

theorem Aside.reachAttempts (s : State α ε) (reached : List Nat) :
    Aside s (reachAttempts s reached) := by
  refine ⟨rfl, rfl, rfl, rfl, rfl, rfl, rfl, rfl, rfl, fun _ _ _ => id, fun i hi => ?_⟩
  obtain heq | heq := (Signalled.reachAttempts s reached).attempt i <;> simpa [Live, heq] using hi

/-- Only attempts that are under way are newly cancelled. -/
theorem touched_cases (h : Touched (reachAttempts s reached) i) : Touched s i ∨ Live s i := by
  obtain heq | heq := (Signalled.reachAttempts s reached).attempt i
  · exact .inl (by simpa [Touched, heq] using h)
  · obtain h | h := h
    · rw [heq] at h
      cases hi : s.attempt i <;> simp [hi, Attempt.interrupt] at h
      exact .inr ⟨by simp [hi], by simp [hi]⟩
    · exact .inl (.inr (by simpa [heq] using h))

/-- A delivery that does not reach the host comes back to it, or reaches nobody. -/
theorem Quiet.reaches (quiet : Quiet s) (reached : List Nat)
    (hback : (∃ j future t, s.host = .eventWait j future t) ∨
      ∀ i, ¬ Live s i ∧ ¬ Touched s i) :
    Undisturbed (ConnectTcp.push (reachAttempts s reached) [.deliver .outer]) where
  toQuiet := (quiet.aside (.reachAttempts s reached)).push (by simp)
  held i hi := by
    obtain ⟨j, future, t, hs⟩ | hnone := hback
    · have hs' : (ConnectTcp.push (reachAttempts s reached) [.deliver .outer]).host =
          .eventWait j future t := hs
      apply Held.inBlock hs'
      simp [ConnectTcp.push]
    · obtain h | h := touched_cases (s := s) hi
      · exact absurd h (hnone i).2
      · exact absurd h (hnone i).1

/-- In the block a cancelled wait for an event is one that the enclosing scope has cancelled, or
whose timeout has expired. -/
theorem Fate.deliver (quiet : Quiet s ∨ ∃ j t, s.host = .eventWait j .cancelled t)
    (houter : s.outerCancelled = true) (sound : Sound s)
    (hheld : ∀ i, Touched s i → (∀ e, s.host ≠ .ended e) ∧ (s.host = .exiting →
      ∃ f, s.group.loop.point .host = .waiting f ∧ s.group.loop.future f = .pending))
    (reached : List Nat) : Fate (push (deliver s true reached) [.deliver .outer]) := by
  have interrupts : HostInterrupted (reachHost s) →
      Fate (push (ConnectTcp.deliver s true reached) [.deliver .outer]) := by
    intro h
    have houter' := (Signalled.reachHost s).outer houter
    have hreached := (Signalled.reachAttempts (reachHost s) reached).interrupted ⟨houter', h⟩
    exact .interrupted hreached
  obtain quiet | ⟨j, t, hs⟩ := quiet
  · have unreached : reachHost s = s → ((∃ j future t, s.host = .eventWait j future t) ∨
        ∀ i, ¬ Live s i ∧ ¬ Touched s i) →
        Fate (push (ConnectTcp.deliver s true reached) [.deliver .outer]) := by
      intro hreach hback
      rw [ConnectTcp.deliver, if_pos rfl, hreach]
      exact .undisturbed (quiet.reaches reached hback)
    cases hs : s.host with
    | eventWait j future t =>
        cases future with
        | pending =>
            cases t with
            | false => exact interrupts (.reachHost_eventWait hs)
            | true => exact unreached (by simp [reachHost, hs]) (.inl ⟨j, _, _, hs⟩)
        | finished => exact unreached (by simp [reachHost, hs]) (.inl ⟨j, _, _, hs⟩)
        | cancelled =>
            apply interrupts
            simp [reachHost, hs, HostInterrupted]
    | exiting =>
        obtain ⟨-, hshield⟩ := quiet.exiting hs
        obtain hpoint | ⟨f, hpoint⟩ := exit_point (sound.inExit hs).point
        · apply unreached (by simp [reachHost, hs, hpoint])
          refine .inr fun i => ⟨fun hi => ?_, fun hi => ?_⟩
          · have hmem := sound.mem_tasks hi.1 hi.2
            rw [(sound.inExit hs).checkpoint hpoint] at hmem
            cases hmem
          · obtain ⟨f, hf, -⟩ := (hheld i hi).2 hs
            rw [hpoint] at hf
            cases hf
        · by_cases hpending : s.group.loop.future f = .pending
          · exact interrupts (.reachHost_exiting hs hpoint hshield hpending)
          · apply unreached (by simp [reachHost, hs, hpoint, hpending])
            refine .inr fun i => ⟨(quiet.waiting f hpoint).future.resolve_left hpending i, ?_⟩
            intro hi
            obtain ⟨g, hg, hpending'⟩ := (hheld i hi).2 hs
            rw [hpoint] at hg
            cases hg
            exact hpending hpending'
    | ended e =>
        apply unreached (by simp [reachHost, hs])
        refine .inr fun i => ⟨fun hi => ?_, fun hi => ?_⟩
        · obtain ⟨how, h⟩ := sound.toLinked.noneUnderWay hs hi.1
          exact hi.2 how h
        · exact (hheld i hi).1 e hs
  · apply interrupts
    simp [reachHost, hs, HostInterrupted]

theorem Held.pending (held : Held s) : (∀ e, s.host ≠ .ended e) ∧ (s.host = .exiting →
    ∃ f, s.group.loop.point .host = .waiting f ∧ s.group.loop.future f = .pending) := by
  refine ⟨held.ongoing, fun hs => ?_⟩
  obtain ⟨f, j, front, back, houtlasts⟩ := held.exiting hs
  exact ⟨f, houtlasts.point, houtlasts.future⟩

/-- The timeout of the host's wait expires, and its future is cancelled. -/
theorem Undisturbed.timesOut (undisturbed : Undisturbed s) (due : AllDue s) (j : Nat) :
    Fate (ConnectTcp.push { s with host := .eventWait j .cancelled true } [.host]) := by
  obtain houter | houter := Bool.eq_false_or_eq_true s.outerCancelled
  · exact .interrupted ⟨houter, by simp [HostInterrupted]⟩
  · apply Fate.undisturbed
    constructor
    · constructor
      · exact undisturbed.called
      · intro k t' hs'
        cases hs'
      · intro k t' hs'
        cases hs'
        exact ⟨rfl, houter⟩
      · intro hs'
        cases hs'
      · exact fun f hf => ⟨(undisturbed.waiting f hf).unfinished, (undisturbed.waiting f hf).future⟩
    · intro i hi
      have htrue := undisturbed.outerCancelled due (i := i) hi
      rw [houter] at htrue
      cases htrue

theorem Undisturbed.timeout (undisturbed : Undisturbed s) (due : AllDue s) : Fate (timeout s) := by
  rw [ConnectTcp.timeout]
  split
  · rename_i hs
    exact undisturbed.timesOut due _
  · rename_i j future t _ hs
    apply Fate.undisturbed
    constructor
    · constructor
      · exact undisturbed.called
      · intro k t' hs'
        cases hs'
        have hwoken := undisturbed.finished _ _ hs
        exact ⟨hwoken.task, hwoken.queued, hwoken.completion⟩
      · intro k t' hs'
        cases hs'
        exact ⟨rfl, (undisturbed.cancelled _ _ hs).2⟩
      · intro hs'
        cases hs'
      · exact fun f hf => ⟨(undisturbed.waiting f hf).unfinished, (undisturbed.waiting f hf).future⟩
    · intro i hi
      exact .inBlock rfl (undisturbed.held i hi).queued
  · exact .undisturbed undisturbed

theorem Undisturbed.expire (undisturbed : Undisturbed s) (due : AllDue s) (i : Nat) :
    Fate (expire s i) := by
  rw [ConnectTcp.expire]
  split
  · rename_i hs
    split_ifs
    · exact undisturbed.timesOut due _
    · exact .undisturbed undisturbed
  · exact .undisturbed undisturbed

theorem Undisturbed.cancelOuter (undisturbed : Undisturbed s) (sound : Sound s)
    (reached : List Nat) : Fate (cancelOuter s reached) := by
  cases houter : s.outerCancelled with
  | true => exact .undisturbed (by simpa [ConnectTcp.cancelOuter, houter] using undisturbed)
  | false =>
      have linked : Linked { s with outerCancelled := true } :=
        sound.toLinked.keep rfl rfl (fun _ => rfl) (.inl rfl)
      obtain ⟨hsound, -⟩ := sound.signalled linked (.outerCalled s)
      have hquiet : Quiet { s with outerCancelled := true } ∨
          ∃ j t, s.host = .eventWait j .cancelled t := by
        by_cases hcancelled : ∃ j t, s.host = .eventWait j .cancelled t
        · exact .inr hcancelled
        · left
          constructor
          · exact undisturbed.called
          · intro j t hs
            have hwoken := undisturbed.finished j t hs
            exact ⟨hwoken.task, hwoken.queued, hwoken.completion⟩
          · exact fun j t hs => absurd ⟨j, t, hs⟩ hcancelled
          · exact undisturbed.exiting
          · exact fun f hf => ⟨(undisturbed.waiting f hf).unfinished,
              (undisturbed.waiting f hf).future⟩
      have hfate := Fate.deliver (s := { s with outerCancelled := true }) hquiet rfl hsound
        (fun i hi => (undisturbed.held i hi).pending) reached
      simpa [ConnectTcp.cancelOuter, houter, undisturbed.called] using hfate

/-- The host runs, and nothing has interrupted it. -/
theorem Undisturbed.runHost (undisturbed : Undisturbed s) (sound : Sound s)
    {rest : List Handle} (hready : s.ready = .host :: rest) (reached : List Nat)
    (expired : Bool) : Undisturbed (runHandle { s with ready := rest } reached expired .host) := by
  obtain ⟨hserved, -⟩ := sound.served hready
  rw [runHandle]
  split_ifs with hwoken
  · rw [ConnectTcp.resumeHost]
    split
    · rename_i j t hs
      have hs' : s.host = .eventWait j .finished t := hs
      have hwoken := undisturbed.finished j t hs'
      apply Undisturbed.nextAddress (s := { s with ready := rest }) undisturbed.called
        hserved.toAgree (hserved.inBlock hs)
      intro k hk
      have hheld := (undisturbed.held k hk).served hready (by simp)
      refine ⟨j, hheld.queued, hwoken.task, fun f hf => hwoken.completion f ?_⟩
      rw [hready]
      exact List.mem_cons_of_mem _ hf
    · rename_i j t hs
      have hs' : s.host = .eventWait j .cancelled t := hs
      obtain ⟨ht, houter⟩ := undisturbed.cancelled j t hs'
      rw [if_pos ⟨ht, by simp [effectivelyCancelled, undisturbed.called, houter]⟩]
      apply Undisturbed.nextAddress (s := { s with ready := rest }) undisturbed.called
        hserved.toAgree (hserved.inBlock hs)
      intro k hk
      have htrue := undisturbed.outerCancelled sound.due (i := k) hk
      rw [houter] at htrue
      cases htrue
    · rename_i hs
      have hs' : s.host = .exiting := hs
      have served := undisturbed.served hready (fun _ j t h => by simp [hs'] at h) (by simp)
      apply served.resumeExit hserved hs
      intro i hi
      obtain ⟨f, hpoint, hpending⟩ := (undisturbed.held i hi).pending.2 hs'
      simp [hostWoken, hs', Loop.wakeUpQueued, Loop.waits, hpoint, Coroutine.waits, hpending]
        at hwoken
    · rename_i hfinished _ _
      exact undisturbed.served hready (fun _ j t h => hfinished j t h) (by simp)
  · apply undisturbed.served hready
    · intro _ j t hs
      simp [hostWoken, hs] at hwoken
    · simp

theorem Undisturbed.runHandle (undisturbed : Undisturbed s) (sound : Sound s) {handle : Handle}
    {rest : List Handle} (hready : s.ready = handle :: rest) (reached : List Nat)
    (expired : Bool) : Fate (runHandle { s with ready := rest } reached expired handle) := by
  have hdue := sound.due handle (hready ▸ List.mem_cons_self)
  obtain ⟨hserved, -⟩ := sound.served hready
  cases handle with
  | host => exact .undisturbed (undisturbed.runHost sound hready reached expired)
  | start j =>
      have served := undisturbed.served hready (by simp) (by simp)
      apply Fate.undisturbed
      rw [ConnectTcp.runHandle]
      split_ifs with hcreated
      · exact served.start hserved.toLinked (Attempt.eq_created hcreated)
      · exact served
  | taskDone j => exact undisturbed.taskDone sound hready reached
  | onCompletion j f => exact .undisturbed (undisturbed.onCompletion sound hready)
  | deliver scope =>
      cases scope with
      | group =>
          have hcalled : s.group.cancelCalled = true := hdue
          rw [undisturbed.called] at hcalled
          cases hcalled
      | outer =>
          have hcalled : ¬ s.group.cancelCalled = true := by simp [undisturbed.called]
          rw [ConnectTcp.runHandle, if_neg hcalled]
          apply Fate.deliver (s := { s with ready := rest })
          · exact .inl (undisturbed.toQuiet.served hready (by simp))
          · exact hdue
          · exact hserved
          · exact fun i hi => (undisturbed.held i hi).pending
      | wait i => exact (undisturbed.served hready (by simp) (by simp)).expire hserved.due i

/-- What was decided or has interrupted the host stays, and nothing else happens unseen. -/
theorem Fate.step (fate : Fate s) (sound : Sound s) (won : Won s) {a : Action ε}
    (h : step s a = some (s', ())) : Fate s' := by
  obtain ⟨-, progress⟩ := sound.step won h
  cases fate with
  | decided hdecided => exact .decided (hdecided.later progress)
  | interrupted hinterrupted => exact .interrupted (progress.interrupted hinterrupted)
  | undisturbed undisturbed =>
      cases a with
      | run reached expired =>
          simp only [ConnectTcp.step] at h
          split at h
          · rename_i handle rest hready
            cases h
            exact undisturbed.runHandle sound hready reached expired
          · cases h
      | timeout =>
          cases h
          exact undisturbed.timeout sound.due
      | cancelOuter reached =>
          cases h
          exact undisturbed.cancelOuter sound reached
      | ends i how reached =>
          simp only [ConnectTcp.step] at h
          split at h
          · rename_i b hi
            split_ifs at h with hrefused
            cases h
            apply undisturbed.tryConnect sound hi
            rintro rfl
            cases b
            · simp at hrefused
            · rfl
          · cases h
      | closes i =>
          simp only [ConnectTcp.step] at h
          split at h
          · rename_i b hi
            have hdecided : Decided s := .inl (sound.accounts.late i b hi)
            exact .decided (hdecided.later progress)
          · cases h

theorem Fate.initial (targetAddrs : List α) (expired : Bool) :
    Fate (initial ε targetAddrs expired) := by
  apply Fate.undisturbed
  apply Undisturbed.nextAddress rfl (Agree.entered targetAddrs) (.entered targetAddrs)
  rintro k (h | h) <;> cases h

end Anyio.ConnectTcp
