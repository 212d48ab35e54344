import Anyio.ConnectTcp.Accounts

/-!
# The steps of `connect_tcp()`

Each step keeps the books and takes nothing back.
-/

namespace Anyio.ConnectTcp

open Asyncio Library
open TaskGroup (Exc)

variable {α ε : Type*} {s s' : State α ε} {i j : Nat} {reached : List Nat}

/-- The group, the attempts, the books and the queue agree. -/
structure Sound (s : State α ε) : Prop extends Linked s where
  accounts : Accounts s
  due : AllDue s

theorem Sound.later (sound : Sound s) (linked : Linked s') (accounts : Accounts s')
    (progress : Progress s s') : Sound s' :=
  ⟨linked, accounts, sound.due.later progress⟩

/-- An attempt that has not ended moves on. -/
theorem Progress.moves {a : Attempt ε} (hattempt : s'.attempt = Function.update s.attempt i a)
    (ha : a ≠ .unborn) (hlive : ∀ how, s.attempt i ≠ .ended how)
    (haddrs : s'.targetAddrs = s.targetAddrs) (hstored : s'.connectedStream = s.connectedStream)
    (hcalled : s.group.cancelCalled = true → s'.group.cancelCalled = true)
    (houter : s'.outerCancelled = s.outerCancelled) (hinterrupted : Interrupted s → Interrupted s')
    (hready : ∀ handle ∈ s'.ready, handle ∈ s.ready ∨ Due s' handle) : Progress s s' where
  targetAddrs := haddrs
  born j h := by
    rw [hattempt, Function.update_apply]
    split_ifs
    · exact ha
    · exact h
  ended j how h := by
    rw [hattempt, Function.update_apply]
    split_ifs with hj
    · exact absurd (hj ▸ h) (hlive how)
    · exact h
  stored j h := hstored.trans h
  called := hcalled
  outer h := houter.trans h
  interrupted := hinterrupted
  ready := hready

/-- The attempts and the queue stay. -/
theorem Progress.stays (haddrs : s'.targetAddrs = s.targetAddrs) (hattempt : s'.attempt = s.attempt)
    (hstored : s'.connectedStream = s.connectedStream)
    (houter : s'.outerCancelled = s.outerCancelled) (hready : s'.ready = s.ready)
    (hcalled : s.group.cancelCalled = true → s'.group.cancelCalled = true)
    (hinterrupted : Interrupted s → Interrupted s') : Progress s s' where
  targetAddrs := haddrs
  born _ h := hattempt ▸ h
  ended _ _ h := hattempt ▸ h
  stored _ h := hstored.trans h
  called := hcalled
  outer h := houter.trans h
  interrupted := hinterrupted
  ready _ h := .inl (hready ▸ h)

/-- The host sees its own task in the loop, not those of the attempts. -/
theorem throws_congr {l k : Loop Party (TaskGroup.Point Party)}
    (htask : k.task .host = l.task .host) (hfuture : k.future = l.future) :
    k.throws .host = l.throws .host := by
  simp only [Loop.throws, Loop.waits, Loop.point, htask, hfuture]

/-- The host stands where it stood. -/
theorem Interrupted.congr (h : Interrupted s) (houter : s'.outerCancelled = s.outerCancelled)
    (hhost : s'.host = s.host) (htask : s'.group.loop.task .host = s.group.loop.task .host)
    (hfuture : s'.group.loop.future = s.group.loop.future)
    (hexcVal : s'.group.excVal = s.group.excVal) : Interrupted s' := by
  refine ⟨houter.trans h.1, ?_⟩
  have hexc : excAtExit s'.group = excAtExit s.group := by
    rw [excAtExit, excAtExit, throws_congr htask hfuture, hexcVal]
  have hint := h.2
  simp only [HostInterrupted] at hint ⊢
  rw [hhost, hexc]
  exact hint

theorem Progress.finishAttempt (hlive : ∀ how, s.attempt i ≠ .ended how) (how : Ends ε)
    (exc : Option (Exc ε)) : Progress s (finishAttempt s i how exc) := by
  apply Progress.moves (a := .ended how) (i := i)
  · rfl
  · simp
  · exact hlive
  · rfl
  · rfl
  · exact id
  · rfl
  · intro h
    exact h.congr rfl rfl (Loop.moveTo_task_of_ne (by simp) _) rfl rfl
  · intro handle h
    have hended : (ConnectTcp.finishAttempt s i how exc).attempt i = .ended how := by
      simp [ConnectTcp.finishAttempt]
    simp only [ConnectTcp.finishAttempt, push, List.mem_append, List.mem_cons] at h
    obtain h | h | h := h
    · exact .inl h
    · rw [h]
      exact .inr ⟨how, hended⟩
    · simp only [completion] at h
      split at h
      · split_ifs at h
        · rw [List.mem_singleton.mp h]
          exact .inr ⟨how, hended⟩
        · cases h
      · cases h

/-- An attempt that has not ended is a task of the group. -/
theorem Agree.mem_tasks (agree : Agree s) (hborn : s.attempt i ≠ .unborn)
    (hlive : ∀ how, s.attempt i ≠ .ended how) : .attempt i ∈ s.group.tasks := by
  apply agree.inv.kept
  · exact (agree.spawned i).mpr hborn
  · rw [agree.points]
    intro h
    obtain ⟨how, h⟩ := Attempt.point_finished.mp h
    exact hlive how h

theorem Signalled.live (signalled : Signalled s s') (hlive : ∀ how, s.attempt i ≠ .ended how)
    (how : Ends ε) : s'.attempt i ≠ .ended how := by
  intro h
  obtain heq | heq := signalled.attempt i <;> exact hlive how (by simpa [heq] using h)

/-- An attempt that has not ended ends after its signals are out. -/
theorem Sound.ends (sound : Sound s) (signalled : Signalled s s') (linked : Linked s')
    (hout : (s.attempt i).point = .outside) {how : Ends ε} {exc : Option (Exc ε)}
    (hraises : Raises how exc) (hwon : how = .connected → s.connectedStream ≠ none) :
    Sound (finishAttempt s' i how exc) ∧ Progress s (finishAttempt s' i how exc) := by
  have hlive : ∀ how', s.attempt i ≠ .ended how' := by
    intro how' h
    rw [h] at hout
    cases hout
  have hborn : s.attempt i ≠ .unborn := by
    intro h
    rw [h] at hout
    cases hout
  have hout' : (s'.attempt i).point = .outside := by
    obtain heq | heq := signalled.attempt i <;> simp [heq, hout]
  have progress : Progress s (finishAttempt s' i how exc) :=
    signalled.toProgress.trans (.finishAttempt (signalled.live hlive) how exc)
  have accounts := (sound.accounts.signalled signalled).finishAttempt hraises
    (fun h => by rw [signalled.connectedStream]; exact hwon h)
    (by rw [signalled.tasks]; exact sound.mem_tasks hborn hlive)
  exact ⟨sound.later (linked.finishAttempt hout' how exc) accounts progress, progress⟩

/-- The stream of attempt `i` is the first. -/
def stores (s : State α ε) (i : Nat) : State α ε :=
  { s with
    connectedStream := some i
    stream := Function.update s.stream i .opened }

/-- The stream of attempt `i` came too late. -/
def discards (s : State α ε) (i : Nat) : State α ε :=
  { s with
    stream := Function.update s.stream i .closed
    attempt := Function.update s.attempt i (.closing false) }

theorem tryConnect_first (hnone : s.connectedStream = none) (i : Nat) (reached : List Nat) :
    tryConnect s i .connected reached =
      finishAttempt (setEvent (cancelScope (stores s i) true reached) i) i .connected none := by
  simp only [tryConnect, hnone, stores]

theorem tryConnect_late {w : Nat} (hsome : s.connectedStream = some w) (i : Nat)
    (reached : List Nat) : tryConnect s i .connected reached = discards s i := by
  simp only [tryConnect, hsome, discards]

theorem Sound.stores (sound : Sound s) (hnone : s.connectedStream = none) (i : Nat) :
    Sound (stores s i) ∧ Progress s (stores s i) := by
  have progress : Progress s (ConnectTcp.stores s i) := by
    refine ⟨rfl, fun _ => id, fun _ _ => id, ?_, id, id, id, fun _ => .inl⟩
    intro j h
    rw [hnone] at h
    cases h
  have linked : Linked (ConnectTcp.stores s i) :=
    sound.toLinked.keep rfl rfl (fun _ => rfl) (.inl rfl)
  exact ⟨sound.later linked (sound.accounts.stores hnone i) progress, progress⟩

theorem Sound.discards (sound : Sound s) {b : Bool} (hi : s.attempt i = .connecting b) {w : Nat}
    (hsome : s.connectedStream = some w) (hunstored : i ≠ w) :
    Sound (discards s i) ∧ Progress s (discards s i) := by
  have linked : Linked (ConnectTcp.discards s i) := by
    have := sound.toLinked.tryConnect hi .connected []
    rwa [tryConnect_late hsome] at this
  have progress : Progress s (ConnectTcp.discards s i) := by
    apply Progress.moves (a := .closing false) (i := i)
    · rfl
    · simp
    · simp [hi]
    · rfl
    · rfl
    · exact id
    · rfl
    · exact id
    · exact fun _ => .inl
  have accounts : Accounts (ConnectTcp.discards s i) := by
    apply sound.accounts.moves (a := .closing false) (i := i)
    · rfl
    · simp
    · intro b _
      simp [ConnectTcp.discards, hsome]
    · rfl
    · intro j
      simp only [ConnectTcp.discards, Function.update_apply]
      split_ifs with hj
      · simp [hj, sound.accounts.opened, hsome, hunstored.symm]
      · rfl
    · exact ⟨rfl, rfl, rfl⟩
    · exact fun _ h => h
    · exact sound.accounts.interrupted
  exact ⟨sound.later linked accounts progress, progress⟩

/-- The stored stream is that of an attempt that is over. -/
def Won (s : State α ε) : Prop :=
  ∀ w, s.connectedStream = some w → s.attempt w = .ended .connected

/-- `try_connect()` goes on after its connection attempt. -/
theorem Sound.tryConnect (sound : Sound s) (hwon : Won s) {b : Bool}
    (hi : s.attempt i = .connecting b) (how : Ends ε) (reached : List Nat) :
    Sound (tryConnect s i how reached) ∧ Progress s (tryConnect s i how reached) := by
  have hout : (s.attempt i).point = .outside := by rw [hi, Attempt.point]
  cases how with
  | connected =>
      cases hstream : s.connectedStream with
      | none =>
          obtain ⟨won, hprogress⟩ := sound.stores hstream i
          have hsignals : Signalled (ConnectTcp.stores s i)
              (setEvent (cancelScope (ConnectTcp.stores s i) true reached) i) :=
            (Signalled.cancelScope _ true reached).trans (.setEvent _ i)
          have hraises : Raises (.connected : Ends ε) none := .inl rfl
          obtain ⟨hsound, hends⟩ := won.ends hsignals
            ((won.toLinked.cancelScope true reached).setEvent i) hout hraises
            (by simp [ConnectTcp.stores])
          rw [tryConnect_first hstream]
          exact ⟨hsound, hprogress.trans hends⟩
      | some w =>
          rw [tryConnect_late hstream]
          apply sound.discards hi hstream
          rintro rfl
          rw [hwon i hstream] at hi
          cases hi
  | osError e =>
      have hnoted := Signalled.notes s (s.oserrors ++ [e])
      have hlinked := sound.toLinked.notes (s.oserrors ++ [e])
      exact sound.ends (hnoted.trans (.setEvent _ i)) (hlinked.setEvent i) hout rfl (by simp)
  | other e => exact sound.ends (.setEvent s i) (sound.toLinked.setEvent i) hout rfl (by simp)
  | cancelled => exact sound.ends (.setEvent s i) (sound.toLinked.setEvent i) hout rfl (by simp)

/-- A stream that came too late is closed. -/
theorem Sound.closes (sound : Sound s) {b : Bool} (hi : s.attempt i = .closing b) :
    Sound (finishAttempt (setEvent s i) i .connected
        (if b then some (.cancelled true) else none)) ∧
      Progress s (finishAttempt (setEvent s i) i .connected
        (if b then some (.cancelled true) else none)) := by
  apply sound.ends (.setEvent s i) (sound.toLinked.setEvent i)
  · rw [hi, Attempt.point]
  · cases b
    · exact .inl rfl
    · exact .inr rfl
  · exact fun _ => sound.accounts.late i b hi

/-- A task of an attempt starts. -/
theorem Sound.start (sound : Sound s) (hi : s.attempt i = .created) :
    Sound { s with
        attempt := Function.update s.attempt i (.connecting false)
        group := (TaskGroup.resume s.group (.attempt i) true false).1 } ∧
      Progress s { s with
        attempt := Function.update s.attempt i (.connecting false)
        group := (TaskGroup.resume s.group (.attempt i) true false).1 } := by
  have linked := sound.toLinked.start hi
  rw [resume_created sound.toLinked hi] at linked ⊢
  have progress : Progress s { s with
      attempt := Function.update s.attempt i (.connecting false)
      group := { s.group with loop := s.group.loop.resumeAt (.attempt i) .outside } } := by
    apply Progress.moves (a := .connecting false) (i := i)
    · rfl
    · simp
    · simp [hi]
    · rfl
    · rfl
    · exact id
    · rfl
    · intro h
      exact h.congr rfl rfl (Loop.resumeAt_task_of_ne (by simp) _) rfl rfl
    · exact fun _ => .inl
  have accounts : Accounts { s with
      attempt := Function.update s.attempt i (.connecting false)
      group := { s.group with loop := s.group.loop.resumeAt (.attempt i) .outside } } := by
    apply sound.accounts.moves (a := .connecting false) (i := i)
    · rfl
    · simp
    · simp
    · rfl
    · exact fun _ => Iff.rfl
    · exact ⟨rfl, rfl, rfl⟩
    · exact fun _ h => h
    · exact sound.accounts.interrupted
  exact ⟨sound.later linked accounts progress, progress⟩

/-- `task_done` of an attempt, and the delivery that it may start. -/
theorem Sound.taskDone (sound : Sound s) {how : Ends ε} (hi : s.attempt i = .ended how)
    (reached : List Nat) :
    Sound (taskDone s i reached) ∧ Progress s (taskDone s i reached) := by
  have linked := sound.toLinked.taskDone hi reached
  have haccounts := sound.accounts.taskDone hi s.outerCancelled
  have hprogress : Progress s { s with
      group := (TaskGroup.taskDone s.group (.attempt i) none s.outerCancelled).1 } := by
    obtain ⟨excs, called, hreported, heq⟩ := taskDone_cases s.group (.attempt i) s.outerCancelled
    rw [heq]
    apply Progress.stays
    · rfl
    · rfl
    · rfl
    · rfl
    · rfl
    · intro h
      cases hreported <;> simp [h]
    · intro h
      exact h.congr rfl rfl rfl rfl rfl
  rw [ConnectTcp.taskDone] at linked ⊢
  dsimp only at linked ⊢
  split_ifs at linked ⊢ with hcalled
  · have signalled := Signalled.startDelivery (s := { s with
      group := (TaskGroup.taskDone s.group (.attempt i) none s.outerCancelled).1 }) hcalled.2 true
      reached
    have progress := hprogress.trans signalled.toProgress
    exact ⟨sound.later linked (haccounts.signalled signalled) progress, progress⟩
  · exact ⟨sound.later linked haccounts hprogress, hprogress⟩

theorem Progress.entersExit {exc : Option (Exc ε)} (h : Interrupted s → exc ≠ none) :
    Progress s (entersExit s exc) := by
  apply Progress.stays
  · rfl
  · rfl
  · rfl
  · rfl
  · rfl
  · intro hcalled
    simp only [ConnectTcp.entersExit, aexit_group]
    cases exc <;> split_ifs <;> simp [TaskGroup.exiting, hcalled]
  · intro hint
    refine ⟨hint.1, ?_⟩
    rw [HostInterrupted]
    simp only [ConnectTcp.entersExit, excAtExit_some, aexit_group]
    right
    split_ifs <;> simpa [exiting_excVal] using h hint

theorem Progress.nextAddress (agree : Agree s) (block : InBlock s i) (h : ¬ Interrupted s)
    (expired : Bool) : Progress s (nextAddress s i expired) := by
  rw [ConnectTcp.nextAddress]
  split
  · rw [startSoon_group block]
    have hunborn : s.attempt i = .unborn := (block.started i).mpr le_rfl
    apply Progress.moves (a := .created) (i := i)
    · rfl
    · simp
    · simp [hunborn]
    · rfl
    · rfl
    · exact id
    · rfl
    · exact fun hint => absurd hint h
    · intro handle hmem
      apply (List.mem_append.mp hmem).imp_right
      intro hnew
      obtain rfl | hnew := List.mem_cons.mp hnew
      · simp [Due]
      · cases expired with
        | false => cases hnew
        | true =>
            rw [List.mem_singleton.mp hnew]
            trivial
  · rw [exitGroup_none]
    have hexit : Progress s (ConnectTcp.entersExit s none) := .entersExit fun hint => absurd hint h
    exact hexit.trans (Signalled.suspended (entersExit_ended agree none)).toProgress

theorem Sound.nextAddress (sound : Sound s) (block : InBlock s i) (h : ¬ Interrupted s)
    (expired : Bool) :
    Sound (nextAddress s i expired) ∧ Progress s (nextAddress s i expired) := by
  have linked := sound.toAgree.nextAddress block expired
  have accounts := sound.accounts.nextAddress sound.toAgree block expired
  have progress : Progress s (ConnectTcp.nextAddress s i expired) :=
    .nextAddress sound.toAgree block h expired
  exact ⟨sound.later linked accounts progress, progress⟩

theorem Sound.exitCancelled (sound : Sound s) (block : InBlock s i) (reached : List Nat) :
    Sound (exitGroup s (some (.cancelled true)) reached) ∧
      Progress s (exitGroup s (some (.cancelled true)) reached) := by
  have linked := sound.toLinked.exitCancelled block.outside reached
  have accounts := sound.accounts.exitCancelled sound.toLinked block reached
  have progress : Progress s (exitGroup s (some (.cancelled true)) reached) := by
    rw [exitGroup_some]
    have hcancel := sound.toLinked.cancelScope false reached
    have hexit : Progress (cancelScope s false reached)
        (entersExit (cancelScope s false reached) (some (.cancelled true))) :=
      .entersExit (by simp)
    exact ((Signalled.cancelScope s false reached).toProgress.trans hexit).trans
      (Signalled.suspended (entersExit_ended hcancel.toAgree _)).toProgress
  exact ⟨sound.later linked accounts progress, progress⟩

theorem Sound.resumeExit (sound : Sound s) (hs : s.host = .exiting) (reached : List Nat) :
    Sound (resumeExit s reached) ∧ Progress s (resumeExit s reached) := by
  have linked := sound.toLinked.resumeExit hs sound.accounts.interrupted sound.accounts.others
    reached
  have accounts := sound.accounts.resumeExit sound.toLinked hs reached
  have hnoticed := (Signalled.noticed s reached).toProgress
  have hgroup := noticed_group s reached
  have progress : Progress s (ConnectTcp.resumeExit s reached) := by
    cases htasks : s.group.tasks with
    | nil =>
        obtain ⟨x, hends⟩ := resumeExit_ends sound.toLinked hs sound.accounts.interrupted
          sound.accounts.others htasks reached
        rw [hends]
        apply hnoticed.trans
        apply Progress.stays
        · rfl
        · rfl
        · rfl
        · rfl
        · rfl
        · rw [hgroup]
          exact id
        · exact fun h => ⟨h.1, trivial⟩
    | cons u rest =>
        have hsome : s.group.tasks ≠ [] := by simp [htasks]
        rw [resumeExit_waits sound.toLinked hs sound.accounts.interrupted hsome reached]
        have hwaits := sound.toLinked.goesOn hs hsome reached
        apply (hnoticed.trans _).trans (Signalled.suspended hwaits.toAgree.finished).toProgress
        apply Progress.stays
        · rfl
        · rfl
        · rfl
        · rfl
        · rfl
        · rw [hgroup]
          exact id
        · intro h
          refine ⟨h.1, ?_⟩
          have hint := h.2
          rw [HostInterrupted] at hint ⊢
          simp only [noticed_host, hs, excAtExit_noticed] at hint ⊢
          exact excAtExit_some.mpr (.inr hint)
  exact ⟨sound.later linked accounts progress, progress⟩

theorem Sound.resumeHost (sound : Sound s) (reached : List Nat) (expired : Bool) :
    Sound (resumeHost s reached expired) ∧ Progress s (resumeHost s reached expired) := by
  rw [ConnectTcp.resumeHost]
  split
  · rename_i hs
    have hnot : ¬ Interrupted s := by
      rintro ⟨-, h⟩
      rw [HostInterrupted, hs] at h
      cases h
    exact sound.nextAddress (sound.inBlock hs) hnot expired
  · rename_i hs
    split_ifs with hcaught
    · have hnot : ¬ Interrupted s := by
        rintro ⟨houter, -⟩
        simp [effectivelyCancelled, houter] at hcaught
      exact sound.nextAddress (sound.inBlock hs) hnot expired
    · exact sound.exitCancelled (sound.inBlock hs) reached
  · rename_i hs
    exact sound.resumeExit hs reached
  · exact ⟨sound, .refl s⟩

/-- Signals keep the books. -/
theorem Sound.signalled (sound : Sound s) (linked : Linked s') (signalled : Signalled s s') :
    Sound s' ∧ Progress s s' :=
  ⟨sound.later linked (sound.accounts.signalled signalled) signalled.toProgress,
    signalled.toProgress⟩

theorem Sound.runHandle (sound : Sound s) (reached : List Nat) (expired : Bool) {handle : Handle}
    (due : Due s handle) : Sound (runHandle s reached expired handle) ∧
      Progress s (runHandle s reached expired handle) := by
  cases handle with
  | host =>
      rw [ConnectTcp.runHandle]
      split_ifs
      · exact sound.resumeHost reached expired
      · exact ⟨sound, .refl s⟩
  | start i =>
      rw [ConnectTcp.runHandle]
      split_ifs with hcreated
      · exact sound.start (Attempt.eq_created hcreated)
      · exact ⟨sound, .refl s⟩
  | taskDone i =>
      obtain ⟨how, hi⟩ := due
      exact sound.taskDone hi reached
  | onCompletion i f =>
      exact sound.signalled (sound.toLinked.onCompletion i f) (.onCompletion s i f)
  | deliver scope =>
      cases scope with
      | outer =>
          have hdeliver := Signalled.deliver s true reached
          rw [ConnectTcp.runHandle]
          split_ifs
          · exact sound.signalled (sound.toLinked.push _) (.push s (by simpa using due))
          · exact sound.signalled ((sound.toLinked.deliver true reached).push _)
              (hdeliver.trans (.push _ (by simpa [Due] using hdeliver.outer due)))
      | group =>
          have hdeliver := Signalled.deliver s true reached
          exact sound.signalled ((sound.toLinked.deliver true reached).push _)
            (hdeliver.trans (.push _ (by simpa [Due] using hdeliver.called due)))
      | wait i => exact sound.signalled (sound.toLinked.expire i) (.expire s i)

/-- The first handle leaves the queue. -/
theorem Sound.served {handle : Handle} {rest : List Handle} (sound : Sound s)
    (hready : s.ready = handle :: rest) :
    Sound { s with ready := rest } ∧ Progress s { s with ready := rest } := by
  have progress : Progress s { s with ready := rest } := by
    refine ⟨rfl, fun _ => id, fun _ _ => id, fun _ => id, id, id, id, fun x h => .inl ?_⟩
    rw [hready]
    exact List.mem_cons_of_mem handle h
  have linked : Linked { s with ready := rest } :=
    sound.toLinked.keep rfl rfl (fun _ => rfl) (.inl rfl)
  have accounts : Accounts { s with ready := rest } := by
    apply sound.accounts.hostMoves
    · rfl
    · rfl
    · rfl
    · rfl
    · exact fun _ h => h
    · exact .inl ⟨rfl, id⟩
    · exact sound.accounts.interrupted
  exact ⟨sound.later linked accounts progress, progress⟩

/-- What one step keeps. -/
theorem Sound.step (sound : Sound s) (won : Won s) {a : Action ε}
    (h : step s a = some (s', ())) : Sound s' ∧ Progress s s' := by
  cases a with
  | run reached expired =>
      simp only [ConnectTcp.step] at h
      split at h
      · rename_i handle rest hready
        cases h
        obtain ⟨hserved, hprogress⟩ := sound.served hready
        have hdue : Due s handle := sound.due handle (hready ▸ List.mem_cons_self)
        obtain ⟨hsound, hrun⟩ := hserved.runHandle reached expired (hdue.later hprogress)
        exact ⟨hsound, hprogress.trans hrun⟩
      · cases h
  | timeout =>
      cases h
      exact sound.signalled sound.toLinked.timeout (.timeout s)
  | cancelOuter reached =>
      cases h
      exact sound.signalled (sound.toLinked.cancelOuter reached) (.cancelOuter s reached)
  | ends i how reached =>
      simp only [ConnectTcp.step] at h
      split at h
      · rename_i hi
        split_ifs at h
        cases h
        exact sound.tryConnect won hi how reached
      · cases h
  | closes i =>
      simp only [ConnectTcp.step] at h
      split at h
      · rename_i hi
        cases h
        exact sound.closes hi
      · cases h

theorem Accounts.entered (targetAddrs : List α) : Accounts (entered ε targetAddrs) where
  opened i := by simp [ConnectTcp.entered]
  late i b h := by simp [ConnectTcp.entered] at h
  won i h := by simp [ConnectTcp.entered] at h
  outcome i how h := by simp [ConnectTcp.entered] at h
  failed i e h := by simp [ConnectTcp.entered] at h
  interrupted := .inl rfl
  others excs h x hx := by
    cases h
    cases hx
  listed h := by cases h

theorem Sound.initial (targetAddrs : List α) (expired : Bool) :
    Sound (initial ε targetAddrs expired) := by
  have agree := Agree.entered (ε := ε) targetAddrs
  have block := InBlock.entered (ε := ε) targetAddrs
  have progress : Progress (entered ε targetAddrs) (ConnectTcp.initial ε targetAddrs expired) :=
    .nextAddress agree block (fun h => by cases h.1) expired
  have due : AllDue (entered ε targetAddrs) := fun handle h => by cases h
  exact ⟨.initial targetAddrs expired,
    (Accounts.entered targetAddrs).nextAddress agree block expired, due.later progress⟩

end Anyio.ConnectTcp
