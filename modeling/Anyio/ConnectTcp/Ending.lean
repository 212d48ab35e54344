import Anyio.ConnectTcp.Steps

/-!
# How a call of `connect_tcp()` ends

In each step nothing is decided, or an attempt wins, or the host leaves the
group and the call ends. Nothing changes after that.
-/

namespace Anyio.ConnectTcp

open Asyncio Library
open TaskGroup (Exc)

variable {α ε : Type*} {s s' s'' : State α ε} {i j : Nat} {reached : List Nat}

/-- Neither a stream is stored nor the call ends. -/
structure Ongoing (s s' : State α ε) : Prop where
  stored : s'.connectedStream = s.connectedStream
  endings : ∀ e, s'.host = .ended e ↔ s.host = .ended e

theorem Ongoing.refl (s : State α ε) : Ongoing s s := ⟨rfl, fun _ => Iff.rfl⟩

theorem Ongoing.trans (first : Ongoing s s') (second : Ongoing s' s'') : Ongoing s s'' :=
  ⟨second.stored.trans first.stored, fun e => (second.endings e).trans (first.endings e)⟩

theorem Signalled.ongoing (signalled : Signalled s s') : Ongoing s s' :=
  ⟨signalled.connectedStream, signalled.endings⟩

theorem Ongoing.entersExit (hs : ∀ e, s.host ≠ .ended e) (exc : Option (Exc ε)) :
    Ongoing s (entersExit s exc) :=
  ⟨rfl, fun e => by simp [ConnectTcp.entersExit, hs e]⟩

theorem Ongoing.nextAddress (agree : Agree s) (hs : ∀ e, s.host ≠ .ended e) (expired : Bool) :
    Ongoing s (nextAddress s i expired) := by
  rw [ConnectTcp.nextAddress]
  split
  · exact ⟨rfl, fun e => by simp [hs e]⟩
  · rw [exitGroup_none]
    exact (Ongoing.entersExit hs none).trans
      (Signalled.suspended (entersExit_ended agree none)).ongoing

theorem Ongoing.exitCancelled (linked : Linked s) (hs : ∀ e, s.host ≠ .ended e)
    (reached : List Nat) : Ongoing s (exitGroup s (some (.cancelled true)) reached) := by
  have hcancel := Signalled.cancelScope s false reached
  have hlinked := linked.cancelScope false reached
  rw [exitGroup_some]
  apply hcancel.ongoing.trans
  apply (Ongoing.entersExit _ _).trans
  · exact (Signalled.suspended (entersExit_ended hlinked.toAgree _)).ongoing
  · intro e he
    exact hs e ((hcancel.endings e).mp he)

/-- The call ends when the host finds no tasks in `__aexit__()`. -/
theorem resumeExit_cases (sound : Sound s) (hs : s.host = .exiting) (reached : List Nat) :
    (s.group.tasks ≠ [] ∧ Ongoing s (resumeExit s reached)) ∨
      (s.group.tasks = [] ∧ (resumeExit s reached).host = .ended (endingOf s) ∧
        (resumeExit s reached).connectedStream = s.connectedStream) := by
  cases htasks : s.group.tasks with
  | nil =>
      obtain ⟨x, hends⟩ := resumeExit_ends sound.toLinked hs sound.accounts.interrupted
        sound.accounts.others htasks reached
      refine .inr ⟨rfl, ?_, ?_⟩
      · rw [hends]
      · rw [hends]
        exact noticed_connectedStream s reached
  | cons u rest =>
      have hsome : s.group.tasks ≠ [] := by simp [htasks]
      have hwaits := sound.toLinked.goesOn hs hsome reached
      refine .inl ⟨by simp, ?_⟩
      rw [resumeExit_waits sound.toLinked hs sound.accounts.interrupted hsome reached]
      have hongoing : Ongoing s { noticed s reached with group := waitsAgain s.group } :=
        ⟨noticed_connectedStream s reached, fun e => by simp⟩
      exact hongoing.trans (Signalled.suspended hwaits.toAgree.finished).ongoing

/-- The host runs in this step, and leaves the group. -/
def leaves (s : State α ε) : Action ε → Bool
  | .run _ _ =>
      s.ready.head? = some .host && hostWoken s && (s.host matches .exiting) &&
        s.group.tasks.isEmpty
  | _ => false

theorem Ongoing.taskDone (s : State α ε) (i : Nat) (reached : List Nat) :
    Ongoing s (taskDone s i reached) := by
  rw [ConnectTcp.taskDone]
  dsimp only
  split_ifs with h
  · have hdelivery := Signalled.startDelivery (s := { s with
      group := (TaskGroup.taskDone s.group (.attempt i) none s.outerCancelled).1 }) h.2 true reached
    exact ⟨hdelivery.connectedStream, hdelivery.endings⟩
  · exact ⟨rfl, fun _ => Iff.rfl⟩

/-- What becomes of a call when the host runs. -/
theorem resumeHost_cases (sound : Sound s) (reached : List Nat) (expired : Bool) :
    (Ongoing s (resumeHost s reached expired) ∧ ¬ (s.host = .exiting ∧ s.group.tasks = [])) ∨
      (s.host = .exiting ∧ s.group.tasks = [] ∧
        (resumeHost s reached expired).host = .ended (endingOf s) ∧
        (resumeHost s reached expired).connectedStream = s.connectedStream) := by
  rw [resumeHost]
  split
  · rename_i hs
    exact .inl ⟨.nextAddress sound.toAgree (fun e => by simp [hs]) expired, by simp [hs]⟩
  · rename_i hs
    split_ifs
    · exact .inl ⟨.nextAddress sound.toAgree (fun e => by simp [hs]) expired, by simp [hs]⟩
    · exact .inl ⟨.exitCancelled sound.toLinked (fun e => by simp [hs]) reached, by simp [hs]⟩
  · rename_i hs
    obtain ⟨htasks, h⟩ | ⟨htasks, hends, hstored⟩ := resumeExit_cases sound hs reached
    · exact .inl ⟨h, fun hnot => htasks hnot.2⟩
    · exact .inr ⟨hs, htasks, hends, hstored⟩
  · rename_i hs
    exact .inl ⟨.refl s, fun h => hs h.1⟩

/-- What becomes of a call when the first handle of the queue runs. -/
theorem runHandle_cases (sound : Sound s) (reached : List Nat) (expired : Bool)
    (handle : Handle) :
    (Ongoing s (runHandle s reached expired handle) ∧ ¬ (handle = .host ∧ hostWoken s = true ∧
        s.host = .exiting ∧ s.group.tasks = [])) ∨
      (handle = .host ∧ hostWoken s = true ∧ s.host = .exiting ∧ s.group.tasks = [] ∧
        (runHandle s reached expired handle).host = .ended (endingOf s) ∧
        (runHandle s reached expired handle).connectedStream = s.connectedStream) := by
  cases handle with
  | host =>
      rw [runHandle]
      split_ifs with hwoken
      · obtain ⟨h, hnot⟩ | ⟨hs, htasks, hends, hstored⟩ := resumeHost_cases sound reached expired
        · exact .inl ⟨h, fun hall => hnot hall.2.2⟩
        · exact .inr ⟨rfl, hwoken, hs, htasks, hends, hstored⟩
      · exact .inl ⟨.refl s, fun hall => hwoken hall.2.1⟩
  | start i =>
      rw [runHandle]
      split_ifs
      · exact .inl ⟨⟨rfl, fun _ => Iff.rfl⟩, by simp⟩
      · exact .inl ⟨.refl s, by simp⟩
  | taskDone i => exact .inl ⟨.taskDone s i reached, by simp⟩
  | onCompletion i f => exact .inl ⟨(Signalled.onCompletion s i f).ongoing, by simp⟩
  | deliver scope =>
      have hdeliver := (Signalled.deliver s true reached).ongoing
      refine .inl ⟨?_, by simp⟩
      cases scope with
      | outer =>
          rw [runHandle]
          split_ifs
          · exact ⟨rfl, fun _ => Iff.rfl⟩
          · exact hdeliver.trans ⟨rfl, fun _ => Iff.rfl⟩
      | group => exact hdeliver.trans ⟨rfl, fun _ => Iff.rfl⟩
      | wait i => exact (Signalled.expire s i).ongoing

/-- Once the call has ended no attempt is under way. -/
theorem Linked.noneUnderWay (linked : Linked s) {e : Ending ε} (hs : s.host = .ended e)
    (hborn : s.attempt i ≠ .unborn) : ∃ how, s.attempt i = .ended how := by
  have hleft : s.group.phase = .left := by
    have hstands := linked.stands
    rwa [hs] at hstands
  have hfinished := (linked.inv.left hleft).2 (.attempt i) ((linked.spawned i).mpr hborn)
  exact linked.toAgree.finished i hfinished

/-- Attempt `i` has won. -/
structure Wins (s s' : State α ε) (i : Nat) : Prop where
  none : s.connectedStream = none
  stored : s'.connectedStream = some i
  ended : s'.attempt i = .ended .connected
  endings : ∀ e, s'.host = .ended e ↔ s.host = .ended e

theorem tryConnect_cases (i : Nat) (how : Ends ε) (reached : List Nat) :
    Ongoing s (tryConnect s i how reached) ∨ Wins s (tryConnect s i how reached) i := by
  cases how with
  | connected =>
      cases hstream : s.connectedStream with
      | none =>
          right
          have hsignals : Signalled (stores s i)
              (setEvent (cancelScope (stores s i) true reached) i) :=
            (Signalled.cancelScope _ true reached).trans (.setEvent _ i)
          rw [tryConnect_first hstream]
          refine ⟨hstream, hsignals.connectedStream, ?_, hsignals.endings⟩
          simp [finishAttempt]
      | some w =>
          left
          rw [tryConnect_late hstream]
          exact ⟨rfl, fun _ => Iff.rfl⟩
  | osError e =>
      have hevent := Signalled.setEvent { s with oserrors := s.oserrors ++ [e] } i
      exact .inl ⟨hevent.connectedStream, hevent.endings⟩
  | other e =>
      have hevent := Signalled.setEvent s i
      exact .inl ⟨hevent.connectedStream, hevent.endings⟩
  | cancelled =>
      have hevent := Signalled.setEvent s i
      exact .inl ⟨hevent.connectedStream, hevent.endings⟩

/-- What becomes of a call in one step. -/
inductive StepCase (s s' : State α ε) (a : Action ε) : Prop
  | ongoing (hleaves : leaves s a = false) (h : Ongoing s s')
  | wins (i : Nat) (hleaves : leaves s a = false) (hhost : ∀ e, s.host ≠ .ended e)
      (h : Wins s s' i)
  | ends (hleaves : leaves s a = true) (hwoken : hostWoken s = true) (hhost : s.host = .exiting)
      (htasks : s.group.tasks = []) (hends : s'.host = .ended (endingOf s))
      (hstored : s'.connectedStream = s.connectedStream)

/-- A cancelled host in `__aexit__()` with nothing to wait for is about to end the call. -/
theorem leaves_run (reached : List Nat) (expired : Bool) {rest : List Handle} {handle : Handle}
    (hready : s.ready = handle :: rest) :
    leaves s (.run reached expired) = true ↔
      handle = .host ∧ hostWoken s = true ∧ s.host = .exiting ∧ s.group.tasks = [] := by
  have hmatches : (s.host matches .exiting) = true ↔ s.host = .exiting := by
    cases s.host <;> simp
  simp only [leaves, hready, List.head?_cons, Bool.and_eq_true, hmatches, List.isEmpty_iff,
    and_assoc]
  simp

theorem step_cases (sound : Sound s) {a : Action ε} (h : step s a = some (s', ())) :
    StepCase s s' a := by
  cases a with
  | run reached expired =>
      simp only [step] at h
      split at h
      · rename_i handle rest hready
        cases h
        obtain ⟨hserved, -⟩ := sound.served hready
        have hleaves := leaves_run reached expired hready
        obtain ⟨hongoing, hnot⟩ | ⟨hhandle, hwoken, hs, htasks, hends, hstored⟩ :=
          runHandle_cases hserved reached expired handle
        · have hfirst : Ongoing s { s with ready := rest } := ⟨rfl, fun _ => Iff.rfl⟩
          apply StepCase.ongoing _ (hfirst.trans hongoing)
          rw [← Bool.not_eq_true, hleaves]
          exact hnot
        · exact .ends (hleaves.mpr ⟨hhandle, hwoken, hs, htasks⟩) hwoken hs htasks hends hstored
      · cases h
  | timeout =>
      cases h
      exact .ongoing rfl (Signalled.timeout s).ongoing
  | cancelOuter reached =>
      cases h
      exact .ongoing rfl (Signalled.cancelOuter s reached).ongoing
  | ends i how reached =>
      simp only [step] at h
      split at h
      · rename_i hi
        split_ifs at h
        cases h
        obtain hongoing | hwins := tryConnect_cases (s := s) i how reached
        · exact .ongoing rfl hongoing
        · apply StepCase.wins i rfl _ hwins
          intro e hs
          obtain ⟨how, hended⟩ := sound.toLinked.noneUnderWay hs (i := i) (by simp [hi])
          rw [hi] at hended
          cases hended
      · cases h
  | closes i =>
      simp only [step] at h
      split at h
      · cases h
        have hsignals := Signalled.setEvent s i
        exact .ongoing rfl ⟨hsignals.connectedStream, hsignals.endings⟩
      · cases h

end Anyio.ConnectTcp
