import Anyio.ConnectTcp.Fate

/-!
# What a call of `connect_tcp()` leaves behind

Streams that came too late are closed by the attempts that opened them. The
one that is stored is returned or lost: nobody closes it when the host leaves
the group with an exception.
-/

namespace Anyio.ConnectTcp

open Asyncio Library
open TaskGroup (Exc)

variable {α ε : Type*} {s s' : State α ε} {i j : Nat} {reached : List Nat}

/-- When the call has returned every other stream is closed, and all when it has raised. -/
def NoLeak (s : State α ε) : Prop :=
  match s.host with
  | .ended (.returned w) => ∀ i, s.stream i = .opened → i = w
  | .ended (.raised _ _) => ∀ i, s.stream i ≠ .opened
  | _ => True

/-- The call says that all attempts failed only if each was started and failed. -/
def Honest (s : State α ε) : Prop :=
  ∀ cause, s.host = .ended (.raised (.known allAttemptsFailed) cause) →
    ∀ i < s.targetAddrs.length, ∃ e, s.attempt i = .ended (.osError e)

/-- No attempt has raised anything but an `OSError`, and the host was not interrupted in a
cancelled enclosing scope. -/
def unharmed (s : State α ε) : Bool :=
  (s.group.exceptions.getD []).isEmpty &&
    (!s.outerCancelled || s.group.excVal.isNone && !s.group.loop.throws .host)

/-- If the host leaves the group after an attempt has won, it is unharmed. -/
def Clean (s : State α ε) (a : Action ε) : Prop :=
  leaves s a = true → s.connectedStream.isSome = true → unharmed s = true

instance (s : State α ε) (a : Action ε) : Decidable (Clean s a) :=
  inferInstanceAs (Decidable (_ → _ → _))

theorem Sound.listed (sound : Sound s) (hs : s.host = .exiting) :
    ∃ excs, s.group.exceptions = some excs := by
  cases hexcs : s.group.exceptions with
  | some excs => exact ⟨excs, rfl⟩
  | none =>
      have hleft := sound.accounts.listed hexcs
      rw [(sound.inExit hs).phase] at hleft
      cases hleft

theorem unharmed_eq (hexcs : s.group.exceptions = some []) :
    unharmed s = (!s.outerCancelled || (excAtExit s.group).isNone) := by
  have hexc : (s.group.excVal.isNone && !s.group.loop.throws .host) =
      (excAtExit s.group).isNone := by
    rw [excAtExit]
    split_ifs with hthrows <;> simp [hthrows]
  simp [unharmed, hexcs, hexc]

/-- The stored stream is returned if the host is unharmed. -/
theorem endingOf_unharmed (sound : Sound s) (hs : s.host = .exiting) (h : unharmed s = true) :
    endingOf s = afterGroup s := by
  obtain ⟨excs, hexcs⟩ := sound.listed hs
  cases excs with
  | nil =>
      rw [unharmed_eq hexcs] at h
      have hcaught : ¬ ((excAtExit s.group).isSome ∧ s.outerCancelled = true) := by
        rintro ⟨hsome, houter⟩
        obtain ⟨e, he⟩ := Option.isSome_iff_exists.mp hsome
        simp [houter, he] at h
      rw [endingOf, hexcs]
      exact if_neg hcaught
  | cons e es => simp [unharmed, hexcs] at h

/-- Otherwise the call raises, and says what it was. -/
theorem endingOf_harmed (sound : Sound s) (hs : s.host = .exiting) (h : unharmed s = false) :
    ∃ e, endingOf s = .raised e none ∧ e ≠ .known allAttemptsFailed := by
  obtain ⟨excs, hexcs⟩ := sound.listed hs
  cases excs with
  | nil =>
      rw [unharmed_eq hexcs] at h
      have hraised : (excAtExit s.group).isSome ∧ s.outerCancelled = true := by
        cases hexc : excAtExit s.group <;> simp_all
      refine ⟨.cancelled true, ?_, by simp⟩
      rw [endingOf, hexcs]
      exact if_pos hraised
  | cons e es =>
      refine ⟨.group "unhandled errors in a TaskGroup" (e :: es), ?_, by simp⟩
      rw [endingOf, hexcs]

/-- The error is that of the code after the group. -/
theorem afterGroup_failed {cause : Option (Exc ε)}
    (h : afterGroup s = .raised (.known allAttemptsFailed) cause) : s.connectedStream = none := by
  cases hstored : s.connectedStream with
  | none => rfl
  | some w =>
      rw [afterGroup, hstored] at h
      cases h

/-- Nothing but an `OSError` is behind the end of each attempt when the call says so. -/
theorem endingOf_failed (sound : Sound s) (fate : Fate s) (hwoken : hostWoken s = true)
    (hs : s.host = .exiting) (htasks : s.group.tasks = []) {cause : Option (Exc ε)}
    (h : endingOf s = .raised (.known allAttemptsFailed) cause) (hi : i < s.targetAddrs.length) :
    ∃ e, s.attempt i = .ended (.osError e) := by
  have hunharmed : unharmed s = true := by
    by_contra hharmed
    obtain ⟨e, he, hne⟩ := endingOf_harmed sound hs (by simpa using hharmed)
    rw [he] at h
    cases h
    exact hne rfl
  rw [endingOf_unharmed sound hs hunharmed] at h
  have hstored := afterGroup_failed h
  obtain ⟨excs, hexcs⟩ := sound.listed hs
  obtain rfl : excs = [] := by
    cases excs with
    | nil => rfl
    | cons e es => simp [unharmed, hexcs] at hunharmed
  have hother : ∀ k e, s.attempt k ≠ .ended (.other e) := by
    intro k e hk
    obtain hmem | hne := sound.accounts.failed k e hk
    · rw [htasks] at hmem
      cases hmem
    · exact hne hexcs
  cases fate with
  | decided hdecided =>
      obtain hne | ⟨k, e, hk⟩ := hdecided
      · exact absurd hstored hne
      · exact absurd hk (hother k e)
  | interrupted hinterrupted =>
      obtain ⟨houter, hint⟩ := hinterrupted
      rw [HostInterrupted, hs] at hint
      rw [unharmed_eq hexcs, houter] at hunharmed
      exact absurd (by simpa using hunharmed) hint
  | undisturbed undisturbed =>
      have hborn : s.attempt i ≠ .unborn :=
        (sound.inExit hs).started (excAtExit_none.mp (undisturbed.exiting hs).1).2 i hi
      have hended : ∃ how, s.attempt i = .ended how := by
        by_contra hlive
        have hmem := sound.mem_tasks hborn (not_exists.mp hlive)
        rw [htasks] at hmem
        cases hmem
      obtain ⟨how, hended⟩ := hended
      cases how with
      | osError e => exact ⟨e, hended⟩
      | connected => exact absurd hstored (sound.accounts.won i hended)
      | other e => exact absurd hended (hother i e)
      | cancelled =>
          -- The host would still wait for its future, which the next delivery cancels.
          obtain ⟨f, hpoint, hpending⟩ := (undisturbed.held i (.inr hended)).pending.2 hs
          simp [hostWoken, hs, Loop.wakeUpQueued, Loop.waits, hpoint, Coroutine.waits, hpending]
            at hwoken

/-- What holds in every run. -/
structure Kept (s : State α ε) : Prop extends Sound s where
  won : Won s
  fate : Fate s
  honest : Honest s

theorem Won.step (won : Won s) (sound : Sound s) {a : Action ε}
    (h : step s a = some (s', ())) : Won s' := by
  obtain ⟨-, progress⟩ := sound.step won h
  have hkept : s'.connectedStream = s.connectedStream → Won s' := by
    intro hstored w hw
    exact progress.ended w _ (won w (hstored ▸ hw))
  cases step_cases sound h with
  | ongoing _ hongoing => exact hkept hongoing.stored
  | ends _ _ _ _ _ hstored => exact hkept hstored
  | wins i _ _ hwins =>
      intro w hw
      rw [hwins.stored] at hw
      cases hw
      exact hwins.ended

theorem Honest.step (honest : Honest s) (sound : Sound s) (won : Won s) (fate : Fate s)
    {a : Action ε} (h : step s a = some (s', ())) : Honest s' := by
  obtain ⟨-, progress⟩ := sound.step won h
  have hkept : (∀ e, s'.host = .ended e ↔ s.host = .ended e) → Honest s' := by
    intro hover cause hs i hi
    rw [progress.targetAddrs] at hi
    obtain ⟨e, he⟩ := honest cause ((hover _).mp hs) i hi
    exact ⟨e, progress.ended i _ he⟩
  cases step_cases sound h with
  | ongoing _ hongoing => exact hkept hongoing.endings
  | wins _ _ _ hwins => exact hkept hwins.endings
  | ends _ hwoken hs htasks hends _ =>
      intro cause hs' i hi
      rw [progress.targetAddrs] at hi
      have hending : endingOf s = .raised (.known allAttemptsFailed) cause :=
        HostPoint.ended.inj (hends.symm.trans hs')
      obtain ⟨e, he⟩ := endingOf_failed sound fate hwoken hs htasks hending hi
      exact ⟨e, progress.ended i _ he⟩

theorem Kept.step (kept : Kept s) {a : Action ε} (h : step s a = some (s', ())) : Kept s' :=
  ⟨(kept.toSound.step kept.won h).1, kept.won.step kept.toSound h,
    kept.fate.step kept.toSound kept.won h, kept.honest.step kept.toSound kept.won kept.fate h⟩

theorem Kept.initial (targetAddrs : List α) (expired : Bool) :
    Kept (initial ε targetAddrs expired) := by
  have hongoing : Ongoing (entered ε targetAddrs) (ConnectTcp.initial ε targetAddrs expired) :=
    .nextAddress (Agree.entered targetAddrs) (by simp [entered]) expired
  refine ⟨.initial targetAddrs expired, fun w hw => ?_, .initial targetAddrs expired,
    fun cause h => ?_⟩
  · rw [hongoing.stored] at hw
    cases hw
  · cases (hongoing.endings _).mp h

/-- The stored stream is open, and no other. -/
theorem noLeak_iff (sound : Sound s) : NoLeak s ↔ ∀ e, s.host = .ended e →
    ∀ i, s.connectedStream = some i → e = .returned i := by
  rw [NoLeak]
  split
  · rename_i w hs
    simp only [sound.accounts.opened, hs, HostPoint.ended.injEq]
    constructor
    · rintro h e rfl i hi
      rw [h i hi]
    · intro h i hi
      exact (Ending.returned.inj (h _ rfl i hi)).symm
  · rename_i e cause hs
    simp only [sound.accounts.opened, hs, HostPoint.ended.injEq, ne_eq]
    constructor
    · rintro h e rfl i hi
      exact absurd hi (h i)
    · intro h i hi
      cases h _ rfl i hi
  · rename_i hreturned hraised
    simp only [true_iff]
    intro e hs
    cases e with
    | returned w => exact absurd hs (hreturned w)
    | raised e cause => exact absurd hs (hraised e cause)

/-- A step leaks the stored stream exactly if the host leaves the group with it and is harmed. -/
theorem noLeak_step (kept : Kept s) (noLeak : NoLeak s) {a : Action ε}
    (h : step s a = some (s', ())) : NoLeak s' ↔ Clean s a := by
  have hleak := (noLeak_iff kept.toSound).mp noLeak
  rw [noLeak_iff (kept.step h).toSound]
  cases step_cases kept.toSound h with
  | ongoing hleaves hongoing =>
      have clean : Clean s a := fun hl => absurd hl (by simp [hleaves])
      refine ⟨fun _ => clean, fun _ e hs i hi => ?_⟩
      exact hleak e ((hongoing.endings e).mp hs) i (hongoing.stored ▸ hi)
  | wins w hleaves hhost hwins =>
      have clean : Clean s a := fun hl => absurd hl (by simp [hleaves])
      refine ⟨fun _ => clean, fun _ e hs => ?_⟩
      exact absurd ((hwins.endings e).mp hs) (hhost e)
  | ends hleaves _ hs _ hends hstored =>
      constructor
      · intro hkeeps _ hsome
        obtain ⟨w, hw⟩ := Option.isSome_iff_exists.mp hsome
        by_contra hharmed
        obtain ⟨e, he, -⟩ := endingOf_harmed kept.toSound hs (by simpa using hharmed)
        have hreturned := hkeeps _ hends w (hstored.trans hw)
        rw [he] at hreturned
        cases hreturned
      · intro clean e hs' i hi
        have hw : s.connectedStream = some i := hstored.symm.trans hi
        have hunharmed := clean hleaves (by simp [hw])
        have hending : endingOf s = e := HostPoint.ended.inj (hends.symm.trans hs')
        rw [← hending, endingOf_unharmed kept.toSound hs hunharmed, afterGroup, hw]

theorem NoLeak.initial (targetAddrs : List α) (expired : Bool) :
    NoLeak (initial ε targetAddrs expired) := by
  have hongoing : Ongoing (entered ε targetAddrs) (ConnectTcp.initial ε targetAddrs expired) :=
    .nextAddress (Agree.entered targetAddrs) (by simp [entered]) expired
  apply (noLeak_iff (Sound.initial targetAddrs expired)).mpr
  intro e h
  cases (hongoing.endings e).mp h

theorem kept_of_reachable {targetAddrs : List α} {expired : Bool}
    {allowed : State α ε → Action ε → Prop}
    (run : (machine α ε).Reachable allowed (initial ε targetAddrs expired) s) : Kept s :=
  run.invariant (.initial targetAddrs expired) fun _ _ _ _ kept _ h => kept.step h

/-- In every run in which the host, whenever it leaves the group after an attempt has won, is
unharmed, every stream that is not returned is closed, and the call says that all attempts failed
only if they did. The first step with a harmed host loses the stream. -/
theorem leaks_nothing {targetAddrs : List α} {expired : Bool}
    (run : (machine α ε).Reachable Clean (initial ε targetAddrs expired) s) :
    NoLeak s ∧ Honest s ∧ ∀ a s', step s a = some (s', ()) →
      (NoLeak s' ∧ Honest s' ↔ Clean s a) := by
  have kept : Kept s := kept_of_reachable run
  have noLeak : NoLeak s := by
    have both : Kept s ∧ NoLeak s := by
      apply run.invariant ⟨Kept.initial targetAddrs expired, NoLeak.initial targetAddrs expired⟩
      intro s a s' _ hboth clean h
      exact ⟨hboth.1.step h, (noLeak_step hboth.1 hboth.2 h).mpr clean⟩
    exact both.2
  refine ⟨noLeak, kept.honest, fun a s' h => ?_⟩
  have hstep := noLeak_step kept noLeak h
  exact ⟨fun hkeeps => hstep.mp hkeeps.1, fun clean => ⟨hstep.mpr clean, (kept.step h).honest⟩⟩

/-- The second attempt wins, and the first one connects after that. -/
def lateStream : State Nat Nat :=
  ((machine Nat Nat).exec Clean (initial Nat [4, 6] false)
    [.run [] false, .timeout, .run [] false, .run [] false, .ends 1 .connected [],
      .ends 0 .connected [], .closes 0, .run [] false, .run [] false, .run [] false, .run [] false,
      .run [] false, .run [] false, .run [] false]).get (by decide)

theorem leaks_nothing_lateStream : lateStream.connectedStream = some 1 ∧
    lateStream.stream 0 = .closed ∧ NoLeak lateStream := by
  have run : (machine Nat Nat).Reachable Clean (initial Nat [4, 6] false) lateStream :=
    Machine.exec_get_reachable _ _ _
  exact ⟨by decide, by decide, (leaks_nothing run).1⟩

/-- The enclosing scope is cancelled after the only attempt has won. -/
def lostStream : State Nat Nat :=
  ((machine Nat Nat).exec Machine.anyStep (initial Nat [4] false)
    [.run [] false, .ends 0 .connected [], .cancelOuter [], .run [] false, .run [] false,
      .run [] false, .run [] false, .run [] false, .run [] false]).get (by decide)

/-- Nobody closes the stream of the winner when the call is cancelled. -/
theorem winner_lost :
    (machine Nat Nat).Reachable Machine.anyStep (initial Nat [4] false) lostStream ∧
      lostStream.host = .ended (.raised (.cancelled true) none) ∧
      lostStream.stream 0 = .opened ∧ ¬ NoLeak lostStream := by
  have hraised : lostStream.host = .ended (.raised (.cancelled true) none) := by rfl
  have hopened : lostStream.stream 0 = .opened := by decide
  refine ⟨Machine.exec_get_reachable _ _ _, hraised, hopened, fun h => ?_⟩
  rw [NoLeak, hraised] at h
  exact h 0 hopened

end Anyio.ConnectTcp
