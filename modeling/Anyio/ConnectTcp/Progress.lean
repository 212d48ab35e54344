import Anyio.ConnectTcp.Exit

/-!
# What no step of `connect_tcp()` takes back

An attempt that has ended stays ended, the stream that was stored stays
stored, and a host that was interrupted in a cancelled scope leaves the group
with the interruption. `Progress` is this part of the state over a step;
`Signalled` is a step in which no task moves on.
-/

namespace Anyio.ConnectTcp

open Asyncio Library
open TaskGroup (Exc)

variable {α ε : Type*} {s s' s'' : State α ε} {i j : Nat} {reached : List Nat}

/-- The host takes a cancellation along, unless a timeout of its wait may still catch it. -/
def HostInterrupted (s : State α ε) : Prop :=
  match s.host with
  | .eventWait _ future _ => future = .cancelled
  | .exiting => excAtExit s.group ≠ none
  | .ended _ => True

/-- The enclosing scope is cancelled, and the host knows. -/
def Interrupted (s : State α ε) : Prop := s.outerCancelled = true ∧ HostInterrupted s

/-- What a handle in the queue relies on. -/
def Due (s : State α ε) : Handle → Prop
  | .host => True
  | .start i => s.attempt i ≠ .unborn
  | .taskDone i => ∃ how, s.attempt i = .ended how
  | .onCompletion i _ => ∃ how, s.attempt i = .ended how
  | .deliver .group => s.group.cancelCalled = true
  | .deliver .outer => s.outerCancelled = true
  | .deliver (.wait _) => True

/-- What a step keeps. -/
structure Progress (s s' : State α ε) : Prop where
  targetAddrs : s'.targetAddrs = s.targetAddrs
  born : ∀ i, s.attempt i ≠ .unborn → s'.attempt i ≠ .unborn
  ended : ∀ i how, s.attempt i = .ended how → s'.attempt i = .ended how
  stored : ∀ i, s.connectedStream = some i → s'.connectedStream = some i
  called : s.group.cancelCalled = true → s'.group.cancelCalled = true
  outer : s.outerCancelled = true → s'.outerCancelled = true
  interrupted : Interrupted s → Interrupted s'
  ready : ∀ handle ∈ s'.ready, handle ∈ s.ready ∨ Due s' handle

theorem Due.later {handle : Handle} (h : Due s handle) (progress : Progress s s') :
    Due s' handle := by
  cases handle with
  | host => trivial
  | start i => exact progress.born i h
  | taskDone i => exact h.imp fun how => progress.ended i how
  | onCompletion i f => exact h.imp fun how => progress.ended i how
  | deliver scope =>
      cases scope with
      | outer => exact progress.outer h
      | group => exact progress.called h
      | wait i => trivial

theorem Progress.refl (s : State α ε) : Progress s s where
  targetAddrs := rfl
  born _ h := h
  ended _ _ h := h
  stored _ h := h
  called h := h
  outer h := h
  interrupted h := h
  ready _ h := .inl h

theorem Progress.trans (first : Progress s s') (second : Progress s' s'') : Progress s s'' where
  targetAddrs := second.targetAddrs.trans first.targetAddrs
  born i h := second.born i (first.born i h)
  ended i how h := second.ended i how (first.ended i how h)
  stored i h := second.stored i (first.stored i h)
  called h := second.called (first.called h)
  outer h := second.outer (first.outer h)
  interrupted h := second.interrupted (first.interrupted h)
  ready handle h := by
    obtain hqueued | hdue := second.ready handle h
    · exact (first.ready handle hqueued).imp_right fun h => h.later second
    · exact .inr hdue

/-- Everything in the queue has what it relies on. -/
def AllDue (s : State α ε) : Prop := ∀ handle ∈ s.ready, Due s handle

theorem AllDue.later (due : AllDue s) (progress : Progress s s') : AllDue s' := by
  intro handle h
  obtain hqueued | hdue := progress.ready handle h
  · exact (due handle hqueued).later progress
  · exact hdue

/-- Cancellations, timeouts and events reach tasks that do not run yet. -/
structure Signalled (s s' : State α ε) : Prop extends Progress s s' where
  connectedStream : s'.connectedStream = s.connectedStream
  stream : s'.stream = s.stream
  attempt : ∀ i, s'.attempt i = s.attempt i ∨ s'.attempt i = (s.attempt i).interrupt
  endings : ∀ e, s'.host = .ended e ↔ s.host = .ended e
  phase : s'.group.phase = s.group.phase
  tasks : s'.group.tasks = s.group.tasks
  exceptions : s'.group.exceptions = s.group.exceptions
  exception : s'.group.exception = s.group.exception
  excVal : s'.group.excVal = s.group.excVal

theorem Signalled.refl (s : State α ε) : Signalled s s :=
  ⟨.refl s, rfl, rfl, fun _ => .inl rfl, fun _ => Iff.rfl, rfl, rfl, rfl, rfl, rfl⟩

@[simp] theorem Attempt.interrupt_interrupt (a : Attempt ε) :
    a.interrupt.interrupt = a.interrupt := by
  cases a <;> rfl

theorem Signalled.trans (first : Signalled s s') (second : Signalled s' s'') :
    Signalled s s'' where
  toProgress := first.toProgress.trans second.toProgress
  connectedStream := second.connectedStream.trans first.connectedStream
  stream := second.stream.trans first.stream
  attempt i := by
    obtain h | h := second.attempt i <;> obtain h' | h' := first.attempt i <;> simp [h, h']
  endings e := (second.endings e).trans (first.endings e)
  phase := second.phase.trans first.phase
  tasks := second.tasks.trans first.tasks
  exceptions := second.exceptions.trans first.exceptions
  exception := second.exception.trans first.exception
  excVal := second.excVal.trans first.excVal

/-- The attempts are where they were, and only the listed handles are new. -/
theorem Progress.still (haddrs : s'.targetAddrs = s.targetAddrs)
    (hattempt : ∀ i, s'.attempt i = s.attempt i ∨ s'.attempt i = (s.attempt i).interrupt)
    (hstored : s'.connectedStream = s.connectedStream)
    (hcalled : s.group.cancelCalled = true → s'.group.cancelCalled = true)
    (houter : s.outerCancelled = true → s'.outerCancelled = true)
    (hinterrupted : Interrupted s → Interrupted s') (handles : List Handle)
    (hready : s'.ready = s.ready ++ handles) (hdue : ∀ handle ∈ handles, Due s' handle) :
    Progress s s' where
  targetAddrs := haddrs
  born i h := by
    obtain heq | heq := hattempt i <;> simpa [heq] using h
  ended i how h := by
    obtain heq | heq := hattempt i <;> simpa [heq] using h
  stored i h := hstored.trans h
  called := hcalled
  outer := houter
  interrupted := hinterrupted
  ready handle h := by
    rw [hready, List.mem_append] at h
    exact h.imp_right (hdue handle)

theorem Signalled.push (s : State α ε) {handles : List Handle}
    (hdue : ∀ handle ∈ handles, Due s handle) : Signalled s (push s handles) := by
  refine ⟨Progress.still rfl (fun _ => .inl rfl) rfl id id id handles rfl fun handle h => ?_,
    rfl, rfl, fun _ => .inl rfl, fun _ => Iff.rfl, rfl, rfl, rfl, rfl, rfl⟩
  have := hdue handle h
  cases handle <;> exact this

/-- The `except OSError` block of an attempt notes its error. -/
theorem Signalled.notes (s : State α ε) (errors : List ε) :
    Signalled s { s with oserrors := errors } :=
  ⟨Progress.still rfl (fun _ => .inl rfl) rfl id id id [] (List.append_nil _).symm (by simp),
    rfl, rfl, fun _ => .inl rfl, fun _ => Iff.rfl, rfl, rfl, rfl, rfl, rfl⟩

theorem Signalled.reachAttempts (s : State α ε) (reached : List Nat) :
    Signalled s (reachAttempts s reached) := by
  have hattempt : ∀ i, (ConnectTcp.reachAttempts s reached).attempt i = s.attempt i ∨
      (ConnectTcp.reachAttempts s reached).attempt i = (s.attempt i).interrupt := by
    intro i
    simp only [ConnectTcp.reachAttempts]
    split_ifs
    · exact .inr rfl
    · exact .inl rfl
  exact ⟨Progress.still rfl hattempt rfl id id id [] (List.append_nil _).symm (by simp),
    rfl, rfl, hattempt, fun _ => Iff.rfl, rfl, rfl, rfl, rfl, rfl⟩

theorem excAtExit_some {group : TaskGroup.State Party ε} :
    excAtExit group ≠ none ↔ group.loop.throws .host = true ∨ group.excVal ≠ none := by
  rw [ne_eq, excAtExit_none, not_and_or, Bool.not_eq_false]

/-- The future of the host's wait for an event is done, with a cancellation or without. -/
theorem Signalled.woken {f : FutureState} {t t' : Bool} (hs : s.host = .eventWait i .pending t) :
    Signalled s (ConnectTcp.push { s with host := .eventWait i f t' } [.host]) := by
  refine ⟨Progress.still rfl (fun _ => .inl rfl) rfl id id ?_ [.host] rfl ?_,
    rfl, rfl, fun _ => .inl rfl, ?_, rfl, rfl, rfl, rfl, rfl⟩
  · rintro ⟨-, h⟩
    rw [HostInterrupted, hs] at h
    cases h
  · simp [Due]
  · intro e
    simp [hs]

theorem Signalled.reachHost (s : State α ε) : Signalled s (reachHost s) := by
  rw [ConnectTcp.reachHost]
  split
  · rename_i i hs
    exact .woken hs
  · rename_i hs
    split
    · split_ifs
      · refine ⟨Progress.still rfl (fun _ => .inl rfl) rfl id id ?_ [.host] rfl ?_,
          rfl, rfl, fun _ => .inl rfl, fun _ => Iff.rfl, rfl, rfl, rfl, rfl, rfl⟩
        · intro h
          refine ⟨h.1, ?_⟩
          have hexc := h.2
          simp only [HostInterrupted, push_host, push_group, hs, excAtExit_some] at hexc ⊢
          exact hexc.imp_left fun h => Loop.cancel_keeps_throws Party.host h
        · simp [Due]
      · exact .refl s
    · exact .refl s
  · exact .refl s

theorem Signalled.deliver (s : State α ε) (toHost : Bool) (reached : List Nat) :
    Signalled s (deliver s toHost reached) := by
  rw [ConnectTcp.deliver]
  split_ifs
  · exact (Signalled.reachHost s).trans (.reachAttempts _ reached)
  · exact .reachAttempts s reached

theorem Signalled.startDelivery (hcalled : s.group.cancelCalled = true) (toHost : Bool)
    (reached : List Nat) : Signalled s (startDelivery s toHost reached) := by
  have hdeliver := Signalled.deliver s toHost reached
  apply hdeliver.trans (.push _ _)
  simpa [Due] using hdeliver.called hcalled

theorem Signalled.cancelScope (s : State α ε) (toHost : Bool) (reached : List Nat) :
    Signalled s (cancelScope s toHost reached) := by
  have hcalled : Signalled s { s with group := { s.group with cancelCalled := true } } :=
    ⟨Progress.still rfl (fun _ => .inl rfl) rfl (fun _ => rfl) id id [] (List.append_nil _).symm
      (by simp), rfl, rfl, fun _ => .inl rfl, fun _ => Iff.rfl, rfl, rfl, rfl, rfl, rfl⟩
  rw [ConnectTcp.cancelScope]
  split_ifs
  · exact .refl s
  · exact hcalled.trans (.startDelivery rfl toHost reached)

theorem Signalled.setEvent (s : State α ε) (i : Nat) : Signalled s (setEvent s i) := by
  rw [ConnectTcp.setEvent]
  split
  · rename_i hs
    split_ifs
    · exact .woken hs
    · exact .refl s
  · exact .refl s

theorem Signalled.expire (s : State α ε) (i : Nat) : Signalled s (expire s i) := by
  rw [ConnectTcp.expire]
  split
  · rename_i hs
    split_ifs
    · exact .woken hs
    · exact .refl s
  · exact .refl s

theorem Signalled.timeout (s : State α ε) : Signalled s (timeout s) := by
  rw [ConnectTcp.timeout]
  split
  · rename_i hs
    exact .woken hs
  · rename_i i f t _ hs
    refine ⟨Progress.still rfl (fun _ => .inl rfl) rfl id id ?_ [] (List.append_nil _).symm
      (by simp), rfl, rfl, fun _ => .inl rfl, ?_, rfl, rfl, rfl, rfl, rfl⟩
    · intro h
      have hint := h.2
      rw [HostInterrupted, hs] at hint
      exact ⟨h.1, hint⟩
    · intro e
      simp [hs]
  · exact .refl s

theorem Signalled.outerCalled (s : State α ε) : Signalled s { s with outerCancelled := true } :=
  ⟨Progress.still rfl (fun _ => .inl rfl) rfl id (fun _ => rfl) (fun h => ⟨rfl, h.2⟩) []
    (List.append_nil _).symm (by simp), rfl, rfl, fun _ => .inl rfl, fun _ => Iff.rfl, rfl, rfl, rfl,
    rfl, rfl⟩

theorem Signalled.cancelOuter (s : State α ε) (reached : List Nat) :
    Signalled s (cancelOuter s reached) := by
  have hcalled := Signalled.outerCalled s
  rw [ConnectTcp.cancelOuter]
  dsimp only
  split_ifs
  · exact .refl s
  · exact hcalled.trans (.push _ (by simp [Due]))
  · have hdeliver := Signalled.deliver { s with outerCancelled := true } true reached
    exact hcalled.trans (hdeliver.trans (.push _ (by simpa [Due] using hdeliver.outer rfl)))

/-- A result for the waiter is no cancellation of the host. -/
theorem onCompletion_throws (group : TaskGroup.State Party ε) (u : Party) (f : FutureId) :
    (TaskGroup.onCompletion group u f).loop.throws .host = group.loop.throws .host := by
  simp only [TaskGroup.onCompletion]
  split_ifs
  · simp only [Loop.throws, Loop.waits, Loop.setEvent_task, Loop.setEvent_point]
    congr 1
    split
    · rename_i g _
      rw [Loop.setEvent_future]
      split_ifs with h
      · simp [h.1, h.2]
      · rfl
    · rfl
  · rfl

@[simp] theorem excAtExit_onCompletion (group : TaskGroup.State Party ε) (u : Party)
    (f : FutureId) : excAtExit (TaskGroup.onCompletion group u f) = excAtExit group := by
  rw [excAtExit, onCompletion_throws]
  rfl

theorem Signalled.onCompletion (s : State α ε) (i : Nat) (f : FutureId) :
    Signalled s (onCompletion s i f) := by
  have hdone : Signalled s { s with group := TaskGroup.onCompletion s.group (.attempt i) f } := by
    refine ⟨Progress.still rfl (fun _ => .inl rfl) rfl id id ?_ [] (List.append_nil _).symm
      (by simp), rfl, rfl, fun _ => .inl rfl, fun _ => Iff.rfl, rfl, rfl, rfl, rfl, rfl⟩
    rintro ⟨houter, hint⟩
    refine ⟨houter, ?_⟩
    simpa only [HostInterrupted, excAtExit_onCompletion] using hint
  rw [ConnectTcp.onCompletion]
  split_ifs
  · dsimp only
    split_ifs
    · exact hdone.trans (.push _ (by simp [Due]))
    · exact hdone
  · exact .refl s

theorem Agree.finished (agree : Agree s) (i : Nat)
    (h : s.group.loop.point (.attempt i) = .finished) : ∃ how, s.attempt i = .ended how := by
  rw [agree.points] at h
  exact Attempt.point_finished.mp h

/-- The host waits for the callbacks of attempts that have ended. -/
theorem Signalled.suspended (hpoints : ∀ i, s.group.loop.point (.attempt i) = .finished →
    ∃ how, s.attempt i = .ended how) : Signalled s (suspended s) := by
  rw [ConnectTcp.suspended]
  split
  · apply Signalled.push
    intro handle h
    obtain ⟨u, -, hu⟩ := List.mem_filterMap.mp h
    cases u with
    | host => cases hu
    | attempt i =>
        obtain ⟨hfinished, heq⟩ := Option.ite_none_right_eq_some.mp hu
        cases heq
        exact hpoints i hfinished
  · exact .push s (by simp [Due])
  · exact .refl s

theorem Signalled.noticed (s : State α ε) (reached : List Nat) :
    Signalled s (noticed s reached) := by
  rw [ConnectTcp.noticed]
  split_ifs
  · have hcancel := Signalled.cancelScope s false reached
    apply hcancel.trans
    exact ⟨Progress.still rfl (fun _ => .inl rfl) rfl id id id [] (List.append_nil _).symm (by simp),
      rfl, rfl, fun _ => .inl rfl, fun _ => Iff.rfl, rfl, rfl, rfl, rfl, rfl⟩
  · exact .refl s

end Anyio.ConnectTcp
