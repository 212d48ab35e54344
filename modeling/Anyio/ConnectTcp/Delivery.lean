import Anyio.ConnectTcp.Ending

/-!
# What a cancellation of the enclosing scope meets

Before anything is decided, a delivery of the enclosing scope that reaches an
attempt reaches the host as well, or it comes back while the host waits for
that attempt, the next one or the group: the call does not end unnoticed over
an attempt that was cancelled.
-/

namespace Anyio.ConnectTcp

open Asyncio Library
open TaskGroup (Exc)

variable {α ε : Type*} {s s' : State α ε} {i j : Nat} {reached : List Nat}

/-- An attempt has won, or one has failed in a way that ends the call. -/
def Decided (s : State α ε) : Prop :=
  s.connectedStream ≠ none ∨ ∃ i e, s.attempt i = .ended (.other e)

/-- A cancellation has reached the attempt. -/
def Touched (s : State α ε) (i : Nat) : Prop :=
  s.attempt i = .connecting true ∨ s.attempt i = .ended .cancelled

/-- The attempt has a task that is not done. -/
def Live (s : State α ε) (i : Nat) : Prop :=
  s.attempt i ≠ .unborn ∧ ∀ how, s.attempt i ≠ .ended how

/-- The future `f` of the host in `__aexit__()` gets its result once nothing is under way. -/
structure WaitsFor (s : State α ε) (f : FutureId) : Prop where
  unfinished : ∀ i, Live s i → .attempt i ∈ s.group.unfinished
  future : s.group.loop.future f = .pending ∨ ∀ i, ¬ Live s i

/-- The host goes on after its wait for attempt `j` before the group hears of this attempt. -/
structure WokenBy (s : State α ε) (j : Nat) : Prop where
  task : .attempt j ∈ s.group.tasks
  queued : ∃ front back, s.ready = front ++ .host :: back ∧ .taskDone j ∉ front
  completion : ∀ f, .onCompletion j f ∉ s.ready

/-- The wait in `__aexit__()` does not end before the next delivery of the enclosing scope. -/
structure Outlasts (s : State α ε) (f : FutureId) (j : Nat) (front back : List Handle) :
    Prop where
  point : s.group.loop.point .host = .waiting f
  future : s.group.loop.future f = .pending
  unfinished : .attempt j ∈ s.group.unfinished
  queued : s.ready = front ++ .deliver .outer :: back
  completion : ∀ g, .onCompletion j g ∉ front

/-- Nothing but the timeout of its wait has interrupted the host. -/
structure Quiet (s : State α ε) : Prop where
  called : s.group.cancelCalled = false
  finished : ∀ j t, s.host = .eventWait j .finished t → WokenBy s j
  cancelled : ∀ j t, s.host = .eventWait j .cancelled t → t = true ∧ s.outerCancelled = false
  exiting : s.host = .exiting → excAtExit s.group = none ∧ s.waitShielded = false
  waiting : ∀ f, s.group.loop.point .host = .waiting f → WaitsFor s f

/-- The cancelled enclosing scope comes back to the host. -/
structure Held (s : State α ε) : Prop where
  queued : .deliver .outer ∈ s.ready
  exiting : s.host = .exiting → ∃ f j front back, Outlasts s f j front back
  ongoing : ∀ e, s.host ≠ .ended e

/-- Nothing is decided, and no cancellation counts yet. -/
structure Undisturbed (s : State α ε) : Prop extends Quiet s where
  held : ∀ i, Touched s i → Held s

/-- Where a call stands, as far as cancellation goes. -/
inductive Fate (s : State α ε) : Prop
  | decided (h : Decided s)
  | interrupted (h : Interrupted s)
  | undisturbed (h : Undisturbed s)

theorem Decided.later (h : Decided s) (progress : Progress s s') : Decided s' := by
  obtain hstored | ⟨i, e, hi⟩ := h
  · left
    obtain ⟨w, hw⟩ := Option.ne_none_iff_exists'.mp hstored
    simp [progress.stored w hw]
  · exact .inr ⟨i, e, progress.ended i _ hi⟩

/-- Before anything is decided only the enclosing scope cancels attempts. -/
theorem Undisturbed.outerCancelled (undisturbed : Undisturbed s) (due : AllDue s)
    (h : Touched s i) : s.outerCancelled = true :=
  due (.deliver .outer) (undisturbed.held i h).queued

/-- A task other than the host does something, and cancels nobody. -/
structure Aside (s s' : State α ε) : Prop where
  called : s'.group.cancelCalled = s.group.cancelCalled
  host : s'.host = s.host
  outer : s'.outerCancelled = s.outerCancelled
  shielded : s'.waitShielded = s.waitShielded
  point : s'.group.loop.point .host = s.group.loop.point .host
  future : s'.group.loop.future = s.group.loop.future
  excAtExit : excAtExit s'.group = excAtExit s.group
  unfinished : s'.group.unfinished = s.group.unfinished
  ready : s'.ready = s.ready
  task : ∀ j t, s.host = .eventWait j .finished t → .attempt j ∈ s.group.tasks →
    .attempt j ∈ s'.group.tasks
  live : ∀ i, Live s' i → Live s i

theorem Quiet.aside (quiet : Quiet s) (aside : Aside s s') : Quiet s' where
  called := aside.called.trans quiet.called
  finished j t hs := by
    rw [aside.host] at hs
    obtain ⟨htask, hqueued, hcompletion⟩ := quiet.finished j t hs
    refine ⟨aside.task j t hs htask, ?_, ?_⟩
    · rwa [aside.ready]
    · rwa [aside.ready]
  cancelled j t hs := by
    rw [aside.outer]
    exact quiet.cancelled j t (aside.host ▸ hs)
  exiting hs := by
    rw [aside.excAtExit, aside.shielded]
    exact quiet.exiting (aside.host ▸ hs)
  waiting f hf := by
    obtain ⟨hunfinished, hfuture⟩ := quiet.waiting f (aside.point ▸ hf)
    refine ⟨fun i hi => ?_, ?_⟩
    · rw [aside.unfinished]
      exact hunfinished i (aside.live i hi)
    · rw [aside.future]
      exact hfuture.imp_right fun hnone i hi => hnone i (aside.live i hi)

theorem Held.aside (held : Held s) (aside : Aside s s') : Held s' where
  queued := by
    rw [aside.ready]
    exact held.queued
  exiting hs := by
    obtain ⟨f, j, front, back, houtlasts⟩ := held.exiting (aside.host ▸ hs)
    refine ⟨f, j, front, back, aside.point.trans houtlasts.point, ?_, ?_, ?_, ?_⟩
    · rw [aside.future, houtlasts.future]
    · rw [aside.unfinished]
      exact houtlasts.unfinished
    · rw [aside.ready, houtlasts.queued]
    · exact houtlasts.completion
  ongoing e hs := held.ongoing e (aside.host ▸ hs)

theorem Undisturbed.aside (undisturbed : Undisturbed s) (aside : Aside s s')
    (htouched : ∀ i, Touched s' i → Touched s i) : Undisturbed s' where
  toQuiet := undisturbed.toQuiet.aside aside
  held i h := (undisturbed.held i (htouched i h)).aside aside

/-- New handles come last. While the host waits for an event there are no callbacks of its wait
in `__aexit__()`. -/
theorem Quiet.push (quiet : Quiet s) {handles : List Handle}
    (hhandles : ∀ j t, s.host = .eventWait j .finished t → ∀ i f, .onCompletion i f ∉ handles) :
    Quiet (push s handles) where
  called := quiet.called
  finished j t hs := by
    obtain ⟨htask, ⟨front, back, hready, hfront⟩, hcompletion⟩ := quiet.finished j t hs
    refine ⟨htask, ⟨front, back ++ handles, ?_, hfront⟩, fun f hf => ?_⟩
    · rw [ConnectTcp.push, hready]
      simp
    · obtain hf | hf := List.mem_append.mp hf
      · exact hcompletion f hf
      · exact hhandles j t hs j f hf
  cancelled := quiet.cancelled
  exiting := quiet.exiting
  waiting f hf := ⟨(quiet.waiting f hf).unfinished, (quiet.waiting f hf).future⟩

theorem Held.push (held : Held s) (handles : List Handle) : Held (push s handles) where
  queued := List.mem_append_left handles held.queued
  exiting hs := by
    obtain ⟨f, j, front, back, houtlasts⟩ := held.exiting hs
    refine ⟨f, j, front, back ++ handles, houtlasts.point, houtlasts.future,
      houtlasts.unfinished, ?_, houtlasts.completion⟩
    rw [ConnectTcp.push, houtlasts.queued]
    simp
  ongoing := held.ongoing

theorem Undisturbed.push (undisturbed : Undisturbed s) {handles : List Handle}
    (hhandles : ∀ j t, s.host = .eventWait j .finished t → ∀ i f, .onCompletion i f ∉ handles) :
    Undisturbed (push s handles) where
  toQuiet := undisturbed.toQuiet.push hhandles
  held i h := (undisturbed.held i h).push handles

/-- The first handle is served; it is not the wake-up that the host waits for. -/
theorem Quiet.served (quiet : Quiet s) {handle : Handle} {rest : List Handle}
    (hready : s.ready = handle :: rest)
    (hhost : handle = .host → ∀ j t, s.host ≠ .eventWait j .finished t) :
    Quiet { s with ready := rest } where
  called := quiet.called
  finished j t hs := by
    obtain ⟨htask, ⟨front, back, hqueue, hfront⟩, hcompletion⟩ := quiet.finished j t hs
    refine ⟨htask, ?_, fun f hf => hcompletion f ?_⟩
    · cases front with
      | nil =>
          rw [hready, List.nil_append, List.cons.injEq] at hqueue
          exact absurd hs (hhost hqueue.1 j t)
      | cons x front =>
          rw [hready, List.cons_append, List.cons.injEq] at hqueue
          exact ⟨front, back, hqueue.2, fun h => hfront (List.mem_cons_of_mem x h)⟩
    · rw [hready]
      exact List.mem_cons_of_mem handle hf
  cancelled := quiet.cancelled
  exiting := quiet.exiting
  waiting f hf := ⟨(quiet.waiting f hf).unfinished, (quiet.waiting f hf).future⟩

theorem Held.served (held : Held s) {handle : Handle} {rest : List Handle}
    (hready : s.ready = handle :: rest) (houter : handle ≠ .deliver .outer) :
    Held { s with ready := rest } where
  queued := by
    have hmem := held.queued
    rw [hready] at hmem
    exact (List.mem_cons.mp hmem).resolve_left houter.symm
  exiting hs := by
    obtain ⟨f, j, front, back, houtlasts⟩ := held.exiting hs
    have hqueue := houtlasts.queued
    cases front with
    | nil =>
        rw [hready, List.nil_append, List.cons.injEq] at hqueue
        exact absurd hqueue.1 houter
    | cons x front =>
        rw [hready, List.cons_append, List.cons.injEq] at hqueue
        exact ⟨f, j, front, back, houtlasts.point, houtlasts.future, houtlasts.unfinished,
          hqueue.2, fun g h => houtlasts.completion g (List.mem_cons_of_mem x h)⟩
  ongoing := held.ongoing

theorem Undisturbed.served (undisturbed : Undisturbed s) {handle : Handle} {rest : List Handle}
    (hready : s.ready = handle :: rest)
    (hhost : handle = .host → ∀ j t, s.host ≠ .eventWait j .finished t)
    (houter : handle ≠ .deliver .outer) : Undisturbed { s with ready := rest } where
  toQuiet := undisturbed.toQuiet.served hready hhost
  held i h := (undisturbed.held i h).served hready houter

end Anyio.ConnectTcp
