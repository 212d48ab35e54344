import Anyio.TaskGroup.Invariant

/-!
# The steps of the asyncio `TaskGroup`

What each action does to the state, and with which result, said once for every
invariant over runs.
-/

namespace Anyio.TaskGroup

open Asyncio Library

variable {τ ε : Type*} [DecidableEq τ]

/-- The child whose `start()` call a task is in. -/
def Point.child : Point τ → Option τ
  | .starting child _ => some child
  | .joining child => some child
  | _ => none

/-- The new child `u` is added to the group. -/
def added (s : State τ ε) (u : τ) (taskStatusFuture : Option FutureId) : State τ ε :=
  { s with
    tasks := s.tasks.insert u
    taskStatus := Function.update s.taskStatus u (some taskStatusFuture)
    doneCallbacks := u :: s.doneCallbacks
    loop := s.loop.moveTo u .created }

/-- `__aexit__()` has looked at the exception of the host. -/
def exiting (s : State τ ε) : Option (Exc ε) → State τ ε
  | none => { s with phase := .exiting, excVal := none }
  | some e => { s with
      phase := .exiting
      excVal := some e
      cancelCalled := true
      exceptions := if e.isCancelled then s.exceptions else s.exceptions.map (· ++ [e]) }

section Exiting
omit [DecidableEq τ]
variable (s : State τ ε) (excVal : Option (Exc ε))

@[simp] theorem exiting_phase : (exiting s excVal).phase = .exiting := by cases excVal <;> rfl

@[simp] theorem exiting_hostTask : (exiting s excVal).hostTask = s.hostTask := by
  cases excVal <;> rfl

@[simp] theorem exiting_tasks : (exiting s excVal).tasks = s.tasks := by cases excVal <;> rfl

@[simp] theorem exiting_taskStatus : (exiting s excVal).taskStatus = s.taskStatus := by
  cases excVal <;> rfl

@[simp] theorem exiting_doneCallbacks : (exiting s excVal).doneCallbacks = s.doneCallbacks := by
  cases excVal <;> rfl

@[simp] theorem exiting_exception : (exiting s excVal).exception = s.exception := by
  cases excVal <;> rfl

@[simp] theorem exiting_failure : (exiting s excVal).failure = s.failure := by
  cases excVal <;> rfl

@[simp] theorem exiting_loop : (exiting s excVal).loop = s.loop := by cases excVal <;> rfl

end Exiting

/-- The done callback of the child `u` has started. -/
def removed (s : State τ ε) (u : τ) : State τ ε :=
  { s with tasks := s.tasks.erase u, doneCallbacks := s.doneCallbacks.erase u }

/-- What `__aexit__()` passes to the exit of the cancel scope. -/
def leaving (s : State τ ε) : Option (Exc ε) :=
  match s.exceptions with
  | some (e :: es) => some (.group "unhandled errors in a TaskGroup" (e :: es))
  | _ => s.excVal

/-- `__aexit__()` is left, with the group inactive or not. -/
def departed (s : State τ ε) (host : τ) (active : Bool) : State τ ε :=
  { s with
    phase := .left
    active := active
    exceptions := none
    excVal := none
    loop := s.loop.moveTo host .outside }

/-- How `__aexit__()` ends with an exception or without. -/
def exitResult (caught : Bool) : Option (Exc ε) → Result τ ε
  | none => .returned false
  | some e => if exitAnswer caught e then .returned true else .raised e

theorem leave_eq (s : State τ ε) (host : τ) (exc : Option (Exc ε)) (caught : Bool) :
    leave s host exc caught = (departed s host s.active, exitResult caught exc) := by
  cases exc <;> rfl

theorem deactivate_eq (s : State τ ε) (host : τ) (caught : Bool) :
    deactivate s host caught = (departed s host false, exitResult caught (leaving s)) := by
  unfold deactivate leaving
  rcases s.exceptions with _ | _ | ⟨e, es⟩ <;> exact leave_eq _ host _ caught

theorem aexit_eq (s : State τ ε) (host : τ) (excVal : Option (Exc ε)) :
    aexit s host excVal =
      if s.tasks = [] then
        ({ exiting s excVal with loop := (exiting s excVal).loop.moveTo host .checkpoint },
          .suspended .checkpoint)
      else waitForTasks (exiting s excVal) host false := by
  cases excVal <;> rfl

/-- The result that task `t` gets from its `start()` call of the child `u`. -/
inductive StartEnds (s : State τ ε) (t u : τ) : Result τ ε → Prop
  | value {f} (hp : s.loop.point t = .starting u f) (hdone : s.loop.future f = .finished)
      (hf : s.failure f = none) : StartEnds s t u (.returned true)
  | failed {f e} (hp : s.loop.point t = .starting u f) (hdone : s.loop.future f = .finished)
      (hf : s.failure f = some e) : StartEnds s t u (.raised e)
  | afterDone {f anyio} (hp : s.loop.point t = .starting u f) (hthrow : s.loop.throws t = true)
      (hdone : Coroutine.done (s.loop.point u) = true) :
      StartEnds s t u (.raised (joined s u anyio))
  | joined {anyio} (hp : s.loop.point t = .joining u) (hthrow : s.loop.throws t = false)
      (hdone : Coroutine.done (s.loop.point u) = true) :
      StartEnds s t u (.raised (joined s u anyio))
  | replaced {anyio} (hp : s.loop.point t = .joining u) (hthrow : s.loop.throws t = true) :
      StartEnds s t u (.raised (.cancelled anyio))

/-- The steps of a task group. -/
inductive Change (s : State τ ε) : Action τ ε → State τ ε → Result τ ε → Prop
  | refused {a e} (ha : (∃ func u, a = .startSoon func u) ∨ ∃ t func u, a = .start t func u) :
      Change s a s (.raised e)
  | created {t} (hp : s.loop.point t = .unborn) :
      Change s (.createTask t) { s with loop := s.loop.moveTo t .created } (.returned false)
  | entered {t} (hphase : s.phase = .new) (hp : s.loop.point t = .outside) :
      Change s (.aenter t) { s with phase := .body, hostTask := some t, active := true }
        (.returned false)
  | checks {t excVal} (hphase : s.phase = .body) (hhost : s.hostTask = some t)
      (hp : s.loop.point t = .outside) (htasks : s.tasks = []) :
      Change s (.aexit t excVal)
        { exiting s excVal with loop := s.loop.moveTo t .checkpoint } (.suspended .checkpoint)
  | waits {t excVal} (hphase : s.phase = .body) (hhost : s.hostTask = some t)
      (hp : s.loop.point t = .outside) (htasks : s.tasks ≠ []) :
      Change s (.aexit t excVal)
        { exiting s excVal with
          unfinished := (exiting s excVal).tasks
          loop := s.loop.createFuture.moveTo t (.waiting s.loop.nextFuture) }
        (.suspended (.waiting s.loop.nextFuture))
  | spawned {func u} (hactive : s.active = true) (hp : s.loop.point u = .unborn) :
      Change s (.startSoon func u) (added s u none) (.returned false)
  | starts {t func u} (hactive : s.active = true) (ht : s.loop.point t = .outside)
      (hp : s.loop.point u = .unborn) :
      Change s (.start t func u)
        { added { s with loop := s.loop.createFuture } u (some s.loop.nextFuture) with
          loop := (s.loop.createFuture.moveTo u .created).moveTo t
            (.starting u s.loop.nextFuture) }
        (.suspended (.starting u s.loop.nextFuture))
  | valued {u f} (hstatus : s.taskStatus u = some (some f)) (hf : s.loop.future f = .pending) :
      Change s (.started u)
        { s with loop := { s.loop with future := Function.update s.loop.future f .finished } }
        (.returned false)
  | late {u f o} (hstatus : s.taskStatus u = some (some f))
      (hf : s.loop.future f ≠ .pending) : Change s (.started u) s o
  | finished {t exc} (hp : s.loop.point t = .outside) :
      Change s (.finish t exc)
        { s with
          exception := Function.update s.exception t exc
          loop := s.loop.moveTo t .finished } (.returned false)
  | unreported {u f b c} (hp : s.loop.point u = .finished) (hstatus : s.taskStatus u = some f)
      (hu : u ∈ s.doneCallbacks) (hf : ∀ g, f = some g → s.loop.future g ≠ .pending)
      (hquiet : ∀ e, s.exception u = some e → e.isCancelled = false →
        ∃ g, f = some g ∧ s.loop.future g = .cancelled) :
      Change s (.taskDone u b) { removed s u with cancelCalled := c } (.returned false)
  | failed {u f b e} (hp : s.loop.point u = .finished)
      (hstatus : s.taskStatus u = some (some f)) (hu : u ∈ s.doneCallbacks)
      (hf : s.loop.future f = .pending) (he : ∀ e', s.exception u = some e' → e = e') :
      Change s (.taskDone u b) (setException (removed s u) f e) (.returned false)
  | reported {u f b c e excs} (hp : s.loop.point u = .finished)
      (hstatus : s.taskStatus u = some f) (hu : u ∈ s.doneCallbacks)
      (hf : ∀ g, f = some g → s.loop.future g = .finished) (he : s.exception u = some e)
      (hcancelled : e.isCancelled = false) (hexcs : s.exceptions = some excs) :
      Change s (.taskDone u b)
        { removed s u with cancelCalled := c, exceptions := some (excs ++ [e]) }
        (.returned false)
  | lost {u f b e} (hp : s.loop.point u = .finished) (hstatus : s.taskStatus u = some f)
      (hu : u ∈ s.doneCallbacks) (hf : ∀ g, f = some g → s.loop.future g = .finished)
      (he : s.exception u = some e) (hexcs : s.exceptions = none) :
      Change s (.taskDone u b) (removed s u) (.raised (.known .attributeError))
  | completed {t u f} (hp : s.loop.point t = .waiting f) :
      Change s (.onCompletion u) (onCompletion s u f) (.returned false)
  | requested {t} (hp : (s.loop.point t).isInside = true) :
      Change s (.cancel t) { s with loop := requestCancel s.loop t } (.returned false)
  | refusedFirst {t anyio caught} (hp : s.loop.point t = .created) :
      Change s (.resume t anyio caught)
        { s with
          exception := Function.update s.exception t (some (.cancelled anyio))
          loop := s.loop.resumeAt t .finished } (.raised (.cancelled anyio))
  | first {t anyio caught} (hp : s.loop.point t = .created) :
      Change s (.resume t anyio caught) { s with loop := s.loop.resumeAt t .outside }
        (.returned false)
  | waitsAgain {t anyio caught f b x} (hp : s.loop.point t = .waiting f)
      (htasks : s.tasks ≠ []) :
      Change s (.resume t anyio caught)
        { s with
          cancelCalled := b
          excVal := x
          unfinished := s.tasks
          loop := (s.loop.resumeAt t .outside).createFuture.moveTo t
            (.waiting s.loop.nextFuture) }
        (.suspended (.waiting s.loop.nextFuture))
  | waited {t anyio caught f b x} (hp : s.loop.point t = .waiting f) (htasks : s.tasks = []) :
      Change s (.resume t anyio caught)
        (departed { s with
          cancelCalled := b
          excVal := x
          unfinished := []
          loop := s.loop.resumeAt t .outside } t false)
        (exitResult caught (leaving { s with excVal := x }))
  | checked {t anyio caught} (hp : s.loop.point t = .checkpoint)
      (hthrow : s.loop.throws t = false) :
      Change s (.resume t anyio caught)
        (departed { s with loop := s.loop.resumeAt t .outside } t false)
        (exitResult caught (leaving s))
  | interrupted {t anyio caught} (hp : s.loop.point t = .checkpoint)
      (hthrow : s.loop.throws t = true) :
      Change s (.resume t anyio caught)
        (departed { s with loop := s.loop.resumeAt t .outside } t s.active)
        (exitResult caught (some (.cancelled anyio)))
  | joins {t u f anyio caught} (hp : s.loop.point t = .starting u f)
      (hthrow : s.loop.throws t = true)
      (hdone : Coroutine.done (s.loop.point u) = false) :
      Change s (.resume t anyio caught)
        { s with loop := requestCancel (s.loop.resumeAt t (.joining u)) u }
        (.suspended (.joining u))
  | ends {t u anyio caught o} (hchild : (s.loop.point t).child = some u)
      (ends : StartEnds s t u o) :
      Change s (.resume t anyio caught) { s with loop := s.loop.resumeAt t .outside } o

section Step
variable {s s' : State τ ε} {a : Action τ ε} {o : Result τ ε} {t u : τ}

theorem Change.taskDone {f : Option FutureId} (hp : s.loop.point u = .finished)
    (hstatus : s.taskStatus u = some f) (hu : u ∈ s.doneCallbacks) (outerCancelled : Bool) :
    Change s (.taskDone u outerCancelled) (taskDone s u f outerCancelled).1
      (taskDone s u f outerCancelled).2 := by
  have report : ∀ exc, s.exception u = some exc → (∀ g, f = some g → s.loop.future g = .finished) →
      Change s (.taskDone u outerCancelled) (report (removed s u) exc outerCancelled).1
        (report (removed s u) exc outerCancelled).2 := by
    intro exc he hf
    unfold TaskGroup.report
    simp only
    split_ifs with hc
    · refine .unreported hp hstatus hu (fun g hg => by simp [hf g hg]) fun e he' hn => ?_
      rw [he, Option.some.injEq] at he'
      rw [he', hn] at hc
      cases hc
    · split
      · rename_i hnone
        exact .lost hp hstatus hu hf he hnone
      · rename_i excs hsome
        exact .reported hp hstatus hu hf he (by simpa using hc) hsome
  unfold TaskGroup.taskDone
  simp only
  split
  · rename_i exc he
    exact report exc he (by simp)
  · rename_i exc f he
    split
    · rename_i hf
      refine .unreported hp hstatus hu (fun g hg => ?_) fun e _ _ => ⟨f, rfl, hf⟩
      rw [← Option.some.inj hg, hf]
      simp
    · rename_i hf
      exact report exc he fun g hg => Option.some.inj hg ▸ hf
    · rename_i hf
      exact .failed hp hstatus hu hf fun e' he' => by simpa [he] using he'
  · rename_i he
    exact .unreported hp hstatus hu (by simp) (by simp [he])
  · rename_i f he
    split_ifs with hf
    · exact .failed hp hstatus hu hf (by simp [he])
    · exact .unreported hp hstatus hu (fun g hg => Option.some.inj hg ▸ hf) (by simp [he])

/-- The host goes back into its wait, or out of it. -/
theorem Change.waitForTasks {f : FutureId} (hp : s.loop.point t = .waiting f)
    (anyio caught b : Bool) (x : Option (Exc ε)) :
    let awake := { s with
      cancelCalled := b
      excVal := x
      unfinished := []
      loop := s.loop.resumeAt t .outside }
    Change s (.resume t anyio caught) (waitForTasks awake t caught).1
      (waitForTasks awake t caught).2 := by
  unfold TaskGroup.waitForTasks
  simp only
  split_ifs with htasks
  · rw [deactivate_eq]
    exact .waited hp htasks
  · exact .waitsAgain hp htasks

theorem Change.resume (hwake : wakeUpQueued s t = true) (anyio caught : Bool) :
    Change s (.resume t anyio caught) (resume s t anyio caught).1
      (resume s t anyio caught).2 := by
  unfold TaskGroup.resume
  cases hp : s.loop.point t with
  | created =>
      simp only
      split_ifs
      · exact .refusedFirst hp
      · exact .first hp
  | waiting f =>
      simp only
      split_ifs
      · exact .waitForTasks hp anyio caught _ _
      · exact .waitForTasks hp anyio caught _ _
  | checkpoint =>
      simp only
      split_ifs with hthrow
      · rw [leave_eq]
        exact .interrupted hp hthrow
      · rw [deactivate_eq]
        exact .checked hp (by simpa using hthrow)
  | starting u f =>
      have hchild : (s.loop.point t).child = some u := by simp [hp, Point.child]
      simp only
      split_ifs with hthrow hdone
      · exact .ends hchild (.afterDone hp hthrow hdone)
      · exact .joins hp hthrow (by simpa using hdone)
      · have hwake : s.loop.wakeUpQueued t = true := by simpa [wakeUpQueued, hp] using hwake
        have hfin : s.loop.future f = .finished :=
          (Loop.finished_of_woken (by simp [Loop.waits, hp, Coroutine.waits]) hwake hthrow).2
        split
        · rename_i hf
          exact .ends hchild (.value hp hfin hf)
        · rename_i e hf
          exact .ends hchild (.failed hp hfin hf)
  | joining u =>
      have hchild : (s.loop.point t).child = some u := by simp [hp, Point.child]
      have hdone : Coroutine.done (s.loop.point u) = true := by
        simpa [wakeUpQueued, hp] using hwake
      simp only
      split_ifs with hthrow
      · exact .ends hchild (.replaced hp hthrow)
      · exact .ends hchild (.joined hp (by simpa using hthrow) hdone)
  | unborn => simp [wakeUpQueued, hp, Loop.wakeUpQueued, Loop.waits, Coroutine.waits] at hwake
  | outside => simp [wakeUpQueued, hp, Loop.wakeUpQueued, Loop.waits, Coroutine.waits] at hwake
  | finished => simp [wakeUpQueued, hp, Loop.wakeUpQueued, Loop.waits, Coroutine.waits] at hwake

theorem step_change (h : step s a = some (s', o)) : Change s a s' o := by
  cases a with
  | createTask t =>
      obtain ⟨hp, h⟩ := Option.ite_none_right_eq_some.mp h
      cases h
      exact .created hp
  | aenter t =>
      obtain ⟨⟨hphase, hp⟩, h⟩ := Option.ite_none_right_eq_some.mp h
      cases h
      exact .entered hphase hp
  | aexit t excVal =>
      obtain ⟨⟨hphase, hhost, hp⟩, h⟩ := Option.ite_none_right_eq_some.mp h
      rw [Option.some.injEq, aexit_eq] at h
      split_ifs at h with hempty
      · cases h
        rw [exiting_loop]
        exact .checks hphase hhost hp hempty
      · rw [waitForTasks, if_neg (by simpa using hempty), exiting_loop] at h
        cases h
        exact .waits hphase hhost hp hempty
  | startSoon func u =>
      obtain ⟨hp, h⟩ := Option.ite_none_right_eq_some.mp h
      rw [Option.some.injEq, startSoon] at h
      split at h <;> cases h
      · rename_i hs
        obtain ⟨hactive, -, rfl⟩ := spawn_cases hs
        exact .spawned hactive hp
      · exact .refused (.inl ⟨_, _, rfl⟩)
  | start t func u =>
      obtain ⟨⟨ht, hp⟩, h⟩ := Option.ite_none_right_eq_some.mp h
      rw [Option.some.injEq, start] at h
      split at h <;> cases h
      · rename_i hs
        obtain ⟨hactive, -, rfl⟩ := spawn_cases hs
        exact .starts hactive ht hp
      · exact .refused (.inr ⟨_, _, _, rfl⟩)
  | started u =>
      simp only [step] at h
      split at h
      · rename_i f hstatus
        rw [Option.some.injEq, started] at h
        split at h
        · rename_i l hl
          obtain ⟨hf, rfl⟩ := Loop.setResult_eq_some.mp hl
          cases h
          exact .valued hstatus hf
        · rename_i hl
          have hf : s.loop.future f ≠ .pending := fun hf => by simp [Loop.setResult, hf] at hl
          split_ifs at h <;> cases h <;> exact .late hstatus hf
      · cases h
  | finish t exc =>
      obtain ⟨hp, h⟩ := Option.ite_none_right_eq_some.mp h
      cases h
      exact .finished hp
  | taskDone u b =>
      simp only [step] at h
      split at h
      · rename_i f hstatus
        obtain ⟨⟨hp, hu⟩, h⟩ := Option.ite_none_right_eq_some.mp h
        have change := Change.taskDone hp hstatus hu b
        rwa [Option.some.inj h] at change
      · cases h
  | onCompletion u =>
      simp only [step] at h
      split at h
      · rename_i f hpoint
        obtain ⟨-, h⟩ := Option.ite_none_right_eq_some.mp h
        obtain ⟨t, -, hp⟩ := Option.map_eq_some_iff.mp hpoint
        cases h
        exact .completed hp
      · cases h
  | cancel t =>
      obtain ⟨hp, h⟩ := Option.ite_none_right_eq_some.mp h
      cases h
      exact .requested hp
  | resume t anyio caught =>
      obtain ⟨hwake, h⟩ := Option.ite_none_right_eq_some.mp h
      have change := Change.resume hwake anyio caught
      rwa [Option.some.inj h] at change

@[simp] theorem requestCancel_point (l : Loop τ (Point τ)) (t u : τ) :
    (requestCancel l t).point u = l.point u := by
  unfold requestCancel
  split
  · rfl
  · split_ifs <;> simp
  · simp

end Step

end Anyio.TaskGroup
