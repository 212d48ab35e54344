import Anyio.BlockingPortal.CallFunc

/-!
# Async context managers in threads

`BlockingPortal.wrap_async_context_manager()`: the `with` statement of a thread
outside of the event loop, `run_async_cm()` in a task of the portal, and the
portal, which may be stopped at any time. What the body and the two methods of
the wrapped manager do is chosen by the environment.

## Implementation notes

The thread and the event loop meet only at the futures, at the exit event and at
`_exit_exc_info`, so a step goes from one of these to the next. The checks of the
portal and the start of the new task are two steps of the thread. A task group is
active as long as it has a task, so the portal refuses a task only when it was
stopped and `run_async_cm()` is not under way. The scope of `_call_func()` is
never cancelled, because the thread does not give the future to anybody. A task
that has not started yet is not cancelled, which is the rule of cancel scopes.
-/

namespace Anyio.BlockingAsyncContextManager

open Library Concurrent BlockingPortal

/-- What a call in the thread can raise: `RuntimeError`, from the check or from the task group, the
`CancelledError` of `concurrent.futures`, if its future was cancelled, or what its future was
completed with. -/
inductive Failure (ε : Type*)
  | notRunning
  | notActive
  | futureCancelled
  | thrown (exc : Thrown ε)
  deriving DecidableEq, Repr

/-- Where the `with` statement stands. -/
inductive ThreadPoint (ρ ε : Type*)
  | before
  | spawning
  | entering
  | body (value : ρ)
  | setting
  | joining
  | notEntered (failure : Failure ε)
  | exited (result : Except (Failure ε) Bool)
  deriving DecidableEq, Repr

/-- Where `run_async_cm()` stands. -/
inductive TaskPoint
  | absent
  | spawned
  | entering
  | waiting
  | exiting
  | ended
  deriving DecidableEq, Repr

structure State (ρ ε : Type*) where
  thread : ThreadPoint ρ ε
  task : TaskPoint
  enterFuture : Future (Except (Thrown ε) ρ)
  exitFuture : Future (Except (Thrown ε) Bool)
  exitEvent : Bool
  exitExcInfo : Option ε
  portalRunning : Bool

def initial (ρ ε : Type*) : State ρ ε where
  thread := .before
  task := .absent
  enterFuture := .pending
  exitFuture := .pending
  exitEvent := false
  exitExcInfo := none
  portalRunning := true

/-- `bodyEnds` is the end of the body, with its exception. `interrupt` is a `CancelledError` that
reaches the wait for the exit event. -/
inductive Action (ρ ε : Type*)
  | enter
  | spawn
  | refuse
  | start
  | aenterEnds (result : Except (Thrown ε) ρ)
  | entered
  | bodyEnds (exc : Option ε)
  | setEvent
  | wake
  | interrupt
  | aexitEnds (result : Except (Thrown ε) Bool)
  | join
  | stop
  deriving DecidableEq, Repr

variable {ρ ε : Type*}

/-- The end of `_call_func()`. -/
def settle {α : Type*} (f : Future (Except (Thrown ε) α)) (result : Except (Thrown ε) α) :
    Future (Except (Thrown ε) α) :=
  match result with
  | .error .cancelledError => (f.cancel.setRunningOrNotifyCancel).getD f
  | r => if f.isCancelled then f else (f.complete r).getD f

/-- `result()`, or nothing while it blocks. -/
def result {α : Type*} : Future (Except (Thrown ε) α) → Option (Except (Failure ε) α)
  | .pending | .running => none
  | .cancelled | .cancelledAndNotified => some (.error .futureCancelled)
  | .finished r => some (r.mapError .thrown)

/-- The `finally` block of `run_async_cm()` calls `__aexit__()`. -/
def callAexit (s : State ρ ε) : State ρ ε := { s with task := .exiting }

def step (s : State ρ ε) : Action ρ ε → Option (State ρ ε × Unit)
  | .enter =>
      match s.thread with
      | .before =>
          if s.portalRunning then some ({ s with thread := .spawning }, ())
          else some ({ s with thread := .notEntered .notRunning }, ())
      | _ => none
  | .spawn =>
      match s.thread with
      | .spawning => some ({ s with thread := .entering, task := .spawned }, ())
      | _ => none
  | .refuse =>
      if s.portalRunning = false ∧ (s.task = .absent ∨ s.task = .ended) then
        match s.thread with
        | .spawning => some ({ s with thread := .notEntered .notActive }, ())
        | .setting => some ({ s with thread := .exited (.error .notActive) }, ())
        | _ => none
      else none
  | .start => if s.task = .spawned then some ({ s with task := .entering }, ()) else none
  | .aenterEnds r =>
      if s.task = .entering then
        match s.enterFuture.complete r with
        | none => none
        | some f =>
            match r with
            | .ok _ => some ({ s with enterFuture := f, task := .waiting }, ())
            | .error e =>
                some ({ s with
                  enterFuture := f
                  exitFuture := settle s.exitFuture (.error e)
                  task := .ended }, ())
      else none
  | .entered =>
      match s.thread, result s.enterFuture with
      | .entering, some (.ok value) => some ({ s with thread := .body value }, ())
      | .entering, some (.error e) => some ({ s with thread := .notEntered e }, ())
      | _, _ => none
  | .bodyEnds exc =>
      match s.thread with
      | .body _ =>
          if s.portalRunning then some ({ s with exitExcInfo := exc, thread := .setting }, ())
          else
            some ({ s with exitExcInfo := exc, thread := .exited (.error .notRunning) }, ())
      | _ => none
  | .setEvent =>
      match s.thread with
      | .setting => some ({ s with exitEvent := true, thread := .joining }, ())
      | _ => none
  | .wake =>
      if s.task = .waiting ∧ s.exitEvent = true then some (callAexit s, ()) else none
  | .interrupt => if s.task = .waiting then some (callAexit s, ()) else none
  | .aexitEnds r =>
      if s.task = .exiting then
        some ({ s with exitFuture := settle s.exitFuture r, task := .ended }, ())
      else none
  | .join =>
      match s.thread, result s.exitFuture with
      | .joining, some r => some ({ s with thread := .exited r }, ())
      | _, _ => none
  | .stop => some ({ s with portalRunning := false }, ())

abbrev machine (ρ ε : Type*) : Machine (State ρ ε) (Action ρ ε) Unit where
  step := step

end Anyio.BlockingAsyncContextManager
