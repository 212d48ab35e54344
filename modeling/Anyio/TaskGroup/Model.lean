import Anyio.Asyncio.Loop
import Anyio.Exceptions
import Anyio.Library.Machine
import Mathlib.Data.List.Basic

/-!
# The asyncio `TaskGroup`

One task group with its host, its child tasks and any other tasks that hold a
reference to it. `__aexit__()`, `_wait()` and `start()` are cut at their
`await`s.

## Implementation notes

A task in code of its own is `outside`, also when it is suspended there; a
cancellation request shows there in what the task does next. Elsewhere a
request, be it native or from a cancel scope, may reach a suspended task at
any time. A request to a task that joins an unfinished child goes on to the
child, as a request of its own.

What is read of the cancel scope besides `_cancel_called` is part of the
action: whether a scope around the group is cancelled, whether the scope
catches AnyIO cancellations at its exit, and by whom a task was cancelled.
-/

namespace Anyio.TaskGroup

open Asyncio Library

/-- The exceptions of tasks; `anyio` tells a cancellation by a cancel scope from a native one. -/
inductive Exc (ε : Type*)
  | cancelled (anyio : Bool)
  | known (error : Error)
  | other (value : ε)
  | group (message : String) (exceptions : List (Exc ε))

def Exc.isCancelled {ε : Type*} : Exc ε → Bool
  | .cancelled _ => true
  | _ => false

mutual

/-- `iterate_exceptions()` -/
def Exc.leaves {ε : Type*} : Exc ε → List (Exc ε)
  | .group _ exceptions => leavesOfEach exceptions
  | e => [e]

def leavesOfEach {ε : Type*} : List (Exc ε) → List (Exc ε)
  | [] => []
  | e :: rest => e.leaves ++ leavesOfEach rest

end

mutual

/-- What `split(CancelledError)` leaves of an exception. -/
def Exc.withoutCancelled {ε : Type*} : Exc ε → Option (Exc ε)
  | .cancelled _ => none
  | .group message exceptions =>
      match eachWithoutCancelled exceptions with
      | [] => none
      | e :: rest => some (.group message (e :: rest))
  | e => some e

def eachWithoutCancelled {ε : Type*} : List (Exc ε) → List (Exc ε)
  | [] => []
  | e :: rest => e.withoutCancelled.toList ++ eachWithoutCancelled rest

end

/-- What leaves a `with suppress(CancelledError)` block. From Python 3.12 on, an exception group
leaves it without its `CancelledError`s. -/
def suppressCancelled {ε : Type*} (python312 : Bool) (e : Exc ε) : Option (Exc ε) :=
  if e.isCancelled then none else if python312 then e.withoutCancelled else some e

/-- The answer of `CancelScope.__exit__()`: each leaf is an AnyIO cancellation, and the scope
catches them. -/
def exitAnswer {ε : Type*} (caught : Bool) (e : Exc ε) : Bool :=
  !e.leaves.isEmpty && e.leaves.all fun
    | .cancelled anyio => anyio && caught
    | _ => false

/-- The awaits of a task. `waiting` is the wait for the child tasks in
`__aexit__()` and `checkpoint` the one it makes if there are none. -/
inductive Point (τ : Type*)
  | unborn
  | created
  | outside
  | waiting (waiter : FutureId)
  | checkpoint
  | starting (child : τ) (status : FutureId)
  | joining (child : τ)
  | finished
  deriving DecidableEq, Repr

instance {τ : Type*} : Coroutine (Point τ) where
  waits
    | .unborn => .nothing
    | .created => .step
    | .outside => .nothing
    | .waiting waiter => .future waiter
    | .checkpoint => .step
    | .starting _ status => .future status
    | .joining _ => .nothing
    | .finished => .nothing
  done
    | .finished => true
    | _ => false

/-- Whether the host has come into the `async with` block, to its end, and out of it. -/
inductive Phase
  | new
  | body
  | exiting
  | left
  deriving DecidableEq, Repr

/-- A coroutine function: its names, and the `repr` of what it returns if that
is not a coroutine. -/
structure Func where
  module : Option String
  qualname : String
  notCoroutine : Option String := none

/-- A `TaskGroup` with the loop it lives in. `excVal` and `unfinished` are the
local variables of `__aexit__()` and `_wait()`; `taskStatus` is the
`task_status_future` of the callback `task_done` of each child, and
`doneCallbacks` are the children that have not run it. -/
structure State (τ ε : Type*) where
  phase : Phase
  hostTask : Option τ
  active : Bool
  exceptions : Option (List (Exc ε))
  tasks : List τ
  cancelCalled : Bool
  excVal : Option (Exc ε)
  unfinished : List τ
  taskStatus : τ → Option (Option FutureId)
  doneCallbacks : List τ
  exception : τ → Option (Exc ε)
  failure : FutureId → Option (Exc ε)
  python312 : Bool
  loop : Loop τ (Point τ)

/-- `TaskGroup()`, before there are any tasks. -/
def initial (τ ε : Type*) (python312 : Bool) : State τ ε where
  phase := .new
  hostTask := none
  active := false
  exceptions := some []
  tasks := []
  cancelCalled := false
  excVal := none
  unfinished := []
  taskStatus := fun _ => none
  doneCallbacks := []
  exception := fun _ => none
  failure := fun _ => none
  python312 := python312
  loop := Loop.initial .unborn

inductive Action (τ ε : Type*)
  | createTask (task : τ)
  | aenter (host : τ)
  | aexit (host : τ) (excVal : Option (Exc ε))
  | startSoon (func : Func) (task : τ)
  | start (caller : τ) (func : Func) (task : τ)
  | started (child : τ)
  | finish (task : τ) (exc : Option (Exc ε))
  | taskDone (child : τ) (outerCancelled : Bool)
  | onCompletion (child : τ)
  | cancel (task : τ)
  | resume (task : τ) (anyio caught : Bool)

/-- How a step ends: a call returns or raises, or its task is suspended. -/
inductive Result (τ ε : Type*)
  | returned (value : Bool)
  | raised (exc : Exc ε)
  | suspended (point : Point τ)

def groupNotActive : Error :=
  .runtimeError "This task group is not active; no new tasks can be started."

def startedTwice : Error :=
  .runtimeError "called 'started' twice on the same task status"

def exitedWithoutStarted : Error :=
  .runtimeError "Child exited without calling task_status.started()"

def Func.notACoroutine (func : Func) (value : String) : Error :=
  let dotted := (func.module.map (· ++ ".")).getD ""
  .typeError ("Expected " ++ dotted ++ func.qualname ++
    "() to return a coroutine, but the return value (" ++ value ++
    ") is not a coroutine object")

variable {τ ε : Type*} [DecidableEq τ]

/-- `_spawn()` of the new task `u`. -/
def spawn (s : State τ ε) (func : Func) (u : τ) (taskStatusFuture : Option FutureId) :
    Except Error (State τ ε) :=
  if s.active = false then .error groupNotActive
  else
    match func.notCoroutine with
    | some value => .error (func.notACoroutine value)
    | none => .ok { s with
        tasks := s.tasks.insert u
        taskStatus := Function.update s.taskStatus u (some taskStatusFuture)
        doneCallbacks := u :: s.doneCallbacks
        loop := s.loop.moveTo u .created }

def startSoon (s : State τ ε) (func : Func) (u : τ) : State τ ε × Result τ ε :=
  match spawn s func u none with
  | .ok s' => (s', .returned false)
  | .error e => (s, .raised (.known e))

/-- `start()` up to its first await; if nothing is spawned, its future is dropped. -/
def start (s : State τ ε) (t : τ) (func : Func) (u : τ) : State τ ε × Result τ ε :=
  let future := s.loop.nextFuture
  match spawn { s with loop := s.loop.createFuture } func u (some future) with
  | .ok s' =>
      ({ s' with loop := s'.loop.moveTo t (.starting u future) },
        .suspended (.starting u future))
  | .error e => (s, .raised (.known e))

/-- `task_status.started()` of the child `u`. -/
def started (s : State τ ε) (f : FutureId) : State τ ε × Result τ ε :=
  match s.loop.setResult f with
  | some l => ({ s with loop := l }, .returned false)
  | none =>
      if s.loop.future f = .cancelled then (s, .returned false)
      else (s, .raised (.known startedTwice))

/-- `task_status_future.set_exception(exc)` -/
def setException (s : State τ ε) (f : FutureId) (exc : Exc ε) : State τ ε :=
  { s with
    failure := Function.update s.failure f (some exc)
    loop := s.loop.setEvent f }

/-- The part of `task_done` for an exception that nobody else will see. -/
def report (s : State τ ε) (exc : Exc ε) (outerCancelled : Bool) : State τ ε × Result τ ε :=
  let cancelled := { s with cancelCalled := s.cancelCalled || !outerCancelled }
  if exc.isCancelled then (cancelled, .returned false)
  else
    match s.exceptions with
    | none => (s, .raised (.known .attributeError))
    | some excs => ({ cancelled with exceptions := some (excs ++ [exc]) }, .returned false)

/-- `task_done` of the child `u`. -/
def taskDone (s : State τ ε) (u : τ) (taskStatusFuture : Option FutureId)
    (outerCancelled : Bool) : State τ ε × Result τ ε :=
  let s' := { s with
    tasks := s.tasks.erase u
    doneCallbacks := s.doneCallbacks.erase u }
  match s.exception u, taskStatusFuture with
  | some exc, none => report s' exc outerCancelled
  | some exc, some f =>
      match s.loop.future f with
      | .cancelled => (s', .returned false)
      | .finished => report s' exc outerCancelled
      | .pending => (setException s' f exc, .returned false)
  | none, none => (s', .returned false)
  | none, some f =>
      if s.loop.future f = .pending then
        (setException s' f (.known exitedWithoutStarted), .returned false)
      else (s', .returned false)

/-- `on_completion` of the current `_wait()`, whose waiter is `f`. -/
def onCompletion (s : State τ ε) (u : τ) (f : FutureId) : State τ ε :=
  let rest := s.unfinished.erase u
  { s with
    unfinished := rest
    loop := if rest = [] then s.loop.setEvent f else s.loop }

/-- The exit of the cancel scope with an exception or without, and the end of
`__aexit__()`. -/
def leave (s : State τ ε) (host : τ) (exc : Option (Exc ε)) (caught : Bool) :
    State τ ε × Result τ ε :=
  let s' := { s with
    phase := .left
    exceptions := none
    excVal := none
    loop := s.loop.moveTo host .outside }
  match exc with
  | none => (s', .returned false)
  | some e => (s', if exitAnswer caught e then .returned true else .raised e)

/-- `__aexit__()` from `self._active = False` on. -/
def deactivate (s : State τ ε) (host : τ) (caught : Bool) : State τ ε × Result τ ε :=
  let s' := { s with active := false }
  match s.exceptions with
  | some (e :: es) =>
      leave s' host (some (.group "unhandled errors in a TaskGroup" (e :: es))) caught
  | _ => leave s' host s.excVal caught

/-- The loop `while self._tasks` of `__aexit__()`, up to its next await. -/
def waitForTasks (s : State τ ε) (host : τ) (caught : Bool) : State τ ε × Result τ ε :=
  if s.tasks = [] then deactivate s host caught
  else
    let waiter := s.loop.nextFuture
    ({ s with
        unfinished := s.tasks
        loop := s.loop.createFuture.moveTo host (.waiting waiter) },
      .suspended (.waiting waiter))

/-- `__aexit__()` up to its first await. -/
def aexit (s : State τ ε) (host : τ) (excVal : Option (Exc ε)) : State τ ε × Result τ ε :=
  let s' :=
    match excVal with
    | none => { s with phase := .exiting, excVal := none }
    | some e => { s with
        phase := .exiting
        excVal := some e
        cancelCalled := true
        exceptions := if e.isCancelled then s.exceptions else s.exceptions.map (· ++ [e]) }
  if s.tasks = [] then
    ({ s' with loop := s'.loop.moveTo host .checkpoint }, .suspended .checkpoint)
  else waitForTasks s' host false

/-- The handler of a `CancelledError` in the wait for the child tasks. -/
def waitCancelled (s : State τ ε) (anyio : Bool) : State τ ε :=
  { s with
    cancelCalled := true
    excVal :=
      match s.excVal with
      | none => some (.cancelled anyio)
      | some e => if e.isCancelled && !anyio then some (.cancelled anyio) else some e }

/-- `Task.cancel()` of a task that is suspended. -/
def requestCancel (l : Loop τ (Point τ)) (t : τ) : Loop τ (Point τ) :=
  match l.point t with
  | .outside => l
  | .joining child => if Coroutine.done (l.point child) then l.cancel t else l
  | _ => l.cancel t

/-- What `start()` raises after `await task` of the finished child in its `except` block. -/
def joined (s : State τ ε) (child : τ) (anyio : Bool) : Exc ε :=
  ((s.exception child).bind (suppressCancelled s.python312)).getD (.cancelled anyio)

/-- The step of a task that follows its wake-up. -/
def resume (s : State τ ε) (t : τ) (anyio caught : Bool) : State τ ε × Result τ ε :=
  let thrown := s.loop.throws t
  let woken := { s with loop := s.loop.resumeAt t .outside }
  match s.loop.point t with
  | .created =>
      if thrown then
        ({ s with
            exception := Function.update s.exception t (some (.cancelled anyio))
            loop := s.loop.resumeAt t .finished }, .raised (.cancelled anyio))
      else (woken, .returned false)
  | .waiting _ =>
      let awake := { woken with unfinished := [] }
      if thrown then waitForTasks (waitCancelled awake anyio) t caught
      else waitForTasks awake t caught
  | .checkpoint =>
      -- a `CancelledError` here goes past `self._active = False`
      if thrown then leave woken t (some (.cancelled anyio)) caught
      else deactivate woken t caught
  | .starting child f =>
      if thrown then
        if Coroutine.done (s.loop.point child) then (woken, .raised (joined s child anyio))
        else
          ({ s with loop := requestCancel (s.loop.resumeAt t (.joining child)) child },
            .suspended (.joining child))
      else
        match s.failure f with
        | none => (woken, .returned true)
        | some e => (woken, .raised e)
  | .joining child =>
      -- a request that reached the task after the end of the child takes its place
      if thrown then (woken, .raised (.cancelled anyio))
      else (woken, .raised (joined s child anyio))
  | _ => (s, .returned false)

/-- A wake-up of the task is queued, also by the end of the child that it joins. -/
def wakeUpQueued (s : State τ ε) (t : τ) : Bool :=
  match s.loop.point t with
  | .joining child => Coroutine.done (s.loop.point child)
  | _ => s.loop.wakeUpQueued t

/-- Whether a task stands in an await of this module. -/
def Point.isInside : Point τ → Bool
  | .created => true
  | .waiting _ => true
  | .checkpoint => true
  | .starting _ _ => true
  | .joining _ => true
  | _ => false

def step (s : State τ ε) : Action τ ε → Option (State τ ε × Result τ ε)
  | .createTask t =>
      if s.loop.point t = .unborn then
        some ({ s with loop := s.loop.moveTo t .created }, .returned false)
      else none
  | .aenter host =>
      if s.phase = .new ∧ s.loop.point host = .outside then
        some ({ s with phase := .body, hostTask := some host, active := true }, .returned false)
      else none
  | .aexit host excVal =>
      if s.phase = .body ∧ s.hostTask = some host ∧ s.loop.point host = .outside then
        some (aexit s host excVal)
      else none
  | .startSoon func u =>
      if s.loop.point u = .unborn then some (startSoon s func u) else none
  | .start t func u =>
      if s.loop.point t = .outside ∧ s.loop.point u = .unborn then some (start s t func u)
      else none
  | .started u =>
      match s.taskStatus u with
      | some (some f) => some (started s f)
      | _ => none
  | .finish t exc =>
      if s.loop.point t = .outside then
        some ({ s with
          exception := Function.update s.exception t exc
          loop := s.loop.moveTo t .finished }, .returned false)
      else none
  | .taskDone u outerCancelled =>
      match s.taskStatus u with
      | some taskStatusFuture =>
          if s.loop.point u = .finished ∧ u ∈ s.doneCallbacks then
            some (taskDone s u taskStatusFuture outerCancelled)
          else none
      | none => none
  | .onCompletion u =>
      match s.hostTask.map s.loop.point with
      | some (.waiting f) =>
          if s.loop.point u = .finished ∧ u ∈ s.unfinished then
            some (onCompletion s u f, .returned false)
          else none
      | _ => none
  | .cancel t =>
      if (s.loop.point t).isInside then
        some ({ s with loop := requestCancel s.loop t }, .returned false)
      else none
  | .resume t anyio caught =>
      if wakeUpQueued s t then some (resume s t anyio caught) else none

def machine (τ ε : Type*) [DecidableEq τ] : Machine (State τ ε) (Action τ ε) (Result τ ε) where
  step := step

end Anyio.TaskGroup
