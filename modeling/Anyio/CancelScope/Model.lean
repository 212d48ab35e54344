import Anyio.Asyncio.Loop
import Anyio.Exceptions
import Anyio.Library.Ancestry
import Anyio.Library.Machine

/-!
# Cancel scopes of the asyncio backend

The tree of `CancelScope` objects with the tasks in them, the queue of
`_deliver_cancellation` callbacks and the timers of the deadlines. A step is a
call made by the running task, or a callback of the loop between two tasks.

## Implementation notes

A scope that nobody touched is `CancelScope()`. The arguments of the
constructor are assigned before the scope is entered, where the setters do
nothing else.

The sets `_tasks` and `_child_scopes` are lists without regard to order. The
chains of parents and children have no bound in the source; here they are
followed for as many scopes as were ever entered. `entered` is kept for that
bound only.

`_spawn` is modelled from the creation of the task on: `_active` belongs to
the task group. The message of the cancellation is not kept by the tasks.
-/

namespace Anyio.CancelScope

open Asyncio Library

abbrev ScopeId := Nat
abbrev HandleId := Nat

/-- Where a task stands: before its creation, before its first step, running,
or suspended on a bare yield or a future. -/
inductive Point
  | unborn
  | created
  | running
  | yielding
  | awaiting (fut : FutureId)
  | finished
  deriving DecidableEq, Repr

instance : Coroutine Point where
  waits
    | .unborn => .nothing
    | .created => .step
    | .running => .nothing
    | .yielding => .step
    | .awaiting fut => .future fut
    | .finished => .nothing
  started
    | .unborn => false
    | .created => false
    | .running => true
    | .yielding => true
    | .awaiting _ => true
    | .finished => false
  done
    | .finished => true
    | _ => false

/-- A `CancelScope` object; the deadline `none` is `math.inf`. -/
structure Scope (τ : Type*) where
  deadline : Option Int := none
  shield : Bool := false
  parentScope : Option ScopeId := none
  childScopes : List ScopeId := []
  cancelCalled : Bool := false
  cancelledCaught : Bool := false
  active : Bool := false
  timeoutHandle : Option HandleId := none
  cancelHandle : Option HandleId := none
  tasks : List τ := []
  hostTask : Option τ := none
  cancelCalls : Nat := 0
  cancelling : Option Nat := none

/-- The scopes, `_task_states` and the loop. The callbacks are the queued calls
`_deliver_cancellation(origin)`; `timerWhen` is the time passed to `call_at` for
a timer; `placedScope` is the variable `scope` of `task_wrapper`. A task group
is named by its `cancel_scope`: `groupTasks` are its `_tasks`, and
`doneCallbacks` are the `task_done` callbacks still to run. -/
structure World (τ : Type*) where
  scope : ScopeId → Scope τ
  entered : List ScopeId
  taskState : τ → Option (Option ScopeId)
  groupTasks : ScopeId → List τ
  doneCallbacks : List (τ × ScopeId)
  placedScope : τ → Option ScopeId
  loop : Loop τ Point
  current : Option τ
  callbacks : List (HandleId × ScopeId)
  timers : List (HandleId × ScopeId)
  timerWhen : HandleId → Int
  nextHandle : HandleId
  now : Int
  pythonMinor : Nat

/-- An event loop on CPython 3.`minor` with no tasks. -/
def initial (τ : Type*) (minor : Nat) : World τ where
  scope := fun _ => {}
  entered := []
  taskState := fun _ => none
  groupTasks := fun _ => []
  doneCallbacks := []
  placedScope := fun _ => none
  loop := Loop.initial .unborn
  current := none
  callbacks := []
  timers := []
  timerWhen := fun _ => 0
  nextHandle := 0
  now := 0
  pythonMinor := minor

variable {τ : Type*}

namespace World

/-- Change the attributes of one scope. -/
def modify (w : World τ) (c : ScopeId) (f : Scope τ → Scope τ) : World τ :=
  { w with scope := Function.update w.scope c (f (w.scope c)) }

/-- `loop.call_soon(self._deliver_cancellation, origin)`, kept as the handle of `origin`. -/
def reschedule (w : World τ) (origin : ScopeId) : World τ :=
  { w.modify origin fun s => { s with cancelHandle := some w.nextHandle } with
    callbacks := w.callbacks ++ [(w.nextHandle, origin)]
    nextHandle := w.nextHandle + 1 }

/-- The scope in which a task is. -/
def currentScope (w : World τ) (t : τ) : Option ScopeId := (w.taskState t).join

/-- The closest scope with `_cancel_called`, not looking beyond a shielded one. -/
def nearestCancelled (w : World τ) (start : Option ScopeId) : Option ScopeId :=
  nearest (fun c => (w.scope c).parentScope) (fun c => (w.scope c).cancelCalled)
    (fun c => (w.scope c).shield) (w.entered.length + 1) start

def effectivelyCancelled (w : World τ) (c : ScopeId) : Bool :=
  (w.nearestCancelled (some c)).isSome

def parentCancellationIsVisibleToUs (w : World τ) (c : ScopeId) : Bool :=
  match (w.scope c).parentScope with
  | none => false
  | some p => !(w.scope c).shield && w.effectivelyCancelled p

/-- `waiter.done()`, for a task that awaits a future. -/
def waiterDone (w : World τ) (t : τ) : Bool :=
  match w.loop.waits t with
  | .future f => w.loop.future f ≠ .pending
  | _ => false

/-- Cancel a timer handle, if there is one. -/
def dropTimer (w : World τ) (c : ScopeId) : World τ :=
  match (w.scope c).timeoutHandle with
  | none => w
  | some h =>
      { w.modify c fun s => { s with timeoutHandle := none } with
        timers := w.timers.filter fun e => e.1 ≠ h }

end World

/-- A `CancelledError` by its message and those of the `CancelledError`s that
follow it along `__context__`; any other exception; an exception group. -/
inductive Exc
  | cancelled (message : Option String) (contexts : List (Option String))
  | other
  | group (exceptions : List Exc)

mutual

/-- The exceptions in a tree of exception groups. -/
def iterateExceptions : Exc → List Exc
  | .group exceptions => iterateEach exceptions
  | e => [e]

def iterateEach : List Exc → List Exc
  | [] => []
  | e :: rest => iterateExceptions e ++ iterateEach rest

end

/-- `is_anyio_cancellation`, of an exception with this first argument. -/
def isAnyioCancellation : Option String → Bool
  | none => false
  | some message => "Cancelled by cancel scope ".toList.isPrefixOf message.toList

def usedTwice : Error :=
  .runtimeError "Each CancelScope may only be used for a single 'with' block"

def notActive : Error := .runtimeError "This cancel scope is not active"

def otherTask : Error :=
  .runtimeError
    "Attempted to exit cancel scope in a different task than it was entered in"

def notCurrentScope : Error :=
  .runtimeError
    "Attempted to exit a cancel scope that isn't the current tasks's current cancel scope"

inductive Action (τ : Type*)
  | enter (scope : ScopeId)
  | exit (scope : ScopeId) (exc : Option Exc)
  | cancel (scope : ScopeId)
  | setShield (scope : ScopeId) (value : Bool)
  | setDeadline (scope : ScopeId) (value : Option Int)
  | timeout (handle : HandleId) (scope : ScopeId)
  | deliverCancellation (handle : HandleId) (origin : ScopeId)
  | spawn (scope : ScopeId) (task : τ)
  | taskWrapper (scope : ScopeId)
  | createTask (task : τ)
  | resume (task : τ)
  | sleep
  | await (fut : FutureId)
  | finish
  | taskDone (task : τ) (group : ScopeId)
  | nativeCancel (task : τ)
  | createFuture
  | setResult (fut : FutureId)
  | setTime (now : Int)

namespace World

variable [DecidableEq τ]

/-- One task in the loop of `_deliver_cancellation`. -/
def deliverTo (self origin : ScopeId) (w : World τ) (t : τ) : World τ :=
  if (w.loop.task t).mustCancel then w
  else if w.current ≠ some t ∧
      ((w.scope self).hostTask = some t ∨ Coroutine.started (w.loop.point t)) ∧
      w.waiterDone t = false then
    let w' := { w with loop := w.loop.cancel t }
    if (w.scope origin).hostTask = some t then
      w'.modify origin fun s => { s with cancelCalls := s.cancelCalls + 1 }
    else w'
  else w

/-- One child scope in the loop of `_deliver_cancellation`; `deliver` is the
delivery to a scope that is not shielded or running its own callbacks. -/
def deliverToChild (deliver : World τ → ScopeId → World τ × Bool) (r : World τ × Bool)
    (child : ScopeId) : World τ × Bool :=
  if (r.1.scope child).shield || (r.1.scope child).cancelCalled then r
  else
    let below := deliver r.1 child
    (below.1, below.2 || r.2)

/-- "Schedule another callback if there are still tasks left". -/
def scheduleAnother (self origin : ScopeId) (r : World τ × Bool) : World τ × Bool :=
  if origin = self then
    if r.2 then (r.1.reschedule origin, true)
    else (r.1.modify origin fun s => { s with cancelHandle := none }, false)
  else r

/-- `self._deliver_cancellation(origin)`, down to `n` levels of child scopes.
The answer is whether the delivery needs to be retried. -/
def deliverCancellation : Nat → World τ → ScopeId → ScopeId → World τ × Bool
  | 0, w, _, _ => (w, false)
  | n + 1, w, self, origin =>
      let tasks := (w.scope self).tasks
      let direct := (tasks.foldl (deliverTo self origin) w, !tasks.isEmpty)
      let all := (w.scope self).childScopes.foldl
        (deliverToChild fun w child => deliverCancellation n w child origin) direct
      scheduleAnother self origin all

/-- `scope._deliver_cancellation(scope)` -/
def deliver (w : World τ) (c : ScopeId) : World τ :=
  (deliverCancellation (w.entered.length + 1) w c c).1

/-- `_restart_cancellation_in_parent()` of a scope. -/
def restartCancellationInParent (w : World τ) (c : ScopeId) : World τ :=
  match w.nearestCancelled (w.scope c).parentScope with
  | none => w
  | some origin => if (w.scope origin).cancelHandle = none then w.deliver origin else w

def cancel (w : World τ) (c : ScopeId) : World τ :=
  if (w.scope c).cancelCalled then w
  else
    let w' := (w.dropTimer c).modify c fun s => { s with cancelCalled := true }
    if (w'.scope c).hostTask ≠ none then w'.deliver c else w'

/-- `_timeout()`: cancel the scope, or set a timer for its deadline. -/
def timeout (w : World τ) (c : ScopeId) : World τ :=
  match (w.scope c).deadline with
  | none => w
  | some deadline =>
      if deadline ≤ w.now then w.cancel c
      else
        { w.modify c fun s => { s with timeoutHandle := some w.nextHandle } with
          timers := w.timers ++ [(w.nextHandle, c)]
          timerWhen := Function.update w.timerWhen w.nextHandle deadline
          nextHandle := w.nextHandle + 1 }

/-- The setter of `deadline`. -/
def setDeadline (w : World τ) (c : ScopeId) (value : Option Int) : World τ :=
  let w' := (w.modify c fun s => { s with deadline := value }).dropTimer c
  if (w'.scope c).active ∧ (w'.scope c).cancelCalled = false then w'.timeout c else w'

/-- The setter of `shield`. -/
def setShield (w : World τ) (c : ScopeId) (value : Bool) : World τ :=
  if (w.scope c).shield = value then w
  else
    let w' := w.modify c fun s => { s with shield := value }
    if value then w' else w'.restartCancellationInParent c

/-- `self._cancelling = self._host_task.cancelling()`, from Python 3.11 on. -/
def recordCancelling (w : World τ) (c : ScopeId) (host : τ) : World τ :=
  if 11 ≤ w.pythonMinor then
    w.modify c fun s => { s with cancelling := some (w.loop.task host).cancelling }
  else w

/-- `__enter__()` from `self._timeout()` on. -/
def activate (w : World τ) (c : ScopeId) (host : τ) : World τ :=
  let w' := ((w.timeout c).modify c fun s => { s with active := true }).recordCancelling c host
  if (w'.scope c).cancelCalled then w'.deliver c else w'

/-- The state of the host task becomes that it is in the scope `c`. -/
def hold (w : World τ) (c : ScopeId) (host : τ) : World τ :=
  { w.modify c fun s => { s with hostTask := some host, tasks := s.tasks.insert host } with
    taskState := Function.update w.taskState host (some (some c))
    entered := w.entered ++ [c] }

/-- `__enter__()` of a scope by the current task `host`. -/
def enter (w : World τ) (c : ScopeId) (host : τ) : World τ × Except Error Unit :=
  if (w.scope c).active then (w, .error usedTwice)
  else
    let w' := w.hold c host
    match w.taskState host with
    | none => (w'.activate c host, .ok ())
    | some none => ((w'.modify c fun s => { s with parentScope := none }).activate c host, .ok ())
    | some (some p) =>
        let linked := (w'.modify c fun s => { s with parentScope := some p }).modify p fun s =>
          { s with childScopes := s.childScopes.insert c }
        if host ∈ (linked.scope p).tasks then
          ((linked.modify p fun s => { s with tasks := s.tasks.erase host }).activate c host,
            .ok ())
        else (linked, .error .keyError)

/-- The loop that undoes the cancellations done by a scope, of which `n` are counted. -/
def uncancelHost (c : ScopeId) (host : τ) (cancelling : Nat) : Nat → World τ → World τ
  | 0, w => w
  | n + 1, w =>
      let w' := { w.modify c fun s => { s with cancelCalls := n } with
        loop := w.loop.uncancel host (13 ≤ w.pythonMinor) }
      if (w'.loop.task host).cancelling ≤ cancelling then w'
      else uncancelHost c host cancelling n w'

/-- "Undo all cancellations done by this scope". -/
def undoCancellations (w : World τ) (c : ScopeId) (host : τ) : World τ :=
  match (w.scope c).cancelling with
  | none => w
  | some cancelling => uncancelHost c host cancelling (w.scope c).cancelCalls w

/-- `_uncancel(exc)` of a scope with a host task, for the messages of the
exception and of its contexts: whether the exception is swallowed. -/
def uncancel (w : World τ) (c : ScopeId) : List (Option String) → World τ × Bool
  | [] => (w, false)
  | message :: contexts =>
      if isAnyioCancellation message then
        let caught := w.effectivelyCancelled c && !w.parentCancellationIsVisibleToUs c
        (w.modify c fun s => { s with cancelledCaught := caught }, caught)
      else uncancel w c contexts

/-- The loop over the exceptions in `__exit__`, with `swallow_exception` and
whether there are exceptions that are not swallowed. -/
def swallow (c : ScopeId) : List Exc → World τ → Bool → Bool → World τ × Bool
  | [], w, swallowed, rest => (w, swallowed && !rest)
  | .cancelled message contexts :: excs, w, swallowed, rest =>
      if (w.scope c).cancelCalled then
        let r := w.uncancel c (message :: contexts)
        swallow c excs r.1 r.2 (rest || !r.2)
      else swallow c excs w swallowed true
  | _ :: excs, w, swallowed, _ => swallow c excs w swallowed true

/-- `__exit__()` from the moment the task is back in the parent scope. -/
def conclude (w : World τ) (c : ScopeId) (host : τ) (exc : Option Exc) : World τ × Bool :=
  let excs := (exc.map iterateExceptions).getD []
  let r := swallow c excs (w.undoCancellations c host) false false
  ((r.1.restartCancellationInParent c).modify c fun s => { s with hostTask := none }, r.2)

/-- `__exit__()` of a scope by the current task `host`. -/
def exit (w : World τ) (c : ScopeId) (host : τ) (exc : Option Exc) :
    World τ × Except Error Bool :=
  if (w.scope c).active = false then (w, .error notActive)
  else if (w.scope c).hostTask ≠ some host then (w, .error otherTask)
  else if w.taskState host ≠ some (some c) then (w, .error notCurrentScope)
  else
    let w₁ := (w.modify c fun s => { s with active := false }).dropTimer c
    if host ∉ (w₁.scope c).tasks then
      (w₁.modify c fun s => { s with hostTask := none }, .error .keyError)
    else
      let w₂ := w₁.modify c fun s => { s with tasks := s.tasks.erase host }
      match (w₂.scope c).parentScope with
      | none =>
          let back := { w₂ with taskState := Function.update w₂.taskState host (some none) }
          let r := back.conclude c host exc
          (r.1, .ok r.2)
      | some p =>
          if c ∉ (w₂.scope p).childScopes then
            (w₂.modify c fun s => { s with hostTask := none }, .error .keyError)
          else
            let w₃ := w₂.modify p fun s =>
              { s with childScopes := s.childScopes.erase c, tasks := s.tasks.insert host }
            let back := { w₃ with taskState := Function.update w₃.taskState host (some (some p)) }
            let r := back.conclude c host exc
            (r.1, .ok r.2)

/-- The part of `_spawn` that creates the task in the scope of the group. -/
def spawn (w : World τ) (c : ScopeId) (t : τ) : World τ :=
  { w.modify c fun s => { s with tasks := s.tasks.insert t } with
    taskState := Function.update w.taskState t (some (some c))
    groupTasks := Function.update w.groupTasks c ((w.groupTasks c).insert t)
    doneCallbacks := (t, c) :: w.doneCallbacks
    loop := w.loop.moveTo t .created }

/-- `task_wrapper(scope)` of `run_async_from_thread` up to the call of the function. -/
def taskWrapper (w : World τ) (c : ScopeId) (t : τ) : World τ :=
  { w.modify c fun s => { s with tasks := s.tasks.insert t } with
    taskState := Function.update w.taskState t (some (some c))
    placedScope := Function.update w.placedScope t (some c) }

/-- The current task ends; `task_wrapper` leaves its scope first. -/
def finish (w : World τ) (t : τ) : World τ :=
  let w' :=
    match w.placedScope t with
    | none => w
    | some c => w.modify c fun s => { s with tasks := s.tasks.erase t }
  { w' with
    loop := w'.loop.moveTo t .finished
    current := none }

/-- `task_done` of a task of this group, up to where the exception of the task is read. -/
def taskDone (w : World τ) (t : τ) (group : ScopeId) : World τ × Except Error Unit :=
  let w' := { w with doneCallbacks := w.doneCallbacks.erase (t, group) }
  match w.taskState t with
  | none => (w', .error .keyError)
  | some none => (w', .error .assertionError)
  | some (some c) =>
      if t ∉ (w.scope c).tasks then (w', .error .assertionError)
      else
        let out := w'.modify c fun s => { s with tasks := s.tasks.erase t }
        if t ∈ w.groupTasks group then
          ({ out with
            groupTasks := Function.update w.groupTasks group ((w.groupTasks group).erase t)
            taskState := Function.update w.taskState t none }, .ok ())
        else (out, .error .keyError)

end World

/-- What the calls of a step return: the answer of `__exit__()`, or nothing. -/
abbrev Answer := Except Error (Option Bool)

variable [DecidableEq τ]

/-- One step: a call by the running task, a callback run between two tasks, or
a change of the environment. A task suspends on a pending future only. -/
def step (w : World τ) : Action τ → Option (World τ × Answer)
  | .enter c =>
      match w.current with
      | none => none
      | some host =>
          let r := w.enter c host
          some (r.1, r.2.map fun _ => none)
  | .exit c exc =>
      match w.current with
      | none => none
      | some host =>
          let r := w.exit c host exc
          some (r.1, r.2.map some)
  | .cancel c => some (w.cancel c, .ok none)
  | .setShield c value => some (w.setShield c value, .ok none)
  | .setDeadline c value => some (w.setDeadline c value, .ok none)
  | .timeout h c =>
      if w.current = none ∧ (h, c) ∈ w.timers then
        some ({ w with timers := w.timers.erase (h, c) }.timeout c, .ok none)
      else none
  | .deliverCancellation h c =>
      if w.current = none ∧ (h, c) ∈ w.callbacks then
        some ({ w with callbacks := w.callbacks.erase (h, c) }.deliver c, .ok none)
      else none
  | .spawn c t =>
      if w.loop.point t = .unborn then some (w.spawn c t, .ok none) else none
  | .taskWrapper c =>
      match w.current with
      | none => none
      | some t =>
          if w.taskState t = none ∧ w.placedScope t = none then
            some (w.taskWrapper c t, .ok none)
          else none
  | .createTask t =>
      if w.loop.point t = .unborn then
        some ({ w with loop := w.loop.moveTo t .created }, .ok none)
      else none
  | .resume t =>
      if w.current = none ∧ w.loop.wakeUpQueued t then
        some ({ w with loop := w.loop.resumeAt t .running, current := some t }, .ok none)
      else none
  | .sleep =>
      match w.current with
      | none => none
      | some t =>
          some ({ w with loop := w.loop.suspend t .yielding, current := none }, .ok none)
  | .await f =>
      match w.current with
      | none => none
      | some t =>
          if f < w.loop.nextFuture ∧ w.loop.future f = .pending then
            some ({ w with loop := w.loop.suspend t (.awaiting f), current := none }, .ok none)
          else none
  | .finish =>
      match w.current with
      | none => none
      | some t => some (w.finish t, .ok none)
  | .taskDone t group =>
      if w.current = none ∧ w.loop.point t = .finished ∧ (t, group) ∈ w.doneCallbacks then
        let r := w.taskDone t group
        some (r.1, r.2.map fun _ => none)
      else none
  | .nativeCancel t =>
      if w.loop.point t ≠ .unborn then
        some ({ w with loop := w.loop.cancel t }, .ok none)
      else none
  | .createFuture => some ({ w with loop := w.loop.createFuture }, .ok none)
  | .setResult f =>
      match w.loop.setResult f with
      | none => some (w, .error .invalidStateError)
      | some l => some ({ w with loop := l }, .ok none)
  | .setTime now => if w.now ≤ now then some ({ w with now := now }, .ok none) else none

def machine (τ : Type*) [DecidableEq τ] : Machine (World τ) (Action τ) Answer where
  step := step

/-- Scopes are entered once and left in order, after the tasks and the scopes
inside them; a task is placed into an open scope for which `mayPlace` holds. -/
def Orderly (mayPlace : World τ → ScopeId → Prop) (w : World τ) : Action τ → Prop
  | .enter c => c ∈ w.entered → (w.scope c).active = true
  | .exit c _ => ∀ t, w.current = some t → w.currentScope t = some c →
      (∀ u ∈ (w.scope c).tasks, u = t) ∧ (w.scope c).childScopes = []
  | .spawn c _ => (w.scope c).active = true ∧ mayPlace w c
  | .taskWrapper c => (w.scope c).active = true ∧ mayPlace w c
  | _ => True

instance [Fintype τ] (mayPlace : World τ → ScopeId → Prop) [∀ w c, Decidable (mayPlace w c)]
    (w : World τ) (a : Action τ) : Decidable (Orderly mayPlace w a) :=
  match a with
  | .enter c => inferInstanceAs (Decidable (c ∈ w.entered → (w.scope c).active = true))
  | .exit c _ => inferInstanceAs (Decidable (∀ t, w.current = some t → w.currentScope t = some c →
      (∀ u ∈ (w.scope c).tasks, u = t) ∧ (w.scope c).childScopes = []))
  | .spawn c _ => inferInstanceAs (Decidable ((w.scope c).active = true ∧ mayPlace w c))
  | .taskWrapper c => inferInstanceAs (Decidable ((w.scope c).active = true ∧ mayPlace w c))
  | .cancel _ | .setShield _ _ | .setDeadline _ _ | .timeout _ _ | .deliverCancellation _ _
  | .createTask _ | .resume _ | .sleep | .await _ | .finish | .taskDone _ _ | .nativeCancel _
  | .createFuture | .setResult _ | .setTime _ => .isTrue trivial

end Anyio.CancelScope
