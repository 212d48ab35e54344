import Anyio.TaskGroup.Model

/-!
# Happy eyeballs: the connection attempts of `connect_tcp()`

`connect_tcp()` without TLS from the point where the target addresses are
known: the task that called it starts one child task for each address in a
task group, waits for each child for a while, and joins them all. The group
is the model of `TaskGroup`. What an attempt ends with is up to the network.

## Implementation notes

The queue of the event loop is part of the state, and a step runs its first
handle: a cancellation that finds the host already woken reaches it at the
next delivery, and what happens in between depends on this order. Only the
end of an attempt and the expiry of a timeout may come at any time. The
event of an attempt is read by the one wait of the host for it, so it is the
future of that wait.

A delivery reaches the host if its future is pending, and those of the
started attempts that are not about to go on; which these are is part of the
action. The deliveries of the enclosing scope leave the tasks of a cancelled
group to the group, and both leave a wait whose timeout has expired to the
scope of the wait. A delivery queues the next one also when it has nobody left
to reach, where the code stops; the one of a timeout is queued only once, since
the future that it finds is done afterwards. Whether a timeout has expired when
its wait begins, as with a delay of zero, is part of the action as well.
-/

namespace Anyio.ConnectTcp

open Asyncio Library
open TaskGroup (Exc)

/-- The task that called `connect_tcp()`, and its child for each address. -/
inductive Party
  | host
  | attempt (i : Nat)
  deriving DecidableEq, Repr

/-- How `asynclib.connect_tcp()` ends in an attempt; `other` is an exception that is neither
an `OSError` nor a `CancelledError`. -/
inductive Ends (ε : Type*)
  | connected
  | osError (exc : ε)
  | other (exc : ε)
  | cancelled
  deriving DecidableEq, Repr

/-- Where an attempt stands: it awaits its connection, or `aclose()` of a stream that came too
late. Each await may have been cancelled. -/
inductive Attempt (ε : Type*)
  | unborn
  | created
  | connecting (interrupted : Bool)
  | closing (interrupted : Bool)
  | ended (how : Ends ε)
  deriving DecidableEq, Repr

/-- The stream of an attempt; it is `closed` once `aclose()` was called. -/
inductive Stream
  | unopened
  | opened
  | closed
  deriving DecidableEq, Repr

/-- The stream that is returned, named by its attempt, or what is raised and its cause. -/
inductive Ending (ε : Type*)
  | returned (stream : Nat)
  | raised (exc : Exc ε) (cause : Option (Exc ε))

/-- The host waits for the event of an attempt, is in `__aexit__()` of the group, or is done. -/
inductive HostPoint (ε : Type*)
  | eventWait (i : Nat) (future : FutureState) (timedOut : Bool)
  | exiting
  | ended (ending : Ending ε)

/-- The cancel scope around the call, the one of the group, and that of the wait for an attempt. -/
inductive Scope
  | outer
  | group
  | wait (i : Nat)
  deriving DecidableEq, Repr

/-- What is queued in the event loop. -/
inductive Handle
  | host
  | start (i : Nat)
  | taskDone (i : Nat)
  | onCompletion (i : Nat) (waiter : FutureId)
  | deliver (scope : Scope)
  deriving DecidableEq, Repr

structure State (α ε : Type*) where
  targetAddrs : List α
  connectedStream : Option Nat
  oserrors : List ε
  stream : Nat → Stream
  attempt : Nat → Attempt ε
  host : HostPoint ε
  waitShielded : Bool
  group : TaskGroup.State Party ε
  outerCancelled : Bool
  ready : List Handle

/-- `reached` are the attempts that a delivery of cancellation in the step reaches; `expired`
tells whether the timeout of a wait that begins in the step has expired already. -/
inductive Action (ε : Type*)
  | run (reached : List Nat) (expired : Bool)
  | timeout
  | cancelOuter (reached : List Nat)
  | ends (i : Nat) (how : Ends ε) (reached : List Nat)
  | closes (i : Nat)
  deriving DecidableEq, Repr

def tryConnectFunc : TaskGroup.Func where
  module := some "anyio._core._sockets"
  qualname := "connect_tcp.<locals>.try_connect"

def allAttemptsFailed : Error := .osError "All connection attempts failed"

/-- `ExceptionGroup()` refuses an empty list. -/
def emptyGroup : Error := .valueError "second argument (exceptions) must be a non-empty sequence"

variable {α ε : Type*}

/-- `call_soon()`. -/
def push (s : State α ε) (handles : List Handle) : State α ε :=
  { s with ready := s.ready ++ handles }

def effectivelyCancelled (s : State α ε) : Bool := s.group.cancelCalled || s.outerCancelled

/-- A cancellation reaches the host: only a pending future is cancelled, that of an expired wait
is left alone, and `__aexit__()` shields its wait after the first one. -/
def reachHost (s : State α ε) : State α ε :=
  match s.host with
  | .eventWait i .pending false =>
      push { s with host := .eventWait i .cancelled false } [.host]
  | .exiting =>
      match s.group.loop.point .host with
      | .waiting f =>
          if s.waitShielded = false ∧ s.group.loop.future f = .pending then
            push { s with group := { s.group with loop := s.group.loop.cancel .host } } [.host]
          else s
      | _ => s
  | _ => s

def Attempt.interrupt : Attempt ε → Attempt ε
  | .connecting _ => .connecting true
  | .closing _ => .closing true
  | a => a

def reachAttempts (s : State α ε) (reached : List Nat) : State α ε :=
  { s with attempt := fun i => if i ∈ reached then (s.attempt i).interrupt else s.attempt i }

/-- `_deliver_cancellation()`; the host is left out when it runs itself. -/
def deliver (s : State α ε) (toHost : Bool) (reached : List Nat) : State α ε :=
  reachAttempts (if toHost then reachHost s else s) reached

/-- The first delivery of the cancelled group, and the callback for the next one. -/
def startDelivery (s : State α ε) (toHost : Bool) (reached : List Nat) : State α ε :=
  push (deliver s toHost reached) [.deliver .group]

/-- `tg.cancel_scope.cancel()`. -/
def cancelScope (s : State α ε) (toHost : Bool) (reached : List Nat) : State α ε :=
  if s.group.cancelCalled then s
  else startDelivery { s with group := { s.group with cancelCalled := true } } toHost reached

/-- `event.set()` for the event of attempt `i`. -/
def setEvent (s : State α ε) (i : Nat) : State α ε :=
  match s.host with
  | .eventWait j .pending timedOut =>
      if i = j then push { s with host := .eventWait j .finished timedOut } [.host] else s
  | _ => s

/-- The callback `on_completion` of the wait that the host is in, if attempt `i` has one. -/
def completion (s : State α ε) (i : Nat) : List Handle :=
  match s.group.loop.point .host with
  | .waiting f => if .attempt i ∈ s.group.unfinished then [.onCompletion i f] else []
  | _ => []

/-- The task of attempt `i` ends, and its callbacks are queued. -/
def finishAttempt (s : State α ε) (i : Nat) (how : Ends ε) (exc : Option (Exc ε)) :
    State α ε :=
  push { s with
      attempt := Function.update s.attempt i (.ended how)
      group := { s.group with
        exception := Function.update s.group.exception (.attempt i) exc
        loop := s.group.loop.moveTo (.attempt i) .finished } }
    (.taskDone i :: completion s i)

/-- The rest of `try_connect()` when its connection is there or has failed. -/
def tryConnect (s : State α ε) (i : Nat) (how : Ends ε) (reached : List Nat) : State α ε :=
  match how with
  | .connected =>
      match s.connectedStream with
      | none =>
          let won := { s with
            connectedStream := some i
            stream := Function.update s.stream i .opened }
          finishAttempt (setEvent (cancelScope won true reached) i) i how none
      | some _ =>
          { s with
            stream := Function.update s.stream i .closed
            attempt := Function.update s.attempt i (.closing false) }
  | .osError e =>
      finishAttempt (setEvent { s with oserrors := s.oserrors ++ [e] } i) i how none
  | .other e => finishAttempt (setEvent s i) i how (some (.other e))
  | .cancelled => finishAttempt (setEvent s i) i how (some (.cancelled true))

/-- The callback `on_completion` of each task that is done when the host begins to wait. -/
def completions (group : TaskGroup.State Party ε) (f : FutureId) : List Handle :=
  group.unfinished.filterMap fun u =>
    match u with
    | .attempt i => if group.loop.point u = .finished then some (.onCompletion i f) else none
    | .host => none

/-- The host has suspended in `__aexit__()`: in a wait, or at a checkpoint, a bare yield. -/
def suspended (s : State α ε) : State α ε :=
  match s.group.loop.point .host with
  | .waiting f => push s (completions s.group f)
  | .checkpoint => push s [.host]
  | _ => s

/-- `__aexit__()` of the group up to its first await. -/
def exitGroup (s : State α ε) (exc : Option (Exc ε)) (reached : List Nat) : State α ε :=
  let s' := if exc.isSome then cancelScope s false reached else s
  suspended { s' with
    host := .exiting
    waitShielded := false
    group := (TaskGroup.aexit s'.group .host exc).1 }

/-- The loop over the addresses from index `i` on, up to its next await. -/
def nextAddress (s : State α ε) (i : Nat) (expired : Bool) : State α ε :=
  if i < s.targetAddrs.length then
    push { s with
      attempt := Function.update s.attempt i .created
      host := .eventWait i .pending expired
      group := (TaskGroup.startSoon s.group tryConnectFunc (.attempt i)).1 }
      (.start i :: if expired then [.deliver (.wait i)] else [])
  else exitGroup s none []

/-- What follows the block of the group, if that did not raise. -/
def afterGroup (s : State α ε) : Ending ε :=
  match s.connectedStream with
  | some i => .returned i
  | none =>
      match s.oserrors with
      | [] => .raised (.known emptyGroup) none
      | [e] => .raised (.known allAttemptsFailed) (some (.other e))
      | es => .raised (.known allAttemptsFailed)
          (some (.group "multiple connection attempts failed" (es.map .other)))

/-- What follows a step of `__aexit__()`, by how it ends. -/
def afterExit (s : State α ε) : TaskGroup.Result Party ε → State α ε
  | .suspended _ => suspended s
  | .returned _ => { s with host := .ended (afterGroup s) }
  | .raised e => { s with host := .ended (.raised e none) }

/-- The handler of a cancellation in the wait of `__aexit__()`. -/
def noticed (s : State α ε) (reached : List Nat) : State α ε :=
  if s.group.loop.throws .host then { cancelScope s false reached with waitShielded := true }
  else s

/-- `__aexit__()` of the group after one of its awaits. Its scope was cancelled if there is a
cancellation to catch, and it leaves those of a cancelled outer scope alone. -/
def resumeExit (s : State α ε) (reached : List Nat) : State α ε :=
  let s' := noticed s reached
  let r := TaskGroup.resume s'.group .host true (!s.outerCancelled)
  afterExit { s' with group := r.1 } r.2

/-- The step of the host that follows its wake-up. The timeout of a wait catches a cancellation
only if it expired and no scope around it is cancelled. -/
def resumeHost (s : State α ε) (reached : List Nat) (expired : Bool) : State α ε :=
  match s.host with
  | .eventWait i .finished _ => nextAddress s (i + 1) expired
  | .eventWait i .cancelled timedOut =>
      if timedOut = true ∧ effectivelyCancelled s = false then nextAddress s (i + 1) expired
      else exitGroup s (some (.cancelled true)) reached
  | .exiting => resumeExit s reached
  | _ => s

/-- The host has something to go on with. -/
def hostWoken (s : State α ε) : Bool :=
  match s.host with
  | .eventWait _ future _ => future ≠ .pending
  | .exiting => s.group.loop.wakeUpQueued .host
  | .ended _ => false

/-- `task_done` of attempt `i`, which may cancel the group. -/
def taskDone (s : State α ε) (i : Nat) (reached : List Nat) : State α ε :=
  let s' : State α ε := { s with
    group := (TaskGroup.taskDone s.group (.attempt i) none s.outerCancelled).1 }
  if s.group.cancelCalled = false ∧ s'.group.cancelCalled = true then
    startDelivery s' true reached
  else s'

/-- `on_completion` of attempt `i`, for the wait with the waiter `f`. -/
def onCompletion (s : State α ε) (i : Nat) (f : FutureId) : State α ε :=
  if s.group.loop.point .host = .waiting f then
    let s' := { s with group := TaskGroup.onCompletion s.group (.attempt i) f }
    if s.group.loop.future f = .pending ∧ s'.group.loop.future f ≠ .pending then
      push s' [.host]
    else s'
  else s

/-- The delivery of a timeout that had expired when the wait for attempt `i` began. -/
def expire (s : State α ε) (i : Nat) : State α ε :=
  match s.host with
  | .eventWait j .pending _ =>
      if i = j then push { s with host := .eventWait j .cancelled true } [.host] else s
  | _ => s

def runHandle (s : State α ε) (reached : List Nat) (expired : Bool) : Handle → State α ε
  | .host => if hostWoken s then resumeHost s reached expired else s
  | .start i =>
      if s.attempt i matches .created then
        { s with
          attempt := Function.update s.attempt i (.connecting false)
          group := (TaskGroup.resume s.group (.attempt i) true false).1 }
      else s
  | .taskDone i => taskDone s i reached
  | .onCompletion i f => onCompletion s i f
  | .deliver .outer =>
      push (if s.group.cancelCalled then s else deliver s true reached) [.deliver .outer]
  | .deliver .group => push (deliver s true reached) [.deliver .group]
  | .deliver (.wait i) => expire s i

/-- The timeout of the host's wait expires. -/
def timeout (s : State α ε) : State α ε :=
  match s.host with
  | .eventWait i .pending false => push { s with host := .eventWait i .cancelled true } [.host]
  | .eventWait i future _ => { s with host := .eventWait i future true }
  | _ => s

/-- `cancel()` of the enclosing scope. -/
def cancelOuter (s : State α ε) (reached : List Nat) : State α ε :=
  if s.outerCancelled then s
  else
    let s' := { s with outerCancelled := true }
    push (if s.group.cancelCalled then s' else deliver s' true reached) [.deliver .outer]

/-- An attempt ends by a cancellation only if one has reached it. -/
def step (s : State α ε) : Action ε → Option (State α ε × Unit)
  | .run reached expired =>
      match s.ready with
      | handle :: rest => some (runHandle { s with ready := rest } reached expired handle, ())
      | [] => none
  | .timeout => some (timeout s, ())
  | .cancelOuter reached => some (cancelOuter s reached, ())
  | .ends i how reached =>
      match s.attempt i with
      | .connecting interrupted =>
          if how matches .cancelled ∧ interrupted = false then none
          else some (tryConnect s i how reached, ())
      | _ => none
  | .closes i =>
      match s.attempt i with
      | .closing interrupted =>
          some (finishAttempt (setEvent s i) i .connected
            (if interrupted then some (.cancelled true) else none), ())
      | _ => none

def machine (α ε : Type*) : Machine (State α ε) (Action ε) Unit where
  step := step

/-- The group after its `__aenter__()`. -/
def enteredGroup (ε : Type*) : TaskGroup.State Party ε :=
  { TaskGroup.initial Party ε true with
    phase := .body
    hostTask := some .host
    active := true
    loop := (Loop.initial .unborn).moveTo .host .outside }

/-- The call has entered the group; its host is about to start with the first address. -/
def entered (ε : Type*) (targetAddrs : List α) : State α ε where
  targetAddrs := targetAddrs
  connectedStream := none
  oserrors := []
  stream := fun _ => .unopened
  attempt := fun _ => .unborn
  host := .exiting
  waitShielded := false
  group := enteredGroup ε
  outerCancelled := false
  ready := []

/-- The call has come to its first await. -/
def initial (ε : Type*) (targetAddrs : List α) (expired : Bool) : State α ε :=
  nextAddress (entered ε targetAddrs) 0 expired

end Anyio.ConnectTcp
