import Anyio.Library.Machine
import Mathlib.Data.Finset.Basic
import Mathlib.Data.Rat.Defs

/-!
# Worker processes

`run_sync()` of `to_process` from the `async with` of the limiter on: the calls
in one event loop, the set and the deque that they share, and the processes.

## Implementation notes

A call is at one of the awaits of its block. The awaits of one exchange with a
process have the same exception handler, so that `send_raw_command()` is one
phase, and one more phase for the `aclose()` in its handler. A process has
exited when its `returncode` is not `None`; its `kill()` raises
`ProcessLookupError` then, and its `aclose()` does not return before. An
`aclose()` is shielded, and so is the request of a call that is not cancellable.
-/

namespace Anyio.WorkerProcess

open Library

abbrev ProcessId := Nat

abbrev CallId := Nat

/-- `WORKER_MAX_IDLE_TIME`, in seconds. -/
def workerMaxIdleTime : Rat := 300

/-- What a call raises; `other` comes from outside of `run_sync()`. -/
inductive Failure
  | cancelled
  | brokenWorkerProcess
  | processLookupError
  | keyError
  | other
  deriving DecidableEq, Repr

inductive Exit
  | returned
  | raised (failure : Failure)
  deriving DecidableEq, Repr

/-- The two commands of `send_raw_command()`. -/
inductive Command
  | init
  | run
  deriving DecidableEq, Repr

/-- Where a call stands; `closing` closes the processes that it has pruned. -/
inductive Phase
  | outside
  | closing (process : ProcessId) (killed : List ProcessId)
  | opening
  | greeting (process : ProcessId)
  | sending (process : ProcessId) (command : Command)
  | discarding (process : ProcessId) (command : Command) (cancelled : Bool)
  deriving DecidableEq, Repr

structure State where
  nextProcess : ProcessId
  exited : ProcessId → Bool
  killed : ProcessId → Bool
  workers : Finset ProcessId
  idleWorkers : List (ProcessId × Rat)
  phase : CallId → Phase
  cancellable : CallId → Bool
  now : Rat

/-- An event loop in which no worker process has been used. -/
def initial : State where
  nextProcess := 0
  exited := fun _ => false
  killed := fun _ => false
  workers := ∅
  idleWorkers := []
  phase := fun _ => .outside
  cancellable := fun _ => false
  now := 0

/-- How the wait for `READY` ends. A failure is the time-out, an error of the stream, or one of
pickling the first command. -/
inductive Greeting
  | ready
  | unexpected
  | failed
  | cancelled
  deriving DecidableEq, Repr

/-- How an exchange ends: with an answer, whose exception is raised, or with an error in the
`try` block. -/
inductive Answer
  | returned
  | raised (failure : Failure)
  | failed
  | cancelled
  deriving DecidableEq, Repr

inductive Action
  | enter (call : CallId) (cancellable : Bool)
  | opened (call : CallId) (failure : Option Failure)
  | greet (call : CallId) (greeting : Greeting)
  | answer (call : CallId) (answer : Answer)
  | close (call : CallId)
  | exit (process : ProcessId)
  | pass (seconds : Rat)
  deriving DecidableEq, Repr

/-- The processes that a call took from the deque, and whether it has left. -/
structure Reply where
  took : List ProcessId
  exit : Option Exit
  deriving DecidableEq, Repr

def going : Reply where
  took := []
  exit := none

def left (exit : Exit) : Reply where
  took := []
  exit := some exit

def moveTo (s : State) (c : CallId) (phase : Phase) : State :=
  { s with phase := Function.update s.phase c phase }

/-- `process.kill()`, or nothing where it raises `ProcessLookupError`. -/
def kill (s : State) (p : ProcessId) : Option State :=
  if s.exited p then none else some { s with killed := Function.update s.killed p true }

/-- `workers.remove(process)`, or nothing where it raises `KeyError`. -/
def remove (s : State) (p : ProcessId) : Option State :=
  if p ∈ s.workers then some { s with workers := s.workers.erase p } else none

/-- The loop that pops the workers that have exited, and the worker that it ends with. Every round
takes a worker out of the deque. -/
def popWorker : Nat → State → State × Except Failure (Option ProcessId)
  | 0, s => (s, .ok none)
  | n + 1, s =>
      match s.idleWorkers.getLast? with
      | none => (s, .ok none)
      | some (p, _) =>
          let s := { s with idleWorkers := s.idleWorkers.dropLast }
          if s.exited p then
            match remove s p with
            | none => (s, .error .keyError)
            | some s => popWorker n s
          else (s, .ok (some p))

/-- The loop that prunes the deque, which it is given, and the processes that it has killed. -/
def prune : List (ProcessId × Rat) → List ProcessId → State →
    State × Except Failure (List ProcessId)
  | [], killed, s => ({ s with idleWorkers := [] }, .ok killed)
  | (p, since) :: rest, killed, s =>
      if s.now - since < workerMaxIdleTime then
        ({ s with idleWorkers := (p, since) :: rest }, .ok killed)
      else
        let s := { s with idleWorkers := rest }
        match kill s p with
        | none => (s, .error .processLookupError)
        | some s =>
            match remove s p with
            | none => (s, .error .keyError)
            | some s => prune rest (killed ++ [p]) s

/-- The block up to its first await, or to the exception that ends it. -/
def start (s : State) (c : CallId) : State × Option Exit :=
  match popWorker s.idleWorkers.length s with
  | (s, .error failure) => (s, some (.raised failure))
  | (s, .ok none) => (moveTo s c .opening, none)
  | (s, .ok (some p)) =>
      match prune s.idleWorkers [] s with
      | (s, .error failure) => (s, some (.raised failure))
      | (s, .ok []) => (moveTo s c (.sending p .run), none)
      | (s, .ok killed) => (moveTo s c (.closing p killed), none)

/-- What is in the deque of `s` and not in that of `s'`. -/
def taken (s s' : State) : List ProcessId :=
  (s.idleWorkers.map Prod.fst).filter fun p => p ∉ s'.idleWorkers.map Prod.fst

def enter (s : State) (c : CallId) (cancellable : Bool) : State × Reply :=
  let r := start { s with cancellable := Function.update s.cancellable c cancellable } c
  (r.1, { took := taken s r.1, exit := r.2 })

/-- The `finally` clause around the request. -/
def finish (s : State) (c : CallId) (p : ProcessId) (exit : Exit) : State × Reply :=
  let s' := moveTo s c .outside
  if p ∈ s.workers then ({ s' with idleWorkers := s.idleWorkers ++ [(p, s.now)] }, left exit)
  else (s', left exit)

/-- `except (BrokenWorkerProcess, get_cancelled_exc_class())`. -/
def passes : Failure → Bool
  | .brokenWorkerProcess => true
  | .cancelled => true
  | _ => false

/-- The exception handlers of the start-up. -/
def startUpFails (s : State) (c : CallId) (p : ProcessId) (failure : Failure) : State × Reply :=
  let s' := moveTo s c .outside
  if passes failure then (s', left (.raised failure))
  else
    match kill s' p with
    | none => (s', left (.raised .processLookupError))
    | some s' => (s', left (.raised .brokenWorkerProcess))

/-- `send_raw_command()` raises. -/
def raises (s : State) (c : CallId) (p : ProcessId) (failure : Failure) :
    Command → State × Reply
  | .init => startUpFails s c p failure
  | .run => finish s c p (.raised failure)

/-- What the exception handler of `send_raw_command()` raises at its end. -/
def handled (cancelled : Bool) : Failure :=
  if cancelled then .cancelled else .brokenWorkerProcess

/-- The exception handler of `send_raw_command()` up to its `aclose()`. -/
def discard (s : State) (c : CallId) (p : ProcessId) (command : Command) (cancelled : Bool) :
    State × Reply :=
  let s := { s with workers := s.workers.erase p }
  match kill s p with
  | none => raises s c p (handled cancelled) command
  | some s => (moveTo s c (.discarding p command cancelled), going)

/-- `workers.add(process)`, and the request. -/
def request (s : State) (c : CallId) (p : ProcessId) : State × Reply :=
  (moveTo { s with workers := insert p s.workers } c (.sending p .run), going)

def answered (s : State) (c : CallId) (p : ProcessId) (command : Command) :
    Answer → State × Reply
  | .returned =>
      match command with
      | .init => request s c p
      | .run => finish s c p .returned
  | .raised failure => raises s c p failure command
  | .failed => discard s c p command false
  | .cancelled => discard s c p command true

def greeted (s : State) (c : CallId) (p : ProcessId) : Greeting → State × Reply
  | .ready => (moveTo s c (.sending p .init), going)
  | .unexpected => startUpFails s c p .brokenWorkerProcess
  | .failed => startUpFails s c p .other
  | .cancelled => startUpFails s c p .cancelled

/-- One `aclose()` returns. -/
def closed (s : State) (c : CallId) : Option (State × Reply) :=
  match s.phase c with
  | .closing p [k] => if s.exited k then some (moveTo s c (.sending p .run), going) else none
  | .closing p (k :: rest) =>
      if s.exited k then some (moveTo s c (.closing p rest), going) else none
  | .discarding p command cancelled =>
      if s.exited p then some (raises s c p (handled cancelled) command) else none
  | _ => none

def step (s : State) : Action → Option (State × Reply)
  | .enter c cancellable =>
      if s.phase c = .outside then some (enter s c cancellable) else none
  | .opened c failure =>
      match s.phase c, failure with
      | .opening, none =>
          some ({ moveTo s c (.greeting s.nextProcess) with nextProcess := s.nextProcess + 1 },
            going)
      | .opening, some failure => some (moveTo s c .outside, left (.raised failure))
      | _, _ => none
  | .greet c greeting =>
      match s.phase c with
      | .greeting p => some (greeted s c p greeting)
      | _ => none
  | .answer c answer =>
      match s.phase c with
      | .sending p command =>
          if answer = .cancelled ∧ command = .run ∧ s.cancellable c = false then none
          else some (answered s c p command answer)
      | _ => none
  | .close c => closed s c
  | .exit p =>
      if p < s.nextProcess ∧ s.exited p = false then
        some ({ s with exited := Function.update s.exited p true }, going)
      else none
  | .pass seconds =>
      if 0 ≤ seconds then some ({ s with now := s.now + seconds }, going) else none

/-- The machine of the process pool of an event loop. -/
abbrev machine : Machine State Action Reply where
  step := step

end Anyio.WorkerProcess
