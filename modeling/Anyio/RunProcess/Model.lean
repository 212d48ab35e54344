import Anyio.Library.Bytes
import Anyio.Library.Machine

/-!
# Subprocesses

`run_process()` with the `Process` object of the asyncio backend: the task that
writes the input and waits, the two `drain_stream()` tasks of its task group,
and `Process.aclose()` at the end of the `async with` block. The child process
and whoever else holds its pipes are the environment.

## Implementation notes

The model starts with the process, the readers and the write to `stdin` in
place. A pipe is what lies between the child and the reader, the buffer of the
stream reader included, and has room for `capacity` bytes; what the child has
not read of the input is `pending`, and `drain()` returns when at most
`highWater` bytes of it are left. A cancellation is that of an enclosing cancel
scope, which reaches every wait that is not shielded; there is no native
`Task.cancel()`. The child is one that its parent may kill: `kill()` raises
`ProcessLookupError` or nothing. The input is empty where `run_process()` got
none.
-/

namespace Anyio.RunProcess

open Library

inductive Output
  | stdout
  | stderr
  deriving DecidableEq, Repr

/-- Which streams are pipes, and the other arguments of `run_process()`. -/
structure Options where
  input : Bytes
  isPipe : Output → Bool
  check : Bool
  capacity : Nat
  highWater : Nat

/-- A pipe; `opened` tells whether somebody can still write to it. -/
structure Pipe where
  written : Bytes
  unread : Bytes
  opened : Bool
  deriving DecidableEq, Repr

/-- A `drain_stream()` task, with its buffer, or with what it left in `stream_contents`. -/
inductive Reader
  | absent
  | reading (buffer : Bytes)
  | drained (contents : Bytes)
  | stopped
  deriving DecidableEq, Repr

inductive Failure
  | cancelled
  | brokenStdin
  | readError
  | processLookupError
  deriving DecidableEq, Repr

inductive Result
  | completed (returncode : Int) (stdout stderr : Option Bytes)
  | calledProcessError (returncode : Int) (stdout stderr : Option Bytes)
  | raised (failure : Failure)
  deriving DecidableEq, Repr

/-- Where `run_process()` stands: in the task group, and then in `aclose()`. -/
inductive Point
  | sending
  | closingStdin
  | waiting
  | joining
  | closing
  | reaping
  | killing
  | ended (result : Result)
  deriving DecidableEq, Repr

structure State where
  returncode : Option Int
  received : Bytes
  pending : Bytes
  stdinOpen : Bool
  stdinTaken : Bool
  pipe : Output → Option Pipe
  reader : Output → Reader
  main : Point
  failure : Option Failure
  cancelled : Bool
  killed : Bool

def initial (o : Options) : State where
  returncode := none
  received := []
  pending := o.input
  stdinOpen := !o.input.isEmpty
  stdinTaken := true
  pipe out := if o.isPipe out then some ⟨[], [], true⟩ else none
  reader out := if o.isPipe out then .reading [] else .absent
  main := if o.input.isEmpty then .waiting else .sending
  failure := none
  cancelled := false
  killed := false

/-- The steps of the child and of the holders of its pipes come first, then those of the program.
`cancel` cancels the enclosing scope, and `interrupt` is the arrival of this at a wait. -/
inductive Action
  | writes (out : Output) (bytes : Bytes)
  | closes (out : Output)
  | reads (n : Nat)
  | closesStdin
  | exits (returncode : Int)
  | cancel
  | sendEnds
  | sendFails
  | stdinCloses
  | waitEnds
  | receives (out : Output) (n : Nat)
  | drains (out : Output)
  | readFails (out : Output)
  | joins
  | interrupt
  | killFails
  | closeEnds
  | reaps
  deriving DecidableEq, Repr

/-- The block of the task group. -/
def Point.inGroup : Point → Bool
  | .sending | .closingStdin | .waiting | .joining => true
  | _ => false

def Reader.stop : Reader → Reader
  | .reading _ => .stopped
  | r => r

/-- The reader has left what it has to leave. -/
def Reader.isDone : Reader → Bool
  | .absent | .drained _ => true
  | _ => false

def Reader.contents : Reader → Option Bytes
  | .drained contents => some contents
  | _ => none

/-- An exception leaves the task group, after all of its tasks have been cancelled. -/
def abort (s : State) (f : Failure) : State :=
  { s with
    reader := fun out => (s.reader out).stop
    failure := some f
    main := .closing }

/-- The end of `run_process()`. -/
def finish (o : Options) (s : State) (returncode : Int) : State :=
  let stdout := (s.reader .stdout).contents
  let stderr := (s.reader .stderr).contents
  { s with main := .ended <|
      match s.failure with
      | some f => .raised f
      | none =>
          if o.check ∧ returncode ≠ 0 then .calledProcessError returncode stdout stderr
          else .completed returncode stdout stderr }

def setPipe (s : State) (out : Output) (p : Pipe) : State :=
  { s with pipe := Function.update s.pipe out (some p) }

def setReader (s : State) (out : Output) (r : Reader) : State :=
  { s with reader := Function.update s.reader out r }

/-- A step of the child, of the pipes or of the enclosing scope. -/
def environment (o : Options) (s : State) : Action → Option State
  | .writes out bytes =>
      match s.pipe out with
      | some p =>
          if p.opened = true ∧ bytes ≠ [] ∧ p.unread.length + bytes.length ≤ o.capacity then
            some (setPipe s out
              { p with written := p.written ++ bytes, unread := p.unread ++ bytes })
          else none
      | none => none
  | .closes out =>
      match s.pipe out with
      | some p => if p.opened then some (setPipe s out { p with opened := false }) else none
      | none => none
  | .reads n =>
      if s.stdinTaken = true ∧ 1 ≤ n ∧ n ≤ s.pending.length then
        some { s with received := s.received ++ s.pending.take n, pending := s.pending.drop n }
      else none
  | .closesStdin => if s.stdinTaken then some { s with stdinTaken := false } else none
  | .exits rc => if s.returncode = none then some { s with returncode := some rc } else none
  | .cancel => if s.cancelled then none else some { s with cancelled := true }
  | _ => none

/-- A step of `run_process()` in its task group. -/
def inGroup (o : Options) (s : State) : Action → Option State
  | .sendEnds =>
      if s.main = .sending ∧ s.pending.length ≤ o.highWater then
        some { s with stdinOpen := false, main := .closingStdin }
      else none
  | .sendFails =>
      if s.main = .sending ∧ s.stdinTaken = false then some (abort s .brokenStdin) else none
  | .stdinCloses => if s.main = .closingStdin then some { s with main := .waiting } else none
  | .waitEnds =>
      if s.main = .waiting ∧ s.returncode.isSome then some { s with main := .joining } else none
  | .receives out n =>
      match s.reader out, s.pipe out with
      | .reading buffer, some p =>
          if 1 ≤ n ∧ n ≤ 65536 ∧ n ≤ p.unread.length then
            some (setPipe (setReader s out (.reading (buffer ++ p.unread.take n))) out
              { p with unread := p.unread.drop n })
          else none
      | _, _ => none
  | .drains out =>
      match s.reader out, s.pipe out with
      | .reading buffer, some p =>
          if p.unread = [] ∧ p.opened = false then some (setReader s out (.drained buffer))
          else none
      | _, _ => none
  | .readFails out =>
      match s.reader out with
      | .reading _ => some (abort s .readError)
      | _ => none
  | .joins =>
      if s.main = .joining ∧ (s.reader .stdout).isDone = true ∧ (s.reader .stderr).isDone = true then
        some { s with main := .closing }
      else none
  | .interrupt => if s.cancelled then some (abort s .cancelled) else none
  | _ => none

/-- A step of `Process.aclose()`. Its first part is shielded, and a process that has ended is not
waited for. -/
def inClose (o : Options) (s : State) : Action → Option State
  | .closeEnds =>
      if s.main = .closing then
        match s.returncode with
        | some rc => some (finish o { s with stdinOpen := false } rc)
        | none => some { s with stdinOpen := false, main := .reaping }
      else none
  | .interrupt =>
      if s.main = .reaping ∧ s.cancelled = true then
        some { s with main := .killing, failure := some .cancelled, killed := true }
      else none
  | .killFails =>
      if s.main = .reaping ∧ s.cancelled = true ∧ s.returncode.isSome then
        some { s with main := .ended (.raised .processLookupError) }
      else none
  | .reaps =>
      if s.main = .reaping ∨ s.main = .killing then s.returncode.map (finish o s) else none
  | _ => none

def step (o : Options) (s : State) (a : Action) : Option (State × Unit) :=
  let program := if s.main.inGroup then inGroup o s a else inClose o s a
  ((environment o s a).orElse fun _ => program).map fun s' => (s', ())

abbrev machine (o : Options) : Machine State Action Unit where
  step := step o

end Anyio.RunProcess
