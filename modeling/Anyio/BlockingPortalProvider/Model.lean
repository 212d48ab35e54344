import Anyio.Exceptions
import Anyio.Library.Machine
import Mathlib.Logic.Function.Basic

/-!
# Providers of blocking portals

`BlockingPortalProvider.__enter__()` and `__exit__()`, called by any number of
threads. Every thread is at a program point of its own; what a thread does with
the lock in its hands is one step, except for the start-up of a portal, which
ends at some later time or fails.

## Implementation notes

A call of `start_blocking_portal()` makes a context manager and, when that is
entered, one portal; both have the same number. The last thread to leave stops
the portal after it has released the lock.
-/

namespace Anyio.BlockingPortalProvider

open Library

abbrev PortalId := Nat

/-- Where a thread stands. At the points `entering`, `starting` and `exiting` it holds the lock. -/
inductive Point
  | outside
  | waitingToEnter
  | entering
  | starting (cm : PortalId)
  | waitingToExit
  | exiting
  | stopping (cm : PortalId)
  | joining
  deriving DecidableEq, Repr

def Point.holdsLock : Point → Bool
  | .entering => true
  | .starting _ => true
  | .exiting => true
  | _ => false

structure State (τ : Type*) where
  lock : Option τ
  leases : Nat
  portalCm : Option PortalId
  portal : Option PortalId
  nextPortal : PortalId
  point : τ → Point

/-- A provider that nobody has entered. -/
def initial (τ : Type*) : State τ where
  lock := none
  leases := 0
  portalCm := none
  portal := none
  nextPortal := 0
  point := fun _ => .outside

inductive Action (τ : Type*)
  | enter (thread : τ)
  | exit (thread : τ)
  | acquire (thread : τ)
  | proceed (thread : τ)
  | started (thread : τ)
  | startFails (thread : τ) (error : Error)
  deriving DecidableEq, Repr

/-- What a step amounts to. A thread has `left` when it has given its lease back; it may still
have to stop the portal. -/
inductive Reply
  | going
  | entered (portal : PortalId)
  | left
  | stopped (portal : PortalId)
  | raised (error : Error)
  deriving DecidableEq, Repr

variable {τ : Type*} [DecidableEq τ]

def moveTo (s : State τ) (t : τ) (p : Point) : State τ :=
  { s with point := Function.update s.point t p }

/-- Leave the `with self._lock` block. -/
def release (s : State τ) (t : τ) (p : Point) : State τ :=
  { moveTo s t p with lock := none }

/-- The end of `__enter__()`. -/
def lease (s : State τ) (t : τ) : State τ × Reply :=
  let s' := release { s with leases := s.leases + 1 } t .outside
  match s.portal with
  | some portal => (s', .entered portal)
  | none => (s', .raised .attributeError)

/-- `__enter__()` with the lock, up to the start of a portal. -/
def enter (s : State τ) (t : τ) : State τ × Reply :=
  match s.portalCm with
  | some _ => lease s t
  | none =>
      (moveTo { s with portalCm := some s.nextPortal, nextPortal := s.nextPortal + 1 } t
        (.starting s.nextPortal), .going)

/-- `__exit__()` with the lock. -/
def exit (s : State τ) (t : τ) : State τ × Reply :=
  match s.portalCm with
  | none => (release s t .outside, .raised .assertionError)
  | some cm =>
      if s.leases = 0 then (release s t .outside, .raised .assertionError)
      else if s.leases - 1 ≠ 0 then
        (release { s with leases := s.leases - 1 } t .outside, .left)
      else
        let s' := { s with leases := s.leases - 1, portalCm := none }
        match s.portal with
        | none => (release s' t .outside, .raised .attributeError)
        | some _ => (release { s' with portal := none } t (.stopping cm), .left)

/-- The next step of a thread that waits for nobody. -/
def proceed (s : State τ) (t : τ) : Option (State τ × Reply) :=
  match s.point t with
  | .entering => some (enter s t)
  | .exiting => some (exit s t)
  | .stopping cm => some (moveTo s t .joining, .stopped cm)
  | .joining => some (moveTo s t .outside, .going)
  | _ => none

def step (s : State τ) : Action τ → Option (State τ × Reply)
  | .enter t => if s.point t = .outside then some (moveTo s t .waitingToEnter, .going) else none
  | .exit t => if s.point t = .outside then some (moveTo s t .waitingToExit, .going) else none
  | .acquire t =>
      if s.lock.isSome then none
      else
        match s.point t with
        | .waitingToEnter => some ({ moveTo s t .entering with lock := some t }, .going)
        | .waitingToExit => some ({ moveTo s t .exiting with lock := some t }, .going)
        | _ => none
  | .proceed t => proceed s t
  | .started t =>
      match s.point t with
      | .starting cm => some (lease { s with portal := some cm } t)
      | _ => none
  | .startFails t error =>
      match s.point t with
      | .starting _ => some (release s t .outside, .raised error)
      | _ => none

/-- The machine of a provider. -/
abbrev machine (τ : Type*) [DecidableEq τ] : Machine (State τ) (Action τ) Reply where
  step := step

end Anyio.BlockingPortalProvider
