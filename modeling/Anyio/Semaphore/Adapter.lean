import Anyio.Bound
import Anyio.Library.Lockstep
import Anyio.Semaphore.Permits
import Mathlib.Tactic.Common

/-!
# `SemaphoreAdapter`

The semaphore that is constructed outside of an event loop: it makes the
semaphore of the backend with its first call. That one is made without
`fast_acquire`, so it agrees with one that was constructed inside the loop
until a permit is taken there without a yield.
-/

namespace Anyio.Semaphore

open Asyncio Library

variable {τ : Type*}

/-- What `value`, `max_value` and `statistics()` report. -/
structure Report where
  value : Int
  maxValue : Option Int
  tasksWaiting : Nat
  deriving DecidableEq, Repr

def State.report (s : State τ) : Report where
  value := s.value
  maxValue := s.maxValue
  tasksWaiting := s.waiters.length

def initialNotInt : Error := .typeError "initial_value must be an integer"

def maxNotInt : Error := .typeError "max_value must be an integer or None"

/-- The checks of `Semaphore.__init__()`, in its order. -/
def checkInit (initialValue : Number) (maxValue : Option Number) :
    Except Error (Int × Option Int) :=
  match initialValue with
  | .int initial =>
      if initial < 0 then .error negativeInitial
      else
        match maxValue with
        | none => .ok (initial, none)
        | some (.int most) =>
            if most < initial then .error maxBelowInitial else .ok (initial, some most)
        | some _ => .error maxNotInt
  | _ => .error initialNotInt

/-- `Semaphore(initial_value, max_value=…, fast_acquire=…)` inside of an event loop, where
`__new__()` makes the semaphore of the backend. -/
def construct (τ : Type*) (initialValue : Number) (maxValue : Option Number)
    (fastAcquire : Bool) : Except Error (State τ) :=
  (checkInit initialValue maxValue).bind fun values =>
    create τ values.1 values.2 fastAcquire

/-- A `SemaphoreAdapter`, with the semaphore it has made, if any. -/
structure Adapter (τ : Type*) where
  initialValue : Int
  maxValue : Option Int
  fastAcquire : Bool
  internalSemaphore : Option (State τ)

/-- `SemaphoreAdapter.__init__()`. -/
def Adapter.init (τ : Type*) (initialValue : Number) (maxValue : Option Number)
    (fastAcquire : Bool) : Except Error (Adapter τ) :=
  (checkInit initialValue maxValue).map fun values => {
    initialValue := values.1
    maxValue := values.2
    fastAcquire := fastAcquire
    internalSemaphore := none }

/-- `Semaphore(initial_value, max_value=…, fast_acquire=…)` outside of an event loop: `__new__()`
makes the adapter without `fast_acquire`, and then its `__init__()` is called again with all
arguments. -/
def Adapter.construct (τ : Type*) (initialValue : Number) (maxValue : Option Number)
    (fastAcquire : Bool) : Except Error (Adapter τ) :=
  (Adapter.init τ initialValue maxValue false).bind fun _ =>
    Adapter.init τ initialValue maxValue fastAcquire

/-- `SemaphoreAdapter._semaphore`. -/
def Adapter.semaphore (a : Adapter τ) : Except Error (State τ) :=
  match a.internalSemaphore with
  | some s => .ok s
  | none => create τ a.initialValue a.maxValue false

def Adapter.report (a : Adapter τ) : Report :=
  match a.internalSemaphore with
  | some s => { value := s.value, maxValue := a.maxValue, tasksWaiting := s.waiters.length }
  | none => { value := a.initialValue, maxValue := a.maxValue, tasksWaiting := 0 }

variable [DecidableEq τ]

/-- A call is passed on to the semaphore, which is made first if need be. No task is suspended in
it before that. -/
def Adapter.step (a : Adapter τ) (action : Action τ) :
    Option (Adapter τ × Outcome Point Unit) :=
  match a.semaphore with
  | .error e => some (a, .raised e)
  | .ok s =>
      (Semaphore.step s action).map fun r => ({ a with internalSemaphore := some r.1 }, r.2)

def Adapter.machine (τ : Type*) [DecidableEq τ] :
    Machine (Adapter τ) (Action τ) (Outcome Point Unit) where
  step := Adapter.step

/-- An `acquire()` that takes a permit without a yield. -/
def TakesFastPath (s : State τ) : Action τ → Prop
  | .acquire t scopeCancelled =>
      s.loop.point t = .outside ∧ scopeCancelled = false ∧ s.fastAcquire = true ∧
        0 < s.value ∧ s.waiters = []
  | _ => False

/-- The semaphore without `fast_acquire`. -/
def State.slow (s : State τ) : State τ := { s with fastAcquire := false }

variable {s s' : State τ} {a a' : Adapter τ} {action : Action τ} {o q : Outcome Point Unit} {t : τ}

omit [DecidableEq τ] in
theorem release_slow (s : State τ) : release s.slow = (release s).map State.slow := by
  unfold release State.slow
  dsimp only
  split_ifs
  · rfl
  · cases s.waiters.find? fun fut => s.loop.future fut ≠ .cancelled with
    | none => rfl
    | some fut => cases h : s.loop.setResult fut <;> simp [h, Except.map]

omit [DecidableEq τ] in
theorem releaseAndRaise_slow (s : State τ) :
    releaseAndRaise s.slow = ((releaseAndRaise s).1.slow, (releaseAndRaise s).2) := by
  unfold releaseAndRaise
  rw [release_slow]
  cases release s <;> rfl

omit [DecidableEq τ] in
theorem acquireNowait_slow (s : State τ) :
    acquireNowait s.slow = ((acquireNowait s).1.slow, (acquireNowait s).2) := by
  unfold acquireNowait State.slow
  dsimp only
  split_ifs <;> rfl

theorem acquire_slow {scopeCancelled : Bool} (hp : s.loop.point t = .outside)
    (h : ¬ TakesFastPath s (.acquire t scopeCancelled)) :
    acquire s.slow t scopeCancelled =
      ((acquire s t scopeCancelled).1.slow, (acquire s t scopeCancelled).2) := by
  unfold acquire State.slow
  simp only [Bool.false_eq_true, if_false]
  split_ifs with hfree hcancelled hfast
  · rfl
  · have hnot : scopeCancelled = false := by simpa using hcancelled
    exact absurd ⟨hp, hnot, hfast, hfree⟩ h
  · rfl
  · rfl

theorem resume_slow (s : State τ) (t : τ) :
    resume s.slow t = ((resume s t).1.slow, (resume s t).2) := by
  unfold resume
  have hloop : s.slow.loop = s.loop := rfl
  have hwaiters : s.slow.waiters = s.waiters := rfl
  rw [hloop, hwaiters]
  cases s.loop.point t with
  | outside => rfl
  | checkpointIfCancelled =>
      dsimp only
      split_ifs <;> rfl
  | shieldedCheckpoint =>
      dsimp only
      split_ifs
      · exact releaseAndRaise_slow { s with loop := s.loop.resumeAt t .outside }
      · rfl
  | waiting fut =>
      dsimp only
      split_ifs
      · rfl
      · exact releaseAndRaise_slow { s with loop := s.loop.resumeAt t .outside }
      · rfl

/-- Without the fast path, `fast_acquire` is not read. -/
theorem step_slow (h : ¬ TakesFastPath s action) :
    step s.slow action = (step s action).map fun r => (r.1.slow, r.2) := by
  have hloop : s.slow.loop = s.loop := rfl
  cases action with
  | acquire t scopeCancelled =>
      simp only [step, hloop]
      split_ifs with hp
      · rw [acquire_slow hp h]
        rfl
      · rfl
  | acquireNowait t =>
      simp only [step, hloop]
      split_ifs
      · rw [acquireNowait_slow]
        rfl
      · rfl
  | release t =>
      simp only [step, hloop, release_slow]
      split_ifs
      · cases release s <;> rfl
      · rfl
  | cancel t =>
      simp only [step, hloop]
      split_ifs <;> rfl
  | resume t =>
      simp only [step, hloop]
      split_ifs
      · rw [resume_slow]
        rfl
      · rfl

/-- On the fast path the permit is taken at once here, and after a yield there. -/
theorem step_fast (h : TakesFastPath s action) :
    (step s action).map Prod.snd = some (.returned ()) ∧
      (step s.slow action).map Prod.snd = some (.suspended .shieldedCheckpoint) := by
  cases action with
  | acquire t scopeCancelled =>
      obtain ⟨hp, rfl, hfast, hvalue, hwaiters⟩ := h
      constructor
      · simp [step, acquire, hp, hfast, hvalue, hwaiters]
      · simp [step, acquire, State.slow, hp, hvalue, hwaiters]
  | _ => cases h

omit [DecidableEq τ] in
theorem releaseAndRaise_maxValue (s : State τ) : (releaseAndRaise s).1.maxValue = s.maxValue := by
  unfold releaseAndRaise
  cases h : release s with
  | ok s' => exact release_maxValue h
  | error e => rfl

theorem resume_maxValue (s : State τ) (t : τ) : (resume s t).1.maxValue = s.maxValue := by
  unfold resume
  cases s.loop.point t with
  | outside => rfl
  | checkpointIfCancelled =>
      dsimp only
      split_ifs <;> rfl
  | shieldedCheckpoint =>
      dsimp only
      split_ifs
      · apply releaseAndRaise_maxValue
      · rfl
  | waiting fut =>
      dsimp only
      split_ifs
      · rfl
      · apply releaseAndRaise_maxValue
      · rfl

/-- `max_value` is never written. -/
theorem step_maxValue (hs : step s action = some (s', o)) : s'.maxValue = s.maxValue := by
  cases action with
  | acquire t scopeCancelled =>
      obtain ⟨-, he⟩ := Option.ite_none_right_eq_some.mp hs
      have hs' : (acquire s t scopeCancelled).1 = s' := congrArg Prod.fst (Option.some.inj he)
      rw [← hs']
      unfold acquire
      split_ifs <;> rfl
  | acquireNowait t =>
      obtain ⟨-, he⟩ := Option.ite_none_right_eq_some.mp hs
      have hs' : (acquireNowait s).1 = s' := congrArg Prod.fst (Option.some.inj he)
      rw [← hs']
      unfold acquireNowait
      split_ifs <;> rfl
  | release t =>
      obtain ⟨-, he⟩ := Option.ite_none_right_eq_some.mp hs
      cases hr : release s with
      | ok left =>
          rw [hr] at he
          cases he
          exact release_maxValue hr
      | error e =>
          rw [hr] at he
          cases he
          rfl
  | cancel t =>
      obtain ⟨-, he⟩ := Option.ite_none_right_eq_some.mp hs
      cases he
      rfl
  | resume t =>
      obtain ⟨-, he⟩ := Option.ite_none_right_eq_some.mp hs
      have hs' : (resume s t).1 = s' := congrArg Prod.fst (Option.some.inj he)
      rw [← hs']
      apply resume_maxValue

/-- The adapter stands for a semaphore: what it has made, or would make, is that semaphore
without `fast_acquire`. -/
structure StandsFor (s : State τ) (a : Adapter τ) : Prop where
  semaphore : a.semaphore = .ok s.slow
  report : s.report = a.report
  maxValue : s.maxValue = a.maxValue

namespace StandsFor

theorem step_eq (h : StandsFor s a) (action : Action τ) :
    a.step action =
      (step s.slow action).map fun r => ({ a with internalSemaphore := some r.1 }, r.2) := by
  unfold Adapter.step
  rw [h.semaphore]

theorem kept (h : StandsFor s a) (hslow : ¬ TakesFastPath s action)
    (hs : step s action = some (s', o)) (ha : a.step action = some (a', q)) :
    StandsFor s' a' := by
  rw [h.step_eq, step_slow hslow, hs] at ha
  cases ha
  have hmax : s'.maxValue = a.maxValue := (step_maxValue hs).trans h.maxValue
  exact ⟨rfl, by simp [State.report, Adapter.report, State.slow, hmax], hmax⟩

theorem outcome_eq (h : StandsFor s a) (action : Action τ) :
    (a.step action).map Prod.snd = (step s.slow action).map Prod.snd := by
  rw [h.step_eq, Option.map_map]
  rfl

theorem answers (h : StandsFor s a) (action : Action τ) :
    (step s action).map Prod.snd = (a.step action).map Prod.snd ↔ ¬ TakesFastPath s action := by
  rw [h.outcome_eq]
  constructor
  · intro heq hfast
    obtain ⟨hhere, hthere⟩ := step_fast hfast
    rw [hhere, hthere] at heq
    cases heq
  · intro hslow
    rw [step_slow hslow, Option.map_map]
    rfl

end StandsFor

omit [DecidableEq τ] in
/-- What passes the checks once passes them again. -/
theorem create_of_checkInit {initialValue : Number} {maxValue : Option Number}
    {values : Int × Option Int} (h : checkInit initialValue maxValue = .ok values)
    (fastAcquire : Bool) :
    create τ values.1 values.2 fastAcquire = .ok {
      fastAcquire := fastAcquire
      maxValue := values.2
      value := values.1
      waiters := []
      loop := Loop.initial .outside } := by
  unfold checkInit at h
  cases initialValue with
  | int initial =>
      dsimp only at h
      split_ifs at h with hneg
      cases maxValue with
      | none =>
          cases h
          simp [create, hneg]
      | some most =>
          cases most with
          | int most =>
              dsimp only at h
              split_ifs at h with hbelow
              cases h
              simp [create, hneg, hbelow]
          | _ => cases h
  | _ => cases h

/-- Constructed outside of the loop, a semaphore raises the same error, or it is in step with the
one that was constructed inside until the fast path is taken. -/
theorem constructed_alike (τ : Type*) [DecidableEq τ] (initialValue : Number)
    (maxValue : Option Number) (fastAcquire : Bool) :
    Machine.ConstructedAlike (machine τ) (Adapter.machine τ)
      (fun s _ action => TakesFastPath s action) State.report Adapter.report
      (construct τ initialValue maxValue fastAcquire)
      (Adapter.construct τ initialValue maxValue fastAcquire) := by
  unfold construct Adapter.construct Adapter.init
  cases h : checkInit initialValue maxValue with
  | error e => exact rfl
  | ok values =>
      simp only [Except.bind, Except.map, create_of_checkInit h]
      change Machine.InStep _ _ (fun s _ action => TakesFastPath s action) _ _ _ _
      apply Machine.InStep.of_relation StandsFor
      · exact ⟨create_of_checkInit h false, rfl, rfl⟩
      · intro s a hR
        exact hR.report
      · intro s a action s' a' o q hR hslow hs ha
        exact hR.kept hslow hs ha
      · intro s a action hR
        exact hR.answers action

end Anyio.Semaphore
