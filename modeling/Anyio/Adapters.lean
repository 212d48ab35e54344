import Anyio.CapacityLimiter.Adapter
import Anyio.Semaphore.Adapter

/-!
# The adapters and the primitives they stand for

A semaphore or limiter that is constructed outside of the event loop against
one that is constructed inside, with the same arguments and the same calls.
-/

namespace Anyio

open Library

/-- A semaphore is in step with its adapter wherever no `acquire()` takes the fast path, and
nowhere else. A limiter is in step with its adapter wherever `total_tokens` is given no infinite
float other than `math.inf`, to the constructor or to the setter, and the setter of an adapter
without a limiter no number whose difference to the one it had overflows, and nowhere else. -/
theorem adapters_alike {τ β : Type*} [DecidableEq τ] [DecidableEq β] (initialValue : Number)
    (maxValue : Option Number) (fastAcquire : Bool) (currentTask : τ → β)
    (totalTokens : CapacityLimiter.Argument) :
    Machine.ConstructedAlike (Semaphore.machine τ) (Semaphore.Adapter.machine τ)
        (fun s _ action => Semaphore.TakesFastPath s action) Semaphore.State.report
        Semaphore.Adapter.report (Semaphore.construct τ initialValue maxValue fastAcquire)
        (Semaphore.Adapter.construct τ initialValue maxValue fastAcquire) ∧
      (Machine.ConstructedAlike (CapacityLimiter.operations currentTask)
          (CapacityLimiter.Adapter.machine currentTask)
          CapacityLimiter.SetsApart CapacityLimiter.State.report
          CapacityLimiter.Adapter.report (CapacityLimiter.construct τ β totalTokens)
          (CapacityLimiter.Adapter.construct τ β totalTokens) ↔
        ¬ totalTokens.OtherInfinity) := by
  constructor
  · apply Semaphore.constructed_alike
  · apply CapacityLimiter.constructed_alike

/-- `Semaphore(1, fast_acquire=True)`: the first `acquire()` returns at once there, and yields in
the adapter. -/
theorem adapters_not_alike :
    ¬ Machine.ConstructedAlike (Semaphore.machine (Fin 2)) (Semaphore.Adapter.machine (Fin 2))
        (fun _ _ _ => False) Semaphore.State.report Semaphore.Adapter.report
        (Semaphore.construct (Fin 2) (.int 1) none true)
        (Semaphore.Adapter.construct (Fin 2) (.int 1) none true) := by
  intro halike
  obtain ⟨-, hanswers⟩ := halike _ _ .refl
  have hsame := (hanswers (.acquire 0 false)).mpr not_false
  revert hsame
  decide

end Anyio
