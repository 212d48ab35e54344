import Anyio.CapacityLimiter.Model
import Anyio.Library.Lockstep
import Mathlib.Tactic.Common

/-!
# `CapacityLimiterAdapter`

The limiter that is constructed outside of an event loop: it makes the limiter
of the backend with its first call, from the `total_tokens` that were set
last. Its own setter asks whether a float is the object `math.inf`, and that
of the backend whether it is infinite. Without a limiter it subtracts nothing,
where that of the backend subtracts and may overflow.
-/

namespace Anyio.CapacityLimiter

open Asyncio Library

variable {τ β : Type*}

/-- What a caller may pass as `total_tokens`. An infinite float need not be the object `math.inf`:
`float("inf")` is another one. -/
inductive Argument
  | number (value : Number)
  | floatInf
  deriving DecidableEq, Repr

/-- The number that was passed. -/
def Argument.value : Argument → Number
  | .number value => value
  | .floatInf => .posInf

/-- An infinite float that is not `math.inf`. -/
def Argument.OtherInfinity : Argument → Prop
  | .number value => value = .negInf
  | .floatInf => True

/-- The checks of the setter of the adapter. -/
def checkAdapter : Argument → Except Error Number
  | .number (.int z) => if z < 1 then .error totalTooSmall else .ok (.int z)
  | .number .posInf => .ok .posInf
  | .number .negInf => .error totalNotInt
  | .number .otherFloat => .error totalNotInt
  | .floatInf => .error totalNotInt

/-- What the properties and `statistics()` report. -/
structure Report (β : Type*) where
  totalTokens : Number
  borrowedTokens : Nat
  availableTokens : Number
  borrowers : Finset β
  tasksWaiting : Nat

/-- `total_tokens`, less the tokens that are out. -/
def available (totalTokens : Number) (borrowed : Nat) : Number :=
  match totalTokens with
  | .int z => .int (z - borrowed)
  | other => other

def totalTokensOf : Bound → Number
  | .count n => .int n
  | .inf => .posInf

def State.report (s : State τ β) : Report β where
  totalTokens := totalTokensOf s.totalTokens
  borrowedTokens := s.borrowers.card
  availableTokens := available (totalTokensOf s.totalTokens) s.borrowers.card
  borrowers := s.borrowers
  tasksWaiting := s.waitQueue.entries.length

/-- A `CapacityLimiterAdapter`, with the limiter it has made, if any. -/
structure Adapter (τ β : Type*) where
  totalTokens : Number
  internalLimiter : Option (State τ β)

/-- `CapacityLimiterAdapter.__init__()`: the setter, without a limiter. -/
def Adapter.init (τ β : Type*) (totalTokens : Argument) : Except Error (Adapter τ β) :=
  (checkAdapter totalTokens).map fun value => { totalTokens := value, internalLimiter := none }

/-- `CapacityLimiter(total_tokens)` outside of an event loop. `__init__()` is called again on what
`__new__()` returns. -/
def Adapter.construct (τ β : Type*) (totalTokens : Argument) : Except Error (Adapter τ β) :=
  (Adapter.init τ β totalTokens).bind fun _ => Adapter.init τ β totalTokens

/-- `CapacityLimiter(total_tokens)` inside of an event loop. -/
def construct (τ β : Type*) (totalTokens : Argument) : Except Error (State τ β) :=
  (create τ β totalTokens.value).bind fun s => setTotalTokens s totalTokens.value

/-- `CapacityLimiterAdapter._limiter`. -/
def Adapter.limiter (a : Adapter τ β) : Except Error (State τ β) :=
  match a.internalLimiter with
  | some s => .ok s
  | none => create τ β a.totalTokens

def Adapter.report (a : Adapter τ β) : Report β :=
  match a.internalLimiter with
  | some s => s.report
  | none => {
      totalTokens := a.totalTokens
      borrowedTokens := 0
      availableTokens := a.totalTokens
      borrowers := ∅
      tasksWaiting := 0 }

/-- The setter of the adapter. -/
def Adapter.setTotalTokens (a : Adapter τ β) (totalTokens : Argument) :
    Except Error (Adapter τ β) :=
  (checkAdapter totalTokens).bind fun value =>
    match a.internalLimiter with
    | none => .ok { a with totalTokens := value }
    | some s =>
        (CapacityLimiter.setTotalTokens s value).map fun s' =>
          { a with internalLimiter := some s' }

def Adapter.assign (a : Adapter τ β) (totalTokens : Argument) :
    Option (Adapter τ β × Outcome (Point β) Unit) :=
  match a.setTotalTokens totalTokens with
  | .ok a' => some (a', .returned ())
  | .error e => some (a, .raised e)

/-- A step of the limiter, or its setter with a positive infinity that is not `math.inf`. -/
inductive Operation (τ β : Type*)
  | call (action : Action τ β)
  | setFloatInf

/-- The setter is called with an infinite float that is not `math.inf`. -/
def Operation.SetsOtherInfinity : Operation τ β → Prop
  | .call (.setTotalTokens value) => (Argument.number value).OtherInfinity
  | .call _ => False
  | .setFloatInf => Argument.floatInf.OtherInfinity

/-- `math.inf` over an int that does not fit into a float, or such an int over `math.inf`. -/
def TooLarge : Number → Bound → Prop
  | .int z, .inf => (floatLimit : Int) ≤ z
  | .posInf, .count n => floatLimit ≤ n
  | _, _ => False

/-- The setter of an adapter without a limiter is called with a number too large for the
difference to `total_tokens`. -/
def Operation.Overflows (s : State τ β) (a : Adapter τ β) : Operation τ β → Prop
  | .call (.setTotalTokens value) => a.internalLimiter = none ∧ TooLarge value s.totalTokens
  | _ => False

/-- The operations that set the two apart. -/
def SetsApart (s : State τ β) (a : Adapter τ β) (op : Operation τ β) : Prop :=
  op.SetsOtherInfinity ∨ op.Overflows s a

variable [DecidableEq τ] [DecidableEq β]

def operate (currentTask : τ → β) (s : State τ β) :
    Operation τ β → Option (State τ β × Outcome (Point β) Unit)
  | .call action => step currentTask s action
  | .setFloatInf => step currentTask s (.setTotalTokens Argument.floatInf.value)

def operations (currentTask : τ → β) :
    Machine (State τ β) (Operation τ β) (Outcome (Point β) Unit) where
  step := operate currentTask

/-- A call is passed on to the limiter, which is made first if need be. -/
def Adapter.pass (currentTask : τ → β) (a : Adapter τ β) (action : Action τ β) :
    Option (Adapter τ β × Outcome (Point β) Unit) :=
  match a.limiter with
  | .error e => some (a, .raised e)
  | .ok s =>
      (step currentTask s action).map fun r => ({ a with internalLimiter := some r.1 }, r.2)

def Adapter.operate (currentTask : τ → β) (a : Adapter τ β) :
    Operation τ β → Option (Adapter τ β × Outcome (Point β) Unit)
  | .call (.setTotalTokens value) => a.assign (.number value)
  | .call action => a.pass currentTask action
  | .setFloatInf => a.assign .floatInf

def Adapter.machine (currentTask : τ → β) :
    Machine (Adapter τ β) (Operation τ β) (Outcome (Point β) Unit) where
  step := Adapter.operate currentTask

omit [DecidableEq τ] [DecidableEq β]

/-- A limiter that no task has used yet. -/
def State.unused (τ β : Type*) (totalTokens : Bound) : State τ β where
  totalTokens := totalTokens
  borrowers := ∅
  waitQueue := .empty
  loop := Loop.initial .outside

theorem checkTotal_ne_tooLarge (value : Number) : checkTotal value ≠ .error totalTooLarge := by
  cases value with
  | int z =>
      intro h
      unfold checkTotal at h
      dsimp only at h
      split_ifs at h with hz
      cases h
  | _ => decide

theorem newTotal_of_error {value : Number} {e : Error} (s : State τ β)
    (h : checkTotal value = .error e) : newTotal s value = .error e := by
  unfold newTotal
  rw [h]
  rfl

theorem newTotal_of_ok {value : Number} {total : Bound} (s : State τ β)
    (h : checkTotal value = .ok total) :
    newTotal s value =
      if total.overflows s.totalTokens then .error totalTooLarge else .ok total := by
  unfold newTotal
  rw [h]
  rfl

theorem checked_overflows_iff {value : Number} {total : Bound} (h : checkTotal value = .ok total)
    (old : Bound) : total.overflows old ↔ TooLarge value old := by
  cases value with
  | int z =>
      unfold checkTotal at h
      dsimp only at h
      split_ifs at h with hz
      cases h
      cases old with
      | count n => exact Iff.rfl
      | inf =>
          change floatLimit ≤ z.toNat ↔ (floatLimit : Int) ≤ z
          omega
  | posInf =>
      cases h
      cases old <;> exact Iff.rfl
  | negInf => cases h
  | otherFloat => cases h

theorem TooLarge.checked {value : Number} {old : Bound} (h : TooLarge value old) :
    ∃ total, checkTotal value = .ok total := by
  cases value with
  | int z =>
      cases old with
      | count n => exact h.elim
      | inf =>
          have hlimit := floatLimit_pos
          have hz : ¬ z < 1 := by
            have hz : (floatLimit : Int) ≤ z := h
            omega
          exact ⟨.count z.toNat, if_neg hz⟩
  | posInf => exact ⟨.inf, rfl⟩
  | negInf => exact h.elim
  | otherFloat => exact h.elim

/-- The setter raises `OverflowError` for the numbers that are too large. -/
theorem newTotal_tooLarge_iff (s : State τ β) (value : Number) :
    newTotal s value = .error totalTooLarge ↔ TooLarge value s.totalTokens := by
  cases hcheck : checkTotal value with
  | error e =>
      rw [newTotal_of_error s hcheck]
      constructor
      · rintro ⟨⟩
        exact absurd hcheck (checkTotal_ne_tooLarge value)
      · intro hlarge
        obtain ⟨total, hok⟩ := hlarge.checked
        cases hcheck.symm.trans hok
  | ok total =>
      rw [newTotal_of_ok s hcheck, ← checked_overflows_iff hcheck]
      simp

theorem setTotalTokens_unused (total : Bound) (value : Number) :
    setTotalTokens (State.unused τ β total) value =
      (newTotal (State.unused τ β total) value).map (State.unused τ β) := by
  unfold setTotalTokens
  cases newTotal (State.unused τ β total) value with
  | error e => rfl
  | ok new => exact congrArg Except.ok (Function.iterate_fixed (f := notifyNext) rfl _)

theorem create_eq (value : Number) :
    create τ β value = (checkTotal value).map (State.unused τ β) := by
  change setTotalTokens (State.unused τ β (.count 0)) value = _
  rw [setTotalTokens_unused]
  cases hcheck : checkTotal value with
  | error e => rw [newTotal_of_error _ hcheck]
  | ok total =>
      have hfits : ¬ total.overflows (State.unused τ β (.count 0)).totalTokens :=
        total.not_overflows_zero
      rw [newTotal_of_ok _ hcheck, if_neg hfits]

theorem construct_eq (totalTokens : Argument) :
    construct τ β totalTokens = (checkTotal totalTokens.value).map (State.unused τ β) := by
  unfold construct
  rw [create_eq]
  cases h : checkTotal totalTokens.value with
  | error e => rfl
  | ok total =>
      change setTotalTokens (State.unused τ β total) totalTokens.value = _
      have hfits : ¬ total.overflows (State.unused τ β total).totalTokens :=
        total.not_overflows_self
      rw [setTotalTokens_unused, newTotal_of_ok _ h, if_neg hfits]

theorem Adapter.construct_eq (totalTokens : Argument) :
    Adapter.construct τ β totalTokens = Adapter.init τ β totalTokens := by
  unfold Adapter.construct Adapter.init
  cases checkAdapter totalTokens <;> rfl

/-- What passes the checks passes them again. -/
theorem checkTotal_totalTokensOf {value : Number} {total : Bound}
    (h : checkTotal value = .ok total) : checkTotal (totalTokensOf total) = .ok total := by
  cases value with
  | int z =>
      unfold checkTotal at h
      dsimp only at h
      split_ifs at h with hz
      cases h
      have hnat : (z.toNat : Int) = z := by omega
      change checkTotal (.int (z.toNat : Int)) = _
      rw [hnat]
      exact if_neg hz
  | posInf =>
      cases h
      rfl
  | negInf => cases h
  | otherFloat => cases h

theorem newTotal_totalTokensOf {value : Number} {total : Bound} (s : State τ β)
    (h : checkTotal value = .ok total) : newTotal s (totalTokensOf total) = newTotal s value := by
  rw [newTotal_of_ok s (checkTotal_totalTokensOf h), newTotal_of_ok s h]

/-- The two checks agree unless they are given an infinite float other than `math.inf`. -/
theorem checkAdapter_eq {totalTokens : Argument} (h : ¬ totalTokens.OtherInfinity) :
    checkAdapter totalTokens = (checkTotal totalTokens.value).map totalTokensOf := by
  cases totalTokens with
  | number value =>
      cases value with
      | int z =>
          simp only [checkAdapter, Argument.value, checkTotal]
          split_ifs with hz
          · rfl
          · have hnat : (z.toNat : Int) = z := by omega
            simp [Except.map, totalTokensOf, hnat]
      | negInf => exact absurd rfl h
      | _ => rfl
  | floatInf => exact absurd trivial h

theorem checkAdapter_other {totalTokens : Argument} (h : totalTokens.OtherInfinity) :
    checkAdapter totalTokens = .error totalNotInt ∧
      checkTotal totalTokens.value ≠ .error totalNotInt := by
  cases totalTokens with
  | number value =>
      obtain rfl : value = .negInf := h
      exact ⟨rfl, by decide⟩
  | floatInf => exact ⟨rfl, by decide⟩

/-- The adapter stands for a limiter: it would make it, and no task has used it yet, or it has
made it. -/
inductive StandsFor : State τ β → Adapter τ β → Prop
  | unused {total : Bound} (checked : checkTotal (totalTokensOf total) = .ok total) :
      StandsFor (.unused τ β total) { totalTokens := totalTokensOf total, internalLimiter := none }
  | made (s : State τ β) (first : Number) :
      StandsFor s { totalTokens := first, internalLimiter := some s }

namespace StandsFor

variable {s s' : State τ β} {a a' : Adapter τ β}

theorem limiter (h : StandsFor s a) : a.limiter = .ok s := by
  cases h with
  | unused checked =>
      change create τ β _ = _
      rw [create_eq, checked]
      rfl
  | made => rfl

theorem report (h : StandsFor s a) : s.report = a.report := by
  cases h with
  | @unused total checked =>
      have hfree : available (totalTokensOf total) 0 = totalTokensOf total := by
        cases total <;> simp [available, totalTokensOf]
      simp [State.report, State.unused, Adapter.report, hfree]
  | made => rfl

/-- The setter refuses both, or it is done with both. -/
theorem setTotalTokens (h : StandsFor s a) (totalTokens : Argument)
    (hsame : ¬ totalTokens.OtherInfinity)
    (hfits : a.internalLimiter = none → ¬ TooLarge totalTokens.value s.totalTokens) :
    (∃ e, CapacityLimiter.setTotalTokens s totalTokens.value = .error e ∧
      a.setTotalTokens totalTokens = .error e) ∨
    ∃ s' a', CapacityLimiter.setTotalTokens s totalTokens.value = .ok s' ∧
      a.setTotalTokens totalTokens = .ok a' ∧ StandsFor s' a' := by
  cases hcheck : checkTotal totalTokens.value with
  | error e =>
      refine .inl ⟨e, ?_, ?_⟩
      · simp [CapacityLimiter.setTotalTokens, newTotal_of_error s hcheck, Except.map]
      · simp [Adapter.setTotalTokens, checkAdapter_eq hsame, hcheck, Except.map, Except.bind]
  | ok total =>
      have hagain := checkTotal_totalTokensOf hcheck
      have hadapter : checkAdapter totalTokens = .ok (totalTokensOf total) := by
        rw [checkAdapter_eq hsame, hcheck]
        rfl
      cases h with
      | @unused old checked =>
          right
          have hnew : newTotal (State.unused τ β old) totalTokens.value = .ok total := by
            have hfits : ¬ total.overflows old := by
              rw [checked_overflows_iff hcheck]
              exact hfits rfl
            rw [newTotal_of_ok _ hcheck]
            exact if_neg hfits
          refine ⟨_, _, ?_, ?_, .unused hagain⟩
          · rw [setTotalTokens_unused, hnew]
            rfl
          · unfold Adapter.setTotalTokens
            rw [hadapter]
            rfl
      | made s first =>
          have hlimiter := newTotal_totalTokensOf s hcheck
          cases hnew : newTotal s totalTokens.value with
          | error e =>
              refine .inl ⟨e, ?_, ?_⟩
              · simp [CapacityLimiter.setTotalTokens, hnew, Except.map]
              · simp [Adapter.setTotalTokens, CapacityLimiter.setTotalTokens, hadapter, hlimiter,
                  hnew, Except.map, Except.bind]
          | ok new =>
              refine .inr ⟨adjustTotal s new, _, ?_, ?_, .made _ first⟩
              · simp [CapacityLimiter.setTotalTokens, hnew, Except.map]
              · simp [Adapter.setTotalTokens, CapacityLimiter.setTotalTokens, hadapter, hlimiter,
                  hnew, Except.map, Except.bind]

theorem assign [DecidableEq τ] [DecidableEq β] (h : StandsFor s a) (currentTask : τ → β)
    (totalTokens : Argument) (hsame : ¬ totalTokens.OtherInfinity)
    (hfits : a.internalLimiter = none → ¬ TooLarge totalTokens.value s.totalTokens) :
    ∃ s' a' o, step currentTask s (.setTotalTokens totalTokens.value) = some (s', o) ∧
      a.assign totalTokens = some (a', o) ∧ StandsFor s' a' := by
  obtain ⟨e, hs, ha⟩ | ⟨s', a', hs, ha, h'⟩ :=
    h.setTotalTokens totalTokens hsame hfits
  · exact ⟨s, a, .raised e, by simp [step, hs], by simp [Adapter.assign, ha], h⟩
  · exact ⟨s', a', .returned (), by simp [step, hs], by simp [Adapter.assign, ha], h'⟩

/-- The setter of the adapter raises `TypeError` for the other infinite floats. That of the
limiter takes the positive ones and raises `ValueError` for minus infinity. -/
theorem assign_other [DecidableEq τ] [DecidableEq β] (currentTask : τ → β) (s : State τ β)
    (a : Adapter τ β) (totalTokens : Argument) (hother : totalTokens.OtherInfinity) :
    (step currentTask s (.setTotalTokens totalTokens.value)).map Prod.snd ≠
      (a.assign totalTokens).map Prod.snd := by
  obtain ⟨hadapter, hlimiter⟩ := checkAdapter_other hother
  have ha : a.assign totalTokens = some (a, .raised totalNotInt) := by
    simp [Adapter.assign, Adapter.setTotalTokens, hadapter, Except.bind]
  rw [ha]
  cases hnew : newTotal s totalTokens.value with
  | error e =>
      have hs : CapacityLimiter.setTotalTokens s totalTokens.value = .error e := by
        simp [CapacityLimiter.setTotalTokens, hnew, Except.map]
      simp only [step, hs, Option.map_some, ne_eq, Option.some.injEq, Outcome.raised.injEq]
      rintro rfl
      cases hcheck : checkTotal totalTokens.value with
      | error e =>
          cases hnew.symm.trans (newTotal_of_error s hcheck)
          exact hlimiter hcheck
      | ok total =>
          rw [newTotal_of_ok s hcheck] at hnew
          split_ifs at hnew
          cases hnew
  | ok total =>
      have hs : CapacityLimiter.setTotalTokens s totalTokens.value =
          .ok (adjustTotal s total) := by
        simp [CapacityLimiter.setTotalTokens, hnew, Except.map]
      simp [step, hs]

/-- Where the difference overflows, the setter of the limiter raises `OverflowError`. That of an
adapter without a limiter is done. -/
theorem assign_overflow [DecidableEq τ] [DecidableEq β] (currentTask : τ → β) (s : State τ β)
    (a : Adapter τ β) (totalTokens : Argument) (hsame : ¬ totalTokens.OtherInfinity)
    (hunused : a.internalLimiter = none)
    (htoo : TooLarge totalTokens.value s.totalTokens) :
    (step currentTask s (.setTotalTokens totalTokens.value)).map Prod.snd ≠
      (a.assign totalTokens).map Prod.snd := by
  obtain ⟨total, hcheck⟩ := htoo.checked
  have hlarge := (newTotal_tooLarge_iff s totalTokens.value).mpr htoo
  have hs : CapacityLimiter.setTotalTokens s totalTokens.value = .error totalTooLarge := by
    simp [CapacityLimiter.setTotalTokens, hlarge, Except.map]
  have ha : a.setTotalTokens totalTokens = .ok { a with totalTokens := totalTokensOf total } := by
    simp [Adapter.setTotalTokens, checkAdapter_eq hsame, hcheck, hunused, Except.map, Except.bind]
  simp [step, Adapter.assign, hs, ha]

variable [DecidableEq τ] [DecidableEq β]

theorem pass (h : StandsFor s a) (currentTask : τ → β) (action : Action τ β) :
    a.pass currentTask action =
      (step currentTask s action).map fun r => ({ a with internalLimiter := some r.1 }, r.2) := by
  unfold Adapter.pass
  rw [h.limiter]

theorem passed (h : StandsFor s a) (currentTask : τ → β) (action : Action τ β) :
    (step currentTask s action = none ∧ a.pass currentTask action = none) ∨
      ∃ s' a' o, step currentTask s action = some (s', o) ∧
        a.pass currentTask action = some (a', o) ∧ StandsFor s' a' := by
  rw [h.pass]
  cases hs : step currentTask s action with
  | none => exact .inl ⟨rfl, rfl⟩
  | some r => exact .inr ⟨r.1, _, r.2, rfl, rfl, .made r.1 a.totalTokens⟩

/-- Both refuse an operation, or both answer it alike. -/
theorem operate (h : StandsFor s a) (currentTask : τ → β) {op : Operation τ β}
    (hsame : ¬ SetsApart s a op) :
    (CapacityLimiter.operate currentTask s op = none ∧ a.operate currentTask op = none) ∨
      ∃ s' a' o, CapacityLimiter.operate currentTask s op = some (s', o) ∧
        a.operate currentTask op = some (a', o) ∧ StandsFor s' a' := by
  cases op with
  | setFloatInf => exact absurd (.inl trivial) hsame
  | call action =>
      cases action with
      | setTotalTokens value =>
          obtain ⟨hinf, hfits⟩ := not_or.mp hsame
          right
          apply h.assign currentTask (.number value) hinf
          intro hunused hlarge
          exact hfits ⟨hunused, hlarge⟩
      | acquireOnBehalfOf t b cancelled =>
          exact h.passed currentTask (.acquireOnBehalfOf t b cancelled)
      | acquireOnBehalfOfNowait b => exact h.passed currentTask (.acquireOnBehalfOfNowait b)
      | releaseOnBehalfOf b => exact h.passed currentTask (.releaseOnBehalfOf b)
      | cancel t => exact h.passed currentTask (.cancel t)
      | resume t => exact h.passed currentTask (.resume t)

theorem operate_apart (currentTask : τ → β) (s : State τ β) (a : Adapter τ β)
    {op : Operation τ β} (hapart : SetsApart s a op) :
    (CapacityLimiter.operate currentTask s op).map Prod.snd ≠
      (a.operate currentTask op).map Prod.snd := by
  cases op with
  | setFloatInf => exact assign_other currentTask s a .floatInf trivial
  | call action =>
      cases action with
      | setTotalTokens value =>
          by_cases hother : (Argument.number value).OtherInfinity
          · exact assign_other currentTask s a (.number value) hother
          · obtain hinf | ⟨hunused, hlarge⟩ := hapart
            · exact absurd hinf hother
            · exact assign_overflow currentTask s a (.number value) hother hunused hlarge
      | _ => obtain ⟨⟨⟩⟩ | ⟨⟨⟩⟩ := hapart

/-- From then on they are in step until the setter is called with another infinity, or with a
number too large while the adapter has no limiter. -/
theorem inStep (h : StandsFor s a) (currentTask : τ → β) :
    Machine.InStep (operations currentTask) (Adapter.machine currentTask)
      SetsApart State.report Adapter.report s a := by
  apply Machine.InStep.of_relation StandsFor h
  · intro s a hR
    exact hR.report
  · intro s a op s' a' o q hR hop hs ha
    obtain ⟨hnone, -⟩ | ⟨s₁, a₁, o₁, hs₁, ha₁, hR'⟩ := hR.operate currentTask hop
    · cases hnone.symm.trans hs
    · cases hs₁.symm.trans hs
      cases ha₁.symm.trans ha
      exact hR'
  · intro s a op hR
    change (CapacityLimiter.operate currentTask s op).map Prod.snd =
      (a.operate currentTask op).map Prod.snd ↔ _
    constructor
    · intro heq hapart
      exact operate_apart currentTask s a hapart heq
    · intro hop
      obtain ⟨hs, ha⟩ | ⟨s', a', o, hs, ha, -⟩ := hR.operate currentTask hop
      · rw [hs, ha]
        rfl
      · rw [hs, ha]
        rfl

end StandsFor

/-- Constructed outside of the loop, a limiter raises the same error, or it is in step with the
one that was constructed inside until its setter sets them apart: exactly if its own argument is
not another infinity. -/
theorem constructed_alike [DecidableEq τ] [DecidableEq β] (currentTask : τ → β)
    (totalTokens : Argument) :
    Machine.ConstructedAlike (operations currentTask) (Adapter.machine currentTask)
        SetsApart State.report Adapter.report
        (construct τ β totalTokens) (Adapter.construct τ β totalTokens) ↔
      ¬ totalTokens.OtherInfinity := by
  rw [construct_eq, Adapter.construct_eq]
  unfold Adapter.init
  constructor
  · intro halike hother
    obtain ⟨hadapter, hlimiter⟩ := checkAdapter_other hother
    rw [hadapter] at halike
    cases hcheck : checkTotal totalTokens.value with
    | error e =>
        rw [hcheck] at halike
        exact hlimiter (hcheck.trans (congrArg Except.error halike))
    | ok total =>
        rw [hcheck] at halike
        exact halike
  · intro hsame
    rw [checkAdapter_eq hsame]
    cases hcheck : checkTotal totalTokens.value with
    | error e => exact rfl
    | ok total =>
        exact (StandsFor.unused (checkTotal_totalTokensOf hcheck)).inStep currentTask

end Anyio.CapacityLimiter
