import Anyio.CancelScope.Steps

/-!
# Shielding

A task is cancelled on behalf of a scope only if no shield stands between the
two, and only while it waits for something that has not come yet.
-/

namespace Anyio.CancelScope

open Asyncio Library

variable {τ : Type*}

/-- `y` is the scope `x` or one around it. -/
def Around (w : World τ) (x y : ScopeId) : Prop :=
  Ascends (fun c => (w.scope c).parentScope) x y

variable {w w' mid : World τ} {a : Action τ} {o : Answer} {c origin x : ScopeId} {t host : τ}

/-- The scope whose delivery gets to a task is the closest cancelled one of that task. -/
theorem Interrupts.near (h : Interrupts w w' origin t) (reg : Registered w') :
    ∃ x, w'.currentScope t = some x ∧ Near w' x origin ∧
      ((w'.scope x).hostTask = some t ∨ Coroutine.started (w.loop.point t) = true) := by
  obtain ⟨x, hmem, hreach, helig⟩ := h.below
  refine ⟨x, reg.only t x hmem, ?_, helig⟩
  exact hreach.nearest h.called fun y p hy => ((reg.child p y).mp hy).2

variable [DecidableEq τ]

/-- A scheduling step makes no request but a native one. -/
theorem scheduled_cancelling (ha : a.kind = .schedules) (hn : a ≠ .nativeCancel t)
    (h : step w a = some (w', o)) :
    (w'.loop.task t).cancelling = (w.loop.task t).cancelling := by
  cases a with
  | createTask u =>
      obtain ⟨-, h⟩ := Option.ite_none_right_eq_some.mp h
      cases h
      simp
  | resume u =>
      obtain ⟨-, h⟩ := Option.ite_none_right_eq_some.mp h
      cases h
      simp
  | sleep =>
      simp only [step] at h
      split at h
      · cases h
      · cases h
        simp
  | await f =>
      simp only [step] at h
      split at h
      · cases h
      · obtain ⟨-, h⟩ := Option.ite_none_right_eq_some.mp h
        cases h
        simp
  | nativeCancel u =>
      obtain ⟨-, h⟩ := Option.ite_none_right_eq_some.mp h
      cases h
      have htu : t ≠ u := fun heq => hn (heq ▸ rfl)
      simp [htu]
  | createFuture =>
      cases h
      rfl
  | setResult f =>
      simp only [step] at h
      split at h
      · cases h
        rfl
      · rename_i l hl
        cases h
        obtain ⟨-, rfl⟩ := Loop.setResult_eq_some.mp hl
        rfl
  | setTime now =>
      obtain ⟨-, h⟩ := Option.ite_none_right_eq_some.mp h
      cases h
      rfl
  | enter _ | exit _ _ | cancel _ | setShield _ _ | setDeadline _ _ | timeout _ _
  | deliverCancellation _ _ | spawn _ _ | taskWrapper _ | finish | taskDone _ _ => cases ha

omit [DecidableEq τ] in
/-- The delivery restarted by an exit never cancels the task that exits. -/
theorem Undone.interrupts {undone restarted : World τ} (hundone : Undone w c host undone)
    (hcharged : Charged none none origin undone restarted) (hcur : w.current = some host)
    (hhost : (w.scope c).hostTask = some host)
    (hne : (restarted.loop.task t).cancelling ≠ (undone.loop.task t).cancelling) :
    t ≠ host ∧
      Interrupts w (restarted.modify c fun s => { s with hostTask := none }) origin t := by
  obtain ⟨calls, caught, hscope⟩ := hundone.scope
  have h := hcharged.interrupts t hne
  have hth : t ≠ host := by
    rintro rfl
    exact h.notCurrent (hundone.current.trans hcur)
  have hwaits : undone.waiterDone t = w.waiterDone t := by
    simp [World.waiterDone, Loop.waits, hundone.point, hundone.future.1]
  have hkeep : ∀ d, ((restarted.modify c fun s => { s with hostTask := none }).scope d) =
      { restarted.scope d with
        hostTask := if d = c then none else (restarted.scope d).hostTask } := by
    intro d
    by_cases hd : d = c <;> simp [hd]
  refine ⟨hth, ?_, ?_, hundone.current ▸ h.notCurrent, hwaits ▸ h.waits,
    hundone.others t hth ▸ h.idle⟩
  · rw [hkeep]
    exact h.called
  · obtain ⟨x, hmem, hreach, helig⟩ := h.below
    refine ⟨x, ?_, ?_, ?_⟩
    · rwa [hkeep]
    · unfold Reaches at hreach ⊢
      simpa only [hkeep] using hreach
    · rw [hundone.point] at helig
      apply helig.imp_left
      intro hx
      have hxc : x ≠ c := by
        rintro rfl
        rw [hcharged.hostTask, hscope] at hx
        exact hth (Option.some.inj (hx.symm.trans hhost))
      rw [hkeep, if_neg hxc, hx]

/-- At the end of an exit the delivery is restarted for the scope found from where it began. -/
theorem Undone.restarted {undone : World τ} (hleft : Left w c host mid)
    (hundone : Undone mid c host undone) :
    undone.nearestCancelled (undone.scope c).parentScope =
      w.nearestCancelled (w.scope c).parentScope := by
  obtain ⟨calls, caught, hscope⟩ := hundone.scope
  have hentered : undone.entered = w.entered := hundone.entered.trans hleft.entered
  have hparent : ∀ d, (undone.scope d).parentScope = (w.scope d).parentScope := by
    intro d
    rw [hscope]
    exact hleft.parentScope d
  have hcalled : ∀ d, (undone.scope d).cancelCalled = (w.scope d).cancelCalled := by
    intro d
    rw [hscope]
    exact (hleft.flags d).2
  have hshield : ∀ d, (undone.scope d).shield = (w.scope d).shield := by
    intro d
    rw [hscope]
    exact (hleft.flags d).1
  unfold World.nearestCancelled
  simp only [hparent, hcalled, hshield, hentered]

/-- Every request that is not a native one is made by the delivery that the step runs. -/
theorem Change.interrupts (change : Change w a w' o) (h : step w a = some (w', o))
    (hn : a ≠ .nativeCancel t) (hc : (w.loop.task t).cancelling < (w'.loop.task t).cancelling) :
    ∃ origin, deliveryOrigin w a = some origin ∧ Interrupts w w' origin t := by
  cases change with
  | refused => exact absurd hc (Nat.lt_irrefl _)
  | @entered c host mid hcur _ hmid =>
      have hcharged : Charged (some c) none c mid (mid.activate c host) :=
        activate_charged mid c host
      rw [← hmid.loop] at hc
      have hi := (hcharged.interrupts t (Nat.ne_of_gt hc)).earlier
        (hmid.loop ▸ .refl w.loop) hmid.current
      exact ⟨c, rfl, hi⟩
  | @left c host exc mid hcur _ hhost _ hmid =>
      obtain ⟨undone, restarted, origin, hundone, hcharged, -, -, horigin, heq⟩ :=
        conclude_stages mid c host exc
      rw [heq] at hc ⊢
      replace hc : (w.loop.task t).cancelling < (restarted.loop.task t).cancelling := hc
      have hne : (restarted.loop.task t).cancelling ≠ (undone.loop.task t).cancelling := by
        by_cases hth : t = host
        · subst hth
          have hfalls := hundone.falls
          rw [hmid.loop] at hfalls
          omega
        · rw [hundone.others t hth, hmid.loop]
          exact Nat.ne_of_gt hc
      obtain ⟨-, hi⟩ := hundone.interrupts hcharged (hmid.current.trans hcur)
        ((hmid.hostTask c).trans hhost) hne
      refine ⟨origin, ?_, hi.earlier (hmid.loop ▸ .refl w.loop) hmid.current⟩
      obtain horigin | hloop := horigin
      · exact (hundone.restarted hmid).symm.trans horigin
      · exact absurd (by rw [hloop]) hne
  | @charged _ _ _ origin ha _ _ hcharged =>
      refine ⟨origin, ?_, hcharged.interrupts t (Nat.ne_of_gt hc)⟩
      obtain horigin | hloop := ha.2
      · exact horigin
      · exact absurd hc (by simp [hloop])
  | placed _ hp _ => exact absurd hc (by simp [(hp.requests t).1])
  | scheduled ha _ => exact absurd hc (by simp [scheduled_cancelling ha hn h])

/-- Whatever step makes an anyio request to task `t`: the scope for which the step runs
`_deliver_cancellation()` is cancelled and around the scope of `t`, past scopes that are neither
shielded nor cancelled, and `t` is not running, was started or is the host of its scope, and
has nothing done to wait for. So a shield around the task is the origin of the
request or has it inside. -/
theorem delivery_is_shielded {minor : Nat}
    (run : (machine τ).Reachable Fresh (initial τ minor) w) (ok : Fresh w a)
    (h : step w a = some (w', o)) (hn : a ≠ .nativeCancel t)
    (hc : (w.loop.task t).cancelling < (w'.loop.task t).cancelling) :
    ∃ origin x, deliveryOrigin w a = some origin ∧ w'.currentScope t = some x ∧
      Around w' x origin ∧ (w'.scope origin).cancelCalled = true ∧
      (∀ y, Around w' x y → ¬ Around w' origin y →
        (w'.scope y).shield = false ∧ (w'.scope y).cancelCalled = false) ∧
      w.current ≠ some t ∧
      (Coroutine.started (w.loop.point t) = true ∨ (w'.scope x).hostTask = some t) ∧
      w.waiterDone t = false ∧
      ∀ y, Around w' x y → (w'.scope y).shield = true → Around w' origin y := by
  obtain ⟨reg, called⟩ := registered_of_run run
  obtain ⟨origin, horigin, hi⟩ := (step_change reg called ok h).interrupts h hn hc
  obtain ⟨x, hx, hnear, helig⟩ := hi.near (reg.step called ok h)
  have hpass : ∀ y, Around w' x y → ¬ Around w' origin y →
      (w'.scope y).shield = false ∧ (w'.scope y).cancelCalled = false := by
    intro y hy ho
    exact ((hnear.passes hy).resolve_left ho).symm
  refine ⟨origin, x, horigin, hx, hnear.ascends, hi.called, hpass, hi.notCurrent, helig.symm,
    hi.waits, ?_⟩
  intro y hy hs
  by_contra ho
  rw [(hpass y hy ho).1] at hs
  cases hs

/-- Task 1 waits in scope 1, which is not shielded, when scope 0 is cancelled;
task 0 hosts both scopes and is shielded in scope 2. -/
def childBelow : World (Fin 2) :=
  ((machine (Fin 2)).exec Fresh (initial (Fin 2) 12)
    [.createTask 0, .resume 0, .enter 0, .enter 1, .spawn 1 1, .enter 2, .setShield 2 true,
      .createFuture, .await 0, .resume 1, .createFuture, .await 1]).get (by decide)

theorem delivery_is_shielded_child :
    ((childBelow.cancel 0).loop.task 1).cancelling = 1 ∧
      ∃ x, (childBelow.cancel 0).currentScope 1 = some x ∧
        Around (childBelow.cancel 0) x 0 ∧ childBelow.waiterDone 1 = false := by
  have run : (machine (Fin 2)).Reachable Fresh (initial (Fin 2) 12) childBelow :=
    Machine.exec_get_reachable _ _ _
  obtain ⟨origin, x, horigin, hx, haround, -, -, -, -, hwaits, -⟩ :=
    delivery_is_shielded (a := .cancel 0) (o := .ok none) (t := 1) run trivial rfl (by simp)
      (by decide)
  cases horigin
  exact ⟨by decide, x, hx, haround, hwaits⟩

end Anyio.CancelScope
