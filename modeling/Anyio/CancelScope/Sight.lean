import Anyio.CancelScope.Level
import Anyio.CancelScope.Loops
import Anyio.CancelScope.Steps

/-!
# What keeps a delivery going

A delivery of `_deliver_cancellation` queues the next one when it sees a task.
So whoever has a callback in the queue had a task in sight since its last
callback ran, in every run with properly nested scopes.
-/

namespace Anyio.CancelScope

open Asyncio Library

variable {τ : Type*}

/-- A task is in a scope whose closest cancelled scope is `d`. -/
def Sees (w : World τ) (d : ScopeId) : Prop :=
  ∃ x ∈ w.entered, (w.scope x).tasks ≠ [] ∧ w.nearestCancelled (some x) = some d

instance (w : World τ) (d : ScopeId) : Decidable (Sees w d) :=
  inferInstanceAs (Decidable (∃ x ∈ w.entered,
    (w.scope x).tasks ≠ [] ∧ w.nearestCancelled (some x) = some d))

variable {w w' w'' mid : World τ} {Opened : ScopeId → Prop} {a : Action τ} {o : Answer}
  {self origin c d : ScopeId} {host : τ}

theorem Sees.congr (h : Sees w d) (htasks : ∀ x, (w'.scope x).tasks = (w.scope x).tasks)
    (hparent : ∀ x, (w'.scope x).parentScope = (w.scope x).parentScope)
    (hcalled : ∀ x, (w'.scope x).cancelCalled = (w.scope x).cancelCalled)
    (hshield : ∀ x, (w'.scope x).shield = (w.scope x).shield) (hentered : w'.entered = w.entered) :
    Sees w' d := by
  unfold Sees World.nearestCancelled at h ⊢
  simpa only [htasks, hparent, hcalled, hshield, hentered] using h

theorem SameTree.sees (h : SameTree w w') (hd : Sees w d) : Sees w' d :=
  hd.congr h.tasks h.parentScope h.cancelCalled h.shield h.entered

/-- Callbacks are only added, for scopes that have a task in sight. -/
structure Queues (w w' : World τ) : Prop where
  grows : ∀ e ∈ w.callbacks, e ∈ w'.callbacks
  added : ∀ e ∈ w'.callbacks, e ∈ w.callbacks ∨ Sees w' e.2

namespace Queues

theorem of_eq (h : w'.callbacks = w.callbacks) : Queues w w' where
  grows _ he := h ▸ he
  added _ he := .inl (h ▸ he)

theorem trans (h : Queues w w') (h' : Queues w' w'') (hkeep : ∀ d, Sees w' d → Sees w'' d) :
    Queues w w'' where
  grows e he := h'.grows e (h.grows e he)
  added e he := by
    obtain he | hsees := h'.added e he
    · exact (h.added e he).imp_right (hkeep e.2)
    · exact .inr hsees

/-- A call begins with changes that queue nothing. -/
theorem after (h : w'.callbacks = w.callbacks) (h' : Queues w' w'') : Queues w w'' where
  grows e he := h'.grows e (h ▸ he)
  added e he := h ▸ h'.added e he

end Queues

variable [DecidableEq τ]

/-- A delivery asks for another run only if there is a task in a scope that it gets to. -/
theorem deliverCancellation_retry (n : Nat)
    (h : (w.deliverCancellation n self origin).2 = true) :
    ∃ x, (w.scope x).tasks ≠ [] ∧ Reaches w self x := by
  induction n generalizing w self with
  | zero => cases h
  | succ n ih =>
      rw [World.deliverCancellation, scheduleAnother_snd] at h
      suffices hall : ∀ r : World τ × Bool, r =
          (w.scope self).childScopes.foldl
            (World.deliverToChild fun w child => w.deliverCancellation n child origin)
            ((w.scope self).tasks.foldl (World.deliverTo self origin) w,
              !(w.scope self).tasks.isEmpty) →
          Delivered origin w r.1 ∧
            (r.2 = true → ∃ x, (w.scope x).tasks ≠ [] ∧ Reaches w self x) from
        (hall _ rfl).2 h
      rintro r rfl
      apply List.foldlRecOn (motive := fun r : World τ × Bool => Delivered origin w r.1 ∧
        (r.2 = true → ∃ x, (w.scope x).tasks ≠ [] ∧ Reaches w self x))
      · refine ⟨tasks_delivered self origin w _, fun hretry => ⟨self, ?_, .refl⟩⟩
        simpa using hretry
      · rintro r ⟨hdel, hr⟩ y hy
        refine ⟨hdel.trans (deliverToChild_delivered
          (fun v x => deliverCancellation_delivered n v x origin) r y), ?_⟩
        unfold World.deliverToChild
        split_ifs with hpass
        · exact hr
        · intro hretry
          obtain hbelow | hretry := Bool.or_eq_true_iff.mp hretry
          · obtain ⟨x, htasks, hreach⟩ := ih hbelow
            rw [hdel.tasks] at htasks
            rw [hdel.reaches] at hreach
            rw [hdel.shield, hdel.cancelCalled] at hpass
            exact ⟨x, htasks, .head ⟨hy, Bool.eq_false_iff.mpr hpass⟩ hreach⟩
          · exact hr hretry

/-- A delivery that queues the next one has a task in sight. -/
theorem Linked.deliver_sees (hl : Linked w Opened) (hc : (w.scope c).cancelCalled = true)
    (hh : ((w.deliver c).scope c).cancelHandle ≠ none) : Sees (w.deliver c) c := by
  apply (deliver_delivered w c).toSameTree.sees
  have hretry : (w.deliverCancellation (w.entered.length + 1) c c).2 = true := by
    unfold World.deliver at hh
    rw [World.deliverCancellation, scheduleAnother_snd]
    rw [World.deliverCancellation, World.scheduleAnother, if_pos rfl] at hh
    split_ifs at hh with hretry
    · exact hretry
    · simp at hh
  obtain ⟨x, htasks, hreach⟩ := deliverCancellation_retry _ hretry
  obtain ⟨t, ht⟩ := List.exists_mem_of_ne_nil _ htasks
  have hnear : Near w x c := hreach.nearest hc fun y p hy => hl.child y p hy
  exact ⟨x, hl.known x (hl.members t x ht), htasks, hl.nearestCancelled.mpr hnear⟩

theorem Linked.deliver_queues (hl : Linked w Opened) (hc : (w.scope c).cancelCalled = true) :
    Queues w (w.deliver c) where
  grows := (deliver_delivered w c).grows
  added e he := by
    have hsees := hl.deliver_sees hc
    obtain ⟨mid, hmid, heq | ⟨-, heq⟩⟩ := deliver_cases hc
    · rw [heq] at he hsees ⊢
      obtain he | he := List.mem_append.mp he
      · exact .inl (hmid.callbacks ▸ he)
      · rw [List.mem_singleton.mp he]
        exact .inr (hsees (by simp [World.reschedule]))
    · rw [heq] at he
      exact .inl (hmid.callbacks ▸ he)

/-! ## Calls -/

theorem Linked.cancel_queues (hl : Linked w Opened) (c : ScopeId) : Queues w (w.cancel c) := by
  have hflagged : Linked ((w.dropTimer c).modify c fun s => { s with cancelCalled := true })
      Opened := ((dropTimer_quiet w c).linked hl).modify c rfl rfl rfl rfl
  have hcallbacks : ((w.dropTimer c).modify c fun s =>
      { s with cancelCalled := true }).callbacks = w.callbacks := (dropTimer_loops w c).callbacks
  unfold World.cancel
  dsimp only
  split_ifs
  · exact .of_eq rfl
  · exact .after hcallbacks (hflagged.deliver_queues (by simp))
  · exact .of_eq hcallbacks

theorem Linked.timeout_queues (hl : Linked w Opened) (c : ScopeId) : Queues w (w.timeout c) := by
  unfold World.timeout
  split
  · exact .of_eq rfl
  · split_ifs
    · exact hl.cancel_queues c
    · exact .of_eq rfl

theorem Linked.setDeadline_queues (hl : Linked w Opened) (c : ScopeId) (value : Option Int) :
    Queues w (w.setDeadline c value) := by
  have hset : Linked ((w.modify c fun s => { s with deadline := value }).dropTimer c) Opened :=
    (dropTimer_quiet _ c).linked (hl.modify c rfl rfl rfl rfl)
  have hcallbacks : ((w.modify c fun s => { s with deadline := value }).dropTimer c).callbacks =
      w.callbacks := (dropTimer_loops _ c).callbacks
  unfold World.setDeadline
  dsimp only
  split_ifs
  · exact .after hcallbacks (hset.timeout_queues c)
  · exact .of_eq hcallbacks

theorem Linked.restart_queues (hl : Linked w Opened) (c : ScopeId) :
    Queues w (w.restartCancellationInParent c) := by
  obtain heq | ⟨origin, hcalled, -, heq⟩ := restart_cases w c
  · rw [heq]
    exact .of_eq rfl
  · rw [heq]
    exact hl.deliver_queues hcalled

theorem Linked.setShield_queues (hl : Linked w Opened) (c : ScopeId) (value : Bool) :
    Queues w (w.setShield c value) := by
  have hset : Linked (w.modify c fun s => { s with shield := value }) Opened :=
    hl.modify c rfl rfl rfl rfl
  have hcallbacks : (w.modify c fun s => { s with shield := value }).callbacks = w.callbacks := rfl
  unfold World.setShield
  dsimp only
  split_ifs
  · exact .of_eq rfl
  · exact .of_eq rfl
  · exact .after hcallbacks (hset.restart_queues c)

theorem Linked.activate_queues (hl : Linked w Opened) (c : ScopeId) (host : τ) :
    Queues w (w.activate c host) := by
  have htimed := hl.timeout_queues c
  have hlinked : Linked (w.timeout c) Opened := by
    have hsame := timeout_links w c
    exact hl.congr hsame.parentScope hsame.childScopes hsame.tasks hsame.hostTask hsame.entered
      hsame.taskState hsame.point hsame.current
  have hopened : Linked (((w.timeout c).modify c fun s =>
      { s with active := true }).recordCancelling c host) Opened :=
    (recordCancelling_quiet _ c host).linked (hlinked.modify c rfl rfl rfl rfl)
  have hsees : ∀ d, Sees (w.timeout c) d → Sees (((w.timeout c).modify c fun s =>
      { s with active := true }).recordCancelling c host) d := by
    intro d hd
    apply (recordCancelling_quiet _ c host).sees
    apply hd.congr
    case hentered => rfl
    all_goals
      intro x
      by_cases hx : x = c <;> simp [hx]
  have hcallbacks := (opened_loops (w.timeout c) c host).callbacks
  unfold World.activate
  dsimp only
  split_ifs with hcalled
  · apply htimed.trans (.after hcallbacks (hopened.deliver_queues hcalled))
    intro d hd
    exact (deliver_delivered _ c).toSameTree.sees (hsees d hd)
  · exact htimed.trans (.of_eq hcallbacks) hsees

theorem Linked.conclude_queues (hl : Linked w Opened) (c : ScopeId) (host : τ)
    (exc : Option Exc) : Queues w (w.conclude c host exc).1 := by
  let undone := (World.swallow c ((exc.map iterateExceptions).getD [])
    (w.undoCancellations c host) false false).1
  have hquiet : Quiet w undone := (undoCancellations_quiet w c host).trans
    (swallow_quiet c ((exc.map iterateExceptions).getD []) _ false false)
  have hcallbacks : undone.callbacks = w.callbacks :=
    ((undoCancellations_handles w c host).trans
      (swallow_handles c ((exc.map iterateExceptions).getD []) _ false false)).callbacks
  have hrestart := (hquiet.linked hl).restart_queues c
  have hend : Queues (undone.restartCancellationInParent c) (w.conclude c host exc).1 := .of_eq rfl
  apply Queues.after hcallbacks
  apply hrestart.trans hend
  intro d hd
  apply hd.congr
  case hentered => rfl
  all_goals
    intro x
    by_cases hx : x = c <;> simp [World.conclude, hx, undone]

/-! ## Steps -/

/-- The callbacks that are queued, but for the one that the action runs. -/
def remaining (w : World τ) : Action τ → List (HandleId × ScopeId)
  | .deliverCancellation h c => w.callbacks.erase (h, c)
  | _ => w.callbacks

omit [DecidableEq τ] in
theorem remaining_eq (ha : a.kind ≠ .delivers) : remaining w a = w.callbacks := by
  cases a with
  | deliverCancellation => exact absurd rfl ha
  | _ => rfl

omit [DecidableEq τ] in
theorem Orderly.fresh {mayPlace : World τ → ScopeId → Prop} (ok : Orderly mayPlace w a)
    (reg : Registered w) : Fresh w a := by
  cases a with
  | enter c => exact ok
  | spawn c t => exact reg.known c ok.1
  | taskWrapper c => exact reg.known c ok.1
  | _ => trivial

/-- A step queues callbacks only for scopes that have a task in sight after it. -/
theorem Sound.step_queues {mayPlace : World τ → ScopeId → Prop} (inv : Sound .queue w)
    (reg : Registered w) (called : Called w) (ok : Orderly mayPlace w a)
    (h : CancelScope.step w a = some (w', o)) :
    Queues { w with callbacks := remaining w a } w' := by
  cases step_change reg called (ok.fresh reg) h with
  | refused he =>
      have ha : a.kind ≠ .delivers := by
        rcases he with ⟨hkind, -⟩ | ⟨⟨f, rfl⟩, -⟩
        · simp [hkind]
        · simp [Action.kind]
      exact .of_eq (remaining_eq ha).symm
  | @entered c host mid hcur fresh hmid =>
      have hlinked := hmid.linked inv.linked fresh hcur
      exact .after hmid.callbacks (hlinked.activate_queues c host)
  | @left c host exc mid hcur _ _ inside hmid =>
      obtain ⟨htasks, hchildren⟩ := ok host hcur inside
      have hlinked := hmid.linked inv.linked inside hcur htasks hchildren
      exact .after hmid.callbacks (hlinked.conclude_queues c host exc)
  | placed ha hp _ => exact .of_eq (hp.callbacks.trans (remaining_eq (by simp [ha])).symm)
  | scheduled ha hs => exact .of_eq (hs.callbacks.trans (remaining_eq (by simp [ha])).symm)
  | charged ha _ _ _ =>
      cases a with
      | cancel c =>
          cases h
          exact inv.linked.cancel_queues c
      | setShield c value =>
          cases h
          exact inv.linked.setShield_queues c value
      | setDeadline c value =>
          cases h
          exact inv.linked.setDeadline_queues c value
      | timeout g c =>
          obtain ⟨-, h⟩ := Option.ite_none_right_eq_some.mp h
          cases h
          have hfired : SameTree w { w with timers := w.timers.erase (g, c) } :=
            ⟨fun _ => rfl, rfl, rfl, fun _ => rfl, rfl, rfl, rfl, rfl⟩
          have hqueues := (hfired.linked inv.linked).timeout_queues c
          exact ⟨hqueues.grows, hqueues.added⟩
      | deliverCancellation g c =>
          obtain ⟨⟨-, hmem⟩, h⟩ := Option.ite_none_right_eq_some.mp h
          cases h
          have hfired : SameTree w { w with callbacks := w.callbacks.erase (g, c) } :=
            ⟨fun _ => rfl, rfl, rfl, fun _ => rfl, rfl, rfl, rfl, rfl⟩
          exact (hfired.linked inv.linked).deliver_queues (called _ hmem)
      | enter _ | exit _ _ | spawn _ _ | taskWrapper _ | finish | taskDone _ _ | createTask _
      | resume _ | sleep | await _ | nativeCancel _ | createFuture | setResult _ | setTime _ =>
          cases ha.1

end Anyio.CancelScope
