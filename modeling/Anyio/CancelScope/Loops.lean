import Anyio.CancelScope.Handles
import Anyio.CancelScope.Invariant

/-!
# One delivery loop for each scope

A `_deliver_cancellation` callback queues the next one for its origin, so a
second callback for the same origin would stay as long as the first one.
`_cancel_handle` is that of the only callback, as long as no scope is entered
after its deadline, or again while its callback is queued: `__enter__()` then
delivers without a look at the handle.
-/

namespace Anyio.CancelScope

open Asyncio Library

variable {τ : Type*} {w w' w'' : World τ} {c d : ScopeId}

/-- The callbacks, the handles on them and the cancelled scopes are the same. -/
structure SameLoops (w w' : World τ) : Prop where
  callbacks : w'.callbacks = w.callbacks
  cancelHandle : ∀ c, (w'.scope c).cancelHandle = (w.scope c).cancelHandle
  cancelCalled : ∀ c, (w'.scope c).cancelCalled = (w.scope c).cancelCalled

namespace SameLoops

theorem refl (w : World τ) : SameLoops w w := ⟨rfl, fun _ => rfl, fun _ => rfl⟩

theorem trans (h : SameLoops w w') (h' : SameLoops w' w'') : SameLoops w w'' where
  callbacks := h'.callbacks.trans h.callbacks
  cancelHandle c := (h'.cancelHandle c).trans (h.cancelHandle c)
  cancelCalled c := (h'.cancelCalled c).trans (h.cancelCalled c)

theorem modify (w : World τ) (c : ScopeId) {f : Scope τ → Scope τ}
    (hhandle : (f (w.scope c)).cancelHandle = (w.scope c).cancelHandle)
    (hcalled : (f (w.scope c)).cancelCalled = (w.scope c).cancelCalled) :
    SameLoops w (w.modify c f) where
  callbacks := rfl
  cancelHandle d := by
    cases eq_or_ne d c with
    | inl hd => simp [hd, hhandle]
    | inr hd => simp [hd]
  cancelCalled d := by
    cases eq_or_ne d c with
    | inl hd => simp [hd, hcalled]
    | inr hd => simp [hd]

theorem of_scope (hscope : w'.scope = w.scope) (hcallbacks : w'.callbacks = w.callbacks) :
    SameLoops w w' :=
  ⟨hcallbacks, fun c => by rw [hscope], fun c => by rw [hscope]⟩

end SameLoops

theorem SameHandles.sameLoops (h : SameHandles w w') : SameLoops w w' :=
  ⟨h.callbacks, h.cancelHandle, h.cancelCalled⟩

theorem dropTimer_loops (w : World τ) (c : ScopeId) : SameLoops w (w.dropTimer c) := by
  unfold World.dropTimer
  split
  · exact .refl w
  · have hset := SameLoops.modify w c (f := fun s => { s with timeoutHandle := none }) rfl rfl
    exact hset.trans (.of_scope rfl rfl)

theorem opened_loops (w : World τ) (c : ScopeId) (host : τ) :
    SameLoops w ((w.modify c fun s => { s with active := true }).recordCancelling c host) := by
  have hactive := SameLoops.modify w c (f := fun s => { s with active := true }) rfl rfl
  unfold World.recordCancelling
  split_ifs
  · exact hactive.trans (.modify _ c rfl rfl)
  · exact hactive

/-- `_cancel_handle` of every scope is its only queued callback; the origins are cancelled. -/
structure OneLoop (w : World τ) : Prop where
  called : ∀ e ∈ w.callbacks, (w.scope e.2).cancelCalled = true
  queued : ∀ c, handlesFor w.callbacks c = (w.scope c).cancelHandle.toList

theorem initial_oneLoop (τ : Type*) (minor : Nat) : OneLoop (initial τ minor) :=
  ⟨by simp [initial], fun _ => rfl⟩

namespace OneLoop

theorem keep (one : OneLoop w) (h : SameLoops w w') : OneLoop w' where
  called e he := (h.cancelCalled e.2).trans (one.called e (h.callbacks ▸ he))
  queued c := by rw [h.callbacks, h.cancelHandle, one.queued]

/-- A scope that is not cancelled has no callback. -/
theorem idle (one : OneLoop w) (hc : (w.scope c).cancelCalled = false) :
    handlesFor w.callbacks c = [] := by
  apply List.eq_nil_iff_forall_not_mem.mpr
  intro h hh
  have hcalled := one.called (h, c) (mem_handlesFor.mp hh)
  simp [hc] at hcalled

theorem idle_of_handle (one : OneLoop w) (hc : (w.scope c).cancelHandle = none) :
    handlesFor w.callbacks c = [] := by
  rw [one.queued, hc, Option.toList_none]

end OneLoop

variable [DecidableEq τ]

/-- A delivery of a scope without a callback leaves it with one, or with none. -/
theorem deliver_oneLoop (called : ∀ e ∈ w.callbacks, (w.scope e.2).cancelCalled = true)
    (others : ∀ d, d ≠ c → handlesFor w.callbacks d = (w.scope d).cancelHandle.toList)
    (hidle : handlesFor w.callbacks c = []) (hc : (w.scope c).cancelCalled = true) :
    OneLoop (w.deliver c) := by
  obtain ⟨mid, hmid, heq | ⟨-, heq⟩⟩ := deliver_cases hc
  · rw [heq]
    constructor
    · intro e he
      have hmem : e ∈ w.callbacks ∨ e = (mid.nextHandle, c) := by
        simpa [World.reschedule, hmid.callbacks] using he
      have hcalled : (w.scope e.2).cancelCalled = true := by
        obtain hold | rfl := hmem
        · exact called e hold
        · exact hc
      cases eq_or_ne e.2 c with
      | inl hd => simp [World.reschedule, hd, hmid.cancelCalled, hc]
      | inr hd => simp [World.reschedule, hd, hmid.cancelCalled, hcalled]
    · intro d
      cases eq_or_ne d c with
      | inl hd => simp [World.reschedule, hd, hmid.callbacks, hidle]
      | inr hd => simp [World.reschedule, hd, hd.symm, hmid.callbacks, hmid.cancelHandle, others]
  · rw [heq]
    constructor
    · intro e he
      have hcalled := called e (by simpa [World.modify, hmid.callbacks] using he)
      cases eq_or_ne e.2 c with
      | inl hd => simp [hd, hmid.cancelCalled, hc]
      | inr hd => simp [hd, hmid.cancelCalled, hcalled]
    · intro d
      cases eq_or_ne d c with
      | inl hd => simp [World.modify, hd, hmid.callbacks, hidle]
      | inr hd => simp [World.modify, hd, hmid.callbacks, hmid.cancelHandle, others]

namespace OneLoop

theorem deliver (one : OneLoop w) (hidle : handlesFor w.callbacks c = [])
    (hc : (w.scope c).cancelCalled = true) : OneLoop (w.deliver c) :=
  deliver_oneLoop one.called (fun d _ => one.queued d) hidle hc

theorem restart (one : OneLoop w) (c : ScopeId) : OneLoop (w.restartCancellationInParent c) := by
  obtain heq | ⟨origin, hcalled, hhandle, heq⟩ := restart_cases w c
  · rw [heq]
    exact one
  · rw [heq]
    exact one.deliver (one.idle_of_handle hhandle) hcalled

omit [DecidableEq τ] in
theorem flag (one : OneLoop w) (c : ScopeId) :
    OneLoop (w.modify c fun s => { s with cancelCalled := true }) where
  called e he := by
    cases eq_or_ne e.2 c with
    | inl hd => simp [hd]
    | inr hd => simpa [hd] using one.called e he
  queued d := by
    cases eq_or_ne d c with
    | inl hd => simpa [hd] using one.queued c
    | inr hd => simpa [hd] using one.queued d

theorem cancel (one : OneLoop w) (c : ScopeId) : OneLoop (w.cancel c) := by
  have hdropped := dropTimer_loops w c
  have hflag := (one.keep hdropped).flag c
  unfold World.cancel
  dsimp only
  split_ifs with hcalled
  · exact one
  · apply hflag.deliver
    · have hidle := one.idle (Bool.eq_false_iff.mpr hcalled)
      exact (congrArg (handlesFor · c) hdropped.callbacks).trans hidle
    · simp
  · exact hflag

/-- `_timeout()` sets a timer or cancels. -/
theorem timeout (one : OneLoop w) (c : ScopeId) : OneLoop (w.timeout c) := by
  unfold World.timeout
  split
  · exact one
  · split_ifs
    · exact one.cancel c
    · have hset := one.keep (.modify w c (f := fun s => { s with
        timeoutHandle := some w.nextHandle }) rfl rfl)
      exact hset.keep (.of_scope rfl rfl)

theorem setDeadline (one : OneLoop w) (c : ScopeId) (value : Option Int) :
    OneLoop (w.setDeadline c value) := by
  have hset := one.keep (.modify w c (f := fun s => { s with deadline := value }) rfl rfl)
  have hdropped := hset.keep (dropTimer_loops _ c)
  unfold World.setDeadline
  dsimp only
  split_ifs
  · exact hdropped.timeout c
  · exact hdropped

theorem setShield (one : OneLoop w) (c : ScopeId) (value : Bool) :
    OneLoop (w.setShield c value) := by
  have hset := one.keep (.modify w c (f := fun s => { s with shield := value }) rfl rfl)
  unfold World.setShield
  dsimp only
  split_ifs
  · exact one
  · exact hset
  · exact hset.restart c

omit [DecidableEq τ] in
/-- The callback that runs is the one of its origin. -/
theorem no_other {h : HandleId} (one : OneLoop w) (hmem : (h, c) ∈ w.callbacks) :
    handlesFor (w.callbacks.erase (h, c)) c = [] := by
  have hqueued := one.queued c
  have hh : h ∈ (w.scope c).cancelHandle := by
    apply Option.mem_toList.mp
    rw [← hqueued]
    exact mem_handlesFor.mpr hmem
  rw [Option.mem_def.mp hh] at hqueued
  rw [handlesFor_erase_self, hqueued]
  simp

theorem deliverCancellation {h : HandleId} (one : OneLoop w) (hmem : (h, c) ∈ w.callbacks) :
    OneLoop ({ w with callbacks := w.callbacks.erase (h, c) }.deliver c) := by
  apply deliver_oneLoop
  · exact fun e he => one.called e (List.mem_of_mem_erase he)
  · intro d hd
    exact (handlesFor_erase_of_ne h hd).trans (one.queued d)
  · exact one.no_other hmem
  · exact one.called (h, c) hmem

/-- A scope that is entered has not been cancelled by then, or has no callback; and the
deadline of one that is not cancelled has not passed. -/
theorem activate (one : OneLoop w) (c : ScopeId) (host : τ)
    (hhandle : (w.scope c).cancelHandle = none)
    (hdue : (w.scope c).cancelCalled = true ∨ ∀ d ∈ (w.scope c).deadline, w.now < d) :
    OneLoop (w.activate c host) := by
  have htimed : SameLoops w (w.timeout c) := by
    unfold World.timeout
    split
    · exact .refl w
    · rename_i deadline hdeadline
      split_ifs with hpassed
      · obtain hcalled | hdue := hdue
        · rw [World.cancel, if_pos hcalled]
          exact .refl w
        · exact absurd (hdue deadline hdeadline) hpassed.not_gt
      · have hset := SameLoops.modify w c (f := fun s => { s with
          timeoutHandle := some w.nextHandle }) rfl rfl
        exact hset.trans (.of_scope rfl rfl)
  have hopened := htimed.trans (opened_loops (w.timeout c) c host)
  unfold World.activate
  dsimp only
  split_ifs with hcalled
  · apply (one.keep hopened).deliver _ hcalled
    rw [hopened.callbacks, one.idle_of_handle hhandle]
  · exact one.keep hopened

end OneLoop

/-- A scope is entered before its deadline, or cancelled, and not again while its callback is
queued. -/
def Prompt (w : World τ) : Action τ → Prop
  | .enter c => (w.scope c).active = false → (w.scope c).cancelHandle = none ∧
      ((w.scope c).cancelCalled = true ∨ ∀ d ∈ (w.scope c).deadline, w.now < d)
  | _ => True

instance (w : World τ) (a : Action τ) : Decidable (Prompt w a) :=
  match a with
  | .enter c => inferInstanceAs (Decidable ((w.scope c).active = false →
      (w.scope c).cancelHandle = none ∧
        ((w.scope c).cancelCalled = true ∨ ∀ d ∈ (w.scope c).deadline, w.now < d)))
  | .exit _ _ | .cancel _ | .setShield _ _ | .setDeadline _ _ | .timeout _ _
  | .deliverCancellation _ _ | .spawn _ _ | .taskWrapper _ | .createTask _ | .resume _ | .sleep
  | .await _ | .finish | .taskDone _ _ | .nativeCancel _ | .createFuture | .setResult _
  | .setTime _ => .isTrue trivial

variable {a : Action τ} {o : Answer}

theorem OneLoop.enter (one : OneLoop w) (ok : Prompt w (.enter c)) (host : τ) :
    OneLoop (w.enter c host).1 := by
  obtain ⟨h, -⟩ | ⟨hinactive, mid, hmid, heq, -⟩ := enter_handles w c host
  · exact one.keep h.sameLoops
  · obtain ⟨hhandle, hdue⟩ := ok hinactive
    rw [heq]
    apply (one.keep hmid.sameLoops).activate c host
    · rw [hmid.cancelHandle, hhandle]
    · rw [hmid.cancelCalled, hmid.deadline, hmid.now]
      exact hdue

theorem OneLoop.exit (one : OneLoop w) (c : ScopeId) (host : τ) (exc : Option Exc) :
    OneLoop (w.exit c host exc).1 := by
  obtain ⟨heq, -⟩ | ⟨mid, hmid, hend⟩ := exit_handles w c host exc
  · rw [heq]
    exact one
  · have hclosed := one.keep (.modify w c (f := fun s => { s with active := false }) rfl rfl)
    have hleft := (hclosed.keep (dropTimer_loops _ c)).keep hmid.sameLoops
    obtain hend | hend := hend
    · exact hleft.keep hend.sameLoops
    · exact (hleft.restart c).keep hend.sameLoops

theorem OneLoop.step (one : OneLoop w) (ok : Prompt w a) (h : step w a = some (w', o)) :
    OneLoop w' := by
  cases a with
  | enter c =>
      simp only [CancelScope.step] at h
      split at h
      · cases h
      · cases h
        exact one.enter ok _
  | exit c exc =>
      simp only [CancelScope.step] at h
      split at h
      · cases h
      · cases h
        exact one.exit c _ exc
  | cancel c =>
      cases h
      exact one.cancel c
  | setShield c value =>
      cases h
      exact one.setShield c value
  | setDeadline c value =>
      cases h
      exact one.setDeadline c value
  | timeout g c =>
      obtain ⟨-, h⟩ := Option.ite_none_right_eq_some.mp h
      cases h
      have hfired : OneLoop { w with timers := w.timers.erase (g, c) } :=
        one.keep (.of_scope rfl rfl)
      exact hfired.timeout c
  | deliverCancellation g c =>
      obtain ⟨⟨-, hmem⟩, h⟩ := Option.ite_none_right_eq_some.mp h
      cases h
      exact one.deliverCancellation hmem
  | spawn c t =>
      obtain ⟨-, h⟩ := Option.ite_none_right_eq_some.mp h
      cases h
      exact one.keep (spawn_handles w c t).sameLoops
  | taskWrapper c =>
      simp only [CancelScope.step] at h
      split at h
      · cases h
      · obtain ⟨-, h⟩ := Option.ite_none_right_eq_some.mp h
        cases h
        exact one.keep (taskWrapper_handles w c _).sameLoops
  | finish =>
      simp only [CancelScope.step] at h
      split at h
      · cases h
      · cases h
        exact one.keep (finish_handles w _).sameLoops
  | taskDone t group =>
      obtain ⟨-, h⟩ := Option.ite_none_right_eq_some.mp h
      cases h
      exact one.keep (taskDone_handles w t group).sameLoops
  | createTask _ | resume _ | nativeCancel _ | setTime _ =>
      obtain ⟨-, h⟩ := Option.ite_none_right_eq_some.mp h
      cases h
      exact one.keep (.of_scope rfl rfl)
  | createFuture =>
      cases h
      exact one.keep (.of_scope rfl rfl)
  | sleep =>
      simp only [CancelScope.step] at h
      split at h
      · cases h
      · cases h
        exact one.keep (.of_scope rfl rfl)
  | await _ =>
      simp only [CancelScope.step] at h
      split at h
      · cases h
      · obtain ⟨-, h⟩ := Option.ite_none_right_eq_some.mp h
        cases h
        exact one.keep (.of_scope rfl rfl)
  | setResult _ =>
      simp only [CancelScope.step] at h
      split at h
      · cases h
        exact one
      · cases h
        exact one.keep (.of_scope rfl rfl)

/-! ## The second loop -/

theorem deliver_adds (hcalled : (w.scope c).cancelCalled = true) (ht : (w.scope c).tasks ≠ []) :
    handlesFor (w.deliver c).callbacks c = handlesFor w.callbacks c ++ [w.nextHandle] := by
  obtain ⟨mid, hmid, heq | ⟨hnil, -⟩⟩ := deliver_cases hcalled
  · simp [heq, World.reschedule, hmid.callbacks, hmid.nextHandle]
  · exact absurd hnil ht

/-- After its deadline a scope that is being entered is cancelled, and delivers at once. -/
theorem timeout_adds {deadline : Int} (hcalled : (w.scope c).cancelCalled = false)
    (hhost : (w.scope c).hostTask ≠ none) (ht : (w.scope c).tasks ≠ [])
    (hdeadline : (w.scope c).deadline = some deadline) (hpassed : deadline ≤ w.now) :
    handlesFor (w.timeout c).callbacks c ≠ [] ∧
      ((w.timeout c).scope c).cancelCalled = true := by
  have hlinks : SameLinks w ((w.dropTimer c).modify c fun s => { s with cancelCalled := true }) :=
    (dropTimer_links w c).trans (.modify _ c rfl)
  have hadds := deliver_adds (w := (w.dropTimer c).modify c fun s => { s with cancelCalled := true })
    (c := c) (by simp) (by rwa [hlinks.tasks])
  have hcancel : w.timeout c =
      ((w.dropTimer c).modify c fun s => { s with cancelCalled := true }).deliver c := by
    simp only [World.timeout, hdeadline, if_pos hpassed, World.cancel, hcalled, Bool.false_eq_true,
      if_false, hlinks.hostTask, ne_eq, hhost, not_false_eq_true, if_true]
  have htree := (deliver_delivered
    ((w.dropTimer c).modify c fun s => { s with cancelCalled := true }) c).cancelCalled c
  rw [hcancel]
  refine ⟨by simp [hadds], htree.trans (by simp)⟩

/-- A scope that is entered after its deadline or while its callback is queued delivers to its
host by two callbacks. -/
theorem activate_twice {host : τ} (one : OneLoop w) (hmem : host ∈ (w.scope c).tasks)
    (hhost : (w.scope c).hostTask = some host)
    (hnot : ¬ ((w.scope c).cancelHandle = none ∧
      ((w.scope c).cancelCalled = true ∨ ∀ d ∈ (w.scope c).deadline, w.now < d))) :
    2 ≤ (handlesFor (w.activate c host).callbacks c).length := by
  have ht : (w.scope c).tasks ≠ [] := List.ne_nil_of_mem hmem
  have htimed : handlesFor (w.timeout c).callbacks c ≠ [] ∧
      ((w.timeout c).scope c).cancelCalled = true := by
    cases hcalled : (w.scope c).cancelCalled with
    | true =>
        have hqueue : handlesFor w.callbacks c ≠ [] := by
          rw [one.queued, ne_eq, Option.toList_eq_nil_iff]
          intro hnone
          exact hnot ⟨hnone, .inl hcalled⟩
        unfold World.timeout
        split
        · exact ⟨hqueue, hcalled⟩
        · split_ifs
          · rw [World.cancel, if_pos hcalled]
            exact ⟨hqueue, hcalled⟩
          · exact ⟨hqueue, by simpa using hcalled⟩
    | false =>
        have hnone : (w.scope c).cancelHandle = none := by
          have hidle := one.idle hcalled
          rwa [one.queued, Option.toList_eq_nil_iff] at hidle
        have hdue : ¬ ∀ d ∈ (w.scope c).deadline, w.now < d := fun hdue =>
          hnot ⟨hnone, .inr hdue⟩
        push Not at hdue
        obtain ⟨deadline, hdeadline, hpassed⟩ := hdue
        exact timeout_adds hcalled (by simp [hhost]) ht hdeadline hpassed
  have hlinks := timeout_links w c
  have hopened := opened_loops (w.timeout c) c host
  have htasks : ((((w.timeout c).modify c fun s => { s with active := true }).recordCancelling c
      host).scope c).tasks ≠ [] := by
    unfold World.recordCancelling
    split_ifs <;> simpa [hlinks.tasks] using ht
  have hcalled := (hopened.cancelCalled c).trans htimed.2
  unfold World.activate
  dsimp only
  rw [if_pos hcalled, deliver_adds hcalled htasks, hopened.callbacks, List.length_append]
  have hpos := List.length_pos_iff.mpr htimed.1
  simp
  omega

/-- In every run in which no scope is entered after its deadline or while its callback is queued,
`_cancel_handle` is the only `_deliver_cancellation` callback of its scope. A task that enters a
scope otherwise leaves it with two. -/
theorem one_delivery_loop {minor : Nat}
    (run : (machine τ).Reachable Prompt (initial τ minor) w) :
    (∀ c, handlesFor w.callbacks c = (w.scope c).cancelHandle.toList) ∧
      ∀ c host w', w.current = some host → w.currentScope host ≠ some c →
        ¬ Prompt w (.enter c) → step w (.enter c) = some (w', .ok none) →
        2 ≤ (handlesFor w'.callbacks c).length := by
  have one : OneLoop w := run.invariant (initial_oneLoop τ minor) fun _ _ _ _ one ok h =>
    one.step ok h
  refine ⟨one.queued, fun c host w' hcur hscope hnot h => ?_⟩
  simp only [step, hcur, Option.some.injEq, Prod.mk.injEq] at h
  obtain ⟨rfl, hok⟩ := h
  obtain ⟨-, e, he⟩ | ⟨hinactive, mid, hmid, heq, hheld⟩ := enter_handles w c host
  · simp [he, Except.map] at hok
  · obtain ⟨hmem, hhost⟩ := hheld hscope
    rw [heq]
    apply activate_twice (one.keep hmid.sameLoops) hmem hhost
    rw [hmid.cancelHandle, hmid.cancelCalled, hmid.deadline, hmid.now]
    exact fun hprompt => hnot fun _ => hprompt

/-- A scope with a deadline in the future is entered and then cancelled. -/
def cancelledInside : World Unit :=
  ((machine Unit).exec Prompt (initial Unit 12) [.createTask (), .resume (),
    .setDeadline 0 (some 5), .enter 0, .cancel 0]).get (by decide)

theorem one_delivery_loop_cancelledInside :
    handlesFor cancelledInside.callbacks 0 = [1] ∧
      handlesFor cancelledInside.callbacks 0 = (cancelledInside.scope 0).cancelHandle.toList :=
  ⟨by decide, (one_delivery_loop (Machine.exec_get_reachable _ _ _)).1 0⟩

/-- A scope is entered when its deadline has passed. -/
def lateEntry : World Unit :=
  ((machine Unit).exec Machine.anyStep (initial Unit 12) [.createTask (), .resume (),
    .setDeadline 0 (some 0), .enter 0]).get (by decide)

/-- Its deadline and `__enter__()` both start a delivery. -/
theorem two_delivery_loops :
    (machine Unit).Reachable Machine.anyStep (initial Unit 12) lateEntry ∧
      handlesFor lateEntry.callbacks 0 = [0, 1] ∧ (lateEntry.scope 0).cancelHandle = some 1 :=
  ⟨Machine.exec_get_reachable _ _ _, by decide, by decide⟩

end Anyio.CancelScope
