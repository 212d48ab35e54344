import Anyio.CancelScope.Tree

/-!
# The handles of a scope

`_timeout_handle` and `_cancel_handle`, and the timers and callbacks of the
loop that they stand for. Most of what a call does leaves them alone, and this
needs no assumption on how the scopes are used: a delivery passes over every
scope that is cancelled, its own origin included.
-/

namespace Anyio.CancelScope

open Asyncio Library

variable {τ : Type*}

/-- The handles in a queue of the loop that are for the scope `c`. -/
def handlesFor (queue : List (HandleId × ScopeId)) (c : ScopeId) : List HandleId :=
  (queue.filter fun e => e.2 = c).map Prod.fst

section Queue
variable {queue : List (HandleId × ScopeId)} {c d : ScopeId} {h : HandleId}

@[simp] theorem mem_handlesFor : h ∈ handlesFor queue c ↔ (h, c) ∈ queue := by
  simp [handlesFor]

@[simp] theorem handlesFor_nil : handlesFor [] c = [] := rfl

@[simp] theorem handlesFor_append (queue' : List (HandleId × ScopeId)) :
    handlesFor (queue ++ queue') c = handlesFor queue c ++ handlesFor queue' c := by
  simp [handlesFor]

theorem handlesFor_cons (e : HandleId × ScopeId) :
    handlesFor (e :: queue) c =
      if e.2 = c then e.1 :: handlesFor queue c else handlesFor queue c := by
  by_cases he : e.2 = c <;> simp [handlesFor, he]

@[simp] theorem handlesFor_singleton : handlesFor [(h, d)] c = if d = c then [h] else [] := by
  simp [handlesFor_cons]

theorem handlesFor_erase_self (h : HandleId) (c : ScopeId) :
    handlesFor (queue.erase (h, c)) c = (handlesFor queue c).erase h := by
  induction queue with
  | nil => rfl
  | cons e rest ih =>
      cases eq_or_ne e (h, c) with
      | inl he => simp [he, handlesFor_cons]
      | inr he =>
          rw [List.erase_cons_tail (by simpa using he), handlesFor_cons, handlesFor_cons, ih]
          split_ifs with hc
          · rw [List.erase_cons_tail]
            intro hh
            exact he (Prod.ext (eq_of_beq hh) hc)
          · rfl

theorem handlesFor_erase_of_ne (h : HandleId) (hd : d ≠ c) :
    handlesFor (queue.erase (h, c)) d = handlesFor queue d := by
  induction queue with
  | nil => rfl
  | cons e rest ih =>
      cases eq_or_ne e (h, c) with
      | inl he => simp [he, handlesFor_cons, hd.symm]
      | inr he => rw [List.erase_cons_tail (by simpa using he), handlesFor_cons, handlesFor_cons, ih]

end Queue

/-- A scope without what no handle depends on. -/
def Scope.handles (s : Scope τ) : Scope τ :=
  { s with
    shield := false
    parentScope := none
    childScopes := []
    cancelledCaught := false
    tasks := []
    hostTask := none
    cancelCalls := 0
    cancelling := none }

/-- The two states have the same handles, and the same timers and callbacks. -/
structure SameHandles (w w' : World τ) : Prop where
  scope : ∀ c, (w'.scope c).handles = (w.scope c).handles
  callbacks : w'.callbacks = w.callbacks
  timers : w'.timers = w.timers
  timerWhen : w'.timerWhen = w.timerWhen
  nextHandle : w'.nextHandle = w.nextHandle
  now : w'.now = w.now

variable {w w' w'' : World τ} {self origin c : ScopeId}

@[simp] theorem World.modify_callbacks (w : World τ) (c : ScopeId) (f : Scope τ → Scope τ) :
    (w.modify c f).callbacks = w.callbacks := rfl

@[simp] theorem World.modify_timers (w : World τ) (c : ScopeId) (f : Scope τ → Scope τ) :
    (w.modify c f).timers = w.timers := rfl

@[simp] theorem World.modify_timerWhen (w : World τ) (c : ScopeId) (f : Scope τ → Scope τ) :
    (w.modify c f).timerWhen = w.timerWhen := rfl

namespace SameHandles

theorem refl (w : World τ) : SameHandles w w := ⟨fun _ => rfl, rfl, rfl, rfl, rfl, rfl⟩

theorem trans (h : SameHandles w w') (h' : SameHandles w' w'') : SameHandles w w'' where
  scope c := (h'.scope c).trans (h.scope c)
  callbacks := h'.callbacks.trans h.callbacks
  timers := h'.timers.trans h.timers
  timerWhen := h'.timerWhen.trans h.timerWhen
  nextHandle := h'.nextHandle.trans h.nextHandle
  now := h'.now.trans h.now

theorem modify (w : World τ) (c : ScopeId) {f : Scope τ → Scope τ}
    (hf : (f (w.scope c)).handles = (w.scope c).handles) : SameHandles w (w.modify c f) where
  scope d := by
    cases eq_or_ne d c with
    | inl hd => simp [hd, hf]
    | inr hd => simp [hd]
  callbacks := rfl
  timers := rfl
  timerWhen := rfl
  nextHandle := rfl
  now := rfl

/-- What is neither a handle nor one of the queues may change. -/
theorem of_scope (hscope : w'.scope = w.scope) (hcallbacks : w'.callbacks = w.callbacks)
    (htimers : w'.timers = w.timers) (hwhen : w'.timerWhen = w.timerWhen)
    (hnext : w'.nextHandle = w.nextHandle) (hnow : w'.now = w.now) : SameHandles w w' :=
  ⟨fun c => by rw [hscope], hcallbacks, htimers, hwhen, hnext, hnow⟩

theorem deadline (h : SameHandles w w') (c : ScopeId) :
    (w'.scope c).deadline = (w.scope c).deadline := by
  simpa only [Scope.handles] using congrArg Scope.deadline (h.scope c)

theorem active (h : SameHandles w w') (c : ScopeId) :
    (w'.scope c).active = (w.scope c).active := by
  simpa only [Scope.handles] using congrArg Scope.active (h.scope c)

theorem cancelCalled (h : SameHandles w w') (c : ScopeId) :
    (w'.scope c).cancelCalled = (w.scope c).cancelCalled := by
  simpa only [Scope.handles] using congrArg Scope.cancelCalled (h.scope c)

theorem cancelHandle (h : SameHandles w w') (c : ScopeId) :
    (w'.scope c).cancelHandle = (w.scope c).cancelHandle := by
  simpa only [Scope.handles] using congrArg Scope.cancelHandle (h.scope c)

end SameHandles

/-! ## Deliveries -/

variable [DecidableEq τ]

theorem deliverTo_handles (self origin : ScopeId) (w : World τ) (t : τ) :
    SameHandles w (w.deliverTo self origin t) := by
  unfold World.deliverTo
  split_ifs
  · exact .refl w
  · have hcancel : SameHandles w { w with loop := w.loop.cancel t } :=
      .of_scope rfl rfl rfl rfl rfl rfl
    exact hcancel.trans (.modify _ origin rfl)
  · exact .of_scope rfl rfl rfl rfl rfl rfl
  · exact .refl w

theorem tasks_handles (self origin : ScopeId) (w : World τ) (tasks : List τ) :
    SameHandles w (tasks.foldl (World.deliverTo self origin) w) :=
  List.foldlRecOn tasks _ (.refl w) fun w' hw t _ =>
    hw.trans (deliverTo_handles self origin w' t)

omit [DecidableEq τ] in
/-- The children that a delivery gets to are not cancelled, so none of them is its origin. -/
theorem children_handles {go : World τ → ScopeId → World τ × Bool}
    (hgo : ∀ w d, (w.scope origin).cancelCalled = true → d ≠ origin → SameHandles w (go w d).1)
    {r : World τ × Bool} (hcalled : (r.1.scope origin).cancelCalled = true) (l : List ScopeId) :
    SameHandles r.1 (l.foldl (World.deliverToChild go) r).1 := by
  refine List.foldlRecOn (motive := fun s : World τ × Bool => SameHandles r.1 s.1) l _
    (.refl r.1) ?_
  intro s hs d _
  apply hs.trans
  have hcalled' : (s.1.scope origin).cancelCalled = true := (hs.cancelCalled origin).trans hcalled
  unfold World.deliverToChild
  split_ifs with hpass
  · exact .refl s.1
  · apply hgo s.1 d hcalled'
    rintro rfl
    simp [hcalled'] at hpass

/-- Below its origin a delivery only cancels tasks. -/
theorem deliverCancellation_handles (n : Nat) (hcalled : (w.scope origin).cancelCalled = true)
    (hself : self ≠ origin) : SameHandles w (w.deliverCancellation n self origin).1 := by
  induction n generalizing w self with
  | zero => exact .refl w
  | succ n ih =>
      have hdirect := tasks_handles self origin w (w.scope self).tasks
      have hall := children_handles (fun w d hw hd => ih hw hd)
        (r := ((w.scope self).tasks.foldl (World.deliverTo self origin) w,
          !(w.scope self).tasks.isEmpty))
        ((hdirect.cancelCalled origin).trans hcalled) (w.scope self).childScopes
      rw [World.deliverCancellation, World.scheduleAnother, if_neg hself.symm]
      exact hdirect.trans hall

omit [DecidableEq τ] in
theorem children_retry {go : World τ → ScopeId → World τ × Bool} {r : World τ × Bool}
    (hr : r.2 = true) (l : List ScopeId) : (l.foldl (World.deliverToChild go) r).2 = true := by
  induction l generalizing r with
  | nil => exact hr
  | cons d rest ih =>
      apply ih
      unfold World.deliverToChild
      split_ifs
      · exact hr
      · simp [hr]

/-- A delivery cancels tasks, and ends with one callback more for its origin or with none. -/
theorem deliver_cases (hcalled : (w.scope c).cancelCalled = true) :
    ∃ mid, SameHandles w mid ∧ (w.deliver c = mid.reschedule c ∨ (w.scope c).tasks = [] ∧
      w.deliver c = mid.modify c fun s => { s with cancelHandle := none }) := by
  have hdirect := tasks_handles c c w (w.scope c).tasks
  have hall := children_handles
    (fun v d hcalled => deliverCancellation_handles w.entered.length hcalled)
    (r := ((w.scope c).tasks.foldl (World.deliverTo c c) w, !(w.scope c).tasks.isEmpty))
    ((hdirect.cancelCalled c).trans hcalled) (w.scope c).childScopes
  rw [World.deliver, World.deliverCancellation, World.scheduleAnother, if_pos rfl]
  split_ifs with hretry
  · exact ⟨_, hdirect.trans hall, .inl rfl⟩
  · refine ⟨_, hdirect.trans hall, .inr ⟨?_, rfl⟩⟩
    by_contra hne
    exact hretry (children_retry (by simpa using hne) _)

theorem restart_cases (w : World τ) (c : ScopeId) :
    w.restartCancellationInParent c = w ∨ ∃ origin, (w.scope origin).cancelCalled = true ∧
      (w.scope origin).cancelHandle = none ∧ w.restartCancellationInParent c = w.deliver origin := by
  unfold World.restartCancellationInParent
  cases hnearest : w.nearestCancelled (w.scope c).parentScope with
  | none => exact .inl rfl
  | some origin =>
      obtain ⟨x, -, hnear⟩ := nearest_sound hnearest
      dsimp only
      split_ifs with hhandle
      · exact .inr ⟨origin, hnear.hit_of, hhandle, rfl⟩
      · exact .inl rfl

/-! ## Entering and leaving -/

theorem hold_handles (w : World τ) (c : ScopeId) (host : τ) : SameHandles w (w.hold c host) := by
  have hset := SameHandles.modify w c
    (f := fun s => { s with hostTask := some host, tasks := s.tasks.insert host }) rfl
  exact hset.trans (.of_scope rfl rfl rfl rfl rfl rfl)

/-- A scope that is not entered yet is activated with its host in it, or the call fails. -/
theorem enter_handles (w : World τ) (c : ScopeId) (host : τ) :
    SameHandles w (w.enter c host).1 ∧ (∃ e, (w.enter c host).2 = .error e) ∨
      (w.scope c).active = false ∧ ∃ mid, SameHandles w mid ∧
        (w.enter c host).1 = mid.activate c host ∧ (w.currentScope host ≠ some c →
          host ∈ (mid.scope c).tasks ∧ (mid.scope c).hostTask = some host) := by
  have hheld := hold_handles w c host
  unfold World.enter
  split_ifs with hactive
  · exact .inl ⟨.refl w, _, rfl⟩
  · have hinactive := Bool.eq_false_iff.mpr hactive
    split
    · exact .inr ⟨hinactive, _, hheld, rfl, fun _ => by simp [World.hold]⟩
    · exact .inr ⟨hinactive, _, hheld.trans (.modify _ c rfl), rfl, fun _ => by simp [World.hold]⟩
    · rename_i p hp
      have hlinked := (hheld.trans (.modify _ c (f := fun s => { s with parentScope := some p })
        rfl)).trans (.modify _ p (f := fun s => { s with childScopes := s.childScopes.insert c }) rfl)
      dsimp only
      split_ifs
      · refine .inr ⟨hinactive, _, hlinked.trans (.modify _ p rfl), rfl, fun hnot => ?_⟩
        have hpc : c ≠ p := by
          rintro rfl
          exact hnot (by rw [World.currentScope, hp, Option.join_some])
        simp [World.hold, hpc]
      · exact .inl ⟨hlinked, _, rfl⟩

theorem uncancelHost_handles (c : ScopeId) (host : τ) (cancelling n : Nat) (w : World τ) :
    SameHandles w (World.uncancelHost c host cancelling n w) := by
  induction n generalizing w with
  | zero => exact .refl w
  | succ n ih =>
      have hcount := SameHandles.modify w c (f := fun s => { s with cancelCalls := n }) rfl
      have huncancel : SameHandles w { w.modify c fun s => { s with cancelCalls := n } with
          loop := w.loop.uncancel host (13 ≤ w.pythonMinor) } :=
        hcount.trans (.of_scope rfl rfl rfl rfl rfl rfl)
      unfold World.uncancelHost
      dsimp only
      split_ifs
      · exact huncancel
      · exact huncancel.trans (ih _)

theorem undoCancellations_handles (w : World τ) (c : ScopeId) (host : τ) :
    SameHandles w (w.undoCancellations c host) := by
  unfold World.undoCancellations
  split
  · exact .refl w
  · exact uncancelHost_handles c host _ _ w

omit [DecidableEq τ] in
theorem uncancel_handles (w : World τ) (c : ScopeId) (messages : List (Option String)) :
    SameHandles w (w.uncancel c messages).1 := by
  induction messages with
  | nil => exact .refl w
  | cons message contexts ih =>
      unfold World.uncancel
      dsimp only
      split_ifs
      · exact .modify w c (f := fun s => { s with cancelledCaught := _ }) rfl
      · exact ih

omit [DecidableEq τ] in
theorem swallow_handles (c : ScopeId) (excs : List Exc) (w : World τ) (swallowed rest : Bool) :
    SameHandles w (World.swallow c excs w swallowed rest).1 := by
  induction excs generalizing w swallowed rest with
  | nil => exact .refl w
  | cons exc excs ih =>
      cases exc with
      | cancelled message contexts =>
          unfold World.swallow
          split_ifs
          · exact (uncancel_handles w c _).trans (ih _ _ _)
          · exact ih _ _ _
      | other => exact ih _ _ _
      | group exceptions => exact ih _ _ _

/-- The end of `__exit__()` restarts the cancellation in the parent and does nothing else. -/
theorem conclude_handles (h : SameHandles w w') (c : ScopeId) (host : τ) (exc : Option Exc) :
    ∃ mid, SameHandles w mid ∧ (SameHandles mid (w'.conclude c host exc).1 ∨
      SameHandles (mid.restartCancellationInParent c) (w'.conclude c host exc).1) := by
  have hundone := h.trans (undoCancellations_handles w' c host)
  have hswallowed := swallow_handles c ((exc.map iterateExceptions).getD [])
    (w'.undoCancellations c host) false false
  exact ⟨_, hundone.trans hswallowed,
    .inr (.modify _ c (f := fun s => { s with hostTask := none }) rfl)⟩

/-- A scope that is left is not active any more and has dropped its timer. -/
theorem exit_handles (w : World τ) (c : ScopeId) (host : τ) (exc : Option Exc) :
    (w.exit c host exc).1 = w ∧ (∃ e, (w.exit c host exc).2 = .error e) ∨ ∃ mid,
      SameHandles ((w.modify c fun s => { s with active := false }).dropTimer c) mid ∧
        (SameHandles mid (w.exit c host exc).1 ∨
          SameHandles (mid.restartCancellationInParent c) (w.exit c host exc).1) := by
  generalize hr : w.exit c host exc = r
  unfold World.exit at hr
  dsimp only at hr
  split_ifs at hr
  · rw [← hr]
    exact .inl ⟨rfl, _, rfl⟩
  · rw [← hr]
    exact .inl ⟨rfl, _, rfl⟩
  · rw [← hr]
    exact .inl ⟨rfl, _, rfl⟩
  · right
    have hleft := SameHandles.modify
      ((w.modify c fun s => { s with active := false }).dropTimer c) c
      (f := fun s => { s with tasks := s.tasks.erase host }) rfl
    split at hr
    · rw [← hr]
      apply conclude_handles
      exact hleft.trans (.of_scope rfl rfl rfl rfl rfl rfl)
    · rename_i p _
      split_ifs at hr
      · rw [← hr]
        have hparent := hleft.trans (.modify _ p (f := fun s => { s with
          childScopes := s.childScopes.erase c, tasks := s.tasks.insert host }) rfl)
        apply conclude_handles
        exact hparent.trans (.of_scope rfl rfl rfl rfl rfl rfl)
      · rw [← hr]
        exact ⟨_, hleft, .inl (.modify _ c (f := fun s => { s with hostTask := none }) rfl)⟩
  · rw [← hr]
    exact .inr ⟨_, .refl _, .inl (.modify _ c (f := fun s => { s with hostTask := none }) rfl)⟩

/-! ## Tasks -/

theorem spawn_handles (w : World τ) (c : ScopeId) (t : τ) : SameHandles w (w.spawn c t) := by
  have hset := SameHandles.modify w c (f := fun s => { s with tasks := s.tasks.insert t }) rfl
  exact hset.trans (.of_scope rfl rfl rfl rfl rfl rfl)

theorem taskWrapper_handles (w : World τ) (c : ScopeId) (t : τ) :
    SameHandles w (w.taskWrapper c t) := by
  have hset := SameHandles.modify w c (f := fun s => { s with tasks := s.tasks.insert t }) rfl
  exact hset.trans (.of_scope rfl rfl rfl rfl rfl rfl)

theorem finish_handles (w : World τ) (t : τ) : SameHandles w (w.finish t) := by
  unfold World.finish
  split
  · exact .of_scope rfl rfl rfl rfl rfl rfl
  · rename_i c _
    have hset := SameHandles.modify w c (f := fun s => { s with tasks := s.tasks.erase t }) rfl
    exact hset.trans (.of_scope rfl rfl rfl rfl rfl rfl)

theorem taskDone_handles (w : World τ) (t : τ) (group : ScopeId) :
    SameHandles w (w.taskDone t group).1 := by
  have hpopped : SameHandles w { w with doneCallbacks := w.doneCallbacks.erase (t, group) } :=
    .of_scope rfl rfl rfl rfl rfl rfl
  unfold World.taskDone
  split
  · exact hpopped
  · exact hpopped
  · rename_i c _
    have hset := hpopped.trans (.modify _ c (f := fun s => { s with tasks := s.tasks.erase t }) rfl)
    dsimp only
    split_ifs
    · exact hset.trans (.of_scope rfl rfl rfl rfl rfl rfl)
    · exact hset
    · exact hpopped

end Anyio.CancelScope
