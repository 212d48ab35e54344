import Anyio.CancelScope.Links

/-!
# Requests that a delivery makes

A delivery cancels a task only on behalf of a cancelled scope that the task is
in, with nothing in between that shields it, and only while the task waits for
something that has not come. What the scope asks of its own host task is
counted in `_cancel_calls`.
-/

namespace Anyio.CancelScope

open Asyncio Library

variable {τ : Type*}

/-- The loop `l'` differs from `l` by requests to cancel tasks only. -/
structure Requested (l l' : Loop τ Point) : Prop where
  point : ∀ t, l'.point t = l.point t
  nextFuture : l'.nextFuture = l.nextFuture
  done : ∀ f, l.future f ≠ .pending → l'.future f = l.future f
  mustCancel : ∀ t, (l.task t).mustCancel = true → (l'.task t).mustCancel = true
  grows : ∀ t, (l.task t).cancelling ≤ (l'.task t).cancelling

/-- What has to be true when a delivery of `origin` cancels task `t`, in terms of
the loop before and the tree after the step from `w` to `w'`. -/
structure Interrupts (w w' : World τ) (origin : ScopeId) (t : τ) : Prop where
  called : (w'.scope origin).cancelCalled = true
  below : ∃ x, t ∈ (w'.scope x).tasks ∧ Reaches w' origin x ∧
    ((w'.scope x).hostTask = some t ∨ Coroutine.started (w.loop.point t) = true)
  notCurrent : w.current ≠ some t
  waits : w.waiterDone t = false
  idle : (w.loop.task t).mustCancel = false

/-- Between `w` and `w'` tasks were cancelled on behalf of `origin` only. The
scope `opened` may have noted the count of its host, and the shield of the scope
`shielded` may have been set. -/
structure Charged (opened shielded : Option ScopeId) (origin : ScopeId) (w w' : World τ) :
    Prop where
  loop : Requested w.loop w'.loop
  current : w'.current = w.current
  hostTask : ∀ c, (w'.scope c).hostTask = (w.scope c).hostTask
  interrupts : ∀ t, (w'.loop.task t).cancelling ≠ (w.loop.task t).cancelling →
    Interrupts w w' origin t
  shared : ∀ t, (w.scope origin).hostTask = some t → w.loop.point t ≠ .finished →
    (w'.scope origin).cancelCalls + (w.loop.task t).cancelling =
      (w.scope origin).cancelCalls + (w'.loop.task t).cancelling
  calls : ∀ c, (w'.scope c).cancelCalls ≠ (w.scope c).cancelCalls →
    c = origin ∧ (w.scope c).hostTask ≠ none
  exits : ∀ c, opened ≠ some c → (w'.scope c).cancelling = (w.scope c).cancelling
  shield : ∀ c, shielded ≠ some c → (w'.scope c).shield = (w.scope c).shield
  caught : ∀ c, (w'.scope c).cancelledCaught = (w.scope c).cancelledCaught
  called : ∀ c, (w.scope c).cancelCalled = true → (w'.scope c).cancelCalled = true
  queued : ∀ e ∈ w'.callbacks, e ∈ w.callbacks ∨ (w'.scope e.2).cancelCalled = true
  pythonMinor : w'.pythonMinor = w.pythonMinor

variable {w w' w'' : World τ} {opened shielded : Option ScopeId} {origin self c x y : ScopeId}
  {t : τ}

namespace Requested

theorem refl (l : Loop τ Point) : Requested l l :=
  ⟨fun _ => rfl, rfl, fun _ _ => rfl, fun _ => id, fun _ => Nat.le_refl _⟩

theorem trans {l l' l'' : Loop τ Point} (h : Requested l l') (h' : Requested l' l'') :
    Requested l l'' where
  point t := (h'.point t).trans (h.point t)
  nextFuture := h'.nextFuture.trans h.nextFuture
  done f hf := (h'.done f (h.done f hf ▸ hf)).trans (h.done f hf)
  mustCancel t ht := h'.mustCancel t (h.mustCancel t ht)
  grows t := (h.grows t).trans (h'.grows t)

theorem cancel [DecidableEq τ] (l : Loop τ Point) (t : τ) : Requested l (l.cancel t) where
  point u := by simp
  nextFuture := by simp
  done f hf := Loop.cancel_future_of_done hf
  mustCancel u hu := by
    by_cases hut : u = t
    · subst hut
      unfold Loop.cancel
      split_ifs
      · exact hu
      · split
        · split_ifs <;> simp [hu]
        · simp
    · rwa [Loop.cancel_task_of_ne hut]
  grows u := by
    by_cases hut : u = t
    · subst hut
      by_cases hd : Coroutine.done (l.point u) = true
      · simp [Loop.cancel, hd]
      · rw [Loop.cancel_cancelling (by simpa using hd)]
        exact Nat.le_succ _
    · rw [Loop.cancel_task_of_ne hut]

end Requested

/-- A task that waits for something after more requests waited for it before. -/
theorem Requested.waiterDone (h : Requested w.loop w'.loop) (hd : w'.waiterDone t = false) :
    w.waiterDone t = false := by
  have hwaits : w'.loop.waits t = w.loop.waits t := by simp [Loop.waits, h.point]
  unfold World.waiterDone at hd ⊢
  rw [hwaits] at hd
  cases hw : w.loop.waits t with
  | future f =>
      simp only [hw, ne_eq, decide_not, Bool.not_eq_false', decide_eq_true_eq] at hd ⊢
      by_contra hf
      rw [h.done f hf] at hd
      exact hf hd
  | nothing => rfl
  | step => rfl

namespace Interrupts

/-- Calls that keep the way down to a task do not take an interruption back. -/
theorem congr (h : Interrupts w w' origin t)
    (hscope : ∀ d, (w''.scope d).cancelCalled = (w'.scope d).cancelCalled ∧
      (w''.scope d).shield = (w'.scope d).shield ∧
      (w''.scope d).childScopes = (w'.scope d).childScopes ∧
      (w''.scope d).tasks = (w'.scope d).tasks ∧ (w''.scope d).hostTask = (w'.scope d).hostTask) :
    Interrupts w w'' origin t where
  called := (hscope origin).1 ▸ h.called
  below := by
    obtain ⟨x, hmem, hreach, helig⟩ := h.below
    have hreaches : Reaches w'' = Reaches w' := by
      unfold Reaches
      simp only [hscope]
    refine ⟨x, ?_, hreaches ▸ hreach, ?_⟩
    · rwa [(hscope x).2.2.2.1]
    · rwa [(hscope x).2.2.2.2]
  notCurrent := h.notCurrent
  waits := h.waits
  idle := h.idle

theorem mono (h : Interrupts w w' origin t) (tree : SameTree w' w'') :
    Interrupts w w'' origin t :=
  h.congr fun d => ⟨tree.cancelCalled d, tree.shield d, tree.childScopes d, tree.tasks d,
    tree.hostTask d⟩

theorem earlier (h : Interrupts w' w'' origin t) (hl : Requested w.loop w'.loop)
    (hcur : w'.current = w.current) : Interrupts w w'' origin t where
  called := h.called
  below := hl.point t ▸ h.below
  notCurrent := hcur ▸ h.notCurrent
  waits := hl.waiterDone h.waits
  idle := by
    cases hm : (w.loop.task t).mustCancel with
    | false => rfl
    | true => rw [← hl.mustCancel t hm, h.idle]

end Interrupts

namespace Charged

/-- Changes that make no request. -/
theorem of_loop (origin : ScopeId) (hloop : w'.loop = w.loop) (hcurrent : w'.current = w.current)
    (hscope : ∀ c, (w'.scope c).hostTask = (w.scope c).hostTask ∧
      (w'.scope c).cancelCalls = (w.scope c).cancelCalls ∧
      (opened ≠ some c → (w'.scope c).cancelling = (w.scope c).cancelling) ∧
      (shielded ≠ some c → (w'.scope c).shield = (w.scope c).shield) ∧
      (w'.scope c).cancelledCaught = (w.scope c).cancelledCaught ∧
      ((w.scope c).cancelCalled = true → (w'.scope c).cancelCalled = true))
    (hqueued : ∀ e ∈ w'.callbacks, e ∈ w.callbacks ∨ (w'.scope e.2).cancelCalled = true)
    (hpython : w'.pythonMinor = w.pythonMinor) : Charged opened shielded origin w w' where
  loop := hloop ▸ .refl w.loop
  current := hcurrent
  hostTask c := (hscope c).1
  interrupts t ht := absurd (by rw [hloop]) ht
  shared t _ _ := by rw [(hscope origin).2.1, hloop]
  calls c hc := absurd (hscope c).2.1 hc
  exits c := (hscope c).2.2.1
  shield c := (hscope c).2.2.2.1
  caught c := (hscope c).2.2.2.2.1
  called c := (hscope c).2.2.2.2.2
  queued := hqueued
  pythonMinor := hpython

theorem refl (origin : ScopeId) (w : World τ) : Charged opened shielded origin w w :=
  of_loop origin rfl rfl (fun _ => ⟨rfl, rfl, fun _ => rfl, fun _ => rfl, rfl, id⟩)
    (fun _ => .inl) rfl

/-- Changing attributes of one scope that no request depends on. -/
theorem modify (origin : ScopeId) (w : World τ) (c : ScopeId) {f : Scope τ → Scope τ}
    (hhost : (f (w.scope c)).hostTask = (w.scope c).hostTask)
    (hcalls : (f (w.scope c)).cancelCalls = (w.scope c).cancelCalls)
    (hcancelling : opened ≠ some c → (f (w.scope c)).cancelling = (w.scope c).cancelling)
    (hshield : shielded ≠ some c → (f (w.scope c)).shield = (w.scope c).shield)
    (hcaught : (f (w.scope c)).cancelledCaught = (w.scope c).cancelledCaught)
    (hcalled : (w.scope c).cancelCalled = true → (f (w.scope c)).cancelCalled = true) :
    Charged opened shielded origin w (w.modify c f) := by
  refine of_loop origin rfl rfl (fun d => ?_) (fun _ => .inl) rfl
  by_cases hd : d = c
  · subst hd
    simpa using ⟨hhost, hcalls, hcancelling, hshield, hcaught, hcalled⟩
  · simp [hd]

/-- Two stages for one origin, of which the second keeps what allowed the requests
of the first, or the first makes no request. -/
theorem trans (h : Charged opened shielded origin w w') (h' : Charged opened shielded origin w' w'')
    (hkeep : (∀ t, Interrupts w w' origin t → Interrupts w w'' origin t) ∨ w'.loop = w.loop) :
    Charged opened shielded origin w w'' where
  loop := h.loop.trans h'.loop
  current := h'.current.trans h.current
  hostTask c := (h'.hostTask c).trans (h.hostTask c)
  interrupts t ht := by
    by_cases ht' : (w'.loop.task t).cancelling = (w.loop.task t).cancelling
    · exact (h'.interrupts t (ht' ▸ ht)).earlier h.loop h.current
    · rcases hkeep with hkeep | hloop
      · exact hkeep t (h.interrupts t ht')
      · exact absurd (by rw [hloop]) ht'
  shared t ht hp := by
    have h₁ := h.shared t ht hp
    have h₂ := h'.shared t ((h.hostTask origin).trans ht) (by rwa [h.loop.point])
    omega
  calls c hc := by
    by_cases hc' : (w'.scope c).cancelCalls = (w.scope c).cancelCalls
    · rw [← h.hostTask]
      exact h'.calls c (hc' ▸ hc)
    · exact h.calls c hc'
  exits c hc := (h'.exits c hc).trans (h.exits c hc)
  shield c hc := (h'.shield c hc).trans (h.shield c hc)
  caught c := (h'.caught c).trans (h.caught c)
  called c hc := h'.called c (h.called c hc)
  queued e he := by
    rcases h'.queued e he with he | he
    · exact (h.queued e he).imp_right (h'.called e.2)
    · exact .inr he
  pythonMinor := h'.pythonMinor.trans h.pythonMinor

end Charged

/-! ## Deliveries -/

theorem reschedule_charged (hcalled : (w.scope origin).cancelCalled = true) :
    Charged opened shielded origin w (w.reschedule origin) := by
  refine .of_loop origin rfl rfl (fun c => ?_) (fun e he => ?_) rfl
  · by_cases hc : c = origin <;> simp [World.reschedule, World.modify, hc]
  · rcases List.mem_append.mp he with he | he
    · exact .inl he
    · rw [List.mem_singleton.mp he]
      exact .inr (by simpa [World.reschedule, World.modify] using hcalled)

theorem scheduleAnother_charged {r : World τ × Bool}
    (hcalled : (r.1.scope origin).cancelCalled = true) :
    Charged opened shielded origin r.1 (World.scheduleAnother self origin r).1 := by
  unfold World.scheduleAnother
  split_ifs
  · exact reschedule_charged hcalled
  · exact .modify origin r.1 origin (f := fun s => { s with cancelHandle := none })
      rfl rfl (fun _ => rfl) (fun _ => rfl) rfl id
  · exact .refl origin r.1

variable [DecidableEq τ]

/-- The state in which `origin` has cancelled task `t`. -/
def World.interrupt (w : World τ) (origin : ScopeId) (t : τ) : World τ :=
  { w.modify origin fun s =>
      { s with cancelCalls := s.cancelCalls + if s.hostTask = some t then 1 else 0 } with
    loop := w.loop.cancel t }

theorem deliverTo_cases (w : World τ) (self origin : ScopeId) (t : τ) :
    w.deliverTo self origin t = w ∨
      ((w.loop.task t).mustCancel = false ∧ w.current ≠ some t ∧
        ((w.scope self).hostTask = some t ∨ Coroutine.started (w.loop.point t) = true) ∧
        w.waiterDone t = false) ∧ w.deliverTo self origin t = w.interrupt origin t := by
  unfold World.deliverTo
  split_ifs with hm hguard hhost
  · exact .inl rfl
  · refine .inr ⟨⟨Bool.not_eq_true _ ▸ hm, hguard⟩, ?_⟩
    have hhost' : (w.scope origin).hostTask = some t := hhost
    simp [World.interrupt, World.modify, hhost']
  · refine .inr ⟨⟨Bool.not_eq_true _ ▸ hm, hguard⟩, ?_⟩
    have hhost' : (w.scope origin).hostTask ≠ some t := hhost
    simp [World.interrupt, World.modify, hhost']
  · exact .inl rfl

theorem interrupt_scope (w : World τ) (origin : ScopeId) (t : τ) (c : ScopeId) :
    (w.interrupt origin t).scope c = { w.scope c with
      cancelCalls := (w.scope c).cancelCalls +
        if c = origin ∧ (w.scope c).hostTask = some t then 1 else 0 } := by
  by_cases hc : c = origin <;> simp [World.interrupt, hc]

/-- One task in a scope that the delivery of `origin` got to. -/
theorem deliverTo_charged (hcalled : (w.scope origin).cancelCalled = true)
    (hreach : Reaches w origin self) (ht : t ∈ (w.scope self).tasks) :
    Charged opened shielded origin w (w.deliverTo self origin t) := by
  rcases deliverTo_cases w self origin t with heq | ⟨⟨hm, hcur, helig, hwaits⟩, heq⟩
  · rw [heq]
    exact .refl origin w
  · have htree := (deliverTo_delivered self origin w t).toSameTree
    rw [heq] at htree ⊢
    constructor
    case loop => exact .cancel w.loop t
    case current => rfl
    case hostTask => exact htree.hostTask
    case interrupts =>
      intro u hu
      obtain rfl : u = t := by
        by_contra hut
        exact hu (by simp [World.interrupt, hut])
      have now : Interrupts w w origin u := ⟨hcalled, ⟨self, ht, hreach, helig⟩, hcur, hwaits, hm⟩
      exact now.mono htree
    case shared =>
      intro u hu hp
      rw [interrupt_scope]
      by_cases hut : u = t
      · subst hut
        have hd := w.loop.cancel_cancelling (done_eq_false hp)
        simp only [World.interrupt, hd, hu, and_self, if_true]
        omega
      · have hne : (w.scope origin).hostTask ≠ some t := fun hhost =>
          hut (Option.some.inj (hu.symm.trans hhost))
        simp [World.interrupt, hut, hne]
    case calls =>
      intro c hc
      rw [interrupt_scope] at hc
      by_cases h : c = origin ∧ (w.scope c).hostTask = some t
      · exact ⟨h.1, by simp [h.2]⟩
      · simp [h] at hc
    case exits =>
      intro c
      rw [interrupt_scope]
      exact fun _ => rfl
    case shield =>
      intro c
      rw [interrupt_scope]
      exact fun _ => rfl
    case caught =>
      intro c
      rw [interrupt_scope]
    case called =>
      intro c hc
      rwa [interrupt_scope]
    case queued => exact fun e => .inl
    case pythonMinor => rfl

/-- A delivery of `origin` to a scope that it gets to. -/
theorem deliverCancellation_charged (n : Nat) (hcalled : (w.scope origin).cancelCalled = true)
    (hreach : Reaches w origin self) :
    Charged opened shielded origin w (w.deliverCancellation n self origin).1 := by
  induction n generalizing w self with
  | zero => exact .refl origin w
  | succ n ih =>
      have extend : ∀ {v v' : World τ}, Charged opened shielded origin w v → Delivered origin w v →
          Charged opened shielded origin v v' → Delivered origin v v' →
          Charged opened shielded origin w v' ∧ Delivered origin w v' := by
        intro v v' hc hd hc' hd'
        exact ⟨hc.trans hc' (.inl fun t h => h.mono hd'.toSameTree), hd.trans hd'⟩
      have direct :
          Charged opened shielded origin w
            ((w.scope self).tasks.foldl (World.deliverTo self origin) w) ∧
          Delivered origin w ((w.scope self).tasks.foldl (World.deliverTo self origin) w) := by
        refine List.foldlRecOn
          (motive := fun v => Charged opened shielded origin w v ∧ Delivered origin w v) _ _
          ⟨.refl origin w, .refl origin w⟩ fun v hv t ht => ?_
        refine extend hv.1 hv.2 (deliverTo_charged ?_ ?_ ?_) (deliverTo_delivered self origin v t)
        · rwa [hv.2.cancelCalled]
        · rwa [hv.2.reaches]
        · rwa [hv.2.tasks]
      have all := List.foldlRecOn
        (motive := fun r : World τ × Bool =>
          Charged opened shielded origin w r.1 ∧ Delivered origin w r.1)
        (w.scope self).childScopes
        (World.deliverToChild fun w child => World.deliverCancellation n w child origin)
        (b := ((w.scope self).tasks.foldl (World.deliverTo self origin) w,
          !(w.scope self).tasks.isEmpty)) direct fun r hr y hy => by
          refine extend hr.1 hr.2 ?_ (deliverToChild_delivered
            (fun w c => deliverCancellation_delivered n w c origin) r y)
          unfold World.deliverToChild
          split_ifs with hpass
          · exact .refl origin r.1
          · apply ih
            · rwa [hr.2.cancelCalled]
            · rw [hr.2.reaches]
              refine hreach.tail ⟨hy, ?_⟩
              have hpass' := Bool.eq_false_iff.mpr hpass
              rwa [hr.2.shield, hr.2.cancelCalled] at hpass'
      refine (extend all.1 all.2 (scheduleAnother_charged ?_)
        (scheduleAnother_delivered self origin _)).1
      rwa [all.2.cancelCalled]

theorem deliver_charged (hcalled : (w.scope c).cancelCalled = true) :
    Charged opened shielded c w (w.deliver c) :=
  deliverCancellation_charged _ hcalled .refl

theorem Charged.deliver (h : Charged opened shielded c w w')
    (hcalled : (w'.scope c).cancelCalled = true) :
    Charged opened shielded c w (w'.deliver c) :=
  h.trans (deliver_charged hcalled) (.inl fun _ h => h.mono (deliver_delivered w' c).toSameTree)

/-! ## Calls that deliver -/

theorem cancel_charged (w : World τ) (c : ScopeId) : Charged opened shielded c w (w.cancel c) := by
  have hset : Charged opened shielded c w
      ((w.dropTimer c).modify c fun s => { s with cancelCalled := true }) := by
    obtain ⟨timers, heq⟩ := dropTimer_eq w c
    rw [heq]
    refine .of_loop c rfl rfl (fun d => ?_) (fun _ => .inl) rfl
    by_cases hd : d = c <;> simp [World.modify, hd]
  unfold World.cancel
  simp only
  split_ifs
  · exact .refl c w
  · exact hset.deliver (by simp)
  · exact hset

theorem timeout_charged (w : World τ) (c : ScopeId) :
    Charged opened shielded c w (w.timeout c) := by
  unfold World.timeout
  cases (w.scope c).deadline with
  | none => exact .refl c w
  | some deadline =>
      simp only
      split_ifs
      · exact cancel_charged w c
      · refine .of_loop c rfl rfl (fun d => ?_) (fun _ => .inl) rfl
        by_cases hd : d = c <;> simp [World.modify, hd]

theorem setDeadline_charged (w : World τ) (c : ScopeId) (value : Option Int) :
    Charged opened shielded c w (w.setDeadline c value) := by
  have hset : Charged opened shielded c w
      ((w.modify c fun s => { s with deadline := value }).dropTimer c) := by
    obtain ⟨timers, heq⟩ := dropTimer_eq (w.modify c fun s => { s with deadline := value }) c
    rw [heq]
    refine .of_loop c rfl rfl (fun d => ?_) (fun _ => .inl) rfl
    by_cases hd : d = c <;> simp [World.modify, hd]
  have hloop : ((w.modify c fun s => { s with deadline := value }).dropTimer c).loop = w.loop := by
    obtain ⟨timers, heq⟩ := dropTimer_eq (w.modify c fun s => { s with deadline := value }) c
    rw [heq]
    rfl
  unfold World.setDeadline
  simp only
  split_ifs
  · exact hset.trans (timeout_charged _ c) (.inr hloop)
  · exact hset

/-- The delivery restarted by a scope is one of the closest cancelled scope above it. -/
theorem restart_charged (w : World τ) (c : ScopeId) :
    ∃ origin, Charged opened shielded origin w (w.restartCancellationInParent c) ∧
      (w.nearestCancelled (w.scope c).parentScope = some origin ∨
        (w.restartCancellationInParent c).loop = w.loop) := by
  unfold World.restartCancellationInParent
  cases hn : w.nearestCancelled (w.scope c).parentScope with
  | none => exact ⟨c, .refl c w, .inr rfl⟩
  | some origin =>
      obtain ⟨p, -, hnear⟩ := nearest_sound hn
      refine ⟨origin, ?_, .inl rfl⟩
      simp only
      split_ifs
      · exact deliver_charged hnear.hit_of
      · exact .refl origin w

theorem setShield_charged (w : World τ) (c : ScopeId) (value : Bool) :
    ∃ origin, Charged opened (some c) origin w (w.setShield c value) ∧
      ((w.modify c fun s => { s with shield := value }).nearestCancelled
          (w.scope c).parentScope = some origin ∨
        (w.setShield c value).loop = w.loop) := by
  have hset : ∀ origin, Charged opened (some c) origin w
      (w.modify c fun s => { s with shield := value }) := fun origin =>
    .modify origin w c rfl rfl (fun _ => rfl) (fun h => absurd rfl h) rfl id
  unfold World.setShield
  simp only
  split_ifs
  · exact ⟨c, .refl c w, .inr rfl⟩
  · exact ⟨c, hset c, .inr rfl⟩
  · obtain ⟨origin, h, horigin⟩ : ∃ origin, Charged opened (some c) origin _ _ ∧ _ :=
      restart_charged (w.modify c fun s => { s with shield := value }) c
    rw [World.modify_scope, if_pos rfl] at horigin
    exact ⟨origin, (hset origin).trans h (.inr rfl), horigin⟩

omit [DecidableEq τ] in
/-- `__enter__()` after `self._timeout()`, up to the delivery. -/
theorem opened_scope (w : World τ) (c : ScopeId) (host : τ) (d : ScopeId) :
    ((w.modify c fun s => { s with active := true }).recordCancelling c host).scope d =
      { w.scope d with
        active := if d = c then true else (w.scope d).active
        cancelling := if d = c ∧ 11 ≤ w.pythonMinor then some (w.loop.task host).cancelling
          else (w.scope d).cancelling } := by
  unfold World.recordCancelling
  by_cases hd : d = c <;> by_cases hp : 11 ≤ w.pythonMinor <;>
    simp [World.modify, hd, hp]

omit [DecidableEq τ] in
theorem recordCancelling_loop (w : World τ) (c : ScopeId) (host : τ) :
    (w.recordCancelling c host).loop = w.loop ∧ (w.recordCancelling c host).current = w.current ∧
      (w.recordCancelling c host).callbacks = w.callbacks ∧
      (w.recordCancelling c host).pythonMinor = w.pythonMinor := by
  unfold World.recordCancelling
  split_ifs <;> exact ⟨rfl, rfl, rfl, rfl⟩

/-- Activating a scope delivers for that scope only. -/
theorem activate_charged (w : World τ) (c : ScopeId) (host : τ) :
    Charged (some c) shielded c w (w.activate c host) := by
  have hscope := opened_scope (w.timeout c) c host
  obtain ⟨hloop, hcurrent, hcallbacks, hpython⟩ :=
    recordCancelling_loop ((w.timeout c).modify c fun s => { s with active := true }) c host
  have hopened : Charged (some c) shielded c w (((w.timeout c).modify c fun s =>
      { s with active := true }).recordCancelling c host) := by
    refine (timeout_charged w c).trans (.of_loop c hloop hcurrent (fun d => ?_) (fun e he => ?_)
      hpython) (.inl fun t h => h.congr fun d => ?_)
    · rw [hscope]
      refine ⟨rfl, rfl, fun hd => ?_, fun _ => rfl, rfl, id⟩
      have hdc : d ≠ c := fun h => hd (h ▸ rfl)
      simp [hdc]
    · rw [hcallbacks] at he
      exact .inl he
    · rw [hscope]
      exact ⟨rfl, rfl, rfl, rfl, rfl⟩
  unfold World.activate
  simp only
  split_ifs with hcalled
  · exact hopened.deliver hcalled
  · exact hopened

/-- The count of the host when a scope is activated is kept for its exit. -/
theorem activate_cancelling (w : World τ) (c : ScopeId) (host : τ) (hp : 11 ≤ w.pythonMinor)
    (hcur : w.current = some host) :
    ((w.activate c host).scope c).cancelling = some (w.loop.task host).cancelling := by
  have htimed : Charged none none c w (w.timeout c) := timeout_charged w c
  have hhost : ((w.timeout c).loop.task host).cancelling = (w.loop.task host).cancelling := by
    by_contra hne
    exact (htimed.interrupts host hne).notCurrent hcur
  have hopened : ((((w.timeout c).modify c fun s => { s with active := true }).recordCancelling c
      host).scope c).cancelling = some (w.loop.task host).cancelling := by
    rw [opened_scope]
    simp [htimed.pythonMinor, hp, hhost]
  unfold World.activate
  simp only
  split_ifs with hcalled
  · have hd : Charged none none c _ _ := deliver_charged hcalled
    rw [hd.exits c (by simp)]
    exact hopened
  · exact hopened

/-! ## The end of an exit -/

/-- What `__exit__()` of `c` writes before it restarts the delivery in its parent. -/
structure Undone (w : World τ) (c : ScopeId) (host : τ) (w' : World τ) : Prop where
  scope : ∃ calls caught, ∀ d, w'.scope d = { w.scope d with
    cancelCalls := if d = c then calls else (w.scope d).cancelCalls
    cancelledCaught := if d = c then caught else (w.scope d).cancelledCaught }
  others : ∀ u, u ≠ host → w'.loop.task u = w.loop.task u
  falls : (w'.loop.task host).cancelling ≤ (w.loop.task host).cancelling
  point : ∀ u, w'.loop.point u = w.loop.point u
  future : w'.loop.future = w.loop.future ∧ w'.loop.nextFuture = w.loop.nextFuture
  entered : w'.entered = w.entered
  current : w'.current = w.current
  callbacks : w'.callbacks = w.callbacks
  pythonMinor : w'.pythonMinor = w.pythonMinor

omit [DecidableEq τ] in
theorem Undone.refl (w : World τ) (c : ScopeId) (host : τ) : Undone w c host w where
  scope := ⟨(w.scope c).cancelCalls, (w.scope c).cancelledCaught, fun d => by
    by_cases hd : d = c
    · subst hd
      simp
    · simp [hd]⟩
  others _ _ := rfl
  falls := Nat.le_refl _
  point _ := rfl
  future := ⟨rfl, rfl⟩
  entered := rfl
  current := rfl
  callbacks := rfl
  pythonMinor := rfl

omit [DecidableEq τ] in
theorem Undone.trans {host : τ} (h : Undone w c host w') (h' : Undone w' c host w'') :
    Undone w c host w'' where
  scope := by
    obtain ⟨_, _, h₁⟩ := h.scope
    obtain ⟨calls, caught, h₂⟩ := h'.scope
    refine ⟨calls, caught, fun d => ?_⟩
    rw [h₂, h₁]
    by_cases hd : d = c <;> simp [hd]
  others u hu := (h'.others u hu).trans (h.others u hu)
  falls := h'.falls.trans h.falls
  point u := (h'.point u).trans (h.point u)
  future := ⟨h'.future.1.trans h.future.1, h'.future.2.trans h.future.2⟩
  entered := h'.entered.trans h.entered
  current := h'.current.trans h.current
  callbacks := h'.callbacks.trans h.callbacks
  pythonMinor := h'.pythonMinor.trans h.pythonMinor

/-- One round of the loop that undoes the cancellations. -/
theorem uncancelOnce_undone (w : World τ) (c : ScopeId) (host : τ) (n : Nat) :
    Undone w c host { w.modify c fun s => { s with cancelCalls := n } with
      loop := w.loop.uncancel host (13 ≤ w.pythonMinor) } where
  scope := ⟨n, (w.scope c).cancelledCaught, fun d => by
    by_cases hd : d = c <;> simp [hd]⟩
  others u hu := by simp [Loop.uncancel, hu]
  falls := by simp [Loop.uncancel]
  point u := by simp
  future := ⟨rfl, rfl⟩
  entered := rfl
  current := rfl
  callbacks := rfl
  pythonMinor := rfl

theorem uncancelHost_undone (c : ScopeId) (host : τ) (limit n : Nat) (w : World τ) :
    Undone w c host (World.uncancelHost c host limit n w) := by
  induction n generalizing w with
  | zero => exact .refl w c host
  | succ n ih =>
      have hstep := uncancelOnce_undone w c host n
      unfold World.uncancelHost
      simp only
      split_ifs
      · exact hstep
      · exact hstep.trans (ih _)

omit [DecidableEq τ] in
theorem caught_undone (w : World τ) (c : ScopeId) (host : τ) (b : Bool) :
    Undone w c host (w.modify c fun s => { s with cancelledCaught := b }) where
  scope := ⟨(w.scope c).cancelCalls, b, fun d => by
    by_cases hd : d = c <;> simp [hd]⟩
  others _ _ := rfl
  falls := Nat.le_refl _
  point _ := rfl
  future := ⟨rfl, rfl⟩
  entered := rfl
  current := rfl
  callbacks := rfl
  pythonMinor := rfl

omit [DecidableEq τ] in
theorem uncancel_undone (w : World τ) (c : ScopeId) (host : τ) (messages : List (Option String)) :
    Undone w c host (w.uncancel c messages).1 := by
  induction messages with
  | nil => exact .refl w c host
  | cons message contexts ih =>
      unfold World.uncancel
      simp only
      split_ifs
      · exact caught_undone w c host _
      · exact ih

omit [DecidableEq τ] in
theorem swallow_undone (c : ScopeId) (host : τ) (excs : List Exc) (w : World τ)
    (swallowed rest : Bool) : Undone w c host (World.swallow c excs w swallowed rest).1 := by
  induction excs generalizing w swallowed rest with
  | nil => exact .refl w c host
  | cons exc excs ih =>
      cases exc with
      | cancelled message contexts =>
          unfold World.swallow
          simp only
          split_ifs
          · exact (uncancel_undone w c host (message :: contexts)).trans (ih _ _ _)
          · exact ih _ _ _
      | other => exact ih _ _ _
      | group _ => exact ih _ _ _

omit [DecidableEq τ] in
theorem uncancel_loop (w : World τ) (c : ScopeId) (messages : List (Option String)) :
    (w.uncancel c messages).1.loop = w.loop := by
  induction messages with
  | nil => rfl
  | cons message contexts ih =>
      unfold World.uncancel
      simp only
      split_ifs
      · rfl
      · exact ih

omit [DecidableEq τ] in
theorem swallow_loop (c : ScopeId) (excs : List Exc) (w : World τ) (swallowed rest : Bool) :
    (World.swallow c excs w swallowed rest).1.loop = w.loop := by
  induction excs generalizing w swallowed rest with
  | nil => rfl
  | cons exc excs ih =>
      cases exc with
      | cancelled message contexts =>
          unfold World.swallow
          simp only
          split_ifs
          · exact (ih _ _ _).trans (uncancel_loop w c (message :: contexts))
          · exact ih _ _ _
      | other => exact ih _ _ _
      | group _ => exact ih _ _ _

/-- The two stages of the end of an exit. -/
theorem conclude_stages (w : World τ) (c : ScopeId) (host : τ) (exc : Option Exc) :
    ∃ undone restarted origin, Undone w c host undone ∧ Charged none none origin undone restarted ∧
      SameTree undone restarted ∧ undone.loop = (w.undoCancellations c host).loop ∧
      (undone.nearestCancelled (undone.scope c).parentScope = some origin ∨
        restarted.loop = undone.loop) ∧
      (w.conclude c host exc).1 = restarted.modify c fun s => { s with hostTask := none } := by
  let excs := (exc.map iterateExceptions).getD []
  let undone := (World.swallow c excs (w.undoCancellations c host) false false).1
  have hundone : Undone w c host undone := by
    refine Undone.trans ?_ (swallow_undone c host excs _ false false)
    unfold World.undoCancellations
    cases (w.scope c).cancelling with
    | none => exact .refl w c host
    | some limit => exact uncancelHost_undone c host limit _ w
  obtain ⟨origin, hcharged, horigin⟩ : ∃ origin, Charged none none origin _ _ ∧ _ :=
    restart_charged undone c
  exact ⟨undone, _, origin, hundone, hcharged, restart_tree undone c,
    swallow_loop c excs _ false false, horigin, rfl⟩

end Anyio.CancelScope
