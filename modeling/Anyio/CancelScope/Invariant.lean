import Anyio.CancelScope.Delivery

/-!
# The closest cancelled scope delivers

The delivery of a scope stops when it sees no task. Whatever brings a task into
its sight has to start it again. The invariant is stated up to scopes that
still owe a delivery, so that it can be followed through the middle of a call;
a delivery pays what its origin owes.
-/

namespace Anyio.CancelScope

open Asyncio Library

variable {τ : Type*}

/-- What shows that a scope delivers: its `_cancel_handle`, or a queued callback. -/
inductive Watch
  | handle
  | queue

def Live : Watch → World τ → ScopeId → Prop
  | .handle, w, c => (w.scope c).cancelHandle ≠ none
  | .queue, w, c => c ∈ w.callbacks.map Prod.snd

/-- The closest cancelled scope of a task that is listed in a scope delivers, exceptions aside. -/
def Level (k : Watch) (except : ScopeId → Prop) (w : World τ) : Prop :=
  ∀ t x c, t ∈ (w.scope x).tasks → Near w x c → Live k w c ∨ except c

structure Inv (k : Watch) (Opened except : ScopeId → Prop) (w : World τ) : Prop where
  linked : Linked w Opened
  queued : ∀ c h, (w.scope c).cancelHandle = some h → (h, c) ∈ w.callbacks
  level : Level k except w

/-- The tree, the handles and the queued callbacks are kept. -/
structure Quiet (w w' : World τ) : Prop extends SameTree w w' where
  handle : ∀ c, (w'.scope c).cancelHandle = (w.scope c).cancelHandle
  grows : ∀ e ∈ w.callbacks, e ∈ w'.callbacks

variable {w w' w'' : World τ} {k : Watch} {Opened except : ScopeId → Prop}
  {c d x : ScopeId} {t : τ}

theorem Live.of_handle (hq : ∀ h, (w.scope c).cancelHandle = some h → (h, c) ∈ w.callbacks)
    (hc : (w.scope c).cancelHandle ≠ none) : Live k w c := by
  cases k with
  | handle => exact hc
  | queue =>
      obtain ⟨h, hh⟩ := Option.ne_none_iff_exists'.mp hc
      exact List.mem_map_of_mem (f := Prod.snd) (hq h hh)

theorem Live.mono (hl : Live k w c)
    (hh : (w'.scope c).cancelHandle = (w.scope c).cancelHandle)
    (hg : ∀ e ∈ w.callbacks, e ∈ w'.callbacks) : Live k w' c := by
  cases k with
  | handle => exact fun h => hl (hh ▸ h)
  | queue =>
      obtain ⟨e, he, rfl⟩ := List.mem_map.mp hl
      exact List.mem_map_of_mem (f := Prod.snd) (hg e he)

namespace Quiet

theorem refl (w : World τ) : Quiet w w := ⟨.refl w, fun _ => rfl, fun _ => id⟩

theorem trans (h : Quiet w w') (h' : Quiet w' w'') : Quiet w w'' where
  toSameTree := h.toSameTree.trans h'.toSameTree
  handle c := (h'.handle c).trans (h.handle c)
  grows e he := h'.grows e (h.grows e he)

theorem modify (w : World τ) (c : ScopeId) {f : Scope τ → Scope τ}
    (hf : (f (w.scope c)).tree = (w.scope c).tree)
    (hh : (f (w.scope c)).cancelHandle = (w.scope c).cancelHandle) : Quiet w (w.modify c f) where
  toSameTree := .modify w c hf
  handle d := by
    by_cases hd : d = c
    · simp [hd, hh]
    · simp [hd]
  grows _ := id

/-- Quiet changes keep the invariant. -/
theorem inv (h : Quiet w w') (inv : Inv k Opened except w) : Inv k Opened except w' where
  linked := h.linked inv.linked
  queued c g hg := h.grows _ (inv.queued c g (h.handle c ▸ hg))
  level t x c hx hn :=
    (inv.level t x c (h.tasks x ▸ hx) (h.near ▸ hn)).imp_left
      fun hl => hl.mono (h.handle c) h.grows

end Quiet

theorem Level.weaken (h : Level k except w) {weaker : ScopeId → Prop}
    (hw : ∀ c, except c → weaker c) : Level k weaker w :=
  fun t x c hx hn => (h t x c hx hn).imp_right (hw c)

theorem Inv.weaken (inv : Inv k Opened except w) {weaker : ScopeId → Prop}
    (hw : ∀ c, except c → weaker c) : Inv k Opened weaker w :=
  ⟨inv.linked, inv.queued, inv.level.weaken hw⟩

/-- The invariant at the end of a call, when the open scopes are the active ones. -/
abbrev Sound (k : Watch) (w : World τ) : Prop :=
  Inv k (fun y => (w.scope y).active = true) (fun _ => False) w

theorem Inv.sound (inv : Inv k Opened (fun _ => False) w)
    (h : ∀ y, Opened y ↔ (w.scope y).active = true) : Sound k w := by
  obtain rfl : Opened = fun y => (w.scope y).active = true := funext fun y => propext (h y)
  exact inv

theorem dropTimer_quiet (w : World τ) (c : ScopeId) : Quiet w (w.dropTimer c) := by
  unfold World.dropTimer
  cases (w.scope c).timeoutHandle with
  | none => exact .refl w
  | some h =>
      have hm := Quiet.modify w c (f := fun s => { s with timeoutHandle := none }) rfl rfl
      exact ⟨⟨hm.scope, rfl, rfl, fun _ => rfl, rfl, rfl, rfl, rfl⟩, hm.handle, fun _ => id⟩

theorem dropTimer_links (w : World τ) (c : ScopeId) : SameLinks w (w.dropTimer c) :=
  (dropTimer_quiet w c).toSameTree.sameLinks

variable [DecidableEq τ]

/-! ## Calls that leave the links alone -/

theorem deliver_links (w : World τ) (c : ScopeId) : SameLinks w (w.deliver c) :=
  (deliver_delivered w c).toSameTree.sameLinks

theorem cancel_links (w : World τ) (c : ScopeId) : SameLinks w (w.cancel c) := by
  have hcalled : SameLinks w
      ((w.dropTimer c).modify c fun s => { s with cancelCalled := true }) :=
    (dropTimer_links w c).trans (.modify _ c rfl)
  unfold World.cancel
  simp only
  split_ifs
  · exact .refl w
  · exact hcalled.trans (deliver_links _ c)
  · exact hcalled

theorem timeout_links (w : World τ) (c : ScopeId) : SameLinks w (w.timeout c) := by
  unfold World.timeout
  cases (w.scope c).deadline with
  | none => exact .refl w
  | some deadline =>
      simp only
      split_ifs
      · exact cancel_links w c
      · have hm := SameLinks.modify w c
          (f := fun s => { s with timeoutHandle := some w.nextHandle }) rfl
        exact ⟨hm.scope, rfl, rfl, ⟨rfl, rfl, rfl⟩, fun _ => rfl, rfl⟩

theorem setDeadline_links (w : World τ) (c : ScopeId) (value : Option Int) :
    SameLinks w (w.setDeadline c value) := by
  have hset : SameLinks w ((w.modify c fun s => { s with deadline := value }).dropTimer c) :=
    (SameLinks.modify w c rfl).trans (dropTimer_links _ c)
  unfold World.setDeadline
  simp only
  split_ifs
  · exact hset.trans (timeout_links _ c)
  · exact hset

theorem restart_tree (w : World τ) (c : ScopeId) :
    SameTree w (w.restartCancellationInParent c) := by
  unfold World.restartCancellationInParent
  split
  · exact .refl w
  · split_ifs
    · exact (deliver_delivered w _).toSameTree
    · exact .refl w

theorem restart_links (w : World τ) (c : ScopeId) :
    SameLinks w (w.restartCancellationInParent c) :=
  (restart_tree w c).sameLinks

theorem setShield_links (w : World τ) (c : ScopeId) (value : Bool) :
    SameLinks w (w.setShield c value) := by
  have hset := SameLinks.modify w c (f := fun s => { s with shield := value }) rfl
  unfold World.setShield
  simp only
  split_ifs
  · exact .refl w
  · exact hset
  · exact hset.trans (restart_links _ c)

/-! ## Calls that keep the invariant -/

/-- A delivery makes good what only its origin was missing. -/
theorem Inv.deliver (hl : Linked w Opened)
    (hq : ∀ d, d ≠ c → ∀ h, (w.scope d).cancelHandle = some h → (h, d) ∈ w.callbacks)
    (hlev : Level k (fun d => except d ∨ d = c) w) : Inv k Opened except (w.deliver c) := by
  have hd := deliver_delivered w c
  refine ⟨hd.linked hl, fun d h hh => ?_, fun t x d hx hn => ?_⟩
  · by_cases hdc : d = c
    · subst hdc
      exact deliver_queued hh
    · exact hd.grows _ (hq d hdc h (hd.handle d hdc ▸ hh))
  · rw [hd.tasks] at hx
    rw [hd.near] at hn
    by_cases hdc : d = c
    · subst hdc
      have harr := deliver_arrived hl (hl.reaches (hl.members t x hx) hn) hx
      exact .inl (.of_handle (fun _ => deliver_queued) harr.1)
    · rcases hlev t x d hx hn with hlive | he | he
      · exact .inl (hlive.mono (hd.handle d hdc) hd.grows)
      · exact .inr he
      · exact absurd he hdc

omit [DecidableEq τ] in
/-- A changed flag of one scope is covered where the walks it opens are. -/
theorem Inv.setFlag (inv : Inv k Opened except w) {f : Scope τ → Scope τ} {opens : ScopeId → Prop}
    (hl : Linked (w.modify c f) Opened)
    (hh : (f (w.scope c)).cancelHandle = (w.scope c).cancelHandle)
    (ht : (f (w.scope c)).tasks = (w.scope c).tasks)
    (hn : ∀ x d, Near (w.modify c f) x d → Near w x d ∨ opens d) :
    Inv k Opened (fun d => except d ∨ opens d) (w.modify c f) := by
  have hhandle : ∀ d, ((w.modify c f).scope d).cancelHandle = (w.scope d).cancelHandle := by
    intro d
    by_cases hd : d = c <;> simp [hd, hh]
  have htasks : ∀ d, ((w.modify c f).scope d).tasks = (w.scope d).tasks := by
    intro d
    by_cases hd : d = c <;> simp [hd, ht]
  refine ⟨hl, fun d h hd => inv.queued d h (hhandle d ▸ hd), fun t x d hx hd => ?_⟩
  rcases hn x d hd with hd | hd
  · exact (inv.level t x d (htasks x ▸ hx) hd).imp (fun hl => hl.mono (hhandle d) fun _ => id) .inl
  · exact .inr (.inr hd)

omit [DecidableEq τ] in
/-- A changed attribute of one scope that no walk reads. -/
theorem Inv.setAttribute (inv : Inv k Opened except w) {f : Scope τ → Scope τ}
    (hl : Linked (w.modify c f) Opened)
    (hh : (f (w.scope c)).cancelHandle = (w.scope c).cancelHandle)
    (ht : (f (w.scope c)).tasks = (w.scope c).tasks)
    (hparent : (f (w.scope c)).parentScope = (w.scope c).parentScope)
    (hcalled : (f (w.scope c)).cancelCalled = (w.scope c).cancelCalled)
    (hshield : (f (w.scope c)).shield = (w.scope c).shield) :
    Inv k Opened except (w.modify c f) := by
  have flagged : Inv k Opened (fun d => except d ∨ False) (w.modify c f) :=
    inv.setFlag hl hh ht fun x d hd => .inl (near_modify c hparent hcalled hshield ▸ hd)
  exact flagged.weaken (by simp)

omit [DecidableEq τ] in
theorem near_setCancelCalled
    (hn : Near (w.modify c fun s => { s with cancelCalled := true }) x d) :
    Near w x d ∨ d = c := by
  have hkeep : ∀ y, ((w.modify c fun s => { s with cancelCalled := true }).scope y).parentScope =
      (w.scope y).parentScope ∧
      ((w.modify c fun s => { s with cancelCalled := true }).scope y).shield =
        (w.scope y).shield := by
    intro y
    by_cases hy : y = c <;> simp [hy]
  unfold Near at hn
  simp only [hkeep] at hn
  exact hn.of_new_hit (by simp) fun y hy => by simp [hy]

theorem Inv.cancel (inv : Inv k Opened except w) (c : ScopeId) :
    Inv k Opened except (w.cancel c) := by
  have inv' := (dropTimer_quiet w c).inv inv
  have called := inv'.setFlag (c := c) (inv'.linked.modify c rfl rfl rfl rfl) rfl rfl
    fun x d => near_setCancelCalled
  unfold World.cancel
  simp only
  split_ifs with hcalled hhost
  · exact inv
  · exact .deliver called.linked (fun d _ => called.queued d) called.level
  · refine ⟨called.linked, called.queued, fun t x d hx hn => ?_⟩
    rcases called.level t x d hx hn with hlive | he | rfl
    · exact .inl hlive
    · exact .inr he
    · have hopen := called.linked.near_opened (called.linked.members t x hx) hn
      exact absurd (called.linked.hosted d hopen) hhost

theorem Inv.timeout (inv : Inv k Opened except w) (c : ScopeId) :
    Inv k Opened except (w.timeout c) := by
  unfold World.timeout
  cases (w.scope c).deadline with
  | none => exact inv
  | some deadline =>
      simp only
      split_ifs
      · exact inv.cancel c
      · have hm := Quiet.modify w c
          (f := fun s => { s with timeoutHandle := some w.nextHandle }) rfl rfl
        exact Quiet.inv
          ⟨⟨hm.scope, rfl, rfl, fun _ => rfl, rfl, rfl, rfl, rfl⟩, hm.handle, fun _ => id⟩ inv

theorem Inv.setDeadline (inv : Inv k Opened except w) (c : ScopeId) (value : Option Int) :
    Inv k Opened except (w.setDeadline c value) := by
  have hq : Quiet w ((w.modify c fun s => { s with deadline := value }).dropTimer c) :=
    (Quiet.modify w c rfl rfl).trans (dropTimer_quiet _ c)
  unfold World.setDeadline
  simp only
  split_ifs
  · exact (hq.inv inv).timeout c
  · exact hq.inv inv

/-- The walk up from the parent of a scope finds who has to deliver what was
out of sight inside of it. -/
theorem Inv.restart
    (inv : Inv k Opened
      (fun d => except d ∨ ∃ p, (w.scope c).parentScope = some p ∧ Near w p d) w) :
    Inv k Opened except (w.restartCancellationInParent c) := by
  unfold World.restartCancellationInParent
  cases hn : w.nearestCancelled (w.scope c).parentScope with
  | none =>
      refine ⟨inv.linked, inv.queued, fun t x d hx hd => ?_⟩
      rcases inv.level t x d hx hd with hlive | he | ⟨p, hpc, hpd⟩
      · exact .inl hlive
      · exact .inr he
      · rw [hpc, inv.linked.nearestCancelled.mpr hpd] at hn
        cases hn
  | some origin =>
      obtain ⟨p, hp, hnear⟩ := nearest_sound hn
      have hlev : Level k (fun d => except d ∨ d = origin) w := by
        apply inv.level.weaken
        rintro d (he | ⟨q, hq, hqd⟩)
        · exact .inl he
        · rw [hp, Option.some.injEq] at hq
          exact .inr (hqd.unique (hq ▸ hnear))
      simp only
      split_ifs with hhandle
      · exact .deliver inv.linked (fun d _ => inv.queued d) hlev
      · refine ⟨inv.linked, inv.queued, fun t x d hx hd => ?_⟩
        rcases hlev t x d hx hd with hlive | he | rfl
        · exact .inl hlive
        · exact .inr he
        · exact .inl (.of_handle (inv.queued d) hhandle)

theorem Inv.setShield (inv : Inv k Opened except w) (c : ScopeId) (value : Bool) :
    Inv k Opened except (w.setShield c value) := by
  have hl := inv.linked.modify c (f := fun s => { s with shield := value }) rfl rfl rfl rfl
  have hkeep : ∀ y, ((w.modify c fun s => { s with shield := value }).scope y).parentScope =
      (w.scope y).parentScope ∧
      ((w.modify c fun s => { s with shield := value }).scope y).cancelCalled =
        (w.scope y).cancelCalled := by
    intro y
    by_cases hy : y = c <;> simp [hy]
  unfold World.setShield
  simp only
  split_ifs with hsame hvalue
  · exact inv
  · have flagged : Inv k Opened (fun d => except d ∨ False)
        (w.modify c fun s => { s with shield := value }) := by
      apply inv.setFlag hl rfl rfl
      intro x d hn
      unfold Near at hn
      simp only [hkeep] at hn
      refine .inl (hn.of_more_stops fun y hy => ?_)
      by_cases hyc : y = c <;> simp_all
    exact flagged.weaken (by simp)
  · apply Inv.restart
    apply inv.setFlag hl rfl rfl
    intro x d hn
    unfold Near at hn ⊢
    simp only [hkeep] at hn ⊢
    exact hn.of_lifted_stop fun y hy => by simp [hy]

end Anyio.CancelScope
