import Anyio.CancelScope.Shielding

/-!
# The scopes that a task has entered

The scopes around a task are those that it entered itself, innermost first, and
those beyond them. Only the task changes the first part of this list, and a
task that has entered a scope is not placed elsewhere.
-/

namespace Anyio.CancelScope

open Asyncio Library

variable {τ : Type*}

/-- The scopes from the one that `t` is in on outwards are `inner`, all of them
hosted by `t`, and then `beyond`. -/
structure Within (w : World τ) (t : τ) (inner beyond : List ScopeId) : Prop where
  lineage : Lineage (fun c => (w.scope c).parentScope) (w.currentScope t) (inner ++ beyond)
  hosted : ∀ d ∈ inner, (w.scope d).hostTask = some t

variable {w w' mid : World τ} {a : Action τ} {o : Answer} {c d x y : ScopeId} {t u host : τ}
  {inner beyond : List ScopeId}

theorem Within.congr (h : Within w t inner beyond) (hscope : w'.currentScope t = w.currentScope t)
    (hparent : ∀ d ∈ inner ++ beyond, (w'.scope d).parentScope = (w.scope d).parentScope)
    (hhost : ∀ d ∈ inner, (w'.scope d).hostTask = (w.scope d).hostTask) :
    Within w' t inner beyond where
  lineage := by
    rw [hscope]
    exact h.lineage.congr hparent
  hosted d hd := (hhost d hd).trans (h.hosted d hd)

theorem Within.sameLinks (h : Within w t inner beyond) (hl : SameLinks w w') :
    Within w' t inner beyond :=
  h.congr (hl.currentScope t) (fun d _ => hl.parentScope d) fun d _ => hl.hostTask d

theorem Within.nodup (h : Within w t inner beyond) (reg : Registered w) :
    (inner ++ beyond).Nodup :=
  h.lineage.nodup fun y p hp => (reg.older y p hp).1

/-- A task that has entered a scope is in one. -/
theorem Within.head (h : Within w t inner beyond) (hne : inner ≠ []) :
    ∃ x rest, w.currentScope t = some x ∧ inner = x :: rest := by
  obtain ⟨x, rest, rfl⟩ := List.exists_cons_of_ne_nil hne
  have hl := h.lineage
  generalize w.currentScope t = start at hl
  cases hl with
  | cons _ => exact ⟨x, rest, rfl, rfl⟩

/-- What `t` is in after all, and what it has entered, was entered once. -/
theorem Within.entered (h : Within w t inner beyond) (reg : Registered w) :
    ∀ d ∈ inner ++ beyond, d ∈ w.entered := by
  apply h.lineage.closed (P := fun d => d ∈ w.entered)
  · exact fun x hx => reg.located t x hx
  · exact fun y p _ hp => List.idxOf_lt_length_iff.mp
      ((reg.older y p hp).1.trans_le List.idxOf_le_length)

variable [DecidableEq τ]

/-- What no step takes from an entered scope: its parent, while it stays active
its host, and unless it is left whether it has caught a cancellation. -/
structure Kept (w w' : World τ) (c : ScopeId) : Prop where
  entered : c ∈ w'.entered
  parentScope : (w'.scope c).parentScope = (w.scope c).parentScope
  active : (w'.scope c).active = true → (w.scope c).active = true ∧
    (w'.scope c).hostTask = (w.scope c).hostTask
  caught : ((w.scope c).active = true → (w'.scope c).active = true) →
    (w'.scope c).cancelledCaught = (w.scope c).cancelledCaught

theorem Change.kept (change : Change w a w' o) (hc : c ∈ w.entered) : Kept w w' c := by
  cases change with
  | refused => exact ⟨hc, rfl, fun h => ⟨h, rfl⟩, fun _ => rfl⟩
  | @entered d host mid hcur fresh hmid =>
      have hcd : c ≠ d := fun h => fresh (h ▸ hc)
      have hl := activate_links mid d host
      have hcharged : Charged (some d) none d mid (mid.activate d host) :=
        activate_charged mid d host
      refine ⟨?_, ?_, fun h => ⟨?_, ?_⟩, fun _ => ?_⟩
      · rw [hl.entered]
        change c ∈ mid.entered
        rw [hmid.entered]
        exact List.mem_append_left _ hc
      · rw [hl.parentScope]
        simp [hcd, hmid.parentScope]
      · rw [hl.active] at h
        simpa [hcd, hmid.active] using h
      · rw [hl.hostTask]
        simp [hcd, hmid.hostTask]
      · rw [hcharged.caught, (Scope.attributes_ext (hmid.attributes c)).2.2.2.1]
  | @left d host exc mid hcur hactive hhost hin hmid =>
      have hl := conclude_links mid d host exc
      have hinactive : ((mid.conclude d host exc).1.scope d).active = false := by
        rw [hl.active]
        simp [hmid.active]
      obtain ⟨undone, restarted, origin, hundone, hcharged, -, -, -, heq⟩ :=
        conclude_stages mid d host exc
      obtain ⟨_, _, hscope⟩ := hundone.scope
      refine ⟨?_, ?_, fun h => ?_, fun h => ?_⟩
      · rw [hl.entered]
        change c ∈ mid.entered
        rwa [hmid.entered]
      · rw [hl.parentScope]
        by_cases hcd : c = d <;> simp [hcd, hmid.parentScope]
      · have hcd : c ≠ d := by
          rintro rfl
          rw [hinactive] at h
          cases h
        rw [hl.active] at h
        rw [hl.hostTask]
        simpa [hcd, hmid.active, hmid.hostTask] using h
      · have hcd : c ≠ d := by
          rintro rfl
          have h' := h hactive
          rw [hinactive] at h'
          cases h'
        rw [heq]
        simp [hcd, hcharged.caught, hscope,
          (Scope.attributes_ext (hmid.attributes c)).2.2.2.1]
  | charged _ hl _ hcharged =>
      exact ⟨hl.entered ▸ hc, hl.parentScope c, fun h => ⟨hl.active c ▸ h, hl.hostTask c⟩,
        fun _ => hcharged.caught c⟩
  | placed _ hp _ =>
      refine ⟨hp.entered ▸ hc, ?_, fun h => ?_, fun _ => ?_⟩
      · rw [hp.scope]
      · rw [hp.scope] at h ⊢
        exact ⟨h, rfl⟩
      · rw [hp.scope]
  | scheduled _ hs =>
      refine ⟨hs.entered ▸ hc, by rw [hs.scope], fun h => ?_, fun _ => by rw [hs.scope]⟩
      rw [hs.scope] at h ⊢
      exact ⟨h, rfl⟩

/-! ## Entering and leaving -/

/-- The task enters a scope. -/
theorem Within.enter (h : Within w t inner beyond) (reg : Registered w)
    (hmid : Entered w c t mid) (hc : c ∉ w.entered) :
    Within (mid.activate c t) t (c :: inner) beyond := by
  have hl := activate_links mid c t
  have hne : ∀ d ∈ inner ++ beyond, d ≠ c := fun d hd heq => hc (heq ▸ h.entered reg d hd)
  have hparent : ∀ d, ((mid.activate c t).scope d).parentScope =
      if d = c then w.currentScope t else (w.scope d).parentScope := by
    intro d
    rw [hl.parentScope]
    by_cases hd : d = c <;> simp [hd, hmid.parentScope]
  have hhost : ∀ d, ((mid.activate c t).scope d).hostTask =
      if d = c then some t else (w.scope d).hostTask := by
    intro d
    rw [hl.hostTask]
    by_cases hd : d = c <;> simp [hd, hmid.hostTask]
  constructor
  · have hcurrent : (mid.activate c t).currentScope t = some c := by
      rw [hl.currentScope]
      exact (hmid.currentScope t).trans (if_pos rfl)
    rw [hcurrent]
    refine .cons ?_
    rw [hparent, if_pos rfl]
    exact h.lineage.congr fun d hd => by rw [hparent, if_neg (hne d hd)]
  · intro d hd
    rw [hhost]
    split_ifs with hdc
    · rfl
    · exact h.hosted d ((List.mem_cons.mp hd).resolve_left hdc)

/-- Another task enters a scope. -/
theorem Within.enterOther (h : Within w t inner beyond) (reg : Registered w)
    (hmid : Entered w c host mid) (hth : t ≠ host) (hc : c ∉ w.entered) :
    Within mid t inner beyond ∧ Within (mid.activate c host) t inner beyond := by
  have hne : ∀ d ∈ inner ++ beyond, d ≠ c := fun d hd heq => hc (heq ▸ h.entered reg d hd)
  have hwithin : Within mid t inner beyond := by
    apply h.congr ((hmid.currentScope t).trans (if_neg hth))
    · exact fun d hd => by rw [hmid.parentScope, if_neg (hne d hd)]
    · exact fun d hd => by rw [hmid.hostTask, if_neg (hne d (List.mem_append_left beyond hd))]
  refine ⟨hwithin, hwithin.congr ?_ (fun d hd => ?_) fun d hd => ?_⟩
  · exact (activate_links mid c host).currentScope t
  · rw [(activate_links mid c host).parentScope]
    simp [hne d hd]
  · rw [(activate_links mid c host).hostTask]
    simp [hne d (List.mem_append_left beyond hd)]

/-- The task leaves its innermost scope. -/
theorem Within.leave (h : Within w t (c :: inner) beyond) (reg : Registered w)
    (hmid : Left w c t mid) (exc : Option Exc) :
    Within (mid.conclude c t exc).1 t inner beyond := by
  have hl := conclude_links mid c t exc
  obtain ⟨hnot, -⟩ := List.nodup_cons.mp (h.nodup reg)
  have hne : ∀ d ∈ inner ++ beyond, d ≠ c := fun d hd heq => hnot (heq ▸ hd)
  have above : Lineage (fun c => (w.scope c).parentScope) (w.scope c).parentScope
      (inner ++ beyond) := by
    have hlineage := h.lineage
    generalize w.currentScope t = start at hlineage
    cases hlineage with
    | cons above => exact above
  constructor
  · rw [hl.currentScope]
    change Lineage _ (mid.currentScope t) _
    rw [hmid.currentScope, if_pos rfl]
    apply above.congr
    intro d hd
    rw [hl.parentScope]
    simp [hne d hd, hmid.parentScope]
  · intro d hd
    rw [hl.hostTask]
    simpa [hne d (List.mem_append_left beyond hd), hmid.hostTask] using
      h.hosted d (List.mem_cons_of_mem c hd)

/-- Another task leaves a scope. -/
theorem Within.leaveOther (h : Within w t inner beyond) (hmid : Left w c host mid)
    (hth : t ≠ host) (hhost : (w.scope c).hostTask = some host) (exc : Option Exc) :
    (∀ d ∈ inner, d ≠ c) ∧ Within (mid.conclude c host exc).1 t inner beyond := by
  have hne : ∀ d ∈ inner, d ≠ c := by
    rintro d hd rfl
    have hd' := h.hosted d hd
    rw [hhost] at hd'
    exact hth (Option.some.inj hd').symm
  have hl := conclude_links mid c host exc
  refine ⟨hne, h.congr ?_ (fun d _ => ?_) fun d hd => ?_⟩
  · rw [hl.currentScope]
    exact (hmid.currentScope t).trans (if_neg hth)
  · rw [hl.parentScope]
    by_cases hdc : d = c <;> simp [hdc, hmid.parentScope]
  · rw [hl.hostTask]
    simp [hne d hd, hmid.hostTask]

/-- A task that is alive in a scope of its own is not the one that is placed. -/
theorem Within.not_placed (h : Within w t inner beyond) (reg : Registered w) (hne : inner ≠ [])
    (halive : w.loop.point t ≠ .finished)
    (hu : (∃ c, a = .spawn c u ∧ w.loop.point u = .unborn) ∨
      (∃ c, a = .taskWrapper c ∧ w.current = some u ∧ w.taskState u = none) ∨
      (a = .finish ∧ w.current = some u ∧ w'.currentScope u = w.currentScope u) ∨
      ∃ group, a = .taskDone u group ∧ w.loop.point u = .finished) :
    t ≠ u ∨ a = .finish ∧ w.current = some t ∧ w'.currentScope t = w.currentScope t := by
  by_cases htu : t = u
  · subst htu
    obtain ⟨x, rest, hx, rfl⟩ := h.head hne
    rcases hu with ⟨c, -, hborn⟩ | ⟨c, -, -, hstate⟩ | hfinish | ⟨group, -, hdone⟩
    · exact absurd (h.hosted x List.mem_cons_self) ((reg.unborn t hborn).2.2 x)
    · simp [World.currentScope, hstate] at hx
    · exact .inr hfinish
    · exact absurd hdone halive
  · exact .inl htu

omit [DecidableEq τ] in
theorem Within.placed (h : Within w t inner beyond) (hp : Placed w u w')
    (hu : t ≠ u ∨ w'.currentScope t = w.currentScope t) : Within w' t inner beyond := by
  apply h.congr
  · exact hu.elim (fun htu => (hp.others t htu).1) id
  · exact fun d _ => by rw [hp.scope]
  · exact fun d _ => by rw [hp.scope]

omit [DecidableEq τ] in
theorem Within.scheduled (h : Within w t inner beyond) (hs : Scheduled w w') :
    Within w' t inner beyond := by
  apply h.congr
  · simp [World.currentScope, hs.taskState]
  · exact fun d _ => by rw [hs.scope]
  · exact fun d _ => by rw [hs.scope]

end Anyio.CancelScope
