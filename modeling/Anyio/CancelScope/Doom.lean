import Anyio.CancelScope.Pending

/-!
# Failed children and the scope of their group

A child that fails cancels the scope of its group, unless that scope is
effectively cancelled already. Then the group depends on a cancelled scope
around it, and a shield between the two takes that from it.

## Implementation notes

`childFailed` is `task_done` of a child whose exception is the concern of its
group: it was spawned by `start_soon()`, or by `start()` and has called
`started()`. For the other children `task_done` does nothing to the scopes after
it has read their outcome.
-/

namespace Anyio.CancelScope

open Asyncio Library

variable {τ : Type*}

/-- `isinstance(exc, CancelledError)` -/
def Exc.isCancellation : Exc → Bool
  | .cancelled _ _ => true
  | _ => false

inductive GroupAction (τ : Type*)
  | call (action : Action τ)
  | childFailed (task : τ) (group : ScopeId) (exc : Exc)

/-- The scope `c` and those around it, outwards. -/
def World.lineage (w : World τ) (c : ScopeId) : List ScopeId :=
  Library.lineage (fun c => (w.scope c).parentScope) (w.entered.length + 1) (some c)

/-- The scope `c` and those around it, outwards up to the first one that was cancelled. -/
def World.uncancelled (w : World τ) (c : ScopeId) : List ScopeId :=
  (w.lineage c).takeWhile fun d => !(w.scope d).cancelCalled

/-- Groups with a failed child, that have not been left since. -/
abbrev Doomed := List ScopeId

def recordDoom (h : Doomed) (_ : World τ) : GroupAction τ → Answer → Doomed
  | .childFailed _ group exc, _ => if exc.isCancellation then h else group :: h
  | .call (.exit c _), .ok _ => h.filter fun d => d ≠ c
  | _, _ => h

/-- Scopes are entered once, and tasks are placed into scopes that were entered. -/
def FreshCall (w : World τ) : GroupAction τ → Prop
  | .call a => Fresh w a
  | .childFailed _ _ _ => True

/-- No shield is set on the scope of a doomed group, or between it and the first cancelled scope
around it. -/
def Unshielded (w : World τ) (h : Doomed) : GroupAction τ → Prop
  | .call (.setShield x true) => ∀ c ∈ h, x ∉ w.uncancelled c
  | _ => True

instance (w : World τ) (a : GroupAction τ) : Decidable (FreshCall w a) :=
  match a with
  | .call a => inferInstanceAs (Decidable (Fresh w a))
  | .childFailed _ _ _ => .isTrue trivial

instance (w : World τ) (h : Doomed) (a : GroupAction τ) : Decidable (Unshielded w h a) :=
  match a with
  | .call (.setShield x true) => inferInstanceAs (Decidable (∀ c ∈ h, x ∉ w.uncancelled c))
  | .call (.setShield _ false) | .call (.enter _) | .call (.exit _ _) | .call (.cancel _)
  | .call (.setDeadline _ _) | .call (.timeout _ _) | .call (.deliverCancellation _ _)
  | .call (.spawn _ _) | .call (.taskWrapper _) | .call (.createTask _) | .call (.resume _)
  | .call .sleep | .call (.await _) | .call .finish | .call (.taskDone _ _)
  | .call (.nativeCancel _) | .call .createFuture | .call (.setResult _) | .call (.setTime _)
  | .childFailed _ _ _ => .isTrue trivial

variable [DecidableEq τ]

/-- `task_done` of a child whose exception the group takes. -/
def World.childFailed (w : World τ) (t : τ) (group : ScopeId) : World τ × Except Error Unit :=
  match w.taskDone t group with
  | (w', .ok _) => (if w'.effectivelyCancelled group then w' else w'.cancel group, .ok ())
  | (w', .error e) => (w', .error e)

def groupStep (w : World τ) : GroupAction τ → Option (World τ × Answer)
  | .call a => step w a
  | .childFailed t group _ =>
      if w.current = none ∧ w.loop.point t = .finished ∧
          w.doneCallbacks.contains (t, group) = true then
        let r := w.childFailed t group
        some (r.1, r.2.map fun _ => none)
      else none

abbrev groupMachine (τ : Type*) [DecidableEq τ] : Machine (World τ) (GroupAction τ) Answer where
  step := groupStep

/-- The machine that keeps the doomed groups. -/
abbrev doomRecorded (τ : Type*) [DecidableEq τ] :
    Machine (World τ × Doomed) (GroupAction τ) Answer :=
  (groupMachine τ).withHistory recordDoom

variable {w w' : World τ} {h : Doomed} {a : Action τ} {b : GroupAction τ} {o : Answer}
  {c d x group : ScopeId} {t : τ}

omit [DecidableEq τ] in
theorem Registered.lineage (reg : Registered w) (c : ScopeId) :
    Lineage (fun c => (w.scope c).parentScope) (some c) (w.lineage c) := by
  obtain ⟨l, hl⟩ := Lineage.exists_of_rank (fun y p hp => (reg.older y p hp).1) (some c)
  have hcomplete := hl.complete (fun y p hp => (reg.older y p hp).1) (n := w.entered.length + 1)
    fun x _ => Nat.lt_succ_of_le List.idxOf_le_length
  rw [World.lineage, hcomplete]
  exact hl

omit [DecidableEq τ] in
/-- The program and the walk agree. -/
theorem Registered.near_iff (reg : Registered w) :
    w.effectivelyCancelled c = true ↔ ∃ d, Near w c d := by
  unfold World.effectivelyCancelled World.nearestCancelled
  rw [Option.isSome_iff_exists]
  constructor
  · rintro ⟨d, hd⟩
    obtain ⟨y, hy, hnear⟩ := nearest_sound hd
    cases hy
    exact ⟨d, hnear⟩
  · rintro ⟨d, hnear⟩
    refine ⟨d, nearest_complete (fun y p hp => (reg.older y p hp).1) hnear ?_⟩
    exact Nat.lt_succ_of_le List.idxOf_le_length

/-- A scope that is effectively cancelled stays so, unless a shield is set before the first
cancelled scope around it. -/
theorem Change.near (change : Change w a w' o) (reg : Registered w)
    (hstep : step w a = some (w', o)) (ok : ∀ x, a = .setShield x true → x ∉ w.uncancelled c)
    (hnear : Near w c d) : ∃ d', Near w' c d' := by
  apply hnear.survives (reg.lineage c)
  · intro y p hp
    exact (change.kept (reg.older y p hp).2).parentScope.trans hp
  · intro y hy
    exact (change.flags y).1 hy
  · intro y hy hlow
    by_contra hup
    exact ok y (change.raises hstep hlow (by simpa using hup)) hy

/-- A step of the group machine, as steps of the scopes: `task_done` may cancel the group. -/
theorem groupStep_calls (reg : Registered w) (ok : FreshCall w b)
    (hstep : groupStep w b = some (w', o)) :
    (∃ a, b = .call a ∧ Fresh w a ∧ step w a = some (w', o)) ∨
      ∃ t group exc mid, b = .childFailed t group exc ∧
        step w (.taskDone t group) = some (mid, .ok none) ∧
        (mid.effectivelyCancelled group = true ∧ w' = mid ∨
          step mid (.cancel group) = some (w', .ok none)) := by
  cases b with
  | call a => exact .inl ⟨a, rfl, ok, hstep⟩
  | childFailed t group exc =>
      obtain ⟨hready, hstep⟩ := Option.ite_none_right_eq_some.mp hstep
      obtain ⟨hcur, hp, hcontains⟩ := hready
      have hmem := List.contains_iff_mem.mp hcontains
      obtain ⟨-, hok⟩ := reg.taskDone hp hmem (by simp [hcur])
      cases hdone : w.taskDone t group with
      | mk mid r =>
          rw [hdone] at hok
          obtain rfl : r = .ok () := hok
          have hmid : step w (.taskDone t group) = some (mid, .ok none) := by
            simp [step, hcur, hp, hmem, hdone, Except.map]
          obtain ⟨rfl, -⟩ := Prod.mk.inj (Option.some.inj hstep)
          refine .inr ⟨t, group, exc, mid, rfl, hmid, ?_⟩
          cases heff : mid.effectivelyCancelled group with
          | true => exact .inl ⟨rfl, by simp [World.childFailed, hdone, heff]⟩
          | false => exact .inr (by simp [step, World.childFailed, hdone, heff])

/-- Every doomed group is effectively cancelled. -/
structure Sentenced (w : World τ) (h : Doomed) : Prop extends Registered w where
  called : Called w
  doomed : ∀ c ∈ h, ∃ d, Near w c d

omit [DecidableEq τ] in
theorem mem_of_call (hc : c ∈ recordDoom h w (.call a) o) : c ∈ h := by
  unfold recordDoom at hc
  split at hc
  · contradiction
  · exact List.mem_of_mem_filter hc
  · exact hc

omit [DecidableEq τ] in
theorem mem_of_failure {exc : Exc} (hc : c ∈ recordDoom h w (.childFailed t group exc) o) :
    c ∈ h ∨ c = group := by
  unfold recordDoom at hc
  simp only at hc
  split_ifs at hc
  · exact .inl hc
  · exact (List.mem_cons.mp hc).symm

/-- A call keeps the doomed groups cancelled. -/
theorem Sentenced.call (inv : Sentenced w h) (fresh : Fresh w a)
    (ok : ∀ x, a = .setShield x true → ∀ c ∈ h, x ∉ w.uncancelled c)
    (hstep : step w a = some (w', o)) : Sentenced w' h := by
  have change := step_change inv.toRegistered inv.called fresh hstep
  refine ⟨inv.toRegistered.step inv.called fresh hstep, inv.called.step change, fun c hc => ?_⟩
  obtain ⟨d, hnear⟩ := inv.doomed c hc
  exact change.near inv.toRegistered hstep (fun x hx => ok x hx c hc) hnear

omit [DecidableEq τ] in
theorem Sentenced.mono {h' : Doomed} (inv : Sentenced w h) (hsub : ∀ c ∈ h', c ∈ h) :
    Sentenced w h' :=
  ⟨inv.toRegistered, inv.called, fun c hc => inv.doomed c (hsub c hc)⟩

theorem Sentenced.step (inv : Sentenced w h) (fresh : FreshCall w b) (ok : Unshielded w h b)
    (hstep : groupStep w b = some (w', o)) : Sentenced w' (recordDoom h w b o) := by
  rcases groupStep_calls inv.toRegistered fresh hstep with
    ⟨a, rfl, hfresh, ha⟩ | ⟨t, group, exc, mid, rfl, hdone, hcancel⟩
  · apply (inv.call hfresh _ ha).mono fun c hc => mem_of_call hc
    rintro x rfl
    exact ok
  · have hmid : Sentenced mid h := inv.call (a := .taskDone t group) trivial (by simp) hdone
    rcases hcancel with ⟨heff, rfl⟩ | hcancel
    · refine ⟨hmid.toRegistered, hmid.called, fun c hc => ?_⟩
      rcases mem_of_failure hc with hc | rfl
      · exact hmid.doomed c hc
      · exact hmid.toRegistered.near_iff.mp heff
    · have hlast : Sentenced w' h := hmid.call (a := .cancel group) trivial (by simp) hcancel
      refine ⟨hlast.toRegistered, hlast.called, fun c hc => ?_⟩
      rcases mem_of_failure hc with hc | rfl
      · exact hlast.doomed c hc
      · obtain ⟨rfl, -⟩ := Prod.mk.inj (Option.some.inj hcancel)
        exact ⟨c, .here (cancel_called mid c)⟩

/-- A shield below the first cancelled scope hides that scope. -/
theorem setShield_hides (reg : Registered w) (hx : x ∈ w.uncancelled c) :
    (w.setShield x true).effectivelyCancelled c = false := by
  have reg' : Registered (w.setShield x true) := reg.congr (setShield_links w x true)
  have hcalled : ∀ y, ((w.setShield x true).scope y).cancelCalled = (w.scope y).cancelCalled := by
    intro y
    unfold World.setShield
    simp only [if_true]
    split_ifs
    · rfl
    · rw [World.modify_scope]
      split_ifs with hy
      · rw [hy]
      · rfl
  have hparent : ∀ y, ((w.setShield x true).scope y).parentScope = (w.scope y).parentScope :=
    (setShield_links w x true).parentScope
  have hmem : x ∈ (w.lineage c).takeWhile fun y =>
      !((w.setShield x true).scope y).cancelCalled := by
    simp only [hcalled]
    exact hx
  have hlineage : Lineage (fun y => ((w.setShield x true).scope y).parentScope) (some c)
      (w.lineage c) := by
    simpa only [hparent] using reg.lineage c
  apply Bool.eq_false_iff.mpr
  intro heff
  obtain ⟨d, hnear⟩ := reg'.near_iff.mp heff
  exact Nearest.stopped hlineage hmem (setShield_shield w x true) hnear

omit [DecidableEq τ] in
theorem Sentenced.initial (minor : Nat) : Sentenced (CancelScope.initial τ minor) [] where
  toRegistered := .initial minor
  called _ he := by cases he
  doomed _ hc := by cases hc

/-- From the failure of a child on until `__exit__()` of its group the scope of the group is
effectively cancelled, in every run in which scopes are entered once and no shield is set between
the scope of a doomed group and the first cancelled scope around it. The first such shield takes
the cancellation from the group. -/
theorem doomed_until_exit {minor : Nat}
    (run : (doomRecorded τ).Reachable (fun p a => FreshCall p.1 a ∧ Unshielded p.1 p.2 a)
      (initial τ minor, []) (w, h)) :
    (∀ c ∈ h, w.effectivelyCancelled c = true) ∧
      ∀ w' o, FreshCall w b → groupStep w b = some (w', o) →
        ((∀ c ∈ recordDoom h w b o, w'.effectivelyCancelled c = true) ↔ Unshielded w h b) := by
  have inv : Sentenced w h := run.invariant_history (I := Sentenced) (.initial minor)
    fun w h b w' o inv ok hs => inv.step ok.1 ok.2 hs
  refine ⟨fun c hc => inv.toRegistered.near_iff.mpr (inv.doomed c hc), fun w' o fresh hs => ?_⟩
  constructor
  · intro hdoomed
    unfold Unshielded
    split
    · rename_i x
      intro c hc hx
      obtain ⟨rfl, rfl⟩ := Prod.mk.inj (Option.some.inj hs)
      have heff := hdoomed c hc
      rw [setShield_hides inv.toRegistered hx] at heff
      cases heff
    · trivial
  · intro ok c hc
    have inv' := inv.step fresh ok hs
    exact inv'.toRegistered.near_iff.mpr (inv'.doomed c hc)

/-- Task 1 fails in the group of scope 1, inside of scope 0. -/
def failedChild : World (Fin 2) × Doomed :=
  ((doomRecorded (Fin 2)).exec (fun p a => FreshCall p.1 a ∧ Unshielded p.1 p.2 a)
    (initial (Fin 2) 12, [])
    [.call (.createTask 0), .call (.resume 0), .call (.enter 0), .call (.enter 1),
      .call (.spawn 1 1), .call .sleep, .call (.resume 1), .call .finish,
      .childFailed 1 1 .other]).get (by decide)

theorem doomed_until_exit_failedChild :
    failedChild.2 = [1] ∧ failedChild.1.effectivelyCancelled 1 = true := by
  have run : (doomRecorded (Fin 2)).Reachable
      (fun p a => FreshCall p.1 a ∧ Unshielded p.1 p.2 a) (initial (Fin 2) 12, []) failedChild :=
    Machine.exec_get_reachable _ _ _
  have hdoomed : failedChild.2 = [1] := by decide
  refine ⟨hdoomed, (doomed_until_exit (w := failedChild.1) (h := failedChild.2) run
    (b := .call .sleep)).1 1 ?_⟩
  rw [hdoomed]
  exact List.mem_singleton_self 1

/-- Scope 0 is cancelled before the child fails, and then scope 1 is shielded. -/
def reprieved : World (Fin 2) × Doomed :=
  ((doomRecorded (Fin 2)).exec (fun p a => FreshCall p.1 a) (initial (Fin 2) 12, [])
    [.call (.createTask 0), .call (.resume 0), .call (.enter 0), .call (.enter 1),
      .call (.spawn 1 1), .call .sleep, .call (.resume 1), .call (.cancel 0), .call .finish,
      .childFailed 1 1 .other, .call (.setShield 1 true)]).get (by decide)

/-- The group with the failed child goes on as if nothing had happened. -/
theorem group_reprieved :
    (doomRecorded (Fin 2)).Reachable (fun p a => FreshCall p.1 a) (initial (Fin 2) 12, [])
        reprieved ∧
      reprieved.2 = [1] ∧ (reprieved.1.scope 1).active = true ∧
      reprieved.1.effectivelyCancelled 1 = false :=
  ⟨Machine.exec_get_reachable _ _ _, by decide, by decide, by decide⟩

end Anyio.CancelScope
