import Anyio.CancelScope.Unwind

/-!
# What `cancelled_caught` tells

`_cancelled_caught` is written for every cancellation among the exceptions that
leave the block, and the answer of `__exit__()` is made from all exceptions at
the end. The two agree if either all of the exceptions are cancellations by
AnyIO, or none of them is caught.
-/

namespace Anyio.CancelScope

open Asyncio Library

variable {τ : Type*} {w w' : World τ} {c : ScopeId} {host : τ} {exc : Option Exc}

/-- The exceptions that leave the block of a scope. -/
def leaving (exc : Option Exc) : List Exc := (exc.map iterateExceptions).getD []

/-- The checks that `__exit__()` makes of the scope and of the task that leaves it. -/
structure Accepted (w : World τ) (c : ScopeId) (host : τ) : Prop where
  active : (w.scope c).active = true
  hosted : (w.scope c).hostTask = some host
  current : w.taskState host = some (some c)
  listed : host ∈ (w.scope c).tasks
  child : ∀ p, (w.scope c).parentScope = some p → c ∈ (w.scope p).childScopes

/-- The scope was cancelled and sees a cancellation by AnyIO leave its block. -/
def Judges (w : World τ) (c : ScopeId) (host : τ) (exc : Option Exc) : Prop :=
  Accepted w c host ∧ (w.scope c).cancelCalled = true ∧ ∃ e ∈ leaving exc, AnyioLeaf e

theorem uncancel_not_anyio {messages : List (Option String)}
    (h : ¬ ∃ m ∈ messages, isAnyioCancellation m = true) : w.uncancel c messages = (w, false) := by
  induction messages with
  | nil => rfl
  | cons message contexts ih =>
      have hfirst : isAnyioCancellation message ≠ true := fun hm =>
        h ⟨message, List.mem_cons_self, hm⟩
      rw [World.uncancel, if_neg hfirst]
      apply ih
      rintro ⟨m, hmem, hm⟩
      exact h ⟨m, List.mem_cons_of_mem message hmem, hm⟩

/-- Any other exception is left over. -/
theorem swallow_cons_other (hcalled : (w.scope c).cancelCalled = true) {e : Exc}
    (he : ¬ AnyioLeaf e) (excs : List Exc) (swallowed rest : Bool) :
    ∃ kept, World.swallow c (e :: excs) w swallowed rest = World.swallow c excs w kept true := by
  cases e with
  | cancelled message contexts =>
      rw [World.swallow, if_pos hcalled, uncancel_not_anyio he]
      exact ⟨false, by simp⟩
  | other => exact ⟨swallowed, rfl⟩
  | group _ => exact ⟨swallowed, rfl⟩

/-- A cancelled scope swallows what leaves its block if it is all cancellations by AnyIO. -/
theorem swallow_answer (hcalled : (w.scope c).cancelCalled = true) (excs : List Exc)
    (swallowed rest : Bool) :
    (World.swallow c excs w swallowed rest).2 = true ↔ rest = false ∧ (∀ e ∈ excs, AnyioLeaf e) ∧
      (if excs = [] then swallowed else w.catches c) = true := by
  induction excs generalizing w swallowed rest with
  | nil => simp [World.swallow, and_comm]
  | cons e excs ih =>
      by_cases he : AnyioLeaf e
      · have htree : SameTree w (w.modify c fun s => { s with cancelledCaught := w.catches c }) :=
          .modify w c rfl
        rw [swallow_cons_anyio hcalled he, ih (by simp [hcalled]), htree.catches]
        by_cases hnil : excs = []
        · simp [hnil, he]
        · simp only [hnil, if_false, Bool.or_eq_false_iff, List.forall_mem_cons, he, true_and,
            reduceCtorEq]
          simp
          tauto
      · obtain ⟨kept, heq⟩ := swallow_cons_other hcalled he excs swallowed rest
        rw [heq, ih hcalled]
        simp [he]

/-- Every cancellation by AnyIO is judged alike. -/
theorem swallow_caught (hcalled : (w.scope c).cancelCalled = true) (excs : List Exc)
    (swallowed rest : Bool) :
    ((∃ e ∈ excs, AnyioLeaf e) →
        ((World.swallow c excs w swallowed rest).1.scope c).cancelledCaught = w.catches c) ∧
      ((¬ ∃ e ∈ excs, AnyioLeaf e) →
        ((World.swallow c excs w swallowed rest).1.scope c).cancelledCaught =
          (w.scope c).cancelledCaught) := by
  induction excs generalizing w swallowed rest with
  | nil => simp [World.swallow]
  | cons e excs ih =>
      by_cases he : AnyioLeaf e
      · have htree : SameTree w (w.modify c fun s => { s with cancelledCaught := w.catches c }) :=
          .modify w c rfl
        rw [swallow_cons_anyio hcalled he]
        obtain ⟨hsome, hnone⟩ := ih ((htree.cancelCalled c).trans hcalled) (w.catches c)
          (rest || !w.catches c)
        rw [htree.catches] at hsome
        refine ⟨fun _ => ?_, fun hno => absurd ⟨_, List.mem_cons_self, he⟩ hno⟩
        by_cases hmore : ∃ e ∈ excs, AnyioLeaf e
        · exact hsome hmore
        · rw [hnone hmore]
          simp
      · obtain ⟨kept, heq⟩ := swallow_cons_other hcalled he excs swallowed rest
        rw [heq]
        simpa [he] using ih hcalled kept true

/-- What a scope makes of an exception is the same in both states. -/
structure SameVerdict (w w' : World τ) : Prop where
  parentScope : ∀ d, (w'.scope d).parentScope = (w.scope d).parentScope
  cancelCalled : ∀ d, (w'.scope d).cancelCalled = (w.scope d).cancelCalled
  shield : ∀ d, (w'.scope d).shield = (w.scope d).shield
  caught : ∀ d, (w'.scope d).cancelledCaught = (w.scope d).cancelledCaught
  entered : w'.entered = w.entered

theorem SameVerdict.trans {w'' : World τ} (h : SameVerdict w w') (h' : SameVerdict w' w'') :
    SameVerdict w w'' where
  parentScope d := (h'.parentScope d).trans (h.parentScope d)
  cancelCalled d := (h'.cancelCalled d).trans (h.cancelCalled d)
  shield d := (h'.shield d).trans (h.shield d)
  caught d := (h'.caught d).trans (h.caught d)
  entered := h'.entered.trans h.entered

/-- The tasks, the children and the host of a scope do not matter to its verdict. -/
theorem SameVerdict.modify (w : World τ) (c : ScopeId) {f : Scope τ → Scope τ}
    (hparent : (f (w.scope c)).parentScope = (w.scope c).parentScope)
    (hcalled : (f (w.scope c)).cancelCalled = (w.scope c).cancelCalled)
    (hshield : (f (w.scope c)).shield = (w.scope c).shield)
    (hcaught : (f (w.scope c)).cancelledCaught = (w.scope c).cancelledCaught) :
    SameVerdict w (w.modify c f) := by
  constructor
  case entered => rfl
  all_goals
    intro d
    cases eq_or_ne d c with
    | inl hd => simp [hd, hparent, hcalled, hshield, hcaught]
    | inr hd => simp [hd]

theorem SameVerdict.of_scope (hscope : w'.scope = w.scope) (hentered : w'.entered = w.entered) :
    SameVerdict w w' := by
  constructor
  case entered => exact hentered
  all_goals
    intro d
    rw [hscope]

/-- `__exit__()` is concluded after its checks, and otherwise leaves the verdict as it was. -/
inductive Exits [DecidableEq τ] (w : World τ) (c : ScopeId) (host : τ) (exc : Option Exc) :
    World τ × Except Error Bool → Prop
  | concluded {mid} (accepted : Accepted w c host) (same : SameVerdict w mid) :
      Exits w c host exc ((mid.conclude c host exc).1, .ok (mid.conclude c host exc).2)
  | refused {w' e} (not : ¬ Accepted w c host)
      (caught : (w'.scope c).cancelledCaught = (w.scope c).cancelledCaught) :
      Exits w c host exc (w', .error e)

variable [DecidableEq τ]

theorem exit_exits (w : World τ) (c : ScopeId) (host : τ) (exc : Option Exc) :
    Exits w c host exc (w.exit c host exc) := by
  obtain ⟨timers, heq⟩ := dropTimer_eq (w.modify c fun s => { s with active := false }) c
  have hclosed : SameVerdict w ((w.modify c fun s => { s with active := false }).dropTimer c) := by
    rw [heq]
    have hset := (SameVerdict.modify w c (f := fun s => { s with active := false }) rfl rfl rfl
      rfl).trans (.modify _ c (f := fun s => { s with timeoutHandle := none }) rfl rfl rfl rfl)
    exact hset.trans (.of_scope rfl rfl)
  have hleft := hclosed.trans (.modify _ c (f := fun s => { s with tasks := s.tasks.erase host })
    rfl rfl rfl rfl)
  have htasks : (((w.modify c fun s => { s with active := false }).dropTimer c).scope c).tasks =
      (w.scope c).tasks := by
    simp [heq]
  have hchildren : ∀ p, ((((w.modify c fun s => { s with active := false }).dropTimer c).modify c
      fun s => { s with tasks := s.tasks.erase host }).scope p).childScopes =
      (w.scope p).childScopes := by
    intro p
    cases eq_or_ne p c with
    | inl hp => simp [heq, hp]
    | inr hp => simp [heq, hp]
  unfold World.exit
  dsimp only
  split_ifs with hactive hhosted hcurrent hlisted
  · exact .refused (fun h => by simp [h.active] at hactive) rfl
  · exact .refused (fun h => hhosted h.hosted) rfl
  · exact .refused (fun h => hcurrent h.current) rfl
  · rw [htasks] at hlisted
    have hparent := hleft.parentScope c
    split
    · rename_i hp
      rw [hparent] at hp
      refine .concluded ⟨by simpa using hactive, not_not.mp hhosted, not_not.mp hcurrent, hlisted, ?_⟩
        (hleft.trans (.of_scope rfl rfl))
      intro p hp'
      rw [hp] at hp'
      cases hp'
    · rename_i p hp
      rw [hparent] at hp
      rw [hchildren]
      split_ifs with hchild
      · refine .concluded ⟨by simpa using hactive, not_not.mp hhosted, not_not.mp hcurrent, hlisted,
          ?_⟩ (hleft.trans (.trans (.modify _ p (f := fun s => { s with
            childScopes := s.childScopes.erase c, tasks := s.tasks.insert host }) rfl rfl rfl rfl)
            (.of_scope rfl rfl)))
        intro p' hp'
        rw [hp] at hp'
        exact Option.some.inj hp' ▸ hchild
      · refine .refused (fun h => hchild (h.child p hp)) ?_
        exact (hleft.trans (.modify _ c (f := fun s => { s with hostTask := none }) rfl rfl rfl
          rfl)).caught c
  · rw [htasks] at hlisted
    refine .refused (fun h => hlisted h.listed) ?_
    exact (hclosed.trans (.modify _ c (f := fun s => { s with hostTask := none }) rfl rfl rfl
      rfl)).caught c

omit [DecidableEq τ] in
/-- A cancelled scope catches a cancellation unless a cancelled parent is visible to it. -/
theorem catches_of_called (hcalled : (w.scope c).cancelCalled = true) :
    w.catches c = !w.parentCancellationIsVisibleToUs c := by
  have heff : w.effectivelyCancelled c = true := by
    simp [World.effectivelyCancelled, World.nearestCancelled, nearest, hcalled]
  rw [World.catches, heff, Bool.true_and]

theorem conclude_uncalled (hcalled : (w.scope c).cancelCalled = false) (host : τ)
    (exc : Option Exc) : (w.conclude c host exc).2 = false ∧
      ((w.conclude c host exc).1.scope c).cancelledCaught = (w.scope c).cancelledCaught := by
  have hundone := ((undoCancellations_quiet w c host).cancelCalled c).trans hcalled
  rw [conclude_caught, World.conclude, swallow_uncalled hundone]
  exact ⟨rfl, undoCancellations_caught w c host c⟩

theorem conclude_called (hcalled : (w.scope c).cancelCalled = true) (host : τ)
    (exc : Option Exc) :
    ((w.conclude c host exc).2 = true ↔
        (∀ e ∈ leaving exc, AnyioLeaf e) ∧ leaving exc ≠ [] ∧ w.catches c = true) ∧
      ((∃ e ∈ leaving exc, AnyioLeaf e) →
        ((w.conclude c host exc).1.scope c).cancelledCaught = w.catches c) ∧
      ((¬ ∃ e ∈ leaving exc, AnyioLeaf e) →
        ((w.conclude c host exc).1.scope c).cancelledCaught = (w.scope c).cancelledCaught) := by
  have hq := undoCancellations_quiet w c host
  have hundone := (hq.cancelCalled c).trans hcalled
  have hanswer := swallow_answer hundone (leaving exc) false false
  obtain ⟨hsome, hnone⟩ := swallow_caught hundone (leaving exc) false false
  rw [hq.catches] at hanswer hsome
  rw [undoCancellations_caught] at hnone
  rw [conclude_caught]
  refine ⟨hanswer.trans ?_, hsome, hnone⟩
  by_cases hnil : leaving exc = []
  · simp [hnil]
  · simp [hnil]

/-- When does `cancelled_caught` tell whether `__exit__()` has suppressed the exception? If a
cancelled scope sees a cancellation by AnyIO leave its block, this is so exactly if it sees nothing
else or if a cancelled parent is visible to it. Otherwise it has to have caught nothing before. -/
theorem caught_iff_suppressed (w : World τ) (c : ScopeId) (host : τ) (exc : Option Exc) :
    (((w.exit c host exc).1.scope c).cancelledCaught = true ↔
        (w.exit c host exc).2 = .ok true) ↔
      (Judges w c host exc → w.parentCancellationIsVisibleToUs c = true ∨
        ∀ e ∈ leaving exc, AnyioLeaf e) ∧
      (¬ Judges w c host exc → (w.scope c).cancelledCaught = false) := by
  have hexits := exit_exits w c host exc
  generalize w.exit c host exc = r at hexits
  cases hexits with
  | refused not hcaught =>
      have hjudges : ¬ Judges w c host exc := fun h => not h.1
      simp [hcaught, hjudges]
  | @concluded mid accepted same =>
      have hvisible := (visible_congr same.parentScope same.cancelCalled same.shield same.entered c).2
      cases hcalled : (w.scope c).cancelCalled with
      | false =>
          have hjudges : ¬ Judges w c host exc := fun h =>
        Bool.eq_false_iff.mp hcalled h.2.1
          obtain ⟨hanswer, hcaught⟩ :=
            conclude_uncalled ((same.cancelCalled c).trans hcalled) host exc
          simp [hanswer, hcaught, same.caught, hjudges]
      | true =>
          have hmid := (same.cancelCalled c).trans hcalled
          obtain ⟨hanswer, hsome, hnone⟩ := conclude_called hmid host exc
          simp only [Except.ok.injEq, hanswer]
          by_cases hleaf : ∃ e ∈ leaving exc, AnyioLeaf e
          · have hjudges : Judges w c host exc := ⟨accepted, hcalled, hleaf⟩
            have hne : leaving exc ≠ [] := by
              obtain ⟨e, he, -⟩ := hleaf
              exact List.ne_nil_of_mem he
            rw [hsome hleaf, catches_of_called hmid, hvisible]
            cases w.parentCancellationIsVisibleToUs c <;> simp [hjudges, hne]
          · have hjudges : ¬ Judges w c host exc := fun h => hleaf h.2.2
            have hfalse : ¬ ((∀ e ∈ leaving exc, AnyioLeaf e) ∧ leaving exc ≠ [] ∧
                mid.catches c = true) := by
              rintro ⟨hall, hne, -⟩
              obtain ⟨e, he⟩ := List.exists_mem_of_ne_nil _ hne
              exact hleaf ⟨e, he, hall e he⟩
            rw [hnone hleaf, same.caught]
            simp [hfalse, hjudges]

/-- A scope is cancelled in its block. -/
def cancelledBlock : World Unit :=
  ((machine Unit).exec Machine.anyStep (initial Unit 12) [.createTask (), .resume (),
    .enter 0, .cancel 0]).get (by decide)

/-- An error together with the cancellation. -/
def mixedGroup : Exc := .group [.cancelled (some "Cancelled by cancel scope 0") [], .other]

/-- The group leaves the block and is not suppressed, but the scope has "caught" it. -/
theorem caught_not_suppressed :
    (machine Unit).Reachable Machine.anyStep (initial Unit 12) cancelledBlock ∧
      (cancelledBlock.exit 0 () (some mixedGroup)).2.toOption = some false ∧
      ((cancelledBlock.exit 0 () (some mixedGroup)).1.scope 0).cancelledCaught = true :=
  ⟨Machine.exec_get_reachable _ _ _, by decide, by decide⟩

end Anyio.CancelScope
