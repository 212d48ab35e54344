import Anyio.CancelScope.Stack

/-!
# Who catches a cancellation

A cancellation on its way out passes the `__exit__()` calls of the scopes around
a task. Each call decides from its own flags and from the scopes around it; seen
from the innermost scope it is caught by the outermost cancelled scope up to the
first shield.
-/

namespace Anyio.CancelScope

open Asyncio Library

variable {τ : Type*}

/-- A `CancelledError` that `is_anyio_cancellation` accepts, itself or in its contexts. -/
def AnyioLeaf : Exc → Prop
  | .cancelled message contexts => ∃ m ∈ message :: contexts, isAnyioCancellation m = true
  | _ => False

/-- A cancellation by AnyIO, or a group of nothing else. -/
def AnyioCancellation (exc : Exc) : Prop :=
  iterateExceptions exc ≠ [] ∧ ∀ e ∈ iterateExceptions exc, AnyioLeaf e

/-- The outermost cancelled scope of a list up to its first shielded one. -/
def World.catcher (w : World τ) (chain : List ScopeId) : Option ScopeId :=
  outermost (fun c => (w.scope c).cancelCalled) (fun c => (w.scope c).shield) chain

/-- The scopes have the same `_cancel_called` and `_shield` in both states. -/
def SameFlags (chain : List ScopeId) (w w' : World τ) : Prop :=
  ∀ d ∈ chain, (w'.scope d).cancelCalled = (w.scope d).cancelCalled ∧
    (w'.scope d).shield = (w.scope d).shield

/-- One `__exit__()` of an unwinding, its answer and the state after it. -/
structure Exited (τ : Type*) where
  scope : ScopeId
  swallowed : Bool
  after : World τ

/-- The argument of `__exit__()`, while a cancellation is on its way or after it was caught. -/
def Passes : Bool → Option Exc → Prop
  | true, some exc => AnyioCancellation exc
  | false, none => True
  | _, _ => False

variable [DecidableEq τ]

/-- Task `t` leaves one scope after the other, with a cancellation on its way
until one of them swallows it. Anything may happen in between, but the flags of
the scopes of `chain` stay as they are. -/
inductive Unwinds (t : τ) (chain : List ScopeId) :
    Bool → World τ → List (Exited τ) → World τ → Prop
  | done {raising w} : Unwinds t chain raising w [] w
  | exit {raising exc w w₁ w₂ w' c b rest} (meanwhile : (machine τ).Reachable Fresh w w₁)
      (flags : SameFlags chain w w₁) (hcur : w₁.current = some t) (hexc : Passes raising exc)
      (h : step w₁ (.exit c exc) = some (w₂, .ok (some b)))
      (next : Unwinds t chain (raising && !b) w₂ rest w') :
      Unwinds t chain raising w (⟨c, b, w₂⟩ :: rest) w'

/-- Registered, and a scope has caught nothing before it is left. -/
structure Coherent (w : World τ) : Prop extends Registered w where
  called : Called w
  uncaught : ∀ c, c ∉ w.entered ∨ (w.scope c).active = true →
    (w.scope c).cancelledCaught = false

variable {w w' w₁ w₂ mid : World τ} {a : Action τ} {o : Answer} {c d k x : ScopeId} {t host : τ}
  {exc : Option Exc} {e : Exc} {b raising : Bool} {chain stack beyond rest : List ScopeId}
  {trace : List (Exited τ)} {start : Option ScopeId}

/-! ## The answer of one call -/

omit [DecidableEq τ] in
theorem nearestCancelled_congr (hparent : ∀ d, (w'.scope d).parentScope = (w.scope d).parentScope)
    (hcalled : ∀ d, (w'.scope d).cancelCalled = (w.scope d).cancelCalled)
    (hshield : ∀ d, (w'.scope d).shield = (w.scope d).shield) (hentered : w'.entered = w.entered)
    (start : Option ScopeId) : w'.nearestCancelled start = w.nearestCancelled start := by
  unfold World.nearestCancelled
  simp only [hparent, hcalled, hshield, hentered]

omit [DecidableEq τ] in
/-- Whether `_uncancel` catches depends on the flags and the parents only. -/
theorem visible_congr (hparent : ∀ d, (w'.scope d).parentScope = (w.scope d).parentScope)
    (hcalled : ∀ d, (w'.scope d).cancelCalled = (w.scope d).cancelCalled)
    (hshield : ∀ d, (w'.scope d).shield = (w.scope d).shield) (hentered : w'.entered = w.entered)
    (c : ScopeId) : w'.effectivelyCancelled c = w.effectivelyCancelled c ∧
      w'.parentCancellationIsVisibleToUs c = w.parentCancellationIsVisibleToUs c := by
  have hnear := nearestCancelled_congr hparent hcalled hshield hentered
  constructor
  · rw [World.effectivelyCancelled, World.effectivelyCancelled, hnear]
  · unfold World.parentCancellationIsVisibleToUs World.effectivelyCancelled
    rw [hparent, hshield]
    simp only [hnear]

/-- What `_uncancel` answers for a cancellation by AnyIO. -/
def World.catches (w : World τ) (c : ScopeId) : Bool :=
  w.effectivelyCancelled c && !w.parentCancellationIsVisibleToUs c

omit [DecidableEq τ] in
theorem SameTree.catches (h : SameTree w w') (c : ScopeId) : w'.catches c = w.catches c := by
  obtain ⟨heff, hvis⟩ := visible_congr h.parentScope h.cancelCalled h.shield h.entered c
  rw [World.catches, World.catches, heff, hvis]

omit [DecidableEq τ] in
theorem uncancel_anyio {messages : List (Option String)}
    (h : ∃ m ∈ messages, isAnyioCancellation m = true) :
    w.uncancel c messages =
      (w.modify c fun s => { s with cancelledCaught := w.catches c }, w.catches c) := by
  induction messages with
  | nil => simp at h
  | cons message contexts ih =>
      unfold World.uncancel
      split_ifs with hm
      · rfl
      · apply ih
        obtain ⟨m, hmem, hanyio⟩ := h
        rcases List.mem_cons.mp hmem with rfl | hmem
        · exact absurd hanyio hm
        · exact ⟨m, hmem, hanyio⟩

omit [DecidableEq τ] in
/-- A cancellation by AnyIO that leaves a cancelled scope is judged, and with it the others. -/
theorem swallow_cons_anyio (hcalled : (w.scope c).cancelCalled = true) (he : AnyioLeaf e)
    (excs : List Exc) (swallowed others : Bool) :
    World.swallow c (e :: excs) w swallowed others =
      World.swallow c excs (w.modify c fun s => { s with cancelledCaught := w.catches c })
        (w.catches c) (others || !w.catches c) := by
  match e, he with
  | .cancelled message contexts, he => rw [World.swallow, if_pos hcalled, uncancel_anyio he]

omit [DecidableEq τ] in
/-- A cancelled scope gives the same answer to every cancellation of a group. -/
theorem swallow_anyio (hcalled : (w.scope c).cancelCalled = true) {excs : List Exc}
    (he : AnyioLeaf e) (hall : ∀ e ∈ excs, AnyioLeaf e) (swallowed others : Bool) :
    (World.swallow c (e :: excs) w swallowed others).2 = (w.catches c && !others) ∧
      ((World.swallow c (e :: excs) w swallowed others).1.scope c).cancelledCaught =
        w.catches c := by
  rw [swallow_cons_anyio hcalled he]
  induction excs generalizing e w swallowed others with
  | nil =>
      rw [World.swallow]
      cases w.catches c <;> simp
  | cons e' excs ih =>
      have htree : SameTree w (w.modify c fun s => { s with cancelledCaught := w.catches c }) :=
        .modify w c rfl
      have hcalled' := (htree.cancelCalled c).trans hcalled
      have he' := hall e' List.mem_cons_self
      have hnext := ih hcalled' he' (fun e he => hall e (List.mem_cons_of_mem e' he))
        (w.catches c) (others || !w.catches c)
      rw [htree.catches] at hnext
      rw [swallow_cons_anyio hcalled' he', htree.catches, hnext.1]
      refine ⟨?_, hnext.2⟩
      cases w.catches c <;> simp

omit [DecidableEq τ] in
/-- A scope that was not cancelled swallows nothing. -/
theorem swallow_uncalled (hcalled : (w.scope c).cancelCalled = false) (excs : List Exc)
    (others : Bool) : World.swallow c excs w false others = (w, false) := by
  induction excs generalizing others with
  | nil => rfl
  | cons e excs ih =>
      cases e with
      | cancelled message contexts => simp [World.swallow, hcalled, ih]
      | other => exact ih true
      | group _ => exact ih true

/-- Undoing the cancellations does not touch `_cancelled_caught`. -/
theorem undoCancellations_caught (w : World τ) (c : ScopeId) (host : τ) (d : ScopeId) :
    ((w.undoCancellations c host).scope d).cancelledCaught = (w.scope d).cancelledCaught := by
  have hloop : ∀ (limit n : Nat) (v : World τ),
      ((World.uncancelHost c host limit n v).scope d).cancelledCaught =
        (v.scope d).cancelledCaught := by
    intro limit n
    induction n with
    | zero => exact fun v => rfl
    | succ n ih =>
        intro v
        have hstep : ((v.modify c fun s => { s with cancelCalls := n }).scope d).cancelledCaught =
            (v.scope d).cancelledCaught := by
          by_cases hd : d = c <;> simp [hd]
        unfold World.uncancelHost
        simp only
        split_ifs
        · exact hstep
        · exact (ih _).trans hstep
  unfold World.undoCancellations
  split
  · rfl
  · exact hloop _ _ _

/-- The end of an exit keeps what the loop over the exceptions has found. -/
theorem conclude_caught (w : World τ) (c : ScopeId) (host : τ) (exc : Option Exc) :
    ((w.conclude c host exc).1.scope c).cancelledCaught =
      ((World.swallow c ((exc.map iterateExceptions).getD []) (w.undoCancellations c host) false
        false).1.scope c).cancelledCaught := by
  obtain ⟨origin, hcharged, -⟩ : ∃ origin, Charged none none origin _ _ ∧ _ := restart_charged
    (World.swallow c ((exc.map iterateExceptions).getD []) (w.undoCancellations c host) false
      false).1 c
  simpa [World.conclude] using hcharged.caught c

theorem conclude_answer (w : World τ) (c : ScopeId) (host : τ) (he : AnyioCancellation e)
    (hbefore : (w.scope c).cancelledCaught = false) :
    (w.conclude c host (some e)).2 = ((w.scope c).cancelCalled && w.catches c) ∧
      ((w.conclude c host (some e)).1.scope c).cancelledCaught =
        ((w.scope c).cancelCalled && w.catches c) := by
  have hq := undoCancellations_quiet w c host
  obtain ⟨hne, hall⟩ := he
  cases hexcs : iterateExceptions e with
  | nil => exact absurd hexcs hne
  | cons first others =>
      rw [hexcs] at hall
      rw [conclude_caught]
      simp only [World.conclude, Option.map_some, Option.getD_some, hexcs]
      cases hcalled : (w.scope c).cancelCalled with
      | true =>
          obtain ⟨hanswer, hcaught⟩ := swallow_anyio ((hq.cancelCalled c).trans hcalled)
            (hall first List.mem_cons_self) (fun e he => hall e (List.mem_cons_of_mem first he))
            false false
          rw [hanswer, hcaught, hq.catches]
          simp
      | false =>
          rw [swallow_uncalled ((hq.cancelCalled c).trans hcalled)]
          exact ⟨rfl, (undoCancellations_caught w c host c).trans hbefore⟩

/-- A scope left without an exception swallows nothing. -/
theorem conclude_none (w : World τ) (c : ScopeId) (host : τ) :
    (w.conclude c host none).2 = false ∧
      ((w.conclude c host none).1.scope c).cancelledCaught = (w.scope c).cancelledCaught :=
  ⟨rfl, (conclude_caught w c host none).trans (undoCancellations_caught w c host c)⟩

theorem conclude_flags (w : World τ) (c : ScopeId) (host : τ) (exc : Option Exc) (d : ScopeId) :
    ((w.conclude c host exc).1.scope d).cancelCalled = (w.scope d).cancelCalled ∧
      ((w.conclude c host exc).1.scope d).shield = (w.scope d).shield := by
  obtain ⟨undone, restarted, origin, hundone, -, htree, -, -, heq⟩ := conclude_stages w c host exc
  obtain ⟨calls, caught, hscope⟩ := hundone.scope
  have hflags : (restarted.scope d).cancelCalled = (w.scope d).cancelCalled ∧
      (restarted.scope d).shield = (w.scope d).shield := by
    rw [htree.cancelCalled, htree.shield, hscope]
    exact ⟨rfl, rfl⟩
  rw [heq]
  by_cases hd : d = c
  · subst hd
    simpa using hflags
  · simpa [hd] using hflags

/-! ## Coherent runs -/

/-- No step changes what was caught by a scope that was never entered. -/
theorem Change.fresh_caught (change : Change w a w' o) (reg : Registered w) (hc : c ∉ w.entered) :
    (w'.scope c).cancelledCaught = (w.scope c).cancelledCaught := by
  cases change with
  | refused => rfl
  | @entered d host mid _ _ hmid =>
      have hcharged : Charged (some d) none d mid (mid.activate d host) :=
        activate_charged mid d host
      rw [hcharged.caught, (Scope.attributes_ext (hmid.attributes c)).2.2.2.1]
  | @left d host exc mid _ hactive _ _ hmid =>
      have hcd : c ≠ d := fun h => hc (h ▸ reg.known d hactive)
      obtain ⟨undone, restarted, origin, hundone, hcharged, -, -, -, heq⟩ :=
        conclude_stages mid d host exc
      obtain ⟨_, _, hscope⟩ := hundone.scope
      rw [heq]
      simp [hcd, hcharged.caught, hscope, (Scope.attributes_ext (hmid.attributes c)).2.2.2.1]
  | charged _ _ _ hcharged => exact hcharged.caught c
  | placed _ hp _ => rw [hp.scope]
  | scheduled _ hs => rw [hs.scope]

theorem Coherent.step (coh : Coherent w) (ok : Fresh w a) (h : step w a = some (w', o)) :
    Coherent w' := by
  have change := step_change coh.toRegistered coh.called ok h
  refine ⟨coh.toRegistered.step coh.called ok h, coh.called.step change, fun c hc => ?_⟩
  by_cases hknown : c ∈ w.entered
  · have hkept := change.kept hknown
    have hactive : (w'.scope c).active = true := hc.resolve_left (not_not.mpr hkept.entered)
    rw [hkept.caught fun _ => hactive]
    exact coh.uncaught c (.inr (hkept.active hactive).1)
  · rw [change.fresh_caught coh.toRegistered hknown]
    exact coh.uncaught c (.inl hknown)

omit [DecidableEq τ] in
theorem Coherent.initial (minor : Nat) : Coherent (CancelScope.initial τ minor) where
  toRegistered := .initial minor
  called _ h := nomatch h
  uncaught _ _ := rfl

/-- What a run leaves of a scope that was entered before. -/
structure Persists (w w' : World τ) (c : ScopeId) : Prop where
  entered : c ∈ w'.entered
  parentScope : (w'.scope c).parentScope = (w.scope c).parentScope
  ended : (w.scope c).active = false → (w'.scope c).active = false ∧
    (w'.scope c).cancelledCaught = (w.scope c).cancelledCaught

omit [DecidableEq τ] in
theorem Persists.trans (h : Persists w w₁ c) (h' : Persists w₁ w₂ c) : Persists w w₂ c where
  entered := h'.entered
  parentScope := h'.parentScope.trans h.parentScope
  ended ha := ⟨(h'.ended (h.ended ha).1).1, (h'.ended (h.ended ha).1).2.trans (h.ended ha).2⟩

omit [DecidableEq τ] in
theorem Kept.persists (h : Kept w w' c) : Persists w w' c where
  entered := h.entered
  parentScope := h.parentScope
  ended ha := by
    refine ⟨?_, h.caught fun hb => ?_⟩
    · by_contra hb
      rw [Bool.not_eq_false] at hb
      rw [(h.active hb).1] at ha
      cases ha
    · rw [hb] at ha
      cases ha

theorem Coherent.run (coh : Coherent w) (run : (machine τ).Reachable Fresh w w') :
    Coherent w' ∧ ∀ c ∈ w.entered, Persists w w' c := by
  refine run.invariant (I := fun v => Coherent v ∧ ∀ c ∈ w.entered, Persists w v c)
    ⟨coh, fun c hc => ⟨hc, rfl, fun ha => ⟨ha, rfl⟩⟩⟩ ?_
  rintro v a v' o ⟨hv, hkeep⟩ ok h
  refine ⟨hv.step ok h, fun c hc => (hkeep c hc).trans ?_⟩
  exact ((step_change hv.toRegistered hv.called ok h).kept (hkeep c hc).entered).persists

omit [DecidableEq τ] in
theorem fresh_exit : Fresh w (.exit c exc) := trivial

theorem Unwinds.persists (h : Unwinds t chain raising w trace w') (coh : Coherent w) :
    ∀ c ∈ w.entered, Persists w w' c := by
  induction h with
  | done => exact fun c hc => ⟨hc, rfl, fun ha => ⟨ha, rfl⟩⟩
  | exit meanwhile _ _ _ h _ ih =>
      obtain ⟨coh₁, hkeep⟩ := coh.run meanwhile
      intro c hc
      have hmid := hkeep c hc
      have hexit := (step_change coh₁.toRegistered coh₁.called fresh_exit h).kept hmid.entered
      exact (hmid.trans hexit.persists).trans (ih (coh₁.step fresh_exit h) c hexit.entered)

/-! ## The whole way out -/

omit [DecidableEq τ] in
/-- The program and the list of the scopes around `x` agree on whether one is cancelled. -/
theorem Registered.effectivelyCancelled (reg : Registered w)
    (h : Lineage (fun c => (w.scope c).parentScope) (some x) chain) :
    w.effectivelyCancelled x = (w.catcher chain).isSome := by
  have hiff : w.effectivelyCancelled x = true ↔ (w.catcher chain).isSome = true := by
    rw [Option.isSome_iff_ne_none, World.catcher, ← h.nearest_iff, World.effectivelyCancelled,
      Option.isSome_iff_exists]
    constructor
    · rintro ⟨c, hc⟩
      obtain ⟨y, hy, hn⟩ := nearest_sound hc
      cases hy
      exact ⟨c, hn⟩
    · rintro ⟨c, hc⟩
      refine ⟨c, nearest_complete (fun y p hp => (reg.older y p hp).1) hc ?_⟩
      exact Nat.lt_succ_of_le List.idxOf_le_length
  exact Bool.eq_iff_iff.mpr hiff

omit [DecidableEq τ] in
/-- The local decision of `__exit__()` is the one that the whole list makes. -/
theorem Registered.catches (reg : Registered w) (hnot : c ∉ rest)
    (h : Lineage (fun c => (w.scope c).parentScope) (some c) (c :: rest)) :
    ((w.scope c).cancelCalled && w.catches c) = decide (w.catcher (c :: rest) = some c) := by
  have heff := reg.effectivelyCancelled h
  have hvis : w.parentCancellationIsVisibleToUs c =
      (!(w.scope c).shield && (w.catcher rest).isSome) := by
    unfold World.parentCancellationIsVisibleToUs
    cases h with
    | cons above =>
        cases hp : (w.scope c).parentScope with
        | none =>
            rw [hp] at above
            cases above
            simp [World.catcher, outermost, upTo]
        | some p =>
            rw [hp] at above
            simp [reg.effectivelyCancelled above]
  have hself : w.catcher (c :: rest) = some c ↔ (w.scope c).cancelCalled = true ∧
      ((w.scope c).shield = true ∨ w.catcher rest = none) := outermost_cons_eq_self hnot
  rw [World.catches, heff, hvis, Bool.eq_iff_iff, decide_eq_true_iff]
  constructor
  · intro hb
    rw [hself]
    cases hs : (w.scope c).shield <;> cases hr : w.catcher rest <;> simp_all
  · intro hb
    obtain ⟨hcalled, hvisible⟩ := hself.mp hb
    rw [hb]
    rcases hvisible with hs | hr
    · simp [hcalled, hs]
    · simp [hcalled, hr]

/-- What a call of `__exit__()` does to the scope and to the task. -/
structure Leaves (w : World τ) (t : τ) (c : ScopeId) (raising b : Bool) (w' : World τ) :
    Prop where
  currentScope : w'.currentScope t = (w.scope c).parentScope
  flags : ∀ chain, SameFlags chain w w'
  active : (w'.scope c).active = false
  answer : b = (raising && ((w.scope c).cancelCalled && w.catches c))
  caught : (w'.scope c).cancelledCaught = b

theorem Coherent.leaves (coh : Coherent w) (hcur : w.current = some t) (hexc : Passes raising exc)
    (h : CancelScope.step w (.exit c exc) = some (w', .ok (some b))) :
    Leaves w t c raising b w' := by
  cases step_change coh.toRegistered coh.called fresh_exit h with
  | @left _ host _ mid hcur' hactive _ _ hmid =>
      rw [hcur, Option.some.injEq] at hcur'
      subst hcur'
      have hattr := fun d => Scope.attributes_ext (hmid.attributes d)
      have hcatches : mid.catches c = w.catches c := by
        obtain ⟨heff, hvis⟩ := visible_congr hmid.parentScope (fun d => (hattr d).2.1)
          (fun d => (hattr d).1) hmid.entered c
        rw [World.catches, World.catches, heff, hvis]
      have hbefore : (mid.scope c).cancelledCaught = false :=
        (hattr c).2.2.2.1.trans (coh.uncaught c (.inr hactive))
      have hanswer : (mid.conclude c t exc).2 =
            (raising && ((w.scope c).cancelCalled && w.catches c)) ∧
          ((mid.conclude c t exc).1.scope c).cancelledCaught =
            (raising && ((w.scope c).cancelCalled && w.catches c)) := by
        match raising, exc, hexc with
        | true, some e, he =>
            rw [← hcatches, ← (hattr c).2.1]
            simpa using conclude_answer mid c t he hbefore
        | false, none, _ =>
            obtain ⟨hfalse, hcaught⟩ := conclude_none mid c t
            exact ⟨hfalse, hcaught.trans hbefore⟩
      refine ⟨?_, fun chain d _ => ?_, ?_, hanswer.1, hanswer.2.trans hanswer.1.symm⟩
      · rw [(conclude_links mid c t exc).currentScope]
        exact (hmid.currentScope t).trans (if_pos rfl)
      · obtain ⟨hcalled, hshield⟩ := conclude_flags mid c t exc d
        exact ⟨hcalled.trans (hattr d).2.1, hshield.trans (hattr d).1⟩
      · rw [(conclude_links mid c t exc).active]
        simp [hmid.active]

omit [DecidableEq τ] in
theorem SameFlags.catcher (h : SameFlags chain w w') (hsub : ∀ d ∈ rest, d ∈ chain) :
    w'.catcher rest = w.catcher rest :=
  outermost_congr (fun d hd => (h d (hsub d hd)).1) fun d hd => (h d (hsub d hd)).2

/-- The scopes from one on outwards are the ones ahead of an unwinding. -/
structure Ahead (w : World τ) (chain : List ScopeId) (start : Option ScopeId)
    (l : List ScopeId) : Prop where
  lineage : Lineage (fun c => (w.scope c).parentScope) start l
  entered : ∀ d ∈ l, d ∈ w.entered
  watched : ∀ d ∈ l, d ∈ chain

omit [DecidableEq τ] in
theorem Ahead.persists (h : Ahead w chain start stack) (hkeep : ∀ d ∈ stack, Persists w w' d) :
    Ahead w' chain start stack where
  lineage := h.lineage.congr fun d hd => (hkeep d hd).parentScope
  entered d hd := (hkeep d hd).entered
  watched := h.watched

omit [DecidableEq τ] in
theorem Ahead.tail (h : Ahead w chain start (c :: rest)) :
    Ahead w chain (w.scope c).parentScope rest where
  lineage := by
    cases h.lineage with
    | cons above => exact above
  entered d hd := h.entered d (List.mem_cons_of_mem c hd)
  watched d hd := h.watched d (List.mem_cons_of_mem c hd)

omit [DecidableEq τ] in
theorem Ahead.head (h : Ahead w chain start (c :: rest)) :
    Lineage (fun c => (w.scope c).parentScope) (some c) (c :: rest) := by
  cases h.lineage with
  | cons above => exact .cons above

omit [DecidableEq τ] in
theorem Ahead.nodup (h : Ahead w chain start stack) (reg : Registered w) : stack.Nodup :=
  h.lineage.nodup fun y p hp => (reg.older y p hp).1

/-- By induction on the calls: the scope that catches is the same for the scopes
that are still to be left, until it is left itself. -/
theorem Unwinds.outcome (h : Unwinds t chain raising w trace w') (coh : Coherent w)
    (ahead : Ahead w chain start (trace.map Exited.scope ++ beyond))
    (hc : raising = true → w.catcher (trace.map Exited.scope ++ beyond) = some k)
    (hk : raising = false → k ∉ trace.map Exited.scope) :
    ∀ e ∈ trace, e.swallowed = decide (e.scope = k) ∧
      (w'.scope e.scope).cancelledCaught = e.swallowed ∧
      (e.swallowed = true → (w.scope k).shield = true ∨
        ∀ p, e.after.currentScope t = some p → e.after.effectivelyCancelled p = false) := by
  induction h generalizing start with
  | done => simp
  | @exit raising exc w w₁ w₂ w' c b rest meanwhile flags hcur hexc h next ih =>
      simp only [List.map_cons, List.cons_append] at ahead hc hk
      obtain ⟨coh₁, hkeep⟩ := coh.run meanwhile
      have coh₂ := coh₁.step fresh_exit h
      have hexit := coh₁.leaves hcur hexc h
      have ahead₁ := ahead.persists fun d hd => hkeep d (ahead.entered d hd)
      have hkept : ∀ d ∈ w₁.entered, Persists w₁ w₂ d := fun d hd =>
        ((step_change coh₁.toRegistered coh₁.called fresh_exit h).kept hd).persists
      have ahead₂ := ahead₁.tail.persists fun d hd => hkept d (ahead₁.tail.entered d hd)
      obtain ⟨hnot, -⟩ := List.nodup_cons.mp (ahead₁.nodup coh₁.toRegistered)
      have hcatcher : w₁.catcher (c :: (rest.map Exited.scope ++ beyond)) =
          w.catcher (c :: (rest.map Exited.scope ++ beyond)) := flags.catcher ahead.watched
      have hcatcher₂ : w₂.catcher (rest.map Exited.scope ++ beyond) =
          w₁.catcher (rest.map Exited.scope ++ beyond) :=
        (hexit.flags chain).catcher ahead₂.watched
      have hdecides := coh₁.catches hnot ahead₁.head
      have hanswer : b = decide (c = k) := by
        rw [hexit.answer, hdecides, hcatcher]
        cases hr : raising with
        | true => simp [hc hr, eq_comm]
        | false =>
            have hne : c ≠ k := fun heq => hk hr (heq ▸ List.mem_cons_self)
            simp [hne]
      have hcaught : (w'.scope c).cancelledCaught = b := by
        have hc₂ := (hkept c (ahead₁.entered c List.mem_cons_self)).entered
        rw [((next.persists coh₂ c hc₂).ended hexit.active).2, hexit.caught]
      have hc₂ : (raising && !b) = true →
          w₂.catcher (rest.map Exited.scope ++ beyond) = some k := by
        intro hr
        obtain ⟨hr, hb⟩ := Bool.and_eq_true_iff.mp hr
        rw [hanswer] at hb
        rw [hcatcher₂]
        have hck : k ≠ c := fun heq => by simp [heq] at hb
        exact outermost_of_cons (hcatcher.trans (hc hr)) hck
      have hk₂ : (raising && !b) = false → k ∉ rest.map Exited.scope := by
        intro hr hmem
        rcases Bool.and_eq_false_iff.mp hr with hr | hb
        · exact hk hr (List.mem_cons_of_mem c hmem)
        · rw [hanswer] at hb
          have hck : c = k := by simpa using hb
          exact hnot (hck ▸ List.mem_append_left beyond hmem)
      intro e he
      rcases List.mem_cons.mp he with rfl | he
      · refine ⟨hanswer, hcaught, fun hb => ?_⟩
        subst hb
        have hck : c = k := of_decide_eq_true hanswer.symm
        subst hck
        have hself : w₁.catcher (c :: (rest.map Exited.scope ++ beyond)) = some c := by
          apply of_decide_eq_true
          rw [← hdecides]
          exact (Bool.and_eq_true_iff.mp hexit.answer.symm).2
        obtain ⟨-, hs | hnone⟩ := (outermost_cons_eq_self hnot).mp hself
        · exact .inl ((flags c (ahead.watched c List.mem_cons_self)).2 ▸ hs)
        · refine .inr fun p hp => ?_
          have hstart := hexit.currentScope.symm.trans hp
          have hlineage := ahead₂.lineage
          rw [hstart] at hlineage
          have hclear : w₂.catcher (rest.map Exited.scope ++ beyond) = none :=
            hcatcher₂.trans hnone
          rw [coh₂.effectivelyCancelled hlineage, hclear]
          rfl
      · obtain ⟨hswallowed, hcaught', hafter⟩ := ih coh₂ ahead₂ hc₂ hk₂ e he
        refine ⟨hswallowed, hcaught', fun hb => (hafter hb).imp_left fun hshield => ?_⟩
        have hek : e.scope = k := by
          rw [hswallowed] at hb
          exact of_decide_eq_true hb
        have hmem : k ∈ chain := by
          rw [← hek]
          exact ahead₂.watched _ (List.mem_append_left beyond (List.mem_map_of_mem he))
        rw [← (flags k hmem).2, ← (hexit.flags chain k hmem).2]
        exact hshield

theorem Coherent.of_run {minor : Nat}
    (run : (machine τ).Reachable Fresh (CancelScope.initial τ minor) w) : Coherent w :=
  run.invariant (.initial minor) fun _ _ _ _ coh ok h => coh.step ok h

/-- A task leaves the scopes around it, of which those `beyond` are not left, with
a cancellation on its way out. If the innermost scope is effectively cancelled,
the cancellation is swallowed by the outermost cancelled scope up to the first
shield and by no other. What runs next is in a scope that is not effectively
cancelled, unless that scope is the shield. -/
theorem cancellation_caught_once {minor : Nat}
    (run : (machine τ).Reachable Fresh (initial τ minor) w) (inside : w.currentScope t = some x)
    (lineage : Lineage (fun c => (w.scope c).parentScope) (some x)
      (trace.map Exited.scope ++ beyond))
    (cancelled : w.effectivelyCancelled x = true)
    (unwinding : Unwinds t (trace.map Exited.scope ++ beyond) true w trace w') :
    ∃ c, w.catcher (trace.map Exited.scope ++ beyond) = some c ∧
      (∀ e ∈ trace, e.swallowed = decide (e.scope = c) ∧
        (w'.scope e.scope).cancelledCaught = decide (e.scope = c) ∧
        (e.scope = c → (w.scope c).shield = false → ∀ p, e.after.currentScope t = some p →
          e.after.effectivelyCancelled p = false)) ∧
      (c ∉ beyond → (trace.filter Exited.swallowed).map Exited.scope = [c]) := by
  have coh := Coherent.of_run run
  rw [coh.effectivelyCancelled lineage] at cancelled
  obtain ⟨c, hc⟩ := Option.isSome_iff_exists.mp cancelled
  have hentered : ∀ d ∈ trace.map Exited.scope ++ beyond, d ∈ w.entered := by
    apply lineage.closed (P := fun d => d ∈ w.entered)
    · rintro y ⟨⟩
      exact coh.located t x inside
    · intro y p _ hp
      exact List.idxOf_lt_length_iff.mp ((coh.older y p hp).1.trans_le List.idxOf_le_length)
  have houtcome := unwinding.outcome coh ⟨lineage, hentered, fun _ => id⟩ (fun _ => hc) (by simp)
  refine ⟨c, hc, fun e he => ?_, fun hbeyond => ?_⟩
  · obtain ⟨hswallowed, hcaught, hafter⟩ := houtcome e he
    refine ⟨hswallowed, hcaught.trans hswallowed, fun hec hshield => ?_⟩
    apply (hafter (hswallowed.trans (decide_eq_true hec))).resolve_left
    simp [hshield]
  · have hmem : c ∈ trace.map Exited.scope :=
      (List.mem_append.mp (mem_of_outermost hc)).resolve_right hbeyond
    have hnodup : (trace.map Exited.scope).Nodup :=
      (List.nodup_append.mp (lineage.nodup fun y p hp => (coh.older y p hp).1)).1
    calc (trace.filter Exited.swallowed).map Exited.scope
        = (trace.filter ((fun d => decide (d = c)) ∘ Exited.scope)).map Exited.scope := by
          rw [List.filter_congr fun e he => (houtcome e he).1]
          rfl
      _ = (trace.map Exited.scope).filter fun d => decide (d = c) := List.filter_map.symm
      _ = [c] := by
          rw [List.filter_eq, List.count_eq_one_of_mem hnodup hmem]
          rfl

/-- Task 0 waits inside four scopes. The outermost one is cancelled, the next one
is shielded, and then the third one is cancelled too. -/
def fourScopes : World (Fin 2) :=
  ((machine (Fin 2)).exec Fresh (initial (Fin 2) 12)
    [.createTask 0, .resume 0, .enter 0, .setShield 1 true, .enter 1, .enter 2, .enter 3,
      .createFuture, .await 0, .cancel 0, .cancel 2, .resume 0]).get (by decide)

def cancelledByTwo : Exc := .cancelled (some "Cancelled by cancel scope 2") []

def leftThree : World (Fin 2) := (fourScopes.exit 3 0 (some cancelledByTwo)).1

def leftTwo : World (Fin 2) := (leftThree.exit 2 0 (some cancelledByTwo)).1

def leftOne : World (Fin 2) := (leftTwo.exit 1 0 none).1

theorem cancellation_caught_once_shielded : fourScopes.catcher [3, 2, 1, 0] = some 2 ∧
    (leftOne.scope 2).cancelledCaught = true ∧ leftTwo.effectivelyCancelled 1 = false := by
  have run : (machine (Fin 2)).Reachable Fresh (initial (Fin 2) 12) fourScopes :=
    Machine.exec_get_reachable _ _ _
  have hexc : Passes true (some cancelledByTwo) := by
    refine ⟨by simp [cancelledByTwo, iterateExceptions], ?_⟩
    simp only [cancelledByTwo, iterateExceptions, List.forall_mem_singleton, AnyioLeaf]
    exact ⟨_, List.mem_cons_self, by decide⟩
  let exits : List (Exited (Fin 2)) :=
    [⟨3, false, leftThree⟩, ⟨2, true, leftTwo⟩, ⟨1, false, leftOne⟩]
  have lineage : Lineage (fun c => (fourScopes.scope c).parentScope) (some 3)
      (exits.map Exited.scope ++ [0]) := .cons (.cons (.cons (.cons .nil)))
  have unwinding : Unwinds 0 (exits.map Exited.scope ++ [0]) true fourScopes exits leftOne := by
    have three : step fourScopes (.exit 3 (some cancelledByTwo)) =
      some (leftThree, .ok (some false)) := rfl
    have two : step leftThree (.exit 2 (some cancelledByTwo)) =
      some (leftTwo, .ok (some true)) := rfl
    have one : step leftTwo (.exit 1 none) = some (leftOne, .ok (some false)) := rfl
    refine .exit .refl (fun _ _ => ⟨rfl, rfl⟩) (by decide) hexc three ?_
    refine .exit .refl (fun _ _ => ⟨rfl, rfl⟩) (by decide) hexc two ?_
    have hnone : Passes false none := trivial
    exact .exit .refl (fun _ _ => ⟨rfl, rfl⟩) (by decide) hnone one .done
  obtain ⟨c, hc, hexits, -⟩ :=
    cancellation_caught_once run (by decide) lineage (by decide) unwinding
  have hcatcher : fourScopes.catcher [3, 2, 1, 0] = some 2 := by decide
  obtain rfl : c = 2 := Option.some.inj (hc.symm.trans hcatcher)
  obtain ⟨-, hcaught, hafter⟩ := hexits ⟨2, true, leftTwo⟩ (by simp [exits])
  exact ⟨hcatcher, hcaught, hafter rfl (by decide) 1 (by decide)⟩

end Anyio.CancelScope
