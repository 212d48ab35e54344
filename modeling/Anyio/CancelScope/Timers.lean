import Anyio.CancelScope.Handles

/-!
# The timer of a deadline

`__enter__()`, the timer itself and the setter of `deadline` set a timer, and
the last two, `cancel()` and `__exit__()` drop the one that was set before. A
scope that is entered and not cancelled has the one timer for its deadline;
outside of its block it has none, so that no timer of it can run there.
-/

namespace Anyio.CancelScope

open Asyncio Library

variable {τ : Type*} {w w' w'' : World τ} {c d : ScopeId} {g h : HandleId}

/-- A scope without what its timer does not depend on. -/
def Scope.clock (s : Scope τ) : Scope τ := { s.handles with cancelHandle := none }

/-- The two states have the same timers. -/
structure SameClocks (w w' : World τ) : Prop where
  scope : ∀ c, (w'.scope c).clock = (w.scope c).clock
  timers : w'.timers = w.timers
  timerWhen : w'.timerWhen = w.timerWhen
  nextHandle : w.nextHandle ≤ w'.nextHandle
  now : w'.now = w.now

/-- Only the timer of the scope `c` changes. -/
structure Aside (c : ScopeId) (w w' : World τ) : Prop where
  scope : ∀ d, d ≠ c → (w'.scope d).clock = (w.scope d).clock
  timers : ∀ d h, d ≠ c → ((h, d) ∈ w'.timers ↔ (h, d) ∈ w.timers)
  now : w'.now = w.now

theorem Scope.deadline_of_clock {s s' : Scope τ} (hs : s'.clock = s.clock) :
    s'.deadline = s.deadline := by
  simpa only [Scope.clock, Scope.handles] using congrArg Scope.deadline hs

theorem Scope.active_of_clock {s s' : Scope τ} (hs : s'.clock = s.clock) :
    s'.active = s.active := by
  simpa only [Scope.clock, Scope.handles] using congrArg Scope.active hs

theorem Scope.cancelCalled_of_clock {s s' : Scope τ} (hs : s'.clock = s.clock) :
    s'.cancelCalled = s.cancelCalled := by
  simpa only [Scope.clock, Scope.handles] using congrArg Scope.cancelCalled hs

theorem Scope.timeoutHandle_of_clock {s s' : Scope τ} (hs : s'.clock = s.clock) :
    s'.timeoutHandle = s.timeoutHandle := by
  simpa only [Scope.clock, Scope.handles] using congrArg Scope.timeoutHandle hs

namespace SameClocks

theorem refl (w : World τ) : SameClocks w w := ⟨fun _ => rfl, rfl, rfl, le_rfl, rfl⟩

theorem trans (h : SameClocks w w') (h' : SameClocks w' w'') : SameClocks w w'' where
  scope c := (h'.scope c).trans (h.scope c)
  timers := h'.timers.trans h.timers
  timerWhen := h'.timerWhen.trans h.timerWhen
  nextHandle := h.nextHandle.trans h'.nextHandle
  now := h'.now.trans h.now

theorem modify (w : World τ) (c : ScopeId) {f : Scope τ → Scope τ}
    (hf : (f (w.scope c)).clock = (w.scope c).clock) : SameClocks w (w.modify c f) where
  scope d := by
    cases eq_or_ne d c with
    | inl hd => simp [hd, hf]
    | inr hd => simp [hd]
  timers := rfl
  timerWhen := rfl
  nextHandle := le_rfl
  now := rfl

theorem aside (h : SameClocks w w') (c : ScopeId) : Aside c w w' :=
  ⟨fun d _ => h.scope d, fun d g _ => by rw [h.timers], h.now⟩

end SameClocks

theorem SameHandles.sameClocks (h : SameHandles w w') : SameClocks w w' where
  scope c := congrArg (fun s : Scope τ => { s with cancelHandle := none }) (h.scope c)
  timers := h.timers
  timerWhen := h.timerWhen
  nextHandle := h.nextHandle.ge
  now := h.now

namespace Aside

theorem trans (h : Aside c w w') (h' : Aside c w' w'') : Aside c w w'' where
  scope d hd := (h'.scope d hd).trans (h.scope d hd)
  timers d g hd := (h'.timers d g hd).trans (h.timers d g hd)
  now := h'.now.trans h.now

theorem modify (w : World τ) (c : ScopeId) (f : Scope τ → Scope τ) : Aside c w (w.modify c f) where
  scope d hd := by simp [hd]
  timers _ _ _ := Iff.rfl
  now := rfl

end Aside

/-- A timer is the one that its scope has kept, and is set for the deadline of the scope. -/
structure Timed (w : World τ) : Prop where
  nodup : w.timers.Nodup
  stored : ∀ c h, (h, c) ∈ w.timers →
    (w.scope c).timeoutHandle = some h ∧ (w.scope c).deadline = some (w.timerWhen h)
  distinct : ∀ c d h, (w.scope c).timeoutHandle = some h → (w.scope d).timeoutHandle = some h →
    c = d
  below : ∀ c h, (w.scope c).timeoutHandle = some h → h < w.nextHandle

/-- The scope has a timer only while it is entered; it has one if it is not cancelled then and
its deadline is not `math.inf`. -/
structure Armed (w : World τ) (c : ScopeId) : Prop where
  active : ∀ h, (h, c) ∈ w.timers → (w.scope c).active = true
  armed : (w.scope c).active = true → (w.scope c).cancelCalled = false →
    (w.scope c).deadline ≠ none → ∃ h, (h, c) ∈ w.timers

theorem Timed.same (timed : Timed w) (h : SameClocks w w') : Timed w' where
  nodup := h.timers ▸ timed.nodup
  stored c g hg := by
    rw [h.timers] at hg
    rw [Scope.timeoutHandle_of_clock (h.scope c), Scope.deadline_of_clock (h.scope c), h.timerWhen]
    exact timed.stored c g hg
  distinct c d g hc hd := by
    rw [Scope.timeoutHandle_of_clock (h.scope _)] at hc hd
    exact timed.distinct c d g hc hd
  below c g hg := by
    rw [Scope.timeoutHandle_of_clock (h.scope c)] at hg
    exact (timed.below c g hg).trans_le h.nextHandle

theorem Armed.congr (armed : Armed w c) (hscope : (w'.scope c).clock = (w.scope c).clock)
    (htimers : ∀ h, (h, c) ∈ w'.timers ↔ (h, c) ∈ w.timers) : Armed w' c where
  active g hg := by
    rw [Scope.active_of_clock hscope]
    exact armed.active g ((htimers g).mp hg)
  armed hactive hcalled hdeadline := by
    rw [Scope.active_of_clock hscope] at hactive
    rw [Scope.cancelCalled_of_clock hscope] at hcalled
    rw [Scope.deadline_of_clock hscope] at hdeadline
    obtain ⟨g, hg⟩ := armed.armed hactive hcalled hdeadline
    exact ⟨g, (htimers g).mpr hg⟩

theorem Armed.same (armed : Armed w c) (h : SameClocks w w') : Armed w' c :=
  armed.congr (h.scope c) fun g => by rw [h.timers]

theorem Armed.aside (armed : Armed w d) (h : Aside c w w') (hd : d ≠ c) : Armed w' d :=
  armed.congr (h.scope d hd) fun g => h.timers d g hd

/-- The flags of a scope do not matter to the timers themselves. -/
theorem Timed.modify (timed : Timed w) (c : ScopeId) {f : Scope τ → Scope τ}
    (hhandle : (f (w.scope c)).timeoutHandle = (w.scope c).timeoutHandle)
    (hdeadline : (f (w.scope c)).deadline = (w.scope c).deadline ∨ ∀ h, (h, c) ∉ w.timers) :
    Timed (w.modify c f) := by
  have hsame : ∀ d, ((w.modify c f).scope d).timeoutHandle = (w.scope d).timeoutHandle := by
    intro d
    cases eq_or_ne d c with
    | inl hd => simp [hd, hhandle]
    | inr hd => simp [hd]
  constructor
  · exact timed.nodup
  · intro d g hg
    obtain ⟨hstored, hdue⟩ := timed.stored d g hg
    refine ⟨(hsame d).trans hstored, ?_⟩
    cases eq_or_ne d c with
    | inl hd =>
        subst hd
        obtain hdeadline | hnone := hdeadline
        · simpa [hdeadline] using hdue
        · exact absurd hg (hnone g)
    | inr hd => simpa [hd] using hdue
  · intro d e g hd he
    rw [hsame] at hd he
    exact timed.distinct d e g hd he
  · intro d g hg
    rw [hsame] at hg
    exact timed.below d g hg

/-! ## Dropping a timer -/

theorem dropTimer_scope (w : World τ) (c d : ScopeId) :
    (w.dropTimer c).scope d =
      if d = c then { w.scope c with timeoutHandle := none } else w.scope d := by
  unfold World.dropTimer
  cases hhandle : (w.scope c).timeoutHandle with
  | none =>
      cases eq_or_ne d c with
      | inl hd => simp [hd, ← hhandle]
      | inr hd => simp [hd]
  | some g => simp

/-- Exactly the timer of the scope is dropped. -/
theorem Timed.mem_dropTimer (timed : Timed w) :
    (h, d) ∈ (w.dropTimer c).timers ↔ (h, d) ∈ w.timers ∧ d ≠ c := by
  unfold World.dropTimer
  cases hhandle : (w.scope c).timeoutHandle with
  | none =>
      refine ⟨fun hmem => ⟨hmem, ?_⟩, And.left⟩
      intro hd
      have hstored := (timed.stored d h hmem).1
      rw [hd, hhandle] at hstored
      cases hstored
  | some g =>
      simp only [List.mem_filter, ne_eq, decide_not, Bool.not_eq_true', decide_eq_false_iff_not]
      refine and_congr_right fun hmem => not_congr ⟨?_, ?_⟩
      · intro hg
        exact timed.distinct d c h (timed.stored d h hmem).1 (hg ▸ hhandle)
      · intro hd
        have hstored := (timed.stored d h hmem).1
        rw [hd, hhandle] at hstored
        exact (Option.some.inj hstored).symm

/-- The setter of `deadline` may as well drop the timer first. -/
theorem setDeadline_dropTimer (w : World τ) (c : ScopeId) (value : Option Int) :
    (w.modify c fun s => { s with deadline := value }).dropTimer c =
      (w.dropTimer c).modify c fun s => { s with deadline := value } := by
  cases hhandle : (w.scope c).timeoutHandle with
  | none => simp [World.dropTimer, hhandle]
  | some g => simp [World.dropTimer, hhandle, World.modify]

theorem dropTimer_rest (w : World τ) (c : ScopeId) :
    (w.dropTimer c).timerWhen = w.timerWhen ∧ (w.dropTimer c).nextHandle = w.nextHandle ∧
      (w.dropTimer c).now = w.now ∧ (w.timers.Nodup → (w.dropTimer c).timers.Nodup) := by
  unfold World.dropTimer
  split
  · exact ⟨rfl, rfl, rfl, id⟩
  · exact ⟨rfl, rfl, rfl, List.Nodup.filter _⟩

theorem Timed.dropTimer (timed : Timed w) (c : ScopeId) : Timed (w.dropTimer c) := by
  obtain ⟨hwhen, hnext, -, hnodup⟩ := dropTimer_rest w c
  have hkept : ∀ d g, ((w.dropTimer c).scope d).timeoutHandle = some g →
      (w.scope d).timeoutHandle = some g := by
    intro d g hg
    rw [dropTimer_scope] at hg
    cases eq_or_ne d c with
    | inl hd => simp [hd] at hg
    | inr hd => simpa [hd] using hg
  constructor
  · exact hnodup timed.nodup
  · intro d g hg
    obtain ⟨hmem, hd⟩ := timed.mem_dropTimer.mp hg
    rw [dropTimer_scope, if_neg hd, hwhen]
    exact timed.stored d g hmem
  · exact fun d e g hd he => timed.distinct d e g (hkept d g hd) (hkept e g he)
  · intro d g hg
    rw [hnext]
    exact timed.below d g (hkept d g hg)

theorem Timed.dropTimer_aside (timed : Timed w) (c : ScopeId) : Aside c w (w.dropTimer c) where
  scope d hd := by rw [dropTimer_scope, if_neg hd]
  timers d g hd := by simp [timed.mem_dropTimer, hd]
  now := (dropTimer_rest w c).2.2.1

theorem Timed.dropTimer_none (timed : Timed w) (c : ScopeId) (h : HandleId) :
    (h, c) ∉ (w.dropTimer c).timers := fun hmem => (timed.mem_dropTimer.mp hmem).2 rfl

/-! ## Deliveries -/

theorem scheduleAnother_clocks (self origin : ScopeId) (r : World τ × Bool) :
    SameClocks r.1 (World.scheduleAnother self origin r).1 := by
  unfold World.scheduleAnother
  split_ifs
  · have hset := SameClocks.modify r.1 origin
      (f := fun s => { s with cancelHandle := some r.1.nextHandle }) rfl
    exact ⟨hset.scope, rfl, rfl, Nat.le_succ _, rfl⟩
  · exact .modify r.1 origin (f := fun s => { s with cancelHandle := none }) rfl
  · exact .refl r.1

theorem children_clocks {go : World τ → ScopeId → World τ × Bool}
    (hgo : ∀ w d, SameClocks w (go w d).1) (r : World τ × Bool) (l : List ScopeId) :
    SameClocks r.1 (l.foldl (World.deliverToChild go) r).1 := by
  refine List.foldlRecOn (motive := fun s : World τ × Bool => SameClocks r.1 s.1) l _
    (.refl r.1) ?_
  intro s hs d _
  apply hs.trans
  unfold World.deliverToChild
  split_ifs
  · exact .refl s.1
  · exact hgo s.1 d

variable [DecidableEq τ]

theorem deliverCancellation_clocks (n : Nat) (w : World τ) (self origin : ScopeId) :
    SameClocks w (w.deliverCancellation n self origin).1 := by
  induction n generalizing w self with
  | zero => exact .refl w
  | succ n ih =>
      apply (tasks_handles self origin w (w.scope self).tasks).sameClocks.trans
      apply SameClocks.trans _ (scheduleAnother_clocks self origin _)
      exact children_clocks (fun w d => ih w d) (_, _) (w.scope self).childScopes

theorem deliver_clocks (w : World τ) (c : ScopeId) : SameClocks w (w.deliver c) :=
  deliverCancellation_clocks _ w c c

theorem restart_clocks (w : World τ) (c : ScopeId) :
    SameClocks w (w.restartCancellationInParent c) := by
  obtain heq | ⟨origin, -, -, heq⟩ := restart_cases w c
  · rw [heq]
    exact .refl w
  · rw [heq]
    exact deliver_clocks w origin

/-! ## Setting a timer -/

/-- What a call does to the timer of the scope `c`, and to no other. -/
structure Adjusts (c : ScopeId) (w w' : World τ) : Prop extends Aside c w w' where
  timed : Timed w'
  active : (w'.scope c).active = (w.scope c).active
  deadline : (w'.scope c).deadline = (w.scope c).deadline

/-- `cancel()` drops the timer. -/
theorem cancel_adjusts (timed : Timed w) (c : ScopeId) :
    Adjusts c w (w.cancel c) ∧ ((w.cancel c).scope c).cancelCalled = true ∧
      ((w.scope c).cancelCalled = false → ∀ h, (h, c) ∉ (w.cancel c).timers) := by
  unfold World.cancel
  dsimp only
  cases hcalled : (w.scope c).cancelCalled with
  | true =>
      rw [if_pos rfl]
      exact ⟨⟨(SameClocks.refl w).aside c, timed, rfl, rfl⟩, hcalled, by simp⟩
  | false =>
      rw [if_neg (by simp)]
      have hdropped : Timed ((w.dropTimer c).modify c fun s => { s with cancelCalled := true }) :=
        (timed.dropTimer c).modify c rfl (.inl rfl)
      have haside : Aside c w ((w.dropTimer c).modify c fun s => { s with cancelCalled := true }) :=
        (timed.dropTimer_aside c).trans (.modify _ c _)
      have hnone := timed.dropTimer_none c
      split_ifs
      · have hsame := deliver_clocks
          ((w.dropTimer c).modify c fun s => { s with cancelCalled := true }) c
        refine ⟨⟨haside.trans (hsame.aside c), hdropped.same hsame, ?_, ?_⟩, ?_, fun _ h => ?_⟩
        · rw [Scope.active_of_clock (hsame.scope c)]
          simp [dropTimer_scope]
        · rw [Scope.deadline_of_clock (hsame.scope c)]
          simp [dropTimer_scope]
        · rw [Scope.cancelCalled_of_clock (hsame.scope c)]
          simp
        · rw [hsame.timers]
          exact hnone h
      · exact ⟨⟨haside, hdropped, by simp [dropTimer_scope], by simp [dropTimer_scope]⟩, by simp,
          fun _ h => hnone h⟩

/-- The scope of an elapsed deadline is cancelled, and otherwise its timer is set. -/
structure Elapses (c : ScopeId) (w w' : World τ) : Prop extends Adjusts c w w' where
  served : (w'.scope c).cancelCalled = true ∨ (w.scope c).deadline = none ∨
    ∃ h, (h, c) ∈ w'.timers
  due : (w.scope c).cancelCalled = false → (w'.scope c).cancelCalled = true →
    ∃ d, (w.scope c).deadline = some d ∧ d ≤ w.now

omit [DecidableEq τ] in
/-- `call_at` for a scope without a timer, for its deadline. -/
theorem Timed.callAt {deadline : Int} (timed : Timed w) (hnone : ∀ h, (h, c) ∉ w.timers)
    (hdeadline : (w.scope c).deadline = some deadline) :
    Timed { w.modify c fun s => { s with timeoutHandle := some w.nextHandle } with
      timers := w.timers ++ [(w.nextHandle, c)]
      timerWhen := Function.update w.timerWhen w.nextHandle deadline
      nextHandle := w.nextHandle + 1 } := by
  have hfresh : ∀ d, (w.scope d).timeoutHandle ≠ some w.nextHandle := fun d h =>
    (timed.below d _ h).ne rfl
  have hnew : ∀ d, (w.nextHandle, d) ∉ w.timers := fun d hmem =>
    hfresh d (timed.stored d _ hmem).1
  constructor
  · refine List.nodup_append.mpr ⟨timed.nodup, List.nodup_singleton _, ?_⟩
    rintro e he e' he' rfl
    rw [List.mem_singleton.mp he'] at he
    exact hnew c he
  · intro d g hg
    obtain hold | hlast := List.mem_append.mp hg
    · have hd : d ≠ c := by
        rintro rfl
        exact hnone g hold
      have hg : g ≠ w.nextHandle := by
        rintro rfl
        exact hnew d hold
      simpa [hd, hg] using timed.stored d g hold
    · obtain ⟨rfl, rfl⟩ := Prod.mk.inj (List.mem_singleton.mp hlast)
      simp [hdeadline]
  · intro d e g hd he
    cases eq_or_ne d c with
    | inl hdc =>
        cases eq_or_ne e c with
        | inl hec => rw [hdc, hec]
        | inr hec =>
            simp only [hdc, World.modify_scope, if_true, hec, if_false] at hd he
            exact absurd (he.trans hd.symm) (hfresh e)
    | inr hdc =>
        cases eq_or_ne e c with
        | inl hec =>
            simp only [hec, World.modify_scope, if_true, hdc, if_false] at hd he
            exact absurd (hd.trans he.symm) (hfresh d)
        | inr hec =>
            simp only [World.modify_scope, hdc, hec, if_false] at hd he
            exact timed.distinct d e g hd he
  · intro d g hg
    cases eq_or_ne d c with
    | inl hd =>
        simp only [hd, World.modify_scope, if_true, Option.some.injEq] at hg
        rw [← hg]
        exact Nat.lt_succ_self _
    | inr hd =>
        simp only [World.modify_scope, hd, if_false] at hg
        exact (timed.below d g hg).trans (Nat.lt_succ_self _)

theorem timeout_elapses (timed : Timed w) (hnone : ∀ h, (h, c) ∉ w.timers) :
    Elapses c w (w.timeout c) := by
  unfold World.timeout
  split
  · rename_i hdeadline
    exact ⟨⟨(SameClocks.refl w).aside c, timed, rfl, rfl⟩, .inr (.inl hdeadline),
      fun hf ht => by simp [hf] at ht⟩
  · rename_i deadline hdeadline
    split_ifs with hpassed
    · obtain ⟨hadjusts, hcalled, -⟩ := cancel_adjusts timed c
      exact ⟨hadjusts, .inl hcalled, fun _ _ => ⟨deadline, hdeadline, hpassed⟩⟩
    · constructor
      · exact ⟨⟨fun d hd => by simp [hd], fun d h hd => by simp [hd], rfl⟩,
          timed.callAt hnone hdeadline, by simp, by simp⟩
      · exact .inr (.inr ⟨w.nextHandle, by simp⟩)
      · intro hf ht
        simp [hf] at ht

/-! ## Steps -/

/-- The timers of all scopes agree with their deadlines. -/
structure Clocked (w : World τ) : Prop where
  timed : Timed w
  armed : ∀ c, Armed w c

/-- In the step from `w` to `w'` the deadline of the scope `c` passes or is found to have passed,
and the scope is not cancelled for any other reason. -/
def Overdue (c : ScopeId) (w w' : World τ) : Prop :=
  (w.scope c).cancelCalled = false → (w'.scope c).cancelCalled = true →
    (w'.scope c).active = true ∧ ∃ d, (w'.scope c).deadline = some d ∧ d ≤ w'.now

omit [DecidableEq τ] in
theorem armed_of_served (hactive : (w.scope c).active = true)
    (hserved : (w.scope c).cancelCalled = true ∨ (w.scope c).deadline = none ∨
      ∃ h, (h, c) ∈ w.timers) : Armed w c where
  active _ _ := hactive
  armed _ hcalled hdeadline := by
    obtain h | h | h := hserved
    · simp [hcalled] at h
    · exact absurd h hdeadline
    · exact h

omit [DecidableEq τ] in
theorem armed_of_none (hnone : ∀ h, (h, c) ∉ w.timers)
    (hidle : ¬ ((w.scope c).active = true ∧ (w.scope c).cancelCalled = false)) : Armed w c where
  active h hmem := absurd hmem (hnone h)
  armed hactive hcalled _ := absurd ⟨hactive, hcalled⟩ hidle

omit [DecidableEq τ] in
theorem Armed.none (armed : Armed w c) (hactive : (w.scope c).active = false) (h : HandleId) :
    (h, c) ∉ w.timers := by
  intro hmem
  simp [armed.active h hmem] at hactive

namespace Clocked

omit [DecidableEq τ] in
theorem initial (minor : Nat) : Clocked (initial τ minor) where
  timed := ⟨List.nodup_nil, by simp [CancelScope.initial], by simp [CancelScope.initial],
    by simp [CancelScope.initial]⟩
  armed c := ⟨by simp [CancelScope.initial], by simp [CancelScope.initial]⟩

omit [DecidableEq τ] in
theorem same (clocked : Clocked w) (h : SameClocks w w') : Clocked w' :=
  ⟨clocked.timed.same h, fun c => (clocked.armed c).same h⟩

omit [DecidableEq τ] in
theorem aside (clocked : Clocked w) (h : Aside c w w') (timed : Timed w') (hc : Armed w' c) :
    Clocked w' := by
  refine ⟨timed, fun d => ?_⟩
  cases eq_or_ne d c with
  | inl hd =>
      rw [hd]
      exact hc
  | inr hd => exact (clocked.armed d).aside h hd

theorem cancel (clocked : Clocked w) (c : ScopeId) : Clocked (w.cancel c) := by
  obtain ⟨hadjusts, hcalled, hnone⟩ := cancel_adjusts clocked.timed c
  apply clocked.aside hadjusts.toAside hadjusts.timed
  constructor
  · intro h hmem
    rw [hadjusts.active]
    cases hbefore : (w.scope c).cancelCalled with
    | false => exact absurd hmem (hnone hbefore h)
    | true =>
        rw [World.cancel, if_pos hbefore] at hmem
        exact (clocked.armed c).active h hmem
  · intro _ hf
    simp [hcalled] at hf

/-- The setter of `deadline` drops the timer of the old deadline first. -/
theorem setDeadline (clocked : Clocked w) (c : ScopeId) (value : Option Int) :
    Clocked (w.setDeadline c value) ∧ Aside c w (w.setDeadline c value) ∧
      ((w.setDeadline c value).scope c).active = (w.scope c).active ∧
      Overdue c w (w.setDeadline c value) := by
  have hnone := clocked.timed.dropTimer_none c
  have htimed : Timed ((w.dropTimer c).modify c fun s => { s with deadline := value }) :=
    (clocked.timed.dropTimer c).modify c rfl (.inr hnone)
  have haside : Aside c w ((w.dropTimer c).modify c fun s => { s with deadline := value }) :=
    (clocked.timed.dropTimer_aside c).trans (.modify _ c _)
  unfold World.setDeadline
  dsimp only
  rw [setDeadline_dropTimer]
  split_ifs with hopen
  · have helapses := timeout_elapses htimed hnone
    have hactive := helapses.active.trans hopen.1
    have hall := haside.trans helapses.toAside
    refine ⟨clocked.aside hall helapses.timed (armed_of_served hactive ?_), hall, ?_, ?_⟩
    · rw [helapses.deadline]
      exact helapses.served
    · rw [helapses.active]
      simp [dropTimer_scope]
    · intro _ hcalled
      rw [helapses.deadline, helapses.now]
      exact ⟨hactive, helapses.due hopen.2 hcalled⟩
  · refine ⟨clocked.aside haside htimed (armed_of_none hnone hopen), haside, ?_, ?_⟩
    · simp [dropTimer_scope]
    · intro hf ht
      simp [dropTimer_scope, hf] at ht

/-- A timer that fires is gone; the scope of it is entered. -/
theorem timeout (clocked : Clocked w) (hmem : (g, c) ∈ w.timers) :
    Clocked ({ w with timers := w.timers.erase (g, c) }.timeout c) ∧
      Aside c w ({ w with timers := w.timers.erase (g, c) }.timeout c) ∧
      Overdue c w ({ w with timers := w.timers.erase (g, c) }.timeout c) := by
  have hkept : ∀ d h, (h, d) ∈ w.timers.erase (g, c) → (h, d) ∈ w.timers := fun d h =>
    List.mem_of_mem_erase
  have htimed : Timed { w with timers := w.timers.erase (g, c) } :=
    ⟨clocked.timed.nodup.erase _, fun d h hd => clocked.timed.stored d h (hkept d h hd),
      clocked.timed.distinct, clocked.timed.below⟩
  have hnone : ∀ h, (h, c) ∉ w.timers.erase (g, c) := by
    intro h hh
    have hg := (clocked.timed.stored c g hmem).1
    rw [(clocked.timed.stored c h (hkept c h hh)).1] at hg
    rw [Option.some.inj hg] at hh
    exact clocked.timed.nodup.not_mem_erase hh
  have hfired : Aside c w { w with timers := w.timers.erase (g, c) } := by
    refine ⟨fun _ _ => rfl, fun d h hd => ?_, rfl⟩
    exact List.mem_erase_of_ne (by simp [hd])
  have helapses := timeout_elapses htimed hnone
  have hactive := helapses.active.trans ((clocked.armed c).active g hmem)
  have hall := hfired.trans helapses.toAside
  refine ⟨clocked.aside hall helapses.timed (armed_of_served hactive ?_), hall,
    fun hf hcalled => ?_⟩
  · rw [helapses.deadline]
    exact helapses.served
  · rw [helapses.deadline, helapses.now]
    exact ⟨hactive, helapses.due hf hcalled⟩

/-- A scope that is being entered has no timer before `_timeout()` sets it. -/
theorem activate (clocked : Clocked w) (hinactive : (w.scope c).active = false) (host : τ) :
    Clocked (w.activate c host) ∧ Aside c w (w.activate c host) ∧
      Overdue c w (w.activate c host) := by
  have helapses := timeout_elapses clocked.timed ((clocked.armed c).none hinactive)
  have hset : SameClocks ((w.timeout c).modify c fun s => { s with active := true })
      (((w.timeout c).modify c fun s => { s with active := true }).recordCancelling c host) := by
    unfold World.recordCancelling
    split_ifs
    · exact .modify _ c rfl
    · exact .refl _
  have hsame : SameClocks ((w.timeout c).modify c fun s => { s with active := true })
      (w.activate c host) := by
    unfold World.activate
    dsimp only
    split_ifs
    · exact hset.trans (deliver_clocks _ c)
    · exact hset
  have hactive : (((w.timeout c).modify c fun s => { s with active := true }).scope c).active
      = true := by
    simp
  have haside := helapses.toAside.trans (.modify _ c fun s => { s with active := true })
  refine ⟨(clocked.aside haside (helapses.timed.modify c rfl (.inl rfl))
    (armed_of_served hactive ?_)).same hsame, haside.trans (hsame.aside c), fun hf hcalled => ?_⟩
  · simpa [helapses.deadline] using helapses.served
  · rw [Scope.active_of_clock (hsame.scope c), Scope.deadline_of_clock (hsame.scope c), hsame.now]
    rw [Scope.cancelCalled_of_clock (hsame.scope c)] at hcalled
    obtain ⟨t, ht, hpassed⟩ := helapses.due hf (by simpa using hcalled)
    refine ⟨hactive, t, ?_, ?_⟩
    · simpa [helapses.deadline] using ht
    · rw [haside.now]
      exact hpassed

theorem enter (clocked : Clocked w) (c : ScopeId) (host : τ) :
    Clocked (w.enter c host).1 ∧ Aside c w (w.enter c host).1 ∧ Overdue c w (w.enter c host).1 := by
  obtain ⟨hsame, -⟩ | ⟨hinactive, mid, hmid, heq, -⟩ := enter_handles w c host
  · refine ⟨clocked.same hsame.sameClocks, hsame.sameClocks.aside c, fun hf ht => ?_⟩
    simp [hsame.cancelCalled, hf] at ht
  · rw [heq]
    have hclocks := hmid.sameClocks
    obtain ⟨hclocked, haside, hdue⟩ := (clocked.same hclocks).activate
      ((hmid.active c).trans hinactive) host
    refine ⟨hclocked, (hclocks.aside c).trans haside, fun hf => hdue ?_⟩
    rw [hmid.cancelCalled, hf]

/-- After `__exit__()` there is no timer. -/
theorem exit (clocked : Clocked w) (c : ScopeId) (host : τ) (exc : Option Exc) :
    Clocked (w.exit c host exc).1 ∧
      (∀ d, ((w.exit c host exc).1.scope d).cancelCalled = (w.scope d).cancelCalled) ∧
      ((∃ r, (w.exit c host exc).2 = .ok r) → ((w.exit c host exc).1.scope c).active = false) := by
  obtain ⟨heq, e, he⟩ | ⟨mid, hmid, hend⟩ := exit_handles w c host exc
  · rw [heq]
    refine ⟨clocked, fun _ => rfl, ?_⟩
    rintro ⟨r, hr⟩
    rw [he] at hr
    cases hr
  · have hflagged : Timed (w.modify c fun s => { s with active := false }) :=
      clocked.timed.modify c rfl (.inl rfl)
    have haside := (Aside.modify w c fun s => { s with active := false }).trans
      (hflagged.dropTimer_aside c)
    have hclosed : Clocked ((w.modify c fun s => { s with active := false }).dropTimer c) := by
      apply clocked.aside haside (hflagged.dropTimer c)
      apply armed_of_none (hflagged.dropTimer_none c)
      simp [dropTimer_scope]
    have hsame : SameClocks ((w.modify c fun s => { s with active := false }).dropTimer c)
        (w.exit c host exc).1 := by
      obtain hend | hend := hend
      · exact hmid.sameClocks.trans hend.sameClocks
      · exact (hmid.sameClocks.trans (restart_clocks mid c)).trans hend.sameClocks
    refine ⟨hclosed.same hsame, fun d => ?_, fun _ => ?_⟩
    · rw [Scope.cancelCalled_of_clock (hsame.scope d), dropTimer_scope]
      cases eq_or_ne d c with
      | inl hd => simp [hd]
      | inr hd => simp [hd]
    · rw [Scope.active_of_clock (hsame.scope c)]
      simp [dropTimer_scope]

end Clocked

/-- The calls and callbacks in which a deadline of the scope `c` may be found to have passed:
`__enter__()`, and the setter of `deadline` and the timer while the scope is entered. -/
def ChecksDeadline (w : World τ) (c : ScopeId) : Action τ → Prop
  | .enter d => d = c
  | .setDeadline d _ | .timeout _ d => d = c ∧ (w.scope c).active = true
  | _ => False

/-- The cancellation of a scope is called by `cancel()`, or its deadline has passed. -/
def CalledFor (w : World τ) (a : Action τ) (w' : World τ) : Prop :=
  ∀ c, (w.scope c).cancelCalled = false → (w'.scope c).cancelCalled = true →
    a = .cancel c ∨ ChecksDeadline w c a ∧ (w'.scope c).active = true ∧
      ∃ d, (w'.scope c).deadline = some d ∧ d ≤ w'.now

variable {a : Action τ} {o : Answer}

omit [DecidableEq τ] in
theorem SameClocks.calledFor (h : SameClocks w w') (a : Action τ) : CalledFor w a w' := by
  intro c hf ht
  rw [Scope.cancelCalled_of_clock (h.scope c), hf] at ht
  cases ht

omit [DecidableEq τ] in
theorem Aside.calledFor (h : Aside c w w') (hdue : Overdue c w w')
    (hcheck : (w'.scope c).active = true → ChecksDeadline w c a) : CalledFor w a w' := by
  intro d hf ht
  cases eq_or_ne d c with
  | inl hd =>
      subst hd
      have hoverdue := hdue hf ht
      exact .inr ⟨hcheck hoverdue.1, hoverdue⟩
  | inr hd =>
      rw [Scope.cancelCalled_of_clock (h.scope d hd), hf] at ht
      cases ht

theorem Clocked.step (clocked : Clocked w) (h : step w a = some (w', o)) :
    Clocked w' ∧ CalledFor w a w' := by
  have keep : ∀ {w' : World τ}, SameClocks w w' → Clocked w' ∧ CalledFor w a w' :=
    fun h => ⟨clocked.same h, h.calledFor a⟩
  cases a with
  | enter c =>
      simp only [CancelScope.step] at h
      split at h
      · cases h
      · cases h
        obtain ⟨hclocked, haside, hdue⟩ := clocked.enter c _
        exact ⟨hclocked, haside.calledFor hdue fun _ => rfl⟩
  | exit c exc =>
      simp only [CancelScope.step] at h
      split at h
      · cases h
      · cases h
        obtain ⟨hclocked, hcalled, -⟩ := clocked.exit c _ exc
        refine ⟨hclocked, fun d hf ht => ?_⟩
        rw [hcalled, hf] at ht
        cases ht
  | cancel c =>
      cases h
      refine ⟨clocked.cancel c, fun d hf ht => ?_⟩
      cases eq_or_ne d c with
      | inl hd => exact .inl (by rw [hd])
      | inr hd =>
          rw [Scope.cancelCalled_of_clock ((cancel_adjusts clocked.timed c).1.scope d hd), hf] at ht
          cases ht
  | setShield c value =>
      cases h
      apply keep
      have hset := SameClocks.modify w c (f := fun s => { s with shield := value }) rfl
      unfold World.setShield
      dsimp only
      split_ifs
      · exact .refl w
      · exact hset
      · exact hset.trans (restart_clocks _ c)
  | setDeadline c value =>
      cases h
      obtain ⟨hclocked, haside, hactive, hdue⟩ := clocked.setDeadline c value
      exact ⟨hclocked, haside.calledFor hdue fun ht => ⟨rfl, hactive ▸ ht⟩⟩
  | timeout g c =>
      obtain ⟨⟨-, hmem⟩, h⟩ := Option.ite_none_right_eq_some.mp h
      cases h
      obtain ⟨hclocked, haside, hdue⟩ := clocked.timeout hmem
      exact ⟨hclocked, haside.calledFor hdue fun _ => ⟨rfl, (clocked.armed c).active g hmem⟩⟩
  | deliverCancellation g c =>
      obtain ⟨-, h⟩ := Option.ite_none_right_eq_some.mp h
      cases h
      have hpopped : SameClocks w { w with callbacks := w.callbacks.erase (g, c) } :=
        ⟨fun _ => rfl, rfl, rfl, le_rfl, rfl⟩
      exact keep (hpopped.trans (deliver_clocks _ c))
  | spawn c t =>
      obtain ⟨-, h⟩ := Option.ite_none_right_eq_some.mp h
      cases h
      exact keep (spawn_handles w c t).sameClocks
  | taskWrapper c =>
      simp only [CancelScope.step] at h
      split at h
      · cases h
      · obtain ⟨-, h⟩ := Option.ite_none_right_eq_some.mp h
        cases h
        exact keep (taskWrapper_handles w c _).sameClocks
  | finish =>
      simp only [CancelScope.step] at h
      split at h
      · cases h
      · cases h
        exact keep (finish_handles w _).sameClocks
  | taskDone t group =>
      obtain ⟨-, h⟩ := Option.ite_none_right_eq_some.mp h
      cases h
      exact keep (taskDone_handles w t group).sameClocks
  | createTask _ | resume _ | nativeCancel _ =>
      obtain ⟨-, h⟩ := Option.ite_none_right_eq_some.mp h
      cases h
      exact keep ⟨fun _ => rfl, rfl, rfl, le_rfl, rfl⟩
  | setTime now =>
      obtain ⟨-, h⟩ := Option.ite_none_right_eq_some.mp h
      cases h
      refine ⟨⟨⟨clocked.timed.nodup, clocked.timed.stored, clocked.timed.distinct,
        clocked.timed.below⟩, fun c => (clocked.armed c).congr rfl fun _ => Iff.rfl⟩, ?_⟩
      intro c hf ht
      simp [hf] at ht
  | createFuture =>
      cases h
      exact keep ⟨fun _ => rfl, rfl, rfl, le_rfl, rfl⟩
  | sleep =>
      simp only [CancelScope.step] at h
      split at h
      · cases h
      · cases h
        exact keep ⟨fun _ => rfl, rfl, rfl, le_rfl, rfl⟩
  | await _ =>
      simp only [CancelScope.step] at h
      split at h
      · cases h
      · obtain ⟨-, h⟩ := Option.ite_none_right_eq_some.mp h
        cases h
        exact keep ⟨fun _ => rfl, rfl, rfl, le_rfl, rfl⟩
  | setResult _ =>
      simp only [CancelScope.step] at h
      split at h
      · cases h
        exact keep (.refl w)
      · cases h
        exact keep ⟨fun _ => rfl, rfl, rfl, le_rfl, rfl⟩

omit [DecidableEq τ] in
theorem Timed.length_le_one (timed : Timed w) (c : ScopeId) :
    (handlesFor w.timers c).length ≤ 1 := by
  have hnodup : (handlesFor w.timers c).Nodup := by
    refine (timed.nodup.filter _).map_on ?_
    rintro ⟨g, b⟩ hg ⟨g', b'⟩ hg' rfl
    simp only [List.mem_filter, decide_eq_true_eq] at hg hg'
    rw [hg.2, hg'.2]
  have hsub : handlesFor w.timers c ⊆ (w.scope c).timeoutHandle.toList := by
    intro g hg
    rw [(timed.stored c g (mem_handlesFor.mp hg)).1]
    simp
  calc
    (handlesFor w.timers c).length ≤ (w.scope c).timeoutHandle.toList.length :=
      (List.subperm_of_subset hnodup hsub).length_le
    _ ≤ 1 := Option.length_toList_le

/-- In every run a scope has at most one timer, and it is set for the current deadline. It has
one while it is entered and not cancelled and has a deadline, and none after `__exit__()`. Only
a call of `cancel()` and a deadline that has passed cancel a scope, the latter while the scope is
entered. -/
theorem timer_of_deadline {minor : Nat}
    (run : (machine τ).Reachable Machine.anyStep (initial τ minor) w) :
    (∀ c, (handlesFor w.timers c).length ≤ 1) ∧
      (∀ c, ∀ h ∈ handlesFor w.timers c, (w.scope c).deadline = some (w.timerWhen h)) ∧
      (∀ c, (w.scope c).active = true → (w.scope c).cancelCalled = false →
        (w.scope c).deadline ≠ none → (handlesFor w.timers c).length = 1) ∧
      (∀ c, (w.scope c).active = false → handlesFor w.timers c = []) ∧
      (∀ c exc w' r, step w (.exit c exc) = some (w', .ok r) → handlesFor w'.timers c = []) ∧
      ∀ a w' o, step w a = some (w', o) → CalledFor w a w' := by
  have clocked : Clocked w := run.invariant (.initial minor) fun _ _ _ _ clocked _ h =>
    (clocked.step h).1
  have hnone : ∀ {w : World τ} {c}, Clocked w → (w.scope c).active = false →
      handlesFor w.timers c = [] := by
    intro w c clocked hactive
    apply List.eq_nil_iff_forall_not_mem.mpr
    intro h hh
    exact (clocked.armed c).none hactive h (mem_handlesFor.mp hh)
  refine ⟨clocked.timed.length_le_one, ?_, ?_, fun c => hnone clocked, ?_, ?_⟩
  · exact fun c h hh => (clocked.timed.stored c h (mem_handlesFor.mp hh)).2
  · intro c hactive hcalled hdeadline
    obtain ⟨h, hh⟩ := (clocked.armed c).armed hactive hcalled hdeadline
    have hpos := List.length_pos_of_mem (mem_handlesFor.mpr hh)
    have hle := clocked.timed.length_le_one c
    omega
  · intro c exc w' r h
    simp only [step] at h
    split at h
    · cases h
    · rename_i host _
      obtain ⟨rfl, hr⟩ := Prod.mk.inj (Option.some.inj h)
      obtain ⟨hclocked, -, hexit⟩ := clocked.exit c host exc
      apply hnone hclocked
      apply hexit
      cases hanswer : (w.exit c host exc).2 with
      | error e => simp [hanswer, Except.map] at hr
      | ok b => exact ⟨b, rfl⟩
  · exact fun a w' o h => (clocked.step h).2

/-- The deadline of an entered scope is moved. -/
def movedDeadline : World Unit :=
  ((machine Unit).exec Machine.anyStep (initial Unit 12) [.createTask (), .resume (),
    .setDeadline 0 (some 5), .enter 0, .setTime 4, .setDeadline 0 (some 9)]).get (by decide)

theorem timer_of_deadline_movedDeadline :
    (movedDeadline.scope 0).active = true ∧ (handlesFor movedDeadline.timers 0).length = 1 ∧
      ∀ h ∈ handlesFor movedDeadline.timers 0,
        (movedDeadline.scope 0).deadline = some (movedDeadline.timerWhen h) := by
  have hactive : (movedDeadline.scope 0).active = true := by decide
  obtain ⟨-, hwhen, harmed, -⟩ := timer_of_deadline (Machine.exec_get_reachable _ _ _ :
    (machine Unit).Reachable Machine.anyStep (initial Unit 12) movedDeadline)
  exact ⟨hactive, harmed 0 hactive (by decide) (by decide), hwhen 0⟩

end Anyio.CancelScope
