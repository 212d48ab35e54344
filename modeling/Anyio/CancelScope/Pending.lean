import Anyio.CancelScope.Native

/-!
# Pending cancellations

`has_pending_cancellation()` of a task asks for `cancelling()` first. Every
request that is still counted was made by a scope that the task is in, but a
shield that came up since then may hide that scope. Without such a shield the
answer is whether the current scope of the task is effectively cancelled.
-/

namespace Anyio.CancelScope

open Asyncio Library

variable {τ : Type*}

/-- `task._fut_waiter.cancelled()`, for a task that awaits a future. -/
def World.waiterCancelled (w : World τ) (t : τ) : Bool :=
  match w.loop.waits t with
  | .future f => w.loop.future f = .cancelled
  | _ => false

/-- `AsyncIOTaskInfo.has_pending_cancellation()`, of a task that is still around. -/
def World.hasPendingCancellation (w : World τ) (t : τ) : Bool :=
  let requested :=
    if 11 ≤ w.pythonMinor then decide ((w.loop.task t).cancelling ≠ 0) else w.waiterCancelled t
  if requested then true
  else
    match w.currentScope t with
    | none => false
    | some c => w.effectivelyCancelled c

/-- The scopes from the current one of `t` on outwards. -/
def World.scopesAround (w : World τ) (t : τ) : List ScopeId :=
  lineage (fun c => (w.scope c).parentScope) (w.entered.length + 1) (w.currentScope t)

/-- `c` is cancelled when `__enter__()` asks for it. -/
def World.opensCancelled (w : World τ) (c : ScopeId) : Bool :=
  (w.scope c).cancelCalled || (w.scope c).deadline.any (· ≤ w.now)

variable [DecidableEq τ]

/-- Requests to `t` are left that were not made by its own scopes inside of `c`,
and no scope of another task is cancelled in there. -/
def World.Hides (w : World τ) (t : τ) (c : ScopeId) : Prop :=
  let inside := (w.scopesAround t).takeWhile fun d => d ≠ c
  c ∈ w.scopesAround t ∧
    w.callsOf (inside.filter fun d => (w.scope d).hostTask = some t) <
      (w.loop.task t).cancelling ∧
    ∀ d ∈ inside, (w.scope d).hostTask ≠ some t → (w.scope d).cancelCalled = false

/-- Fresh scopes and no native request. A task that was asked to cancel itself enters
no shielded scope, and no shield is set between a task and the origin of a
request to it, other than that of a cancelled scope. -/
def InView (w : World τ) (a : Action τ) : Prop :=
  Fresh w a ∧
    match a with
    | .nativeCancel _ => False
    | .enter c => ∀ t, w.current = some t → c ∉ w.entered → (w.loop.task t).cancelling ≠ 0 →
        (w.scope c).shield = true → w.opensCancelled c = true
    | .setShield c value => value = true → (w.scope c).cancelCalled = true ∨
        ∀ t, w.loop.point t ≠ .finished → ¬ w.Hides t c
    | _ => True

instance (w : World τ) (t : τ) (c : ScopeId) : Decidable (w.Hides t c) :=
  inferInstanceAs (Decidable (_ ∧ _ ∧ _))

instance [Fintype τ] (w : World τ) (a : Action τ) : Decidable (InView w a) :=
  match a with
  | .nativeCancel _ => inferInstanceAs (Decidable (_ ∧ False))
  | .enter c => inferInstanceAs (Decidable (_ ∧ ∀ t, w.current = some t → c ∉ w.entered →
      (w.loop.task t).cancelling ≠ 0 → (w.scope c).shield = true → w.opensCancelled c = true))
  | .setShield c value => inferInstanceAs (Decidable (_ ∧ (value = true →
      (w.scope c).cancelCalled = true ∨ ∀ t, w.loop.point t ≠ .finished → ¬ w.Hides t c)))
  | .exit _ _ | .cancel _ | .setDeadline _ _ | .timeout _ _ | .deliverCancellation _ _
  | .spawn _ _ | .taskWrapper _ | .createTask _ | .resume _ | .sleep | .await _ | .finish
  | .taskDone _ _ | .createFuture | .setResult _ | .setTime _ =>
      inferInstanceAs (Decidable (_ ∧ True))

variable {w w' mid : World τ} {a : Action τ} {o : Answer} {c d x : ScopeId} {t u host : τ}
  {inner beyond pre rest below out : List ScopeId} {n outer : Nat}

/-! ## Shields and cancelled scopes -/

theorem setShield_shield (w : World τ) (c : ScopeId) (value : Bool) :
    ((w.setShield c value).scope c).shield = value := by
  unfold World.setShield
  simp only
  split_ifs with hsame
  · exact hsame
  · simp
  · rw [(restart_tree _ c).shield]
    simp

/-- Only the setter raises a shield. -/
theorem Change.raises (change : Change w a w' o) (hstep : CancelScope.step w a = some (w', o))
    (hlow : (w.scope c).shield = false) (hup : (w'.scope c).shield = true) :
    a = .setShield c true := by
  by_cases hset : ∃ value, a = .setShield c value
  · obtain ⟨value, rfl⟩ := hset
    cases hstep
    rw [← hup, setShield_shield]
  · have hsame := (change.flags c).2 fun value hv => hset ⟨value, hv⟩
    rw [hsame, hlow] at hup
    cases hup

theorem cancel_called (w : World τ) (c : ScopeId) :
    ((w.cancel c).scope c).cancelCalled = true := by
  unfold World.cancel
  simp only
  split_ifs with hcalled
  · exact hcalled
  · rw [(deliver_delivered _ c).toSameTree.cancelCalled]
    simp
  · simp

theorem timeout_called (h : w.opensCancelled c = true) :
    ((w.timeout c).scope c).cancelCalled = true := by
  have hc : Charged none none c w (w.timeout c) := timeout_charged w c
  rcases Bool.or_eq_true_iff.mp h with hcalled | hexpired
  · exact hc.called c hcalled
  · obtain ⟨deadline, hd, hnow⟩ := (Option.any_eq_true _ _).mp hexpired
    unfold World.timeout
    simp only [hd, of_decide_eq_true hnow, if_true]
    exact cancel_called w c

/-- A scope that is past its deadline when it is entered is cancelled by that. -/
theorem activate_called (host : τ) (h : w.opensCancelled c = true) :
    ((w.activate c host).scope c).cancelCalled = true := by
  have htimed := timeout_called h
  have hopened := opened_scope (w.timeout c) c host c
  unfold World.activate
  simp only
  split_ifs
  · rw [(deliver_delivered _ c).toSameTree.cancelCalled, hopened]
    exact htimed
  · rw [hopened]
    exact htimed

omit [DecidableEq τ] in
theorem opensCancelled_modify (w : World τ) (c d : ScopeId) {f : Scope τ → Scope τ}
    (hf : ∀ s, (f s).cancelCalled = s.cancelCalled ∧ (f s).deadline = s.deadline) :
    (w.modify d f).opensCancelled c = w.opensCancelled c := by
  change (((w.modify d f).scope c).cancelCalled ||
    ((w.modify d f).scope c).deadline.any (· ≤ w.now)) = _
  by_cases hc : c = d
  · subst hc
    simp only [World.modify_scope, if_true, hf]
    rfl
  · simp only [World.modify_scope, hc, if_false]
    rfl

theorem opensCancelled_hold (w : World τ) (c d : ScopeId) (host : τ) :
    (w.hold d host).opensCancelled c = w.opensCancelled c :=
  opensCancelled_modify w c d (f := fun s =>
    { s with hostTask := some host, tasks := s.tasks.insert host }) fun _ => ⟨rfl, rfl⟩

/-- What `__enter__()` writes before `self._timeout()` is none of what that looks at. -/
theorem enter_called (h : w.opensCancelled c = true)
    (henter : CancelScope.step w (.enter c) = some (w', .ok none)) :
    (w'.scope c).cancelCalled = true := by
  simp only [CancelScope.step] at henter
  split at henter
  · cases henter
  · rename_i host _
    obtain ⟨rfl, hok⟩ := Prod.mk.inj (Option.some.inj henter)
    have hheld := (opensCancelled_hold w c c host).trans h
    unfold World.enter at hok ⊢
    by_cases hactive : (w.scope c).active = true
    · simp [hactive, Except.map] at hok
    · simp only [hactive, Bool.false_eq_true, if_false] at hok ⊢
      cases hstate : w.taskState host with
      | none => exact activate_called host hheld
      | some parent =>
          cases parent with
          | none =>
              apply activate_called host
              rw [opensCancelled_modify, hheld]
              exact fun _ => ⟨rfl, rfl⟩
          | some p =>
              simp only [hstate] at hok ⊢
              split_ifs at hok ⊢
              · apply activate_called host
                rw [opensCancelled_modify, opensCancelled_modify, opensCancelled_modify, hheld]
                all_goals exact fun _ => ⟨rfl, rfl⟩
              · cases hok

/-! ## Requests that are left -/

omit [DecidableEq τ] in
theorem callsOf_append (w : World τ) (l l' : List ScopeId) :
    w.callsOf (l ++ l') = w.callsOf l + w.callsOf l' := by
  simp [World.callsOf]

omit [DecidableEq τ] in
theorem callsOf_eq_zero {l : List ScopeId} (h : ∀ d ∈ l, (w.scope d).cancelCalls = 0) :
    w.callsOf l = 0 := by
  unfold World.callsOf
  rw [List.map_congr_left h]
  simp

/-- A scope asks its host for something only after it was cancelled. -/
def Asked (w : World τ) : Prop :=
  ∀ t d, (w.scope d).hostTask = some t → w.loop.point t ≠ .finished →
    (w.scope d).cancelCalls ≠ 0 → (w.scope d).cancelCalled = true

/-- Whoever made the requests to `t` that are left, its own scopes or those beyond,
there is a cancelled scope that can be seen from inside of it. -/
structure Answered (w : World τ) (t : τ) (n : Nat) (inner beyond : List ScopeId) : Prop
    extends Counted w t n inner beyond where
  own : ∀ d, (w.scope d).hostTask = some t → d ∈ inner
  seen : ∀ pre rest, inner = pre ++ rest → n + w.callsOf rest ≠ 0 →
    w.catcher (rest ++ beyond) ≠ none

omit [DecidableEq τ] in
/-- What `scopesAround` computes. -/
theorem Within.scopesAround (h : Within w t inner beyond) (reg : Registered w) :
    w.scopesAround t = inner ++ beyond :=
  h.lineage.complete (fun y p hp => (reg.older y p hp).1)
    fun _ _ => Nat.lt_succ_of_le List.idxOf_le_length

/-- If requests from a part of the scopes are left, and none of these is cancelled up
to `c`, then the other ones were made outside of `c`. -/
theorem Counted.hides (h : Counted w t n (pre ++ rest) beyond) (reg : Registered w)
    (asked : Asked w) (halive : w.loop.point t ≠ .finished) (hleft : n + w.callsOf rest ≠ 0)
    (hsplit : rest ++ beyond = below ++ c :: out)
    (hmiss : ∀ d ∈ below, (w.scope d).cancelCalled = false) : w.Hides t c := by
  have haround : w.scopesAround t = pre ++ below ++ c :: out := by
    rw [h.scopesAround reg, List.append_assoc, hsplit, List.append_assoc]
  have hnodup : (pre ++ below ++ c :: out).Nodup := by
    rw [List.append_assoc, ← hsplit, ← List.append_assoc]
    exact h.nodup reg
  have hnot : c ∉ pre ++ below := fun hmem =>
    (List.nodup_append.mp hnodup).2.2 c hmem c List.mem_cons_self rfl
  have hinside : (w.scopesAround t).takeWhile (fun d => d ≠ c) = pre ++ below := by
    rw [haround, List.takeWhile_append_of_pos]
    · simp
    · intro d hd
      simp only [ne_eq, decide_not, Bool.not_eq_eq_eq_not, Bool.not_true, decide_eq_false_iff_not]
      rintro rfl
      exact hnot hd
  have hpre : pre.filter (fun d => (w.scope d).hostTask = some t) = pre := by
    apply List.filter_eq_self.mpr
    exact fun d hd => decide_eq_true (h.hosted d (List.mem_append_left rest hd))
  have hzero : w.callsOf (below.filter fun d => (w.scope d).hostTask = some t) = 0 := by
    apply callsOf_eq_zero
    intro d hd
    obtain ⟨hmem, hhost⟩ := List.mem_filter.mp hd
    by_contra hne
    have hcalled := asked t d (of_decide_eq_true hhost) halive hne
    rw [hmiss d hmem] at hcalled
    cases hcalled
  refine ⟨?_, ?_, ?_⟩
  · rw [haround]
    exact List.mem_append_right _ List.mem_cons_self
  · rw [hinside, List.filter_append, callsOf_append, hpre, hzero, h.count, callsOf_append]
    omega
  · rw [hinside]
    intro d hd hhost
    rcases List.mem_append.mp hd with hd | hd
    · exact absurd (h.hosted d (List.mem_append_left rest hd)) hhost
    · exact hmiss d hd

/-! ## One step -/

omit [DecidableEq τ] in
/-- A request that is counted by a scope comes from a cancelled one. -/
theorem Charged.asked {opened shielded : Option ScopeId} {origin : ScopeId}
    (h : Charged opened shielded origin w w') (hhost : (w.scope d).hostTask = some t)
    (halive : w.loop.point t ≠ .finished)
    (hbefore : (w.scope d).cancelCalls ≠ 0 → (w.scope d).cancelCalled = true)
    (hcalls : (w'.scope d).cancelCalls ≠ 0) : (w'.scope d).cancelCalled = true := by
  by_cases hsame : (w'.scope d).cancelCalls = (w.scope d).cancelCalls
  · exact h.called d (hbefore (hsame ▸ hcalls))
  · obtain ⟨rfl, -⟩ := h.calls d hsame
    have hshared := h.shared t hhost halive
    exact (h.interrupts t (by omega)).called

theorem Asked.step (h : Asked w) (untouched : Untouched w) (change : Change w a w' o) :
    Asked w' := by
  intro t d hhost halive' hcalls
  have halive : w.loop.point t ≠ .finished := fun hf => halive' (change.ended hf)
  cases change with
  | refused => exact h t d hhost halive hcalls
  | @entered c host mid hcur fresh hmid =>
      have hcharged : Charged (some c) none c mid (mid.activate c host) :=
        activate_charged mid c host
      have hsame := Scope.attributes_ext (hmid.attributes d)
      have hhosted : (mid.scope d).hostTask = some t := by rwa [hcharged.hostTask] at hhost
      refine hcharged.asked hhosted (by rwa [hmid.loop]) (fun hne => ?_) hcalls
      rw [hsame.2.1]
      rw [hsame.2.2.2.2.1] at hne
      by_cases hdc : d = c
      · subst hdc
        exact absurd (untouched d fresh) hne
      · rw [hmid.hostTask, if_neg hdc] at hhosted
        exact h t d hhosted halive hne
  | @left c host exc mid hcur _ hosted hin hmid =>
      obtain ⟨undone, restarted, origin, hundone, hcharged, -, -, -, heq⟩ :=
        conclude_stages mid c host exc
      obtain ⟨calls, caught, hscope⟩ := hundone.scope
      have hdc : d ≠ c := by
        rintro rfl
        rw [heq] at hhost
        simp at hhost
      have hfinal : (mid.conclude c host exc).1.scope d = restarted.scope d := by
        rw [heq]
        simp [hdc]
      have hun : undone.scope d = mid.scope d := by
        rw [hscope]
        simp [hdc]
      have hsame := Scope.attributes_ext (hmid.attributes d)
      rw [hfinal] at hhost hcalls ⊢
      have hhosted : (undone.scope d).hostTask = some t := by rwa [hcharged.hostTask] at hhost
      refine hcharged.asked hhosted (by rwa [hundone.point, hmid.loop]) (fun hne => ?_) hcalls
      rw [hun, hsame.2.2.2.2.1] at hne
      rw [hun, hmid.hostTask] at hhosted
      rw [hun, hsame.2.1]
      exact h t d hhosted halive hne
  | charged _ hl _ hcharged =>
      rw [hcharged.hostTask] at hhost
      exact hcharged.asked hhost halive (h t d hhost halive) hcalls
  | placed _ hp _ =>
      rw [hp.scope] at hhost hcalls ⊢
      exact h t d hhost halive hcalls
  | scheduled _ hs =>
      rw [hs.scope] at hhost hcalls ⊢
      exact h t d hhost halive hcalls

/-- A scope gets its host when that enters it. -/
theorem Change.hosts (change : Change w a w' o) (hhost : (w'.scope d).hostTask = some t) :
    (w.scope d).hostTask = some t ∨ a = .enter d ∧ w.current = some t := by
  cases change with
  | refused => exact .inl hhost
  | @entered c host mid hcur fresh hmid =>
      rw [(activate_links mid c host).hostTask] at hhost
      by_cases hdc : d = c
      · subst hdc
        simp only [World.modify_scope, if_true, hmid.hostTask] at hhost
        exact .inr ⟨rfl, hcur.trans hhost⟩
      · simp only [World.modify_scope, hdc, if_false, hmid.hostTask] at hhost
        exact .inl hhost
  | @left c host exc mid _ _ _ _ hmid =>
      rw [(conclude_links mid c host exc).hostTask] at hhost
      by_cases hdc : d = c
      · simp [hdc] at hhost
      · simp only [World.modify_scope, hdc, if_false, hmid.hostTask] at hhost
        exact .inl hhost
  | charged _ hl _ _ => exact .inl ((hl.hostTask d).symm.trans hhost)
  | placed _ hp _ =>
      rw [hp.scope] at hhost
      exact .inl hhost
  | scheduled _ hs => exact .inl (hs.scope ▸ hhost)

omit [DecidableEq τ] in
/-- Where new requests come from is seen because they got to the task, and what was
seen before has to stay so. -/
theorem Answered.later (h : Answered w t n inner beyond)
    (hcounted : Counted w' t (n + outer) inner beyond)
    (hhosts : ∀ d, (w'.scope d).hostTask = some t → (w.scope d).hostTask = some t)
    (hreached : ∀ above rest, inner = above ++ rest →
      w.callsOf rest < outer + w'.callsOf rest → w'.Reached t above)
    (hkeep : ∀ pre rest, inner = pre ++ rest → n + w.callsOf rest ≠ 0 →
      w.catcher (rest ++ beyond) ≠ none → w'.catcher (rest ++ beyond) ≠ none) :
    Answered w' t (n + outer) inner beyond := by
  refine ⟨hcounted, fun d hd => h.own d (hhosts d hd), fun pre rest hsplit hleft => ?_⟩
  by_cases hmore : w.callsOf rest < outer + w'.callsOf rest
  · obtain ⟨x, d, hx, hnear, hd⟩ := hreached pre rest hsplit hmore
    have hlineage := hcounted.lineage
    rw [hx, hsplit, List.append_assoc] at hlineage
    exact hnear.outermost_ne_none hlineage hd
  · have hbefore : n + w.callsOf rest ≠ 0 := by omega
    exact hkeep pre rest hsplit hbefore (h.seen pre rest hsplit hbefore)

/-- What every run in view keeps. -/
structure Answerable (w : World τ) : Prop extends Regular w where
  asked : Asked w
  answered : ∀ t, w.loop.point t ≠ .finished → ∃ n inner beyond, Answered w t n inner beyond

/-- A step in view hides no cancelled scope whose requests are left. -/
theorem Answerable.stays (h : Answerable w) (ok : InView w a) (change : Change w a w' o)
    (hstep : CancelScope.step w a = some (w', o)) (halive : w.loop.point t ≠ .finished)
    (hcounted : Counted w t n inner beyond) : ∀ pre rest, inner = pre ++ rest →
      n + w.callsOf rest ≠ 0 → w.catcher (rest ++ beyond) ≠ none →
        w'.catcher (rest ++ beyond) ≠ none := by
  rintro pre rest rfl hleft hfound
  rcases outermost_of_new_stop hfound fun d _ => (change.flags d).1 with
    hstays | ⟨below, c, out, hsplit, hmiss, hlow, huncalled, hup⟩
  · exact hstays
  · obtain rfl := change.raises hstep hlow hup
    rcases ok.2 rfl with hcalled | hseparates
    · rw [(change.flags c).1 hcalled] at huncalled
      cases huncalled
    · exact absurd (hcounted.hides h.toRegistered h.asked halive hleft hsplit hmiss)
        (hseparates t halive)

/-- A task that is asked to cancel itself enters no scope that hides the origin. -/
theorem Answered.enter (h : Answered w t n inner beyond) (regular : Regular w)
    (ok : InView w (.enter c)) (hmid : Entered w c t mid) (hcur : w.current = some t)
    (fresh : c ∉ w.entered)
    (hstep : CancelScope.step w (.enter c) = some (mid.activate c t, .ok none))
    (hkeep : ∀ pre rest, inner = pre ++ rest → n + w.callsOf rest ≠ 0 →
      w.catcher (rest ++ beyond) ≠ none → (mid.activate c t).catcher (rest ++ beyond) ≠ none) :
    Answered (mid.activate c t) t n (c :: inner) beyond := by
  have hcounted := h.toCounted.enter regular.toRegistered regular.pythonMinor hmid hcur fresh
    (regular.untouched c fresh)
  have change : Change w (.enter c) (mid.activate c t) (.ok none) := .entered hcur fresh hmid
  obtain ⟨hcount, hcalls⟩ := hmid.calls hcur (by simp [regular.running t hcur])
  refine ⟨hcounted, fun d hd => ?_, fun pre rest hsplit hleft => ?_⟩
  · rcases change.hosts hd with hd | ⟨henter, -⟩
    · exact List.mem_cons_of_mem c (h.own d hd)
    · cases henter
      exact List.mem_cons_self
  cases pre with
  | nil =>
      obtain rfl : c :: inner = rest := hsplit
      have hrequested : (w.loop.task t).cancelling ≠ 0 := by
        rw [← hcount, hcounted.count]
        exact hleft
      have hbefore : n + w.callsOf inner ≠ 0 := h.count ▸ hrequested
      apply outermost_cons_ne_none.mpr
      by_cases hshield : (w.scope c).shield = true
      · exact .inl (enter_called (ok.2 t hcur fresh hrequested hshield) hstep)
      · have hsame := (change.flags c).2 fun _ hv => by cases hv
        refine .inr ⟨hsame.trans (Bool.not_eq_true _ ▸ hshield), ?_⟩
        exact hkeep [] inner rfl hbefore (h.seen [] inner rfl hbefore)
  | cons b pre =>
      obtain ⟨rfl, rfl⟩ : c = b ∧ inner = pre ++ rest := List.cons.inj hsplit
      have hsame : (mid.activate c t).callsOf rest = w.callsOf rest :=
        callsOf_congr fun d hd => hcalls d (.inr (h.hosted d (List.mem_append_right pre hd)))
      rw [hsame] at hleft
      exact hkeep pre rest rfl hleft (h.seen pre rest rfl hleft)

/-- Leaving a scope takes its own requests back, and others are seen from further outside. -/
theorem Answered.leave (h : Answered w t n (c :: inner) beyond) (reg : Registered w)
    {exc : Option Exc} (hmid : Left w c t mid) (hcur : w.current = some t)
    (hkeep : ∀ pre rest, c :: inner = pre ++ rest → n + w.callsOf rest ≠ 0 →
      w.catcher (rest ++ beyond) ≠ none →
        (mid.conclude c t exc).1.catcher (rest ++ beyond) ≠ none) :
    Answered (mid.conclude c t exc).1 t n inner beyond := by
  obtain ⟨-, hcalls⟩ := hmid.calls hcur (by simp [reg.running t hcur]) exc
  obtain ⟨hnot, -⟩ := List.nodup_cons.mp (h.nodup reg)
  refine ⟨h.toCounted.leave reg hmid hcur, fun d hd => ?_, ?_⟩
  · rw [(conclude_links mid c t exc).hostTask] at hd
    by_cases hdc : d = c
    · simp [hdc] at hd
    · simp only [World.modify_scope, hdc, if_false, hmid.hostTask] at hd
      exact (List.mem_cons.mp (h.own d hd)).resolve_left hdc
  rintro pre rest rfl hleft
  have hsame : (mid.conclude c t exc).1.callsOf rest = w.callsOf rest := by
    apply callsOf_congr
    intro d hd
    have hmem := List.mem_append_right pre hd
    refine (hcalls d ?_ (h.hosted d (List.mem_cons_of_mem c hmem))).1
    rintro rfl
    exact hnot (List.mem_append_left beyond hmem)
  rw [hsame] at hleft
  exact hkeep (c :: pre) rest rfl hleft (h.seen (c :: pre) rest rfl hleft)

omit [DecidableEq τ] in
/-- A task outside of all scopes is the host of none, and nobody has asked anything of it. -/
theorem Answered.outside (h : Answered w t n inner beyond) (hout : w.currentScope t = none) :
    (w.loop.task t).cancelling = 0 ∧ ∀ d, (w.scope d).hostTask ≠ some t := by
  have hlineage := h.lineage
  rw [hout] at hlineage
  generalize hl : inner ++ beyond = l at hlineage
  cases hlineage
  obtain ⟨rfl, rfl⟩ := List.append_eq_nil_iff.mp hl
  refine ⟨?_, fun d hd => List.not_mem_nil (h.own d hd)⟩
  by_contra hne
  exact h.seen [] [] rfl (h.count ▸ hne) rfl

omit [DecidableEq τ] in
/-- A task that hosts no scope and that nobody has asked anything is answered anywhere. -/
theorem Registered.answered (reg : Registered w) (hzero : (w.loop.task t).cancelling = 0)
    (hhosts : ∀ d, (w.scope d).hostTask ≠ some t) :
    ∃ n inner beyond, Answered w t n inner beyond := by
  obtain ⟨beyond, lineage⟩ := Lineage.exists_of_rank
    (fun y p hp => (reg.older y p hp).1) (w.currentScope t)
  refine ⟨0, [], beyond, ⟨⟨lineage, by simp⟩, hzero, trivial⟩, fun d hd => absurd hd (hhosts d),
    fun pre rest hsplit hleft => ?_⟩
  obtain ⟨-, rfl⟩ := List.append_eq_nil_iff.mp hsplit.symm
  exact absurd rfl hleft

omit [DecidableEq τ] in
/-- What does not touch the attributes of the scopes and asks nothing of the task. -/
theorem Answered.still (h : Answered w t n inner beyond) (within : Within w' t inner beyond)
    (hscope : ∀ d, w'.scope d = { w.scope d with tasks := (w'.scope d).tasks })
    (hcount : (w'.loop.task t).cancelling = (w.loop.task t).cancelling) :
    Answered w' t n inner beyond := by
  have hcalls : ∀ rest, w'.callsOf rest = w.callsOf rest :=
    fun rest => callsOf_congr fun d _ => by rw [hscope]
  have hcatcher : ∀ chain, w'.catcher chain = w.catcher chain := fun chain =>
    outermost_congr (fun d _ => by rw [hscope]) fun d _ => by rw [hscope]
  refine ⟨h.toCounted.congr (Nat.le_refl n) within (fun d _ => ?_) (by rw [hcount]), ?_, ?_⟩
  · rw [hscope]
    exact ⟨rfl, rfl⟩
  · intro d hd
    rw [hscope] at hd
    exact h.own d hd
  · intro pre rest hsplit hleft
    rw [hcalls] at hleft
    rw [hcatcher]
    exact h.seen pre rest hsplit hleft

/-- A step in view answers for the tasks that it leaves unfinished. -/
theorem Answerable.answers (h : Answerable w) (ok : InView w a)
    (hstep : CancelScope.step w a = some (w', o)) (regular' : Regular w')
    (halive' : w'.loop.point t ≠ .finished) : ∃ n inner beyond, Answered w' t n inner beyond := by
  have reg := h.toRegistered
  have change := step_change reg h.called ok.1 hstep
  have halive : w.loop.point t ≠ .finished := fun hf => halive' (change.ended hf)
  obtain ⟨n, inner, beyond, hans⟩ := h.answered t halive
  have hstays := h.stays ok change hstep halive hans.toCounted
  have hhosts : w.current ≠ some t ∨ a.kind ≠ .nests →
      ∀ d, (w'.scope d).hostTask = some t → (w.scope d).hostTask = some t := by
    intro hn d hd
    apply (change.hosts hd).resolve_right
    rintro ⟨rfl, hcur⟩
    exact hn.elim (fun hn => hn hcur) fun hn => hn rfl
  cases change with
  | refused => exact ⟨n, inner, beyond, hans⟩
  | @entered c host mid hcur fresh hmid =>
      by_cases hth : t = host
      · subst hth
        exact ⟨n, c :: inner, beyond, hans.enter h.toRegular ok hmid hcur fresh hstep hstays⟩
      · obtain ⟨outer, hcounted, hreached⟩ :=
          hans.toCounted.enterOther reg regular'.toRegistered hmid hth fresh halive
        have hnot : w.current ≠ some t := fun hc => hth (Option.some.inj (hc.symm.trans hcur))
        exact ⟨n + outer, inner, beyond, hans.later hcounted (hhosts (.inl hnot)) hreached hstays⟩
  | @left c host exc mid hcur _ hhost hin hmid =>
      by_cases hth : t = host
      · subst hth
        obtain ⟨x, rest, hx, rfl⟩ := hans.head (List.ne_nil_of_mem (hans.own c hhost))
        obtain rfl : x = c := Option.some.inj (hx.symm.trans hin)
        exact ⟨n, rest, beyond, hans.leave reg hmid hcur hstays⟩
      · obtain ⟨outer, hcounted, hreached⟩ :=
          hans.toCounted.leaveOther reg regular'.toRegistered hmid hcur hth hhost halive
        have hnot : w.current ≠ some t := fun hc => hth (Option.some.inj (hc.symm.trans hcur))
        exact ⟨n + outer, inner, beyond, hans.later hcounted (hhosts (.inl hnot)) hreached hstays⟩
  | @charged a _ _ origin ha hl _ hcharged =>
      obtain ⟨outer, hcounted, hreached⟩ := hans.toCounted.charged hcharged
        (hans.toWithin.sameLinks hl) (List.nodup_append.mp (hans.nodup reg)).1 halive (by simp)
      refine ⟨n + outer, inner, beyond,
        hans.later hcounted (hhosts (.inr (by simp [ha.1])))
          (fun above rest hsplit hmore => ?_) hstays⟩
      obtain ⟨ho, hchanged⟩ := hreached above rest hsplit hmore
      exact (hcharged.interrupts t hchanged).reached regular'.toRegistered ho
  | @placed a _ u ha hplaced hu =>
      by_cases hmoved : t ≠ u ∨ w'.currentScope t = w.currentScope t
      · exact ⟨n, inner, beyond, hans.still (hans.toWithin.placed hplaced hmoved) hplaced.scope
          (hplaced.requests t).1⟩
      · -- the task is placed for the first time: nobody has asked anything of it so far
        obtain ⟨htu, hscope⟩ := not_or.mp hmoved
        obtain rfl := not_not.mp htu
        have hout : w.currentScope t = none := by
          rcases hu with ⟨c, -, hborn⟩ | ⟨c, -, -, hstate⟩ | ⟨-, -, hsame⟩ | ⟨group, -, hdone⟩
          · simp [World.currentScope, (reg.unborn t hborn).1]
          · simp [World.currentScope, hstate]
          · exact absurd hsame hscope
          · exact absurd hdone halive
        obtain ⟨hzero, hnone⟩ := hans.outside hout
        apply regular'.toRegistered.answered ((hplaced.requests t).1.trans hzero)
        intro d hd
        rw [hplaced.scope] at hd
        exact hnone d hd
  | @scheduled a _ ha hs =>
      have hnot : a ≠ .nativeCancel t := by
        rintro rfl
        exact ok.2
      exact ⟨n, inner, beyond, hans.still (hans.toWithin.scheduled hs)
        (fun d => by rw [hs.scope]) (scheduled_cancelling ha hnot hstep)⟩

/-! ## Runs -/

theorem Answerable.step (h : Answerable w) (ok : InView w a)
    (hstep : CancelScope.step w a = some (w', o)) : Answerable w' := by
  have regular' := h.toRegular.step ok.1 hstep
  have change := step_change h.toRegistered h.called ok.1 hstep
  exact ⟨regular', h.asked.step h.untouched change, fun _ ht => h.answers ok hstep regular' ht⟩

omit [DecidableEq τ] in
theorem Answerable.initial {minor : Nat} (hp : 11 ≤ minor) :
    Answerable (CancelScope.initial τ minor) := by
  have regular : Regular (CancelScope.initial τ minor) := .initial hp
  refine ⟨regular, fun t d hhost => ?_, fun t _ => regular.toRegistered.answered rfl fun d hd => ?_⟩
  · cases hhost
  · cases hd

theorem Answerable.of_run {minor : Nat} (hp : 11 ≤ minor)
    (run : (machine τ).Reachable InView (CancelScope.initial τ minor) w) : Answerable w :=
  run.invariant (.initial hp) fun _ _ _ _ h ok hs => h.step ok hs

omit [DecidableEq τ] in
/-- Requests that are left come from a cancelled scope that the task can see. -/
theorem Answered.pending (h : Answered w t n inner beyond) (reg : Registered w)
    (hleft : (w.loop.task t).cancelling ≠ 0) :
    ∃ c, w.currentScope t = some c ∧ w.effectivelyCancelled c = true := by
  have hseen := h.seen [] inner rfl (h.count ▸ hleft)
  have hlineage := h.lineage
  cases hin : w.currentScope t with
  | none =>
      rw [hin] at hlineage
      generalize inner ++ beyond = chain at hlineage hseen
      cases hlineage
      exact absurd rfl hseen
  | some c =>
      rw [hin] at hlineage
      refine ⟨c, rfl, ?_⟩
      rw [reg.effectivelyCancelled hlineage]
      exact Option.isSome_iff_ne_none.mpr hseen

omit [DecidableEq τ] in
/-- From Python 3.11 on the task is asked first, and then the scope. -/
theorem hasPendingCancellation_iff (hp : 11 ≤ w.pythonMinor) :
    w.hasPendingCancellation t = true ↔ (w.loop.task t).cancelling ≠ 0 ∨
      ∃ c, w.currentScope t = some c ∧ w.effectivelyCancelled c = true := by
  unfold World.hasPendingCancellation
  cases w.currentScope t <;> by_cases hzero : (w.loop.task t).cancelling = 0 <;> simp [hp, hzero]

omit [DecidableEq τ] in
theorem effectivelyCancelled_of_shield (hshield : (w.scope c).shield = true) :
    w.effectivelyCancelled c = (w.scope c).cancelCalled := by
  unfold World.effectivelyCancelled World.nearestCancelled nearest
  cases (w.scope c).cancelCalled <;> simp [hshield]

/-- In every run in which no shield comes up between a task and the origin of a request
that is left, and for every task that has not ended with requests left,
`has_pending_cancellation()` tells whether the current scope is effectively cancelled. -/
theorem pending_exact {minor : Nat} (hp : 11 ≤ minor)
    (run : (machine τ).Reachable InView (initial τ minor) w)
    (ht : w.loop.point t = .finished → (w.loop.task t).cancelling = 0) :
    (w.hasPendingCancellation t = true ↔
      ∃ c, w.currentScope t = some c ∧ w.effectivelyCancelled c = true) ∧
    ∀ c, w.currentScope t = some c → (w.scope c).shield = true →
      (w.scope c).cancelCalled = false → w.hasPendingCancellation t = false := by
  have h := Answerable.of_run hp run
  have hpending : (w.loop.task t).cancelling ≠ 0 →
      ∃ c, w.currentScope t = some c ∧ w.effectivelyCancelled c = true := by
    intro hleft
    obtain ⟨n, inner, beyond, hans⟩ := h.answered t fun hf => hleft (ht hf)
    exact hans.pending h.toRegistered hleft
  have hiff : w.hasPendingCancellation t = true ↔
      ∃ c, w.currentScope t = some c ∧ w.effectivelyCancelled c = true :=
    (hasPendingCancellation_iff h.pythonMinor).trans (or_iff_right_of_imp hpending)
  refine ⟨hiff, fun c hc hshield huncalled => ?_⟩
  apply Bool.eq_false_iff.mpr
  intro htrue
  obtain ⟨d, hd, heff⟩ := hiff.mp htrue
  obtain rfl : c = d := Option.some.inj (hc.symm.trans hd)
  rw [effectivelyCancelled_of_shield hshield, huncalled] at heff
  cases heff

/-- Task 0 waits in the shielded scope 1 while scope 0 around it is cancelled. -/
def shieldedBefore : World (Fin 2) :=
  ((machine (Fin 2)).exec InView (initial (Fin 2) 12)
    [.createTask 0, .resume 0, .enter 0, .setShield 1 true, .enter 1, .createFuture, .await 0,
      .cancel 0]).get (by decide)

theorem pending_exact_shieldedBefore :
    shieldedBefore.currentScope 0 = some 1 ∧ shieldedBefore.hasPendingCancellation 0 = false := by
  have run : (machine (Fin 2)).Reachable InView (initial (Fin 2) 12) shieldedBefore :=
    Machine.exec_get_reachable _ _ _
  have hin : shieldedBefore.currentScope 0 = some 1 := by decide
  exact ⟨hin, (pending_exact (by decide) run (by decide)).2 1 hin (by decide) (by decide)⟩

/-- A call of the native `Task.cancel()`. -/
def Action.native : Action τ → Bool
  | .nativeCancel _ => true
  | _ => false

/-- The delivery of scope 0 has got to task 0 when that enters the shielded scope 1. -/
def shieldedAfter : World (Fin 2) :=
  ((machine (Fin 2)).exec (fun w a => Fresh w a ∧ a.native = false) (initial (Fin 2) 12)
    [.createTask 0, .resume 0, .enter 0, .createFuture, .await 0, .cancel 0, .resume 0,
      .setShield 1 true, .enter 1]).get (by decide)

/-- There the task is still said to have a pending cancellation. -/
theorem pending_behind_shield :
    (machine (Fin 2)).Reachable (fun w a => Fresh w a ∧ a.native = false)
        (initial (Fin 2) 12) shieldedAfter ∧
      shieldedAfter.currentScope 0 = some 1 ∧ (shieldedAfter.scope 1).shield = true ∧
      (shieldedAfter.scope 1).cancelCalled = false ∧
      shieldedAfter.effectivelyCancelled 1 = false ∧
      shieldedAfter.hasPendingCancellation 0 = true :=
  ⟨Machine.exec_get_reachable _ _ _, by decide, by decide, by decide, by decide, by decide⟩

end Anyio.CancelScope
