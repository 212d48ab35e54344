import Anyio.CancelScope.Stack
import Mathlib.Algebra.Order.BigOperators.Group.List
import Mathlib.Algebra.Order.Group.Nat
import Mathlib.Algebra.GroupWithZero.Nat

/-!
# Counting the requests to a host

`cancelling()` of a task inside scopes of its own is what it was outside of
them, plus the native requests, what these scopes asked for and what the scopes
beyond them did. The count that a scope notes when it is entered never exceeds
the share of the others, so the loop that undoes the cancellations of the scope
undoes all of them.
-/

namespace Anyio.CancelScope

open Asyncio Library

variable {τ : Type*}

/-- The requests made to their host by the scopes of a list. -/
def World.callsOf (w : World τ) (inner : List ScopeId) : Nat :=
  (inner.map fun c => (w.scope c).cancelCalls).sum

/-- What a scope noted at its entry are requests that were not its own. -/
def Balanced (w : World τ) (n : Nat) : List ScopeId → Prop
  | [] => True
  | c :: rest => (∃ limit, (w.scope c).cancelling = some limit ∧ limit ≤ n + w.callsOf rest) ∧
      Balanced w n rest

/-- All requests to `t` but `n` are those of the scopes `inner`. -/
structure Counted (w : World τ) (t : τ) (n : Nat) (inner beyond : List ScopeId) : Prop
    extends Within w t inner beyond where
  count : (w.loop.task t).cancelling = n + w.callsOf inner
  balanced : Balanced w n inner

/-- The parent of `c` is effectively cancelled, and `c` does not shield from it. -/
def World.Visible (w : World τ) (c : ScopeId) : Prop :=
  (w.scope c).shield = false ∧ ∃ p d, (w.scope c).parentScope = some p ∧ Near w p d

/-- The closest cancelled scope of `t` is none of these. -/
def World.Reached (w : World τ) (t : τ) (above : List ScopeId) : Prop :=
  ∃ x d, w.currentScope t = some x ∧ Near w x d ∧ d ∉ above

/-- The closest cancelled scope of `t` is one of those beyond. -/
def World.FromBeyond (w : World τ) (t : τ) (beyond : List ScopeId) : Prop :=
  ∃ x d, w.currentScope t = some x ∧ Near w x d ∧ d ∈ beyond

variable {w w' mid : World τ} {a : Action τ} {o : Answer} {opened shielded : Option ScopeId}
  {c d origin x : ScopeId} {t u host : τ} {above inner beyond : List ScopeId} {n m base : Nat}

theorem callsOf_congr (h : ∀ d ∈ inner, (w'.scope d).cancelCalls = (w.scope d).cancelCalls) :
    w'.callsOf inner = w.callsOf inner := by
  unfold World.callsOf
  rw [List.map_congr_left h]

theorem callsOf_mono (h : ∀ d ∈ inner, (w.scope d).cancelCalls ≤ (w'.scope d).cancelCalls) :
    w.callsOf inner ≤ w'.callsOf inner :=
  List.sum_le_sum h

/-- Only one scope of the inner asked for more. -/
theorem callsOf_origin (hn : inner.Nodup) (ho : origin ∈ inner)
    (h : ∀ d, d ≠ origin → (w'.scope d).cancelCalls = (w.scope d).cancelCalls) :
    w'.callsOf inner + (w.scope origin).cancelCalls =
      w.callsOf inner + (w'.scope origin).cancelCalls := by
  induction inner with
  | nil => cases ho
  | cons b rest ih =>
      obtain ⟨hb, hn⟩ := List.nodup_cons.mp hn
      have hcons : ∀ v : World τ,
          v.callsOf (b :: rest) = (v.scope b).cancelCalls + v.callsOf rest :=
        fun v => by simp [World.callsOf]
      rw [hcons, hcons]
      rcases List.mem_cons.mp ho with rfl | ho
      · have hrest : w'.callsOf rest = w.callsOf rest :=
          callsOf_congr fun d hd => h d fun heq => hb (heq ▸ hd)
        omega
      · have hne : b ≠ origin := fun heq => hb (heq ▸ ho)
        have := ih hn ho
        rw [h b hne]
        omega

theorem Balanced.mono (h : Balanced w n inner) (hn : n ≤ m)
    (hexits : ∀ d ∈ inner, (w'.scope d).cancelling = (w.scope d).cancelling)
    (hcalls : ∀ d ∈ inner, (w.scope d).cancelCalls ≤ (w'.scope d).cancelCalls) :
    Balanced w' m inner := by
  induction inner with
  | nil => trivial
  | cons b rest ih =>
      obtain ⟨⟨k, hk, hle⟩, hrest⟩ := h
      have hmono := callsOf_mono fun d hd => hcalls d (List.mem_cons_of_mem b hd)
      refine ⟨⟨k, (hexits b List.mem_cons_self).trans hk, by omega⟩, ih hrest ?_ ?_⟩
      · exact fun d hd => hexits d (List.mem_cons_of_mem b hd)
      · exact fun d hd => hcalls d (List.mem_cons_of_mem b hd)

/-- What concerns neither the task nor its scopes changes no count. -/
theorem Counted.congr (h : Counted w t n inner beyond) (hn : n ≤ m)
    (within : Within w' t inner beyond)
    (hcounts : ∀ d ∈ inner, (w'.scope d).cancelCalls = (w.scope d).cancelCalls ∧
      (w'.scope d).cancelling = (w.scope d).cancelling)
    (hcount : (w'.loop.task t).cancelling + n = (w.loop.task t).cancelling + m) :
    Counted w' t m inner beyond where
  toWithin := within
  count := by
    have hcalls := callsOf_congr fun d hd => (hcounts d hd).1
    have := h.count
    omega
  balanced := h.balanced.mono hn (fun d hd => (hcounts d hd).2) fun d hd => (hcounts d hd).1.ge

/-- Requests of one of the scopes are counted twice, by the scope and by its host. What the
scopes of `rest` and those beyond asked for was not asked for by one of those before. -/
theorem Counted.charged (h : Counted w t n inner beyond)
    (hc : Charged opened shielded origin w w') (within : Within w' t inner beyond)
    (hdistinct : inner.Nodup) (halive : w.loop.point t ≠ .finished)
    (hopened : ∀ d ∈ inner, opened ≠ some d) :
    ∃ outer, Counted w' t (n + outer) inner beyond ∧ ∀ above rest, inner = above ++ rest →
      w.callsOf rest < outer + w'.callsOf rest →
        origin ∉ above ∧ (w'.loop.task t).cancelling ≠ (w.loop.task t).cancelling := by
  have hothers : ∀ d, d ≠ origin → (w'.scope d).cancelCalls = (w.scope d).cancelCalls := by
    intro d hd
    by_contra hne
    exact hd (hc.calls d hne).1
  have hgrows := hc.loop.grows t
  have hcount := h.count
  have hexits := fun d hd => hc.exits d (hopened d hd)
  by_cases ho : origin ∈ inner
  · have hshared := hc.shared t (h.hosted origin ho) halive
    have hsum := callsOf_origin hdistinct ho hothers
    have hcalls : ∀ d ∈ inner, (w.scope d).cancelCalls ≤ (w'.scope d).cancelCalls := by
      intro d hd
      by_cases hdo : d = origin
      · subst hdo
        omega
      · exact (hothers d hdo).ge
    refine ⟨0, ⟨within, by omega, h.balanced.mono (Nat.le_refl n) hexits hcalls⟩, ?_⟩
    rintro above rest rfl hmore
    have hrest : origin ∈ rest := by
      by_contra hnot
      have hsame := callsOf_congr fun d hd => hothers d fun heq => hnot (heq ▸ hd)
      omega
    refine ⟨fun habove => ?_, fun heq => ?_⟩
    · exact (List.nodup_append.mp hdistinct).2.2 origin habove origin hrest rfl
    · have hsame : (w'.scope origin).cancelCalls = (w.scope origin).cancelCalls := by omega
      have hcongr : w'.callsOf rest = w.callsOf rest := callsOf_congr fun d _ => by
        by_cases hdo : d = origin
        · exact hdo ▸ hsame
        · exact hothers d hdo
      omega
  · have hsame : ∀ d ∈ inner, (w'.scope d).cancelCalls = (w.scope d).cancelCalls :=
      fun d hd => hothers d fun heq => ho (heq ▸ hd)
    refine ⟨(w'.loop.task t).cancelling - (w.loop.task t).cancelling, ?_, ?_⟩
    · exact h.congr (Nat.le_add_right n _) within (fun d hd => ⟨hsame d hd, hexits d hd⟩) (by omega)
    · rintro above rest rfl hmore
      have hrest := callsOf_congr fun d hd => hsame d (List.mem_append_right above hd)
      exact ⟨fun habove => ho (List.mem_append_left rest habove), by omega⟩

/-- A request whose origin is none of these scopes of `t`. -/
theorem Interrupts.reached (h : Interrupts w w' origin t) (reg' : Registered w')
    (ho : origin ∉ above) : w'.Reached t above := by
  obtain ⟨x, hx, hnear, -⟩ := h.near reg'
  exact ⟨x, origin, hx, hnear, ho⟩

/-- A request that does not come from the scopes of `t` comes from beyond. -/
theorem Within.fromBeyond (h : Within w t inner beyond) (hr : w.Reached t inner) :
    w.FromBeyond t beyond := by
  obtain ⟨x, d, hx, hnear, hd⟩ := hr
  have hlineage := h.lineage
  rw [hx] at hlineage
  exact ⟨x, d, hx, hnear,
    (List.mem_append.mp (hlineage.mem_of_ascends hnear.ascends)).resolve_left hd⟩

/-- What reaches the task from beyond passes all of its scopes. -/
theorem Within.visible (h : Within w t (above ++ [c]) beyond) (reg : Registered w)
    (hfrom : w.FromBeyond t beyond) : w.Visible c := by
  obtain ⟨x, d, hx, hnear, hd⟩ := hfrom
  have hlineage := h.lineage
  have hnodup := h.nodup reg
  rw [hx, List.append_assoc] at hlineage
  rw [List.append_assoc] at hnodup
  obtain ⟨pass, p, hp, rest⟩ := hnear.beyond hlineage hnodup hd
  exact ⟨pass, p, d, hp, rest⟩

/-- The running task is not cancelled, and neither do its scopes count anything. -/
theorem Charged.of_current (h : Charged opened shielded origin w w') (hcur : w.current = some t)
    (halive : w.loop.point t ≠ .finished) :
    (w'.loop.task t).cancelling = (w.loop.task t).cancelling ∧
      ∀ d, (w.scope d).hostTask = some t →
        (w'.scope d).cancelCalls = (w.scope d).cancelCalls := by
  have hsame : (w'.loop.task t).cancelling = (w.loop.task t).cancelling := by
    by_contra hne
    exact (h.interrupts t hne).notCurrent hcur
  refine ⟨hsame, fun d hd => ?_⟩
  by_contra hne
  obtain ⟨rfl, -⟩ := h.calls d hne
  have := h.shared t hd halive
  omega

variable [DecidableEq τ]

/-- As long as the count at entry is not above what others asked for, the loop
undoes everything that the scope asked for. -/
theorem uncancelHost_count {limit base : Nat} (hl : limit ≤ base)
    (h : (w.loop.task host).cancelling = base + n) :
    ((World.uncancelHost c host limit n w).loop.task host).cancelling = base := by
  induction n generalizing w with
  | zero => exact h
  | succ n ih =>
      have hstep : ((w.loop.uncancel host (13 ≤ w.pythonMinor)).task host).cancelling =
          base + n := by
        simp [Loop.uncancel, h]
      unfold World.uncancelHost
      simp only
      split_ifs with hle
      · rw [hstep] at hle ⊢
        omega
      · exact ih hstep

theorem undoCancellations_count {limit base : Nat} (hlimit : (w.scope c).cancelling = some limit)
    (hl : limit ≤ base) (h : (w.loop.task host).cancelling = base + (w.scope c).cancelCalls) :
    ((w.undoCancellations c host).loop.task host).cancelling = base := by
  unfold World.undoCancellations
  rw [hlimit]
  exact uncancelHost_count hl h

/-! ## One step -/

/-- Entering a scope makes no request to the host, neither from that scope nor from its own. -/
theorem Entered.calls (hmid : Entered w c t mid) (hcur : w.current = some t)
    (halive : w.loop.point t ≠ .finished) :
    ((mid.activate c t).loop.task t).cancelling = (w.loop.task t).cancelling ∧
      ∀ d, d = c ∨ (w.scope d).hostTask = some t →
        ((mid.activate c t).scope d).cancelCalls = (w.scope d).cancelCalls := by
  have hcharged : Charged (some c) none c mid (mid.activate c t) := activate_charged mid c t
  obtain ⟨hcount, hcalls⟩ := hcharged.of_current (hmid.current.trans hcur)
    (by rwa [hmid.loop])
  rw [hmid.loop] at hcount
  refine ⟨hcount, fun d hd => ?_⟩
  refine (hcalls d ?_).trans (Scope.attributes_ext (hmid.attributes d)).2.2.2.2.1
  rw [hmid.hostTask]
  split_ifs with hdc
  · rfl
  · exact hd.resolve_left hdc

/-- The task enters a scope that has not asked for anything yet. -/
theorem Counted.enter (h : Counted w t n inner beyond) (reg : Registered w)
    (hp : 11 ≤ w.pythonMinor) (hmid : Entered w c t mid) (hcur : w.current = some t)
    (hc : c ∉ w.entered) (hzero : (w.scope c).cancelCalls = 0) :
    Counted (mid.activate c t) t n (c :: inner) beyond := by
  have hcharged : Charged (some c) none c mid (mid.activate c t) := activate_charged mid c t
  obtain ⟨hcount, hcalls⟩ := hmid.calls hcur (by simp [reg.running t hcur])
  have hne : ∀ d ∈ inner, d ≠ c := fun d hd heq =>
    hc (heq ▸ h.entered reg d (List.mem_append_left beyond hd))
  have hcalls' : ∀ d ∈ c :: inner,
      ((mid.activate c t).scope d).cancelCalls = (w.scope d).cancelCalls := fun d hd =>
    hcalls d ((List.mem_cons.mp hd).imp_right (h.hosted d))
  have htotal : (mid.activate c t).callsOf (c :: inner) = w.callsOf inner := by
    rw [callsOf_congr hcalls']
    simp [World.callsOf, hzero]
  refine ⟨h.toWithin.enter reg hmid hc, ?_,
    ⟨_, activate_cancelling mid c t ?_ (hmid.current.trans hcur), ?_⟩, ?_⟩
  · rw [hcount, htotal]
    exact h.count
  · rwa [hmid.pythonMinor]
  · have hrest : (mid.activate c t).callsOf inner = w.callsOf inner :=
      callsOf_congr fun d hd => hcalls' d (List.mem_cons_of_mem c hd)
    rw [hmid.loop, hrest]
    exact h.count.le
  · apply h.balanced.mono (Nat.le_refl n)
    · intro d hd
      rw [hcharged.exits d fun heq => hne d hd (Option.some.inj heq).symm]
      exact (Scope.attributes_ext (hmid.attributes d)).2.2.2.2.2
    · exact fun d hd => (hcalls' d (List.mem_cons_of_mem c hd)).ge

/-- Another task enters a scope. -/
theorem Counted.enterOther (h : Counted w t n inner beyond) (reg : Registered w)
    (reg' : Registered (mid.activate c host)) (hmid : Entered w c host mid) (hth : t ≠ host)
    (hc : c ∉ w.entered) (halive : w.loop.point t ≠ .finished) :
    ∃ outer, Counted (mid.activate c host) t (n + outer) inner beyond ∧
      ∀ above rest, inner = above ++ rest →
        w.callsOf rest < outer + (mid.activate c host).callsOf rest →
          (mid.activate c host).Reached t above := by
  have hne : ∀ d ∈ inner, d ≠ c := fun d hd heq =>
    hc (heq ▸ h.entered reg d (List.mem_append_left beyond hd))
  have hcharged : Charged (some c) none c mid (mid.activate c host) :=
    activate_charged mid c host
  obtain ⟨hbefore, hafter⟩ := h.toWithin.enterOther reg hmid hth hc
  have hmidCounted : Counted mid t n inner beyond := by
    apply h.congr (Nat.le_refl n) hbefore
    · exact fun d _ => (Scope.attributes_ext (hmid.attributes d)).2.2.2.2
    · rw [hmid.loop]
  obtain ⟨outer, hcounted, hreached⟩ := hmidCounted.charged hcharged hafter
    (List.nodup_append.mp (h.nodup reg)).1 (by rwa [hmid.loop])
    fun d hd heq => hne d hd (Option.some.inj heq).symm
  refine ⟨outer, hcounted, fun above rest hsplit hmore => ?_⟩
  have hsame : mid.callsOf rest = w.callsOf rest :=
    callsOf_congr fun d _ => (Scope.attributes_ext (hmid.attributes d)).2.2.2.2.1
  obtain ⟨ho, hchanged⟩ := hreached above rest hsplit (hsame ▸ hmore)
  exact (hcharged.interrupts t hchanged).reached reg' ho

/-- Leaving a scope keeps what the other scopes of the host count. -/
theorem Left.calls (hmid : Left w c t mid) (hcur : w.current = some t)
    (halive : w.loop.point t ≠ .finished) (exc : Option Exc) :
    ((mid.conclude c t exc).1.loop.task t).cancelling =
        ((mid.undoCancellations c t).loop.task t).cancelling ∧
      ∀ d, d ≠ c → (w.scope d).hostTask = some t →
        ((mid.conclude c t exc).1.scope d).cancelCalls = (w.scope d).cancelCalls ∧
          ((mid.conclude c t exc).1.scope d).cancelling = (w.scope d).cancelling := by
  obtain ⟨undone, restarted, origin, hundone, hcharged, htree, hloop, -, heq⟩ :=
    conclude_stages mid c t exc
  obtain ⟨calls, caught, hscope⟩ := hundone.scope
  obtain ⟨hkeep, hcalls⟩ := hcharged.of_current (hundone.current.trans (hmid.current.trans hcur))
    (by rwa [hundone.point, hmid.loop])
  refine ⟨?_, fun d hd hhost => ?_⟩
  · rw [heq, ← hloop]
    exact hkeep
  · have hsame := (Scope.attributes_ext (hmid.attributes d)).2.2.2.2
    have hun : undone.scope d = mid.scope d := by
      rw [hscope]
      simp [hd]
    have hhosted : (undone.scope d).hostTask = some t := by rwa [hun, hmid.hostTask]
    have hfinal : (mid.conclude c t exc).1.scope d = restarted.scope d := by
      rw [heq]
      simp [hd]
    constructor
    · rw [hfinal, hcalls d hhosted, hun, hsame.1]
    · rw [hfinal, hcharged.exits d (by simp), hun, hsame.2]

/-- The task leaves its innermost scope, which takes back all its requests. -/
theorem Counted.leave (h : Counted w t n (c :: inner) beyond) (reg : Registered w)
    {exc : Option Exc} (hmid : Left w c t mid) (hcur : w.current = some t) :
    Counted (mid.conclude c t exc).1 t n inner beyond := by
  obtain ⟨within, hcount, ⟨limit, hlimit, hle⟩, hrest⟩ := h
  obtain ⟨hnot, -⟩ := List.nodup_cons.mp (within.nodup reg)
  have hne : ∀ d ∈ inner, d ≠ c := fun d hd heq =>
    hnot (heq ▸ List.mem_append_left beyond hd)
  obtain ⟨hkeep, hcalls⟩ := hmid.calls hcur (by simp [reg.running t hcur]) exc
  have hsame := (Scope.attributes_ext (hmid.attributes c)).2.2.2.2
  have hundo : ((mid.undoCancellations c t).loop.task t).cancelling = n + w.callsOf inner := by
    apply undoCancellations_count (hsame.2.trans hlimit) hle
    rw [hmid.loop, hsame.1, hcount]
    simp only [World.callsOf, List.map_cons, List.sum_cons]
    omega
  have hinner := fun d hd => hcalls d (hne d hd) (within.hosted d (List.mem_cons_of_mem c hd))
  have htotal : (mid.conclude c t exc).1.callsOf inner = w.callsOf inner :=
    callsOf_congr fun d hd => (hinner d hd).1
  refine ⟨within.leave reg hmid exc, ?_, ?_⟩
  · rw [hkeep, htotal, hundo]
  · exact hrest.mono (Nat.le_refl n) (fun d hd => (hinner d hd).2) fun d hd => (hinner d hd).1.ge

/-- Another task leaves a scope. -/
theorem Counted.leaveOther (h : Counted w t n inner beyond) {exc : Option Exc}
    (reg : Registered w) (reg' : Registered (mid.conclude c host exc).1) (hmid : Left w c host mid)
    (hcur : w.current = some host) (hth : t ≠ host) (hhost : (w.scope c).hostTask = some host)
    (halive : w.loop.point t ≠ .finished) :
    ∃ outer, Counted (mid.conclude c host exc).1 t (n + outer) inner beyond ∧
      ∀ above rest, inner = above ++ rest →
        w.callsOf rest < outer + (mid.conclude c host exc).1.callsOf rest →
          (mid.conclude c host exc).1.Reached t above := by
  obtain ⟨hne, hafter⟩ := h.toWithin.leaveOther hmid hth hhost exc
  obtain ⟨undone, restarted, origin, hundone, hcharged, htree, -, -, heq⟩ :=
    conclude_stages mid c host exc
  obtain ⟨calls, caught, hscope⟩ := hundone.scope
  have hun : ∀ d ∈ inner, undone.scope d = mid.scope d := by
    intro d hd
    rw [hscope]
    simp [hne d hd]
  have hfinal : ∀ d ∈ inner, ((mid.conclude c host exc).1.scope d) = restarted.scope d := by
    intro d hd
    rw [heq]
    simp [hne d hd]
  have hrestarted : Within restarted t inner beyond := by
    apply h.toWithin.congr
    · have hscopeTask := (conclude_links mid c host exc).currentScope t
      rw [heq] at hscopeTask
      exact hscopeTask.trans ((hmid.currentScope t).trans (if_neg hth))
    · exact fun d _ => by rw [htree.parentScope, hscope, hmid.parentScope]
    · exact fun d hd => by rw [hcharged.hostTask, hun d hd, hmid.hostTask]
  have hcounted : Counted undone t n inner beyond := by
    apply h.congr (Nat.le_refl n)
    · apply hrestarted.congr (htree.currentScope t).symm
      · exact fun d _ => (htree.parentScope d).symm
      · exact fun d _ => (hcharged.hostTask d).symm
    · intro d hd
      rw [hun d hd]
      exact (Scope.attributes_ext (hmid.attributes d)).2.2.2.2
    · rw [hundone.others t hth, hmid.loop]
  obtain ⟨outer, hdone, hreached⟩ := hcounted.charged hcharged hrestarted
    (List.nodup_append.mp (h.nodup reg)).1 (by rwa [hundone.point, hmid.loop]) (by simp)
  refine ⟨outer, hdone.congr (Nat.le_refl _) hafter ?_ ?_, fun above rest hsplit hmore => ?_⟩
  · exact fun d hd => by simp [hfinal d hd]
  · rw [heq]
    rfl
  · have hbefore : undone.callsOf rest = w.callsOf rest := callsOf_congr fun d hd => by
      rw [hun d (hsplit ▸ List.mem_append_right above hd)]
      exact (Scope.attributes_ext (hmid.attributes d)).2.2.2.2.1
    have hlast : (mid.conclude c host exc).1.callsOf rest = restarted.callsOf rest :=
      callsOf_congr fun d hd => by rw [hfinal d (hsplit ▸ List.mem_append_right above hd)]
    obtain ⟨ho, hchanged⟩ := hreached above rest hsplit (by omega)
    have hi := (hundone.interrupts hcharged (hmid.current.trans hcur)
      ((hmid.hostTask c).trans hhost) hchanged).2
    rw [← heq] at hi
    exact hi.reached reg' ho

/-! ## Runs -/

/-- Count the calls of the native `Task.cancel()` that reach task `t`. -/
def nativeRequests (t : τ) (n : Nat) (w : World τ) : Action τ → Answer → Nat
  | .nativeCancel u, _ => if u = t ∧ w.loop.point t ≠ .finished then n + 1 else n
  | _, _ => n

/-- Scopes that were never entered have asked for nothing. -/
def Untouched (w : World τ) : Prop := ∀ c, c ∉ w.entered → (w.scope c).cancelCalls = 0

theorem Untouched.step (h : Untouched w) (reg : Registered w) (change : Change w a w' o) :
    Untouched w' := by
  cases change with
  | refused => exact h
  | @entered c host mid hcur fresh hmid =>
      have hl := activate_links mid c host
      have hcharged : Charged (some c) none c mid (mid.activate c host) :=
          activate_charged mid c host
      intro d hd
      rw [hl.entered] at hd
      have hd' : d ∉ w.entered ++ [c] := hmid.entered ▸ hd
      simp only [List.mem_append, List.mem_singleton, not_or] at hd'
      have hsame : ((mid.activate c host).scope d).cancelCalls = (mid.scope d).cancelCalls := by
        by_contra hne
        exact hd'.2 (hcharged.calls d hne).1
      rw [hsame, (Scope.attributes_ext (hmid.attributes d)).2.2.2.2.1]
      exact h d hd'.1
  | @left c host exc mid hcur hactive hhost hin hmid =>
      obtain ⟨undone, restarted, origin, hundone, hcharged, -, -, -, heq⟩ :=
        conclude_stages mid c host exc
      obtain ⟨calls, caught, hscope⟩ := hundone.scope
      intro d hd
      rw [(conclude_links mid c host exc).entered] at hd
      have hd' : d ∉ w.entered := hmid.entered ▸ hd
      have hdc : d ≠ c := fun heq => hd' (heq ▸ reg.known c hactive)
      have hun : undone.scope d = mid.scope d := by
        rw [hscope]
        simp [hdc]
      have hsame : (restarted.scope d).cancelCalls = (undone.scope d).cancelCalls := by
        by_contra hne
        have hhosted := (hcharged.calls d hne).2
        rw [hun, hmid.hostTask] at hhosted
        exact hd' (reg.known d ((reg.hosted d).mp hhosted))
      rw [heq]
      simp only [World.modify_scope, hdc, if_false]
      rw [hsame, hun, (Scope.attributes_ext (hmid.attributes d)).2.2.2.2.1]
      exact h d hd'
  | charged _ hl _ hcharged =>
      intro d hd
      rw [hl.entered] at hd
      rw [← h d hd]
      by_contra hne
      exact hd (reg.known d ((reg.hosted d).mp (hcharged.calls d hne).2))
  | placed _ hp _ =>
      intro d hd
      rw [hp.scope]
      exact h d (hp.entered ▸ hd)
  | scheduled _ hs =>
      intro d hd
      rw [hs.scope]
      exact h d (hs.entered ▸ hd)

/-- A native request is counted by its task and by the history. -/
theorem scheduled_count (ha : a.kind = .schedules) (h : CancelScope.step w a = some (w', o))
    (halive : w.loop.point t ≠ .finished) :
    (w'.loop.task t).cancelling + n =
      (w.loop.task t).cancelling + nativeRequests t n w a o := by
  by_cases hn : a = .nativeCancel t
  · subst hn
    obtain ⟨-, h⟩ := Option.ite_none_right_eq_some.mp h
    cases h
    simp only [nativeRequests, halive, ne_eq, not_false_eq_true, and_self, if_true]
    rw [Loop.cancel_cancelling (done_eq_false halive)]
    omega
  · have hsame : nativeRequests t n w a o = n := by
      unfold nativeRequests
      split
      · rename_i u
        have hu : u ≠ t := fun heq => hn (heq ▸ rfl)
        simp [hu]
      · rfl
    rw [scheduled_cancelling ha hn h, hsame]

/-- Only a native request changes the count of the history. -/
theorem nativeRequests_of_ne (h : ∀ u, a ≠ .nativeCancel u) (w : World τ) (o : Answer) :
    nativeRequests t n w a o = n := by
  unfold nativeRequests
  split
  · exact absurd rfl (h _)
  · rfl

theorem nativeRequests_add (t : τ) (k n : Nat) (w : World τ) (a : Action τ) (o : Answer) :
    nativeRequests t (k + n) w a o = k + nativeRequests t n w a o := by
  unfold nativeRequests
  split
  · split_ifs <;> rfl
  · rfl

/-- The requests to a task inside scopes of its own are counted by every step. The
last of these scopes stays the last one until it is left. -/
theorem Change.counted (change : Change w a w' o) (hstep : CancelScope.step w a = some (w', o))
    (reg : Registered w) (reg' : Registered w') (hp : 11 ≤ w.pythonMinor) (hzero : Untouched w)
    (halive : w.loop.point t ≠ .finished) (hne : inner ≠ []) (h : Counted w t n inner beyond) :
    ∃ inner' outer, Counted w' t (nativeRequests t n w a o + outer) inner' beyond ∧
      (outer ≠ 0 → w'.FromBeyond t beyond) ∧
      ∀ c, inner.getLast? = some c → (w'.scope c).active = true → inner'.getLast? = some c := by
  have hdistinct := (List.nodup_append.mp (h.nodup reg)).1
  cases change with
  | @refused a e he =>
      have hsame : nativeRequests t n w a (.error e) = n := by
        apply nativeRequests_of_ne
        rintro u rfl
        rcases he with ⟨ha, -⟩ | ⟨⟨f, hf⟩, -⟩
        · cases ha
        · cases hf
      exact ⟨inner, 0, hsame.symm ▸ h, fun hz => absurd rfl hz, fun c hc _ => hc⟩
  | @entered c host mid hcur fresh hmid =>
      by_cases hth : t = host
      · subst hth
        refine ⟨c :: inner, 0, h.enter reg hp hmid hcur fresh (hzero c fresh),
          fun hz => absurd rfl hz, fun d hd _ => ?_⟩
        rw [List.getLast?_cons, hd]
        rfl
      · obtain ⟨outer, hcounted, hreached⟩ := h.enterOther reg reg' hmid hth fresh halive
        refine ⟨inner, outer, hcounted, fun hpos => ?_, fun c hc _ => hc⟩
        exact hcounted.fromBeyond (hreached inner [] (List.append_nil _).symm
          (Nat.pos_of_ne_zero hpos))
  | @left c host exc mid hcur _ hhost hin hmid =>
      by_cases hth : t = host
      · subst hth
        obtain ⟨x, rest, hx, rfl⟩ := h.head hne
        obtain rfl : x = c := Option.some.inj (hx.symm.trans hin)
        refine ⟨rest, 0, h.leave reg hmid hcur, fun hz => absurd rfl hz, fun d hd hactive => ?_⟩
        cases rest with
        | nil =>
            obtain rfl : x = d := by simpa using hd
            simp [(conclude_links mid x t exc).active, hmid.active] at hactive
        | cons y rest => rwa [List.getLast?_cons_cons] at hd
      · obtain ⟨outer, hcounted, hreached⟩ := h.leaveOther reg reg' hmid hcur hth hhost halive
        refine ⟨inner, outer, hcounted, fun hpos => ?_, fun c hc _ => hc⟩
        exact hcounted.fromBeyond (hreached inner [] (List.append_nil _).symm
          (Nat.pos_of_ne_zero hpos))
  | @charged a _ _ origin ha hl _ hcharged =>
      have hsame : nativeRequests t n w a (.ok none) = n := by
        apply nativeRequests_of_ne
        rintro u rfl
        cases ha.1
      have hafter := h.toWithin.sameLinks hl
      obtain ⟨outer, hcounted, hreached⟩ := h.charged hcharged hafter hdistinct halive (by simp)
      refine ⟨inner, outer, hsame.symm ▸ hcounted, fun hpos => ?_, fun c hc _ => hc⟩
      obtain ⟨ho, hchanged⟩ := hreached inner [] (List.append_nil _).symm (Nat.pos_of_ne_zero hpos)
      exact hafter.fromBeyond ((hcharged.interrupts t hchanged).reached reg' ho)
  | @placed a _ u ha hplaced hu =>
      have hsame : nativeRequests t n w a (.ok none) = n := by
        apply nativeRequests_of_ne
        rintro v rfl
        cases ha
      have hafter := h.toWithin.placed hplaced
        ((h.not_placed reg hne halive hu).imp_right fun hf => hf.2.2)
      refine ⟨inner, 0, hsame.symm ▸ h.congr (Nat.le_refl n) hafter (fun d _ => ?_) ?_,
        fun hz => absurd rfl hz, fun c hc _ => hc⟩
      · rw [hplaced.scope]
        exact ⟨rfl, rfl⟩
      · rw [(hplaced.requests t).1, Nat.add_zero]
  | @scheduled a _ ha hs =>
      have hle : n ≤ nativeRequests t n w a (.ok none) := by
        unfold nativeRequests
        split
        · split_ifs <;> omega
        · exact Nat.le_refl n
      refine ⟨inner, 0, h.congr hle (h.toWithin.scheduled hs) (fun d _ => ?_)
        (scheduled_count ha hstep halive), fun hz => absurd rfl hz, fun c hc _ => hc⟩
      rw [hs.scope]
      exact ⟨rfl, rfl⟩

theorem Change.pythonMinor (change : Change w a w' o) : w'.pythonMinor = w.pythonMinor := by
  cases change with
  | refused => rfl
  | @entered c host mid _ _ hmid =>
      have hc : Charged (some c) none c mid (mid.activate c host) := activate_charged mid c host
      exact hc.pythonMinor.trans hmid.pythonMinor
  | @left c host exc mid _ _ _ _ hmid =>
      obtain ⟨undone, restarted, origin, hundone, hc, -, -, -, heq⟩ := conclude_stages mid c host exc
      rw [heq]
      exact hc.pythonMinor.trans (hundone.pythonMinor.trans hmid.pythonMinor)
  | charged _ _ _ hc => exact hc.pythonMinor
  | placed _ hp _ => exact hp.pythonMinor
  | scheduled _ hs => exact hs.pythonMinor

/-- What every run keeps that the counts depend on, from Python 3.11 on. -/
structure Regular (w : World τ) : Prop extends Registered w where
  called : Called w
  untouched : Untouched w
  pythonMinor : 11 ≤ w.pythonMinor

/-- As long as `t` has not left its scope `c`, its requests are `n`, those of its
scopes up to `c`, and others only if `c` can see a cancelled scope. -/
structure Accounted (t : τ) (c : ScopeId) (w : World τ) (n : Nat) : Prop extends Regular w where
  counted : (w.scope c).active = true → w.loop.point t ≠ .finished → ∃ inner beyond outer,
    Counted w t (n + outer) inner beyond ∧ inner.getLast? = some c ∧ (outer ≠ 0 → w.Visible c)

theorem Regular.step (h : Regular w) (ok : Fresh w a)
    (hstep : CancelScope.step w a = some (w', o)) :
    Regular w' := by
  have change := step_change h.toRegistered h.called ok hstep
  exact ⟨h.toRegistered.step h.called ok hstep, h.called.step change,
    h.untouched.step h.toRegistered change, change.pythonMinor ▸ h.pythonMinor⟩

omit [DecidableEq τ] in
theorem Regular.initial {minor : Nat} (hp : 11 ≤ minor) :
    Regular (CancelScope.initial τ minor) where
  toRegistered := .initial minor
  called _ h := nomatch h
  untouched _ _ := rfl
  pythonMinor := hp

theorem Regular.of_run {minor : Nat} (hp : 11 ≤ minor)
    (run : (machine τ).Reachable Fresh (CancelScope.initial τ minor) w) : Regular w :=
  run.invariant (.initial hp) fun _ _ _ _ h ok hs => h.step ok hs

/-- The step that enters `c` starts the account. -/
theorem Regular.enter (h : Regular w) (hcur : w.current = some t) (ok : Fresh w (.enter c))
    (henter : CancelScope.step w (.enter c) = some (w', .ok none)) :
    Accounted t c w' (w.loop.task t).cancelling := by
  refine ⟨h.step ok henter, fun _ _ => ?_⟩
  obtain ⟨beyond, lineage⟩ := Lineage.exists_of_rank
    (fun y p hp => (h.older y p hp).1) (w.currentScope t)
  have hcounted : Counted w t (w.loop.task t).cancelling [] beyond :=
    ⟨⟨lineage, by simp⟩, rfl, trivial⟩
  cases step_change h.toRegistered h.called ok henter with
  | @entered _ host mid hcur' fresh hmid =>
      obtain rfl : t = host := Option.some.inj (hcur.symm.trans hcur')
      exact ⟨[c], beyond, 0, hcounted.enter h.toRegistered h.pythonMinor hmid hcur fresh
        (h.untouched c fresh), rfl, fun hz => absurd rfl hz⟩
  | charged ha _ _ _ => cases ha.1
  | placed ha _ _ => cases ha
  | scheduled ha _ => cases ha

theorem Accounted.step (h : Accounted t c w n) (hc : c ∈ w.entered) (ok : Fresh w a)
    (hstep : CancelScope.step w a = some (w', o)) (hseen : w.Visible c → w'.Visible c) :
    Accounted t c w' (nativeRequests t n w a o) := by
  have change := step_change h.toRegistered h.called ok hstep
  have regular := h.toRegular.step ok hstep
  refine ⟨regular, fun hactive halive' => ?_⟩
  have halive : w.loop.point t ≠ .finished := fun hf => halive' (change.ended hf)
  obtain ⟨inner, beyond, outer, hcounted, hlast, hvisible⟩ :=
    h.counted ((change.kept hc).active hactive).1 halive
  have hne : inner ≠ [] := by
    rintro rfl
    cases hlast
  obtain ⟨inner', more, hcounted', hfrom, hkeep⟩ := change.counted hstep h.toRegistered
    regular.toRegistered h.pythonMinor h.untouched halive hne hcounted
  have hlast' := hkeep c hlast hactive
  refine ⟨inner', beyond, outer + more, ?_, hlast', fun hpos => ?_⟩
  · have hsum : nativeRequests t (n + outer) w a o = nativeRequests t n w a o + outer := by
      rw [Nat.add_comm n, nativeRequests_add, Nat.add_comm]
    rwa [hsum, Nat.add_assoc] at hcounted'
  · by_cases houter : outer = 0
    · obtain ⟨above, rfl⟩ := List.getLast?_eq_some_iff.mp hlast'
      exact hcounted'.toWithin.visible regular.toRegistered (hfrom (by omega))
    · exact hseen (hvisible houter)

/-- When the task leaves `c`, only requests from scopes that `c` can see are left. -/
theorem Accounted.exit (h : Accounted t c w n) (hcur : w.current = some t) {exc : Option Exc}
    {caught : Bool} (hexit : CancelScope.step w (.exit c exc) = some (w', .ok (some caught))) :
    ∃ outer, (w'.loop.task t).cancelling = n + outer ∧ (outer ≠ 0 → w.Visible c) := by
  cases step_change h.toRegistered h.called (a := .exit c exc) trivial hexit with
  | @left _ host _ mid hcur' hactive _ hin hmid =>
      obtain rfl : t = host := Option.some.inj (hcur.symm.trans hcur')
      obtain ⟨inner, beyond, outer, hcounted, hlast, hvisible⟩ :=
        h.counted hactive (by simp [h.running t hcur])
      have hne : inner ≠ [] := by
        rintro rfl
        cases hlast
      obtain ⟨x, rest, hx, rfl⟩ := hcounted.head hne
      obtain rfl : x = c := Option.some.inj (hx.symm.trans hin)
      obtain ⟨hnot, -⟩ := List.nodup_cons.mp (hcounted.nodup h.toRegistered)
      have hrest : rest = [] := by
        cases rest with
        | nil => rfl
        | cons y rest =>
            rw [List.getLast?_cons_cons] at hlast
            exact absurd (List.mem_append_left beyond (List.mem_of_getLast? hlast)) hnot
      subst hrest
      exact ⟨outer, (hcounted.leave h.toRegistered hmid hcur).count, hvisible⟩

/-- A scope entered by a task outside of all scopes has no parent. -/
theorem Change.outermost (change : Change w (.enter c) w' (.ok none))
    (hcur : w.current = some t) (hout : w.currentScope t = none) :
    (w'.scope c).parentScope = none := by
  cases change with
  | @entered _ host mid hcur' _ hmid =>
      obtain rfl : t = host := Option.some.inj (hcur.symm.trans hcur')
      rw [(activate_links mid c t).parentScope]
      simp [hmid.parentScope, hout]
  | charged ha _ _ _ => cases ha.1
  | placed ha _ _ => cases ha
  | scheduled ha _ => cases ha

theorem Change.enters (change : Change w (.enter c) w' (.ok none)) : c ∈ w'.entered := by
  cases change with
  | @entered _ host mid _ _ hmid =>
      rw [(activate_links mid c host).entered]
      change c ∈ mid.entered
      simp [hmid.entered]
  | charged ha _ _ _ => cases ha.1
  | placed ha _ _ => cases ha
  | scheduled ha _ => cases ha

/-- A task outside of all scopes enters the scope `c` and leaves it later. By then
its count has grown by the native requests that were made in between. -/
theorem cancellations_settled {minor : Nat} (hp : 11 ≤ minor) {w₁ w₂ w₃ w₄ : World τ}
    {exc : Option Exc} {caught : Bool}
    (before : (machine τ).Reachable Fresh (initial τ minor) w₁)
    (hcur : w₁.current = some t) (hout : w₁.currentScope t = none)
    (ok : Fresh w₁ (.enter c)) (henter : step w₁ (.enter c) = some (w₂, .ok none))
    (inside : ((machine τ).withHistory (nativeRequests t)).Reachable
      (fun p => Fresh p.1) (w₂, 0) (w₃, n))
    (hcur₃ : w₃.current = some t)
    (hexit : step w₃ (.exit c exc) = some (w₄, .ok (some caught))) :
    (w₄.loop.task t).cancelling = (w₁.loop.task t).cancelling + n := by
  have first := Regular.of_run hp before
  have change := step_change first.toRegistered first.called ok henter
  have last : Accounted t c w₃ ((w₁.loop.task t).cancelling + n) ∧ c ∈ w₃.entered ∧
      (w₃.scope c).parentScope = none := by
    refine inside.invariant_history (I := fun w n =>
      Accounted t c w ((w₁.loop.task t).cancelling + n) ∧ c ∈ w.entered ∧
        (w.scope c).parentScope = none)
      ⟨first.enter hcur ok henter, change.enters, change.outermost hcur hout⟩ ?_
    rintro w m a w' o ⟨h, hmem, hparent⟩ ok hs
    have hkept := (step_change h.toRegistered h.called ok hs).kept hmem
    refine ⟨?_, hkept.entered, hkept.parentScope.trans hparent⟩
    rw [← nativeRequests_add]
    apply h.step hmem ok hs
    rintro ⟨-, p, d, hp, -⟩
    rw [hparent] at hp
    cases hp
  obtain ⟨last, -, hparent⟩ := last
  obtain ⟨outer, hcount, hvisible⟩ := last.exit hcur₃ hexit
  have hzero : outer = 0 := by
    by_contra hne
    obtain ⟨-, p, d, hp, -⟩ := hvisible hne
    rw [hparent] at hp
    cases hp
  rw [hcount, hzero]
  rfl

/-- Task 0 runs outside of all scopes. -/
def beforeScopes : World (Fin 2) :=
  ((machine (Fin 2)).exec Fresh (initial (Fin 2) 12) [.createTask 0, .resume 0]).get
    (by decide)

/-- The scopes 0 and 1 are cancelled while task 0 waits inside of both, and then
the task is cancelled natively. -/
def cancelledThrice : World (Fin 2) × Nat :=
  (((machine (Fin 2)).withHistory (nativeRequests 0)).exec (fun p => Fresh p.1)
    ((beforeScopes.enter 0 0).1, 0)
    [.enter 1, .createFuture, .await 0, .cancel 0, .cancel 1, .nativeCancel 0, .resume 0,
      .exit 1 (some (.cancelled (some "Cancelled by cancel scope 0") []))]).get (by decide)

theorem cancellations_settled_nested :
    cancelledThrice.2 = 1 ∧ (beforeScopes.loop.task 0).cancelling = 0 ∧
      ((cancelledThrice.1.exit 0 0 none).1.loop.task 0).cancelling = 1 := by
  have before : (machine (Fin 2)).Reachable Fresh (initial (Fin 2) 12) beforeScopes :=
    Machine.exec_get_reachable _ _ _
  have inside : ((machine (Fin 2)).withHistory (nativeRequests 0)).Reachable
      (fun p => Fresh p.1) ((beforeScopes.enter 0 0).1, 0)
      (cancelledThrice.1, cancelledThrice.2) := by
    rw [Prod.mk.eta]
    exact Machine.exec_get_reachable _ _ _
  have hcount : cancelledThrice.2 = 1 := by decide
  have hzero : (beforeScopes.loop.task 0).cancelling = 0 := by decide
  refine ⟨hcount, hzero, ?_⟩
  have henter : step beforeScopes (.enter 0) = some ((beforeScopes.enter 0 0).1, .ok none) := rfl
  have hexit : step cancelledThrice.1 (.exit 0 none) =
      some ((cancelledThrice.1.exit 0 0 none).1, .ok (some false)) := rfl
  rw [cancellations_settled (by decide) before (by decide) (by decide) (by decide) henter inside
    (by decide) hexit, hzero, hcount]

end Anyio.CancelScope
