import Anyio.CapacityLimiter.Tokens

/-!
# Waiters of the asyncio `CapacityLimiter` that nobody wakes

A notification is consumed when an entry leaves the queue, not when its waiter
resumes. It is lost if the waiter was cancelled before, or is cancelled
afterwards, and nobody passes it on. The queue is keyed by borrower, so a
second wait for the same borrower overwrites the entry of the first one.
While none of this happens to a queue with other waiters in it, the queue is
backed: as many borrowers as there are tokens hold one or were notified.
-/

namespace Anyio.CapacityLimiter

open Asyncio Library

variable {τ β : Type*}

/-- Nobody else is suspended in a wait for borrower `b`. -/
def NoWaitFor (s : State τ β) (b : β) : Prop :=
  ∀ t, match s.loop.point t with
    | .waiting c _ => c ≠ b
    | _ => True

/-- If popping `n` entries leaves others in the queue, none of the popped ones
belongs to a wait that was already cancelled. -/
def PopsLive (s : State τ β) (n : Nat) : Prop :=
  n < s.waitQueue.entries.length →
    ∀ e ∈ s.waitQueue.entries.take n, s.loop.future e.2 ≠ .cancelled

/-- A token of `b` is passed on to a live waiter. -/
def PassesOn (s : State τ β) (b : β) : Prop :=
  b ∈ s.borrowers → s.totalTokens.covers s.borrowers.card → PopsLive s 1

/-- No step loses a notification or overwrites an entry: no wait for a borrower
is entered while another one for it is suspended; a notification does not go
to a cancelled wait while others are queued, and is not taken from its waiter
by a cancellation while others are queued. -/
def KeepsNotifications (currentTask : τ → β) (s : State τ β) : Action τ β → Prop
  | .acquireOnBehalfOf _ b scopeCancelled =>
      scopeCancelled = false → Blocks s b → NoWaitFor s b
  | .acquireOnBehalfOfNowait _ => True
  | .releaseOnBehalfOf b => PassesOn s b
  | .setTotalTokens value => ∀ total, newTotal s value = .ok total →
      PopsLive s (waitersToNotify s total)
  | .cancel t => InFlight s t → s.waitQueue.entries = []
  | .resume t => s.loop.point t = .shieldedCheckpoint → s.loop.throws t = true →
      PassesOn s (currentTask t)

/-- The borrower holds a token, or a task was notified for it. -/
def Pledged (s : State τ β) (b : β) : Prop :=
  b ∈ s.borrowers ∨ ∃ t, notified s.loop t = some b

/-- At least `n` borrowers are pledged. -/
def Backed (s : State τ β) (n : Nat) : Prop :=
  ∃ P : Finset β, (∀ b ∈ P, Pledged s b) ∧ n ≤ P.card

/-- Every wait that was not notified or cancelled is filed under its borrower,
and under no other wait's. -/
structure Filed (s : State τ β) : Prop where
  inv : Inv s
  registered : ∀ t b f, s.loop.point t = .waiting b f → s.loop.future f = .pending →
    (b, f) ∈ s.waitQueue.entries
  single : ∀ t u b f g, s.loop.point t = .waiting b f → s.loop.point u = .waiting b g → t = u
  apart : ∀ e ∈ s.waitQueue.entries, e.1 ∉ s.borrowers

/-- What holds while no notification is lost. -/
structure Served (s : State τ β) : Prop where
  filed : Filed s
  backed : s.waitQueue.entries ≠ [] → ∃ n, s.totalTokens = .count n ∧ Backed s n

variable {s s' : State τ β} {t : τ} {b : β}

theorem Bound.exists_of_not_covers {total : Bound} {n : Nat} (h : ¬total.covers n) :
    ∃ m, total = .count m ∧ m < n := by
  cases total with
  | count m => exact ⟨m, rfl, not_le.mp h⟩
  | inf => exact absurd trivial h

/-- A limiter without a free token is backed by its borrowers. -/
theorem backed_of_full (h : ¬s.totalTokens.covers (s.borrowers.card + 1)) :
    ∃ n, s.totalTokens = .count n ∧ Backed s n := by
  obtain ⟨n, htotal, hn⟩ := Bound.exists_of_not_covers h
  exact ⟨n, htotal, s.borrowers, fun _ => .inl, Nat.le_of_lt_succ hn⟩

/-- The backing stays while the queue only shrinks and no pledge is taken back. -/
theorem Served.backed_frame (srv : Served s) (hq : s'.waitQueue.entries ⊆ s.waitQueue.entries)
    (ht : s'.totalTokens = s.totalTokens) (hp : ∀ b, Pledged s b → Pledged s' b)
    (hne : s'.waitQueue.entries ≠ []) : ∃ n, s'.totalTokens = .count n ∧ Backed s' n := by
  have hold : s.waitQueue.entries ≠ [] := by
    obtain ⟨e, he⟩ := List.exists_mem_of_ne_nil _ hne
    exact List.ne_nil_of_mem (hq he)
  obtain ⟨n, htotal, P, hP, hn⟩ := srv.backed hold
  exact ⟨n, ht ▸ htotal, P, fun b hb => hp b (hP b hb), hn⟩

/-- The borrower of a queued entry is not pledged. -/
theorem Filed.not_pledged (fil : Filed s) {e : β × FutureId} (he : e ∈ s.waitQueue.entries) :
    ¬Pledged s e.1 := by
  rintro (hb | ⟨t, ht⟩)
  · exact fil.apart e he hb
  · obtain ⟨f, hw, hfin, -⟩ := notified_eq_some.mp ht
    obtain ⟨u, hu, hne⟩ := fil.inv.queued e he
    obtain rfl := fil.single t u e.1 f e.2 hw hu
    exact hne ((Point.waiting.inj (hu.symm.trans hw)).2 ▸ hfin)

/-- No wait begins, no event is unset and the queue is as it was. -/
theorem Filed.frame (fil : Filed s) (inv : Inv s')
    (hw : ∀ u b f, s'.loop.point u = .waiting b f → s.loop.point u = .waiting b f)
    (hf : ∀ f, s'.loop.future f = .pending → s.loop.future f = .pending)
    (hq : s'.waitQueue = s.waitQueue) (hb : ∀ e ∈ s.waitQueue.entries, e.1 ∉ s'.borrowers) :
    Filed s' := by
  refine ⟨inv, fun u b f hu hpending => ?_, fun u v b f g hu hv => ?_, fun e he => ?_⟩
  · rw [hq]
    exact fil.registered u b f (hw u b f hu) (hf f hpending)
  · exact fil.single u v b f g (hw u b f hu) (hw v b g hv)
  · exact hb e (hq ▸ he)

theorem pledged_notifyNext (h : Pledged s b) : Pledged (notifyNext s) b := by
  rcases h with hb | ⟨t, ht⟩
  · exact .inl (by simpa using hb)
  · obtain ⟨-, hs⟩ | ⟨e, rest, -, hs⟩ := notifyNext_cases s
    · rw [hs]
      exact .inr ⟨t, ht⟩
    · rw [hs]
      exact .inr ⟨t, notified_setEvent.mpr (.inl ht)⟩

/-- The waiter of the oldest entry is notified unless it was cancelled. -/
theorem Filed.pledged_head (fil : Filed s) {e : β × FutureId} {rest : List (β × FutureId)}
    (hentries : s.waitQueue.entries = e :: rest) (hlive : s.loop.future e.2 ≠ .cancelled) :
    Pledged (notifyNext s) e.1 := by
  obtain ⟨hnil, -⟩ | ⟨c, rest', hpop, hs⟩ := notifyNext_cases s
  · simp [hnil] at hentries
  · rw [OrderedDict.popItem_eq_some hpop, List.cons.injEq] at hentries
    obtain ⟨rfl, -⟩ := hentries
    obtain ⟨t, ht, hne⟩ := fil.inv.queued c
      (OrderedDict.popItem_eq_some hpop ▸ List.mem_cons_self)
    have hpending : s.loop.future c.2 = .pending := by
      cases hf : s.loop.future c.2 <;> simp_all
    rw [hs]
    exact .inr ⟨t, notified_setEvent.mpr (.inr ⟨ht, hpending,
      fil.inv.clear t c.2 (waits_waiting ht) hpending⟩)⟩

theorem Filed.notifyNext (fil : Filed s) : Filed (notifyNext s) := by
  have hinv := fil.inv.notifyNext
  obtain ⟨-, hs⟩ | ⟨e, rest, hpop, hs⟩ := notifyNext_cases s
  · rwa [hs]
  · have hentries := OrderedDict.popItem_eq_some hpop
    rw [hs] at hinv ⊢
    refine ⟨hinv, fun u b f hu hpending => ?_, fun u v b f g hu hv => ?_, fun c hc => ?_⟩
    · simp only [Loop.setEvent_future] at hpending
      split_ifs at hpending with hset
      have hmem := fil.registered u b f (by simpa using hu) hpending
      rw [hentries, List.mem_cons] at hmem
      apply hmem.resolve_left
      rintro rfl
      exact hset ⟨rfl, hpending⟩
    · exact fil.single u v b f g (by simpa using hu) (by simpa using hv)
    · exact fil.apart c (hentries ▸ List.mem_cons_of_mem _ hc)

variable [DecidableEq β]

/-- A notification that reaches a live waiter adds a pledge. -/
theorem Filed.backed_notifyNext (fil : Filed s) {n : Nat} (h : Backed s n)
    {e : β × FutureId} {rest : List (β × FutureId)} (hentries : s.waitQueue.entries = e :: rest)
    (hlive : s.loop.future e.2 ≠ .cancelled) : Backed (CapacityLimiter.notifyNext s) (n + 1) := by
  obtain ⟨P, hP, hn⟩ := h
  have hnew : e.1 ∉ P := fun hmem =>
    fil.not_pledged (hentries ▸ List.mem_cons_self) (hP e.1 hmem)
  refine ⟨insert e.1 P, fun b hb => ?_, ?_⟩
  · rcases Finset.mem_insert.mp hb with rfl | hb
    · exact fil.pledged_head hentries hlive
    · exact pledged_notifyNext (hP b hb)
  · rw [Finset.card_insert_of_notMem hnew]
    exact Nat.succ_le_succ hn

omit [DecidableEq β] in
theorem future_notifyNext_cancelled {f : FutureId}
    (h : (notifyNext s).loop.future f = .cancelled) : s.loop.future f = .cancelled := by
  obtain ⟨-, hs⟩ | ⟨e, rest, -, hs⟩ := notifyNext_cases s
  · rwa [hs] at h
  · rw [hs, Loop.setEvent_future] at h
    split_ifs at h
    exact h

/-- Several notifications, all of them to live waiters. -/
theorem Filed.backed_notify (fil : Filed s) {n : Nat} (h : Backed s n) (m : Nat)
    (hm : m ≤ s.waitQueue.entries.length)
    (hlive : ∀ e ∈ s.waitQueue.entries.take m, s.loop.future e.2 ≠ .cancelled) :
    Backed (CapacityLimiter.notifyNext^[m] s) (n + m) := by
  induction m generalizing s n with
  | zero => exact h
  | succ m ih =>
      obtain ⟨e, rest, hentries⟩ : ∃ e rest, s.waitQueue.entries = e :: rest :=
        List.exists_cons_of_length_pos (by omega)
      have hrest : (CapacityLimiter.notifyNext s).waitQueue.entries = rest := by
        rw [notifyNext_entries, hentries, List.tail_cons]
      have hfirst := fil.backed_notifyNext h hentries (hlive e (by simp [hentries]))
      rw [Function.iterate_succ_apply, Nat.add_comm m 1, ← Nat.add_assoc]
      refine ih fil.notifyNext hfirst ?_ fun c hc hcancelled => ?_
      · rw [hentries, List.length_cons] at hm
        rw [hrest]
        omega
      · rw [hrest] at hc
        exact hlive c (by simp [hentries, hc]) (future_notifyNext_cancelled hcancelled)

/-- A release backs what is left in the queue, as long as the token it passes
on goes to a live waiter. -/
theorem Served.release (srv : Served s) (hb : b ∈ s.borrowers) (ok : PassesOn s b) :
    Served (notifyIfFree { s with borrowers := s.borrowers.erase b }) := by
  have fil : Filed { s with borrowers := s.borrowers.erase b } :=
    srv.filed.frame (srv.filed.inv.frame rfl rfl) (fun _ _ _ => id) (fun _ => id) rfl
      fun e he hmem => srv.filed.apart e he (Finset.mem_of_mem_erase hmem)
  have hcard := Finset.card_erase_add_one hb
  unfold notifyIfFree
  split_ifs with hfree
  · refine ⟨fil.notifyNext, fun hne => ?_⟩
    obtain ⟨n, htotal, P, hP, hn⟩ := srv.backed hfree.1
    obtain ⟨e, rest, hentries⟩ := List.exists_cons_of_ne_nil hfree.1
    have hrest : rest ≠ [] := by
      rwa [notifyNext_entries, hentries, List.tail_cons] at hne
    have hlive : s.loop.future e.2 ≠ .cancelled := by
      have hlen : 1 < s.waitQueue.entries.length := by
        rw [show s.waitQueue.entries = e :: rest from hentries, List.length_cons]
        exact Nat.succ_lt_succ (List.length_pos_iff.mpr hrest)
      apply ok hb (hcard ▸ hfree.2) hlen e
      rw [show s.waitQueue.entries = e :: rest from hentries]
      exact List.mem_cons_self
    have hbacked : Backed { s with borrowers := s.borrowers.erase b } (n - 1) := by
      refine ⟨P.erase b, fun c hc => ?_, ?_⟩
      · rw [Finset.mem_erase] at hc
        rcases hP c hc.2 with hmem | hnote
        · exact .inl (Finset.mem_erase.mpr ⟨hc.1, hmem⟩)
        · exact .inr hnote
      · have hpred : P.card - 1 ≤ (P.erase b).card := Finset.pred_card_le_card_erase
        omega
    refine ⟨n, by simpa using htotal, ?_⟩
    obtain ⟨Q, hQ, hcardQ⟩ := fil.backed_notifyNext hbacked hentries hlive
    exact ⟨Q, hQ, by omega⟩
  · refine ⟨fil, fun hne => ?_⟩
    rw [not_and] at hfree
    exact backed_of_full (hfree hne)

/-- The setter notifies one live waiter for every token it adds. -/
theorem Served.adjust (srv : Served s) {total : Bound}
    (ok : PopsLive s (waitersToNotify s total)) : Served (adjustTotal s total) := by
  have fil : ∀ total, Filed { s with totalTokens := total } := fun _ =>
    srv.filed.frame (srv.filed.inv.frame rfl rfl) (fun _ _ _ => id) (fun _ => id) rfl
      srv.filed.apart
  refine ⟨notify_induction _ (fil total) (fun _ h => h.notifyNext) _, fun hne => ?_⟩
  rw [adjustTotal_entries] at hne
  have hlt : waitersToNotify s total < s.waitQueue.entries.length := by
    by_contra hge
    exact hne (List.drop_eq_nil_of_le (not_lt.mp hge))
  obtain ⟨old, hold, P, hP, hn⟩ := srv.backed (List.ne_nil_of_length_pos (by omega))
  rw [adjustTotal_totalTokens]
  cases total with
  | inf => exact absurd hlt (lt_irrefl _)
  | count new =>
      have hcount : waitersToNotify s (.count new) = new - old := by simp [waitersToNotify, hold]
      obtain ⟨Q, hQ, hcardQ⟩ := (fil (.count new)).backed_notify ⟨P, hP, hn⟩
        (waitersToNotify s (.count new)) hlt.le (ok hlt)
      exact ⟨new, rfl, Q, hQ, by omega⟩

variable [DecidableEq τ]

omit [DecidableEq β] in
/-- Only task `t` may lose its notification. -/
theorem pledged_of_ite (hb : s.borrowers ⊆ s'.borrowers)
    (h : ∀ u, notified s'.loop u = if u = t then none else notified s.loop u)
    (ht : ∀ b, notified s.loop t = some b → b ∈ s'.borrowers) (b : β) (hp : Pledged s b) :
    Pledged s' b := by
  rcases hp with hmem | ⟨u, hu⟩
  · exact .inl (hb hmem)
  · by_cases hut : u = t
    · subst hut
      exact .inl (ht b hu)
    · refine .inr ⟨u, ?_⟩
      rw [h, if_neg hut]
      exact hu

omit [DecidableEq β] in
/-- Task `t` goes to a point that is no wait, and was not notified or is a borrower now. -/
theorem Served.leave {p : Point β} (srv : Served s) (inv : Inv s') (hp : p.idle)
    (hl : s'.loop = s.loop.resumeAt t p) (hq : s'.waitQueue = s.waitQueue)
    (htotal : s'.totalTokens = s.totalTokens) (hb : s.borrowers ⊆ s'.borrowers)
    (ht : ∀ b, notified s.loop t = some b → b ∈ s'.borrowers)
    (hapart : ∀ e ∈ s.waitQueue.entries, e.1 ∉ s'.borrowers) : Served s' := by
  constructor
  · refine srv.filed.frame inv (fun u b f hu => ?_) (fun f hf => ?_) hq hapart
    · rw [hl, Loop.resumeAt_point] at hu
      split_ifs at hu
      · exact absurd hu (hp.ne b f)
      · exact hu
    · simpa [hl] using hf
  · refine srv.backed_frame (hq ▸ fun _ => id) htotal (pledged_of_ite (t := t) hb ?_ ht)
    intro u
    rw [hl, notified_resumeAt hp]

omit [DecidableEq β] in
/-- Task `t` from outside goes to a checkpoint. -/
theorem Served.move {p : Point β} (srv : Served s) (hfrom : s.loop.point t = .outside)
    (hp : p.idle) (hl : s'.loop = s.loop.moveTo t p) (hq : s'.waitQueue = s.waitQueue)
    (htotal : s'.totalTokens = s.totalTokens) (hb : s.borrowers ⊆ s'.borrowers)
    (hapart : ∀ e ∈ s.waitQueue.entries, e.1 ∉ s'.borrowers) : Served s' := by
  have inv := srv.filed.inv.move hfrom hp hl hq
  rw [Loop.moveTo_eq_resumeAt (srv.filed.inv.idle t hfrom)] at hl
  refine srv.leave inv hp hl hq htotal hb (fun b hn => ?_) hapart
  rw [notified_of_idle (by simp [hfrom, Point.idle])] at hn
  cases hn

/-- A wait for a borrower nobody else waits for. -/
theorem Served.join (srv : Served s) (hfrom : s.loop.point t = .outside) (blocks : Blocks s b)
    (alone : NoWaitFor s b) :
    Served { s with
      waitQueue := s.waitQueue.assign b s.loop.nextFuture
      loop := s.loop.createFuture.moveTo t (.waiting b s.loop.nextFuture) } := by
  have hne : ∀ u c f, s.loop.point u = .waiting c f → c ≠ b := by
    intro u c f hu
    have h := alone u
    rwa [hu] at h
  have hpt : ∀ u c f, (s.loop.createFuture.moveTo t (.waiting b s.loop.nextFuture)).point u =
      .waiting c f → u = t ∧ c = b ∧ f = s.loop.nextFuture ∨
        u ≠ t ∧ s.loop.point u = .waiting c f := by
    intro u c f hu
    rw [Loop.moveTo_point] at hu
    split_ifs at hu with hut
    · obtain ⟨rfl, rfl⟩ := Point.waiting.inj hu
      exact .inl ⟨hut, rfl, rfl⟩
    · exact .inr ⟨hut, hu⟩
  constructor
  · refine ⟨srv.filed.inv.join hfrom b, fun u c f hu hpending => ?_, fun u v c f g hu hv => ?_,
      fun e he => ?_⟩
    · rcases hpt u c f hu with ⟨-, rfl, rfl⟩ | ⟨-, hu⟩
      · exact OrderedDict.mem_assign.mpr (.inl rfl)
      · have hold : f ≠ s.loop.nextFuture :=
          (srv.filed.inv.owned.created u f (waits_waiting hu)).ne
        refine OrderedDict.mem_assign.mpr (.inr ⟨?_, hne u c f hu⟩)
        exact srv.filed.registered u c f hu (by simpa [hold] using hpending)
    · rcases hpt u c f hu with ⟨hut, hc, -⟩ | ⟨-, hu'⟩ <;>
        rcases hpt v c g hv with ⟨hvt, hc', -⟩ | ⟨-, hv'⟩
      · exact hut.trans hvt.symm
      · exact absurd hc (hne v c g hv')
      · exact absurd hc' (hne u c f hu')
      · exact srv.filed.single u v c f g hu' hv'
    · rcases OrderedDict.mem_assign.mp he with rfl | ⟨he, -⟩
      · exact blocks.1
      · exact srv.filed.apart e he
  · intro _
    have hpledged : ∀ c, Pledged s c → Pledged { s with
        waitQueue := s.waitQueue.assign b s.loop.nextFuture
        loop := s.loop.createFuture.moveTo t (.waiting b s.loop.nextFuture) } c := by
      refine pledged_of_ite (t := t) (fun _ => id) (notified_join srv.filed.inv.owned b) ?_
      intro c hn
      rw [notified_of_idle (by simp [hfrom, Point.idle])] at hn
      cases hn
    -- an empty queue is joined only when no token is free
    obtain ⟨n, htotal, P, hP, hn⟩ : ∃ n, s.totalTokens = .count n ∧ Backed s n := by
      rcases blocks.2 with hqueue | hfull
      · exact srv.backed hqueue
      · exact backed_of_full hfull
    exact ⟨n, htotal, P, fun c hc => hpledged c (hP c hc), hn⟩

omit [DecidableEq β] in
theorem Served.cancel (srv : Served s) (hfrom : s.loop.point t ≠ .outside)
    (ok : InFlight s t → s.waitQueue.entries = []) :
    Served { s with loop := s.loop.cancel t } := by
  constructor
  · refine srv.filed.frame (srv.filed.inv.cancel hfrom) (by simp) (fun f hf => ?_) rfl
      srv.filed.apart
    rcases s.loop.cancel_future_cases t f with h | ⟨-, h, -⟩
    · simpa [h] using hf
    · exact h
  · intro hne
    refine srv.backed_frame (fun _ => id) rfl (pledged_of_ite (t := t) (fun _ => id)
      notified_cancel fun b hn => ?_) hne
    exact absurd (ok (Option.isSome_iff_exists.mpr ⟨b, hn⟩)) hne

theorem Served.withdraw {f : FutureId} (srv : Served s) (hfrom : s.loop.point t = .waiting b f)
    (thrown : s.loop.throws t = true) (inv : Inv { s with
      waitQueue := s.waitQueue.pop b
      loop := s.loop.resumeAt t .outside }) :
    Served { s with
      waitQueue := s.waitQueue.pop b
      loop := s.loop.resumeAt t .outside } := by
  have hpt : ∀ u c g, (s.loop.resumeAt t .outside).point u = .waiting c g →
      u ≠ t ∧ s.loop.point u = .waiting c g := by
    intro u c g hu
    rw [Loop.resumeAt_point] at hu
    split_ifs at hu with hut
    exact ⟨hut, hu⟩
  have hsub : (s.waitQueue.pop b).entries ⊆ s.waitQueue.entries :=
    fun e he => (OrderedDict.mem_pop.mp he).1
  constructor
  · refine ⟨inv, fun u c g hu hpending => ?_, fun u v c g k hu hv => ?_,
      fun e he => srv.filed.apart e (hsub he)⟩
    · obtain ⟨hut, hw⟩ := hpt u c g hu
      refine OrderedDict.mem_pop.mpr ⟨srv.filed.registered u c g hw hpending, ?_⟩
      intro hc
      exact hut (srv.filed.single u t b g f (hc ▸ hw) hfrom)
    · exact srv.filed.single u v c g k (hpt u c g hu).2 (hpt v c k hv).2
  · refine srv.backed_frame hsub rfl (pledged_of_ite (t := t) (fun _ => id)
      (notified_resumeAt (p := .outside) trivial) fun c hn => ?_)
    obtain ⟨g, hw, hfin, hm⟩ := notified_eq_some.mp hn
    simp [Loop.throws, waits_waiting hw, hfin, hm] at thrown

variable {currentTask : τ → β}

theorem Served.effect {a : Action τ β} (srv : Served s) (ok : KeepsNotifications currentTask s a)
    (h : Effect currentTask s a s') : Served s' := by
  have inv := srv.filed.inv.effect h
  cases h with
  | refused => exact srv
  | parked outside =>
      exact srv.move (p := .checkpointIfCancelled) outside trivial rfl rfl rfl (fun _ => id)
        srv.filed.apart
  | granted outside grants =>
      refine srv.move (p := .shieldedCheckpoint) outside trivial rfl rfl rfl
        (Finset.subset_insert _ _) fun e he => ?_
      simp [grants.2.1] at he
  | queued outside blocks => exact srv.join outside blocks (ok rfl blocks)
  | grantedNowait grants =>
      have hnil : s.waitQueue.entries = [] := grants.2.1
      refine ⟨srv.filed.frame inv (fun _ _ _ => id) (fun _ => id) rfl fun e he => ?_,
        fun hne => absurd hnil hne⟩
      simp [hnil] at he
  | released holds => exact srv.release holds ok
  | adjusted valid => exact srv.adjust (ok _ valid)
  | cancelled inside => exact srv.cancel inside ok
  | left hfrom hto =>
      refine srv.leave inv hto rfl rfl rfl (fun _ => id) (fun b hn => ?_) srv.filed.apart
      rw [notified_of_idle hfrom] at hn
      cases hn
  | @gaveBack t hfrom thrown holds =>
      have hidle : (s.loop.point t).idle := by simp [hfrom, Point.idle]
      have hleft : Served { s with loop := s.loop.resumeAt t .outside } := by
        refine srv.leave (p := .outside) (srv.filed.inv.leave (p := .outside) trivial rfl
          fun e he => ⟨he, hidle.ne _ _⟩) trivial rfl rfl rfl (fun _ => id) (fun b hn => ?_)
          srv.filed.apart
        rw [notified_of_idle hidle] at hn
        cases hn
      exact hleft.release holds (ok hfrom thrown)
  | took note =>
      refine srv.leave inv (p := .outside) trivial rfl rfl rfl (Finset.subset_insert _ _)
        (fun b hn => ?_) fun e he hmem => ?_
      · rw [note, Option.some.injEq] at hn
        exact hn ▸ Finset.mem_insert_self _ _
      · rcases Finset.mem_insert.mp hmem with heq | hmem
        · exact srv.filed.not_pledged he (.inr ⟨_, heq ▸ note⟩)
        · exact srv.filed.apart e he hmem
  | withdrew hfrom thrown => exact srv.withdraw hfrom thrown inv

variable (currentTask) in
/-- In a run that loses no notification, no task is left suspended once a
token is free and no wake-up is queued, and the event of every suspended wait
is in the queue under its borrower. -/
theorem free_token_strands_nobody {value : Number} {start : State τ β}
    (hcreate : create τ β value = .ok start)
    (run : (machine currentTask).Reachable (KeepsNotifications currentTask) start s)
    (quiet : s.loop.Quiescent) :
    (s.totalTokens.covers (s.borrowers.card + 1) → ∀ t, s.loop.point t = .outside) ∧
      ∀ t, s.loop.point t ≠ .outside →
        ∃ b f, s.loop.point t = .waiting b f ∧ (b, f) ∈ s.waitQueue.entries := by
  have hstart : Served start := by
    have inv := Inv.created hcreate
    obtain ⟨total, rfl⟩ := create_ok hcreate
    refine ⟨⟨inv, ?_, ?_, by simp⟩, by simp⟩
    · intro t b f ht
      simp at ht
    · intro t u b f g ht
      simp at ht
  have srv : Served s := run.invariant (I := Served) hstart
    fun _ _ _ _ hi ok h => hi.effect ok (effect_of_step h)
  have hpending : ∀ t f, s.loop.waits t = .future f → s.loop.future f = .pending := by
    intro t f hw
    simpa [Loop.wakeUpQueued, hw] using quiet t
  have suspended : ∀ t, s.loop.point t ≠ .outside →
      ∃ b f, s.loop.point t = .waiting b f ∧ (b, f) ∈ s.waitQueue.entries := by
    intro t ht
    have hq := quiet t
    cases hp : s.loop.point t with
    | outside => exact absurd hp ht
    | checkpointIfCancelled => simp [Loop.wakeUpQueued, Loop.waits, hp, Coroutine.waits] at hq
    | shieldedCheckpoint => simp [Loop.wakeUpQueued, Loop.waits, hp, Coroutine.waits] at hq
    | waiting b f =>
        exact ⟨b, f, rfl, srv.filed.registered t b f hp (hpending t f (waits_waiting hp))⟩
  refine ⟨fun hfree t => ?_, suspended⟩
  by_contra ht
  obtain ⟨b, f, -, hmem⟩ := suspended t ht
  obtain ⟨n, htotal, P, hP, hn⟩ := srv.backed (List.ne_nil_of_mem hmem)
  -- nobody is notified in a quiescent state, so the pledges are tokens held
  have hsub : P ⊆ s.borrowers := by
    intro c hc
    rcases hP c hc with hb | ⟨u, hu⟩
    · exact hb
    · obtain ⟨g, hw, hfin, -⟩ := notified_eq_some.mp hu
      simp [hpending u g (waits_waiting hw)] at hfin
  have hcard := Finset.card_le_card hsub
  rw [htotal, Bound.covers_count] at hfree
  omega

section Decide
variable [Fintype τ] (currentTask : τ → β) (s : State τ β)

instance (b : β) : Decidable (Blocks s b) := inferInstanceAs (Decidable (_ ∧ _))

instance (b : β) : Decidable (NoWaitFor s b) :=
  @Fintype.decidableForallFintype _ _ (fun t => by cases s.loop.point t <;> infer_instance) _

instance (n : Nat) : Decidable (PopsLive s n) := inferInstanceAs (Decidable (_ → ∀ e ∈ _, _))

instance (b : β) : Decidable (PassesOn s b) := inferInstanceAs (Decidable (_ → _ → _))

instance (a : Action τ β) : Decidable (KeepsNotifications currentTask s a) :=
  match a with
  | .acquireOnBehalfOf _ b scopeCancelled =>
      inferInstanceAs (Decidable (scopeCancelled = false → Blocks s b → NoWaitFor s b))
  | .acquireOnBehalfOfNowait _ => .isTrue trivial
  | .releaseOnBehalfOf b => inferInstanceAs (Decidable (PassesOn s b))
  | .setTotalTokens value =>
      inferInstanceAs (Decidable (∀ total, newTotal s value = .ok total → PopsLive s _))
  | .cancel t => inferInstanceAs (Decidable (InFlight s t → s.waitQueue.entries = []))
  | .resume t =>
      inferInstanceAs (Decidable (s.loop.point t = .shieldedCheckpoint → _ → PassesOn s _))

end Decide

/-- Task 1 waits, is cancelled and resumes; then task 0 releases its token and
task 2 waits for nothing. -/
def cancelledWaiter : State (Fin 3) (Fin 3) :=
  ((machine id).exec (KeepsNotifications id) (oneToken (Fin 3) (Fin 3))
    [.acquireOnBehalfOfNowait 0, .acquireOnBehalfOf 1 1 false, .acquireOnBehalfOf 2 2 false,
      .cancel 1, .resume 1, .releaseOnBehalfOf 0, .resume 2, .releaseOnBehalfOf 2]).get
    (by decide)

theorem free_token_strands_nobody_cancelled :
    cancelledWaiter.loop.Quiescent ∧ cancelledWaiter.borrowers = ∅ ∧
      ∀ t, cancelledWaiter.loop.point t = .outside := by
  have run : (machine id).Reachable (KeepsNotifications id) (oneToken (Fin 3) (Fin 3))
      cancelledWaiter := Machine.exec_get_reachable _ _ _
  have created : create (Fin 3) (Fin 3) (.int 1) = .ok (oneToken (Fin 3) (Fin 3)) := rfl
  exact ⟨by decide, by decide, (free_token_strands_nobody id created run
    (by decide)).1 (by decide)⟩

/-- Task 1 is cancelled while it waits, and the release of task 0 notifies it
instead of task 2. -/
def strandedWaiter : State (Fin 3) (Fin 3) :=
  ((machine id).exec Machine.anyStep (oneToken (Fin 3) (Fin 3))
    [.acquireOnBehalfOfNowait 0, .acquireOnBehalfOf 1 1 false, .acquireOnBehalfOf 2 2 false,
      .cancel 1, .releaseOnBehalfOf 0, .resume 1]).get (by decide)

/-- A reachable state in which the token is free, no wake-up is queued and a
task is suspended in `acquire_on_behalf_of()`. -/
theorem free_token_strands_waiter :
    create (Fin 3) (Fin 3) (.int 1) = .ok (oneToken (Fin 3) (Fin 3)) ∧
      (machine id).Reachable Machine.anyStep (oneToken (Fin 3) (Fin 3)) strandedWaiter ∧
      strandedWaiter.loop.Quiescent ∧
      strandedWaiter.totalTokens.covers (strandedWaiter.borrowers.card + 1) ∧
      strandedWaiter.loop.point 2 = .waiting 2 1 :=
  ⟨rfl, Machine.exec_get_reachable _ _ _, by decide, by decide, by decide⟩

end Anyio.CapacityLimiter
