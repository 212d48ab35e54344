import Anyio.ToThread.Tokens
import Anyio.WorkerThread.Exclusive

/-!
# No more worker threads at work than tokens

A worker thread that has a work item works for a call that holds a token, as
long as no call is cancelled while it waits for its result: that is what the
shielded scope of `run_sync_in_worker_thread()` is for. So the number of
threads at work is bounded by the number of tokens that are out, and by
`total_tokens` wherever the limiter itself keeps to it.
-/

namespace Anyio.ToThread

open Asyncio Library

variable {τ β : Type*} {currentTask : τ → β} {s s' : State τ β} {t u : τ} {b : β}
  {root : WorkerThread.RootId} {o : Answer}

/-- Every unfinished work item is awaited by its call. -/
structure Manned (s : State τ β) : Prop where
  pool : WorkerThread.Pool s.pool
  items : ∃ h, WorkerThread.Items s.pool h
  awaited : ∀ i < s.pool.nextItem, s.pool.future i ≠ .finished → ∃ t, s.phase t = .waiting i
  uncancelled : ∀ i, s.pool.future i ≠ .cancelled

section Pool
variable {p p' : WorkerThread.State} {r : WorkerThread.Reply}

/-- A future changes by a cancellation, by a new call or by its result. -/
theorem future_of_event {event : WorkerThread.Action} (hevent : spontaneous event = true)
    (hpool : WorkerThread.Pool p) (hs : WorkerThread.step p event = some (p', r)) :
    p'.nextItem = p.nextItem ∧
      ∀ i, p'.future i = p.future i ∨ p.future i = .pending ∧ p'.future i = .finished := by
  cases event with
  | call root => simp [spontaneous] at hevent
  | cancel item => simp [spontaneous] at hevent
  | thread w =>
      cases WorkerThread.thread_works hs <;> exact ⟨rfl, fun _ => .inl rfl⟩
  | report =>
      obtain ⟨-, hs⟩ := Option.ite_none_left_eq_some.mp hs
      cases hr : p.reports with
      | nil => simp [hr] at hs
      | cons head rest =>
          obtain ⟨w, item⟩ := head
          simp only [hr, Option.some.injEq, WorkerThread.reportResult,
            WorkerThread.recycle_future] at hs
          cases hf : p.future item with
          | pending =>
              simp only [hf] at hs
              cases hs
              refine ⟨WorkerThread.recycle_nextItem _ _, fun i => ?_⟩
              by_cases hi : i = item
              · subst hi
                exact .inr ⟨hf, Function.update_self ..⟩
              · simp [hi]
          | finished =>
              simp only [hf] at hs
              cases hs
              simp
          | cancelled =>
              simp only [hf] at hs
              cases hs
              simp
  | rootEnds root =>
      obtain ⟨-, hs⟩ := Option.ite_none_right_eq_some.mp hs
      cases hs
      exact ⟨rfl, fun _ => .inl rfl⟩
  | runStop w =>
      obtain ⟨⟨-, hw⟩, hs⟩ := Option.ite_none_right_eq_some.mp hs
      obtain ⟨-, hstop⟩ := hpool.runStop hw
      simp only [hstop] at hs
      cases hs
      exact ⟨rfl, fun _ => .inl rfl⟩
  | pass seconds =>
      obtain ⟨-, hs⟩ := Option.ite_none_right_eq_some.mp hs
      cases hs
      exact ⟨rfl, fun _ => .inl rfl⟩
  | close =>
      obtain ⟨-, hs⟩ := Option.ite_none_left_eq_some.mp hs
      cases hs
      exact ⟨rfl, fun _ => .inl rfl⟩

end Pool

/-- What a step does to the pool and to the phases of the calls. -/
inductive Work (s s' : State τ β) [DecidableEq τ] : Action τ β → Prop
  | kept {a : Action τ β} (pool : s'.pool = s.pool) (phase : s'.phase = s.phase) : Work s s' a
  | moved {a : Action τ β} {t : τ} {p : Phase} (pool : s'.pool = s.pool)
      (phase : s'.phase = Function.update s.phase t p)
      (done : ∀ i, s.phase t = .waiting i → s.pool.future i ≠ .pending) : Work s s' a
  | called {a : Action τ β} {t : τ} {root : WorkerThread.RootId} {w : WorkerThread.WorkerId}
      {item : WorkerThread.ItemId}
      (call : WorkerThread.call s.pool root = (s'.pool, .gave w item))
      (phase : s'.phase = Function.update s.phase t (.waiting item))
      (free : ∀ i, s.phase t ≠ .waiting i) : Work s s' a
  | cancelled {t : τ} (waiting : (s.phase t).isWaiting = true) : Work s s' (.cancel t)
  | worked {a : Action τ β} {event : WorkerThread.Action} {r : WorkerThread.Reply}
      (hevent : spontaneous event = true)
      (event : WorkerThread.step s.pool event = some (s'.pool, r))
      (phase : s'.phase = s.phase) : Work s s' a

variable [DecidableEq τ] [DecidableEq β]

variable (currentTask) in
/-- The step of the limiter of which a step consists. -/
def useOf (s : State τ β) : Action τ β → Option (CapacityLimiter.Action τ β)
  | .runSync t _ scopeCancelled => some (.acquireOnBehalfOf t (currentTask t) scopeCancelled)
  | .cancel t => if (s.phase t).isWaiting then none else some (.cancel t)
  | .resume t =>
      if (s.phase t).isWaiting then some (.releaseOnBehalfOf (currentTask t))
      else some (.resume t)
  | .limiter use => some use
  | .pool _ => none

variable (currentTask) in
/-- At most one step of the limiter is made, and nothing else is done to it. -/
def Uses (s s' : State τ β) (a : Action τ β) : Prop :=
  s'.limiter = s.limiter ∨
    ∃ use ∈ useOf currentTask s a, CapacityLimiter.Effect currentTask s.limiter use s'.limiter

theorem leave_pool : (leave currentTask s t o).1.pool = s.pool ∧
    (leave currentTask s t o).1.phase = Function.update s.phase t .outside := by
  rw [leave]
  split <;> exact ⟨rfl, rfl⟩

variable (currentTask s t o) in
theorem leave_limiter : (leave currentTask s t o).1.limiter = s.limiter ∨
    CapacityLimiter.Effect currentTask s.limiter (.releaseOnBehalfOf (currentTask t))
      (leave currentTask s t o).1.limiter := by
  rw [leave, CapacityLimiter.releaseOnBehalfOf]
  by_cases hb : currentTask t ∈ s.limiter.borrowers
  · rw [if_pos hb]
    exact .inr (.released hb)
  · rw [if_neg hb]
    exact .inl rfl

variable (currentTask) in
/-- No worker refuses its item, so a call with a token goes on to wait. -/
theorem call_eq (pool : WorkerThread.Pool s.pool) (root : WorkerThread.RootId) :
    ∃ p w item, WorkerThread.call s.pool root = (p, .gave w item) ∧
      call currentTask s t root =
        (setPhase { s with pool := p } t (.waiting item), .suspended (.waiting item)) := by
  obtain ⟨p, w, hcall, -⟩ := pool.call root
  refine ⟨_, w, _, hcall, ?_⟩
  rw [call, hcall]

theorem work_of_enter {a : Action τ β}
    {r : CapacityLimiter.State τ β × Outcome (CapacityLimiter.Point β) Unit}
    (pool : WorkerThread.Pool s.pool) (free : ∀ i, s.phase t ≠ .waiting i)
    (hs : enter currentTask s t root r = (s', o)) : Work s s' a ∧ s'.limiter = r.1 := by
  obtain ⟨l, r⟩ := r
  cases r with
  | returned x =>
      obtain ⟨p, w, item, hcall, heq⟩ :=
        call_eq currentTask (s := { s with limiter := l }) (t := t) pool root
      rw [enter, heq] at hs
      cases hs
      exact ⟨.called hcall rfl free, rfl⟩
  | raised e =>
      cases hs
      exact ⟨.moved rfl rfl fun i hi => absurd hi (free i), rfl⟩
  | suspended p =>
      cases hs
      exact ⟨.moved rfl rfl fun i hi => absurd hi (free i), rfl⟩

theorem work_of_resume (pool : WorkerThread.Pool s.pool)
    (hs : resume currentTask s t = some (s', o)) :
    Work s s' (.resume t) ∧ Uses currentTask s s' (.resume t) := by
  rw [resume] at hs
  cases hphase : s.phase t with
  | outside => simp [hphase] at hs
  | entering root =>
      simp only [hphase, Option.ite_none_right_eq_some, Option.some.injEq] at hs
      obtain ⟨hwake, hs⟩ := hs
      obtain ⟨work, hl⟩ := work_of_enter pool (by simp [hphase]) hs
      refine ⟨work, .inr ⟨.resume t, by simp [useOf, hphase, Phase.isWaiting], ?_⟩⟩
      rw [hl]
      exact CapacityLimiter.effect_of_resume currentTask hwake
  | waiting item =>
      have left : ∀ o', s' = (leave currentTask s t o').1 → s.pool.future item ≠ .pending →
          Work s s' (.resume t) ∧ Uses currentTask s s' (.resume t) := by
        rintro o' rfl hdone
        refine ⟨.moved leave_pool.1 leave_pool.2 ?_, ?_⟩
        · intro i hi
          rw [hphase] at hi
          cases hi
          exact hdone
        · rcases leave_limiter currentTask s t o' with h | h
          · exact .inl h
          · exact .inr ⟨_, by simp [useOf, hphase, Phase.isWaiting], h⟩
      cases hfuture : s.pool.future item with
      | pending => simp [hphase, hfuture] at hs
      | finished =>
          simp only [hphase, hfuture, Option.some.injEq] at hs
          exact left _ (by rw [hs]) (by simp [hfuture])
      | cancelled =>
          simp only [hphase, hfuture, Option.some.injEq] at hs
          exact left _ (by rw [hs]) (by simp [hfuture])

theorem work_of_cancel (hs : cancel currentTask s t = some (s', o)) :
    Work s s' (.cancel t) ∧ Uses currentTask s s' (.cancel t) := by
  rw [cancel] at hs
  cases hphase : s.phase t with
  | outside => simp [hphase] at hs
  | entering root =>
      simp only [hphase, Option.map_eq_some_iff] at hs
      obtain ⟨⟨l, r⟩, hl, hs⟩ := hs
      cases hs
      refine ⟨.kept rfl rfl, .inr ⟨.cancel t, by simp [useOf, hphase, Phase.isWaiting], ?_⟩⟩
      exact CapacityLimiter.effect_of_step hl
  | waiting item =>
      simp only [hphase, Option.map_eq_some_iff] at hs
      obtain ⟨_, -, hs⟩ := hs
      cases hs
      exact ⟨.cancelled (by rw [hphase]; rfl), .inl rfl⟩

theorem work_of_step {a : Action τ β} (pool : WorkerThread.Pool s.pool)
    (hs : step currentTask s a = some (s', o)) :
    Work s s' a ∧ Uses currentTask s s' a := by
  cases a with
  | runSync t root scopeCancelled =>
      simp only [step, Option.ite_none_right_eq_some, Option.some.injEq] at hs
      obtain ⟨⟨-, hphase, hpoint⟩, hs⟩ := hs
      obtain ⟨work, hl⟩ := work_of_enter pool (by simp [hphase]) hs
      refine ⟨work, .inr ⟨_, rfl, ?_⟩⟩
      rw [hl]
      exact CapacityLimiter.effect_of_acquire currentTask hpoint scopeCancelled
  | cancel t =>
      simp only [step, Option.ite_none_left_eq_some] at hs
      exact work_of_cancel hs.2
  | resume t =>
      simp only [step, Option.ite_none_left_eq_some] at hs
      exact work_of_resume pool hs.2
  | limiter use =>
      simp only [step, Option.ite_none_right_eq_some, Option.map_eq_some_iff] at hs
      obtain ⟨-, ⟨l, r⟩, hl, hs⟩ := hs
      cases hs
      exact ⟨.kept rfl rfl, .inr ⟨use, rfl, CapacityLimiter.effect_of_step hl⟩⟩
  | pool event =>
      simp only [step, Option.ite_none_right_eq_some, Option.map_eq_some_iff] at hs
      obtain ⟨hevent, ⟨p, r⟩, hp, hs⟩ := hs
      cases hs
      exact ⟨.worked hevent hp rfl, .inl rfl⟩

/-- No call is cancelled while it waits for its result, as in a shielded scope. -/
def Shielded (s : State τ β) : Action τ β → Prop
  | .cancel t => (s.phase t).isWaiting = false
  | _ => True

instance (s : State τ β) (a : Action τ β) : Decidable (Shielded s a) :=
  match a with
  | .cancel t => inferInstanceAs (Decidable ((s.phase t).isWaiting = false))
  | .runSync _ _ _ | .resume _ | .limiter _ | .pool _ => .isTrue trivial

instance [Fintype τ] (currentTask : τ → β) (s : State τ β) (a : Action τ β) :
    Decidable (Minds currentTask s a) :=
  match a with
  | .limiter (.releaseOnBehalfOf b) =>
      inferInstanceAs (Decidable (∀ t, currentTask t = b → s.phase t = .outside))
  | .limiter (.acquireOnBehalfOf _ _ _) | .limiter (.acquireOnBehalfOfNowait _)
  | .limiter (.setTotalTokens _) | .limiter (.cancel _) | .limiter (.resume _) => .isTrue trivial
  | .runSync _ _ _ | .cancel _ | .resume _ | .pool _ => .isTrue trivial

omit [DecidableEq β] in
theorem Manned.work {a : Action τ β} (manned : Manned s) (ok : Shielded s a)
    (work : Work s s' a) : Manned s' := by
  cases work with
  | kept pool phase =>
      constructor
      · exact pool ▸ manned.pool
      · exact pool ▸ manned.items
      · rw [pool, phase]
        exact manned.awaited
      · exact pool ▸ manned.uncancelled
  | @moved _ t p pool phase done =>
      constructor
      · exact pool ▸ manned.pool
      · exact pool ▸ manned.items
      · intro i hi hfuture
        rw [pool] at hi hfuture
        obtain ⟨u, hu⟩ := manned.awaited i hi hfuture
        have hut : u ≠ t := by
          rintro rfl
          cases h : s.pool.future i with
          | pending => exact done i hu h
          | finished => exact hfuture h
          | cancelled => exact manned.uncancelled i h
        exact ⟨u, by rw [phase, Function.update_of_ne hut, hu]⟩
      · exact pool ▸ manned.uncancelled
  | @called _ t root w item call phase free =>
      obtain ⟨h, items⟩ := manned.items
      obtain ⟨pool', items', -⟩ := items.call (a := .call root) manned.pool call
      obtain ⟨p, v, hcall, prepared⟩ := manned.pool.call root
      have hgave := hcall.symm.trans call
      simp only [Prod.mk.injEq, WorkerThread.Reply.gave.injEq] at hgave
      obtain ⟨hpool, -, hitem⟩ := hgave
      have hnext : s'.pool.nextItem = s.pool.nextItem + 1 := by
        rw [← hpool, ← prepared.nextItem]
        rfl
      have hfuture : s'.pool.future = Function.update s.pool.future item .pending := by
        rw [← hpool, ← prepared.future, ← hitem]
        rfl
      have hitem' : item = s.pool.nextItem := hitem.symm.trans prepared.nextItem
      refine ⟨pool', ⟨_, items'⟩, fun i hi hne => ?_, fun i => ?_⟩
      · by_cases hnew : i = item
        · subst hnew
          exact ⟨t, by rw [phase, Function.update_self]⟩
        · rw [hfuture, Function.update_of_ne hnew] at hne
          have hlt : i < s.pool.nextItem + 1 := hnext ▸ hi
          have hold := Nat.lt_of_le_of_ne (Nat.le_of_lt_succ hlt) (hitem' ▸ hnew)
          obtain ⟨u, hu⟩ := manned.awaited i hold hne
          have hut : u ≠ t := by
            rintro rfl
            exact free i hu
          exact ⟨u, by rw [phase, Function.update_of_ne hut, hu]⟩
      · rw [hfuture]
        by_cases hnew : i = item
        · simp [hnew]
        · rw [Function.update_of_ne hnew]
          exact manned.uncancelled i
  | cancelled waiting => exact absurd (waiting.symm.trans ok) Bool.true_eq_false.mp
  | @worked _ event r hevent hstep phase =>
      obtain ⟨h, items⟩ := manned.items
      obtain ⟨pool', items', -⟩ := items.step manned.pool hstep
      obtain ⟨hnext, hfuture⟩ := future_of_event hevent manned.pool hstep
      refine ⟨pool', ⟨_, items'⟩, fun i hi hne => ?_, fun i => ?_⟩
      · rw [phase]
        rcases hfuture i with hsame | ⟨-, hfin⟩
        · exact manned.awaited i (hnext ▸ hi) (hsame ▸ hne)
        · exact absurd hfin hne
      · rcases hfuture i with hsame | ⟨-, hfin⟩
        · rw [hsame]
          exact manned.uncancelled i
        · simp [hfin]

/-- The limiter keeps to its total in this step. -/
def Reserves (currentTask : τ → β) (s : State τ β) (a : Action τ β) : Prop :=
  ∀ use ∈ useOf currentTask s a,
    CapacityLimiter.Reserves s.limiter use ∧ CapacityLimiter.KeepsTotal s.limiter use

instance [Fintype τ] (currentTask : τ → β) (s : State τ β) (a : Action τ β) :
    Decidable (Reserves currentTask s a) :=
  inferInstanceAs (Decidable (∀ use ∈ useOf currentTask s a, _ ∧ _))

/-- The limiter and the borrowers it has, in a run that keeps to `total_tokens`. -/
structure Kept (l : CapacityLimiter.State τ β) : Prop where
  inv : CapacityLimiter.Inv l
  reserved : CapacityLimiter.Reserved l
  fits : l.totalTokens.covers l.borrowers.card

theorem Kept.uses {a : Action τ β} (kept : Kept s.limiter) (ok : Reserves currentTask s a)
    (uses : Uses currentTask s s' a) : Kept s'.limiter := by
  rcases uses with h | ⟨use, hmem, effect⟩
  · rwa [h]
  · obtain ⟨hreserves, hkeeps⟩ := ok use hmem
    exact ⟨kept.inv.effect effect, kept.reserved.effect kept.inv hreserves effect,
      kept.reserved.covers_card kept.fits hkeeps effect⟩

omit [DecidableEq τ] [DecidableEq β] in
theorem Kept.created {value : Number} {l : CapacityLimiter.State τ β}
    (hcreate : CapacityLimiter.create τ β value = .ok l) : Kept l := by
  refine ⟨.created hcreate, ?_, ?_⟩
  · obtain ⟨total, rfl⟩ := CapacityLimiter.create_ok hcreate
    rintro Q ⟨t, ht⟩ hmem
    have h := hmem t ht
    simp [CapacityLimiter.InFlight, CapacityLimiter.notified] at h
  · obtain ⟨total, rfl⟩ := CapacityLimiter.create_ok hcreate
    cases total <;> simp

omit [DecidableEq τ] [DecidableEq β] in
theorem manned_initial (l : CapacityLimiter.State τ β) : Manned (initial l) where
  pool := WorkerThread.pool_initial
  items := ⟨_, WorkerThread.items_initial⟩
  awaited i hi := absurd hi (Nat.not_lt_zero i)
  uncancelled _ := WorkerThread.FutureState.noConfusion

omit [DecidableEq τ] [DecidableEq β] in
/-- Workers with items work for different calls, and each of these has a token of its own. -/
theorem Manned.card_le (manned : Manned s) (injective : currentTask.Injective)
    (held : ∀ t, HeldAt currentTask s t) {W : Finset WorkerThread.WorkerId}
    (busy : ∀ w ∈ W, (s.pool.worker w).items ≠ []) : W.card ≤ s.limiter.borrowers.card := by
  classical
  obtain ⟨h, items⟩ := manned.items
  have call : ∀ w ∈ W, ∃ t i, i ∈ s.pool.carried w ∧ s.phase t = .waiting i := by
    intro w hw
    obtain ⟨i, hi⟩ := List.exists_mem_of_ne_nil _ (busy w hw)
    have hcarried : i ∈ s.pool.carried w := List.mem_append_left _ hi
    obtain ⟨t, ht⟩ := manned.awaited i (items.fresh w i hcarried) (items.unfinished w i hcarried)
    exact ⟨t, i, hcarried, ht⟩
  choose task item hcarried hphase using call
  calc W.card = W.attach.card := W.card_attach.symm
    _ ≤ s.limiter.borrowers.card := by
      apply Finset.card_le_card_of_injOn fun w => currentTask (task w.1 w.2)
      · intro w _
        apply (held _).token
        rw [Holds, hphase w.1 w.2]
        trivial
      · intro w _ u _ hsame
        have htask : task w.1 w.2 = task u.1 u.2 := injective hsame
        have hitem : item w.1 w.2 = item u.1 u.2 := by
          have hw := hphase w.1 w.2
          rw [htask, hphase u.1 u.2] at hw
          exact (Phase.waiting.inj hw).symm
        apply Subtype.ext
        apply items.apart w.1 u.1 (item w.1 w.2) (hcarried w.1 w.2)
        exact hitem ▸ hcarried u.1 u.2

variable (currentTask) in
/-- As long as the calls are shielded and nobody else releases their tokens, every worker thread
with a work item has a token of its own behind it. Where the limiter keeps to its total, so do
the worker threads. -/
theorem workers_bounded {value : Number} {l : CapacityLimiter.State τ β}
    (injective : currentTask.Injective) (hcreate : CapacityLimiter.create τ β value = .ok l) :
    (∀ s, (machine currentTask).Reachable
        (fun s a => Shielded s a ∧ Minds currentTask s a) (initial l) s →
      ∀ W : Finset WorkerThread.WorkerId, (∀ w ∈ W, (s.pool.worker w).items ≠ []) →
        W.card ≤ s.limiter.borrowers.card) ∧
    ∀ s, (machine currentTask).Reachable
        (fun s a => (Shielded s a ∧ Minds currentTask s a) ∧ Reserves currentTask s a)
        (initial l) s →
      ∀ W : Finset WorkerThread.WorkerId, (∀ w ∈ W, (s.pool.worker w).items ≠ []) →
        s.limiter.totalTokens.covers W.card := by
  have kept : ∀ (s : State τ β) a s' o, (∀ t, HeldAt currentTask s t) ∧ Manned s →
      Shielded s a ∧ Minds currentTask s a → step currentTask s a = some (s', o) →
      (∀ t, HeldAt currentTask s' t) ∧ Manned s' := by
    intro s a s' o inv ok hs
    exact ⟨heldAt_step injective inv.1 ok.2 hs,
      inv.2.work ok.1 (work_of_step inv.2.pool hs).1⟩
  constructor
  · intro s run W busy
    obtain ⟨held, manned⟩ := run.invariant
      (I := fun s => (∀ t, HeldAt currentTask s t) ∧ Manned s)
      ⟨heldAt_initial l, manned_initial l⟩ kept
    exact manned.card_le injective held busy
  · intro s run W busy
    obtain ⟨⟨held, manned⟩, limiter⟩ := run.invariant
      (I := fun s => ((∀ t, HeldAt currentTask s t) ∧ Manned s) ∧ Kept s.limiter)
      ⟨⟨heldAt_initial l, manned_initial l⟩, .created hcreate⟩
      fun s a s' o inv ok hs => ⟨kept s a s' o inv.1 ok.1 hs,
        inv.2.uses ok.2 (work_of_step inv.1.2.pool hs).2⟩
    exact limiter.fits.mono (manned.card_le injective held busy)

def twoTokens : CapacityLimiter.State (Fin 3) (Fin 3) :=
  { CapacityLimiter.oneToken (Fin 3) (Fin 3) with totalTokens := .count 2 }

/-- Three calls under two tokens: two of them are in worker threads, and one is in line. -/
def threeCalls : State (Fin 3) (Fin 3) :=
  ((machine id).exec
    (fun s a => (Shielded s a ∧ Minds id s a) ∧ Reserves id s a) (initial twoTokens)
    [.runSync 0 0 false, .runSync 1 0 false, .runSync 2 0 false, .resume 0, .resume 1,
      .pool (.thread 0), .pool (.thread 0)]).get (by decide +kernel)

theorem workers_bounded_threeCalls :
    (threeCalls.pool.worker 0).items = [0] ∧ (threeCalls.pool.worker 1).items = [1] ∧
      threeCalls.phase 2 = .entering 0 ∧ threeCalls.limiter.totalTokens.covers 2 := by
  have run : (machine id).Reachable
      (fun s a => (Shielded s a ∧ Minds id s a) ∧ Reserves id s a) (initial twoTokens)
      threeCalls := Machine.exec_get_reachable _ _ _
  have created : CapacityLimiter.create (Fin 3) (Fin 3) (.int 2) = .ok twoTokens := rfl
  have h0 : (threeCalls.pool.worker 0).items = [0] := by decide +kernel
  have h1 : (threeCalls.pool.worker 1).items = [1] := by decide +kernel
  refine ⟨h0, h1, by decide +kernel, ?_⟩
  have bounded := (workers_bounded id Function.injective_id created).2 threeCalls run {0, 1}
  apply bounded
  intro w hw
  rcases Finset.mem_insert.mp hw with rfl | hw
  · simp [h0]
  · rw [Finset.mem_singleton.mp hw]
    simp [h1]

end Anyio.ToThread
