import Anyio.WorkerThread.Exclusive

/-!
# When worker threads are lost

`_report_result()` is the only way back into the deque. The loop of `run()`
leaves it out for an item whose future was cancelled before the thread took
it, and in a closed event loop; in the runs in which no thread does this, a
live worker that is not stopping has a place in the pool.
-/

namespace Anyio.WorkerThread

open Library

/-- A thread at this point leaves out `_report_result()`: the future of the item it took is
cancelled, or the event loop is closed. -/
def Point.LeavesOut (s : State) : Point → Prop
  | .checking item => s.future item = .cancelled
  | .finishing _ => s.closed = true
  | _ => False

instance (s : State) : (p : Point) → Decidable (p.LeavesOut s)
  | .checking item => inferInstanceAs (Decidable (s.future item = .cancelled))
  | .finishing _ => inferInstanceAs (Decidable (s.closed = true))
  | .getting => .isFalse id
  | .running _ => .isFalse id
  | .reporting _ => .isFalse id
  | .ended => .isFalse id

/-- No thread leaves out `_report_result()`. -/
def Reports (s : State) : Action → Prop
  | .thread w => ¬(s.worker w).point.LeavesOut s
  | _ => True

instance (s : State) : (a : Action) → Decidable (Reports s a)
  | .thread w => inferInstanceAs (Decidable (¬(s.worker w).point.LeavesOut s))
  | .call _ => .isTrue trivial
  | .cancel _ => .isTrue trivial
  | .report => .isTrue trivial
  | .rootEnds _ => .isTrue trivial
  | .runStop _ => .isTrue trivial
  | .pass _ => .isTrue trivial
  | .close => .isTrue trivial

/-- A worker of the set that is not stopping and whose thread runs. -/
def Live (s : State) (w : WorkerId) : Prop :=
  w ∈ s.workers ∧ (s.worker w).stopping = false ∧ (s.worker w).point ≠ .ended

/-- Every live worker is idle or carries an item. -/
def Kept (s : State) : Prop :=
  ∀ w, Live s w → 1 ≤ s.idleWorkers.count w + (s.carried w).length

variable {s s' : State} {h : History} {a : Action} {r : Reply} {w u : WorkerId} {item : ItemId}

/-- Workers that a step leaves as they were keep their places. -/
theorem Kept.same (kept : Kept s) (hlive : Live s' u) (hmem : u ∈ s'.workers → u ∈ s.workers)
    (hworker : s'.worker u = s.worker u)
    (hcount : s'.idleWorkers.count u = s.idleWorkers.count u)
    (hreports : reportedBy u s'.reports = reportedBy u s.reports) :
    1 ≤ s'.idleWorkers.count u + (s'.carried u).length := by
  obtain ⟨hu, hstop, hpoint⟩ := hlive
  rw [hworker] at hstop hpoint
  rw [hcount, State.carried, hworker, hreports]
  exact kept u ⟨hmem hu, hstop, hpoint⟩

/-- A step of a thread that passes its item on. -/
theorem Kept.move (kept : Kept s) {f : Worker → Worker}
    (hstopping : (f (s.worker w)).stopping = (s.worker w).stopping)
    (hpoint : (s.worker w).point ≠ .ended)
    (hitems : (f (s.worker w)).items.length = (s.worker w).items.length) :
    Kept (modify s w f) := by
  intro u hlive
  by_cases hu : u = w
  · subst hu
    obtain ⟨hmem, hstop, -⟩ := hlive
    rw [modify_self, hstopping] at hstop
    have hkept := kept u ⟨hmem, hstop, hpoint⟩
    simp only [State.carried, List.length_append, modify_self, hitems] at hkept ⊢
    exact hkept
  · exact kept.same hlive id (modify_of_ne s hu f) rfl rfl

/-- A thread that ends is not live. -/
theorem Kept.ends (kept : Kept s) {f : Worker → Worker} (hf : (f (s.worker w)).point = .ended) :
    Kept (modify s w f) := by
  intro u hlive
  by_cases hu : u = w
  · subst hu
    obtain ⟨-, -, hpoint⟩ := hlive
    rw [modify_self] at hpoint
    exact absurd hf hpoint
  · exact kept.same hlive id (modify_of_ne s hu f) rfl rfl

/-- A thread that leaves out no `_report_result()` passes its item on. -/
theorem Kept.thread (kept : Kept s) (works : Works s w s' r)
    (hreports : ¬(s.worker w).point.LeavesOut s) :
    Kept s' := by
  cases works with
  | shutsDown => exact kept.ends rfl
  | takes hp hq =>
      apply kept.move rfl (by simp [hp])
      simp [Worker.items, hp, hq, Point.item]
  | skips hp hc => exact absurd (by rw [hp]; exact hc) hreports
  | runs hp => exact kept.move rfl (by simp [hp]) (by simp [Worker.items, hp, Point.item])
  | returns hp => exact kept.move rfl (by simp [hp]) (by simp [Worker.items, hp, Point.item])
  | drops hp hc => exact absurd (by rw [hp]; exact hc) hreports
  | finishes hp => exact kept.move rfl (by simp [hp]) (by simp [Worker.items, hp, Point.item])
  | fails => exact kept.ends rfl
  | @reports item hp =>
      intro u hlive
      by_cases hu : u = w
      · have hmem : item ∈ reportedBy u (s.reports ++ [(w, item)]) := by
          simp [reportedBy, hu]
        have hpos := List.length_pos_of_mem hmem
        change 1 ≤ _ + (_ ++ reportedBy u (s.reports ++ [(w, item)])).length
        rw [List.length_append]
        omega
      · apply kept.same hlive id (Function.update_of_ne hu ..) rfl
        simp [reportedBy, List.filter_append, Ne.symm hu]

/-- A call gives the worker that it popped, or the new one, an item. -/
theorem Kept.call (kept : Kept s) {t : State} (prepared : Prepared s t w) :
    Kept (afterGive t w) := by
  intro u hlive
  by_cases hu : u = w
  · subst hu
    have hmem : t.nextItem ∈ ((afterGive t u).worker u).items := by
      rw [afterGive_worker_self]
      simp [Worker.items, List.reduceOption_append]
    have hpos := List.length_pos_of_mem hmem
    rw [State.carried, List.length_append]
    omega
  · have hworker := afterGive_worker_of_ne t hu
    obtain ⟨hmem, hsame, hcount⟩ := prepared.kept u hlive.1 hu (hworker ▸ hlive.2.1)
    apply kept.same hlive (fun _ => hmem) (hworker.trans hsame) hcount
    change reportedBy u t.reports = _
    rw [prepared.reports]

theorem recycle_workers (s : State) (w : WorkerId) : (recycle s w).workers = s.workers := by
  rw [recycle]
  split_ifs <;> rfl

/-- The worker of a callback that is not stopping is idle again. -/
theorem mem_idleWorkers_recycle (hstop : (s.worker w).stopping = false) :
    w ∈ (recycle s w).idleWorkers := by
  rw [recycle_idleWorkers, hstop]
  exact List.mem_append_right _ (List.mem_singleton_self w)

theorem Kept.recycle (kept : Kept s) {rest : List (WorkerId × ItemId)}
    (hr : s.reports = (w, item) :: rest) : Kept (recycle (s.taking rest) w) := by
  intro u hlive
  by_cases hu : u = w
  · subst hu
    have hstop := hlive.2.1
    rw [recycle_worker_self] at hstop
    have hpos := List.count_pos_iff.mpr (mem_idleWorkers_recycle (s := s.taking rest) hstop)
    omega
  · refine kept.same hlive (fun hmem => ?_) (recycle_worker_of_ne _ hu) ?_ ?_
    · rwa [recycle_workers] at hmem
    · rw [recycle_idleWorkers]
      split_ifs
      · rfl
      · rw [List.count_append, List.count_eq_zero.mpr fun h => hu (List.mem_singleton.mp h),
          Nat.add_zero]
    · rw [recycle_reports, hr, reportedBy_cons_of_ne hu]

/-- The rest of `_report_result()` is about the future. -/
theorem Kept.report (kept : Kept s) {rest : List (WorkerId × ItemId)}
    (hr : s.reports = (w, item) :: rest) (hs : reportResult (s.taking rest) w item = (s', r)) :
    Kept s' ∧ ((s.worker w).stopping = false → w ∈ s'.idleWorkers) := by
  have hkept := kept.recycle hr
  have hidle : (s.worker w).stopping = false →
      w ∈ (WorkerThread.recycle (s.taking rest) w).idleWorkers :=
    mem_idleWorkers_recycle (s := s.taking rest)
  rw [reportResult] at hs
  cases hf : (WorkerThread.recycle (s.taking rest) w).future item <;>
    · simp only [hf] at hs
      cases hs
      exact ⟨hkept, hidle⟩

/-- Stopped workers are not live, and the others keep their places. -/
theorem Kept.stops (kept : Kept s) (stops : Stops s s') : Kept s' := by
  intro u hlive
  obtain ⟨hworker, hcount⟩ := stops.kept u hlive.2.1
  exact kept.same hlive (stops.workers u) hworker hcount (by rw [stops.reports])

theorem Kept.step (kept : Kept s) (pool : Pool s) (hreports : Reports s a)
    (hs : step s a = some (s', r)) : Kept s' := by
  cases a with
  | call root =>
      obtain ⟨-, hs⟩ := Option.ite_none_left_eq_some.mp hs
      obtain ⟨t, w, hcall, prepared⟩ := pool.call root
      rw [hcall] at hs
      cases hs
      exact kept.call prepared
  | cancel item =>
      obtain ⟨-, hs⟩ := Option.ite_none_right_eq_some.mp hs
      cases hs
      exact kept
  | thread w => exact kept.thread (thread_works hs) hreports
  | report =>
      obtain ⟨-, hs⟩ := Option.ite_none_left_eq_some.mp hs
      cases hr : s.reports with
      | nil => simp [hr] at hs
      | cons head rest =>
          obtain ⟨w, item⟩ := head
          simp only [hr] at hs
          exact (kept.report hr (Option.some.inj hs)).1
  | rootEnds root =>
      obtain ⟨-, hs⟩ := Option.ite_none_right_eq_some.mp hs
      cases hs
      rintro u ⟨hmem, hstop, hpoint⟩
      have hkept := kept u
      simp only [Live, State.carried] at hkept hstop hpoint ⊢
      split_ifs at hstop hpoint ⊢ <;> exact hkept ⟨hmem, hstop, hpoint⟩
  | runStop w =>
      obtain ⟨⟨-, hw⟩, hs⟩ := Option.ite_none_right_eq_some.mp hs
      simp only [(pool.runStop hw).2] at hs
      cases hs
      exact kept.stops (.afterStop rfl rfl fun _ _ => rfl)
  | pass seconds =>
      obtain ⟨-, hs⟩ := Option.ite_none_right_eq_some.mp hs
      cases hs
      exact kept
  | close =>
      obtain ⟨-, hs⟩ := Option.ite_none_left_eq_some.mp hs
      cases hs
      exact kept

theorem kept_of_run (run : machine.Reachable Reports initial s) :
    Pool s ∧ (∃ h, Items s h) ∧ Kept s := by
  refine run.invariant (I := fun s => Pool s ∧ (∃ h, Items s h) ∧ Kept s)
    ⟨pool_initial, ⟨.empty, items_initial⟩, fun w hw => nomatch hw.1⟩ ?_
  rintro s a s' r ⟨pool, ⟨h, items⟩, kept⟩ hreports hs
  obtain ⟨hpool, hitems, -⟩ := items.step pool hs
  exact ⟨hpool, ⟨_, hitems⟩, kept.step pool hreports hs⟩

theorem exists_mem_queue {v : Worker} (hv : v.queue.reduceOption ≠ []) :
    ∃ item, some item ∈ v.queue := by
  obtain ⟨item, hitem⟩ := List.exists_mem_of_ne_nil _ hv
  exact ⟨item, List.reduceOption_mem_iff.mp hitem⟩

theorem exists_mem_reports {reports : List (WorkerId × ItemId)} (hr : reportedBy w reports ≠ []) :
    ∃ item, (w, item) ∈ reports := by
  obtain ⟨item, hitem⟩ := List.exists_mem_of_ne_nil _ hr
  obtain ⟨⟨u, i⟩, hmem, -⟩ := List.mem_map.mp hitem
  obtain ⟨hmem, hu⟩ := List.mem_filter.mp hmem
  exact ⟨i, of_decide_eq_true hu ▸ hmem⟩

/-- In every run in which no thread leaves out `_report_result()`, a live worker that is not
stopping is idle exactly once, or has an item in its queue, in the hands of its thread or in a
callback; and the callback makes it idle. -/
theorem worker_kept (run : machine.Reachable Reports initial s) :
    (∀ w, Live s w → s.idleWorkers.count w = 1 ∨ (∃ item, some item ∈ (s.worker w).queue) ∨
      (∃ item, (s.worker w).point.item = some item) ∨ ∃ item, (w, item) ∈ s.reports) ∧
      ∀ w item rest s' r, s.reports = (w, item) :: rest → Live s w →
        step s .report = some (s', r) → s'.idleWorkers.count w = 1 := by
  obtain ⟨pool, ⟨h, items⟩, kept⟩ := kept_of_run run
  refine ⟨fun w hlive => ?_, fun w item rest s' r hr hlive hs => ?_⟩
  · have hkept := kept w hlive
    have htoken := pool.token w
    by_cases hidle : s.idleWorkers.count w = 1
    · exact .inl hidle
    right
    by_cases hqueue : (s.worker w).queue.reduceOption = []
    swap
    · exact .inl (exists_mem_queue hqueue)
    right
    cases hpoint : (s.worker w).point.item with
    | some item => exact .inl ⟨item, rfl⟩
    | none =>
        refine .inr (exists_mem_reports fun hreports => ?_)
        rw [State.carried, Worker.items, hqueue, hpoint, hreports] at hkept htoken
        simp only [Option.toList_none, List.append_nil, List.length_nil] at hkept htoken
        omega
  · have hpool := (items.step pool hs).1
    obtain ⟨-, hs⟩ := Option.ite_none_left_eq_some.mp hs
    simp only [hr] at hs
    have hmem := (kept.report hr (Option.some.inj hs)).2 hlive.2.1
    have hpos := List.count_pos_iff.mpr hmem
    have hle := count_idle_le hpool w
    omega

/-- The first item of a worker that is abandoned before the thread has looked at it. -/
def abandoned : List Action :=
  [.call 0, .cancel 0, .thread 0, .thread 0]

theorem abandoned_run : (machine.exec Machine.anyStep initial abandoned).isSome := by
  decide +kernel

/-- The worker of an abandoned item is live, and has no place in the pool. -/
theorem worker_lost :
    let s := (machine.exec Machine.anyStep initial abandoned).get abandoned_run
    machine.Reachable Machine.anyStep initial s ∧ Live s 0 ∧ (s.worker 0).point = .getting ∧
      ¬(s.idleWorkers.count 0 = 1 ∨ (∃ item, some item ∈ (s.worker 0).queue) ∨
        (∃ item, (s.worker 0).point.item = some item) ∨ ∃ item, (0, item) ∈ s.reports) := by
  intro s
  have hqueue : (s.worker 0).queue = [] := by decide +kernel
  have hpoint : (s.worker 0).point = .getting := by decide +kernel
  have hreports : s.reports = [] := by decide +kernel
  have hidle : s.idleWorkers = [] := by decide +kernel
  have hlive : Live s 0 := ⟨by decide +kernel, by decide +kernel, by rw [hpoint]; decide⟩
  refine ⟨Machine.exec_get_reachable initial abandoned abandoned_run, hlive, hpoint, ?_⟩
  rw [hqueue, hpoint, hreports, hidle]
  simp [Point.item]

/-- An item that is abandoned while its function runs. -/
def abandonedLate : List Action :=
  [.call 0, .thread 0, .thread 0, .cancel 0, .thread 0, .thread 0, .thread 0]

theorem abandonedLate_run : (machine.exec Reports initial abandonedLate).isSome := by
  decide +kernel

theorem worker_kept_abandonedLate :
    let s := (machine.exec Reports initial abandonedLate).get abandonedLate_run
    s.future 0 = .cancelled ∧ Live s 0 ∧
      ∀ s' r, step s .report = some (s', r) → s'.idleWorkers.count 0 = 1 := by
  intro s
  have hreports : s.reports = [(0, 0)] := by decide +kernel
  have hpoint : (s.worker 0).point = .getting := by decide +kernel
  have hlive : Live s 0 := ⟨by decide +kernel, by decide +kernel, by rw [hpoint]; decide⟩
  have kept := worker_kept (Machine.exec_get_reachable initial abandonedLate abandonedLate_run)
  exact ⟨by decide +kernel, hlive, fun s' r => kept.2 0 0 [] s' r hreports hlive⟩

end Anyio.WorkerThread
