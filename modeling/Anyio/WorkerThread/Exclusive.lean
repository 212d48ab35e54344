import Anyio.WorkerThread.Pool
import Mathlib.Data.List.Nodup

/-!
# Worker threads do one thing at a time

No worker has two items, no item is handed to a worker that was stopped, no
queue overflows, and every function runs and every future is completed at most
once, in every run.
-/

namespace Anyio.WorkerThread

open Library

/-- The items whose functions were run and those whose futures were completed, in order. -/
structure History where
  ran : List ItemId
  completed : List ItemId
  deriving DecidableEq, Repr

def History.empty : History := ⟨[], []⟩

def record (h : History) (_ : State) (_ : Action) (r : Reply) : History :=
  match r with
  | .ran item => { h with ran := h.ran ++ [item] }
  | .completed item => { h with completed := h.completed ++ [item] }
  | _ => h

abbrev recorded : Machine (State × History) Action Reply := machine.withHistory record

/-- The items of a worker whose functions have not been started. -/
def Worker.waiting (v : Worker) : List ItemId :=
  v.queue.reduceOption ++
    match v.point with
    | .checking item => [item]
    | _ => []

/-- The steps of a thread. -/
inductive Works (s : State) (w : WorkerId) : State → Reply → Prop
  | shutsDown {rest} (hp : (s.worker w).point = .getting)
      (hq : (s.worker w).queue = none :: rest) :
      Works s w (modify s w fun v => { v with queue := rest, point := .ended }) .none
  | takes {item rest} (hp : (s.worker w).point = .getting)
      (hq : (s.worker w).queue = some item :: rest) :
      Works s w (modify s w fun v => { v with queue := rest, point := .checking item }) .none
  | skips {item} (hp : (s.worker w).point = .checking item) (hc : s.future item = .cancelled) :
      Works s w (moveTo s w .getting) .none
  | runs {item} (hp : (s.worker w).point = .checking item) (hc : s.future item ≠ .cancelled) :
      Works s w (moveTo s w (.running item)) (.ran item)
  | returns {item} (hp : (s.worker w).point = .running item) :
      Works s w (moveTo s w (.finishing item)) .none
  | drops {item} (hp : (s.worker w).point = .finishing item) (hc : s.closed = true) :
      Works s w (moveTo s w .getting) .none
  | finishes {item} (hp : (s.worker w).point = .finishing item) (hc : s.closed = false) :
      Works s w (moveTo s w (.reporting item)) .none
  | fails {item} (hp : (s.worker w).point = .reporting item) (hc : s.closed = true) :
      Works s w (moveTo s w .ended) .loopClosed
  | reports {item} (hp : (s.worker w).point = .reporting item) (hc : s.closed = false) :
      Works s w { moveTo s w .getting with reports := s.reports ++ [(w, item)] } .none

variable {s s' : State} {h : History} {a : Action} {r : Reply} {w u : WorkerId} {i item : ItemId}

theorem thread_works (hs : thread s w = some (s', r)) : Works s w s' r := by
  rw [thread] at hs
  cases hp : (s.worker w).point with
  | ended => simp [hp] at hs
  | getting =>
      cases hq : (s.worker w).queue with
      | nil => simp [hp, hq] at hs
      | cons x rest =>
          cases x with
          | none =>
              simp only [hp, hq] at hs
              cases hs
              exact .shutsDown hp hq
          | some item =>
              simp only [hp, hq] at hs
              cases hs
              exact .takes hp hq
  | checking item =>
      simp only [hp] at hs
      split_ifs at hs with hc <;> cases hs
      · exact .skips hp hc
      · exact .runs hp hc
  | running item =>
      simp only [hp] at hs
      cases hs
      exact .returns hp
  | finishing item =>
      simp only [hp] at hs
      split_ifs at hs with hc <;> cases hs
      · exact .drops hp hc
      · exact .finishes hp (Bool.eq_false_iff.mpr hc)
  | reporting item =>
      simp only [hp] at hs
      split_ifs at hs with hc <;> cases hs
      · exact .fails hp hc
      · exact .reports hp (Bool.eq_false_iff.mpr hc)

/-- A thread that takes a step belongs to a worker that was created. -/
theorem Works.born (works : Works s w s' r) (pool : Pool s) : w < s.nextWorker := by
  apply pool.lt_of_ne
  intro hunborn
  cases works <;> simp_all [unborn]

theorem Pool.thread (pool : Pool s) (works : Works s w s' r) : Pool s' := by
  have hw := works.born pool
  cases works with
  | shutsDown hp hq =>
      refine pool.work hw ?_ rfl rfl ?_
      · simp [hq]
      · simp [Worker.items, hp, hq, Point.item]
  | takes hp hq =>
      refine pool.work hw ?_ rfl rfl ?_
      · simp [hq]
      · simp [Worker.items, hp, hq, Point.item]
  | skips hp => exact pool.work hw (.refl _) rfl rfl (by simp [Worker.items, hp, Point.item])
  | runs hp => exact pool.work hw (.refl _) rfl rfl (by simp [Worker.items, hp, Point.item])
  | returns hp => exact pool.work hw (.refl _) rfl rfl (by simp [Worker.items, hp, Point.item])
  | drops hp => exact pool.work hw (.refl _) rfl rfl (by simp [Worker.items, hp, Point.item])
  | finishes hp => exact pool.work hw (.refl _) rfl rfl (by simp [Worker.items, hp, Point.item])
  | fails hp => exact pool.work hw (.refl _) rfl rfl (by simp [Worker.items, hp, Point.item])
  | @reports item hp =>
      have hworker : (moveTo s w .getting).worker w = { s.worker w with point := .getting } :=
        modify_self s w _
      have hreported : reportedBy w (s.reports ++ [(w, item)]) =
          reportedBy w s.reports ++ [item] := by
        simp [reportedBy, List.filter_append]
      refine pool.update hw (fun u hu => ⟨?_, rfl, ?_⟩) rfl ?_ ?_ fun hmem => ?_
      · simp [moveTo, hu]
      · simp [reportedBy, List.filter_append, Ne.symm hu]
      · change Law ((moveTo s w .getting).worker w)
        rw [hworker]
        exact (pool.law w).shrink (.refl _) rfl rfl
      · have htoken := pool.token w
        simp only [State.carried, Worker.items, hp, Point.item, Option.toList_some,
          List.length_append, List.length_singleton] at htoken
        change s.idleWorkers.count w + (((moveTo s w .getting).worker w).items ++
          reportedBy w (s.reports ++ [(w, item)])).length ≤ 1
        simp only [hworker, hreported, Worker.items, Point.item, Option.toList_none,
          List.length_append, List.length_singleton, List.length_nil]
        omega
      · change ((moveTo s w .getting).worker w).stopping = false
        rw [hworker]
        exact pool.idle w hmem

/-- The items: each one is carried by at most one worker, its function has not been started while
it waits, and its future is not finished while anybody carries it. -/
structure Items (s : State) (h : History) : Prop where
  apart : ∀ w u i, i ∈ s.carried w → i ∈ s.carried u → w = u
  fresh : ∀ w, ∀ i ∈ s.carried w, i < s.nextItem
  unfinished : ∀ w, ∀ i ∈ s.carried w, s.future i ≠ .finished
  unran : ∀ w, ∀ i ∈ (s.worker w).waiting, i ∉ h.ran
  ran : ∀ i ∈ h.ran, i < s.nextItem
  completed : ∀ i ∈ h.completed, i < s.nextItem ∧ s.future i = .finished
  once : h.ran.Nodup ∧ h.completed.Nodup

theorem mem_carried_of_waiting (hi : i ∈ (s.worker w).waiting) : i ∈ s.carried w := by
  apply List.mem_append_left _
  rcases List.mem_append.mp hi with hi | hi
  · exact List.mem_append_left _ hi
  · apply List.mem_append_right _
    cases hp : (s.worker w).point <;> simp [hp] at hi
    simp [hi, Point.item]

/-- A step after which every worker has less to do. -/
theorem Items.shrink (items : Items s h) (hcarried : ∀ w, ∀ i ∈ s'.carried w, i ∈ s.carried w)
    (hwaiting : ∀ w, ∀ i ∈ (s'.worker w).waiting, i ∈ (s.worker w).waiting)
    (hfuture : ∀ i, s'.future i = .finished ↔ s.future i = .finished)
    (hnext : s'.nextItem = s.nextItem) : Items s' h where
  apart w u i hw hu := items.apart w u i (hcarried w i hw) (hcarried u i hu)
  fresh w i hi := hnext ▸ items.fresh w i (hcarried w i hi)
  unfinished w i hi := fun hfin => items.unfinished w i (hcarried w i hi) ((hfuture i).mp hfin)
  unran w i hi := items.unran w i (hwaiting w i hi)
  ran i hi := hnext ▸ items.ran i hi
  completed i hi := ⟨hnext ▸ (items.completed i hi).1, (hfuture i).mpr (items.completed i hi).2⟩
  once := items.once

/-- A step of a thread that starts no function. -/
theorem Items.work (items : Items s h) {f : Worker → Worker}
    (hitems : ∀ i ∈ (f (s.worker w)).items, i ∈ (s.worker w).items)
    (hwaiting : ∀ i ∈ (f (s.worker w)).waiting, i ∈ (s.worker w).waiting) :
    Items (modify s w f) h := by
  refine items.shrink (fun u i hi => ?_) (fun u i hi => ?_) (fun _ => Iff.rfl) rfl
  · by_cases hu : u = w
    · rw [State.carried, hu, modify_self] at hi
      rw [hu]
      exact (List.mem_append.mp hi).elim (fun h => List.mem_append_left _ (hitems i h))
        (fun h => List.mem_append_right _ h)
    · rwa [State.carried, modify_of_ne s hu] at hi
  · by_cases hu : u = w
    · rw [hu, modify_self] at hi
      exact hu ▸ hwaiting i hi
    · rwa [modify_of_ne s hu] at hi

/-- A thread that starts a function holds the only item of its worker. -/
theorem Pool.queue_of_checking (pool : Pool s) (hp : (s.worker w).point = .checking item) :
    (s.worker w).queue.reduceOption = [] := by
  have htoken := pool.token w
  simp only [State.carried, Worker.items, hp, Point.item, Option.toList_some, List.length_append,
    List.length_singleton] at htoken
  exact List.length_eq_zero_iff.mp (by omega)

theorem Items.thread (items : Items s h) (pool : Pool s) (works : Works s w s' r) :
    Items s' (record h s a r) := by
  cases works with
  | shutsDown hp hq =>
      refine items.work (fun i hi => ?_) (fun i hi => ?_)
      · simpa [Worker.items, hp, hq, Point.item] using hi
      · simpa [Worker.waiting, hp, hq] using hi
  | takes hp hq =>
      refine items.work (fun i hi => ?_) (fun i hi => ?_)
      · simpa [Worker.items, hp, hq, Point.item, or_comm] using hi
      · simpa [Worker.waiting, hp, hq, or_comm] using hi
  | skips hp =>
      refine items.work (fun i hi => ?_) (fun i hi => ?_)
      · exact List.mem_append_left _ (by simpa [Worker.items, Point.item] using hi)
      · exact List.mem_append_left _ (by simpa [Worker.waiting] using hi)
  | returns hp =>
      refine items.work (fun i hi => ?_) (fun i hi => ?_)
      · simpa [Worker.items, hp, Point.item] using hi
      · simpa [Worker.waiting, hp] using hi
  | drops hp =>
      refine items.work (fun i hi => ?_) (fun i hi => ?_)
      · exact List.mem_append_left _ (by simpa [Worker.items, Point.item] using hi)
      · simpa [Worker.waiting, hp] using hi
  | finishes hp =>
      refine items.work (fun i hi => ?_) (fun i hi => ?_)
      · simpa [Worker.items, hp, Point.item] using hi
      · simpa [Worker.waiting, hp] using hi
  | fails hp =>
      refine items.work (fun i hi => ?_) (fun i hi => ?_)
      · exact List.mem_append_left _ (by simpa [Worker.items, Point.item] using hi)
      · simpa [Worker.waiting, hp] using hi
  | @reports item hp =>
      have hworker : (moveTo s w .getting).worker w = { s.worker w with point := .getting } :=
        modify_self s w _
      refine items.shrink (fun u i hi => ?_) (fun u i hi => ?_) (fun _ => Iff.rfl) rfl
      · change i ∈ ((moveTo s w .getting).worker u).items ++
          reportedBy u (s.reports ++ [(w, item)]) at hi
        by_cases hu : u = w
        · rw [hu, hworker] at hi
          rw [hu, State.carried, Worker.items, hp]
          simp only [Worker.items, Point.item, Option.toList_none, Option.toList_some, reportedBy,
            List.filter_append, List.map_append, List.mem_append, List.append_nil] at hi ⊢
          simp only [List.filter_cons, decide_true, if_true, List.filter_nil, List.map_cons,
            List.map_nil] at hi
          tauto
        · rw [moveTo, modify_of_ne s hu] at hi
          simpa [State.carried, reportedBy, List.filter_append, Ne.symm hu] using hi
      · change i ∈ ((moveTo s w .getting).worker u).waiting at hi
        by_cases hu : u = w
        · rw [hu, hworker] at hi
          rw [hu]
          exact List.mem_append_left _ (by simpa [Worker.waiting] using hi)
        · rwa [moveTo, modify_of_ne s hu] at hi
  | @runs item hp =>
      have hwait : item ∈ (s.worker w).waiting := by simp [Worker.waiting, hp]
      have hqueue := pool.queue_of_checking hp
      have next : Items (moveTo s w (.running item)) h := by
        refine items.work (fun i hi => ?_) (fun i hi => ?_)
        · simpa [Worker.items, hp, Point.item] using hi
        · exact List.mem_append_left _ (by simpa [Worker.waiting] using hi)
      refine ⟨next.apart, next.fresh, next.unfinished, fun u i hi hmem => ?_, fun i hi => ?_,
        next.completed, ?_, next.once.2⟩
      · rcases List.mem_append.mp hmem with hmem | hmem
        · exact next.unran u i hi hmem
        · obtain rfl := List.mem_singleton.mp hmem
          by_cases hu : u = w
          · rw [hu, moveTo, modify_self] at hi
            simp [Worker.waiting, hqueue] at hi
          · have hold : i ∈ (s.worker u).waiting := by rwa [moveTo, modify_of_ne s hu] at hi
            exact hu (items.apart u w i (mem_carried_of_waiting hold)
              (mem_carried_of_waiting hwait))
      · rcases List.mem_append.mp hi with hi | hi
        · exact items.ran i hi
        · rw [List.mem_singleton.mp hi]
          exact items.fresh w item (mem_carried_of_waiting hwait)
      · apply next.once.1.append (List.nodup_singleton item)
        exact List.disjoint_singleton.mpr (items.unran w item hwait)

theorem recycle_worker (s : State) (w : WorkerId) :
    (recycle s w).worker =
      (modify s w fun v => { v with idleSince := s.now }).worker := by
  rw [recycle]
  split_ifs <;> rfl

@[simp] theorem recycle_worker_self (s : State) (w : WorkerId) :
    (recycle s w).worker w = { s.worker w with idleSince := s.now } := by
  rw [recycle_worker, modify_self]

@[simp] theorem recycle_worker_of_ne (s : State) {w u : WorkerId} (hu : u ≠ w) :
    (recycle s w).worker u = s.worker u := by
  rw [recycle_worker, modify_of_ne s hu]

@[simp] theorem recycle_reports (s : State) (w : WorkerId) :
    (recycle s w).reports = s.reports := by
  rw [recycle]
  split_ifs <;> rfl

@[simp] theorem recycle_future (s : State) (w : WorkerId) : (recycle s w).future = s.future := by
  rw [recycle]
  split_ifs <;> rfl

@[simp] theorem recycle_nextItem (s : State) (w : WorkerId) :
    (recycle s w).nextItem = s.nextItem := by
  rw [recycle]
  split_ifs <;> rfl

@[simp] theorem recycle_nextWorker (s : State) (w : WorkerId) :
    (recycle s w).nextWorker = s.nextWorker := by
  rw [recycle]
  split_ifs <;> rfl

theorem recycle_idleWorkers (s : State) (w : WorkerId) :
    (recycle s w).idleWorkers =
      if (s.worker w).stopping then s.idleWorkers else s.idleWorkers ++ [w] := by
  rw [recycle, modify_self]
  split_ifs <;> rfl

/-- A worker holds after its callback what it held before. -/
theorem recycle_places (s : State) (w u : WorkerId) :
    ((recycle s w).worker u).items = (s.worker u).items ∧
      ((recycle s w).worker u).waiting = (s.worker u).waiting ∧
      ((recycle s w).worker u).stopping = (s.worker u).stopping := by
  by_cases hu : u = w
  · subst hu
    simp [Worker.items, Worker.waiting]
  · simp [hu]

theorem reportedBy_cons_self (w : WorkerId) (item : ItemId) (rest : List (WorkerId × ItemId)) :
    reportedBy w ((w, item) :: rest) = item :: reportedBy w rest := by
  simp [reportedBy]

theorem reportedBy_cons_of_ne (hu : u ≠ w) (item : ItemId) (rest : List (WorkerId × ItemId)) :
    reportedBy u ((w, item) :: rest) = reportedBy u rest := by
  simp [reportedBy, Ne.symm hu]

/-- A worker that has a callback is not idle, and carries only the item of this callback. -/
theorem Pool.of_reports (pool : Pool s) {rest : List (WorkerId × ItemId)}
    (hr : s.reports = (w, item) :: rest) :
    (s.worker w).items = [] ∧ reportedBy w rest = [] ∧ s.idleWorkers.count w = 0 := by
  have htoken := pool.token w
  rw [State.carried, hr, reportedBy_cons_self] at htoken
  simp only [List.length_append, List.length_cons] at htoken
  exact ⟨List.length_eq_zero_iff.mp (by omega), List.length_eq_zero_iff.mp (by omega), by omega⟩

/-- The state without the callback that runs. -/
abbrev State.taking (s : State) (rest : List (WorkerId × ItemId)) : State :=
  { s with reports := rest }

/-- The worker of a callback is idle after it, unless it is stopping. -/
theorem Pool.recycle (pool : Pool s) {rest : List (WorkerId × ItemId)}
    (hr : s.reports = (w, item) :: rest) : Pool (recycle (s.taking rest) w) := by
  obtain ⟨hitems, hrest, hcount⟩ := pool.of_reports hr
  have hw : w < s.nextWorker := by
    by_contra hge
    have hnone := (pool.born w (Nat.le_of_not_lt hge)).2.2
    rw [hr, reportedBy_cons_self] at hnone
    cases hnone
  refine pool.update (w := w) hw (fun u hu => ⟨?_, ?_, ?_⟩) (recycle_nextWorker _ _) ?_ ?_
    fun hmem => ?_
  · exact recycle_worker_of_ne _ hu
  · rw [recycle_idleWorkers]
    split_ifs
    · rfl
    · rw [List.count_append, List.count_eq_zero.mpr fun h => hu (List.mem_singleton.mp h),
        Nat.add_zero]
  · rw [recycle_reports, hr, reportedBy_cons_of_ne hu]
  · rw [recycle_worker_self]
    exact (pool.law w).shrink (.refl _) rfl rfl
  · have hcarried : (WorkerThread.recycle (s.taking rest) w).carried w = [] := by
      rw [State.carried, (recycle_places _ _ _).1, recycle_reports, hitems, hrest]
      rfl
    rw [hcarried, recycle_idleWorkers]
    split_ifs
    · exact Nat.le_of_lt (Nat.lt_one_iff.mpr hcount)
    · rw [List.count_append, hcount, List.count_singleton_self]
      exact Nat.le_refl 1
  · rw [recycle_worker_self]
    rw [recycle_idleWorkers] at hmem
    split_ifs at hmem with hstop
    · exact absurd hmem (List.count_eq_zero.mp hcount)
    · exact Bool.eq_false_iff.mpr hstop

theorem Items.recycle (items : Items s h) {rest : List (WorkerId × ItemId)}
    (hr : s.reports = (w, item) :: rest) : Items (recycle (s.taking rest) w) h := by
  refine items.shrink (fun u i hi => ?_) (fun u i hi => ?_) (fun i => ?_) (recycle_nextItem _ _)
  · rw [State.carried, (recycle_places _ _ _).1, recycle_reports] at hi
    apply (List.mem_append.mp hi).elim (List.mem_append_left _)
    intro hi
    apply List.mem_append_right _
    obtain ⟨r, hmem, rfl⟩ := List.mem_map.mp hi
    obtain ⟨hrest, hu⟩ := List.mem_filter.mp hmem
    refine List.mem_map_of_mem (List.mem_filter.mpr ⟨?_, hu⟩)
    rw [hr]
    exact List.mem_cons_of_mem _ hrest
  · exact (recycle_places (s.taking rest) w u).2.1 ▸ hi
  · rw [recycle_future]

/-- A pending future whose item nobody carries any more is completed. -/
theorem Items.complete (items : Items s h) (hfresh : item < s.nextItem)
    (hpending : s.future item = .pending) (hnobody : ∀ u, item ∉ s.carried u) :
    Items { s with future := Function.update s.future item .finished }
      { h with completed := h.completed ++ [item] } where
  apart := items.apart
  fresh := items.fresh
  unfinished w i hi := by
    have hne : i ≠ item := fun heq => hnobody w (heq ▸ hi)
    change Function.update s.future item .finished i ≠ .finished
    rw [Function.update_of_ne hne]
    exact items.unfinished w i hi
  unran := items.unran
  ran := items.ran
  completed i hi := by
    change i < s.nextItem ∧ Function.update s.future item .finished i = .finished
    rcases List.mem_append.mp hi with hold | hnew
    · have hne : i ≠ item := by
        intro heq
        rw [← heq, (items.completed i hold).2] at hpending
        cases hpending
      rw [Function.update_of_ne hne]
      exact items.completed i hold
    · rw [List.mem_singleton.mp hnew, Function.update_self]
      exact ⟨hfresh, rfl⟩
  once := by
    refine ⟨items.once.1, items.once.2.append (List.nodup_singleton item) ?_⟩
    apply List.disjoint_singleton.mpr
    intro hmem
    rw [(items.completed item hmem).2] at hpending
    cases hpending

/-- After its callback nobody carries an item. -/
theorem Items.nobody (items : Items s h) (pool : Pool s) {rest : List (WorkerId × ItemId)}
    (hr : s.reports = (w, item) :: rest) (u : WorkerId) :
    item ∉ (WorkerThread.recycle (s.taking rest) w).carried u := by
  obtain ⟨hitems, hrest, -⟩ := pool.of_reports hr
  intro hmem
  rw [State.carried, (recycle_places _ _ _).1, recycle_reports] at hmem
  change item ∈ (s.worker u).items ++ reportedBy u rest at hmem
  by_cases hu : u = w
  · rw [hu, hitems, hrest] at hmem
    cases hmem
  · have hself : item ∈ s.carried w := by
      rw [State.carried, hr, reportedBy_cons_self]
      exact List.mem_append_right _ List.mem_cons_self
    refine hu (items.apart u w item ?_ hself)
    rwa [State.carried, hr, reportedBy_cons_of_ne hu]

/-- A step that leaves the items of every worker where they are. -/
theorem Items.still (items : Items s h)
    (hqueue : ∀ u, (s'.worker u).queue.reduceOption = (s.worker u).queue.reduceOption)
    (hitem : ∀ u, (s'.worker u).point.item = (s.worker u).point.item)
    (hchecking : ∀ u i, (s'.worker u).point = .checking i → (s.worker u).point = .checking i)
    (hreports : s'.reports = s.reports)
    (hfuture : ∀ i, s'.future i = .finished ↔ s.future i = .finished)
    (hnext : s'.nextItem = s.nextItem) : Items s' h := by
  refine items.shrink (fun u i hi => ?_) (fun u i hi => ?_) hfuture hnext
  · rwa [State.carried, Worker.items, hqueue, hitem, hreports] at hi
  · rw [Worker.waiting, hqueue] at hi
    apply (List.mem_append.mp hi).elim (List.mem_append_left _)
    intro hi
    apply List.mem_append_right _
    cases hp : (s'.worker u).point <;> simp [hp] at hi
    simp [hi, hchecking u _ hp]

theorem afterGive_worker_self (s : State) (w : WorkerId) :
    (afterGive s w).worker w =
      { s.worker w with queue := (s.worker w).queue ++ [some s.nextItem] } :=
  Function.update_self ..

theorem afterGive_worker_of_ne (s : State) (hu : u ≠ w) :
    (afterGive s w).worker u = s.worker u :=
  Function.update_of_ne hu ..

/-- What a worker carries after `queue.put_nowait()`. -/
theorem mem_carried_afterGive (hi : i ∈ (afterGive s w).carried u) :
    i ∈ s.carried u ∨ u = w ∧ i = s.nextItem := by
  by_cases hu : u = w
  · rw [hu, State.carried, Worker.items, afterGive_worker_self, List.reduceOption_append] at hi
    simp only [List.mem_append, List.reduceOption_singleton, Option.toList_some,
      List.mem_singleton] at hi
    rw [hu, State.carried, Worker.items]
    simp only [List.mem_append]
    change ((i ∈ _ ∨ _) ∨ _) ∨ i ∈ reportedBy w s.reports at hi
    tauto
  · rw [State.carried, afterGive_worker_of_ne s hu] at hi
    exact .inl hi

/-- The new item is nowhere else, and its function has not been started. -/
theorem Items.give (items : Items s h) : Items (afterGive s w) h where
  apart u₁ u₂ i h₁ h₂ := by
    rcases mem_carried_afterGive h₁ with old₁ | ⟨rfl, rfl⟩ <;>
      rcases mem_carried_afterGive h₂ with old₂ | ⟨rfl, hnew⟩
    · exact items.apart u₁ u₂ i old₁ old₂
    · exact absurd (items.fresh u₁ i old₁) (by rw [hnew]; exact Nat.lt_irrefl _)
    · exact absurd (items.fresh u₂ _ old₂) (Nat.lt_irrefl _)
    · rfl
  fresh u i hi := by
    rcases mem_carried_afterGive hi with old | ⟨-, rfl⟩
    · exact Nat.lt_succ_of_lt (items.fresh u i old)
    · exact Nat.lt_succ_self _
  unfinished u i hi := by
    change Function.update s.future s.nextItem .pending i ≠ .finished
    rcases mem_carried_afterGive hi with old | ⟨-, rfl⟩
    · rw [Function.update_of_ne (items.fresh u i old).ne]
      exact items.unfinished u i old
    · rw [Function.update_self]
      exact FutureState.noConfusion
  unran u i hi hran := by
    have hlt := items.ran i hran
    by_cases hu : u = w
    · rw [hu, Worker.waiting, afterGive_worker_self, List.reduceOption_append] at hi
      simp only [List.mem_append, List.reduceOption_singleton, Option.toList_some,
        List.mem_singleton] at hi
      refine items.unran w i ?_ hran
      rw [Worker.waiting, List.mem_append]
      rcases hi with (hi | hi) | hi
      · exact .inl hi
      · exact absurd hlt (hi ▸ Nat.lt_irrefl _)
      · exact .inr hi
    · rw [afterGive_worker_of_ne s hu] at hi
      exact items.unran u i hi hran
  ran i hi := Nat.lt_succ_of_lt (items.ran i hi)
  completed i hi := by
    obtain ⟨hlt, hfin⟩ := items.completed i hi
    refine ⟨Nat.lt_succ_of_lt hlt, ?_⟩
    change Function.update s.future s.nextItem .pending i = .finished
    rwa [Function.update_of_ne hlt.ne]
  once := items.once

/-- What no step does: overflow a queue, complete a future for the second time, give an item to a
worker that stops, or take a stop back. -/
structure Safe (s s' : State) (r : Reply) : Prop where
  notFull : r ≠ .full
  valid : r ≠ .invalidStateError
  gave : ∀ w item, r = .gave w item → (s'.worker w).stopping = false
  stopping : ∀ w < s.nextWorker, (s.worker w).stopping = true → (s'.worker w).stopping = true

/-- A step that gives no item to anybody. -/
theorem Safe.quiet (hnone : r = .none)
    (hstopping : ∀ w < s.nextWorker, (s.worker w).stopping = true →
      (s'.worker w).stopping = true) : Safe s s' r := by
  subst hnone
  exact ⟨Reply.noConfusion, Reply.noConfusion, fun _ _ => Reply.noConfusion, hstopping⟩

/-- A callback never completes a future for the second time. -/
theorem Items.report (items : Items s h) (pool : Pool s) {rest : List (WorkerId × ItemId)}
    (hr : s.reports = (w, item) :: rest)
    (hs : reportResult (s.taking rest) w item = (s', r)) :
    Pool s' ∧ Items s' (record h s a r) ∧ Safe s s' r := by
  have hpool := pool.recycle hr
  have hitems := items.recycle hr
  have hself : item ∈ s.carried w := by
    rw [State.carried, hr, reportedBy_cons_self]
    exact List.mem_append_right _ List.mem_cons_self
  have hfuture : (WorkerThread.recycle (s.taking rest) w).future item = s.future item := by
    rw [recycle_future]
  have hstopping : ∀ u < s.nextWorker, (s.worker u).stopping = true →
      ((WorkerThread.recycle (s.taking rest) w).worker u).stopping = true := fun u _ hu =>
    (recycle_places (s.taking rest) w u).2.2.trans hu
  simp only [reportResult, hfuture] at hs
  cases hf : s.future item with
  | finished => exact absurd hf (items.unfinished w item hself)
  | cancelled =>
      simp only [hf] at hs
      cases hs
      exact ⟨hpool, hitems, .quiet rfl hstopping⟩
  | pending =>
      simp only [hf] at hs
      cases hs
      refine ⟨⟨hpool.law, hpool.token, hpool.idle, hpool.born⟩, ?_,
        Reply.noConfusion, Reply.noConfusion, fun _ _ => Reply.noConfusion, hstopping⟩
      refine hitems.complete ?_ (hfuture.trans hf) (items.nobody pool hr)
      rw [recycle_nextItem]
      exact items.fresh w item hself

theorem Works.stopping (works : Works s w s' r) (u : WorkerId) :
    (s'.worker u).stopping = (s.worker u).stopping := by
  by_cases hu : u = w
  · subst hu
    cases works <;> simp [moveTo]
  · cases works <;> simp [moveTo, hu]

theorem Works.safe (works : Works s w s' r) : Safe s s' r := by
  have hstopping : ∀ u < s.nextWorker, (s.worker u).stopping = true →
      (s'.worker u).stopping = true := fun u _ hu => (works.stopping u).trans hu
  cases works <;>
    exact ⟨Reply.noConfusion, Reply.noConfusion, fun _ _ => Reply.noConfusion, hstopping⟩

/-- A call keeps the places and the items, and gives its item to a worker that works. -/
theorem Items.call (items : Items s h) (pool : Pool s) {root : RootId}
    (hs : WorkerThread.call s root = (s', r)) :
    Pool s' ∧ Items s' (record h s a r) ∧ Safe s s' r := by
  obtain ⟨t, w, hcall, prepared⟩ := pool.call root
  rw [hcall] at hs
  cases hs
  have ready := prepared.ready
  refine ⟨ready.afterGive, Items.give ?_, Reply.noConfusion, Reply.noConfusion, ?_, ?_⟩
  · exact items.still prepared.queue prepared.item prepared.checking prepared.reports
      (fun i => by rw [prepared.future]) prepared.nextItem
  · intro w' item hr
    cases hr
    rw [afterGive_worker_self]
    exact ready.working
  · intro u hu hstop
    have hkept := prepared.stopping u hu hstop
    by_cases huw : u = w
    · rw [huw, afterGive_worker_self]
      exact huw ▸ hkept
    · rwa [afterGive_worker_of_ne t huw]

theorem Items.runStop (items : Items s h) (pool : Pool s)
    (hw : (s.worker w).callback = .scheduled) :
    let s' := modify s w fun v => { v with callback := .gone }
    stop s' w = (afterStop s' w, true) ∧ Pool (afterStop s' w) ∧ Items (afterStop s' w) h ∧
      Safe s (afterStop s' w) .none := by
  obtain ⟨hpool, hstop⟩ := pool.runStop hw
  have stops := Stops.afterStop (s := s) (w := w) (f := fun v => { v with callback := .gone })
    rfl rfl fun _ _ => rfl
  refine ⟨hstop, hpool, ?_, .quiet rfl fun u _ => stops.stopping u⟩
  refine items.still (fun u => (stops.items u).1) (fun u => ?_) (fun u i hu => ?_) stops.reports
    (fun i => by rw [stops.future]) stops.nextItem
  · rw [(stops.items u).2]
  · exact (stops.items u).2 ▸ hu

/-- The end of a root task schedules the callbacks of its workers. -/
theorem Pool.rootEnds (pool : Pool s) (root : RootId) :
    Pool { s with
      rootDone := Function.update s.rootDone root true
      worker := fun w =>
        if (s.worker w).rootTask = root ∧ (s.worker w).callback = .registered then
          { s.worker w with callback := .scheduled }
        else s.worker w } where
  law w := by
    dsimp only
    split_ifs with hw
    · have law := pool.law w
      refine ⟨fun hv => ⟨(law.working hv).1, rfl⟩, fun hv => ?_⟩
      have hle := law.stopping hv
      rwa [hw.2] at hle
    · exact pool.law w
  token w := by
    have htoken := pool.token w
    simp only [State.carried] at htoken ⊢
    split_ifs <;> exact htoken
  idle w hw := by
    dsimp only
    split_ifs <;> exact pool.idle w hw
  born w hw := by
    obtain ⟨hunborn, hrest⟩ := pool.born w hw
    refine ⟨?_, hrest⟩
    dsimp only
    rw [if_neg fun h => by rw [hunborn] at h; cases h.2]
    exact hunborn

/-- Every step keeps the places and the items, and is safe. -/
theorem Items.step (items : Items s h) (pool : Pool s) (hs : step s a = some (s', r)) :
    Pool s' ∧ Items s' (record h s a r) ∧ Safe s s' r := by
  cases a with
  | call root =>
      obtain ⟨-, hs⟩ := Option.ite_none_left_eq_some.mp hs
      exact items.call pool (Option.some.inj hs)
  | cancel item =>
      obtain ⟨⟨-, -, hpending⟩, hs⟩ := Option.ite_none_right_eq_some.mp hs
      cases hs
      refine ⟨⟨pool.law, pool.token, pool.idle, pool.born⟩, ?_, .quiet rfl fun _ _ => id⟩
      refine items.still (fun _ => rfl) (fun _ => rfl) (fun _ _ => id) rfl (fun i => ?_) rfl
      by_cases hi : i = item
      · simp [hi, hpending]
      · simp [hi]
  | thread w =>
      have works := thread_works hs
      exact ⟨pool.thread works, items.thread pool works, works.safe⟩
  | report =>
      obtain ⟨-, hs⟩ := Option.ite_none_left_eq_some.mp hs
      cases hr : s.reports with
      | nil => simp [hr] at hs
      | cons head rest =>
          obtain ⟨w, item⟩ := head
          simp only [hr] at hs
          exact items.report pool hr (Option.some.inj hs)
  | rootEnds root =>
      obtain ⟨-, hs⟩ := Option.ite_none_right_eq_some.mp hs
      cases hs
      refine ⟨pool.rootEnds root, ?_, .quiet rfl fun u _ hu => ?_⟩
      · refine items.still (fun u => ?_) (fun u => ?_) (fun u i hu => ?_) rfl (fun _ => .rfl) rfl
        · dsimp only
          split_ifs <;> rfl
        · dsimp only
          split_ifs <;> rfl
        · dsimp only at hu
          split_ifs at hu <;> exact hu
      · dsimp only
        split_ifs <;> exact hu
  | runStop w =>
      obtain ⟨⟨-, hw⟩, hs⟩ := Option.ite_none_right_eq_some.mp hs
      obtain ⟨hstop, hpool, hitems, hsafe⟩ := items.runStop pool hw
      simp only [hstop] at hs
      cases hs
      exact ⟨hpool, hitems, hsafe⟩
  | pass seconds =>
      obtain ⟨-, hs⟩ := Option.ite_none_right_eq_some.mp hs
      cases hs
      exact ⟨⟨pool.law, pool.token, pool.idle, pool.born⟩,
        items.still (fun _ => rfl) (fun _ => rfl) (fun _ _ => id) rfl (fun _ => .rfl) rfl,
        .quiet rfl fun _ _ => id⟩
  | close =>
      obtain ⟨-, hs⟩ := Option.ite_none_left_eq_some.mp hs
      cases hs
      exact ⟨⟨pool.law, pool.token, pool.idle, pool.born⟩,
        items.still (fun _ => rfl) (fun _ => rfl) (fun _ _ => id) rfl (fun _ => .rfl) rfl,
        .quiet rfl fun _ _ => id⟩

theorem pool_initial : Pool initial where
  law _ := ⟨fun h => (by cases h), fun _ => Nat.zero_le 2⟩
  token _ := Nat.zero_le 1
  idle _ h := by cases h
  born _ _ := ⟨rfl, List.not_mem_nil, rfl⟩

theorem items_initial : Items initial .empty where
  apart _ _ _ h := by cases h
  fresh _ _ h := by cases h
  unfinished _ _ h := by cases h
  unran _ _ _ h := by cases h
  ran _ h := by cases h
  completed _ h := by cases h
  once := ⟨.nil, .nil⟩

theorem items_of_run (run : recorded.Reachable Machine.anyStep (initial, .empty) (s, h)) :
    Pool s ∧ Items s h := by
  refine run.invariant (I := fun p => Pool p.1 ∧ Items p.1 p.2) ⟨pool_initial, items_initial⟩ ?_
  rintro ⟨s, h⟩ a ⟨s', h'⟩ r ⟨pool, items⟩ - hs
  obtain ⟨hstep, rfl⟩ := Machine.withHistory_step.mp hs
  obtain ⟨hpool, hitems, -⟩ := items.step pool hstep
  exact ⟨hpool, hitems⟩

/-- In every run a worker has at most one item queued or running, every step is safe, and no
function runs and no future is completed twice. -/
theorem worker_exclusive (run : recorded.Reachable Machine.anyStep (initial, .empty) (s, h)) :
    (∀ w, (s.worker w).items.length ≤ 1) ∧
      (∀ a s' r, step s a = some (s', r) → r ≠ .full ∧ r ≠ .invalidStateError ∧
        (∀ w item, r = .gave w item → (s'.worker w).stopping = false) ∧
        ∀ w < s.nextWorker, (s.worker w).stopping = true → (s'.worker w).stopping = true) ∧
      h.ran.Nodup ∧ h.completed.Nodup := by
  obtain ⟨pool, items⟩ := items_of_run run
  refine ⟨fun w => ?_, fun a s' r hs => ?_, items.once⟩
  · have htoken := pool.token w
    rw [State.carried, List.length_append] at htoken
    omega
  · obtain ⟨-, -, hsafe⟩ := items.step pool hs
    exact ⟨hsafe.notFull, hsafe.valid, hsafe.gave, hsafe.stopping⟩

/-- Two calls share a worker, which is stopped while it runs the second function. -/
def twoCalls : List Action :=
  [.call 0, .thread 0, .thread 0, .thread 0, .thread 0, .thread 0, .report, .call 0, .thread 0,
    .thread 0, .rootEnds 0, .runStop 0, .thread 0, .thread 0, .thread 0, .report, .call 1]

theorem twoCalls_run : (recorded.exec Machine.anyStep (initial, .empty) twoCalls).isSome := by
  decide +kernel

theorem worker_exclusive_twoCalls :
    let p := (recorded.exec Machine.anyStep (initial, .empty) twoCalls).get twoCalls_run
    p.2 = ⟨[0, 1], [0, 1]⟩ ∧ (p.1.worker 0).stopping = true ∧ (p.1.worker 1).items = [2] ∧
      (∀ w, (p.1.worker w).items.length ≤ 1) ∧ p.2.ran.Nodup ∧ p.2.completed.Nodup := by
  have exclusive := worker_exclusive
    (Machine.exec_get_reachable (initial, History.empty) twoCalls twoCalls_run)
  exact ⟨by decide +kernel, by decide +kernel, by decide +kernel, exclusive.1, exclusive.2.2⟩

end Anyio.WorkerThread
