import Anyio.WorkerProcess.Steps

/-!
# The pool of worker processes

Every process is in the deque, or in the hands of one call, or in neither. The
deque is in the order in which its processes became idle, so that the processes
which have been idle for too long are at its front.
-/

namespace Anyio.WorkerProcess

open Library

variable {s s' : State} {a : Action} {r : Reply} {c d : CallId} {p q : ProcessId}

/-- What holds of the set, the deque and the calls in every run. -/
structure Pool (s : State) : Prop where
  distinct : (s.idleWorkers.map Prod.fst).Nodup
  known : ∀ p ∈ s.idleWorkers.map Prod.fst, p ∈ s.workers
  sorted : s.idleWorkers.Pairwise fun x y => x.2 ≤ y.2
  past : ∀ x ∈ s.idleWorkers, x.2 ≤ s.now
  free : ∀ c, ∀ p ∈ (s.phase c).processes, p ∉ s.idleWorkers.map Prod.fst
  apart : ∀ c d p, p ∈ (s.phase c).processes → p ∈ (s.phase d).processes → c = d
  born : ∀ p, p ∈ s.workers ∨ (∃ c, p ∈ (s.phase c).processes) → p < s.nextProcess

/-- A call moves on with processes that it has already. -/
theorem Pool.moveTo (pool : Pool s) {phase : Phase}
    (hphase : ∀ p ∈ phase.processes, p ∈ (s.phase c).processes) :
    Pool (moveTo s c phase) := by
  have hsub : ∀ d p, p ∈ ((WorkerProcess.moveTo s c phase).phase d).processes →
      p ∈ (s.phase d).processes := by
    intro d p hp
    by_cases hd : d = c
    · rw [hd, moveTo_phase_self] at hp
      exact hd ▸ hphase p hp
    · rwa [moveTo_phase_of_ne s phase hd] at hp
  exact {
    distinct := pool.distinct
    known := pool.known
    sorted := pool.sorted
    past := pool.past
    free := fun d p hp => pool.free d p (hsub d p hp)
    apart := fun d e p hp hp' => pool.apart d e p (hsub d p hp) (hsub e p hp')
    born := fun p hp => pool.born p (hp.imp_right fun ⟨d, hd⟩ => ⟨d, hsub d p hd⟩) }

/-- A call takes a process of its own out of the set. -/
theorem Pool.erase (pool : Pool s) (hp : p ∈ (s.phase c).processes) :
    Pool { s with workers := s.workers.erase p } := by
  refine { pool with
    known := fun q hq => Finset.mem_erase.mpr ⟨fun heq => ?_, pool.known q hq⟩
    born := fun q hq => pool.born q (hq.imp_left Finset.mem_of_mem_erase) }
  exact pool.free c p hp (heq ▸ hq)

/-- A call puts a process of its own into the set. -/
theorem Pool.insert (pool : Pool s) (hp : p ∈ (s.phase c).processes) :
    Pool { s with workers := insert p s.workers } := by
  refine { pool with
    known := fun q hq => Finset.mem_insert_of_mem (pool.known q hq)
    born := fun q hq => pool.born q ?_ }
  refine hq.elim (fun hq => ?_) .inr
  obtain rfl | hq := Finset.mem_insert.mp hq
  · exact .inr ⟨c, hp⟩
  · exact .inl hq

/-- A call that leaves puts its process at the end of the deque. -/
theorem Pool.append (pool : Pool s) (hp : p ∈ (s.phase c).processes) (hmem : p ∈ s.workers) :
    Pool { WorkerProcess.moveTo s c .outside with
      idleWorkers := s.idleWorkers ++ [(p, s.now)] } := by
  have hmoved : Pool (WorkerProcess.moveTo s c .outside) := pool.moveTo fun _ h => by cases h
  have hnot := pool.free c p hp
  refine { hmoved with
    distinct := ?_
    known := fun q hq => ?_
    sorted := ?_
    past := fun x hx => ?_
    free := fun d q hq => ?_ }
  · rw [List.map_append, List.map_singleton]
    exact pool.distinct.append (List.nodup_singleton p) (List.disjoint_singleton.mpr hnot)
  · rw [List.map_append, List.map_singleton, List.mem_append, List.mem_singleton] at hq
    exact hq.elim (pool.known q) fun heq => heq ▸ hmem
  · refine List.pairwise_append.mpr ⟨pool.sorted, List.pairwise_singleton _ _, fun x hx y hy => ?_⟩
    rw [List.mem_singleton.mp hy]
    exact pool.past x hx
  · refine (List.mem_append.mp hx).elim (pool.past x) fun hx => ?_
    rw [List.mem_singleton.mp hx]
    exact le_refl s.now
  · rw [List.map_append, List.map_singleton, List.mem_append, List.mem_singleton]
    rintro (hidle | rfl)
    · exact hmoved.free d q hq hidle
    · by_cases hd : d = c
      · rw [hd] at hq
        change q ∈ ((WorkerProcess.moveTo s c .outside).phase c).processes at hq
        rw [moveTo_phase_self] at hq
        cases hq
      · change q ∈ ((WorkerProcess.moveTo s c .outside).phase d).processes at hq
        rw [moveTo_phase_of_ne s _ hd] at hq
        exact hd (pool.apart d c q hq hp)

theorem Pool.finish (pool : Pool s) {exit : Exit} (hp : p ∈ (s.phase c).processes) :
    Pool (finish s c p exit).1 := by
  rw [WorkerProcess.finish]
  split_ifs with hmem
  · exact pool.append hp hmem
  · exact pool.moveTo fun _ h => by cases h

/-- A new process is in nobody's hands. -/
theorem Pool.opens (pool : Pool s) :
    Pool { WorkerProcess.moveTo s c (.greeting s.nextProcess) with
      nextProcess := s.nextProcess + 1 } := by
  have hnew : ∀ d, s.nextProcess ∉ (s.phase d).processes := fun d hp =>
    Nat.lt_irrefl _ (pool.born _ (.inr ⟨d, hp⟩))
  have hold : ∀ d p, p ∈ ((WorkerProcess.moveTo s c (.greeting s.nextProcess)).phase d).processes →
      d = c ∧ p = s.nextProcess ∨ d ≠ c ∧ p ∈ (s.phase d).processes := by
    intro d p hp
    by_cases hd : d = c
    · rw [hd, moveTo_phase_self] at hp
      exact .inl ⟨hd, List.mem_singleton.mp hp⟩
    · rw [moveTo_phase_of_ne s _ hd] at hp
      exact .inr ⟨hd, hp⟩
  refine { pool with
    free := fun d p hp => ?_
    apart := fun d e p hp hp' => ?_
    born := fun p hp => ?_ }
  · obtain ⟨-, rfl⟩ | ⟨-, hp⟩ := hold d p hp
    · exact fun hmem => Nat.lt_irrefl _ (pool.born _ (.inl (pool.known _ hmem)))
    · exact pool.free d p hp
  · obtain ⟨hd, hnext⟩ | ⟨-, hold₁⟩ := hold d p hp <;>
      obtain ⟨he, hnext'⟩ | ⟨-, hold₂⟩ := hold e p hp'
    · exact hd.trans he.symm
    · exact absurd (hnext ▸ hold₂) (hnew e)
    · exact absurd (hnext' ▸ hold₁) (hnew d)
    · exact pool.apart d e p hold₁ hold₂
  · obtain hp | ⟨d, hp⟩ := hp
    · exact Nat.lt_succ_of_lt (pool.born p (.inl hp))
    · obtain ⟨-, rfl⟩ | ⟨-, hp⟩ := hold d p hp
      · exact Nat.lt_succ_self _
      · exact Nat.lt_succ_of_lt (pool.born p (.inr ⟨d, hp⟩))

theorem Pool.works (pool : Pool s) (works : Works s a c s' r) : Pool s' := by
  cases works with
  | opens => exact pool.opens
  | cannotOpen => exact pool.moveTo fun _ h => by cases h
  | greets hc => exact pool.moveTo fun p hp => by rwa [hc]
  | abandons => exact pool.moveTo fun _ h => by cases h
  | kills =>
      have hmoved : Pool (WorkerProcess.moveTo s c .outside) := pool.moveTo fun _ h => by cases h
      exact { hmoved with }
  | @joins p hc =>
      have hp : p ∈ (s.phase c).processes := hc ▸ List.mem_singleton_self p
      exact (pool.insert hp).moveTo fun q hq => by
        rw [List.mem_singleton.mp hq]
        exact hp
  | @ends p exit hc => exact pool.finish (hc ▸ List.mem_singleton_self p)
  | @discards p command cancelled hc =>
      have hp : p ∈ (s.phase c).processes := hc ▸ List.mem_singleton_self p
      have hmoved : Pool (WorkerProcess.moveTo _ c (.discarding p command cancelled)) :=
        (pool.erase hp).moveTo fun q hq => by
          rw [List.mem_singleton.mp hq]
          exact hp
      exact { hmoved with }
  | @drops p command failure hc =>
      exact (pool.erase (c := c) (hc ▸ List.mem_singleton_self p)).moveTo fun _ h => by cases h
  | discarded => exact pool.moveTo fun _ h => by cases h
  | @discardedRun p cancelled exit hc => exact pool.finish (hc ▸ List.mem_singleton_self p)
  | @closes p k rest hc =>
      apply pool.moveTo
      intro q hq
      rw [hc]
      exact (List.mem_cons.mp hq).elim (fun h => h ▸ List.mem_cons_self)
        fun h => List.mem_cons_of_mem p (List.mem_cons_of_mem k h)
  | @closesLast p k hc =>
      apply pool.moveTo
      intro q hq
      rw [hc, List.mem_singleton.mp hq]
      exact List.mem_cons_self

/-- A call takes processes out of the deque into its own hands. -/
theorem Pool.took (pool : Pool s) {rest : List (ProcessId × Rat)} {workers : Finset ProcessId}
    {killed : ProcessId → Bool} {out dropped : List ProcessId} {found : Option ProcessId}
    (took : Took s rest workers killed out found dropped) {phase : Phase}
    (hphase : ∀ q ∈ phase.processes, q ∈ out ∨ q ∈ found) :
    Pool (WorkerProcess.moveTo (s.after rest workers killed) c phase) := by
  obtain ⟨front, back, hsplit, hout, hback⟩ := took.split
  have hmap : s.idleWorkers.map Prod.fst =
      out ++ rest.map Prod.fst ++ (found.toList ++ dropped) := by
    rw [hsplit, List.map_append, List.map_append, hout, hback]
  have hdistinct := pool.distinct
  rw [hmap, List.nodup_append, List.nodup_append] at hdistinct
  obtain ⟨⟨-, hnodup, hfront⟩, -, hapart⟩ := hdistinct
  have hrest : ∀ q ∈ rest.map Prod.fst, q ∉ out ∧ q ∉ found.toList ++ dropped := fun q hq =>
    ⟨fun h => hfront q h q hq rfl, fun h => hapart q (List.mem_append_right _ hq) q h rfl⟩
  have hsub : rest.Sublist s.idleWorkers := by
    rw [hsplit]
    exact (List.sublist_append_right front rest).trans (List.sublist_append_left _ back)
  have hidle : ∀ q ∈ phase.processes, q ∈ s.idleWorkers.map Prod.fst ∧
      q ∉ rest.map Prod.fst := by
    intro q hq
    rw [hmap]
    obtain hq | hq := hphase q hq
    · exact ⟨List.mem_append_left _ (List.mem_append_left _ hq), fun h => (hrest q h).1 hq⟩
    · have hback : q ∈ found.toList ++ dropped :=
        List.mem_append_left _ (Option.mem_toList.mpr hq)
      exact ⟨List.mem_append_right _ hback, fun h => (hrest q h).2 hback⟩
  have hold : ∀ d q, q ∈ ((WorkerProcess.moveTo (s.after rest workers killed) c phase).phase
      d).processes → d = c ∧ q ∈ phase.processes ∨ d ≠ c ∧ q ∈ (s.phase d).processes := by
    intro d q hq
    by_cases hd : d = c
    · rw [hd, moveTo_phase_self] at hq
      exact .inl ⟨hd, hq⟩
    · rw [moveTo_phase_of_ne _ _ hd] at hq
      exact .inr ⟨hd, hq⟩
  refine ⟨hnodup, fun q hq => ?_, pool.sorted.sublist hsub,
    fun x hx => pool.past x (hsub.subset hx),
    fun d q hq => ?_, fun d e q hq hq' => ?_, fun q hq => ?_⟩
  · obtain ⟨hout', hback'⟩ := hrest q hq
    exact took.kept q (pool.known q ((hsub.map Prod.fst).subset hq))
      (fun h => hback' (List.mem_append_right _ h)) hout'
  · obtain ⟨-, hq⟩ | ⟨-, hq⟩ := hold d q hq
    · exact (hidle q hq).2
    · exact fun h => pool.free d q hq ((hsub.map Prod.fst).subset h)
  · obtain ⟨hd, hq⟩ | ⟨-, hq⟩ := hold d q hq <;> obtain ⟨he, hq'⟩ | ⟨-, hq'⟩ := hold e q hq'
    · exact hd.trans he.symm
    · exact absurd (hidle q hq).1 (pool.free e q hq')
    · exact absurd (hidle q hq').1 (pool.free d q hq)
    · exact pool.apart d e q hq hq'
  · obtain hq | ⟨d, hq⟩ := hq
    · exact pool.born q (.inl (took.within q hq).1)
    · obtain ⟨-, hq⟩ | ⟨-, hq⟩ := hold d q hq
      · exact pool.born q (.inl (pool.known q (hidle q hq).1))
      · exact pool.born q (.inr ⟨d, hq⟩)

theorem Pool.start (pool : Pool s) (hc : s.phase c = .outside) {exit : Option Exit}
    (starts : Starts s c s' exit) : Pool s' := by
  cases starts with
  | opens took => exact pool.took took fun _ h => by cases h
  | @fails rest workers killed out p dropped took =>
      have hpool : Pool (WorkerProcess.moveTo (s.after rest workers killed) c .outside) :=
        pool.took took fun _ h => by cases h
      rwa [moveTo_outside (s := s.after rest workers killed) hc] at hpool
  | finds took _ _ hphase =>
      apply pool.took took
      intro q hq
      rw [hphase] at hq
      split_ifs at hq
      · exact .inr (List.mem_singleton.mp hq ▸ rfl)
      · obtain rfl | hq := List.mem_cons.mp hq
        · exact .inr rfl
        · exact .inl hq

/-- The deque is in order, so that everything behind a worker which has not been idle for too long
has not been either. -/
theorem fresh_of_head {now bound : Rat} {deque : List (ProcessId × Rat)}
    (hsorted : deque.Pairwise fun x y => x.2 ≤ y.2)
    (hhead : ∀ x ∈ deque.head?, now - x.2 < bound) : ∀ x ∈ deque, now - x.2 < bound := by
  cases deque with
  | nil => exact fun _ h => by cases h
  | cons y deque =>
      have hy := hhead y rfl
      intro x hx
      obtain rfl | hx := List.mem_cons.mp hx
      · exact hy
      · have hle := List.rel_of_pairwise_cons hsorted hx
        exact lt_of_le_of_lt (sub_le_sub_left hle now) hy

/-- After the second loop no worker of the deque has been idle for too long. -/
theorem Starts.fresh (starts : Starts s c s' none) (pool : Pool s')
    (hfound : (s'.phase c).processes ≠ []) :
    ∀ x ∈ s'.idleWorkers, s'.now - x.2 < workerMaxIdleTime := by
  cases starts with
  | opens =>
      rw [moveTo_phase_self] at hfound
      exact absurd rfl hfound
  | finds _ _ hhead => exact fresh_of_head pool.sorted hhead

theorem Pool.step (pool : Pool s) (hs : step s a = some (s', r)) : Pool s' := by
  cases step_steps hs with
  | @enters c cancellable hc =>
      have hpool : Pool { s with cancellable := Function.update s.cancellable c cancellable } :=
        { pool with }
      exact hpool.start hc (start_starts hpool.distinct hpool.known c)
  | works _ works => exact pool.works works
  | exits => exact { pool with }
  | passes hpos =>
      exact { pool with past := fun x hx => le_add_of_le_of_nonneg (pool.past x hx) hpos }

theorem pool_initial : Pool initial where
  distinct := .nil
  known _ h := by cases h
  sorted := .nil
  past _ h := by cases h
  free _ _ h := by cases h
  apart _ _ _ h := by cases h
  born _ h := h.elim (fun h => by cases h) fun ⟨_, h⟩ => by cases h

theorem pool_of_run {allowed : State → Action → Prop} (run : machine.Reachable allowed initial s) :
    Pool s :=
  run.invariant pool_initial fun _ _ _ _ pool _ hs => pool.step hs

/-- In every run no process is twice in the deque, those in the deque are in the set and in nobody's
hands, no two calls have the same process in their hands, and the deque is in the order of the times
at which its processes became idle. A call that has found a worker, and pruned the others, leaves
none in the deque that has been idle for `WORKER_MAX_IDLE_TIME`. -/
theorem process_exclusive (run : machine.Reachable Machine.anyStep initial s) :
    (s.idleWorkers.map Prod.fst).Nodup ∧
      (∀ p ∈ s.idleWorkers.map Prod.fst, p ∈ s.workers ∧ ∀ c, p ∉ (s.phase c).processes) ∧
      s.idleWorkers.Pairwise (fun x y => x.2 ≤ y.2) ∧
      (∀ c d p, p ∈ (s.phase c).processes → p ∈ (s.phase d).processes → c = d) ∧
      ∀ c cancellable s' r, step s (.enter c cancellable) = some (s', r) → r.exit = none →
        (s'.phase c).processes ≠ [] → ∀ x ∈ s'.idleWorkers, s'.now - x.2 < workerMaxIdleTime := by
  have pool := pool_of_run run
  refine ⟨pool.distinct, fun p hp => ⟨pool.known p hp, fun c hc => pool.free c p hc hp⟩,
    pool.sorted, pool.apart, fun c cancellable s' r hs hexit hfound => ?_⟩
  have hnext := pool.step hs
  obtain ⟨hc, hs⟩ := Option.ite_none_right_eq_some.mp hs
  cases hs
  have hpool : Pool { s with cancellable := Function.update s.cancellable c cancellable } :=
    { pool with }
  have starts := start_starts hpool.distinct hpool.known c
  rw [show (start _ c).2 = none from hexit] at starts
  exact starts.fresh hnext hfound

/-- Two calls at the same time, and the time after which the first of their processes expires. -/
def twoCalls : List Action :=
  [.enter 0 false, .opened 0 none, .greet 0 .ready, .answer 0 .returned, .enter 1 false,
    .opened 1 none, .greet 1 .ready, .answer 1 .returned, .answer 0 .returned, .pass 10,
    .answer 1 .returned, .pass 290]

theorem twoCalls_run : (machine.exec Machine.anyStep initial twoCalls).isSome := by
  decide +kernel

theorem process_exclusive_twoCalls :
    let s := (machine.exec Machine.anyStep initial twoCalls).get twoCalls_run
    s.idleWorkers = [(0, 0), (1, 10)] ∧ (s.idleWorkers.map Prod.fst).Nodup ∧
      (step s (.enter 2 false)).map Prod.snd = some ⟨[0, 1], none⟩ ∧
      ∀ s' r, step s (.enter 2 false) = some (s', r) → r.exit = none →
        (s'.phase 2).processes ≠ [] → ∀ x ∈ s'.idleWorkers, s'.now - x.2 < workerMaxIdleTime := by
  have exclusive := process_exclusive
    (Machine.exec_get_reachable initial twoCalls twoCalls_run)
  exact ⟨by decide +kernel, exclusive.1, by decide +kernel, exclusive.2.2.2.2 2 false⟩

end Anyio.WorkerProcess
