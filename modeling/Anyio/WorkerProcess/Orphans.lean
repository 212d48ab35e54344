import Anyio.WorkerProcess.Pool

/-!
# When worker processes are lost

In the runs in which no call meets one of the exits that lose a process, every
process in the set is in the deque or in the hands of a call that gives it
back, and every running process that was not killed is in the set or being
started.
-/

namespace Anyio.WorkerProcess

open Library

/-- The process in the hands of a call that gives it back. -/
def Phase.working : Phase → List ProcessId
  | .closing p _ => [p]
  | .sending p .run => [p]
  | _ => []

/-- The processes that each call has taken from the deque. -/
abbrev History := CallId → List ProcessId

def record (h : History) (_ : State) (a : Action) (r : Reply) : History :=
  match a with
  | .enter c _ => Function.update h c r.took
  | _ => h

abbrev recorded : Machine (State × History) Action Reply := machine.withHistory record

/-- Where the processes are. -/
structure Owned (s : State) (h : History) : Prop where
  held : ∀ p ∈ s.workers, p ∈ s.idleWorkers.map Prod.fst ∨ ∃ c, p ∈ (s.phase c).working
  counted : ∀ p < s.nextProcess, s.exited p = true ∨ s.killed p = true ∨ p ∈ s.workers ∨
    ∃ c, p ∈ (s.phase c).starting
  taken : ∀ c, s.phase c ≠ .outside → ∀ p ∈ h c, p ∈ s.workers → p ∈ (s.phase c).working
  old : ∀ c, ∀ p ∈ h c, p < s.nextProcess ∧ ∀ d, p ∉ (s.phase d).starting

/-- What a step of a call does with the process in its hands. -/
structure Hands (s s' : State) (c : CallId) : Prop where
  others : ∀ d, d ≠ c → s'.phase d = s.phase d
  idle : ∀ q ∈ s.idleWorkers.map Prod.fst, q ∈ s'.idleWorkers.map Prod.fst
  workers : ∀ q ∈ s'.workers,
    q ∈ s.workers ∨ q ∈ (s.phase c).starting ∧ q ∈ (s'.phase c).working
  working : ∀ q ∈ (s.phase c).working, q ∈ s'.workers →
    q ∈ (s'.phase c).working ∨ s'.phase c = .outside ∧ q ∈ s'.idleWorkers.map Prod.fst
  counted : ∀ q, q ∈ s.workers ∨ q ∈ (s.phase c).starting →
    s'.exited q = true ∨ s'.killed q = true ∨ q ∈ s'.workers ∨ q ∈ (s'.phase c).starting
  exited : ∀ q, s.exited q = true → s'.exited q = true
  killed : ∀ q, s.killed q = true → s'.killed q = true
  starting : ∀ q ∈ (s'.phase c).starting, q ∈ (s.phase c).starting ∨ s.nextProcess ≤ q
  grows : s.nextProcess ≤ s'.nextProcess
  born : ∀ q < s'.nextProcess, q < s.nextProcess ∨ q ∈ (s'.phase c).starting

variable {s s' : State} {h : History} {a : Action} {r : Reply} {c d : CallId} {p q : ProcessId}

theorem Owned.hands (owned : Owned s h) (hc : s.phase c ≠ .outside) (hands : Hands s s' c) :
    Owned s' h where
  held q hq := by
    obtain hold | ⟨-, hworking⟩ := hands.workers q hq
    · obtain hidle | ⟨d, hd⟩ := owned.held q hold
      · exact .inl (hands.idle q hidle)
      · by_cases hdc : d = c
        · subst hdc
          exact (hands.working q hd hq).elim (fun h => .inr ⟨d, h⟩) fun h => .inl h.2
        · exact .inr ⟨d, hands.others d hdc ▸ hd⟩
    · exact .inr ⟨c, hworking⟩
  counted q hq := by
    obtain hlt | hstarting := hands.born q hq
    · have hown : q ∈ s.workers ∨ q ∈ (s.phase c).starting → s'.exited q = true ∨
          s'.killed q = true ∨ q ∈ s'.workers ∨ ∃ d, q ∈ (s'.phase d).starting := fun h =>
        (hands.counted q h).imp_right (.imp_right (.imp_right fun h => ⟨c, h⟩))
      obtain hexited | hkilled | hmem | ⟨d, hd⟩ := owned.counted q hlt
      · exact .inl (hands.exited q hexited)
      · exact .inr (.inl (hands.killed q hkilled))
      · exact hown (.inl hmem)
      · by_cases hdc : d = c
        · exact hown (.inr (hdc ▸ hd))
        · exact .inr (.inr (.inr ⟨d, hands.others d hdc ▸ hd⟩))
    · exact .inr (.inr (.inr ⟨c, hstarting⟩))
  taken d hd q hq hmem := by
    obtain hold | ⟨hstarting, -⟩ := hands.workers q hmem
    · by_cases hdc : d = c
      · subst hdc
        obtain hworking | ⟨hleft, -⟩ := hands.working q (owned.taken d hc q hq hold) hmem
        · exact hworking
        · exact absurd hleft hd
      · rw [hands.others d hdc] at hd ⊢
        exact owned.taken d hd q hq hold
    · exact absurd hstarting ((owned.old d q hq).2 c)
  old d q hq := by
    obtain ⟨hlt, hnot⟩ := owned.old d q hq
    refine ⟨Nat.lt_of_lt_of_le hlt hands.grows, fun e he => ?_⟩
    by_cases hec : e = c
    · subst hec
      obtain hstarting | hge := hands.starting q he
      · exact hnot e hstarting
      · exact absurd hlt (Nat.not_lt.mpr hge)
    · exact hnot e (hands.others e hec ▸ he)

/-- A call that leaves has given back what it took. -/
theorem Owned.gives_back (owned : Owned s h) (hc : s.phase c ≠ .outside) (hands : Hands s s' c)
    (hleft : s'.phase c = .outside) (hq : q ∈ h c) :
    q ∈ s'.idleWorkers.map Prod.fst ∨ q ∉ s'.workers := by
  apply or_iff_not_imp_right.mpr
  intro hmem
  have hmem := not_not.mp hmem
  obtain hold | ⟨hstarting, -⟩ := hands.workers q hmem
  · obtain hworking | ⟨-, hidle⟩ := hands.working q (owned.taken c hc q hq hold) hmem
    · rw [hleft] at hworking
      cases hworking
    · exact hidle
  · exact absurd hstarting ((owned.old c q hq).2 c)

/-- A call moves on and touches nothing. -/
theorem Hands.moveTo {phase : Phase} (hworking : ∀ q ∈ (s.phase c).working, q ∈ phase.working)
    (hkept : ∀ q ∈ (s.phase c).starting, s.exited q = true ∨ q ∈ phase.starting)
    (hstarting : ∀ q ∈ phase.starting, q ∈ (s.phase c).starting) :
    Hands s (moveTo s c phase) c where
  others d hd := moveTo_phase_of_ne s phase hd
  idle _ := id
  workers _ := .inl
  working q hq _ := .inl (by rw [moveTo_phase_self]; exact hworking q hq)
  counted q hq := by
    rw [moveTo_phase_self]
    exact hq.elim (fun hq => .inr (.inr (.inl hq)))
      fun hq => (hkept q hq).imp_right fun h => .inr (.inr h)
  exited _ := id
  killed _ := id
  starting q hq := .inl (hstarting q (by rwa [moveTo_phase_self] at hq))
  grows := Nat.le_refl _
  born _ := .inl

theorem starting_nil_of_working {phase : Phase} (hp : p ∈ phase.starting) :
    phase.working = [] := by
  cases phase with
  | sending _ command =>
      cases command with
      | init => rfl
      | run => cases hp
  | closing => cases hp
  | _ => rfl

theorem eq_of_mem_starting {phase : Phase} (hp : p ∈ phase.starting) (hq : q ∈ phase.starting) :
    p = q := by
  cases phase with
  | greeting => exact (List.mem_singleton.mp hp).trans (List.mem_singleton.mp hq).symm
  | sending _ command =>
      cases command with
      | init => exact (List.mem_singleton.mp hp).trans (List.mem_singleton.mp hq).symm
      | run => cases hp
  | _ => cases hp

/-- The `finally` clause gives back the process of a request. -/
theorem hands_finish {exit : Exit} (hstarting : (s.phase c).starting = [])
    (hworking : ∀ q ∈ (s.phase c).working, q = p) : Hands s (finish s c p exit).1 c := by
  have hphase : (finish s c p exit).1.phase = (moveTo s c .outside).phase := by
    rw [finish]
    split_ifs <;> rfl
  have hidle : p ∈ s.workers → p ∈ (finish s c p exit).1.idleWorkers.map Prod.fst := fun hmem => by
    rw [finish, if_pos hmem]
    simp
  have hsame : ∀ q, q ∈ (finish s c p exit).1.workers ↔ q ∈ s.workers := fun q => by
    rw [finish]
    split_ifs <;> rfl
  refine ⟨fun d hd => ?_, fun q hq => ?_, fun q hq => .inl ((hsame q).mp hq), fun q hq hmem => ?_,
    fun q hq => ?_, fun q hq => ?_, fun q hq => ?_, fun q hq => ?_, ?_, fun q hq => ?_⟩
  · rw [hphase, moveTo_phase_of_ne s _ hd]
  · rw [finish]
    split_ifs
    · rw [List.map_append]
      exact List.mem_append_left _ hq
    · exact hq
  · obtain rfl := hworking q hq
    refine .inr ⟨?_, hidle ((hsame q).mp hmem)⟩
    rw [hphase, moveTo_phase_self]
  · rw [hstarting] at hq
    exact hq.elim (fun hq => .inr (.inr (.inl ((hsame q).mpr hq)))) fun hq => by cases hq
  · rw [finish]
    split_ifs <;> exact hq
  · rw [finish]
    split_ifs <;> exact hq
  · rw [hphase, moveTo_phase_self] at hq
    cases hq
  · rw [finish]
    split_ifs <;> exact Nat.le_refl _
  · rw [finish] at hq
    split_ifs at hq <;> exact .inl hq

/-- A call that discards its process has killed it, unless it has exited. -/
theorem hands_discard {killed : ProcessId → Bool} {phase : Phase} {command : Command}
    (hc : s.phase c = .sending p command) (hp : s.exited p = true ∨ killed p = true)
    (hkilled : ∀ q, s.killed q = true → killed q = true) (hphase : phase.starting = []) :
    Hands s (moveTo { s with workers := s.workers.erase p, killed := killed } c phase) c := by
  have hown : ∀ q ∈ (s.phase c).working ++ (s.phase c).starting, q = p := by
    rw [hc]
    cases command <;> simp [Phase.working, Phase.starting]
  refine ⟨fun d hd => moveTo_phase_of_ne _ _ hd, fun _ => id,
    fun q hq => .inl (Finset.mem_of_mem_erase hq), fun q hq hmem => ?_, fun q hq => ?_, fun _ => id,
    hkilled, fun q hq => ?_, Nat.le_refl _, fun _ => .inl⟩
  · exact absurd (hown q (List.mem_append_left _ hq)) (Finset.mem_erase.mp hmem).1
  · by_cases heq : q = p
    · rw [heq]
      exact hp.imp_right .inl
    · obtain hq | hq := hq
      · exact .inr (.inr (.inl (Finset.mem_erase.mpr ⟨heq, hq⟩)))
      · exact absurd (hown q (List.mem_append_right _ hq)) heq
  · rw [moveTo_phase_self, hphase] at hq
    cases hq

/-- Without the exits that lose a process, every step of a call accounts for the process in its
hands. -/
theorem Works.hands (works : Works s a c s' r) (hkeeps : Keeps s a) : Hands s s' c := by
  cases works with
  | opens hc =>
      have hphase := moveTo_phase_self s c (.greeting s.nextProcess)
      refine ⟨fun d hd => moveTo_phase_of_ne s _ hd, fun _ => id, fun _ => .inl, fun q hq => ?_,
        fun q hq => ?_, fun _ => id, fun _ => id, fun q hq => ?_, Nat.le_succ _, fun q hq => ?_⟩
      · simp [hc, Phase.working] at hq
      · simp only [hc, Phase.starting, List.not_mem_nil, or_false] at hq
        exact .inr (.inr (.inl hq))
      · rw [hphase] at hq
        exact .inr (List.mem_singleton.mp hq).ge
      · obtain hlt | rfl := Nat.lt_succ_iff_lt_or_eq.mp hq
        · exact .inl hlt
        · refine .inr ?_
          change _ ∈ ((moveTo s c (.greeting s.nextProcess)).phase c).starting
          rw [hphase]
          exact List.mem_singleton_self _
  | cannotOpen hc => refine .moveTo ?_ ?_ ?_ <;> simp [hc, Phase.working, Phase.starting]
  | greets hc => refine .moveTo ?_ ?_ ?_ <;> simp [hc, Phase.working, Phase.starting]
  | abandons hc hexited =>
      refine .moveTo (fun q hq => ?_) (fun q hq => .inl ?_) fun _ h => by cases h
      · rw [starting_nil_of_working hc] at hq
        cases hq
      · rw [eq_of_mem_starting hq hc]
        exact hexited hkeeps
  | @kills p hc =>
      have hphase := moveTo_phase_self s c .outside
      refine ⟨fun d hd => moveTo_phase_of_ne s _ hd, fun _ => id, fun _ => .inl, fun q hq => ?_,
        fun q hq => ?_, fun _ => id, fun q hq => update_true hq, fun q hq => ?_, Nat.le_refl _,
        fun _ => .inl⟩
      · rw [starting_nil_of_working hc] at hq
        cases hq
      · obtain hq | hq := hq
        · exact .inr (.inr (.inl hq))
        · rw [eq_of_mem_starting hq hc]
          exact .inr (.inl (Function.update_self ..))
      · rw [hphase] at hq
        cases hq
  | @joins p hc =>
      have hphase := moveTo_phase_self { s with workers := insert p s.workers } c (.sending p .run)
      have hin : p ∈ insert p s.workers := Finset.mem_insert_self p s.workers
      refine ⟨fun d hd => moveTo_phase_of_ne _ _ hd, fun _ => id, fun q hq => ?_, fun q hq => ?_,
        fun q hq => ?_, fun _ => id, fun _ => id, fun q hq => ?_, Nat.le_refl _, fun _ => .inl⟩
      · obtain rfl | hq := Finset.mem_insert.mp hq
        · refine .inr ⟨by simp [hc, Phase.starting], ?_⟩
          rw [hphase]
          exact List.mem_singleton_self q
        · exact .inl hq
      · simp [hc, Phase.working] at hq
      · refine .inr (.inr (.inl ?_))
        obtain hq | hq := hq
        · exact Finset.mem_insert_of_mem hq
        · rw [hc] at hq
          exact List.mem_singleton.mp hq ▸ hin
      · rw [hphase] at hq
        cases hq
  | ends hc => exact hands_finish (by rw [hc]; rfl) (by simp [hc, Phase.working])
  | discards hc =>
      exact hands_discard hc (.inr (Function.update_self ..)) (fun _ => update_true) rfl
  | drops hc hexited => exact hands_discard hc (.inl hexited) (fun _ => id) rfl
  | discarded hc => refine .moveTo ?_ ?_ ?_ <;> simp [hc, Phase.working, Phase.starting]
  | discardedRun hc => exact hands_finish (by rw [hc]; rfl) (by simp [hc, Phase.working])
  | closes hc => refine .moveTo ?_ ?_ ?_ <;> simp [hc, Phase.working, Phase.starting]
  | closesLast hc => refine .moveTo ?_ ?_ ?_ <;> simp [hc, Phase.working, Phase.starting]

/-- A call takes processes out of the deque: into its hands, or out of the set. -/
theorem Owned.took (owned : Owned s h) (pool : Pool s) (hc : s.phase c = .outside)
    {rest : List (ProcessId × Rat)} {workers : Finset ProcessId} {killed : ProcessId → Bool}
    {out dropped : List ProcessId} {found : Option ProcessId} {phase : Phase}
    (took : Took s rest workers killed out found dropped)
    (hout : ∀ q ∈ out, killed q = true ∧ q ∉ workers) (hstarting : phase.starting = [])
    (hfound : ∀ q ∈ found, q ∈ phase.working) :
    let s' := moveTo (s.after rest workers killed) c phase
    Owned s' (Function.update h c (WorkerProcess.taken s s')) := by
  intro s'
  obtain ⟨front, back, hsplit, hfront, hback⟩ := took.split
  have hself : s'.phase c = phase := moveTo_phase_self _ c phase
  have hothers : ∀ d, d ≠ c → s'.phase d = s.phase d := fun d hd => moveTo_phase_of_ne _ _ hd
  have hidle : ∀ q ∈ workers, q ∈ s.idleWorkers.map Prod.fst →
      q ∈ rest.map Prod.fst ∨ q ∈ phase.working := by
    intro q hq hmem
    rw [hsplit, List.map_append, List.map_append, hfront, hback] at hmem
    simp only [List.mem_append, Option.mem_toList] at hmem
    obtain (hq' | hq') | hq' | hq' := hmem
    · exact absurd hq (hout q hq').2
    · exact .inl hq'
    · exact .inr (hfound q hq')
    · exact absurd hq' (took.within q hq).2
  have hstarts : ∀ d q, q ∈ (s.phase d).starting → d ≠ c := by
    rintro d q hq rfl
    rw [hc] at hq
    cases hq
  refine ⟨fun q hq => ?_, fun q hq => ?_, fun d hd q hq hmem => ?_, fun d q hq => ?_⟩
  · obtain hmem | ⟨d, hd⟩ := owned.held q (took.within q hq).1
    · exact (hidle q hq hmem).imp_right fun h => ⟨c, hself ▸ h⟩
    · have hdc : d ≠ c := by
        rintro rfl
        rw [hc] at hd
        cases hd
      exact .inr ⟨d, hothers d hdc ▸ hd⟩
  · obtain hexited | hkilled | hmem | ⟨d, hd⟩ := owned.counted q hq
    · exact .inl hexited
    · exact .inr (.inl (took.kills q hkilled))
    · by_cases hdropped : q ∈ dropped
      · exact .inl (took.exited q hdropped)
      by_cases hpruned : q ∈ out
      · exact .inr (.inl (hout q hpruned).1)
      · exact .inr (.inr (.inl (took.kept q hmem hdropped hpruned)))
    · exact .inr (.inr (.inr ⟨d, hothers d (hstarts d q hd) ▸ hd⟩))
  · by_cases hdc : d = c
    · subst hdc
      rw [Function.update_self] at hq
      obtain ⟨hidle', hnot⟩ := List.mem_filter.mp hq
      rw [hself]
      exact (hidle q hmem hidle').resolve_left (of_decide_eq_true hnot)
    · rw [Function.update_of_ne hdc] at hq
      rw [hothers d hdc] at hd ⊢
      exact owned.taken d hd q hq (took.within q hmem).1
  · have hnot : ∀ e, e = c → q ∉ (s'.phase e).starting := by
      rintro e rfl hmem
      rw [hself, hstarting] at hmem
      cases hmem
    by_cases hdc : d = c
    · subst hdc
      rw [Function.update_self] at hq
      obtain ⟨hmem, -⟩ := List.mem_filter.mp hq
      refine ⟨pool.born q (.inl (pool.known q hmem)), fun e he => ?_⟩
      by_cases hed : e = d
      · exact hnot e hed he
      · rw [hothers e hed] at he
        exact pool.free e q (Phase.processes_of_starting he) hmem
    · rw [Function.update_of_ne hdc] at hq
      refine ⟨(owned.old d q hq).1, fun e he => ?_⟩
      by_cases hec : e = c
      · exact hnot e hec he
      · exact (owned.old d q hq).2 e (hothers e hec ▸ he)

theorem Owned.start (owned : Owned s h) (pool : Pool s) (hc : s.phase c = .outside)
    {exit : Option Exit} (starts : Starts s c s' exit)
    (hkeeps : ∀ cancellable, Keeps s (.enter c cancellable)) :
    Owned s' (Function.update h c (WorkerProcess.taken s s')) ∧ exit = none := by
  cases starts with
  | opens took =>
      refine ⟨owned.took pool hc took (fun q hq => ?_) rfl fun q hq => ?_, rfl⟩
      · cases hq
      · cases hq
  | fails _ hnot => exact absurd (hkeeps false) (hnot false)
  | finds took hout _ hphase =>
      refine ⟨owned.took pool hc took hout ?_ fun q hq => ?_, rfl⟩
      · rw [hphase]
        split_ifs <;> rfl
      · rw [hphase, ← Option.some.inj hq]
        split_ifs <;> exact List.mem_singleton_self _

/-- A call that takes one of the later steps is inside of its block. -/
theorem Works.inside (works : Works s a c s' r) : s.phase c ≠ .outside := by
  intro hc
  cases works <;> simp_all [Phase.starting]

theorem Works.leaves (works : Works s a c s' r) (hr : r.exit ≠ none) : s'.phase c = .outside := by
  have hfinish : ∀ p exit, (finish s c p exit).1.phase c = .outside := by
    intro p exit
    rw [finish]
    split_ifs <;> exact moveTo_phase_self s c .outside
  cases works with
  | cannotOpen => exact moveTo_phase_self ..
  | abandons => exact moveTo_phase_self ..
  | kills => exact moveTo_phase_self s c .outside
  | ends => exact hfinish _ _
  | drops => exact moveTo_phase_self ..
  | discarded => exact moveTo_phase_self ..
  | discardedRun => exact hfinish _ _
  | _ => exact absurd rfl hr

/-- A step that meets none of the exits that lose a process keeps the account, and a call that
leaves in it gives back what it took. -/
theorem Owned.step (owned : Owned s h) (pool : Pool s) (hkeeps : Keeps s a)
    (hs : step s a = some (s', r)) :
    Owned s' (record h s a r) ∧ ∀ c, a.call = some c → r.exit ≠ none →
      ∀ p ∈ record h s a r c, p ∈ s'.idleWorkers.map Prod.fst ∨ p ∉ s'.workers := by
  cases step_steps hs with
  | @enters c cancellable hc =>
      have hpool : Pool { s with cancellable := Function.update s.cancellable c cancellable } :=
        { pool with }
      have howned : Owned { s with cancellable := Function.update s.cancellable c cancellable } h :=
        { owned with }
      have hstart := howned.start hpool hc (start_starts hpool.distinct hpool.known c)
        fun _ => hkeeps
      exact ⟨hstart.1, fun _ _ hr => absurd hstart.2 hr⟩
  | @works a c s' r ha works =>
      have hinside := works.inside
      have hands := works.hands hkeeps
      have hrecord : record h s a r = h := by
        cases a with
        | enter d cancellable =>
            cases ha
            exact absurd (Option.ite_none_right_eq_some.mp hs).1 hinside
        | _ => rfl
      rw [hrecord]
      refine ⟨owned.hands hinside hands, fun d hd hr p hp => ?_⟩
      obtain rfl := Option.some.inj (ha.symm.trans hd)
      exact owned.gives_back hinside hands (works.leaves hr) hp
  | exits =>
      refine ⟨{ owned with counted := fun q hq => ?_ }, fun _ h => by cases h⟩
      exact (owned.counted q hq).imp_left update_true
  | passes hpos => exact ⟨{ owned with }, fun _ h => by cases h⟩

theorem owned_initial : Owned initial fun _ => [] where
  held _ h := by cases h
  counted _ h := by cases h
  taken _ _ _ h := by cases h
  old _ _ h := by cases h

/-- In every run in which no call meets one of the exits that lose a process, every process that has
not exited was killed or is in the set and in the deque whenever no call is running, and each
process that a call took is back in the deque or out of the set when the call leaves. -/
theorem no_process_lost
    (run : recorded.Reachable (fun p a => Keeps p.1 a) (initial, fun _ => []) (s, h)) :
    ((∀ c, s.phase c = .outside) → ∀ p < s.nextProcess, s.exited p = false →
      s.killed p = true ∨ p ∈ s.workers ∧ p ∈ s.idleWorkers.map Prod.fst) ∧
      ∀ a s' r c, Keeps s a → step s a = some (s', r) → a.call = some c → r.exit ≠ none →
        ∀ p ∈ record h s a r c, p ∈ s'.idleWorkers.map Prod.fst ∨ p ∉ s'.workers := by
  have kept : machine.Reachable Keeps initial s := run.forget fun _ _ => id
  have pool : Pool s := pool_of_run kept
  have owned : Owned s h := by
    refine (run.invariant (I := fun p => Pool p.1 ∧ Owned p.1 p.2)
      ⟨pool_initial, owned_initial⟩ ?_).2
    rintro ⟨s, h⟩ a ⟨s', h'⟩ r ⟨pool, owned⟩ hkeeps hs
    obtain ⟨hstep, rfl⟩ := Machine.withHistory_step.mp hs
    exact ⟨pool.step hstep, (owned.step pool hkeeps hstep).1⟩
  refine ⟨fun houtside p hp hexited => ?_, fun a s' r c hkeeps hs => ?_⟩
  · obtain hyes | hkilled | hmem | ⟨c, hc⟩ := owned.counted p hp
    · rw [hexited] at hyes
      cases hyes
    · exact .inl hkilled
    · refine .inr ⟨hmem, (owned.held p hmem).resolve_right ?_⟩
      rintro ⟨c, hc⟩
      rw [houtside c] at hc
      cases hc
    · rw [houtside c] at hc
      cases hc
  · exact (owned.step pool hkeeps hs).2 c

/-- A request is cancelled, and its process has died. -/
def cancelledRequest : List Action :=
  [.enter 0 true, .opened 0 none, .greet 0 .ready, .answer 0 .returned, .answer 0 .returned,
    .enter 0 true, .answer 0 .cancelled, .exit 0]

theorem cancelledRequest_run :
    (recorded.exec (fun p a => Keeps p.1 a) (initial, fun _ => []) cancelledRequest).isSome := by
  decide +kernel

theorem no_process_lost_cancelledRequest :
    let p := (recorded.exec (fun p a => Keeps p.1 a) (initial, fun _ => []) cancelledRequest).get
      cancelledRequest_run
    p.2 0 = [0] ∧
      (step p.1 (.close 0)).map Prod.snd = some ⟨[], some (.raised .cancelled)⟩ ∧
      ∀ s' r, step p.1 (.close 0) = some (s', r) → r.exit ≠ none →
        ∀ q ∈ p.2 0, q ∈ s'.idleWorkers.map Prod.fst ∨ q ∉ s'.workers := by
  have kept := no_process_lost
    (Machine.exec_get_reachable (initial, fun _ => []) cancelledRequest cancelledRequest_run)
  exact ⟨by decide +kernel, by decide +kernel,
    fun s' r hs => kept.2 (.close 0) s' r 0 trivial hs rfl⟩

/-- A call is cancelled while it waits for `READY`. -/
def cancelledGreeting : List Action :=
  [.enter 0 true, .opened 0 none, .greet 0 .cancelled]

theorem cancelledGreeting_run :
    (recorded.exec Machine.anyStep (initial, fun _ => []) cancelledGreeting).isSome := by
  decide +kernel

/-- An expired worker has exited when the next call prunes it. -/
def exitedWorker : List Action :=
  [.enter 0 true, .opened 0 none, .greet 0 .ready, .answer 0 .returned, .enter 1 true,
    .opened 1 none, .greet 1 .ready, .answer 1 .returned, .answer 0 .returned, .answer 1 .returned,
    .exit 0, .pass 300]

theorem exitedWorker_run :
    (recorded.exec Machine.anyStep (initial, fun _ => []) exitedWorker).isSome := by
  decide +kernel

/-- A process whose greeting was cancelled runs on without an owner. A call that prunes a worker
which has exited leaves with `ProcessLookupError`, and the worker that it had found is in the set
and not in the deque. -/
theorem process_lost :
    let s := (recorded.exec Machine.anyStep (initial, fun _ => []) cancelledGreeting).get
      cancelledGreeting_run
    let t := (recorded.exec Machine.anyStep (initial, fun _ => []) exitedWorker).get
      exitedWorker_run
    (recorded.Reachable Machine.anyStep (initial, fun _ => []) s ∧
      (∀ c, s.1.phase c = .outside) ∧ 0 < s.1.nextProcess ∧ s.1.exited 0 = false ∧
      s.1.killed 0 = false ∧ 0 ∉ s.1.workers) ∧
    recorded.Reachable Machine.anyStep (initial, fun _ => []) t ∧
    ∃ t' r, step t.1 (.enter 2 true) = some (t', r) ∧
      r.exit = some (.raised .processLookupError) ∧ 1 ∈ r.took ∧ t'.exited 1 = false ∧
      1 ∈ t'.workers ∧ 1 ∉ t'.idleWorkers.map Prod.fst := by
  intro s t
  constructor
  · have hphase : s.1.phase =
        Function.update (Function.update (Function.update (fun _ => .outside) 0 .opening) 0
          (.greeting 0)) 0 .outside := rfl
    refine ⟨Machine.exec_get_reachable _ _ cancelledGreeting_run, fun c => ?_, by decide +kernel,
      by decide +kernel, by decide +kernel, by decide +kernel⟩
    rw [hphase]
    by_cases hc : c = 0
    · rw [hc, Function.update_self]
    · simp [hc]
  · refine ⟨Machine.exec_get_reachable _ _ exitedWorker_run, _, _, rfl, ?_, ?_, ?_, ?_, ?_⟩
    · decide +kernel
    · decide +kernel
    · decide +kernel
    · decide +kernel
    · decide +kernel

end Anyio.WorkerProcess
