import Anyio.WorkerProcess.Model
import Mathlib.Data.List.Nodup
import Mathlib.Logic.Function.Basic
import Mathlib.Tactic.Linarith

/-!
# The steps of `run_sync()`

What every step of a call and both of its loops can do, and the exits on which
a process gets lost.
-/

namespace Anyio.WorkerProcess

open Library

/-- The processes that a call talks to or closes. -/
def Phase.processes : Phase → List ProcessId
  | .outside => []
  | .closing p killed => p :: killed
  | .opening => []
  | .greeting p => [p]
  | .sending p _ => [p]
  | .discarding p _ _ => [p]

/-- The process that a call is starting up. -/
def Phase.starting : Phase → List ProcessId
  | .greeting p => [p]
  | .sending p .init => [p]
  | _ => []

theorem Phase.processes_of_starting {phase : Phase} {p : ProcessId} (hp : p ∈ phase.starting) :
    p ∈ phase.processes := by
  cases phase with
  | greeting => exact hp
  | sending _ command =>
      cases command with
      | init => exact hp
      | run => cases hp
  | _ => cases hp

/-- A step in which no call meets one of the exits that lose a process: pruning an expired worker
that has exited, and a start-up of a running process that ends with a cancellation, an unexpected
greeting, or an exception of one of these types as the answer. -/
def Keeps (s : State) : Action → Prop
  | .enter _ _ => s.idleWorkers.Pairwise fun x y =>
      workerMaxIdleTime ≤ s.now - x.2 → s.exited x.1 = true → s.exited y.1 = true
  | .greet c .unexpected => ∀ p ∈ (s.phase c).starting, s.exited p = true
  | .greet c .cancelled => ∀ p ∈ (s.phase c).starting, s.exited p = true
  | .answer c (.raised failure) =>
      passes failure = true → ∀ p ∈ (s.phase c).starting, s.exited p = true
  | _ => True

instance (s : State) : (a : Action) → Decidable (Keeps s a)
  | .enter _ _ => inferInstanceAs (Decidable (List.Pairwise _ _))
  | .opened _ _ => .isTrue trivial
  | .greet _ .ready => .isTrue trivial
  | .greet c .unexpected => inferInstanceAs (Decidable (∀ p ∈ (s.phase c).starting, _))
  | .greet _ .failed => .isTrue trivial
  | .greet c .cancelled => inferInstanceAs (Decidable (∀ p ∈ (s.phase c).starting, _))
  | .answer _ .returned => .isTrue trivial
  | .answer _ (.raised failure) => inferInstanceAs (Decidable (passes failure = true → _))
  | .answer _ .failed => .isTrue trivial
  | .answer _ .cancelled => .isTrue trivial
  | .close _ => .isTrue trivial
  | .exit _ => .isTrue trivial
  | .pass _ => .isTrue trivial

/-- The steps of a call after its first await. -/
inductive Works (s : State) (a : Action) (c : CallId) : State → Reply → Prop
  | opens (hc : s.phase c = .opening) :
      Works s a c { moveTo s c (.greeting s.nextProcess) with nextProcess := s.nextProcess + 1 }
        going
  | cannotOpen {failure} (hc : s.phase c = .opening) :
      Works s a c (moveTo s c .outside) (left (.raised failure))
  | greets {p} (hc : s.phase c = .greeting p) :
      Works s a c (moveTo s c (.sending p .init)) going
  | abandons {p failure} (hc : p ∈ (s.phase c).starting) (hexited : Keeps s a → s.exited p = true) :
      Works s a c (moveTo s c .outside) (left (.raised failure))
  | kills {p} (hc : p ∈ (s.phase c).starting) :
      Works s a c { moveTo s c .outside with killed := Function.update s.killed p true }
        (left (.raised .brokenWorkerProcess))
  | joins {p} (hc : s.phase c = .sending p .init) :
      Works s a c (moveTo { s with workers := insert p s.workers } c (.sending p .run)) going
  | ends {p exit} (hc : s.phase c = .sending p .run) :
      Works s a c (finish s c p exit).1 (left exit)
  | discards {p command cancelled} (hc : s.phase c = .sending p command) :
      Works s a c (moveTo { s with
        workers := s.workers.erase p
        killed := Function.update s.killed p true } c (.discarding p command cancelled)) going
  | drops {p command failure} (hc : s.phase c = .sending p command) (hexited : s.exited p = true) :
      Works s a c (moveTo { s with workers := s.workers.erase p } c .outside)
        (left (.raised failure))
  | discarded {p cancelled failure} (hc : s.phase c = .discarding p .init cancelled) :
      Works s a c (moveTo s c .outside) (left (.raised failure))
  | discardedRun {p cancelled exit} (hc : s.phase c = .discarding p .run cancelled) :
      Works s a c (finish s c p exit).1 (left exit)
  | closes {p k rest} (hc : s.phase c = .closing p (k :: rest)) :
      Works s a c (moveTo s c (.closing p rest)) going
  | closesLast {p k} (hc : s.phase c = .closing p [k]) :
      Works s a c (moveTo s c (.sending p .run)) going

/-- The call that takes a step. -/
def Action.call : Action → Option CallId
  | .enter c _ => some c
  | .opened c _ => some c
  | .greet c _ => some c
  | .answer c _ => some c
  | .close c => some c
  | .exit _ => none
  | .pass _ => none

/-- What a step of the machine is. -/
inductive Steps (s : State) : Action → State → Reply → Prop
  | enters {c cancellable} (hc : s.phase c = .outside) :
      Steps s (.enter c cancellable) (enter s c cancellable).1 (enter s c cancellable).2
  | works {a c s' r} (ha : a.call = some c) (works : Works s a c s' r) : Steps s a s' r
  | exits {p} (hp : p < s.nextProcess) :
      Steps s (.exit p) { s with exited := Function.update s.exited p true } going
  | passes {seconds} (hpos : 0 ≤ seconds) :
      Steps s (.pass seconds) { s with now := s.now + seconds } going

variable {s s' : State} {a : Action} {r : Reply} {c d : CallId} {p q : ProcessId}

theorem kill_of_exited (hp : s.exited p = true) : kill s p = none :=
  if_pos hp

theorem kill_of_not_exited (hp : s.exited p = false) :
    kill s p = some { s with killed := Function.update s.killed p true } :=
  if_neg (Bool.eq_false_iff.mp hp)

/-- A process that was killed, or that has exited, stays so. -/
theorem update_true {f : ProcessId → Bool} (hq : f q = true) :
    Function.update f p true q = true := by
  by_cases heq : q = p
  · rw [heq]
    exact Function.update_self ..
  · exact (Function.update_of_ne heq ..).trans hq

theorem passes_handled (cancelled : Bool) : passes (handled cancelled) = true := by
  cases cancelled <;> rfl

theorem finish_snd (s : State) (c : CallId) (p : ProcessId) (exit : Exit) :
    (finish s c p exit).2 = left exit := by
  rw [finish]
  split_ifs <;> rfl

/-- The start-up fails: the call leaves without the process, or kills it. -/
theorem startUpFails_works {f : Failure} (hc : p ∈ (s.phase c).starting)
    (hpass : Keeps s a → passes f = true → s.exited p = true)
    (hs : startUpFails s c p f = (s', r)) : Works s a c s' r := by
  rw [startUpFails] at hs
  cases hf : passes f with
  | true =>
      rw [hf] at hs
      cases hs
      exact .abandons hc fun hkeeps => hpass hkeeps hf
  | false =>
      rw [hf] at hs
      cases hexited : s.exited p with
      | true =>
          simp only [Bool.false_eq_true, if_false,
            kill_of_exited (s := moveTo s c .outside) hexited]
            at hs
          cases hs
          exact .abandons hc fun _ => hexited
      | false =>
          simp only [Bool.false_eq_true, if_false,
            kill_of_not_exited (s := moveTo s c .outside) hexited] at hs
          cases hs
          exact .kills hc

/-- An exchange ends with an error in its `try` block. -/
theorem discard_works {command : Command} {cancelled : Bool}
    (hc : s.phase c = .sending p command) (hs : discard s c p command cancelled = (s', r)) :
    Works s a c s' r := by
  rw [discard] at hs
  cases hexited : s.exited p with
  | false =>
      simp only [kill_of_not_exited (s := { s with workers := s.workers.erase p }) hexited] at hs
      cases hs
      exact .discards hc
  | true =>
      simp only [kill_of_exited (s := { s with workers := s.workers.erase p }) hexited] at hs
      cases command with
      | init =>
          rw [raises, startUpFails, if_pos (passes_handled cancelled)] at hs
          cases hs
          exact .drops hc hexited
      | run =>
          rw [raises, finish, if_neg (Finset.notMem_erase p s.workers)] at hs
          cases hs
          exact .drops hc hexited

theorem greeted_works {greeting : Greeting} (hc : s.phase c = .greeting p)
    (hs : greeted s c p greeting = (s', r)) : Works s (.greet c greeting) c s' r := by
  have hstarting : p ∈ (s.phase c).starting := hc ▸ List.mem_singleton_self p
  cases greeting with
  | ready =>
      cases hs
      exact .greets hc
  | unexpected =>
      exact startUpFails_works (f := .brokenWorkerProcess) hstarting
        (fun hkeeps _ => hkeeps p hstarting) hs
  | failed =>
      exact startUpFails_works (f := .other) hstarting (fun _ hf => by cases hf) hs
  | cancelled =>
      exact startUpFails_works (f := .cancelled) hstarting
        (fun hkeeps _ => hkeeps p hstarting) hs

theorem answered_works {command : Command} {answer : Answer} (hc : s.phase c = .sending p command)
    (hs : answered s c p command answer = (s', r)) : Works s (.answer c answer) c s' r := by
  cases answer with
  | returned =>
      cases command with
      | init =>
          cases hs
          exact .joins hc
      | run =>
          obtain ⟨rfl, hr⟩ := Prod.ext_iff.mp hs
          rw [show r = left .returned from hr.symm.trans (finish_snd ..)]
          exact .ends hc
  | raised failure =>
      cases command with
      | init =>
          have hstarting : p ∈ (s.phase c).starting := hc ▸ List.mem_singleton_self p
          exact startUpFails_works hstarting (fun hkeeps hf => hkeeps hf p hstarting) hs
      | run =>
          obtain ⟨rfl, hr⟩ := Prod.ext_iff.mp hs
          rw [show r = left (.raised failure) from hr.symm.trans (finish_snd ..)]
          exact .ends hc
  | failed => exact discard_works hc hs
  | cancelled => exact discard_works hc hs

theorem closed_works (hs : closed s c = some (s', r)) : Works s a c s' r := by
  rw [closed] at hs
  split at hs
  · next p k hc =>
      obtain ⟨-, hs⟩ := Option.ite_none_right_eq_some.mp hs
      cases hs
      exact .closesLast hc
  · next p k rest _ hc =>
      obtain ⟨-, hs⟩ := Option.ite_none_right_eq_some.mp hs
      cases hs
      exact .closes hc
  · next p command cancelled hc =>
      obtain ⟨-, hs⟩ := Option.ite_none_right_eq_some.mp hs
      cases command with
      | init =>
          rw [raises, startUpFails, if_pos (passes_handled cancelled)] at hs
          cases hs
          exact .discarded hc
      | run =>
          obtain ⟨rfl, hr⟩ := Prod.ext_iff.mp (Option.some.inj hs)
          rw [show r = left (.raised (handled cancelled)) from hr.symm.trans (finish_snd ..)]
          exact .discardedRun hc
  · cases hs

theorem step_steps (hs : step s a = some (s', r)) : Steps s a s' r := by
  cases a with
  | enter c cancellable =>
      obtain ⟨hc, hs⟩ := Option.ite_none_right_eq_some.mp hs
      cases hs
      exact .enters hc
  | opened c failure =>
      cases hc : s.phase c with
      | opening =>
          cases failure with
          | none =>
              simp only [step, hc] at hs
              cases hs
              exact .works rfl (.opens hc)
          | some failure =>
              simp only [step, hc] at hs
              cases hs
              exact .works rfl (.cannotOpen hc)
      | _ => simp [step, hc] at hs
  | greet c greeting =>
      rw [step] at hs
      split at hs
      · next p hc => exact .works rfl (greeted_works hc (Option.some.inj hs))
      · cases hs
  | answer c answer =>
      rw [step] at hs
      split at hs
      · next p command hc =>
          obtain ⟨-, hs⟩ := Option.ite_none_left_eq_some.mp hs
          exact .works rfl (answered_works hc (Option.some.inj hs))
      · cases hs
  | close c => exact .works rfl (closed_works hs)
  | exit p =>
      obtain ⟨⟨hp, -⟩, hs⟩ := Option.ite_none_right_eq_some.mp hs
      cases hs
      exact .exits hp
  | pass seconds =>
      obtain ⟨hpos, hs⟩ := Option.ite_none_right_eq_some.mp hs
      cases hs
      exact .passes hpos

@[simp] theorem moveTo_phase_self (s : State) (c : CallId) (phase : Phase) :
    (moveTo s c phase).phase c = phase :=
  Function.update_self ..

@[simp] theorem moveTo_phase_of_ne (s : State) (phase : Phase) (hd : d ≠ c) :
    (moveTo s c phase).phase d = s.phase d :=
  Function.update_of_ne hd ..

/-- What the first loop leaves of the deque and the set: it has dropped workers that have exited,
and found one that has not, or none. -/
structure Popped (s : State) (deque : List (ProcessId × Rat)) (workers : Finset ProcessId)
    (found : Option ProcessId) (dropped : List ProcessId) : Prop where
  split : ∃ back, s.idleWorkers = deque ++ back ∧ back.map Prod.fst = found.toList ++ dropped
  workers : ∀ q, q ∈ workers ↔ q ∈ s.workers ∧ q ∉ dropped
  running : ∀ p ∈ found, s.exited p = false
  exited : ∀ q ∈ dropped, s.exited q = true
  empty : found = none → deque = []

/-- There was no worker in the deque. -/
theorem Popped.nothing (hnil : s.idleWorkers = []) :
    Popped s s.idleWorkers s.workers none [] where
  split := ⟨[], (List.append_nil _).symm, rfl⟩
  workers _ := ⟨fun h => ⟨h, List.not_mem_nil⟩, And.left⟩
  running _ h := by cases h
  exited _ h := by cases h
  empty _ := hnil

theorem popWorker_popped (n : Nat) (s : State) (hn : s.idleWorkers.length ≤ n)
    (hdistinct : (s.idleWorkers.map Prod.fst).Nodup)
    (hknown : ∀ p ∈ s.idleWorkers.map Prod.fst, p ∈ s.workers) :
    ∃ deque workers found dropped,
      popWorker n s = ({ s with idleWorkers := deque, workers := workers }, .ok found) ∧
        Popped s deque workers found dropped := by
  induction n generalizing s with
  | zero =>
      have hnil : s.idleWorkers = [] := List.length_eq_zero_iff.mp (Nat.le_zero.mp hn)
      exact ⟨s.idleWorkers, s.workers, none, [], rfl, .nothing hnil⟩
  | succ n ih =>
      cases hlast : s.idleWorkers.getLast? with
      | none =>
          have hnil : s.idleWorkers = [] := List.getLast?_eq_none_iff.mp hlast
          refine ⟨s.idleWorkers, s.workers, none, [], ?_, .nothing hnil⟩
          simp only [popWorker, hlast]
      | some x =>
          obtain ⟨p, since⟩ := x
          have hsplit := List.dropLast_append_getLast? (p, since) hlast
          have hmap : s.idleWorkers.map Prod.fst = s.idleWorkers.dropLast.map Prod.fst ++ [p] := by
            rw [← List.map_singleton (f := Prod.fst) (a := (p, since)), ← List.map_append, hsplit]
          have hmem : p ∈ s.workers := hknown p
            (hmap ▸ List.mem_append_right _ (List.mem_singleton_self p))
          cases hexited : s.exited p with
          | false =>
              refine ⟨s.idleWorkers.dropLast, s.workers, some p, [], ?_,
                ⟨⟨[(p, since)], hsplit.symm, rfl⟩, ?_, ?_, ?_, ?_⟩⟩
              · simp only [popWorker, hlast, hexited]
                rfl
              · simp
              · exact fun q hq => Option.some.inj hq ▸ hexited
              · exact fun _ h => by cases h
              · exact fun h => by cases h
          | true =>
              rw [hmap, List.nodup_append] at hdistinct
              obtain ⟨hdistinct, -, hne⟩ := hdistinct
              obtain ⟨deque, workers, found, dropped, heq, popped⟩ := ih
                { s with idleWorkers := s.idleWorkers.dropLast, workers := s.workers.erase p }
                (by simp; omega) hdistinct
                fun q hq => Finset.mem_erase.mpr
                  ⟨hne q hq p (List.mem_singleton_self p),
                    hknown q (hmap ▸ List.mem_append_left _ hq)⟩
              obtain ⟨back, hback, hdropped⟩ := popped.split
              refine ⟨deque, workers, found, dropped ++ [p], ?_,
                ⟨⟨back ++ [(p, since)], ?_, ?_⟩, fun q => ?_, popped.running, fun q hq => ?_,
                  popped.empty⟩⟩
              · simp only [popWorker, hlast, hexited, remove, hmem, if_true]
                exact heq
              · rw [← hsplit, ← List.append_assoc, ← hback]
              · simp [hdropped]
              · rw [popped.workers q, Finset.mem_erase, List.mem_append, List.mem_singleton]
                tauto
              · exact (List.mem_append.mp hq).elim (popped.exited q)
                  fun h => List.mem_singleton.mp h ▸ hexited

/-- What the second loop leaves of the deque and the set, and the processes that it has killed. -/
structure Pruned (s : State) (deque rest : List (ProcessId × Rat)) (workers : Finset ProcessId)
    (killed : ProcessId → Bool) (out : List ProcessId) : Prop where
  split : ∃ front, deque = front ++ rest ∧ front.map Prod.fst = out
  within : ∀ q ∈ workers, q ∈ s.workers
  kept : ∀ q ∈ s.workers, q ∉ out → q ∈ workers
  kills : ∀ q, s.killed q = true → killed q = true

/-- The second loop ends at a worker that has not been idle for too long, or fails at one that has
exited. -/
theorem prune_pruned (deque : List (ProcessId × Rat)) (ks : List ProcessId) (s : State)
    (hdistinct : (deque.map Prod.fst).Nodup)
    (hknown : ∀ p ∈ deque.map Prod.fst, p ∈ s.workers) :
    ∃ rest workers killed out, Pruned s deque rest workers killed out ∧
      (prune deque ks s = ({ s with idleWorkers := rest, workers := workers, killed := killed },
          .ok (ks ++ out)) ∧
        (∀ q ∈ out, killed q = true ∧ q ∉ workers) ∧
        (∀ x ∈ rest.head?, s.now - x.2 < workerMaxIdleTime) ∨
      prune deque ks s = ({ s with idleWorkers := rest, workers := workers, killed := killed },
          .error .processLookupError) ∧
        ∃ x ∈ deque, workerMaxIdleTime ≤ s.now - x.2 ∧ s.exited x.1 = true) := by
  induction deque generalizing ks s with
  | nil =>
      refine ⟨[], s.workers, s.killed, [], ⟨⟨[], rfl, rfl⟩, fun _ => id, fun _ h _ => h,
        fun _ => id⟩, .inl ⟨?_, fun _ h => ?_, fun _ h => ?_⟩⟩
      · rw [prune, List.append_nil]
      · cases h
      · cases h
  | cons x deque ih =>
      obtain ⟨p, since⟩ := x
      rw [List.map_cons, List.nodup_cons] at hdistinct
      obtain ⟨hp, hdistinct⟩ := hdistinct
      have hmem : p ∈ s.workers := hknown p List.mem_cons_self
      by_cases hfresh : s.now - since < workerMaxIdleTime
      · refine ⟨(p, since) :: deque, s.workers, s.killed, [], ⟨⟨[], rfl, rfl⟩, fun _ => id,
          fun _ h _ => h, fun _ => id⟩, .inl ⟨?_, fun _ h => ?_, fun y hy => ?_⟩⟩
        · rw [prune, if_pos hfresh, List.append_nil]
        · cases h
        · exact Option.some.inj hy ▸ hfresh
      cases hexited : s.exited p with
      | true =>
          refine ⟨deque, s.workers, s.killed, [p], ⟨⟨[(p, since)], rfl, rfl⟩, fun _ => id,
            fun _ h _ => h, fun _ => id⟩, .inr ⟨?_, (p, since), List.mem_cons_self,
            not_lt.mp hfresh, hexited⟩⟩
          rw [prune, if_neg hfresh]
          simp only [kill_of_exited (s := { s with idleWorkers := deque }) hexited]
      | false =>
          obtain ⟨rest, workers, killed, out, pruned, hresult⟩ := ih (ks ++ [p])
            { s with
              idleWorkers := deque
              killed := Function.update s.killed p true
              workers := s.workers.erase p } hdistinct
            fun q hq => Finset.mem_erase.mpr
              ⟨fun heq => hp (heq ▸ hq), hknown q (List.mem_cons_of_mem p hq)⟩
          have hprune : prune ((p, since) :: deque) ks s = prune deque (ks ++ [p])
              { s with
                idleWorkers := deque
                killed := Function.update s.killed p true
                workers := s.workers.erase p } := by
            rw [prune, if_neg hfresh]
            simp only [kill_of_not_exited (s := { s with idleWorkers := deque }) hexited, remove,
              hmem, if_true]
          obtain ⟨front, hfront, hout⟩ := pruned.split
          have hkilled : killed p = true := pruned.kills p (Function.update_self ..)
          have hgone : p ∉ workers := fun h => (Finset.mem_erase.mp (pruned.within p h)).1 rfl
          refine ⟨rest, workers, killed, p :: out, ⟨⟨(p, since) :: front, ?_, ?_⟩, fun q hq => ?_,
            fun q hq hnot => ?_, fun q hq => ?_⟩, ?_⟩
          · rw [hfront, List.cons_append]
          · rw [List.map_cons, hout]
          · exact Finset.mem_of_mem_erase (pruned.within q hq)
          · rw [List.mem_cons, not_or] at hnot
            exact pruned.kept q (Finset.mem_erase.mpr ⟨hnot.1, hq⟩) hnot.2
          · exact pruned.kills q (update_true hq)
          · obtain ⟨heq, hall, hhead⟩ | ⟨heq, x, hx, hold⟩ := hresult
            · refine .inl ⟨hprune.trans (heq.trans ?_), fun q hq => ?_, hhead⟩
              · rw [List.append_assoc, List.singleton_append]
              · obtain rfl | hq := List.mem_cons.mp hq
                · exact ⟨hkilled, hgone⟩
                · exact hall q hq
            · exact .inr ⟨hprune.trans heq, x, List.mem_cons_of_mem _ hx, hold⟩

/-- What both loops do: `rest` is left of the deque. -/
structure Took (s : State) (rest : List (ProcessId × Rat)) (workers : Finset ProcessId)
    (killed : ProcessId → Bool) (out : List ProcessId) (found : Option ProcessId)
    (dropped : List ProcessId) : Prop where
  split : ∃ front back, s.idleWorkers = front ++ rest ++ back ∧ front.map Prod.fst = out ∧
    back.map Prod.fst = found.toList ++ dropped
  within : ∀ q ∈ workers, q ∈ s.workers ∧ q ∉ dropped
  kept : ∀ q ∈ s.workers, q ∉ dropped → q ∉ out → q ∈ workers
  kills : ∀ q, s.killed q = true → killed q = true
  running : ∀ p ∈ found, s.exited p = false
  exited : ∀ q ∈ dropped, s.exited q = true

/-- The state between the loops and the first await. -/
abbrev State.after (s : State) (rest : List (ProcessId × Rat)) (workers : Finset ProcessId)
    (killed : ProcessId → Bool) : State :=
  { s with idleWorkers := rest, workers := workers, killed := killed }

/-- The ways in which the block of a call starts. -/
inductive Starts (s : State) (c : CallId) : State → Option Exit → Prop
  | opens {workers dropped} (took : Took s [] workers s.killed [] none dropped) :
      Starts s c (moveTo (s.after [] workers s.killed) c .opening) none
  | fails {rest workers killed out p dropped}
      (took : Took s rest workers killed out (some p) dropped)
      (hkeeps : ∀ cancellable, ¬Keeps s (.enter c cancellable)) :
      Starts s c (s.after rest workers killed) (some (.raised .processLookupError))
  | finds {rest workers killed out p dropped}
      (took : Took s rest workers killed out (some p) dropped)
      (hout : ∀ q ∈ out, killed q = true ∧ q ∉ workers)
      (hhead : ∀ x ∈ rest.head?, s.now - x.2 < workerMaxIdleTime) {phase : Phase}
      (hphase : phase = if out = [] then .sending p .run else .closing p out) :
      Starts s c (moveTo (s.after rest workers killed) c phase) none

theorem start_starts (hdistinct : (s.idleWorkers.map Prod.fst).Nodup)
    (hknown : ∀ p ∈ s.idleWorkers.map Prod.fst, p ∈ s.workers) (c : CallId) :
    Starts s c (start s c).1 (start s c).2 := by
  obtain ⟨deque, workers, found, dropped, hpop, popped⟩ :=
    popWorker_popped s.idleWorkers.length s (Nat.le_refl _) hdistinct hknown
  obtain ⟨back, hback, hdropped⟩ := popped.split
  rw [start, hpop]
  cases found with
  | none =>
      have hnil := popped.empty rfl
      subst hnil
      refine .opens ⟨⟨[], back, hback, rfl, hdropped⟩, fun q => (popped.workers q).mp, ?_,
        fun _ => id, popped.running, popped.exited⟩
      exact fun q hq hnot _ => (popped.workers q).mpr ⟨hq, hnot⟩
  | some p =>
      have hmap : s.idleWorkers.map Prod.fst = deque.map Prod.fst ++ back.map Prod.fst := by
        rw [hback, List.map_append]
      rw [hmap, List.nodup_append] at hdistinct
      obtain ⟨hdistinct, -, hne⟩ := hdistinct
      obtain ⟨rest, workers', killed, out, pruned, hresult⟩ := prune_pruned deque []
        { s with idleWorkers := deque, workers := workers } hdistinct fun q hq => by
          refine (popped.workers q).mpr ⟨hknown q (hmap ▸ List.mem_append_left _ hq), ?_⟩
          exact fun hmem => hne q hq q (hdropped ▸ List.mem_append_right _ hmem) rfl
      obtain ⟨front, hfront, hout⟩ := pruned.split
      have took : Took s rest workers' killed out (some p) dropped := by
        refine ⟨⟨front, back, ?_, hout, hdropped⟩, fun q hq => ?_, fun q hq hnot => ?_,
          pruned.kills, popped.running, popped.exited⟩
        · rw [hback, hfront]
        · exact (popped.workers q).mp (pruned.within q hq)
        · exact pruned.kept q ((popped.workers q).mpr ⟨hq, hnot⟩)
      obtain ⟨hprune, hall, hhead⟩ | ⟨hprune, x, hx, hold, hexited⟩ := hresult
      · simp only [hprune, List.nil_append]
        cases out with
        | nil => exact .finds took hall hhead rfl
        | cons k out => exact .finds took hall hhead rfl
      · simp only [hprune]
        refine .fails took fun _ hkeeps => ?_
        obtain ⟨y, hy, hyp⟩ : ∃ y ∈ back, y.1 = p := List.mem_map.mp (by simp [hdropped])
        rw [Keeps, hback, List.pairwise_append] at hkeeps
        have hyes := hkeeps.2.2 x hx y hy hold hexited
        rw [hyp, popped.running p rfl] at hyes
        cases hyes

theorem moveTo_outside (hc : s.phase c = .outside) : moveTo s c .outside = s := by
  rw [moveTo, ← hc, Function.update_eq_self]

end Anyio.WorkerProcess
