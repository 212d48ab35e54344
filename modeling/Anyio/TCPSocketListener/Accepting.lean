import Anyio.TCPSocketListener.Steps

/-!
# Every connection has one owner

A connection that was taken from the queue of the socket is held by one call of
`accept()` until it is returned, or closed with the exception that leaves the
call. The exception is a connection that the callback of the reader takes for a
call that was cancelled after the callback had been queued: it is lost. A closed
listener has no call that waits, and its socket stays open only if `aclose()` was
cancelled.
-/

namespace Anyio.TCPSocketListener

open Asyncio Library

variable {τ : Type*} [DecidableEq τ] {s s' : State τ} {a : Action τ} {o : Answer}

/-- What becomes of a connection that was taken: `accept()` returns it, or closes it with the
exception that leaves the call, or nobody gets it. -/
inductive Fate
  | returned
  | closed
  | lost
  deriving DecidableEq, Repr

/-- The connections that nobody holds any more, how often a waiting call was cancelled while the
callback of its reader was queued, and whether an `aclose()` was cancelled in its `sleep(0)`. -/
structure History where
  settled : List (ConnectionId × Fate)
  interrupted : Nat
  abandoned : Bool
  deriving DecidableEq, Repr

def History.empty : History := ⟨[], 0, false⟩

def History.lost (h : History) : Nat := h.settled.countP fun p => p.2 = .lost

/-- The connection that a step returns, closes or loses. -/
def settles (s : State τ) : Action τ → Answer → Option (ConnectionId × Fate)
  | _, .returned (some connection) => some (connection, .returned)
  | .resume t _, .raised _ =>
      match s.loop.point t with
      | .connecting connection => some (connection, .closed)
      | _ => none
  | .ready false, .raised _ =>
      if s.fileOpen = true ∧ s.accepted < s.connections then some (s.accepted, .lost) else none
  | _, _ => none

/-- A waiting call is cancelled while the callback of its reader is queued. -/
def interrupts (s : State τ) : Action τ → Bool
  | .cancel t =>
      match s.loop.point t with
      | .accepting fut => s.readyQueued ∧ s.loop.future fut = .pending
      | _ => false
  | _ => false

def record (h : History) (s : State τ) (a : Action τ) (o : Answer) : History where
  settled := h.settled ++ (settles s a o).toList
  interrupted := h.interrupted + (interrupts s a).toNat
  abandoned := h.abandoned || abandons s a o

abbrev recorded (τ : Type*) [DecidableEq τ] : Machine (State τ × History) (Action τ) Answer :=
  (machine τ).withHistory record

/-- The connection that the future of `sock_accept()` has got. -/
def resultOf (s : State τ) (fut : FutureId) : Option ConnectionId :=
  if s.loop.future fut = .finished then s.result fut else none

/-- The connection that a task holds inside of `accept()`. -/
def held (s : State τ) (t : τ) : Option ConnectionId :=
  match s.loop.point t with
  | .connecting connection => some connection
  | .accepting fut => resultOf s fut
  | _ => none

/-- What has become of the connections below `accepted`; `holds` is what each task holds. -/
structure Accounts (holds : τ → Option ConnectionId) (accepted : Nat)
    (settled : List ConnectionId) : Prop where
  bounded : ∀ t c, holds t = some c → c < accepted ∧ c ∉ settled
  alone : ∀ t u c, holds t = some c → holds u = some c → t = u
  all : ∀ c, c < accepted → (∃ t, holds t = some c) ∨ c ∈ settled
  ended : ∀ c ∈ settled, c < accepted
  once : settled.Nodup

section Accounting

variable {holds holds' : τ → Option ConnectionId} {accepted : Nat} {settled : List ConnectionId}
  {t : τ} {c : ConnectionId}

/-- A task takes the next connection. -/
theorem Accounts.take (acc : Accounts holds accepted settled) (hold : holds t = none)
    (h : holds' = Function.update holds t (some accepted)) :
    Accounts holds' (accepted + 1) settled := by
  have hother : ∀ u c, holds' u = some c → u = t ∧ c = accepted ∨ u ≠ t ∧ holds u = some c := by
    intro u c hu
    by_cases ht : u = t
    · rw [h, ht, Function.update_self] at hu
      exact .inl ⟨ht, (Option.some.inj hu).symm⟩
    · rw [h, Function.update_of_ne ht] at hu
      exact .inr ⟨ht, hu⟩
  constructor
  · intro u c hu
    rcases hother u c hu with ⟨-, rfl⟩ | ⟨-, hu⟩
    · exact ⟨Nat.lt_succ_self _, fun hc => absurd (acc.ended _ hc) (Nat.lt_irrefl _)⟩
    · obtain ⟨hlt, hout⟩ := acc.bounded u c hu
      exact ⟨Nat.lt_succ_of_lt hlt, hout⟩
  · intro u v c hu hv
    rcases hother u c hu with ⟨rfl, rfl⟩ | ⟨-, hu⟩ <;>
      rcases hother v _ hv with ⟨rfl, hc⟩ | ⟨-, hv⟩
    · rfl
    · exact absurd (acc.bounded v _ hv).1 (Nat.lt_irrefl _)
    · exact absurd (acc.bounded u _ hu).1 (by rw [hc]; exact Nat.lt_irrefl _)
    · exact acc.alone u v c hu hv
  · intro c hc
    rcases Nat.lt_succ_iff_lt_or_eq.mp hc with hlt | rfl
    · rcases acc.all c hlt with ⟨u, hu⟩ | hout
      · left
        refine ⟨u, ?_⟩
        have hut : u ≠ t := by
          rintro rfl
          rw [hold] at hu
          cases hu
        rw [h, Function.update_of_ne hut, hu]
      · exact .inr hout
    · exact .inl ⟨t, by rw [h, Function.update_self]⟩
  · exact fun c hc => Nat.lt_succ_of_lt (acc.ended c hc)
  · exact acc.once

/-- A task lets go of its connection. -/
theorem Accounts.settle (acc : Accounts holds accepted settled) (hold : holds t = some c)
    (h : holds' = Function.update holds t none) : Accounts holds' accepted (settled ++ [c]) := by
  obtain ⟨hlt, hout⟩ := acc.bounded t c hold
  have hother : ∀ u d, holds' u = some d → u ≠ t ∧ holds u = some d := by
    intro u d hu
    by_cases ht : u = t
    · rw [h, ht, Function.update_self] at hu
      cases hu
    · rw [h, Function.update_of_ne ht] at hu
      exact ⟨ht, hu⟩
  constructor
  · intro u d hu
    obtain ⟨ht, hu⟩ := hother u d hu
    obtain ⟨hlt', hout'⟩ := acc.bounded u d hu
    refine ⟨hlt', fun hd => ?_⟩
    rcases List.mem_append.mp hd with hd | hd
    · exact hout' hd
    · rw [List.mem_singleton.mp hd] at hu
      exact ht (acc.alone u t c hu hold)
  · intro u v d hu hv
    exact acc.alone u v d (hother u d hu).2 (hother v d hv).2
  · intro d hd
    rcases acc.all d hd with ⟨u, hu⟩ | hin
    · by_cases ht : u = t
      · rw [ht, hold] at hu
        exact .inr (List.mem_append_right _ (List.mem_singleton.mpr (Option.some.inj hu).symm))
      · exact .inl ⟨u, by rw [h, Function.update_of_ne ht, hu]⟩
    · exact .inr (List.mem_append_left _ hin)
  · intro d hd
    rcases List.mem_append.mp hd with hd | hd
    · exact acc.ended d hd
    · exact List.mem_singleton.mp hd ▸ hlt
  · rw [← List.concat_eq_append]
    exact acc.once.concat hout

omit [DecidableEq τ] in
/-- The next connection is taken by nobody. -/
theorem Accounts.lose (acc : Accounts holds accepted settled) :
    Accounts holds (accepted + 1) (settled ++ [accepted]) := by
  constructor
  · intro u d hu
    obtain ⟨hlt, hout⟩ := acc.bounded u d hu
    refine ⟨Nat.lt_succ_of_lt hlt, fun hd => ?_⟩
    rcases List.mem_append.mp hd with hd | hd
    · exact hout hd
    · exact absurd (List.mem_singleton.mp hd) (Nat.ne_of_lt hlt)
  · exact acc.alone
  · intro d hd
    rcases Nat.lt_succ_iff_lt_or_eq.mp hd with hlt | rfl
    · exact (acc.all d hlt).imp_right (List.mem_append_left _)
    · exact .inr (List.mem_append_right _ (List.mem_singleton_self _))
  · intro d hd
    rcases List.mem_append.mp hd with hd | hd
    · exact Nat.lt_succ_of_lt (acc.ended d hd)
    · exact List.mem_singleton.mp hd ▸ Nat.lt_succ_self accepted
  · rw [← List.concat_eq_append]
    exact acc.once.concat fun h => Nat.lt_irrefl accepted (acc.ended _ h)

end Accounting

section Steps

variable {t : τ} {p : Point} {abandoned : Bool}

omit [DecidableEq τ] in
theorem held_congr (hpoint : s'.loop.point t = s.loop.point t)
    (hresult : ∀ fut, s.loop.point t = .accepting fut → resultOf s' fut = resultOf s fut) :
    held s' t = held s t := by
  unfold held
  rw [hpoint]
  cases hp : s.loop.point t with
  | accepting fut => exact hresult fut hp
  | _ => rfl

/-- A step of one task changes what this task holds. -/
theorem held_moves (hpoint : ∀ u, s'.loop.point u = if u = t then p else s.loop.point u)
    (hresult : ∀ u fut, u ≠ t → s.loop.point u = .accepting fut →
      resultOf s' fut = resultOf s fut) {c : Option ConnectionId} (hnew : held s' t = c) :
    held s' = Function.update (held s) t c := by
  funext u
  by_cases hu : u = t
  · rw [hu, Function.update_self, hnew]
  · rw [Function.update_of_ne hu]
    apply held_congr
    · rw [hpoint, if_neg hu]
    · exact fun fut h => hresult u fut hu h

/-- A task that holds nothing moves to a point where it holds nothing. -/
theorem held_keeps (hold : held s t = none)
    (hpoint : ∀ u, s'.loop.point u = if u = t then p else s.loop.point u)
    (hresult : ∀ u fut, u ≠ t → s.loop.point u = .accepting fut →
      resultOf s' fut = resultOf s fut) (hnew : held s' t = none) : held s' = held s := by
  rw [held_moves hpoint hresult hnew, ← hold, Function.update_eq_self]

/-- The step changes what nobody holds, one task takes the next connection, one task lets go of
the connection that it holds, or the next connection is lost. -/
inductive Effect (s s' : State τ) (a : Action τ) (o : Answer) : Prop
  | keeps (hheld : held s' = held s) (haccepted : s'.accepted = s.accepted)
      (hsettles : settles s a o = none)
  | takes {u} (hold : held s u = none)
      (hheld : held s' = Function.update (held s) u (some s.accepted))
      (haccepted : s'.accepted = s.accepted + 1) (hsettles : settles s a o = none)
  | lets {u c fate} (hold : held s u = some c) (hheld : held s' = Function.update (held s) u none)
      (haccepted : s'.accepted = s.accepted) (hsettles : settles s a o = some (c, fate))
  | loses (hheld : held s' = held s) (haccepted : s'.accepted = s.accepted + 1)
      (hsettles : settles s a o = some (s.accepted, .lost))

/-- The reader gives the waiting task its result. -/
theorem held_answered (guard : Guard s) {fut : FutureId} (hp : s.loop.point t = .accepting fut)
    (c : Option ConnectionId) {accepted : Nat} :
    held { s with
        readyQueued := false
        result := Function.update s.result fut c
        accepted := accepted
        loop := { s.loop with future := Function.update s.loop.future fut .finished } } =
      Function.update (held s) t c := by
  apply held_moves (p := s.loop.point t)
  · intro u
    split_ifs with hu
    · rw [hu]
      rfl
    · rfl
  · intro u g hu h
    exact absurd (guard.alone u t (by rw [h]; rfl) (by rw [hp]; rfl)) hu
  · have hpoint : Loop.point
        { s.loop with future := Function.update s.loop.future fut .finished } t =
          .accepting fut := hp
    simp [held, hpoint, resultOf]

/-- A cancellation gives no future a result, and takes none away. -/
theorem resultOf_deliver (s : State τ) (t : τ) (fut : FutureId) :
    (if (deliver s.loop t).future fut = .finished then s.result fut else none) =
      resultOf s fut := by
  have hiff : (deliver s.loop t).future fut = .finished ↔ s.loop.future fut = .finished := by
    rcases deliver_future s.loop t fut with hsame | ⟨-, hpending, hcancelled⟩
    · rw [hsame]
    · simp [hpending, hcancelled]
  rw [resultOf]
  simp only [hiff]

omit [DecidableEq τ] in
theorem settles_of_point {q : Point} {e : Error} (hp : s.loop.point t = q)
    (hq : ∀ c, q ≠ .connecting c) (fails : Bool) :
    settles s (.resume t fails) (.raised e) = none := by
  cases q with
  | connecting c => exact absurd rfl (hq c)
  | _ => simp [settles, hp]

theorem effect_change (guard : Guard s) (hs : Change s a s' o) : Effect s s' a o := by
  cases hs with
  | refused hact hout =>
      apply Effect.keeps rfl rfl
      rcases hact with rfl | rfl
      all_goals
        cases o with
        | returned value =>
            cases value with
            | none => rfl
            | some c => exact absurd rfl (hout c)
        | _ => rfl
  | @enters t hp =>
      refine .keeps ?_ rfl rfl
      apply held_keeps (t := t) (by simp [held, hp]) (fun u => Loop.moveTo_point s.loop t u _)
      · exact fun _ fut _ _ => rfl
      · simp [held]
  | @turnsBack t fails e hp =>
      refine .keeps ?_ rfl (settles_of_point hp (by simp) fails)
      apply held_keeps (t := t) (by simp [held, hp]) (fun u => Loop.resumeAt_point s.loop t u _)
      · exact fun _ fut _ _ => rfl
      · simp [held]
  | @takes t fails hp =>
      refine .takes (u := t) (by simp [held, hp]) ?_ rfl rfl
      apply held_moves (fun u => Loop.resumeAt_point s.loop t u _)
      · exact fun _ fut _ _ => rfl
      · simp [held]
  | @waits t fails hp hfile =>
      refine .keeps ?_ rfl rfl
      apply held_keeps (t := t) (by simp [held, hp])
        (fun u => Loop.resumeAt_point s.loop.createFuture t u _)
      · intro u fut hu h
        exact absurd (guard.alone u t (by rw [h]; rfl) (by rw [hp]; rfl)) hu
      · simp [held, resultOf]
  | @fails t fails fut e hp hfut =>
      refine .keeps ?_ rfl (settles_of_point hp (by simp) fails)
      apply held_keeps (t := t) _ (fun u => Loop.resumeAt_point s.loop t u _)
      · exact fun _ fut _ _ => rfl
      · simp [held]
      · simp only [held, hp, resultOf]
        split_ifs with hfinished
        · exact hfut hfinished
        · rfl
  | @goesOn t fails fut c hp hfut hc =>
      have hold : held s t = some c := by simp [held, hp, resultOf, hfut, hc]
      refine .keeps ?_ rfl rfl
      rw [← Function.update_eq_self t (held s), hold]
      apply held_moves (fun u => Loop.resumeAt_point s.loop t u _)
      · exact fun _ fut _ _ => rfl
      · simp [held]
  | @drops t fails c e hp =>
      have hsettles : settles s (.resume t fails) (.raised e) = some (c, .closed) := by
        simp only [settles, hp]
      have hold : held s t = some c := by simp [held, hp]
      refine .lets hold ?_ rfl hsettles
      apply held_moves (fun u => Loop.resumeAt_point s.loop t u _)
      · exact fun _ fut _ _ => rfl
      · simp [held]
  | @returns t fails c hp =>
      refine .lets (u := t) (c := c) (by simp [held, hp]) ?_ rfl rfl
      apply held_moves (fun u => Loop.resumeAt_point s.loop t u _)
      · exact fun _ fut _ _ => rfl
      · simp [held]
  | @abandons t fails hp =>
      refine .keeps ?_ rfl (settles_of_point hp (by simp) fails)
      apply held_keeps (t := t) (by simp [held, hp]) (fun u => Loop.resumeAt_point s.loop t u _)
      · exact fun _ fut _ _ => rfl
      · simp [held]
  | @shuts t fails hp =>
      refine .keeps ?_ rfl rfl
      apply held_keeps (t := t) (by simp [held, hp]) (fun u => Loop.resumeAt_point s.loop t u _)
      · exact fun _ fut _ _ => rfl
      · simp [held]
  | closes => exact .keeps rfl rfl rfl
  | @closesScope t u hp =>
      refine .keeps ?_ rfl rfl
      apply held_keeps (t := t) (by simp [held, hp])
      · intro v
        rw [Loop.moveTo_point, deliver_point]
      · intro v fut hv _
        exact resultOf_deliver s u fut
      · simp [held]
  | connects => exact .keeps rfl rfl rfl
  | selects => exact .keeps rfl rfl rfl
  | @readyFails fut fails hreader hfut =>
      obtain ⟨t, hp⟩ := guard.reads fut hreader
      refine .keeps ?_ rfl rfl
      have hold : held s t = none := by simp [held, hp, resultOf, hfut]
      rw [← Function.update_eq_self t (held s), hold]
      exact held_answered guard hp none
  | @readyTakes fut hreader hfut =>
      obtain ⟨t, hp⟩ := guard.reads fut hreader
      refine .takes (u := t) (by simp [held, hp, resultOf, hfut]) ?_ rfl rfl
      exact held_answered guard hp (some s.accepted)
  | readyLoses _ _ _ hfile hlt => exact .loses rfl rfl (if_pos ⟨hfile, hlt⟩)
  | @readyKeeps fails out hout =>
      refine .keeps rfl rfl ?_
      rcases hout with rfl | ⟨rfl, hfile | rfl⟩
      · cases fails <;> rfl
      · cases fails
        · simp [settles, hfile]
        · rfl
      · rfl
  | @cancels t =>
      refine .keeps ?_ rfl rfl
      funext u
      apply held_congr
      · exact deliver_point s.loop t u
      · exact fun fut _ => resultOf_deliver s t fut

theorem Accounts.effect {h : History}
    (acc : Accounts (held s) s.accepted (h.settled.map Prod.fst)) (effect : Effect s s' a o) :
    Accounts (held s') s'.accepted ((record h s a o).settled.map Prod.fst) := by
  cases effect with
  | keeps hheld haccepted hsettles => simpa [record, hsettles, hheld, haccepted] using acc
  | takes hold hheld haccepted hsettles =>
      rw [haccepted]
      simpa [record, hsettles] using acc.take hold hheld
  | lets hold hheld haccepted hsettles =>
      rw [haccepted]
      simpa [record, hsettles] using acc.settle hold hheld
  | loses hheld haccepted hsettles =>
      rw [hheld, haccepted]
      simpa [record, hsettles] using acc.lose

omit [DecidableEq τ] in
theorem accounts_initial : Accounts (held (initial τ)) 0 [] where
  bounded t c h := by cases h
  alone t u c h := by cases h
  all c hc := absurd hc (Nat.not_lt_zero c)
  ended c hc := by cases hc
  once := List.nodup_nil

/-- The queue of the socket is never overdrawn. -/
theorem Change.accepted_le (hs : Change s a s' o) (hle : s.accepted ≤ s.connections) :
    s'.accepted ≤ s'.connections := by
  cases hs with
  | takes _ _ hlt => exact hlt
  | readyTakes _ _ hlt => exact hlt
  | readyLoses _ _ _ _ hlt => exact hlt
  | connects => exact Nat.le_succ_of_le hle
  | _ => exact hle

/-- The callback of the reader is queued for a future that is done. -/
def doomed (s : State τ) : Bool :=
  s.readyQueued && s.reader.any fun fut => s.loop.future fut ≠ .pending

/-- Only the cancellation of the waiting call dooms the callback that is queued. -/
theorem doomed_deliver (s : State τ) (t : τ) :
    (doomed { s with loop := deliver s.loop t }).toNat ≤
      (doomed s).toNat + (interrupts s (.cancel t)).toNat := by
  by_cases hnext : doomed { s with loop := deliver s.loop t } = true
  · obtain ⟨hqueued, hany⟩ := Bool.and_eq_true_iff.mp hnext
    obtain ⟨fut, hreader, hdone⟩ := (Option.any_eq_true _ _).mp hany
    rcases deliver_future s.loop t fut with hsame | ⟨hwaits, hpending, -⟩
    · have hdoomed : doomed s = true := by
        have hreader' : s.reader = some fut := hreader
        have hdone' : (deliver s.loop t).future fut ≠ .pending := of_decide_eq_true hdone
        rw [hsame] at hdone'
        simp [doomed, hreader', hdone', show s.readyQueued = true from hqueued]
      rw [hdoomed]
      exact (Bool.toNat_le _).trans (Nat.le_add_right 1 _)
    · have hinterrupts : interrupts s (.cancel t) = true := by
        have hp : s.loop.point t = .accepting fut := by
          rw [Loop.waits] at hwaits
          cases hpoint : s.loop.point t <;> rw [hpoint] at hwaits <;> cases hwaits
          rfl
        simp [interrupts, hp, hpending, show s.readyQueued = true from hqueued]
      rw [hinterrupts]
      exact (Bool.toNat_le _).trans (Nat.le_add_left 1 _)
  · rw [Bool.not_eq_true] at hnext
    rw [hnext]
    exact Nat.zero_le _

omit [DecidableEq τ] in
/-- A step that loses no connection and dooms no callback. -/
theorem lost_le_of_kept (hlost : ∀ c, settles s a o ≠ some (c, .lost))
    (hdoomed : doomed s' = doomed s ∨ doomed s' = false) :
    (settles s a o).toList.countP (fun p => p.2 = .lost) + (doomed s').toNat ≤
      (doomed s).toNat + (interrupts s a).toNat := by
  have hnone : (settles s a o).toList.countP (fun p => p.2 = .lost) = 0 := by
    apply List.countP_eq_zero.mpr
    rintro ⟨c, fate⟩ hmem hfate
    obtain rfl : fate = .lost := of_decide_eq_true hfate
    exact hlost c (Option.mem_toList.mp hmem)
  rw [hnone, Nat.zero_add]
  rcases hdoomed with hsame | hnot
  · rw [hsame]
    exact Nat.le_add_right _ _
  · rw [hnot]
    exact Nat.zero_le _

/-- A connection is lost by a callback that was doomed. -/
theorem Change.lost_le (hs : Change s a s' o) :
    (settles s a o).toList.countP (fun p => p.2 = .lost) + (doomed s').toNat ≤
      (doomed s).toNat + (interrupts s a).toNat := by
  cases hs with
  | cancels => exact (Nat.zero_add _).trans_le (doomed_deliver s _)
  | readyLoses hqueued hreader hfut hfile hlt =>
      have hdoomed : doomed s = true := by simp [doomed, hqueued, hreader, hfut]
      rw [hdoomed]
      simp [settles, hfile, hlt, doomed]
  | refused hact =>
      apply lost_le_of_kept _ (.inl rfl)
      rcases hact with rfl | rfl <;> cases o <;> simp [settles]
  | enters => exact lost_le_of_kept (by simp [settles]) (.inl rfl)
  | turnsBack hp => exact lost_le_of_kept (by simp [settles, hp]) (.inl rfl)
  | takes => exact lost_le_of_kept (by simp [settles]) (.inl rfl)
  | waits => exact lost_le_of_kept (by simp [settles]) (.inr (by simp [doomed, Loop.createFuture]))
  | fails hp => exact lost_le_of_kept (by simp [settles, hp]) (.inr rfl)
  | goesOn => exact lost_le_of_kept (by simp [settles]) (.inr rfl)
  | drops hp => exact lost_le_of_kept (by simp [settles, hp]) (.inl rfl)
  | returns => exact lost_le_of_kept (by simp [settles]) (.inl rfl)
  | abandons hp => exact lost_le_of_kept (by simp [settles, hp]) (.inl rfl)
  | shuts => exact lost_le_of_kept (by simp [settles]) (.inl rfl)
  | closes => exact lost_le_of_kept (by simp [settles]) (.inl rfl)
  | closesScope => exact lost_le_of_kept (by simp [settles]) (.inr rfl)
  | connects => exact lost_le_of_kept (by simp [settles]) (.inl rfl)
  | selects hreader hfut =>
      exact lost_le_of_kept (by simp [settles]) (.inr (by simp [doomed, hreader, hfut]))
  | readyFails => exact lost_le_of_kept (by simp [settles]) (.inr rfl)
  | readyTakes => exact lost_le_of_kept (by simp [settles]) (.inr rfl)
  | @readyKeeps fails out hout =>
      apply lost_le_of_kept _ (.inr rfl)
      rcases hout with rfl | ⟨rfl, hfile | rfl⟩
      · simp [settles]
      · cases fails <;> simp [settles, hfile]
      · simp [settles]

end Steps

section Runs

variable {h : History}

/-- What a run keeps. -/
structure Kept (s : State τ) (h : History) : Prop where
  inv : Inv s h.abandoned
  accounts : Accounts (held s) s.accepted (h.settled.map Prod.fst)
  queue : s.accepted ≤ s.connections
  lost : h.lost + (doomed s).toNat ≤ h.interrupted

theorem Kept.step (kept : Kept s h) (hs : step s a = some (s', o)) : Kept s' (record h s a o) := by
  have change := step_change kept.inv.guard.calm hs
  constructor
  · exact kept.inv.change change
  · exact kept.accounts.effect (effect_change kept.inv.guard change)
  · exact change.accepted_le kept.queue
  · have hbefore := kept.lost
    have hstep := change.lost_le
    have hlost : (record h s a o).lost =
        h.lost + (settles s a o).toList.countP fun p => p.2 = .lost :=
      List.countP_append
    have hinterrupted : (record h s a o).interrupted =
        h.interrupted + (interrupts s a).toNat := rfl
    omega

theorem of_recorded
    (run : (recorded τ).Reachable Machine.anyStep (initial τ, .empty) (s, h)) : Kept s h := by
  apply run.invariant_history (I := Kept)
  · exact ⟨.initial, accounts_initial, Nat.le_refl 0, Nat.le_refl 0⟩
  · exact fun s h a s' o kept _ hs => kept.step hs

/-- In every run, each connection that was taken from the queue of the socket is held by exactly
one call of `accept()`, or it was returned by one, or it was closed with the exception that left
the call, or it was lost, and only one of these. It is lost when the callback of the reader takes
it for a call that has been cancelled since the callback was queued, and at most one for each such
cancellation. -/
theorem connections_have_one_owner
    (run : (recorded τ).Reachable Machine.anyStep (initial τ, .empty) (s, h)) :
    (∀ c, c < s.accepted → (∃ t, held s t = some c) ∨ ∃ fate, (c, fate) ∈ h.settled) ∧
      (∀ t c, held s t = some c → (∀ fate, (c, fate) ∉ h.settled) ∧
        ∀ u, held s u = some c → u = t) ∧
      (h.settled.map Prod.fst).Nodup ∧ h.lost ≤ h.interrupted ∧ s.accepted ≤ s.connections := by
  have kept := of_recorded run
  have hsettled : ∀ c, c ∈ h.settled.map Prod.fst ↔ ∃ fate, (c, fate) ∈ h.settled := by simp
  refine ⟨fun c hc => ?_, fun t c hc => ⟨fun fate hmem => ?_, fun u hu => ?_⟩, kept.accounts.once,
    (Nat.le_add_right _ _).trans kept.lost, kept.queue⟩
  · rw [← hsettled]
    exact kept.accounts.all c hc
  · exact (kept.accounts.bounded t c hc).2 ((hsettled c).mpr ⟨fate, hmem⟩)
  · exact kept.accounts.alone u t c hu hc

/-- Three connections come: the first is returned, the scope around the second `accept()` is
cancelled while the connection is set up, and that around the third after the callback of the
reader was queued. -/
def cancelledRun : List (Action (Fin 3)) :=
  [.accept 0, .resume 0 false, .connects, .connects, .select, .ready false, .resume 0 false,
    .accept 1, .resume 1 false, .resume 0 false, .cancel 1, .resume 1 false,
    .accept 2, .resume 2 false, .connects, .select, .cancel 2, .ready false, .resume 2 false]

theorem connections_have_one_owner_cancelled :
    let s := ((recorded (Fin 3)).exec Machine.anyStep (initial (Fin 3), .empty) cancelledRun).get
      (by decide)
    s.2.settled = [(0, .returned), (1, .closed), (2, .lost)] ∧ s.2.interrupted = 1 ∧
      s.2.lost ≤ s.2.interrupted := by
  have run : (recorded (Fin 3)).Reachable Machine.anyStep (initial (Fin 3), .empty)
      (((recorded (Fin 3)).exec Machine.anyStep (initial (Fin 3), .empty) cancelledRun).get
        (by decide)) := Machine.exec_get_reachable _ _ _
  obtain ⟨-, -, -, hlost, -⟩ := connections_have_one_owner run
  exact ⟨by decide, by decide, hlost⟩

/-- In every run, once a listener is closed no call of `accept()` waits for a connection: each is
about to go on with what it has got, or with a `ClosedResourceError` if it was cancelled. When no
`aclose()` is in progress any more, the socket is closed, unless an `aclose()` was cancelled in its
`sleep(0)`, and then no later one closes it. -/
theorem closed_listener_accepts_nothing
    (run : (recorded τ).Reachable Machine.anyStep (initial τ, .empty) (s, h))
    (hclosed : s.closed = true) :
    (∀ t fut, s.loop.point t = .accepting fut → s.loop.wakeUpQueued t = true ∧
      ∀ fails s' o, step s (.resume t fails) = some (s', o) →
        s.loop.future fut = .finished ∨ o = .raised .closedResourceError) ∧
      ((∀ t, s.loop.point t ≠ .closing) → (s.fileOpen = false ↔ h.abandoned = false)) := by
  have inv := (of_recorded run).inv
  refine ⟨fun t fut hp => ⟨?_, fun fails s' o hs => ?_⟩, inv.shut hclosed⟩
  · have hwaits : s.loop.waits t = .future fut := by rw [Loop.waits, hp]; rfl
    simpa [Loop.wakeUpQueued, hwaits] using inv.woken hclosed t fut hp
  · cases hfut : s.loop.future fut with
    | pending => exact absurd hfut (inv.woken hclosed t fut hp)
    | finished => exact .inl rfl
    | cancelled =>
        right
        have hwaits : s.loop.waits t = .future fut := by rw [Loop.waits, hp]; rfl
        have hthrows : s.loop.throws t = true := by simp [Loop.throws, hwaits, hfut]
        obtain ⟨-, he⟩ := Option.ite_none_right_eq_some.mp hs
        have ho : (resume s t fails).2 = o := congrArg Prod.snd (Option.some.inj he)
        rw [← ho]
        simp only [resume, hp, hthrows, hclosed, if_true]

/-- `aclose()` while a call waits, in a scope that is cancelled. -/
def forcefulRun : List (Action (Fin 2)) :=
  [.accept 0, .resume 0 false, .aclose 1, .cancel 1, .resume 1 false, .aclose 1]

theorem closed_listener_accepts_nothing_forceful :
    let s := ((recorded (Fin 2)).exec Machine.anyStep (initial (Fin 2), .empty) forcefulRun).get
      (by decide)
    s.1.closed = true ∧ s.1.fileOpen = true ∧ s.2.abandoned = true ∧
      s.1.loop.wakeUpQueued 0 = true := by
  have run : (recorded (Fin 2)).Reachable Machine.anyStep (initial (Fin 2), .empty)
      (((recorded (Fin 2)).exec Machine.anyStep (initial (Fin 2), .empty) forcefulRun).get
        (by decide)) := Machine.exec_get_reachable _ _ _
  have hnone : ∀ t, (((recorded (Fin 2)).exec Machine.anyStep (initial (Fin 2), .empty)
      forcefulRun).get (by decide)).1.loop.point t ≠ .closing := by decide
  obtain ⟨hwaits, hshut⟩ := closed_listener_accepts_nothing run (by decide)
  have hfile := (hshut hnone).not
  exact ⟨by decide, eq_true_of_ne_false (hfile.mpr (by decide)), by decide,
    (hwaits 0 0 (by decide)).1⟩

end Runs

end Anyio.TCPSocketListener
