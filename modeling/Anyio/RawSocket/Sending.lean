import Anyio.RawSocket.Closing

/-!
# What a UNIX stream hands to its socket

The operating system may take any part of a view, and `send()` goes on with the
rest. The guard lets one sender in at a time, so that the bytes of two items
are never mixed: what the socket took is one item after another, each of them
whole unless its `send()` was interrupted or failed.
-/

namespace Anyio.RawSocket

open Asyncio Library

/-- A `send()` that is over: its item, the bytes of it that the socket took, and whether the
call returned. -/
structure Sent where
  item : Bytes
  taken : Bytes
  returned : Bool
  deriving DecidableEq, Repr

/-- The bytes that the socket took, the calls of `send()` that got to it and are over, and the
item of the one that is under way with the bytes of it that were taken. -/
structure Sends where
  accepted : Bytes
  past : List Sent
  current : Option (Bytes × Bytes)
  deriving DecidableEq, Repr

namespace Sends

def empty : Sends := ⟨[], [], none⟩

def finish (h : Sends) (returned : Bool) : Sends :=
  { h with
    past := h.past ++ h.current.toList.map fun p => ⟨p.1, p.2, returned⟩
    current := none }

/-- The socket takes some bytes. -/
def take (h : Sends) (taken : Bytes) : Sends :=
  { h with
    accepted := h.accepted ++ taken
    current := h.current.map fun p => (p.1, p.2 ++ taken) }

/-- A piece of `send()` in which the socket took some bytes. -/
def advance (h : Sends) (taken : Bytes) : Answer → Sends
  | .suspended _ => h.take taken
  | .returned _ => (h.take taken).finish true
  | .raised _ => (h.take taken).finish false

/-- The bytes of the item under way that were taken. -/
def unfinished (h : Sends) : Bytes := (h.current.map Prod.snd).getD []

end Sends

/-- The bytes of a view that the socket takes in the loop of `send()`. -/
def takenBy (fileOpen : Bool) : Bytes → List (Attempt Nat) → Bytes
  | [], _ => []
  | _ :: _, [] => []
  | b :: view, answer :: rest =>
      match if fileOpen then answer else .fails with
      | .gives bytesSent =>
          (b :: view).take bytesSent ++ takenBy fileOpen ((b :: view).drop bytesSent) rest
      | _ => []

variable {τ : Type*} [DecidableEq τ] {s s' : State τ} {h : Sends} {a : Action τ} {o : Answer}
  {t u : τ} {view item taken : Bytes} {f : FutureId}

def recordSends (h : Sends) (s : State τ) (a : Action τ) (o : Answer) : Sends :=
  match a with
  | .resume t _ sent =>
      match s.loop.point t with
      | .sendCheckpoint item =>
          if s.loop.throws t = true ∨ (s.half .send).guarded = true then h
          else { h with current := some (item, []) }.advance (takenBy s.fileOpen item sent) o
      | .sendWait view _ =>
          if s.loop.throws t then h.finish false
          else h.advance (takenBy s.fileOpen view sent) o
      | _ => h
  | _ => h

/-- The machine that keeps what was sent. -/
def sending (τ : Type*) [DecidableEq τ] : Machine (State τ × Sends) (Action τ) Answer :=
  (machine τ).withHistory recordSends

/-- How the loop of `send()` ends when the socket took some bytes of the view. -/
inductive Loops (s : State τ) (t : τ) (view taken : Bytes) : State τ × Answer → Prop
  | whole (heq : taken = view) : Loops s t view taken (setGuarded s .send false, .returned none)
  | failed (left : Bytes) (heq : taken ++ left = view) :
      Loops s t view taken (setGuarded s .send false, .raised (socketError s))
  | blocked (left : Bytes) (heq : taken ++ left = view) :
      Loops s t view taken (sendBlocked s t left)

theorem loops_sendView (s : State τ) (t : τ) (view : Bytes) (sent : List (Attempt Nat)) :
    Loops s t view (takenBy s.fileOpen view sent) (sendView s t view sent) := by
  fun_induction sendView s t view sent with
  | case1 sent =>
      apply Loops.whole
      rw [takenBy]
  | case2 b view => exact .failed (b :: view) rfl
  | case3 b view => exact .blocked (b :: view) rfl
  | case4 b view answer rest hb =>
      have hnothing : takenBy s.fileOpen (b :: view) (answer :: rest) = [] := by
        rw [attempt] at hb
        rw [takenBy, hb]
      rw [hnothing]
      exact .blocked (b :: view) rfl
  | case5 b view answer rest hb =>
      have hnothing : takenBy s.fileOpen (b :: view) (answer :: rest) = [] := by
        rw [attempt] at hb
        rw [takenBy, hb]
      rw [hnothing]
      exact .failed (b :: view) rfl
  | case6 b view answer rest n hn ih =>
      have htaken : takenBy s.fileOpen (b :: view) (answer :: rest) =
          (b :: view).take n ++ takenBy s.fileOpen ((b :: view).drop n) rest := by
        rw [attempt] at hn
        rw [takenBy, hn]
      rw [htaken]
      generalize takenBy s.fileOpen ((b :: view).drop n) rest = taken at ih
      generalize sendView s t ((b :: view).drop n) rest = r at ih
      have hglue : ∀ left, taken ++ left = (b :: view).drop n →
          (b :: view).take n ++ taken ++ left = b :: view := by
        intro left heq
        rw [List.append_assoc, heq, List.take_append_drop]
      cases ih with
      | whole heq =>
          apply Loops.whole
          rw [heq, List.take_append_drop]
      | failed left heq => exact .failed left (hglue left heq)
      | blocked left heq => exact .blocked left (hglue left heq)

/-- The rest of the item that a task waits to send. -/
def Point.unsent : Point → Option Bytes
  | .sendWait view _ => some view
  | _ => none

/-- What holds of the senders in every reachable state. -/
structure Sending (s : State τ) (h : Sends) : Prop where
  guarded : ∀ t view, (s.loop.point t).unsent = some view → (s.half .send).guarded = true
  single : ∀ t u view view', (s.loop.point t).unsent = some view →
    (s.loop.point u).unsent = some view' → t = u
  current : ∀ t view, (s.loop.point t).unsent = some view →
    ∃ taken, h.current = some (taken ++ view, taken)
  idle : (∀ t, (s.loop.point t).unsent = none) → h.current = none
  accounted : h.accepted = (h.past.map Sent.taken).flatten ++ h.unfinished
  whole : ∀ x ∈ h.past, x.taken <+: x.item ∧ (x.returned = true → x.taken = x.item)

omit [DecidableEq τ] in
theorem Sending.initial : Sending (initial τ) .empty := by
  constructor <;> simp [RawSocket.initial, Sends.empty, Point.unsent, Sends.unfinished]

omit [DecidableEq τ] in
/-- A step that moves no sender and leaves the guard of the senders alone. -/
theorem Sending.frame (inv : Sending s h)
    (hpoint : ∀ t, (s'.loop.point t).unsent = (s.loop.point t).unsent)
    (hguard : (s'.half .send).guarded = (s.half .send).guarded) : Sending s' h := by
  constructor
  · intro t view ht
    rw [hguard]
    exact inv.guarded t view (hpoint t ▸ ht)
  · intro t u view view' ht hu
    exact inv.single t u view view' (hpoint t ▸ ht) (hpoint u ▸ hu)
  · intro t view ht
    exact inv.current t view (hpoint t ▸ ht)
  · intro hnone
    exact inv.idle fun t => (hpoint t).symm.trans (hnone t)
  · exact inv.accounted
  · exact inv.whole

omit [DecidableEq τ] in
/-- A sender that is over leaves its item, and the bytes of it that were taken, behind. -/
theorem Sending.finished (hnone : ∀ u, (s'.loop.point u).unsent = none)
    (haccounted : h.accepted = (h.past.map Sent.taken).flatten ++ taken)
    (hwhole : ∀ x ∈ h.past, x.taken <+: x.item ∧ (x.returned = true → x.taken = x.item))
    (hcurrent : h.current = some (item, taken)) (hbegins : taken <+: item) (returned : Bool)
    (hreturned : returned = true → taken = item) : Sending s' (h.finish returned) := by
  have hpast : (h.finish returned).past = h.past ++ [⟨item, taken, returned⟩] := by
    rw [Sends.finish, hcurrent]
    rfl
  constructor
  · intro u view hu
    rw [hnone] at hu
    cases hu
  · intro u v view view' hu
    rw [hnone] at hu
    cases hu
  · intro u view hu
    rw [hnone] at hu
    cases hu
  · exact fun _ => rfl
  · rw [hpast, List.map_append, List.flatten_append]
    simpa [Sends.finish, Sends.unfinished] using haccounted
  · rw [hpast]
    intro x hx
    cases List.mem_append.mp hx with
    | inl hold => exact hwhole x hold
    | inr hnew =>
        rw [List.mem_singleton.mp hnew]
        exact ⟨hbegins, hreturned⟩

/-- One piece of the only sender, after it has left its wait. -/
theorem Sending.piece (before : Bytes) {r : State τ × Answer}
    (hnone : ∀ u, (s.loop.point u).unsent = none) (hguard : (s.half .send).guarded = true)
    (haccounted : h.accepted = (h.past.map Sent.taken).flatten ++ before)
    (hwhole : ∀ x ∈ h.past, x.taken <+: x.item ∧ (x.returned = true → x.taken = x.item))
    (hcurrent : h.current = some (before ++ view, before)) (loops : Loops s t view taken r) :
    Sending r.1 (h.advance taken r.2) := by
  have haccounted' : h.accepted ++ taken =
      (h.past.map Sent.taken).flatten ++ (before ++ taken) := by
    rw [haccounted, List.append_assoc]
  have hpast : ∀ returned item, h.current = some (item, before) → before ++ taken <+: item →
      (returned = true → before ++ taken = item) →
      Sending (setGuarded s .send false) ((h.take taken).finish returned) := by
    intro returned item hitem hbegins hreturned
    have hnone' : ∀ u, ((setGuarded s .send false).loop.point u).unsent = none := hnone
    refine Sending.finished (h := h.take taken) hnone' haccounted' hwhole ?_ hbegins returned
      hreturned
    rw [Sends.take, hitem]
    rfl
  cases loops with
  | whole heq =>
      subst heq
      exact hpast true _ hcurrent List.prefix_rfl fun _ => rfl
  | failed left heq =>
      subst heq
      exact hpast false _ hcurrent ⟨left, List.append_assoc _ _ _⟩ fun h => by cases h
  | blocked left heq =>
      subst heq
      have hpoint : ∀ u, ((sendBlocked s t left).1.loop.point u).unsent =
          if u = t then some left else none := by
        intro u
        by_cases hut : u = t
        · simp [sendBlocked, waitUntilWritable, waitUntil, Point.unsent, hut]
        · have hu := hnone u
          simpa [sendBlocked, waitUntilWritable, waitUntil, hut] using hu
      have honly : ∀ u view, ((sendBlocked s t left).1.loop.point u).unsent = some view →
          u = t ∧ view = left := by
        intro u view hu
        rw [hpoint] at hu
        split_ifs at hu with hut
        exact ⟨hut, (Option.some.inj hu).symm⟩
      have hnow : (h.advance taken (sendBlocked s t left).2).current =
          some (before ++ taken ++ left, before ++ taken) := by
        simp only [Sends.advance, Sends.take, sendBlocked, hcurrent, Option.map_some,
          List.append_assoc]
      constructor
      · intro u view _
        simpa [sendBlocked, waitUntilWritable, waitUntil] using hguard
      · intro u v view view' hu hv
        exact (honly u view hu).1.trans (honly v view' hv).1.symm
      · intro u view hu
        obtain ⟨-, rfl⟩ := honly u view hu
        exact ⟨before ++ taken, hnow⟩
      · intro hall
        have ht := hall t
        rw [hpoint, if_pos rfl] at ht
        cases ht
      · rw [Sends.unfinished, hnow]
        exact haccounted'
      · exact hwhole

/-- Any piece of `receive()`, and a sender that is refused or interrupted at its checkpoint. -/
theorem unsent_recv (s : State τ) (t : τ) (m : Int) (received : Attempt Bytes)
    (ht : (s.loop.point t).unsent = none) (u : τ) :
    ((recv s t m received).1.loop.point u).unsent = (s.loop.point u).unsent ∧
      ((recv s t m received).1.half .send).guarded = (s.half .send).guarded := by
  have hother : ∀ half, ((setHalf s .receive half).half .send) = s.half .send :=
    fun half => setHalf_of_ne (by decide) half
  unfold recv
  split
  · constructor
    · by_cases hut : u = t
      · subst hut
        rw [ht]
        simp [waitUntilReadable, waitUntil, Point.unsent]
      · simp [waitUntilReadable, waitUntil, hut, setHalf]
    · simp [waitUntilReadable, waitUntil, hother]
  all_goals exact ⟨rfl, setGuarded_guarded_of_ne (by decide) false⟩

/-- What a wake-up makes of the senders: its task waits no more. -/
theorem unsent_wake (s : State τ) (t u : τ) :
    ((wake s t).loop.point u).unsent = if u = t then none else (s.loop.point u).unsent := by
  rw [wake, Loop.resumeAt_point]
  split_ifs <;> rfl

theorem unsent_wake_of_none (ht : (s.loop.point t).unsent = none) (u : τ) :
    ((wake s t).loop.point u).unsent = (s.loop.point u).unsent := by
  rw [unsent_wake]
  split_ifs with hut
  · rw [hut, ht]
  · rfl

omit [DecidableEq τ] in
/-- Nobody waits to send while the guard is free. -/
theorem Sending.none_of_unguarded (inv : Sending s h) (hguard : (s.half .send).guarded ≠ true)
    (u : τ) : (s.loop.point u).unsent = none := by
  cases hu : (s.loop.point u).unsent with
  | none => rfl
  | some view => exact absurd (inv.guarded u view hu) hguard

theorem Sending.resume (inv : Sending s h) (received : Attempt Bytes)
    (sent : List (Attempt Nat)) :
    Sending (resume s t received sent).1
      (recordSends h s (.resume t received sent) (resume s t received sent).2) := by
  cases hp : s.loop.point t with
  | outside =>
      simp only [RawSocket.resume, recordSends, hp]
      exact inv
  | receiveCheckpoint m =>
      have ht : (s.loop.point t).unsent = none := by
        rw [hp]
        rfl
      have hwoken := unsent_wake_of_none ht
      simp only [RawSocket.resume, recordSends, hp]
      split_ifs
      · exact inv.frame hwoken rfl
      · exact inv.frame hwoken rfl
      · have hown : ((setGuarded (wake s t) .receive true).loop.point t).unsent = none :=
          (hwoken t).trans ht
        apply inv.frame
        · intro u
          exact (unsent_recv _ t m received hown u).1.trans (hwoken u)
        · exact (unsent_recv _ t m received hown t).2.trans
            (setGuarded_guarded_of_ne (by decide) true)
  | receiveWait m f =>
      have ht : (s.loop.point t).unsent = none := by
        rw [hp]
        rfl
      have hwoken := unsent_wake_of_none ht
      simp only [RawSocket.resume, recordSends, hp]
      split_ifs
      · exact inv.frame hwoken (setGuarded_guarded_of_ne (by decide) false)
      · have hown : ((wake s t).loop.point t).unsent = none := (hwoken t).trans ht
        apply inv.frame
        · intro u
          exact (unsent_recv _ t m received hown u).1.trans (hwoken u)
        · exact (unsent_recv _ t m received hown t).2
  | sendCheckpoint item =>
      have ht : (s.loop.point t).unsent = none := by
        rw [hp]
        rfl
      have hwoken := unsent_wake_of_none ht
      simp only [RawSocket.resume, recordSends, hp]
      by_cases hthrow : s.loop.throws t = true
      · rw [if_pos hthrow, if_pos (.inl hthrow)]
        exact inv.frame hwoken rfl
      · by_cases hguard : (s.half .send).guarded = true
        · rw [if_neg hthrow, if_pos hguard, if_pos (.inr hguard)]
          exact inv.frame hwoken rfl
        · rw [if_neg hthrow, if_neg hguard, if_neg (not_or.mpr ⟨hthrow, hguard⟩)]
          have hnone := inv.none_of_unguarded hguard
          have hidle := inv.idle hnone
          refine Sending.piece [] ?_ ?_ ?_ inv.whole rfl
            (loops_sendView (setGuarded (wake s t) .send true) t item sent)
          · exact fun u => (hwoken u).trans (hnone u)
          · simp [setGuarded]
          · simpa [Sends.unfinished, hidle] using inv.accounted
  | sendWait view f =>
      have ht : (s.loop.point t).unsent = some view := by
        rw [hp]
        rfl
      have hnone : ∀ u, ((wake s t).loop.point u).unsent = none := by
        intro u
        rw [unsent_wake]
        split_ifs with hut
        · rfl
        · cases hu : (s.loop.point u).unsent with
          | none => rfl
          | some view' => exact absurd (inv.single u t view' view hu ht) hut
      obtain ⟨before, hcurrent⟩ := inv.current t view ht
      have haccounted : h.accepted = (h.past.map Sent.taken).flatten ++ before := by
        simpa [Sends.unfinished, hcurrent] using inv.accounted
      simp only [RawSocket.resume, recordSends, hp]
      split_ifs
      · have hleft : ∀ u, ((setGuarded (wake s t) .send false).loop.point u).unsent = none :=
          hnone
        exact Sending.finished hleft haccounted inv.whole hcurrent (List.prefix_append _ _) false
          fun h => by cases h
      · exact Sending.piece before hnone (inv.guarded t view ht) haccounted inv.whole hcurrent
          (loops_sendView (wake s t) t view sent)

omit [DecidableEq τ] in
/-- Completing a stored future moves no task. -/
theorem complete_frame {side : Side} (hs : complete s side = some s') :
    (∀ u, s'.loop.point u = s.loop.point u) ∧ s'.half = s.half := by
  unfold complete at hs
  cases hf : (s.half side).future with
  | none =>
      simp only [hf] at hs
      cases hs
      exact ⟨fun _ => rfl, rfl⟩
  | some f =>
      simp only [hf] at hs
      obtain ⟨l, hl, rfl⟩ := Option.map_eq_some_iff.mp hs
      obtain ⟨-, rfl⟩ := Loop.setResult_eq_some.mp hl
      exact ⟨fun _ => rfl, rfl⟩

omit [DecidableEq τ] in
theorem aclose_frame (s : State τ) :
    (∀ u, (aclose s).1.loop.point u = s.loop.point u) ∧ (aclose s).1.half = s.half := by
  unfold aclose
  split_ifs
  · exact ⟨fun _ => rfl, rfl⟩
  · dsimp only
    split
    · exact ⟨fun _ => rfl, rfl⟩
    · rename_i woken hwoken
      obtain ⟨hpoint, hhalf⟩ := complete_frame hwoken
      split
      · exact ⟨hpoint, hhalf⟩
      · rename_i done hdone
        obtain ⟨hpoint', hhalf'⟩ := complete_frame hdone
        exact ⟨fun u => (hpoint' u).trans (hpoint u), hhalf'.trans hhalf⟩

theorem Sending.step (inv : Sending s h) (hs : step s a = some (s', o)) :
    Sending s' (recordSends h s a o) := by
  have hstart : ∀ t p, s.loop.point t = .outside → Point.unsent p = none → ∀ u,
      ((s.loop.moveTo t p).point u).unsent = (s.loop.point u).unsent := by
    intro t p ht hp u
    rw [Loop.moveTo_point]
    split_ifs with hut
    · rw [hp, hut, ht]
      rfl
    · rfl
  cases a with
  | receive t m =>
      obtain ⟨ht, ⟨⟩⟩ := Option.ite_none_right_eq_some.mp hs
      exact inv.frame (hstart t _ ht rfl) rfl
  | send t item =>
      obtain ⟨ht, ⟨⟩⟩ := Option.ite_none_right_eq_some.mp hs
      exact inv.frame (hstart t _ ht rfl) rfl
  | aclose t =>
      obtain ⟨-, heq⟩ := Option.ite_none_right_eq_some.mp hs
      obtain ⟨hpoint, hhalf⟩ := aclose_frame s
      rw [Option.some.inj heq] at hpoint hhalf
      exact inv.frame (fun u => by rw [hpoint]) (by rw [hhalf])
  | socketCloses =>
      cases hs
      exact inv.frame (fun _ => rfl) rfl
  | ready side =>
      obtain ⟨f, -, heq⟩ := Option.map_eq_some_iff.mp hs
      unfold ready at heq
      cases hl : s.loop.setResult f with
      | none =>
          simp only [hl] at heq
          cases heq
          exact inv
      | some l =>
          simp only [hl] at heq
          cases heq
          obtain ⟨-, rfl⟩ := Loop.setResult_eq_some.mp hl
          exact inv.frame (fun _ => rfl) rfl
  | doneCallback side =>
      simp only [step] at hs
      cases hf : (s.half side).future with
      | none => simp [hf] at hs
      | some f =>
          simp only [hf] at hs
          obtain ⟨-, heq⟩ := Option.ite_none_left_eq_some.mp hs
          cases heq
          exact inv.frame (fun _ => rfl) (doneCallback_guarded s side .send)
  | cancel t =>
      obtain ⟨-, ⟨⟩⟩ := Option.ite_none_right_eq_some.mp hs
      exact inv.frame (fun u => by rw [Loop.cancel_point]) rfl
  | resume t received sent =>
      obtain ⟨-, heq⟩ := Option.ite_none_right_eq_some.mp hs
      have hresume := inv.resume (t := t) received sent
      rwa [Option.some.inj heq] at hresume

/-- In every run the bytes that the socket took are those of the calls of `send()` one after
another, and then those of the call that is under way. Of each item that is a prefix, and the
whole item if the call returned. What a waiting call has left to send is the rest of its item. -/
theorem items_sent_in_turn
    (run : (sending τ).Reachable Machine.anyStep (RawSocket.initial τ, .empty) (s, h)) :
    h.accepted = (h.past.map Sent.taken).flatten ++ h.unfinished ∧
      (∀ x ∈ h.past, x.taken <+: x.item ∧ (x.returned = true → x.taken = x.item)) ∧
      ∀ t view f, s.loop.point t = .sendWait view f →
        h.current = some (h.unfinished ++ view, h.unfinished) := by
  have inv : Sending s h := run.invariant_history (I := Sending) .initial
    fun _ _ _ _ _ inv _ hs => inv.step hs
  refine ⟨inv.accounted, inv.whole, ?_⟩
  intro t view f hp
  obtain ⟨taken, hcurrent⟩ := inv.current t view (by rw [hp]; rfl)
  rw [hcurrent, Sends.unfinished, hcurrent]
  rfl

/-- The socket takes an item in two parts, and a byte of the next one. -/
def secondItem : State Unit × Sends :=
  ((sending Unit).exec Machine.anyStep (initial Unit, .empty)
    [.send () [1, 2, 3], .resume () .blocks [.gives 1], .ready .send, .doneCallback .send,
      .resume () .blocks [.gives 2], .send () [4, 5], .resume () .blocks [.gives 1]]).get
    (by decide)

theorem items_sent_in_turn_secondItem :
    secondItem.2.past = [⟨[1, 2, 3], [1, 2, 3], true⟩] ∧ secondItem.2.unfinished = [4] ∧
      secondItem.2.accepted =
        (secondItem.2.past.map Sent.taken).flatten ++ secondItem.2.unfinished ∧
      secondItem.2.current = some (secondItem.2.unfinished ++ [5], secondItem.2.unfinished) := by
  have run : (sending Unit).Reachable Machine.anyStep (initial Unit, .empty) secondItem :=
    Machine.exec_get_reachable _ _ _
  obtain ⟨haccepted, -, hcurrent⟩ := items_sent_in_turn run
  exact ⟨by decide, by decide, haccepted, hcurrent () [5] 1 (by decide)⟩

end Anyio.RawSocket
