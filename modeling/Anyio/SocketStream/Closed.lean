import Anyio.SocketStream.Invariant

/-!
# Calls on a socket stream that was closed

The flag `_closed` is set by the `aclose()` that finds the transport open, and by no
other. `receive()` looks at it only when the queue is empty, and `send()` before it
looks at anything else. What a call made after an `aclose()` raises is therefore
decided by the flag and the queue, unless the guard or a cancellation ends it first.
-/

namespace Anyio.SocketStream

open Asyncio Library

/-- Whether an `aclose()` has returned, and the tasks whose last call was a `receive()`
or a `send()` made after that. -/
structure Calls (τ : Type*) where
  completed : Bool
  late : τ → Bool

def Calls.start (τ : Type*) : Calls τ := ⟨false, fun _ => false⟩

variable {τ : Type*}

/-- The step in which an `aclose()` returns. -/
def closes (s : State τ) : Action τ → Answer → Bool
  | .aclose _, .returned _ => true
  | .resume t _, .returned _ => s.loop.point t = .acloseYield
  | _, _ => false

/-- A call made or continued after an `aclose()` has returned. -/
def Calls.Late (h : Calls τ) : Action τ → Prop
  | .receive _ _ | .send _ _ => h.completed = true
  | .resume t _ => h.late t = true
  | _ => False

/-- Where a call that ends raises `ClosedResourceError`: the guard has not refused it, no
cancellation is thrown, the flag is set, and no data is left for a `receive()`. -/
def FindsClosed (s : State τ) : Action τ → Prop
  | .resume t _ =>
      s.closed = true ∧ s.loop.throws t = false ∧
        ((s.loop.point t).receiving ≠ none → s.readQueue = [])
  | _ => False

theorem closes_resume {s : State τ} {t : τ} {refusal : Option String} {o : Answer}
    (hc : closes s (.resume t refusal) o = true) : s.loop.point t = .acloseYield := by
  cases o with
  | returned value => simpa [closes] using hc
  | raised e => cases hc
  | suspended p => cases hc

section Steps
variable [DecidableEq τ] {s s' : State τ} {a : Action τ} {o : Answer} {h : Calls τ} {t : τ}
  {m : Int} {refusal : Option String}

def Calls.record (h : Calls τ) (s : State τ) (a : Action τ) (o : Answer) : Calls τ where
  completed := h.completed || closes s a o
  late :=
    match a with
    | .receive t _ | .send t _ => Function.update h.late t h.completed
    | .aclose t => Function.update h.late t false
    | _ => h.late

abbrev calling (τ : Type*) [DecidableEq τ] : Machine (State τ × Calls τ) (Action τ) Answer :=
  (machine τ).withHistory Calls.record

/-- What holds in every state, with the calls made before it. -/
structure Lifetime (s : State τ) (h : Calls τ) : Prop where
  exception : ∀ e, s.exception = some e → e = .brokenResourceError
  closed : s.closed = true → s.transportClosing = true
  yielding : ∀ t, s.loop.point t = .acloseYield → s.transportClosing = true
  completed : h.completed = true → s.transportClosing = true
  late : ∀ t, h.late t = true → h.completed = true
  atCheckpoint : ∀ t, h.late t = true → s.loop.point t = .outside ∨
    (∃ m, s.loop.point t = .receiveCheckpoint m) ∨ (∃ item, s.loop.point t = .sendCheckpoint item) ∨
      s.closed = false ∧ ∃ f, s.loop.point t = .sendWait f

/-- The attributes that only `aclose()` and the transport change are as before. -/
structure SameEnds (s s' : State τ) : Prop where
  exception : s'.exception = s.exception
  closed : s'.closed = s.closed
  transportClosing : s'.transportClosing = s.transportClosing

omit [DecidableEq τ] in
theorem takeChunk_sameEnds (s : State τ) (m : Int) :
    SameEnds s (takeChunk s m).1 ∧ (takeChunk s m).1.loop = s.loop := by
  cases hq : s.readQueue with
  | nil => exact ⟨⟨by simp [takeChunk, hq], by simp [takeChunk, hq], by simp [takeChunk, hq]⟩,
      by simp [takeChunk, hq]⟩
  | cons first rest => exact ⟨⟨by simp [takeChunk, hq], by simp [takeChunk, hq],
      by simp [takeChunk, hq]⟩, by simp [takeChunk, hq]⟩

omit [DecidableEq τ] in
/-- A `receive()` that finds the queue empty. -/
theorem takeChunk_of_nil (hq : s.readQueue = []) :
    (takeChunk s m).2 = .raised (endOfReceive s) := by
  simp [takeChunk, hq]

omit [DecidableEq τ] in
theorem takeChunk_of_ne_nil (hq : s.readQueue ≠ []) :
    ∃ chunk, (takeChunk s m).2 = .returned (some chunk) := by
  obtain ⟨first, rest, hq⟩ := List.exists_cons_of_ne_nil hq
  exact ⟨(splitChunk first m).1, by simp [takeChunk, hq]⟩

omit [DecidableEq τ] in
/-- A successful `write()` finds the flag down. -/
theorem write_eq_ok {item : Bytes} (hw : write s item refusal = .ok s') :
    s.closed = false ∧ s' = { s with written := s.written ++ [item] } := by
  unfold write at hw
  split at hw
  · cases hw
  rename_i hc
  refine ⟨by simpa using hc, ?_⟩
  split at hw
  · cases hw
  · cases hw
  · exact (Except.ok.inj hw).symm

/-- The write of a `send()` leaves its task outside, or waiting under a flag that is down. -/
theorem sendItem_cases (item : Bytes) :
    SameEnds s (sendItem s t item refusal).1 ∧
      ((sendItem s t item refusal).1.loop = s.loop ∨
        s.closed = false ∧ ∀ u, (sendItem s t item refusal).1.loop.point u =
          if u = t then .sendWait s.loop.nextFuture else s.loop.point u) := by
  unfold sendItem
  cases hw : write s item refusal with
  | error e => exact ⟨⟨rfl, rfl, rfl⟩, .inl rfl⟩
  | ok s₁ =>
      obtain ⟨hc, rfl⟩ := write_eq_ok hw
      dsimp only
      split_ifs
      · exact ⟨⟨rfl, rfl, rfl⟩, .inl rfl⟩
      · refine ⟨⟨rfl, rfl, rfl⟩, .inr ⟨hc, ?_⟩⟩
        intro u
        simp

/-- The piece of a call that follows a wake-up touches neither the flag nor the transport, and
brings its task outside of the stream or to the end of a `send()` that found the flag down. -/
theorem resume_cases (refusal : Option String) :
    SameEnds s (resume s t refusal).1 ∧
      ((∀ u, (resume s t refusal).1.loop.point u = if u = t then .outside else s.loop.point u) ∨
        s.closed = false ∧ ∀ u, (resume s t refusal).1.loop.point u =
          if u = t then .sendWait s.loop.nextFuture else s.loop.point u) := by
  have hwake : ∀ u, (wake s t).loop.point u = if u = t then .outside else s.loop.point u :=
    fun u => Loop.resumeAt_point s.loop t u .outside
  unfold resume
  cases hp : s.loop.point t with
  | outside =>
      refine ⟨⟨rfl, rfl, rfl⟩, .inl fun u => ?_⟩
      split_ifs with hu
      · rw [hu]
        exact hp
      · rfl
  | receiveWait m f =>
      dsimp only
      split_ifs
      · exact ⟨⟨rfl, rfl, rfl⟩, .inl hwake⟩
      · obtain ⟨hends, hloop⟩ :=
          takeChunk_sameEnds { wake s t with readEvent := s.readEvent.leave f } m
        refine ⟨⟨hends.exception, hends.closed, hends.transportClosing⟩, .inl fun u => ?_⟩
        rw [hloop]
        exact hwake u
  | receiveCheckpoint m =>
      dsimp only
      split_ifs
      · exact ⟨⟨rfl, rfl, rfl⟩, .inl hwake⟩
      · obtain ⟨hends, hloop⟩ := takeChunk_sameEnds (wake s t) m
        refine ⟨⟨hends.exception, hends.closed, hends.transportClosing⟩, .inl fun u => ?_⟩
        rw [hloop]
        exact hwake u
  | sendCheckpoint item =>
      dsimp only
      split_ifs
      · exact ⟨⟨rfl, rfl, rfl⟩, .inl hwake⟩
      · have hsend : SameEnds (wake s t) (sendItem (wake s t) t item refusal).1 ∧ _ :=
          sendItem_cases item
        obtain ⟨hends, hloop | ⟨hc, hpoint⟩⟩ := hsend
        · refine ⟨⟨hends.exception, hends.closed, hends.transportClosing⟩, .inl fun u => ?_⟩
          rw [hloop]
          exact hwake u
        · refine ⟨⟨hends.exception, hends.closed, hends.transportClosing⟩, .inr ⟨hc, fun u => ?_⟩⟩
          rw [hpoint, hwake]
          split_ifs
          · rfl
          · rfl
  | sendWait f => exact ⟨⟨rfl, rfl, rfl⟩, .inl hwake⟩
  | acloseYield => exact ⟨⟨rfl, rfl, rfl⟩, .inl hwake⟩

omit [DecidableEq τ] in
theorem lifetime_initial : Lifetime (initial τ) (.start τ) := by
  constructor <;> simp [initial, Calls.start]

omit [DecidableEq τ] in
/-- Nobody moves, and the transport may have started to close. -/
theorem Lifetime.keep (hl : Lifetime s h)
    (hexception : ∀ e, s'.exception = some e → s.exception = some e ∨ e = .brokenResourceError)
    (hclosed : s'.closed = s.closed)
    (hclosing : s.transportClosing = true → s'.transportClosing = true)
    (hpoint : ∀ u, s'.loop.point u = s.loop.point u) : Lifetime s' h where
  exception e he := (hexception e he).elim (hl.exception e) id
  closed hc := hclosing (hl.closed (hclosed ▸ hc))
  yielding u hu := hclosing (hl.yielding u (hpoint u ▸ hu))
  completed hc := hclosing (hl.completed hc)
  late := hl.late
  atCheckpoint u hu := by
    rw [hpoint, hclosed]
    exact hl.atCheckpoint u hu

/-- Task `t` makes a `receive()` or a `send()`. A call made late comes to a checkpoint. -/
theorem Lifetime.call (hl : Lifetime s h) (hends : SameEnds s s')
    (hpoint : ∀ u ≠ t, s'.loop.point u = s.loop.point u)
    (hyield : s'.loop.point t ≠ .acloseYield)
    (hlate : h.completed = true → s'.loop.point t = .outside ∨
      (∃ m, s'.loop.point t = .receiveCheckpoint m) ∨
        ∃ item, s'.loop.point t = .sendCheckpoint item) :
    Lifetime s' { h with late := Function.update h.late t h.completed } where
  exception := by
    rw [hends.exception]
    exact hl.exception
  closed := by
    rw [hends.closed, hends.transportClosing]
    exact hl.closed
  yielding u hu := by
    rw [hends.transportClosing]
    apply hl.yielding u
    rw [← hpoint u]
    · exact hu
    · rintro rfl
      exact hyield hu
  completed := by
    rw [hends.transportClosing]
    exact hl.completed
  late u hu := by
    simp only [Function.update_apply] at hu
    split_ifs at hu
    · exact hu
    · exact hl.late u hu
  atCheckpoint u hu := by
    simp only [Function.update_apply] at hu
    split_ifs at hu with hut
    · subst hut
      exact (hlate hu).imp_right fun h => h.imp_right .inl
    · rw [hpoint u hut, hends.closed]
      exact hl.atCheckpoint u hu

theorem Lifetime.receive (hl : Lifetime s h) (hp : s.loop.point t = .outside) (m : Int) :
    Lifetime (receive s t m).1 { h with late := Function.update h.late t h.completed } := by
  unfold SocketStream.receive
  split_ifs with hg hwait
  · exact hl.call ⟨rfl, rfl, rfl⟩ (fun _ _ => rfl) (by simp [hp]) (fun _ => .inl hp)
  · refine Lifetime.call hl ⟨rfl, rfl, rfl⟩ ?_ ?_ ?_
    · intro u hu
      simp [hu]
    · simp
    · intro hc
      -- the transport is closing, so the call does not wait
      simp [hl.completed hc] at hwait
  · refine Lifetime.call hl ⟨rfl, rfl, rfl⟩ ?_ ?_ ?_
    · intro u hu
      simp [hu]
    · simp
    · exact fun _ => .inr (.inl ⟨m, by simp⟩)

theorem Lifetime.send (hl : Lifetime s h) (hp : s.loop.point t = .outside) (item : Bytes) :
    Lifetime (send s t item).1 { h with late := Function.update h.late t h.completed } := by
  unfold SocketStream.send
  split_ifs with hg
  · exact hl.call ⟨rfl, rfl, rfl⟩ (fun _ _ => rfl) (by simp [hp]) (fun _ => .inl hp)
  · refine Lifetime.call hl ⟨rfl, rfl, rfl⟩ ?_ ?_ ?_
    · intro u hu
      simp [hu]
    · simp
    · exact fun _ => .inr (.inr ⟨item, by simp⟩)

/-- An `aclose()` returns at once if the transport is closing; else no call was late so far. -/
theorem Lifetime.aclose (hl : Lifetime s h) (t : τ) :
    Lifetime (aclose s t).1 (h.record s (.aclose t) (aclose s t).2) := by
  unfold SocketStream.aclose
  split_ifs with hc
  · constructor
    · exact hl.exception
    · exact hl.closed
    · exact hl.yielding
    · exact fun _ => hc
    · intro u hu
      simp [Calls.record, closes]
    · intro u hu
      apply hl.atCheckpoint u
      simp only [Calls.record, Function.update_apply] at hu
      split_ifs at hu
      exact hu
  · have hcompleted : h.completed = false := by
      apply Bool.eq_false_iff.mpr
      exact fun hd => hc (hl.completed hd)
    have hnone : ∀ u, (h.record s (.aclose t) (.suspended .acloseYield)).late u = false := by
      intro u
      simp only [Calls.record, Function.update_apply]
      split_ifs
      · rfl
      · apply Bool.eq_false_iff.mpr
        intro hu
        simp [hl.late u hu] at hcompleted
    constructor
    · exact hl.exception
    · exact fun _ => rfl
    · exact fun _ _ => rfl
    · exact fun _ => rfl
    · intro u hu
      simp [hnone u] at hu
    · intro u hu
      simp [hnone u] at hu

theorem Lifetime.resume (hl : Lifetime s h) (refusal : Option String) :
    Lifetime (resume s t refusal).1
      (h.record s (.resume t refusal) (resume s t refusal).2) := by
  obtain ⟨hends, hpoint⟩ := resume_cases (s := s) (t := t) refusal
  have hother : ∀ u ≠ t, (SocketStream.resume s t refusal).1.loop.point u = s.loop.point u := by
    intro u hu
    rcases hpoint with hpoint | ⟨-, hpoint⟩
    · rw [hpoint, if_neg hu]
    · rw [hpoint, if_neg hu]
  constructor
  · rw [hends.exception]
    exact hl.exception
  · rw [hends.closed, hends.transportClosing]
    exact hl.closed
  · intro u hu
    rw [hends.transportClosing]
    apply hl.yielding u
    rw [← hother u]
    · exact hu
    · rintro rfl
      rcases hpoint with hpoint | ⟨-, hpoint⟩
      · simp [hpoint] at hu
      · simp [hpoint] at hu
  · intro hc
    rw [hends.transportClosing]
    simp only [Calls.record, Bool.or_eq_true] at hc
    rcases hc with hc | hc
    · exact hl.completed hc
    · exact hl.yielding t (closes_resume hc)
  · intro u hu
    simp [Calls.record, hl.late u hu]
  · intro u hu
    have hat := hl.atCheckpoint u hu
    rw [hends.closed]
    rcases eq_or_ne u t with rfl | hut
    · rcases hpoint with hpoint | ⟨hc, hpoint⟩
      · left
        simp [hpoint]
      · right; right; right
        exact ⟨hc, _, by simp [hpoint]; rfl⟩
    · rw [hother u hut]
      exact hat

/-- A step in which no call is made and none ends records nothing. -/
theorem record_eq_self (hcloses : closes s a o = false)
    (hlate : (h.record s a o).late = h.late) : h.record s a o = h := by
  have hcompleted : (h.record s a o).completed = h.completed := by simp [Calls.record, hcloses]
  cases h
  cases hr : Calls.record _ s a o
  simp_all

theorem Lifetime.step (hl : Lifetime s h) (hs : step s a = some (s', o)) :
    Lifetime s' (h.record s a o) := by
  cases a with
  | receive t m =>
      obtain ⟨hp, he⟩ := Option.ite_none_right_eq_some.mp hs
      have hr := hl.receive hp m
      rw [Option.some.inj he] at hr
      simpa [Calls.record, closes] using hr
  | send t item =>
      obtain ⟨hp, he⟩ := Option.ite_none_right_eq_some.mp hs
      have hr := hl.send hp item
      rw [Option.some.inj he] at hr
      simpa [Calls.record, closes] using hr
  | aclose t =>
      obtain ⟨-, he⟩ := Option.ite_none_right_eq_some.mp hs
      have hr := hl.aclose t
      rwa [Option.some.inj he] at hr
  | dataReceived data =>
      cases hs
      rw [record_eq_self rfl rfl]
      exact hl.keep (fun e he => .inl he) rfl id
        (fun u => by simp [dataReceived, setReadEvent])
  | eofReceived =>
      cases hs
      rw [record_eq_self rfl rfl]
      exact hl.keep (fun e he => .inl he) rfl id (fun u => by simp [eofReceived, setReadEvent])
  | connectionLost exc =>
      cases hs
      rw [record_eq_self rfl rfl]
      refine hl.keep ?_ rfl id (fun u => by simp [connectionLost, setReadEvent, setWriteEvent])
      intro e he
      simp only [connectionLost, setReadEvent, setWriteEvent] at he
      split_ifs at he
      · right
        exact (Option.some.inj he).symm
      · exact .inl he
  | pauseWriting =>
      cases hs
      rw [record_eq_self rfl rfl]
      exact hl.keep (fun e he => .inl he) rfl id (fun _ => rfl)
  | resumeWriting =>
      cases hs
      rw [record_eq_self rfl rfl]
      exact hl.keep (fun e he => .inl he) rfl id (fun u => by simp [setWriteEvent])
  | transportCloses =>
      cases hs
      rw [record_eq_self rfl rfl]
      exact hl.keep (fun e he => .inl he) rfl (fun _ => rfl) (fun _ => rfl)
  | cancel t =>
      obtain ⟨-, he⟩ := Option.ite_none_right_eq_some.mp hs
      cases he
      rw [record_eq_self rfl rfl]
      exact hl.keep (fun e he => .inl he) rfl id (fun u => by simp)
  | resume t refusal =>
      obtain ⟨-, he⟩ := Option.ite_none_right_eq_some.mp hs
      have hr := hl.resume (t := t) refusal
      rwa [Option.some.inj he] at hr

theorem lifetime_of_reachable
    (run : (calling τ).Reachable Machine.anyStep (initial τ, .start τ) (s, h)) : Lifetime s h :=
  run.invariant_history lifetime_initial fun _ _ _ _ _ hl _ hs => hl.step hs

omit [DecidableEq τ] in
/-- The exception of a `receive()` that finds the queue empty is decided by the flag. -/
theorem Lifetime.endOfReceive (hl : Lifetime s h) :
    endOfReceive s = .closedResourceError ↔ s.closed = true := by
  unfold SocketStream.endOfReceive
  split_ifs with hc
  · simp [hc]
  · cases he : s.exception with
    | none => simp [hc]
    | some e => simp [hc, hl.exception e he]

omit [DecidableEq τ] in
/-- So is the exception of a `write()`. -/
theorem Lifetime.write_error {item : Bytes} {e : Error} (hl : Lifetime s h)
    (hexception : s'.exception = s.exception) (hclosed : s'.closed = s.closed)
    (hw : write s' item refusal = .error e) : e = .closedResourceError ↔ s.closed = true := by
  unfold write at hw
  rw [hexception, hclosed] at hw
  split at hw
  · rename_i hc
    cases hw
    simp [hc]
  · rename_i hc
    split at hw
    · rename_i he
      cases hw
      simp [hc, hl.exception _ he]
    · cases hw
      split_ifs <;> simp [hc]
    · cases hw

/-- The piece of a late call that follows its checkpoint. -/
theorem Lifetime.resume_ends (hl : Lifetime s h) (hlate : h.late t = true)
    (hp : s.loop.point t ≠ .outside) (refusal : Option String) :
    (SocketStream.resume s t refusal).2 = .raised .closedResourceError ↔
      FindsClosed s (.resume t refusal) := by
  rcases hl.atCheckpoint t hlate with hout | ⟨m, hm⟩ | ⟨item, hi⟩ | ⟨hc, f, hf⟩
  · exact absurd hout hp
  · simp only [SocketStream.resume, FindsClosed, hm]
    split_ifs with hthrow
    · simp [hthrow]
    · by_cases hq : s.readQueue = []
      · have hraise : (takeChunk (wake s t) m).2 = .raised (SocketStream.endOfReceive s) :=
          takeChunk_of_nil (s := wake s t) hq
        simp [hraise, hl.endOfReceive, hthrow, hq]
      · obtain ⟨chunk, hchunk⟩ := takeChunk_of_ne_nil (s := wake s t) (m := m) hq
        simp [hchunk, hq, Point.receiving]
  · simp only [SocketStream.resume, FindsClosed, hi]
    split_ifs with hthrow
    · simp [hthrow]
    · unfold sendItem
      cases hw : write (wake s t) item refusal with
      | error e =>
          have herr := hl.write_error (by rfl) (by rfl) hw
          simp [herr, hthrow, Point.receiving]
      | ok s₁ =>
          obtain ⟨hc, rfl⟩ := write_eq_ok hw
          have hc : s.closed = false := hc
          dsimp only
          split_ifs <;> simp [hc]
  · simp only [SocketStream.resume, FindsClosed, hf]
    split_ifs <;> simp [hc]

/-- In every run, a `receive()` or a `send()` that is made after an `aclose()` has returned
and that ends raises `ClosedResourceError` if and only if the guard does not refuse it, no
cancellation is thrown, the flag `_closed` is set, and no data is left for the `receive()`.
Under the flag it never waits: its next piece is queued and ends it. -/
theorem late_calls_raise
    (run : (calling τ).Reachable Machine.anyStep (initial τ, .start τ) (s, h)) :
    (∀ a s' o, (machine τ).step s a = some (s', o) → h.Late a → (∀ p, o ≠ .suspended p) →
      (o = .raised .closedResourceError ↔ FindsClosed s a)) ∧
    ∀ t, h.late t = true → s.loop.point t ≠ .outside → s.closed = true →
      s.loop.wakeUpQueued t = true ∧
        ∀ refusal s' o, (machine τ).step s (.resume t refusal) = some (s', o) →
          ∀ p, o ≠ .suspended p := by
  have hl := lifetime_of_reachable run
  constructor
  · intro a s' o hs hlate hend
    cases a with
    | receive t m =>
        obtain ⟨hp, he⟩ := Option.ite_none_right_eq_some.mp hs
        simp only [SocketStream.receive] at he
        split_ifs at he
        · cases he
          simp [FindsClosed]
        · cases he
          exact absurd rfl (hend _)
        · cases he
          exact absurd rfl (hend _)
    | send t item =>
        obtain ⟨hp, he⟩ := Option.ite_none_right_eq_some.mp hs
        simp only [SocketStream.send] at he
        split_ifs at he
        · cases he
          simp [FindsClosed]
        · cases he
          exact absurd rfl (hend _)
    | resume t refusal =>
        obtain ⟨hw, he⟩ := Option.ite_none_right_eq_some.mp hs
        have hp : s.loop.point t ≠ .outside := by
          intro hp
          simp [Loop.wakeUpQueued, Loop.waits, hp, Coroutine.waits] at hw
        have hr := hl.resume_ends hlate hp refusal
        rwa [Option.some.inj he] at hr
    | _ => cases hlate
  · intro t hlate hp hc
    have hclosed : ∀ item, write (wake s t) item = fun _ => .error .closedResourceError := by
      intro item
      funext refusal
      simp [write, wake, hc]
    have hstep : ∀ refusal s' o, (machine τ).step s (.resume t refusal) = some (s', o) →
        o = (SocketStream.resume s t refusal).2 := by
      intro refusal s' o hs
      obtain ⟨-, he⟩ := Option.ite_none_right_eq_some.mp hs
      rw [Option.some.inj he]
    rcases hl.atCheckpoint t hlate with hout | ⟨m, hm⟩ | ⟨item, hi⟩ | ⟨hopen, -⟩
    · exact absurd hout hp
    · refine ⟨by simp [Loop.wakeUpQueued, Loop.waits, hm, Coroutine.waits], ?_⟩
      intro refusal s' o hs p
      rw [hstep refusal s' o hs]
      simp only [SocketStream.resume, hm]
      split_ifs
      · simp
      · by_cases hq : s.readQueue = []
        · simp [takeChunk_of_nil (s := wake s t) hq]
        · obtain ⟨chunk, hchunk⟩ := takeChunk_of_ne_nil (s := wake s t) (m := m) hq
          simp [hchunk]
    · refine ⟨by simp [Loop.wakeUpQueued, Loop.waits, hi, Coroutine.waits], ?_⟩
      intro refusal s' o hs p
      rw [hstep refusal s' o hs]
      simp only [SocketStream.resume, hi]
      split_ifs
      · simp
      · simp [sendItem, hclosed]
    · simp [hopen] at hc

/-- A stream that is drained and closed, and then read. -/
def drainedAndClosed : State (Fin 2) × Calls (Fin 2) :=
  ((calling (Fin 2)).exec Machine.anyStep (initial (Fin 2), .start (Fin 2))
    [.dataReceived [1, 2], .receive 0 2, .resume 0 none, .aclose 1, .resume 1 none,
      .connectionLost false, .receive 0 2]).get (by decide)

theorem late_calls_raise_drained :
    drainedAndClosed.1.loop.wakeUpQueued 0 = true ∧
      (resume drainedAndClosed.1 0 none).2 = .raised .closedResourceError := by
  have run : (calling (Fin 2)).Reachable Machine.anyStep (initial (Fin 2), .start (Fin 2))
      drainedAndClosed := Machine.exec_get_reachable _ _ _
  obtain ⟨hends, hqueued⟩ :=
    late_calls_raise (s := drainedAndClosed.1) (h := drainedAndClosed.2) run
  have hs : (machine (Fin 2)).step drainedAndClosed.1 (.resume 0 none) =
      some (resume drainedAndClosed.1 0 none) := rfl
  obtain ⟨hqueued, hquiet⟩ := hqueued 0 (by decide) (by decide) (by decide)
  have hfinds : FindsClosed drainedAndClosed.1 (.resume 0 none) :=
    ⟨by decide, by decide, by decide⟩
  have hlate : drainedAndClosed.2.late 0 = true := by decide
  exact ⟨hqueued, (hends (.resume 0 none) _ _ hs hlate (hquiet none _ _ hs)).mpr hfinds⟩

/-- The peer closes the connection before `aclose()`, and the stream is read after it. -/
def lostAndClosed : State (Fin 2) × Calls (Fin 2) :=
  ((calling (Fin 2)).exec Machine.anyStep (initial (Fin 2), .start (Fin 2))
    [.transportCloses, .connectionLost false, .aclose 1, .receive 0 2]).get (by decide)

/-- An `aclose()` that finds the transport closing leaves the flag down: the next `receive()`
raises the end of the stream. -/
theorem late_calls_not_closed :
    ¬ ∀ (s : State (Fin 2)) (h : Calls (Fin 2)),
      (calling (Fin 2)).Reachable Machine.anyStep (initial (Fin 2), .start (Fin 2)) (s, h) →
      ∀ a s' o, (machine (Fin 2)).step s a = some (s', o) → h.Late a →
        (∀ p, o ≠ .suspended p) → o = .raised .closedResourceError := by
  intro hclaim
  have run : (calling (Fin 2)).Reachable Machine.anyStep (initial (Fin 2), .start (Fin 2))
      lostAndClosed := Machine.exec_get_reachable _ _ _
  have hs : (machine (Fin 2)).step lostAndClosed.1 (.resume 0 none) =
      some (resume lostAndClosed.1 0 none) := rfl
  have ho : (resume lostAndClosed.1 0 none).2 = .raised .endOfStream := by decide
  have hlate : lostAndClosed.2.late 0 = true := by decide
  have hquiet : ∀ p, (resume lostAndClosed.1 0 none).2 ≠ .suspended p := by
    rw [ho]
    simp
  have hclosed := hclaim lostAndClosed.1 lostAndClosed.2 run (.resume 0 none) _ _ hs hlate hquiet
  exact absurd (ho.symm.trans hclosed) (by decide)

end Steps

end Anyio.SocketStream
