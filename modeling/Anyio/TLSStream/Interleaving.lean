import Anyio.TLSStream.Session

/-!
# The bytes of interleaved calls

The write BIO is read out in the same step in which the SSL object has filled
it, so no call finds bytes of another one there, unless the SSL object failed.
-/

namespace Anyio.TLSStream

open Library

variable {ε ρ τ : Type*} {method : Method ε ρ} {compatible : Bool}

/-- What a piece of a call does to the two BIOs, whatever other calls left there. -/
structure Moved (s : State ε ρ) (r : Piece ε ρ) : Prop where
  conserved : sentBy r.2 ++ r.1.writeBio.data = s.writeBio.data ++ appendedBy r.2
  flushed : s.writeBio.data = [] → r.1.writeBio.data = [] ∨ ∃ e, r.1.point = .raised e
  filled : s.readBio.eof = false → writtenBy r.2 = receivedBy r.2
  refused : s.readBio.eof = true → writtenBy r.2 = []
  ended : s.readBio.eof = true → r.1.readBio.eof = true
  rest : r.1.readBio.data <:+ s.readBio.data ++ writtenBy r.2

variable {s s' : State ε ρ} {es : List Event} {a : Action}

theorem moved_raise (s : State ε ρ) (e : Error) : Moved s (s.raise e) where
  conserved := (pumped_raise s e).conserved
  flushed _ := .inr ⟨e, rfl⟩
  filled _ := rfl
  refused _ := rfl
  ended h := h
  rest := by simp [State.raise, writtenBy]

theorem moved_shut (s : State ε ρ) (e : Error) : Moved s (s.shut e) where
  conserved := (pumped_shut s e).conserved
  flushed _ := .inr ⟨e, rfl⟩
  filled _ := rfl
  refused _ := rfl
  ended _ := rfl
  rest := by simp [State.shut, writtenBy, Bio.writeEof]

theorem moved_flush (s : State ε ρ) (point : Point ρ) : Moved s (s.flush point) where
  conserved := (pumped_flush s point).conserved
  flushed _ := .inl rfl
  filled _ := rfl
  refused _ := rfl
  ended h := h
  rest := by simp [State.flush, writtenBy]

theorem moved_goTo (s : State ε ρ) (point : Point ρ) :
    Moved s ({ s with point := point }, []) where
  conserved := by simp [sentBy, appendedBy]
  flushed h := .inl h
  filled _ := rfl
  refused _ := rfl
  ended h := h
  rest := by simp [writtenBy]

/-- After a call of the method the write BIO is empty, or the loop ends with an exception. -/
theorem flushed_afterCall (s : State ε ρ) (verdict : Verdict ρ) :
    (afterCall compatible s verdict).1.writeBio.data = [] ∨
      ∃ e, (afterCall compatible s verdict).1.point = .raised e := by
  cases verdict with
  | wantRead =>
      dsimp only [afterCall]
      split_ifs with hpending
      · exact .inl rfl
      · exact .inl (not_not.mp hpending)
  | wantWrite => exact .inl rfl
  | syscallError => exact .inr ⟨_, rfl⟩
  | sslError isEof strerror =>
      dsimp only [afterCall]
      split_ifs
      · exact .inr ⟨_, rfl⟩
      · exact .inr ⟨_, rfl⟩
      · exact .inr ⟨_, rfl⟩
  | raises e => exact .inr ⟨e, rfl⟩
  | result value =>
      dsimp only [afterCall]
      split_ifs with hpending
      · exact .inl rfl
      · exact .inl (not_not.mp hpending)

variable (compatible) in
theorem moved_afterCall (s : State ε ρ) (verdict : Verdict ρ) :
    Moved s (afterCall compatible s verdict) := by
  cases verdict with
  | wantRead =>
      dsimp only [afterCall]
      split_ifs
      · exact moved_flush s _
      · exact moved_goTo s _
  | wantWrite => exact moved_flush s _
  | syscallError => exact moved_shut s _
  | sslError isEof strerror =>
      dsimp only [afterCall]
      split_ifs
      · exact moved_shut s _
      · exact moved_shut s _
      · exact moved_shut s _
  | raises e => exact moved_raise s e
  | result value =>
      dsimp only [afterCall]
      split_ifs
      · exact moved_flush s _
      · exact moved_goTo s _

variable (method compatible) in
theorem moved_callFunc (s : State ε ρ) : Moved s (callFunc method compatible s) := by
  have pumped := pumped_callFunc method compatible s
  unfold callFunc at pumped ⊢
  set c := method s.engine s.readBio.data s.readBio.eof
  have after := moved_afterCall compatible { s with
      engine := c.engine
      readBio := { s.readBio with data := s.readBio.data.drop c.consumed }
      writeBio := { s.writeBio with data := s.writeBio.data ++ c.appended } } c.verdict
  constructor
  · exact pumped.conserved
  · exact fun _ => flushed_afterCall _ _
  · exact fun _ => pumped.filled
  · exact after.refused
  · exact after.ended
  · apply after.rest.trans
    apply List.suffix_append_self_iff.mpr
    exact List.drop_suffix _ _

theorem moved_waitRaised (s : State ε ρ) (e : Error) :
    Moved s (waitRaised method compatible s e) := by
  cases e with
  | endOfStream =>
      have pumped : Pumped s (waitRaised method compatible s .endOfStream) :=
        pumped_waitRaised s .endOfStream
      obtain ⟨conserved, flushed, -, refused, ended, rest⟩ :=
        moved_callFunc method compatible { s with readBio := s.readBio.writeEof }
      exact ⟨conserved, flushed, fun _ => pumped.filled, fun _ => refused rfl,
        fun _ => ended rfl, rest⟩
  | osError message => exact moved_shut s _
  | _ => exact moved_raise s _

/-- Data that the read BIO takes. -/
theorem moved_received (s : State ε ρ) {readBio : Bio} {data : Bytes}
    (hw : s.readBio.write data = some readBio) :
    Moved s ((callFunc method compatible { s with readBio := readBio }).1,
      .received data :: .written data ::
        (callFunc method compatible { s with readBio := readBio }).2) := by
  have after := moved_callFunc method compatible { s with readBio := readBio }
  have hopen : s.readBio.eof = false := by
    by_contra heof
    rw [Bool.not_eq_false] at heof
    simp [Bio.write, heof] at hw
  have hbio : readBio.data = s.readBio.data ++ data := by
    simp only [Bio.write, hopen, Bool.false_eq_true, if_false, Option.some.injEq] at hw
    rw [← hw]
  constructor
  · exact (pumped_received s readBio data).conserved
  · exact after.flushed
  · exact fun _ => (pumped_received s readBio data).filled
  · exact fun heof => by simp [heof] at hopen
  · exact fun heof => by simp [heof] at hopen
  · have hrest := after.rest
    simp only [hbio, List.append_assoc] at hrest
    simpa [writtenBy] using hrest

/-- Data that the read BIO refuses. -/
theorem moved_refused (s : State ε ρ) {data : Bytes} (hw : s.readBio.write data = none) :
    Moved s ((s.raise writeAfterEof).1, [.received data]) := by
  have heof : s.readBio.eof = true := by simpa [Bio.write] using hw
  constructor
  · simp [State.raise, sentBy, appendedBy]
  · exact fun _ => .inr ⟨_, rfl⟩
  · exact fun hopen => by simp [heof] at hopen
  · exact fun _ => rfl
  · exact fun h => h
  · simp [State.raise, writtenBy]

theorem moved_step (hs : step method compatible s a = some (s', es)) : Moved s (s', es) := by
  cases a with
  | call =>
      dsimp only [step] at hs
      split at hs
      · rw [← Option.some.inj hs]
        exact moved_callFunc method compatible s
      · cases hs
  | sent thrown =>
      dsimp only [step] at hs
      split at hs
      · rw [← Option.some.inj hs]
        exact moved_goTo s _
      · rw [← Option.some.inj hs]
        exact moved_waitRaised s _
      · rw [← Option.some.inj hs]
        exact moved_callFunc method compatible s
      · rw [← Option.some.inj hs]
        exact moved_raise s _
      · rw [← Option.some.inj hs]
        exact moved_goTo s _
      · rw [← Option.some.inj hs]
        exact moved_raise s _
      · cases hs
  | received answer =>
      dsimp only [step] at hs
      split at hs
      · rw [← Option.some.inj hs]
        exact moved_waitRaised s _
      · split at hs
        · rename_i hw
          rw [← Option.some.inj hs]
          exact moved_refused s hw
        · rename_i hw
          rw [← Option.some.inj hs]
          exact moved_received s hw
      · cases hs

/-- The events of the pump in a session. -/
def Note.event? : Note τ → Option Event
  | .pumped event => some event
  | _ => none

def pumpedBy (h : List (Note τ)) : List Event := h.filterMap Note.event?

@[simp] theorem pumpedBy_append (h notes : List (Note τ)) :
    pumpedBy (h ++ notes) = pumpedBy h ++ pumpedBy notes := List.filterMap_append

@[simp] theorem pumpedBy_pumped (es : List Event) :
    pumpedBy (es.map (.pumped : Event → Note τ)) = es := by
  rw [pumpedBy, List.filterMap_map]
  exact List.filterMap_some

/-- The call has had an exception from `_call_sslobject_method()`, or has raised one later. -/
def Stage.failed : Stage → Bool
  | .closing (some _) | .raised _ | .dismissed _ => true
  | _ => false

namespace Session

variable [DecidableEq τ] {ssl : SslObject ε} {o : Options} {u u' : Session ε τ}
  {h notes : List (Note τ)} {act : SessionAction τ}

/-- What a step of the session can be: a piece of a call that begins or goes on, or a step at the
end of a call. -/
inductive Change (ssl : SslObject ε) (o : Options) (u : Session ε τ) : Step ε τ → Prop
  | begins {t request r} (hfree : u.calls t = none) (haccepts : u.accepts request = true)
      (hpumps : request ≠ .aclose ∨ o.standardCompatible = true)
      (hs : TLSStream.step (ssl.method request) o.standardCompatible (u.atPoint .start) .call =
        some r) :
      Change ssl o u ({ u with begun := true }.advance t request false r)
  | goesOn {t request point a expired r} (hcall : u.calls t = some (request, .calling point))
      (hs : TLSStream.step (ssl.method request) o.standardCompatible (u.atPoint point) a =
        some r) :
      Change ssl o u (u.advance t request expired r)
  | closesOnly {t} (hfree : u.calls t = none) (haccepts : u.wrapped = true)
      (hcompatible : o.standardCompatible = false) :
      Change ssl o u ({ u with begun := true }.close t .aclose none)
  | closed {t request cause thrown} (hcall : u.calls t = some (request, .closing cause)) :
      Change ssl o u (u.afterClose o t request cause thrown)
  | handled {t request thrown} (hcall : u.calls t = some (request, .handling)) :
      Change ssl o u
        (u.goTo t request ((thrown : Option Error).elim (.returned []) .raised), [])

theorem step_change {next : Step ε τ} (hs : step ssl o u act = some next) :
    Change ssl o u next := by
  cases act with
  | begins t request =>
      dsimp only [step] at hs
      split_ifs at hs with hguard honly
      · rw [← Option.some.inj hs]
        obtain ⟨rfl, hcompatible⟩ := honly
        exact .closesOnly hguard.1 hguard.2 hcompatible
      · obtain ⟨r, hr, rfl⟩ := Option.map_eq_some_iff.mp hs
        apply Change.begins hguard.1 hguard.2 _ hr
        rw [not_and_or, Bool.not_eq_false] at honly
        exact honly
  | answers t answer expired =>
      dsimp only [step] at hs
      split at hs
      · rename_i hcall
        obtain ⟨r, hr, rfl⟩ := Option.map_eq_some_iff.mp hs
        exact .goesOn hcall hr
      · cases hs
  | closed t thrown =>
      dsimp only [step] at hs
      split at hs
      · rename_i hcall
        rw [← Option.some.inj hs]
        exact .closed hcall
      · cases hs
  | handled t thrown =>
      dsimp only [step] at hs
      split at hs
      · rename_i hcall
        rw [← Option.some.inj hs]
        exact .handled hcall
      · cases hs

/-- No call has failed. -/
def NoneFailed (u : Session ε τ) : Prop :=
  ∀ t request stage, u.calls t = some (request, stage) → stage.failed = false

/-- The BIOs, with what the pump has done so far. -/
structure Shared (u : Session ε τ) (h : List Event) : Prop where
  conserved : sentBy h ++ u.writeBio.data = appendedBy h
  flushed : u.NoneFailed → u.writeBio.data = []
  filled : u.readBio.eof = false → writtenBy h = receivedBy h
  ahead : writtenBy h <+: receivedBy h
  rest : u.readBio.data <:+ writtenBy h

theorem NoneFailed.before {t : τ} {call : Option (Request × Stage)} (none : u'.NoneFailed)
    (hcalls : u'.calls = Function.update u.calls t call)
    (hold : ∀ request stage, u.calls t = some (request, stage) → stage.failed = false) :
    u.NoneFailed := by
  intro t' request stage hcall
  by_cases ht : t' = t
  · rw [ht] at hcall
    exact hold request stage hcall
  · apply none t' request stage
    rw [hcalls, Function.update_of_ne ht, hcall]

/-- What follows `_call_sslobject_method()` sets the call, which has failed after an exception. -/
theorem settle_calls (u : Session ε τ) (t : τ) (request : Request) (expired : Bool)
    (point : Point Bytes) :
    ∃ stage, (u.settle t request expired point).1.calls =
        Function.update u.calls t (some (request, stage)) ∧
      ∀ e, point = .raised e → stage.failed = true := by
  cases point with
  | raised e =>
      cases request <;> exact ⟨_, rfl, fun _ _ => rfl⟩
  | returned value =>
      cases request with
      | receive maxBytes =>
          dsimp only [settle]
          split_ifs
          · exact ⟨_, rfl, fun _ h => by cases h⟩
          · exact ⟨_, rfl, fun _ h => by cases h⟩
      | _ => exact ⟨_, rfl, fun _ h => by cases h⟩
  | _ => exact ⟨_, rfl, fun _ h => by cases h⟩

/-- What follows `_call_sslobject_method()` leaves the bytes of the BIOs, or drops those of the
read BIO after `unwrap()`. -/
theorem settle_bios (u : Session ε τ) (t : τ) (request : Request) (expired : Bool)
    (point : Point Bytes) :
    pumpedBy (u.settle t request expired point).2 = [] ∧
      (u.settle t request expired point).1.writeBio.data = u.writeBio.data ∧
      ((u.settle t request expired point).1.readBio = u.readBio ∨
        (u.settle t request expired point).1.readBio = u.readBio.writeEof.drained) := by
  cases point with
  | raised e => cases request <;> exact ⟨rfl, rfl, .inl rfl⟩
  | returned value =>
      cases request with
      | receive maxBytes =>
          dsimp only [settle]
          split_ifs
          · exact ⟨rfl, rfl, .inl rfl⟩
          · exact ⟨rfl, rfl, .inl rfl⟩
      | unwrap => exact ⟨rfl, rfl, .inr rfl⟩
      | aclose => exact ⟨rfl, rfl, .inr rfl⟩
      | _ => exact ⟨rfl, rfl, .inl rfl⟩
  | _ => exact ⟨rfl, rfl, .inl rfl⟩

/-- The end of `aclose()` of the transport sets the call, which stays failed. -/
theorem afterClose_calls (u : Session ε τ) (t : τ) (request : Request)
    (cause thrown : Option Error) :
    ∃ stage, (u.afterClose o t request cause thrown).1 = u.goTo t request stage ∧
      pumpedBy (u.afterClose o t request cause thrown).2 = [] ∧
      (stage.failed = false → cause = none) := by
  cases thrown with
  | some e => exact ⟨_, rfl, rfl, fun h => by cases h⟩
  | none =>
      cases cause with
      | none => exact ⟨_, rfl, rfl, fun _ => rfl⟩
      | some e =>
          cases request with
          | serve =>
              refine ⟨_, rfl, ?_, fun h => ?_⟩
              · dsimp only [afterClose]
                split_ifs <;> rfl
              · split_ifs at h <;> cases h
          | _ => exact ⟨_, rfl, rfl, fun h => by cases h⟩

omit [DecidableEq τ] in
/-- The bytes after a piece of a call, before what follows `_call_sslobject_method()`. -/
theorem Shared.moved {evs : List Event} (inv : Shared u evs) {point : Point Bytes}
    {r : Piece ε Bytes} (moved : Moved (u.atPoint point) r) :
    sentBy (evs ++ r.2) ++ r.1.writeBio.data = appendedBy (evs ++ r.2) ∧
      (r.1.readBio.eof = false → writtenBy (evs ++ r.2) = receivedBy (evs ++ r.2)) ∧
      writtenBy (evs ++ r.2) <+: receivedBy (evs ++ r.2) ∧
      r.1.readBio.data <:+ writtenBy (evs ++ r.2) := by
  have hsent : sentBy (evs ++ r.2) = sentBy evs ++ sentBy r.2 := by simp [sentBy]
  have happended : appendedBy (evs ++ r.2) = appendedBy evs ++ appendedBy r.2 := by
    simp [appendedBy]
  have hreceived : receivedBy (evs ++ r.2) = receivedBy evs ++ receivedBy r.2 := by
    simp [receivedBy]
  have hwritten : writtenBy (evs ++ r.2) = writtenBy evs ++ writtenBy r.2 := by simp [writtenBy]
  have hfilled : u.readBio.eof = false →
      writtenBy (evs ++ r.2) = receivedBy (evs ++ r.2) := by
    intro hopen
    rw [hwritten, hreceived, inv.filled hopen, moved.filled hopen]
  refine ⟨?_, ?_, ?_, ?_⟩
  · calc sentBy (evs ++ r.2) ++ r.1.writeBio.data
        = sentBy evs ++ (sentBy r.2 ++ r.1.writeBio.data) := by rw [hsent, List.append_assoc]
      _ = (sentBy evs ++ u.writeBio.data) ++ appendedBy r.2 := by
          rw [moved.conserved, List.append_assoc]
          rfl
      _ = appendedBy (evs ++ r.2) := by rw [inv.conserved, happended]
  · intro hopen
    apply hfilled
    by_contra heof
    rw [Bool.not_eq_false] at heof
    rw [moved.ended heof] at hopen
    cases hopen
  · by_cases hopen : u.readBio.eof = false
    · rw [hfilled hopen]
    · rw [Bool.not_eq_false] at hopen
      rw [hwritten, moved.refused hopen, List.append_nil, hreceived]
      exact inv.ahead.trans (List.prefix_append _ _)
  · rw [hwritten]
    apply moved.rest.trans
    apply List.suffix_append_self_iff.mpr
    exact inv.rest

theorem Shared.advance {evs : List Event} (inv : Shared u evs) {t : τ} {request : Request}
    {begun expired : Bool} {point : Point Bytes} {r : Piece ε Bytes}
    (moved : Moved (u.atPoint point) r)
    (hold : ∀ request stage, u.calls t = some (request, stage) → stage.failed = false) :
    Shared ({ u with begun := begun }.advance t request expired r).1
      (evs ++ pumpedBy ({ u with begun := begun }.advance t request expired r).2) := by
  obtain ⟨conserved, filled, ahead, rest⟩ := inv.moved moved
  dsimp only [Session.advance]
  set v : Session ε τ := { u with
    engine := r.1.engine, readBio := r.1.readBio, writeBio := r.1.writeBio, begun := begun }
  obtain ⟨stage, hcalls, hfailed⟩ := settle_calls v t request expired r.1.point
  obtain ⟨hnotes, hwrite, hread⟩ := settle_bios v t request expired r.1.point
  rw [pumpedBy_append, pumpedBy_pumped, hnotes, List.append_nil]
  constructor
  · rw [hwrite]
    exact conserved
  · intro none
    rw [hwrite]
    rcases moved.flushed (inv.flushed (none.before hcalls hold)) with hempty | ⟨e, he⟩
    · exact hempty
    · have hnot := none t request stage (by rw [hcalls, Function.update_self])
      rw [hfailed e he] at hnot
      cases hnot
  · rcases hread with hread | hread
    · rw [hread]
      exact filled
    · rw [hread]
      exact fun hopen => by cases hopen
  · exact ahead
  · rcases hread with hread | hread
    · rw [hread]
      exact rest
    · rw [hread]
      exact List.nil_suffix

omit [DecidableEq τ] in
theorem Shared.keeps {evs : List Event} (inv : Shared u evs) (hread : u'.readBio = u.readBio)
    (hwrite : u'.writeBio = u.writeBio) (hbefore : u'.NoneFailed → u.NoneFailed) :
    Shared u' evs where
  conserved := by rw [hwrite]; exact inv.conserved
  flushed none := by rw [hwrite]; exact inv.flushed (hbefore none)
  filled := by rw [hread]; exact inv.filled
  ahead := inv.ahead
  rest := by rw [hread]; exact inv.rest

theorem Shared.change {evs : List Event} {next : Step ε τ} (inv : Shared u evs)
    (hs : Change ssl o u next) : Shared next.1 (evs ++ pumpedBy next.2) := by
  cases hs with
  | begins hfree haccepts hpumps hs =>
      apply inv.advance (moved_step hs)
      intro request stage hcall
      rw [hfree] at hcall
      cases hcall
  | goesOn hcall hs =>
      apply inv.advance (moved_step hs)
      intro request stage hcall'
      rw [hcall] at hcall'
      cases hcall'
      rfl
  | @closesOnly t hfree haccepts hcompatible =>
      change Shared _ (evs ++ [])
      rw [List.append_nil]
      refine Shared.keeps inv ?_ ?_ (fun none => ?_)
      · rfl
      · rfl
      apply none.before (t := t) rfl
      intro request stage hcall
      rw [hfree] at hcall
      cases hcall
  | @closed t request cause thrown hcall =>
      obtain ⟨stage, hnext, hnotes, hfailed⟩ := afterClose_calls (o := o) u t request cause thrown
      rw [hnext, hnotes, List.append_nil]
      refine Shared.keeps inv ?_ ?_ (fun none => ?_)
      · rfl
      · rfl
      apply none.before (t := t) rfl
      intro request' stage' hcall'
      rw [hcall] at hcall'
      cases hcall'
      rw [hfailed (none t request stage (Function.update_self t _ _))]
      rfl
  | @handled t request thrown hcall =>
      change Shared _ (evs ++ [])
      rw [List.append_nil]
      refine Shared.keeps inv ?_ ?_ (fun none => ?_)
      · rfl
      · rfl
      apply none.before (t := t) rfl
      intro request' stage' hcall'
      rw [hcall] at hcall'
      cases hcall'
      rfl

omit [DecidableEq τ] in
theorem shared_initial (engine : ε) : Shared (initial engine : Session ε τ) [] where
  conserved := rfl
  flushed _ := rfl
  filled _ := rfl
  ahead := List.prefix_rfl
  rest := List.suffix_rfl

abbrev recording (ssl : SslObject ε) (o : Options) :
    Machine (Session ε τ × List (Note τ)) (SessionAction τ) (List (Note τ)) :=
  (machine ssl o).withHistory fun h _ _ notes => h ++ notes

/-- In every interleaving of the calls of a stream, what was passed to `send()`, with what is left
in the write BIO, is what the SSL object has appended, in order, and nothing is left there as long
as no call has failed. What was written to the read BIO is what was received, in order, as long as
its end has not been written, and the SSL object reads it in order. -/
theorem calls_conserve {engine : ε}
    (run : (recording ssl o).Reachable Machine.anyStep (initial engine, []) (u, h)) :
    sentBy (pumpedBy h) ++ u.writeBio.data = appendedBy (pumpedBy h) ∧
      ((∀ t request stage, u.calls t = some (request, stage) → stage.failed = false) →
        sentBy (pumpedBy h) = appendedBy (pumpedBy h)) ∧
      writtenBy (pumpedBy h) <+: receivedBy (pumpedBy h) ∧
      (u.readBio.eof = false → writtenBy (pumpedBy h) = receivedBy (pumpedBy h)) ∧
      u.readBio.data <:+ writtenBy (pumpedBy h) := by
  have inv : Shared u (pumpedBy h) := by
    apply run.invariant_history (I := fun u h => Shared u (pumpedBy h))
    · exact shared_initial engine
    · intro u h a u' notes inv _ hs
      rw [pumpedBy_append]
      exact inv.change (step_change hs)
  refine ⟨inv.conserved, fun none => ?_, inv.ahead, inv.filled, inv.rest⟩
  have hconserved := inv.conserved
  rwa [inv.flushed none, List.append_nil] at hconserved

/-- A session without encryption: a greeting on both sides, and a farewell. -/
def plainSsl : SslObject Bool where
  doHandshake greeted incoming _ :=
    if greeted then ⟨true, incoming.length, [], .result []⟩ else ⟨true, 0, [1], .wantRead⟩
  read maxBytes greeted incoming eof :=
    if incoming ≠ [] then
      ⟨greeted, maxBytes, [], .result (incoming.take maxBytes)⟩
    else if eof then ⟨greeted, 0, [], .result []⟩ else ⟨greeted, 0, [], .wantRead⟩
  write item greeted _ _ := ⟨greeted, 0, item, .result []⟩
  unwrap greeted _ _ := ⟨greeted, 0, [2], .result []⟩

def plainOptions : Options where
  standardCompatible := true
  baseException := fun exception => exception = "KeyboardInterrupt"

/-- After the handshake one task receives while another one sends. -/
def talking : Session Bool (Fin 3) × List (Note (Fin 3)) :=
  ((recording plainSsl plainOptions).exec Machine.anyStep (initial false, [])
    [.begins 0 .wrap, .answers 0 (.sent none) false, .answers 0 (.received (.ok [1])) false,
      .begins 1 (.receive 4), .begins 2 (.send [5, 6]),
      .answers 1 (.received (.ok [7, 8])) false]).get (by decide)

theorem calls_conserve_talking :
    talking.1.calls 1 = some (.receive 4, .returned [7, 8]) ∧
      talking.1.calls 2 = some (.send [5, 6], .calling (.flushBeforeReturn [])) ∧
      sentBy (pumpedBy talking.2) = appendedBy (pumpedBy talking.2) ∧
      writtenBy (pumpedBy talking.2) = receivedBy (pumpedBy talking.2) := by
  have run : (recording plainSsl plainOptions).Reachable Machine.anyStep (initial false, [])
      talking := Machine.exec_get_reachable _ _ _
  obtain ⟨-, hsent, -, hfilled, -⟩ := calls_conserve (u := talking.1) (h := talking.2) run
  have hnone : ∀ t, (talking.1.calls t).all (fun call => !call.2.failed) = true := by decide
  refine ⟨by decide, by decide, hsent ?_, hfilled (by decide)⟩
  intro t request stage hcall
  have hstage := hnone t
  rw [hcall] at hstage
  simpa using hstage

end Session

end Anyio.TLSStream
