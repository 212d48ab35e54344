import Anyio.TLSStream.Interleaving

/-!
# What becomes of the transport stream

`aclose()` closes the transport once, however the closing handshake ends. A
connection that a `TLSListener` has accepted is handed to the handler or closed
by `handle_handshake_error()`, and never both.
-/

namespace Anyio.TLSStream

open Library

variable {ε τ : Type*}

/-- The calls that make the handshake. -/
def Request.opens : Request → Bool
  | .wrap | .serve => true
  | _ => false

/-- The calls that end with the transport closed, or with the stream handed on. -/
def Request.disposes : Request → Bool
  | .serve | .aclose => true
  | _ => false

def Stage.isCalling : Stage → Bool
  | .calling _ => true
  | _ => false

def Stage.hasEnded : Stage → Bool
  | .returned _ | .raised _ | .dismissed _ => true
  | _ => false

/-- How often a call has closed the transport or handed the stream on. -/
def owed : Option (Request × Stage) → Nat
  | none | some (_, .calling _) => 0
  | some (request, _) => if request.disposes then 1 else 0

/-- What a step makes of one call, which is new or is called `call` before. -/
inductive Turn (o : Options) (t : τ) (call : Option (Request × Stage)) :
    Request → Stage → List (Note τ) → Prop
  | waits {request point} (live : call = none ∨ ∃ p, call = some (request, .calling p)) :
      Turn o t call request (.calling point) []
  | settles {request stage} (live : call = none ∨ ∃ p, call = some (request, .calling p))
      (hnot : request.disposes = false) (hstage : ∀ e, stage ≠ .dismissed e) :
      Turn o t call request stage []
  | hands (live : call = none ∨ ∃ p, call = some (.serve, .calling p)) :
      Turn o t call .serve .handling [.hands t]
  | closes {request cause} (live : call = none ∨ ∃ p, call = some (request, .calling p))
      (hdisposes : request.disposes = true) :
      Turn o t call request (.closing cause) [.closes t]
  | closed {request cause stage} (hcall : call = some (request, .closing cause))
      (hended : stage.hasEnded = true) (hstage : ∀ e, stage ≠ .dismissed e) :
      Turn o t call request stage []
  | logs {e stage} (hcall : call = some (.serve, .closing (some e))) (he : e ≠ .cancelledError)
      (hstage : stage = if o.reraises e then .raised e else .dismissed e) :
      Turn o t call .serve stage [.logs t e]
  | handled {request stage} (hcall : call = some (request, .handling))
      (hended : stage.hasEnded = true) (hstage : ∀ e, stage ≠ .dismissed e) :
      Turn o t call request stage []

section Turns

variable {o : Options} {t : τ} {call : Option (Request × Stage)} {request : Request}
  {stage : Stage} {tail : List (Note τ)}

theorem owed_live (live : call = none ∨ ∃ p, call = some (request, .calling p)) :
    owed call = 0 := by
  rcases live with rfl | ⟨p, rfl⟩ <;> rfl

theorem owed_of_not_calling (hstage : stage.isCalling = false) :
    owed (some (request, stage)) = if request.disposes then 1 else 0 := by
  cases stage <;> first | rfl | cases hstage

theorem Stage.isCalling_of_hasEnded (hended : stage.hasEnded = true) :
    stage.isCalling = false := by
  cases stage <;> first | rfl | cases hended

/-- A call keeps its request. -/
theorem Turn.request_eq (turn : Turn o t call request stage tail) {request' : Request}
    {stage' : Stage} (hcall : call = some (request', stage')) : request' = request := by
  cases turn with
  | waits live | settles live | hands live | closes live =>
      rcases live with hnone | ⟨p, hp⟩
      · rw [hcall] at hnone
        cases hnone
      · rw [hcall] at hp
        cases hp
        rfl
  | closed hcall' | logs hcall' | handled hcall' =>
      rw [hcall] at hcall'
      cases hcall'
      rfl

/-- A call that has ended makes no more steps. -/
theorem Turn.not_hasEnded (turn : Turn o t call request stage tail) {request' : Request}
    {stage' : Stage} (hcall : call = some (request', stage')) : stage'.hasEnded = false := by
  cases turn with
  | waits live | settles live | hands live | closes live =>
      rcases live with hnone | ⟨p, hp⟩
      · rw [hcall] at hnone
        cases hnone
      · rw [hcall] at hp
        cases hp
        rfl
  | closed hcall' | logs hcall' | handled hcall' =>
      rw [hcall] at hcall'
      cases hcall'
      rfl

variable [DecidableEq τ]

/-- A step closes the transport or hands the stream on as often as it makes the call owe it. -/
theorem Turn.counts (turn : Turn o t call request stage tail) :
    owed call + (tail.count (.closes t) + tail.count (.hands t)) =
      owed (some (request, stage)) := by
  cases turn with
  | waits live => rw [owed_live live]; rfl
  | settles live hnot =>
      rw [owed_live live]
      cases stage <;> simp [owed, hnot]
  | hands live => rw [owed_live live]; simp [owed, Request.disposes]
  | closes live hdisposes => rw [owed_live live]; simp [owed, hdisposes]
  | closed hcall hended =>
      rw [hcall, owed_of_not_calling (Stage.isCalling_of_hasEnded hended)]
      rfl
  | logs hcall he hstage =>
      have hended : stage.hasEnded = true := by split at hstage <;> rw [hstage] <;> rfl
      rw [hcall, owed_of_not_calling (Stage.isCalling_of_hasEnded hended)]
      simp [owed]
  | handled hcall hended =>
      rw [hcall, owed_of_not_calling (Stage.isCalling_of_hasEnded hended)]
      rfl

omit [DecidableEq τ] in
/-- What a step notes besides the events of the pump is about its own call. -/
theorem Turn.own (turn : Turn o t call request stage tail) {note : Note τ} (hn : note ∈ tail) :
    (note = .hands t ∧ request = .serve ∧ stage = .handling) ∨ note = .closes t ∨
      ∃ e, note = .logs t e ∧ e ≠ .cancelledError ∧ request = .serve ∧ stage.hasEnded = true := by
  cases turn with
  | waits live | settles live hnot hstage | closed hcall hended hstage
  | handled hcall hended hstage => cases hn
  | hands live => exact .inl ⟨List.mem_singleton.mp hn, rfl, rfl⟩
  | closes live hdisposes => exact .inr (.inl (List.mem_singleton.mp hn))
  | logs hcall he hstage =>
      refine .inr (.inr ⟨_, List.mem_singleton.mp hn, he, rfl, ?_⟩)
      split at hstage <;> rw [hstage] <;> rfl

end Turns

namespace Session

variable [DecidableEq τ] {ssl : SslObject ε} {o : Options} {u : Session ε τ}
  {h : List (Note τ)} {next : Step ε τ}

/-- A step of the session as a step of one of its calls. -/
structure Turned (o : Options) (u : Session ε τ) (next : Step ε τ) (t : τ) (request : Request)
    (stage : Stage) (es : List Event) (tail : List (Note τ)) : Prop where
  calls : next.1.calls = Function.update u.calls t (some (request, stage))
  notes : next.2 = es.map .pumped ++ tail
  turn : Turn o t (u.calls t) request stage tail
  accepted : u.calls t = none → u.accepts request = true
  wrapped : next.1.wrapped = u.wrapped ∨
    next.1.wrapped = true ∧ stage.isCalling = false ∧
      (request = .wrap ∨ request = .serve ∧ stage = .handling)
  begun : next.1.begun = true ∨ next.1.begun = u.begun ∧ u.calls t ≠ none

theorem turned_settle {v : Session ε τ} {t : τ} {request : Request} (expired : Bool)
    (point : Point Bytes) (hcalls : v.calls = u.calls) (hwrapped : v.wrapped = u.wrapped)
    (live : u.calls t = none ∨ ∃ p, u.calls t = some (request, .calling p))
    (haccepts : u.calls t = none → u.accepts request = true)
    (hbegun : v.begun = true ∨ v.begun = u.begun ∧ u.calls t ≠ none) (es : List Event) :
    ∃ stage tail, Turned o u ((v.settle t request expired point).1,
      es.map .pumped ++ (v.settle t request expired point).2) t request stage es tail := by
  have base : ∀ {w : Session ε τ} {stage tail}, w.calls = v.calls → w.begun = v.begun →
      (w.wrapped = u.wrapped ∨
        w.wrapped = true ∧ stage.isCalling = false ∧
          (request = .wrap ∨ request = .serve ∧ stage = .handling)) →
      Turn o t (u.calls t) request stage tail →
      Turned o u (w.goTo t request stage, es.map .pumped ++ tail) t request stage es tail := by
    intro w stage tail hw hb hwr turn
    refine ⟨?_, rfl, turn, haccepts, hwr, ?_⟩
    · rw [← hcalls, ← hw]
      rfl
    · change w.begun = true ∨ w.begun = u.begun ∧ _
      rwa [hb]
  cases point with
  | raised e =>
      cases request with
      | serve => exact ⟨_, _, base rfl rfl (.inl hwrapped) (.closes live rfl)⟩
      | aclose => exact ⟨_, _, base rfl rfl (.inl hwrapped) (.closes live rfl)⟩
      | _ => exact ⟨_, _, base rfl rfl (.inl hwrapped) (.settles live rfl (by simp))⟩
  | returned value =>
      cases request with
      | wrap => exact ⟨_, _, base rfl rfl (.inr ⟨rfl, rfl, .inl rfl⟩) (.settles live rfl (by simp))⟩
      | serve => exact ⟨_, _, base rfl rfl (.inr ⟨rfl, rfl, .inr ⟨rfl, rfl⟩⟩) (.hands live)⟩
      | receive maxBytes =>
          dsimp only [settle]
          split_ifs
          · exact ⟨_, _, base rfl rfl (.inl hwrapped) (.settles live rfl (by simp))⟩
          · exact ⟨_, _, base rfl rfl (.inl hwrapped) (.settles live rfl (by simp))⟩
      | send item => exact ⟨_, _, base rfl rfl (.inl hwrapped) (.settles live rfl (by simp))⟩
      | unwrap => exact ⟨_, _, base rfl rfl (.inl hwrapped) (.settles live rfl (by simp))⟩
      | aclose => exact ⟨_, _, base rfl rfl (.inl hwrapped) (.closes live rfl)⟩
  | _ => exact ⟨_, _, base rfl rfl (.inl hwrapped) (.waits live)⟩

theorem turned_of_change (hs : Change ssl o u next) :
    ∃ t request stage es tail, Turned o u next t request stage es tail := by
  cases hs with
  | @begins t request r hfree haccepts hpumps hs =>
      obtain ⟨stage, tail, turned⟩ := turned_settle (o := o) (u := u)
        (v := { u with
          engine := r.1.engine, readBio := r.1.readBio, writeBio := r.1.writeBio, begun := true })
        false r.1.point rfl rfl (.inl hfree) (fun _ => haccepts) (.inl rfl) r.2
      exact ⟨t, request, stage, r.2, tail, turned⟩
  | @goesOn t request point a expired r hcall hs =>
      obtain ⟨stage, tail, turned⟩ := turned_settle (o := o) (u := u)
        (v := { u with engine := r.1.engine, readBio := r.1.readBio, writeBio := r.1.writeBio })
        expired r.1.point rfl rfl (.inr ⟨point, hcall⟩)
        (fun hnone => by rw [hcall] at hnone; cases hnone)
        (.inr ⟨rfl, by rw [hcall]; simp⟩) r.2
      exact ⟨t, request, stage, r.2, tail, turned⟩
  | @closesOnly t hfree haccepts hcompatible =>
      refine ⟨t, .aclose, .closing none, [], [.closes t], rfl, rfl, .closes (.inl hfree) rfl,
        fun _ => haccepts, .inl rfl, .inl rfl⟩
  | @closed t request cause thrown hcall =>
      have base : ∀ {stage tail}, Turn o t (u.calls t) request stage tail →
          Turned o u (u.goTo t request stage, tail) t request stage [] tail := by
        intro stage tail turn
        refine ⟨rfl, rfl, turn, fun hnone => ?_, .inl rfl, .inr ⟨rfl, ?_⟩⟩
        · rw [hcall] at hnone
          cases hnone
        · rw [hcall]
          simp
      cases thrown with
      | some e => exact ⟨t, request, _, [], _, base (.closed hcall rfl (by simp))⟩
      | none =>
          cases cause with
          | none => exact ⟨t, request, _, [], _, base (.closed hcall rfl (by simp))⟩
          | some e =>
              cases request with
              | serve =>
                  by_cases he : e = .cancelledError
                  · subst he
                    refine ⟨t, .serve, _, [], _, base (.closed hcall rfl ?_)⟩
                    simp [Options.reraises]
                  · refine ⟨t, .serve, if o.reraises e then .raised e else .dismissed e, [],
                      [.logs t e], ?_⟩
                    have turned := base (.logs hcall he rfl)
                    dsimp only [afterClose]
                    rwa [if_neg he]
              | _ => exact ⟨t, _, _, [], _, base (.closed hcall rfl (by simp))⟩
  | @handled t request thrown hcall =>
      have hstage : ∀ e, (thrown.elim (.returned []) .raised : Stage) ≠ .dismissed e := by
        cases thrown <;> simp
      have hended : (thrown.elim (.returned []) .raised : Stage).hasEnded = true := by
        cases thrown <;> rfl
      refine ⟨t, request, _, [], [], rfl, rfl, .handled hcall hended hstage, fun hnone => ?_,
        .inl rfl, .inr ⟨rfl, ?_⟩⟩
      · rw [hcall] at hnone
        cases hnone
      · rw [hcall]
        simp

/-- Until the handshake is done, the call that makes it is the only one. -/
structure Opening (u : Session ε τ) : Prop where
  fresh : u.begun = false → u.wrapped = false ∧ ∀ t, u.calls t = none
  handshake : ∀ t request point, u.calls t = some (request, .calling point) →
    request.opens = true → u.wrapped = false
  alone : u.wrapped = false → ∀ t t', u.calls t ≠ none → u.calls t' ≠ none → t = t'

variable {t : τ} {request : Request} {stage : Stage} {es : List Event} {tail : List (Note τ)}

omit [DecidableEq τ] in
theorem accepts_eq (u : Session ε τ) (request : Request) :
    u.accepts request = if request.opens then !u.begun else u.wrapped := by
  cases request <;> rfl

/-- The call of a step is the only one, if there was no other call before the handshake. -/
theorem Opening.alone_turned (inv : Opening u) (turned : Turned o u next t request stage es tail)
    (hwrapped : u.wrapped = false) {t' : τ} (hcall : u.calls t' ≠ none) : t' = t := by
  by_cases hnew : u.calls t = none
  · have haccepts := turned.accepted hnew
    have hbegun : u.begun = false := by
      rw [accepts_eq, hwrapped] at haccepts
      split at haccepts
      · simpa using haccepts
      · cases haccepts
    exact absurd ((inv.fresh hbegun).2 t') hcall
  · exact inv.alone hwrapped t' t hcall hnew

omit [DecidableEq τ] in
/-- A call that goes on with the handshake has not done it yet. -/
theorem Opening.live (inv : Opening u) (haccepted : u.calls t = none → u.accepts request = true)
    (live : u.calls t = none ∨ ∃ p, u.calls t = some (request, .calling p))
    (hopens : request.opens = true) : u.wrapped = false := by
  rcases live with hnew | ⟨p, hp⟩
  · have haccepts := haccepted hnew
    have hbegun : u.begun = false := by
      rw [accepts_eq, if_pos hopens] at haccepts
      simpa using haccepts
    exact (inv.fresh hbegun).1
  · exact inv.handshake t request p hp hopens

theorem Opening.turned (inv : Opening u) (turned : Turned o u next t request stage es tail) :
    Opening next.1 := by
  have hmono : next.1.wrapped = false → u.wrapped = false := by
    intro hnext
    rcases turned.wrapped with hsame | ⟨hdone, -⟩
    · rw [← hsame]
      exact hnext
    · rw [hnext] at hdone
      cases hdone
  have hold : ∀ {t'}, t' ≠ t → next.1.calls t' = u.calls t' := by
    intro t' ht
    rw [turned.calls, Function.update_of_ne ht]
  constructor
  · intro hfresh
    rcases turned.begun with hbegun | ⟨hbegun, hcall⟩
    · rw [hfresh] at hbegun
      cases hbegun
    · exact absurd ((inv.fresh (hbegun.symm.trans hfresh)).2 t) hcall
  · intro t' request' point hcall hopens
    by_cases ht : t' = t
    · rw [ht, turned.calls, Function.update_self] at hcall
      cases hcall
      rcases turned.wrapped with hsame | ⟨-, hstage, -⟩
      · rw [hsame]
        cases turned.turn with
        | waits live => exact inv.live turned.accepted live hopens
        | settles live => exact inv.live turned.accepted live hopens
        | closed _ hended => cases hended
        | logs _ _ hstage => split at hstage <;> cases hstage
        | handled _ hended => cases hended
      · cases hstage
    · rw [hold ht] at hcall
      have hwrapped := inv.handshake t' request' point hcall hopens
      exact absurd (inv.alone_turned turned hwrapped (by rw [hcall]; simp)) ht
  · intro hnext t₁ t₂ h₁ h₂
    have honly : ∀ t', next.1.calls t' ≠ none → t' = t := by
      intro t' hcall
      by_contra ht
      rw [hold ht] at hcall
      exact ht (inv.alone_turned turned (hmono hnext) hcall)
    rw [honly t₁ h₁, honly t₂ h₂]

/-- The closings of the transport, the streams handed on and the messages, with the calls that
they belong to. -/
structure Disposed (o : Options) (u : Session ε τ) (h : List (Note τ)) : Prop where
  counts : ∀ t, h.count (.closes t) + h.count (.hands t) = owed (u.calls t)
  hands : ∀ t, .hands t ∈ h → ∃ stage, u.calls t = some (.serve, stage)
  served : u.wrapped = true → ∀ t stage, u.calls t = some (.serve, stage) → .hands t ∈ h
  logs : ∀ t e, .logs t e ∈ h → e ≠ .cancelledError ∧
    ∃ stage, u.calls t = some (.serve, stage) ∧ stage.hasEnded = true
  dismissed : ∀ t request e, u.calls t = some (request, .dismissed e) →
    request = .serve ∧ o.reraises e = false ∧ .logs t e ∈ h

theorem Disposed.turned (inv : Disposed o u h) (opening : Opening u)
    (turned : Turned o u next t request stage es tail) : Disposed o next.1 (h ++ next.2) := by
  have hold : ∀ {t'}, t' ≠ t → next.1.calls t' = u.calls t' := by
    intro t' ht
    rw [turned.calls, Function.update_of_ne ht]
  have hself : next.1.calls t = some (request, stage) := by
    rw [turned.calls, Function.update_self]
  have hmem : ∀ {note}, note ∈ h ++ next.2 → note ∈ h ∨ note ∈ tail ∨ ∃ e, note = .pumped e := by
    intro note hn
    rw [turned.notes, List.mem_append, List.mem_append] at hn
    rcases hn with hn | hn | hn
    · exact .inl hn
    · obtain ⟨e, -, rfl⟩ := List.mem_map.mp hn
      exact .inr (.inr ⟨e, rfl⟩)
    · exact .inr (.inl hn)
  constructor
  · intro t'
    have hevents : ∀ {note : Note τ}, (∀ e, note ≠ .pumped e) →
        (h ++ next.2).count note = h.count note + tail.count note := by
      intro note hnote
      have hzero : (es.map (.pumped : Event → Note τ)).count note = 0 := by
        apply List.count_eq_zero_of_not_mem
        intro hn
        obtain ⟨e, -, he⟩ := List.mem_map.mp hn
        exact hnote e he.symm
      rw [turned.notes, List.count_append, List.count_append, hzero, Nat.zero_add]
    rw [hevents (by simp), hevents (by simp)]
    by_cases ht : t' = t
    · subst ht
      have hcounts := turned.turn.counts
      have hbefore := inv.counts t'
      rw [hself]
      omega
    · have hcloses : tail.count (.closes t') = 0 := by
        apply List.count_eq_zero_of_not_mem
        intro hn
        rcases turned.turn.own hn with ⟨hnote, -⟩ | hnote | ⟨e, hnote, -⟩
        · cases hnote
        · exact ht (Note.closes.inj hnote)
        · cases hnote
      have hhands : tail.count (.hands t') = 0 := by
        apply List.count_eq_zero_of_not_mem
        intro hn
        rcases turned.turn.own hn with ⟨hnote, -⟩ | hnote | ⟨e, hnote, -⟩
        · exact ht (Note.hands.inj hnote)
        · cases hnote
        · cases hnote
      rw [hold ht, ← inv.counts t']
      omega
  · intro t' hn
    rcases hmem hn with hn | hn | ⟨e, he⟩
    · obtain ⟨stage', hcall⟩ := inv.hands t' hn
      by_cases ht : t' = t
      · subst ht
        rw [hself, turned.turn.request_eq hcall]
        exact ⟨stage, rfl⟩
      · exact ⟨stage', (hold ht).trans hcall⟩
    · rcases turned.turn.own hn with ⟨hnote, rfl, -⟩ | hnote | ⟨e, hnote, -⟩
      · cases hnote
        exact ⟨stage, hself⟩
      · cases hnote
      · cases hnote
    · cases he
  · intro hwrapped t' stage' hcall
    by_cases ht : t' = t
    · subst ht
      rw [hself] at hcall
      cases hcall
      have hkept : stage.hasEnded = true → ∀ before, u.calls t' = some (.serve, before) →
          .hands t' ∈ h ++ next.2 := by
        intro hended before hcall
        apply List.mem_append_left
        apply inv.served _ t' before hcall
        rcases turned.wrapped with hsame | ⟨-, -, hrequest | ⟨-, hstage⟩⟩
        · rw [← hsame]
          exact hwrapped
        · cases hrequest
        · rw [hstage] at hended
          cases hended
      cases turned.turn with
      | waits live =>
          have hnot := opening.live turned.accepted live rfl
          rcases turned.wrapped with hsame | ⟨-, hstage, -⟩
          · rw [hsame, hnot] at hwrapped
            cases hwrapped
          · cases hstage
      | settles live hnot => cases hnot
      | hands live =>
          rw [turned.notes]
          simp
      | closes live =>
          have hnot := opening.live turned.accepted live rfl
          rcases turned.wrapped with hsame | ⟨-, -, hrequest | ⟨-, hstage⟩⟩
          · rw [hsame, hnot] at hwrapped
            cases hwrapped
          · cases hrequest
          · cases hstage
      | closed hcall hended | handled hcall hended => exact hkept hended _ hcall
      | logs hcall he hstage =>
          apply hkept _ _ hcall
          split at hstage <;> rw [hstage] <;> rfl
    · rw [hold ht] at hcall
      apply List.mem_append_left
      by_cases hbefore : u.wrapped = true
      · exact inv.served hbefore t' stage' hcall
      · rw [Bool.not_eq_true] at hbefore
        exact absurd (opening.alone_turned turned hbefore (by rw [hcall]; simp)) ht
  · intro t' e hn
    rcases hmem hn with hn | hn | ⟨e, he⟩
    · obtain ⟨he, stage', hcall, hended⟩ := inv.logs t' e hn
      have ht : t' ≠ t := by
        rintro rfl
        rw [turned.turn.not_hasEnded hcall] at hended
        cases hended
      exact ⟨he, stage', (hold ht).trans hcall, hended⟩
    · rcases turned.turn.own hn with ⟨hnote, -⟩ | hnote | ⟨e', hnote, he, rfl, hended⟩
      · cases hnote
      · cases hnote
      · cases hnote
        exact ⟨he, stage, hself, hended⟩
    · cases he
  · intro t' request' e hcall
    by_cases ht : t' = t
    · subst ht
      rw [hself] at hcall
      cases hcall
      rw [turned.notes]
      cases turned.turn with
      | settles _ _ hstage => exact absurd rfl (hstage e)
      | closed _ _ hstage => exact absurd rfl (hstage e)
      | handled _ _ hstage => exact absurd rfl (hstage e)
      | logs _ _ hstage =>
          split at hstage
          · cases hstage
          · rename_i hnot
            cases hstage
            exact ⟨rfl, Bool.eq_false_iff.mpr hnot, by simp⟩
    · rw [hold ht] at hcall
      obtain ⟨hrequest, hreraises, hlog⟩ := inv.dismissed t' request' e hcall
      exact ⟨hrequest, hreraises, List.mem_append_left _ hlog⟩

omit [DecidableEq τ] in
theorem opening_initial (engine : ε) : Opening (initial engine : Session ε τ) where
  fresh _ := ⟨rfl, fun _ => rfl⟩
  handshake t request point hcall := by cases hcall
  alone _ t t' hcall := absurd rfl hcall

theorem disposed_initial (engine : ε) : Disposed o (initial engine : Session ε τ) [] where
  counts _ := rfl
  hands t hn := by cases hn
  served hwrapped := by cases hwrapped
  logs t e hn := by cases hn
  dismissed t request e hcall := by cases hcall

/-- In every run, a call of `aclose()` that has ended has closed the transport once, whether the
closing handshake was done or not. `handler_wrapper()` has handed the stream to the handler or
closed the transport, never both, and where it has closed it nobody else has the stream. No other
call closes the transport. An error of the handshake that is not raised again has been logged, and
a cancellation never is. -/
theorem transport_closed_once {engine : ε}
    (run : (recording ssl o).Reachable Machine.anyStep (initial engine, []) (u, h))
    (hcall : u.calls t = some (request, stage)) (hended : stage.hasEnded = true) :
    (request = .aclose → h.count (.closes t) = 1 ∧ .hands t ∉ h) ∧
      (request = .serve → h.count (.closes t) + h.count (.hands t) = 1 ∧
        (.closes t ∈ h → ∀ t', u.calls t' ≠ none → t' = t)) ∧
      (request.disposes = false → .closes t ∉ h ∧ .hands t ∉ h) ∧
      (∀ e, stage = .dismissed e → o.reraises e = false ∧ .logs t e ∈ h) ∧
      .logs t .cancelledError ∉ h := by
  have inv : Opening u ∧ Disposed o u h := by
    apply run.invariant_history (I := fun u h => Opening u ∧ Disposed o u h)
    · exact ⟨opening_initial engine, disposed_initial engine⟩
    · rintro u h a u' notes ⟨opening, disposed⟩ _ hs
      obtain ⟨t, request, stage, es, tail, turned⟩ := turned_of_change (step_change hs)
      exact ⟨opening.turned turned, disposed.turned opening turned⟩
  obtain ⟨opening, disposed⟩ := inv
  have hcounts := disposed.counts t
  rw [hcall, owed_of_not_calling (Stage.isCalling_of_hasEnded hended)] at hcounts
  have hserved : .hands t ∈ h → request = .serve := by
    intro hn
    obtain ⟨stage', hcall'⟩ := disposed.hands t hn
    rw [hcall] at hcall'
    cases hcall'
    rfl
  refine ⟨?_, ?_, ?_, ?_, ?_⟩
  · rintro rfl
    have hnot : .hands t ∉ h := fun hn => by cases hserved hn
    rw [List.count_eq_zero_of_not_mem hnot] at hcounts
    exact ⟨hcounts, hnot⟩
  · rintro rfl
    refine ⟨hcounts, fun hcloses t' hother => ?_⟩
    have hpos := List.count_pos_iff.mpr hcloses
    have hnot : .hands t ∉ h := by
      intro hn
      have hpos' := List.count_pos_iff.mpr hn
      simp only [Request.disposes, if_true] at hcounts
      omega
    have hwrapped : u.wrapped = false := by
      by_contra hw
      rw [Bool.not_eq_false] at hw
      exact hnot (disposed.served hw t stage hcall)
    exact opening.alone hwrapped t' t hother (by rw [hcall]; simp)
  · intro hnot
    rw [hnot] at hcounts
    simp only [Bool.false_eq_true, if_false, Nat.add_eq_zero_iff] at hcounts
    exact ⟨List.count_eq_zero.mp hcounts.1, List.count_eq_zero.mp hcounts.2⟩
  · rintro e rfl
    exact (disposed.dismissed t request e hcall).2
  · intro hlog
    exact (disposed.logs t .cancelledError hlog).1 rfl

/-- The deadline passes while the handshake waits for the other side, and the connection is closed
and logged. -/
def abandoned : Session Bool (Fin 2) × List (Note (Fin 2)) :=
  ((recording plainSsl plainOptions).exec Machine.anyStep (initial false, [])
    [.begins 0 .serve, .answers 0 (.sent none) false,
      .answers 0 (.received (.error .cancelledError)) true, .closed 0 none]).get (by decide)

theorem transport_closed_once_abandoned :
    abandoned.2.count (.closes 0) = 1 ∧ .logs 0 timeoutError ∈ abandoned.2 ∧
      ∀ t, abandoned.1.calls t ≠ none → t = 0 := by
  have run : (recording plainSsl plainOptions).Reachable Machine.anyStep (initial false, [])
      abandoned := Machine.exec_get_reachable _ _ _
  have hcall : abandoned.1.calls 0 = some (.serve, .dismissed timeoutError) := by decide
  obtain ⟨-, hserve, -, hdismissed, -⟩ :=
    transport_closed_once (u := abandoned.1) (h := abandoned.2) run hcall rfl
  refine ⟨by decide, (hdismissed timeoutError rfl).2, (hserve rfl).2 (by decide)⟩

end Session

end Anyio.TLSStream
