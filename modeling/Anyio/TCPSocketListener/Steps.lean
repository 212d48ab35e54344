import Anyio.TCPSocketListener.Model
import Mathlib.Tactic.Common

/-!
# The steps of a TCP listener

What every step can do to the listener, and the invariant of its flags: the
guard and the scope belong to one task, and once the listener is closed no task
waits for a connection.
-/

namespace Anyio.TCPSocketListener

open Asyncio Library

variable {τ : Type*} [DecidableEq τ] {s s' : State τ} {a : Action τ} {o : Answer}

/-- Inside of the guard of `accept()`. -/
def Point.guarded : Point → Bool
  | .checkpoint | .accepting _ => true
  | _ => false

/-- The task runs to the point `p`. -/
abbrev land (s : State τ) (t : τ) (p : Point) : State τ :=
  { s with loop := s.loop.resumeAt t p }

theorem resumeAt_moveTo (l : Loop τ Point) (t : τ) (p q : Point) :
    (l.resumeAt t p).moveTo t q = l.resumeAt t q := by
  simp [Loop.resumeAt, Loop.moveTo]

/-- The steps, with what is read before each. -/
inductive Change (s : State τ) : Action τ → State τ → Answer → Prop
  | refused {t act out} (hact : act = .accept t ∨ act = .aclose t)
      (hout : ∀ c, out ≠ .returned (some c)) : Change s act s out
  | enters {t} (hp : s.loop.point t = .outside) (hopen : s.closed = false)
      (hfree : s.acceptGuarded = false) :
      Change s (.accept t)
        { s with acceptGuarded := true, loop := s.loop.moveTo t .checkpoint }
        (.suspended .checkpoint)
  | turnsBack {t fails e} (hp : s.loop.point t = .checkpoint) :
      Change s (.resume t fails) { land s t .outside with acceptGuarded := false } (.raised e)
  | takes {t fails} (hp : s.loop.point t = .checkpoint) (hfile : s.fileOpen = true)
      (hlt : s.accepted < s.connections) :
      Change s (.resume t fails)
        { land s t (.connecting s.accepted) with
          acceptGuarded := false, accepted := s.accepted + 1 }
        (.suspended (.connecting s.accepted))
  | waits {t fails} (hp : s.loop.point t = .checkpoint) (hfile : s.fileOpen = true) :
      Change s (.resume t fails)
        { s with
          acceptScope := some t
          reader := some s.loop.nextFuture
          loop := (s.loop.createFuture).resumeAt t (.accepting s.loop.nextFuture) }
        (.suspended (.accepting s.loop.nextFuture))
  | fails {t fails fut e} (hp : s.loop.point t = .accepting fut)
      (hfut : s.loop.future fut = .finished → s.result fut = none)
      (he : s.loop.future fut = .cancelled →
        e = if s.closed then .closedResourceError else .cancelledError) :
      Change s (.resume t fails)
        { land s t .outside with
          acceptScope := none, acceptGuarded := false, reader := none, readyQueued := false }
        (.raised e)
  | goesOn {t fails fut c} (hp : s.loop.point t = .accepting fut)
      (hfut : s.loop.future fut = .finished) (hc : s.result fut = some c) :
      Change s (.resume t fails)
        { land s t (.connecting c) with
          acceptScope := none, acceptGuarded := false, reader := none, readyQueued := false }
        (.suspended (.connecting c))
  | drops {t fails c e} (hp : s.loop.point t = .connecting c) :
      Change s (.resume t fails) (land s t .outside) (.raised e)
  | returns {t fails c} (hp : s.loop.point t = .connecting c) :
      Change s (.resume t fails) (land s t .outside) (.returned (some c))
  | abandons {t fails} (hp : s.loop.point t = .closing) (hthrown : s.loop.throws t = true) :
      Change s (.resume t fails) (land s t .outside) (.raised .cancelledError)
  | shuts {t fails} (hp : s.loop.point t = .closing) (hthrown : s.loop.throws t = false) :
      Change s (.resume t fails) { land s t .outside with fileOpen := false } (.returned none)
  | closes {t} (hp : s.loop.point t = .outside) (hopen : s.closed = false)
      (hscope : s.acceptScope = none) :
      Change s (.aclose t) { s with closed := true, fileOpen := false } (.returned none)
  | closesScope {t u} (hp : s.loop.point t = .outside) (hopen : s.closed = false)
      (hscope : s.acceptScope = some u) :
      Change s (.aclose t)
        { s with
          closed := true
          reader := none
          readyQueued := false
          loop := (deliver s.loop u).moveTo t .closing }
        (.suspended .closing)
  | connects (hfile : s.fileOpen = true) :
      Change s .connects { s with connections := s.connections + 1 } (.returned none)
  | selects {fut} (hreader : s.reader = some fut) (hfut : s.loop.future fut = .pending) :
      Change s .select { s with readyQueued := true } (.returned none)
  | readyFails {fut fails} (hreader : s.reader = some fut)
      (hfut : s.loop.future fut = .pending) :
      Change s (.ready fails)
        { s with
          readyQueued := false
          result := Function.update s.result fut none
          loop := { s.loop with future := Function.update s.loop.future fut .finished } }
        (.returned none)
  | readyTakes {fut} (hreader : s.reader = some fut) (hfut : s.loop.future fut = .pending)
      (hlt : s.accepted < s.connections) :
      Change s (.ready false)
        { s with
          readyQueued := false
          result := Function.update s.result fut (some s.accepted)
          accepted := s.accepted + 1
          loop := { s.loop with future := Function.update s.loop.future fut .finished } }
        (.returned none)
  | readyLoses {fut} (hqueued : s.readyQueued = true) (hreader : s.reader = some fut)
      (hfut : s.loop.future fut ≠ .pending) (hfile : s.fileOpen = true)
      (hlt : s.accepted < s.connections) :
      Change s (.ready false) { s with readyQueued := false, accepted := s.accepted + 1 }
        (.raised .invalidStateError)
  | readyKeeps {fails out} (hout : out = .returned none ∨
        out = .raised .invalidStateError ∧ (s.fileOpen = false ∨ fails = true)) :
      Change s (.ready fails) { s with readyQueued := false } out
  | cancels {t} (hp : s.loop.point t ≠ .outside) :
      Change s (.cancel t) { s with loop := deliver s.loop t } (.suspended (s.loop.point t))

theorem change_sockAccept {t : τ} (hp : s.loop.point t = .checkpoint) (fails : Bool) :
    Change s (.resume t fails) (sockAccept (land s t .outside) t fails).1
      (sockAccept (land s t .outside) t fails).2 := by
  unfold sockAccept
  dsimp only
  split_ifs with hbad hlt
  · exact .turnsBack hp
  · have hfile : s.fileOpen = true := by
      by_contra hfile
      exact hbad (.inl (Bool.eq_false_iff.mpr hfile))
    simp only [connect, resumeAt_moveTo]
    exact .takes hp hfile hlt
  · have hfile : s.fileOpen = true := by
      by_contra hfile
      exact hbad (.inl (Bool.eq_false_iff.mpr hfile))
    have hloop : ((s.loop.resumeAt t .outside).createFuture).moveTo t
        (.accepting s.loop.nextFuture) =
          (s.loop.createFuture).resumeAt t (.accepting s.loop.nextFuture) := by
      simp [Loop.createFuture, Loop.resumeAt, Loop.moveTo]
    have hnext : (s.loop.resumeAt t .outside).nextFuture = s.loop.nextFuture := rfl
    rw [hnext, hloop]
    exact .waits hp hfile

/-- No cancellation has passed over a future that was done. -/
def Calm (s : State τ) : Prop :=
  ∀ t fut, s.loop.point t = .accepting fut → (s.loop.task t).mustCancel = false

theorem change_resume {t : τ} (calm : Calm s) (hwake : s.loop.wakeUpQueued t = true)
    (fails : Bool) :
    Change s (.resume t fails) (resume s t fails).1 (resume s t fails).2 := by
  unfold resume
  cases hp : s.loop.point t with
  | outside =>
      have hwaits : s.loop.waits t = .nothing := by rw [Loop.waits, hp]; rfl
      simp [Loop.wakeUpQueued, hwaits] at hwake
  | checkpoint =>
      dsimp only
      split_ifs
      · exact .turnsBack hp
      · exact change_sockAccept hp fails
  | accepting fut =>
      have hwaits : s.loop.waits t = .future fut := by rw [Loop.waits, hp]; rfl
      have hthrows : s.loop.throws t = true ↔ s.loop.future fut = .cancelled := by
        simp [Loop.throws, hwaits, calm t fut hp]
      have hdone : s.loop.future fut ≠ .pending := by
        simpa [Loop.wakeUpQueued, hwaits] using hwake
      dsimp only
      by_cases hthrown : s.loop.throws t = true
      · have hcancelled := hthrows.mp hthrown
        rw [if_pos hthrown]
        exact .fails hp (fun h => by rw [hcancelled] at h; cases h) fun _ => rfl
      · have hfinished : s.loop.future fut = .finished := by
          cases hf : s.loop.future fut with
          | pending => exact absurd hf hdone
          | finished => rfl
          | cancelled => exact absurd (hthrows.mpr hf) hthrown
        rw [if_neg hthrown]
        cases hresult : s.result fut with
        | some c =>
            simp only [connect, resumeAt_moveTo]
            exact .goesOn hp hfinished hresult
        | none =>
            exact .fails hp (fun _ => hresult) fun h => by rw [hfinished] at h; cases h
  | connecting c =>
      dsimp only
      split_ifs
      · exact .drops hp
      · exact .drops hp
      · exact .returns hp
  | closing =>
      dsimp only
      split_ifs with hthrown
      · exact .abandons hp hthrown
      · exact .shuts hp (Bool.eq_false_iff.mpr hthrown)

theorem change_ready {fut : FutureId} (hqueued : s.readyQueued = true)
    (hreader : s.reader = some fut) (fails : Bool) :
    Change s (.ready fails) (ready s fut fails).1 (ready s fut fails).2 := by
  unfold ready
  dsimp only
  split_ifs with hbad hlt
  · cases hset : s.loop.setResult fut with
    | some l =>
        obtain ⟨hfut, rfl⟩ := Loop.setResult_eq_some.mp hset
        exact .readyFails hreader hfut
    | none => exact .readyKeeps (.inr ⟨rfl, hbad⟩)
  · obtain ⟨hfile, hfails⟩ := not_or.mp hbad
    obtain rfl : fails = false := Bool.eq_false_iff.mpr hfails
    cases hset : s.loop.setResult fut with
    | some l =>
        obtain ⟨hfut, rfl⟩ := Loop.setResult_eq_some.mp hset
        exact .readyTakes hreader hfut hlt
    | none =>
        have hfut : s.loop.future fut ≠ .pending := by
          intro hpending
          simp [Loop.setResult, hpending] at hset
        exact .readyLoses hqueued hreader hfut (Bool.not_eq_false _ ▸ hfile) hlt
  · exact .readyKeeps (.inl rfl)

theorem step_change (calm : Calm s) (hs : step s a = some (s', o)) : Change s a s' o := by
  cases a with
  | accept t =>
      obtain ⟨hp, he⟩ := Option.ite_none_right_eq_some.mp hs
      rw [Option.some.injEq, accept] at he
      split_ifs at he with hclosed hguarded
      · cases he
        exact .refused (.inl rfl) (by simp)
      · cases he
        exact .refused (.inl rfl) (by simp)
      · cases he
        exact .enters hp (Bool.eq_false_iff.mpr hclosed) (Bool.eq_false_iff.mpr hguarded)
  | aclose t =>
      obtain ⟨hp, he⟩ := Option.ite_none_right_eq_some.mp hs
      rw [Option.some.injEq, aclose] at he
      split_ifs at he with hclosed
      · cases he
        exact .refused (.inr rfl) (by simp)
      · cases hscope : s.acceptScope with
        | some u =>
            rw [hscope] at he
            cases he
            have h := Change.closesScope hp (Bool.eq_false_iff.mpr hclosed) hscope
            rwa [hscope] at h
        | none =>
            rw [hscope] at he
            cases he
            have h := Change.closes hp (Bool.eq_false_iff.mpr hclosed) hscope
            rwa [hscope] at h
  | connects =>
      obtain ⟨hfile, ⟨⟩⟩ := Option.ite_none_right_eq_some.mp hs
      exact .connects hfile
  | select =>
      obtain ⟨hany, ⟨⟩⟩ := Option.ite_none_right_eq_some.mp hs
      obtain ⟨fut, hreader, hfut⟩ := Option.any_eq_true _ _ |>.mp hany
      exact .selects hreader (of_decide_eq_true hfut)
  | ready fails =>
      obtain ⟨hqueued, he⟩ := Option.ite_none_right_eq_some.mp hs
      obtain ⟨fut, hreader, hready⟩ := Option.map_eq_some_iff.mp he
      have h := change_ready hqueued hreader fails
      rwa [hready] at h
  | cancel t =>
      obtain ⟨hp, ⟨⟩⟩ := Option.ite_none_left_eq_some.mp hs
      exact .cancels hp
  | resume t fails =>
      obtain ⟨hwake, he⟩ := Option.ite_none_right_eq_some.mp hs
      have h := change_resume calm hwake fails
      rwa [Option.some.inj he] at h

@[simp] theorem deliver_point (l : Loop τ Point) (t u : τ) :
    (deliver l t).point u = l.point u := by
  unfold deliver
  split
  · split_ifs <;> simp
  · simp

@[simp] theorem deliver_nextFuture (l : Loop τ Point) (t : τ) :
    (deliver l t).nextFuture = l.nextFuture := by
  unfold deliver
  split
  · split_ifs <;> simp
  · simp

/-- A cancellation leaves the futures that are done, and no awaited future pending. -/
theorem deliver_future (l : Loop τ Point) (t : τ) (g : FutureId) :
    (deliver l t).future g = l.future g ∨
      l.waits t = .future g ∧ l.future g = .pending ∧ (deliver l t).future g = .cancelled := by
  unfold deliver
  split
  · split_ifs
    · exact l.cancel_future_cases t g
    · exact .inl rfl
  · exact l.cancel_future_cases t g

theorem deliver_awaited {l : Loop τ Point} {t : τ} {fut : FutureId}
    (hp : l.point t = .accepting fut) : (deliver l t).future fut ≠ .pending := by
  have hwaits : l.waits t = .future fut := by rw [Loop.waits, hp]; rfl
  rw [deliver, hwaits]
  dsimp only
  split_ifs with hpending
  · simp [Loop.cancel, hwaits, hpending, Coroutine.done]
  · exact hpending

theorem deliver_calm {l : Loop τ Point} {t u : τ} {fut : FutureId}
    (hp : l.point u = .accepting fut) :
    ((deliver l t).task u).mustCancel = (l.task u).mustCancel := by
  by_cases hu : u = t
  · subst hu
    have hwaits : l.waits u = .future fut := by rw [Loop.waits, hp]; rfl
    rw [deliver, hwaits]
    dsimp only
    split_ifs with hpending
    · exact Loop.cancel_mustCancel_of_pending hwaits hpending
    · rfl
  · unfold deliver
    split
    · split_ifs
      · rw [Loop.cancel_task_of_ne hu]
      · rfl
    · rw [Loop.cancel_task_of_ne hu]

omit [DecidableEq τ] in
theorem pending_of_finished {l : Loop τ Point} {f g : FutureId}
    (h : Function.update l.future f .finished g = .pending) : l.future g = .pending := by
  by_cases hg : g = f
  · rw [hg, Function.update_self] at h
    cases h
  · rwa [Function.update_of_ne hg] at h

/-- An `aclose()` is cancelled in its `sleep(0)`. -/
def abandons (s : State τ) : Action τ → Answer → Bool
  | .resume t _, .raised _ => s.loop.point t = .closing
  | _, _ => false

/-- The guard, the scope and the reader are those of one task inside of `accept()`. -/
structure Guard (s : State τ) : Prop where
  owned : s.loop.Owned
  calm : Calm s
  guards : ∀ t, (s.loop.point t).guarded = true → s.acceptGuarded = true
  alone : ∀ t u, (s.loop.point t).guarded = true → (s.loop.point u).guarded = true → t = u
  scope : ∀ t, s.acceptScope = some t ↔ ∃ fut, s.loop.point t = .accepting fut
  reads : ∀ fut, s.reader = some fut → ∃ t, s.loop.point t = .accepting fut

/-- What holds of the flags at every step; `abandoned` tells whether an `aclose()` was cancelled in
its `sleep(0)`. -/
structure Inv (s : State τ) (abandoned : Bool) : Prop where
  guard : Guard s
  woken : s.closed = true → ∀ t fut, s.loop.point t = .accepting fut →
    s.loop.future fut ≠ .pending
  still : s.closed = true → s.fileOpen = true → ∀ t, s.loop.point t ≠ .checkpoint
  live : s.closed = false → s.fileOpen = true ∧ abandoned = false ∧
    ∀ t, s.loop.point t ≠ .closing
  closer : ∀ t, s.loop.point t = .closing → s.fileOpen = true ∧ abandoned = false ∧
    ∀ u, s.loop.point u = .closing → u = t
  shut : s.closed = true → (∀ t, s.loop.point t ≠ .closing) →
    (s.fileOpen = false ↔ abandoned = false)

omit [DecidableEq τ] in
theorem Inv.initial : Inv (initial τ) false where
  guard := {
    owned := ⟨(fun t f h => by cases h), (fun t u f h => by cases h)⟩
    calm := fun t fut h => by cases h
    guards := fun t h => by cases h
    alone := fun t u h => by cases h
    scope := fun t => by simp [TCPSocketListener.initial]
    reads := fun fut h => by cases h }
  woken h := by cases h
  still h := by cases h
  live _ := ⟨rfl, rfl, (fun t h => by cases h)⟩
  closer t h := by cases h
  shut h := by cases h

section Preserved

variable {abandoned abandoned' : Bool} {t : τ} {p : Point}

omit [DecidableEq τ] in
/-- Nobody is inside of the guard. -/
theorem Guard.vacant (howned : s.loop.Owned) (hvacant : ∀ t, (s.loop.point t).guarded = false)
    (hscope : s.acceptScope = none) (hreader : s.reader = none) : Guard s := by
  have hnot : ∀ t fut, s.loop.point t ≠ .accepting fut := by
    intro t fut h
    have ht := hvacant t
    rw [h] at ht
    cases ht
  constructor
  · exact howned
  · exact fun t fut h => absurd h (hnot t fut)
  · exact fun t h => by rw [hvacant t] at h; cases h
  · exact fun t u h => by rw [hvacant t] at h; cases h
  · exact fun t => iff_of_false (by simp [hscope]) fun ⟨fut, h⟩ => hnot t fut h
  · exact fun fut h => by rw [hreader] at h; cases h

omit [DecidableEq τ] in
/-- The points stay, and no task that waits for a connection gets a request. -/
theorem Guard.stays (guard : Guard s) (hpoint : ∀ u, s'.loop.point u = s.loop.point u)
    (hnext : s'.loop.nextFuture = s.loop.nextFuture)
    (hcalm : ∀ u fut, s.loop.point u = .accepting fut →
      (s'.loop.task u).mustCancel = (s.loop.task u).mustCancel)
    (hguard : s'.acceptGuarded = s.acceptGuarded) (hscope : s'.acceptScope = s.acceptScope)
    (hreader : ∀ fut, s'.reader = some fut → s.reader = some fut) : Guard s' := by
  constructor
  · exact guard.owned.congr hpoint (Nat.le_of_eq hnext.symm)
  · intro u fut h
    rw [hpoint] at h
    rw [hcalm u fut h]
    exact guard.calm u fut h
  · intro u h
    rw [hpoint] at h
    exact hguard ▸ guard.guards u h
  · intro u v hu hv
    rw [hpoint] at hu hv
    exact guard.alone u v hu hv
  · intro u
    rw [hscope, hpoint]
    exact guard.scope u
  · intro fut h
    obtain ⟨u, hu⟩ := guard.reads fut (hreader fut h)
    exact ⟨u, (hpoint u).trans hu⟩

/-- A task outside of the guard moves to a point outside of it. -/
theorem Guard.passes (guard : Guard s) (hold : (s.loop.point t).guarded = false)
    (hp : p.guarded = false) (hwaits : ∀ f, Coroutine.waits p ≠ .future f)
    (hpoint : ∀ u, s'.loop.point u = if u = t then p else s.loop.point u)
    (hnext : s'.loop.nextFuture = s.loop.nextFuture)
    (hcalm : ∀ u fut, u ≠ t → s.loop.point u = .accepting fut →
      (s'.loop.task u).mustCancel = (s.loop.task u).mustCancel)
    (hguard : s'.acceptGuarded = s.acceptGuarded) (hscope : s'.acceptScope = s.acceptScope)
    (hreader : ∀ fut, s'.reader = some fut → s.reader = some fut) : Guard s' := by
  have hother : ∀ u q, q.guarded = true → (s'.loop.point u = q ↔ u ≠ t ∧ s.loop.point u = q) := by
    intro u q hq
    rw [hpoint]
    split_ifs with hu
    · refine iff_of_false ?_ fun h => h.1 hu
      rintro rfl
      rw [hp] at hq
      cases hq
    · exact ⟨fun h => ⟨hu, h⟩, fun h => h.2⟩
  have hguarded : ∀ u, (s'.loop.point u).guarded = true → (s.loop.point u).guarded = true := by
    intro u h
    rw [((hother u _ h).mp rfl).2]
    exact h
  constructor
  · exact guard.owned.leave hpoint hnext hwaits
  · intro u fut h
    obtain ⟨hu, h⟩ := (hother u _ rfl).mp h
    rw [hcalm u fut hu h]
    exact guard.calm u fut h
  · exact fun u h => hguard ▸ guard.guards u (hguarded u h)
  · exact fun u v hu hv => guard.alone u v (hguarded u hu) (hguarded v hv)
  · intro u
    rw [hscope, guard.scope u]
    constructor
    · rintro ⟨fut, h⟩
      refine ⟨fut, (hother u _ rfl).mpr ⟨?_, h⟩⟩
      rintro rfl
      rw [h] at hold
      cases hold
    · rintro ⟨fut, h⟩
      exact ⟨fut, ((hother u _ rfl).mp h).2⟩
  · intro fut h
    obtain ⟨u, hu⟩ := guard.reads fut (hreader fut h)
    refine ⟨u, (hother u _ rfl).mpr ⟨?_, hu⟩⟩
    rintro rfl
    rw [hu] at hold
    cases hold

omit [DecidableEq τ] in
/-- A task inside of the guard is the only one. -/
theorem Guard.others (guard : Guard s) (hold : (s.loop.point t).guarded = true) {u : τ}
    (hu : u ≠ t) : (s.loop.point u).guarded = false := by
  by_contra hguarded
  exact hu (guard.alone u t (Bool.not_eq_false _ ▸ hguarded) hold)

/-- A task that leaves the guard of `accept()`. -/
theorem Inv.leaves (inv : Inv s abandoned) (hold : (s.loop.point t).guarded = true)
    (hp : p.guarded = false) (hclosing : p ≠ .closing)
    (hwaits : ∀ f, Coroutine.waits p ≠ .future f) (hloop : s'.loop = s.loop.resumeAt t p)
    (hscope : s'.acceptScope = none) (hreader : s'.reader = none) (hclosed : s'.closed = s.closed)
    (hfile : s'.fileOpen = s.fileOpen) : Inv s' abandoned := by
  have hpoint : ∀ u, s'.loop.point u = if u = t then p else s.loop.point u := by
    intro u
    rw [hloop]
    exact Loop.resumeAt_point s.loop t u p
  have hvacant : ∀ u, (s'.loop.point u).guarded = false := by
    intro u
    rw [hpoint]
    split_ifs with hu
    · exact hp
    · exact inv.guard.others hold hu
  have hclose : ∀ u, s'.loop.point u = .closing ↔ s.loop.point u = .closing := by
    intro u
    rw [hpoint]
    split_ifs with hu
    · subst hu
      refine iff_of_false hclosing fun h => ?_
      rw [h] at hold
      cases hold
    · exact Iff.rfl
  constructor
  · exact .vacant (inv.guard.owned.leave hpoint (by rw [hloop]; rfl) hwaits) hvacant hscope hreader
  · intro _ u fut h
    have hu := hvacant u
    rw [h] at hu
    cases hu
  · intro _ _ u h
    have hu := hvacant u
    rw [h] at hu
    cases hu
  · intro hopen
    obtain ⟨hopen', habandoned, hnone⟩ := inv.live (hclosed ▸ hopen)
    exact ⟨hfile ▸ hopen', habandoned, fun u h => hnone u ((hclose u).mp h)⟩
  · intro u h
    obtain ⟨hopen, habandoned, honly⟩ := inv.closer u ((hclose u).mp h)
    exact ⟨hfile ▸ hopen, habandoned, fun v hv => honly v ((hclose v).mp hv)⟩
  · intro hshut hnone
    rw [hfile]
    exact inv.shut (hclosed ▸ hshut) fun u h => hnone u ((hclose u).mpr h)

omit [DecidableEq τ] in
/-- While a task is inside of the guard but does not wait yet, there is no scope. -/
theorem Guard.scope_eq_none (guard : Guard s) (hold : s.loop.point t = .checkpoint) :
    s.acceptScope = none := by
  by_contra hsome
  obtain ⟨u, hu⟩ := Option.ne_none_iff_exists'.mp hsome
  obtain ⟨fut, hfut⟩ := (guard.scope u).mp hu
  have hut : u = t := guard.alone u t (by rw [hfut]; rfl) (by rw [hold]; rfl)
  rw [hut, hold] at hfut
  cases hfut

omit [DecidableEq τ] in
theorem Guard.reader_eq_none (guard : Guard s)
    (hnot : ∀ u fut, s.loop.point u ≠ .accepting fut) : s.reader = none := by
  by_contra hsome
  obtain ⟨fut, hfut⟩ := Option.ne_none_iff_exists'.mp hsome
  obtain ⟨u, hu⟩ := guard.reads fut hfut
  exact hnot u fut hu

omit [DecidableEq τ] in
theorem Guard.reader_at_checkpoint (guard : Guard s) (hold : s.loop.point t = .checkpoint) :
    s.reader = none := by
  apply guard.reader_eq_none
  intro u fut hfut
  have hut : u = t := guard.alone u t (by rw [hfut]; rfl) (by rw [hold]; rfl)
  rw [hut, hold] at hfut
  cases hfut

/-- A connection has been made, or could not be. -/
theorem Inv.connected (inv : Inv s abandoned) {c : ConnectionId}
    (hold : s.loop.point t = .connecting c) : Inv (land s t .outside) abandoned := by
  have hpoint : ∀ u, (land s t .outside).loop.point u =
      if u = t then .outside else s.loop.point u :=
    fun u => Loop.resumeAt_point s.loop t u .outside
  have hsame : ∀ u q, q ≠ .outside →
      ((land s t .outside).loop.point u = q → s.loop.point u = q) := by
    intro u q hq h
    rw [hpoint] at h
    split_ifs at h with hu
    · exact absurd h.symm hq
    · exact h
  constructor
  · apply inv.guard.passes (by rw [hold]; rfl) rfl (fun f h => by cases h) hpoint rfl
    · intro u fut hu _
      rw [Loop.resumeAt_mustCancel, if_neg hu]
    · rfl
    · rfl
    · exact fun _ => id
  · exact fun hclosed u fut h => inv.woken hclosed u fut (hsame u _ (by simp) h)
  · exact fun hclosed hfile u h => inv.still hclosed hfile u (hsame u _ (by simp) h)
  · intro hopen
    obtain ⟨hfile, habandoned, hnone⟩ := inv.live hopen
    exact ⟨hfile, habandoned, fun u h => hnone u (hsame u _ (by simp) h)⟩
  · intro u h
    obtain ⟨hfile, habandoned, honly⟩ := inv.closer u (hsame u _ (by simp) h)
    exact ⟨hfile, habandoned, fun v hv => honly v (hsame v _ (by simp) hv)⟩
  · intro hclosed hnone
    apply inv.shut hclosed
    intro u h
    apply hnone u
    rw [hpoint, if_neg, h]
    rintro rfl
    rw [hold] at h
    cases h

/-- The end of the `aclose()` that has waited. -/
theorem Inv.closes (inv : Inv s abandoned) (hold : s.loop.point t = .closing) {fileOpen : Bool}
    (hfile : fileOpen = false ↔ abandoned' = false) (hshut : fileOpen = true → s.fileOpen = true) :
    Inv { land s t .outside with fileOpen := fileOpen } abandoned' := by
  have hpoint : ∀ u, (land s t .outside).loop.point u =
      if u = t then .outside else s.loop.point u :=
    fun u => Loop.resumeAt_point s.loop t u .outside
  have hsame : ∀ u q, q ≠ .outside →
      ((land s t .outside).loop.point u = q → u ≠ t ∧ s.loop.point u = q) := by
    intro u q hq h
    rw [hpoint] at h
    split_ifs at h with hu
    · exact absurd h.symm hq
    · exact ⟨hu, h⟩
  have honly := (inv.closer t hold).2.2
  have hnone : ∀ u, (land s t .outside).loop.point u ≠ .closing := by
    intro u h
    obtain ⟨hu, h⟩ := hsame u _ (by simp) h
    exact hu (honly u h)
  have hclosed : s.closed = true := by
    by_contra hopen
    exact (inv.live (Bool.eq_false_iff.mpr hopen)).2.2 t hold
  have passed : Guard (land s t .outside) := by
    apply inv.guard.passes (by rw [hold]; rfl) rfl (fun f h => by cases h) hpoint rfl
    · intro u fut hu _
      rw [Loop.resumeAt_mustCancel, if_neg hu]
    · rfl
    · rfl
    · exact fun _ => id
  constructor
  · exact passed.stays (fun _ => rfl) rfl (fun _ _ _ => rfl) rfl rfl fun _ => id
  · exact fun hclosed u fut h => inv.woken hclosed u fut (hsame u _ (by simp) h).2
  · exact fun hclosed hopen u h => inv.still hclosed (hshut hopen) u (hsame u _ (by simp) h).2
  · intro hopen
    rw [hclosed] at hopen
    cases hopen
  · exact fun u h => absurd h (hnone u)
  · exact fun _ _ => hfile

theorem Inv.enters (inv : Inv s abandoned) (hopen : s.closed = false)
    (hfree : s.acceptGuarded = false) :
    Inv { s with acceptGuarded := true, loop := s.loop.moveTo t .checkpoint } abandoned := by
  have hpoint : ∀ u, (s.loop.moveTo t .checkpoint).point u =
      if u = t then .checkpoint else s.loop.point u := fun u => Loop.moveTo_point s.loop t u _
  have hvacant : ∀ u, (s.loop.point u).guarded = false := by
    intro u
    by_contra h
    have hguarded := inv.guard.guards u (Bool.not_eq_false _ ▸ h)
    rw [hfree] at hguarded
    cases hguarded
  have honly : ∀ u, ((s.loop.moveTo t .checkpoint).point u).guarded = true → u = t := by
    intro u h
    by_contra hu
    rw [hpoint, if_neg hu, hvacant u] at h
    cases h
  have hnot : ∀ u fut, (s.loop.moveTo t .checkpoint).point u ≠ .accepting fut := by
    intro u fut h
    rw [honly u (by rw [h]; rfl), hpoint, if_pos rfl] at h
    cases h
  have hscope : s.acceptScope = none := by
    by_contra hsome
    obtain ⟨u, hu⟩ := Option.ne_none_iff_exists'.mp hsome
    obtain ⟨fut, hfut⟩ := (inv.guard.scope u).mp hu
    have h := hvacant u
    rw [hfut] at h
    cases h
  obtain ⟨hfile, habandoned, hnone⟩ := inv.live hopen
  have hnone' : ∀ u, (s.loop.moveTo t .checkpoint).point u ≠ .closing := by
    intro u
    rw [hpoint]
    split_ifs
    · simp
    · exact hnone u
  constructor
  · constructor
    · exact inv.guard.owned.leave hpoint rfl (fun f h => by cases h)
    · exact fun u fut h => absurd h (hnot u fut)
    · exact fun _ _ => rfl
    · exact fun u v hu hv => (honly u hu).trans (honly v hv).symm
    · exact fun u => iff_of_false (by simp [hscope]) fun ⟨fut, h⟩ => hnot u fut h
    · intro fut h
      obtain ⟨u, hu⟩ := inv.guard.reads fut h
      have hguarded := hvacant u
      rw [hu] at hguarded
      cases hguarded
  · exact fun _ u fut h => absurd h (hnot u fut)
  · exact fun hclosed => by rw [hopen] at hclosed; cases hclosed
  · exact fun _ => ⟨hfile, habandoned, hnone'⟩
  · exact fun u h => absurd h (hnone' u)
  · exact fun hclosed => by rw [hopen] at hclosed; cases hclosed

theorem Inv.waits (inv : Inv s abandoned) (hold : s.loop.point t = .checkpoint)
    (hfile : s.fileOpen = true) :
    Inv { s with
      acceptScope := some t
      reader := some s.loop.nextFuture
      loop := s.loop.createFuture.resumeAt t (.accepting s.loop.nextFuture) } abandoned := by
  have hopen : s.closed = false := by
    by_contra hclosed
    exact inv.still (Bool.not_eq_false _ ▸ hclosed) hfile t hold
  have hold' : (s.loop.point t).guarded = true := by rw [hold]; rfl
  set l := s.loop.createFuture.resumeAt t (.accepting s.loop.nextFuture)
  have hpoint : ∀ u, l.point u = if u = t then .accepting s.loop.nextFuture else s.loop.point u :=
    fun u => Loop.resumeAt_point s.loop.createFuture t u _
  have honly : ∀ u, (l.point u).guarded = true → u = t := by
    intro u h
    by_contra hu
    rw [hpoint, if_neg hu, inv.guard.others hold' hu] at h
    cases h
  obtain ⟨-, habandoned, hnone⟩ := inv.live hopen
  have hnone' : ∀ u, l.point u ≠ .closing := by
    intro u
    rw [hpoint]
    split_ifs
    · simp
    · exact hnone u
  constructor
  · constructor
    · exact inv.guard.owned.await_new hpoint rfl rfl
    · intro u fut h
      rw [honly u (by rw [h]; rfl)]
      simp [l]
    · exact fun _ _ => inv.guard.guards t hold'
    · exact fun u v hu hv => (honly u hu).trans (honly v hv).symm
    · intro u
      constructor
      · intro h
        cases h
        exact ⟨s.loop.nextFuture, by rw [hpoint, if_pos rfl]⟩
      · rintro ⟨fut, h⟩
        rw [honly u (by rw [h]; rfl)]
    · intro fut h
      cases h
      exact ⟨t, by rw [hpoint, if_pos rfl]⟩
  · exact fun hclosed => by rw [hopen] at hclosed; cases hclosed
  · exact fun hclosed => by rw [hopen] at hclosed; cases hclosed
  · exact fun _ => ⟨hfile, habandoned, hnone'⟩
  · exact fun u h => absurd h (hnone' u)
  · exact fun hclosed => by rw [hopen] at hclosed; cases hclosed

omit [DecidableEq τ] in
/-- The points stay, and so do the flags; a future that is done stays done. -/
theorem Inv.stays (inv : Inv s abandoned) (hpoint : ∀ u, s'.loop.point u = s.loop.point u)
    (hnext : s'.loop.nextFuture = s.loop.nextFuture)
    (hcalm : ∀ u fut, s.loop.point u = .accepting fut →
      (s'.loop.task u).mustCancel = (s.loop.task u).mustCancel)
    (hfuture : ∀ fut, s'.loop.future fut = .pending → s.loop.future fut = .pending)
    (hguard : s'.acceptGuarded = s.acceptGuarded) (hscope : s'.acceptScope = s.acceptScope)
    (hreader : ∀ fut, s'.reader = some fut → s.reader = some fut)
    (hclosed : s'.closed = s.closed) (hfile : s'.fileOpen = s.fileOpen) : Inv s' abandoned := by
  constructor
  · exact inv.guard.stays hpoint hnext hcalm hguard hscope hreader
  · intro h u fut hu hpending
    rw [hpoint] at hu
    exact inv.woken (hclosed ▸ h) u fut hu (hfuture fut hpending)
  · intro h hopen u hu
    rw [hpoint] at hu
    exact inv.still (hclosed ▸ h) (hfile ▸ hopen) u hu
  · intro h
    obtain ⟨hopen, habandoned, hnone⟩ := inv.live (hclosed ▸ h)
    exact ⟨hfile ▸ hopen, habandoned, fun u hu => hnone u ((hpoint u).symm.trans hu)⟩
  · intro u hu
    rw [hpoint] at hu
    obtain ⟨hopen, habandoned, honly⟩ := inv.closer u hu
    exact ⟨hfile ▸ hopen, habandoned, fun v hv => honly v ((hpoint v).symm.trans hv)⟩
  · intro h hnone
    rw [hfile]
    exact inv.shut (hclosed ▸ h) fun u hu => hnone u ((hpoint u).trans hu)

omit [DecidableEq τ] in
/-- A connection comes, or the callback of the reader has no answer. -/
theorem Inv.counts (inv : Inv s abandoned) {readyQueued : Bool} {connections accepted : Nat} :
    Inv { s with readyQueued := readyQueued, connections := connections, accepted := accepted }
      abandoned := by
  refine Inv.stays inv (fun u => ?_) ?_ (fun u f h => ?_) (fun g => id) ?_ ?_ (fun g => id)
    ?_ ?_ <;> rfl

omit [DecidableEq τ] in
/-- The reader has an answer for a future. -/
theorem Inv.answered (inv : Inv s abandoned) {fut : FutureId}
    {result : FutureId → Option ConnectionId} {accepted : Nat} :
    Inv { s with
      readyQueued := false
      result := result
      accepted := accepted
      loop := { s.loop with future := Function.update s.loop.future fut .finished } }
      abandoned := by
  refine Inv.stays inv (fun u => ?_) ?_ (fun u f h => ?_) (fun g h => pending_of_finished h)
    ?_ ?_ (fun g => id) ?_ ?_ <;> rfl

theorem Inv.cancelled (inv : Inv s abandoned) :
    Inv { s with loop := deliver s.loop t } abandoned := by
  refine Inv.stays inv (fun u => deliver_point s.loop t u) (deliver_nextFuture s.loop t)
    (fun u f h => deliver_calm h) (fun g h => ?_) ?_ ?_ (fun g => id) ?_ ?_
  · rcases deliver_future s.loop t g with hkept | ⟨-, hpending, -⟩
    · exact hkept ▸ h
    · exact hpending
  · rfl
  · rfl
  · rfl
  · rfl

omit [DecidableEq τ] in
theorem Inv.shuts (inv : Inv s abandoned) (hopen : s.closed = false)
    (hscope : s.acceptScope = none) :
    Inv { s with closed := true, fileOpen := false } abandoned := by
  obtain ⟨-, habandoned, hnone⟩ := inv.live hopen
  constructor
  · exact inv.guard.stays (fun _ => rfl) rfl (fun _ _ _ => rfl) rfl rfl fun _ => id
  · intro _ u fut h
    have hsome := (inv.guard.scope u).mpr ⟨fut, h⟩
    rw [hscope] at hsome
    cases hsome
  · exact fun _ h => by cases h
  · exact fun h => by cases h
  · exact fun u h => absurd h (hnone u)
  · exact fun _ _ => iff_of_true rfl habandoned

theorem Inv.shutsScope (inv : Inv s abandoned) (hold : s.loop.point t = .outside)
    (hopen : s.closed = false) {u : τ} (hscope : s.acceptScope = some u) :
    Inv { s with
      closed := true
      reader := none
      readyQueued := false
      loop := (deliver s.loop u).moveTo t .closing } abandoned := by
  obtain ⟨fut, hfut⟩ := (inv.guard.scope u).mp hscope
  obtain ⟨hfile, habandoned, hnone⟩ := inv.live hopen
  set l := (deliver s.loop u).moveTo t .closing
  have hpoint : ∀ v, l.point v = if v = t then .closing else s.loop.point v := by
    intro v
    rw [Loop.moveTo_point, deliver_point]
  have hguarded : (s.loop.point u).guarded = true := by rw [hfut]; rfl
  have honly : ∀ v, l.point v = .closing → v = t := by
    intro v h
    by_contra hv
    rw [hpoint, if_neg hv] at h
    exact hnone v h
  constructor
  · apply inv.guard.passes (p := .closing) (by rw [hold]; rfl) rfl (fun f h => by cases h) hpoint
    · simp [l]
    · intro v fut' _ h
      rw [Loop.moveTo_mustCancel]
      exact deliver_calm h
    · rfl
    · rfl
    · exact fun _ h => by cases h
  · intro _ v fut' h
    rw [hpoint] at h
    split_ifs at h with hv
    have hvu : v = u := inv.guard.alone v u (by rw [h]; rfl) hguarded
    subst hvu
    exact deliver_awaited h
  · intro _ _ v h
    rw [hpoint] at h
    split_ifs at h with hv
    have hvu : v = u := inv.guard.alone v u (by rw [h]; rfl) hguarded
    rw [hvu, hfut] at h
    cases h
  · exact fun h => by cases h
  · intro v h
    exact ⟨hfile, habandoned, fun w hw => (honly w hw).trans (honly v h).symm⟩
  · exact fun _ h => absurd (by rw [hpoint, if_pos rfl]) (h t)

omit [DecidableEq τ] in
theorem abandons_of_point {q : Point} (hp : s.loop.point t = q) (hq : q ≠ .closing) (fails : Bool) :
    abandons s (.resume t fails) o = false := by
  cases o with
  | raised e => simp [abandons, hp, hq]
  | _ => rfl

theorem Inv.change (inv : Inv s abandoned) (hs : Change s a s' o) :
    Inv s' (abandoned || abandons s a o) := by
  have hsame : abandons s a o = false → Inv s' abandoned →
      Inv s' (abandoned || abandons s a o) := by
    intro h
    rw [h, Bool.or_false]
    exact id
  cases hs with
  | refused hact =>
      apply hsame _ inv
      rcases hact with rfl | rfl <;> rfl
  | enters _ hopen hfree => exact hsame rfl (inv.enters hopen hfree)
  | turnsBack hp =>
      apply hsame (abandons_of_point hp (by simp) _)
      exact inv.leaves (by rw [hp]; rfl) rfl (by simp) (fun f h => by cases h) rfl
        (inv.guard.scope_eq_none hp) (inv.guard.reader_at_checkpoint hp) rfl rfl
  | takes hp =>
      apply hsame rfl
      exact inv.leaves (by rw [hp]; rfl) rfl (by simp) (fun f h => by cases h) rfl
        (inv.guard.scope_eq_none hp) (inv.guard.reader_at_checkpoint hp) rfl rfl
  | waits hp hfile => exact hsame rfl (inv.waits hp hfile)
  | fails hp =>
      apply hsame (abandons_of_point hp (by simp) _)
      exact inv.leaves (by rw [hp]; rfl) rfl (by simp) (fun f h => by cases h) rfl rfl rfl rfl rfl
  | goesOn hp =>
      apply hsame rfl
      exact inv.leaves (by rw [hp]; rfl) rfl (by simp) (fun f h => by cases h) rfl rfl rfl rfl rfl
  | drops hp => exact hsame (abandons_of_point hp (by simp) _) (inv.connected hp)
  | returns hp => exact hsame rfl (inv.connected hp)
  | abandons hp =>
      obtain ⟨hfile, -, -⟩ := inv.closer _ hp
      simp only [TCPSocketListener.abandons, hp, decide_true, Bool.or_true]
      exact inv.closes hp (by simp [hfile]) id
  | shuts hp =>
      obtain ⟨-, habandoned, -⟩ := inv.closer _ hp
      simp only [TCPSocketListener.abandons, habandoned, Bool.or_false]
      exact inv.closes hp (by simp) (fun h => by cases h)
  | closes _ hopen hscope => exact hsame rfl (inv.shuts hopen hscope)
  | closesScope hp hopen hscope => exact hsame rfl (inv.shutsScope hp hopen hscope)
  | connects => exact hsame rfl inv.counts
  | selects => exact hsame rfl inv.counts
  | readyFails => exact hsame rfl inv.answered
  | readyTakes => exact hsame rfl inv.answered
  | readyLoses => exact hsame rfl inv.counts
  | readyKeeps => exact hsame rfl inv.counts
  | cancels => exact hsame rfl inv.cancelled

end Preserved

end Anyio.TCPSocketListener
