import Anyio.CapacityLimiter.Tokens
import Anyio.ToThread.Model

/-!
# The tokens of the calls that run in worker threads

A call holds a token from the moment at which the limiter has granted it up to
its end, however it ends. As long as nobody else gives the token back, a call
that is in a worker thread has it; as long as nobody else acquires one, the
tokens that are out belong to such calls.
-/

namespace Anyio.ToThread

open Asyncio Library

variable {τ β : Type*} {currentTask : τ → β} {s s' : State τ β} {t u : τ} {b : β}
  {root : WorkerThread.RootId} {o : Answer}

/-- The task has a token for its call. -/
def Holds (s : State τ β) (t : τ) : Prop :=
  match s.phase t with
  | .outside => False
  | .entering _ => s.limiter.loop.point t = .shieldedCheckpoint
  | .waiting _ => True

/-- What holds of one task: it is inside of the limiter exactly while its call enters it, on
behalf of itself, and the token it has is among those that are out. -/
structure HeldAt (currentTask : τ → β) (s : State τ β) (t : τ) : Prop where
  entering : ∀ root, s.phase t = .entering root → s.limiter.loop.point t ≠ .outside
  waiting : ∀ item, s.phase t = .waiting item → s.limiter.loop.point t = .outside
  own : ∀ root b f, s.phase t = .entering root → s.limiter.loop.point t = .waiting b f →
    b = currentTask t
  token : Holds s t → currentTask t ∈ s.limiter.borrowers

/-- Nothing has changed for the tasks other than `t` and for their tokens. -/
structure Frame (currentTask : τ → β) (s s' : State τ β) (t : τ) : Prop where
  phase : ∀ u, u ≠ t → s'.phase u = s.phase u
  point : ∀ u, u ≠ t → s'.limiter.loop.point u = s.limiter.loop.point u
  borrowers : ∀ b, b ≠ currentTask t → (b ∈ s'.limiter.borrowers ↔ b ∈ s.limiter.borrowers)

theorem Frame.holds (frame : Frame currentTask s s' t) (hu : u ≠ t) : Holds s' u ↔ Holds s u := by
  rw [Holds, Holds, frame.phase u hu, frame.point u hu]

theorem Frame.heldAt (frame : Frame currentTask s s' t) (injective : currentTask.Injective)
    (hu : u ≠ t) (held : HeldAt currentTask s u) : HeldAt currentTask s' u := by
  constructor
  · rw [frame.phase u hu, frame.point u hu]
    exact held.entering
  · rw [frame.phase u hu, frame.point u hu]
    exact held.waiting
  · rw [frame.phase u hu, frame.point u hu]
    exact held.own
  · rw [frame.holds hu, frame.borrowers _ (injective.ne hu)]
    exact held.token

/-- All tokens that are out belong to calls. -/
def Exact (currentTask : τ → β) (s : State τ β) : Prop :=
  ∀ b ∈ s.limiter.borrowers, ∃ t, currentTask t = b ∧ Holds s t

/-- A step of one call that leaves the others alone. -/
theorem Exact.frame (exact' : Exact currentTask s) (frame : Frame currentTask s s' t)
    (ht : currentTask t ∈ s'.limiter.borrowers → Holds s' t) : Exact currentTask s' := by
  classical
  intro b hb
  by_cases hbt : b = currentTask t
  · subst hbt
    exact ⟨t, rfl, ht hb⟩
  · obtain ⟨u, rfl, hu⟩ := exact' b ((frame.borrowers b hbt).mp hb)
    have hut : u ≠ t := fun h => hbt (h ▸ rfl)
    exact ⟨u, rfl, (frame.holds hut).mpr hu⟩

section Limiter
variable [DecidableEq τ] [DecidableEq β] {l l' : CapacityLimiter.State τ β}

/-- A piece of the `acquire()` of task `t`, for itself, from one state of the limiter on. -/
inductive Piece (currentTask : τ → β) (l : CapacityLimiter.State τ β) (t : τ) :
    CapacityLimiter.State τ β × Outcome (CapacityLimiter.Point β) Unit → Prop
  | suspended {l' : CapacityLimiter.State τ β} {p : CapacityLimiter.Point β}
      (hinside : p ≠ .outside) (hown : ∀ b f, p = .waiting b f → b = currentTask t)
      (hpoint : ∀ u, l'.loop.point u = if u = t then p else l.loop.point u)
      (hgranted : p = .shieldedCheckpoint → l'.borrowers = insert (currentTask t) l.borrowers)
      (hwaits : p ≠ .shieldedCheckpoint →
        l'.borrowers = l.borrowers ∧ l.loop.point t ≠ .shieldedCheckpoint) :
      Piece currentTask l t (l', .suspended p)
  | raised {l' : CapacityLimiter.State τ β} (e : Error)
      (hpoint : ∀ u, l'.loop.point u = if u = t then .outside else l.loop.point u)
      (hgaveBack : l.loop.point t = .shieldedCheckpoint →
        l'.borrowers = l.borrowers.erase (currentTask t))
      (hnothing : l.loop.point t ≠ .shieldedCheckpoint → l'.borrowers = l.borrowers) :
      Piece currentTask l t (l', .raised e)
  | returned {l' : CapacityLimiter.State τ β}
      (hpoint : ∀ u, l'.loop.point u = if u = t then .outside else l.loop.point u)
      (hgranted : l'.borrowers = insert (currentTask t) l.borrowers) :
      Piece currentTask l t (l', .returned ())

theorem piece_acquire (hp : l.loop.point t = .outside) (scopeCancelled : Bool) :
    Piece currentTask l t
      (CapacityLimiter.acquireOnBehalfOf l t (currentTask t) scopeCancelled) := by
  unfold CapacityLimiter.acquireOnBehalfOf
  split_ifs
  · apply Piece.suspended <;> simp [hp]
  · split
    · rename_i l' hok
      obtain ⟨-, rfl⟩ := CapacityLimiter.nowait_ok hok
      apply Piece.suspended <;> simp
    · apply Piece.suspended <;> simp [hp]
    · apply Piece.raised
      · intro u
        split_ifs with hu
        · rw [hu, hp]
        · rfl
      · simp [hp]
      · exact fun _ => rfl

theorem piece_resume (hp : l.loop.point t ≠ .outside)
    (hown : ∀ b f, l.loop.point t = .waiting b f → b = currentTask t)
    (htoken : l.loop.point t = .shieldedCheckpoint → currentTask t ∈ l.borrowers) :
    Piece currentTask l t (CapacityLimiter.resume currentTask l t) := by
  unfold CapacityLimiter.resume
  cases hpoint : l.loop.point t with
  | outside => exact absurd hpoint hp
  | checkpointIfCancelled =>
      dsimp only
      split_ifs
      · apply Piece.raised <;> simp [hpoint]
      · apply Piece.suspended <;> simp [hpoint]
  | shieldedCheckpoint =>
      dsimp only
      split_ifs
      · rw [CapacityLimiter.releaseOnBehalfOf, if_pos (htoken hpoint)]
        apply Piece.raised <;> simp [hpoint]
      · apply Piece.returned
        · simp
        · exact (Finset.insert_eq_of_mem (htoken hpoint)).symm
  | waiting b f =>
      obtain rfl := hown b f hpoint
      dsimp only
      split_ifs
      · apply Piece.raised <;> simp [hpoint]
      · apply Piece.returned <;> simp

end Limiter

/-- A step of the call of task `t`: the others are left alone, and its own token is given out
and back with it. -/
structure Turn (currentTask : τ → β) (s s' : State τ β) (t : τ) : Prop where
  frame : Frame currentTask s s' t
  held : HeldAt currentTask s' t
  own : (currentTask t ∈ s.limiter.borrowers → Holds s t) →
    currentTask t ∈ s'.limiter.borrowers → Holds s' t

theorem Turn.heldAt (turn : Turn currentTask s s' t) (injective : currentTask.Injective)
    (held : ∀ u, HeldAt currentTask s u) (u : τ) : HeldAt currentTask s' u := by
  by_cases hu : u = t
  · exact hu ▸ turn.held
  · exact turn.frame.heldAt injective hu (held u)

theorem Turn.exact (turn : Turn currentTask s s' t) (injective : currentTask.Injective)
    (exact' : Exact currentTask s) : Exact currentTask s' := by
  apply exact'.frame turn.frame
  apply turn.own
  intro hb
  obtain ⟨u, hu, holds⟩ := exact' _ hb
  exact injective hu ▸ holds

/-- What the limiter did for `t` comes first. -/
theorem Turn.after_frame {mid : State τ β} (first : Frame currentTask s mid t)
    (turn : Turn currentTask mid s' t)
    (own : currentTask t ∈ s'.limiter.borrowers → Holds s' t) : Turn currentTask s s' t where
  frame := {
    phase := fun u hu => (turn.frame.phase u hu).trans (first.phase u hu)
    point := fun u hu => (turn.frame.point u hu).trans (first.point u hu)
    borrowers := fun b hb => (turn.frame.borrowers b hb).trans (first.borrowers b hb) }
  held := turn.held
  own := fun _ => own

/-- The limiter has done something for `t` alone. -/
theorem frame_limiter {l : CapacityLimiter.State τ β}
    (hpoint : ∀ u, u ≠ t → l.loop.point u = s.limiter.loop.point u)
    (hborrowers : ∀ b, b ≠ currentTask t → (b ∈ l.borrowers ↔ b ∈ s.limiter.borrowers)) :
    Frame currentTask s { s with limiter := l } t :=
  ⟨fun _ _ => rfl, hpoint, hborrowers⟩

/-- Nothing is different for any task and its token. -/
theorem turn_of_same (held : HeldAt currentTask s t) (hphase : s'.phase = s.phase)
    (hpoint : ∀ u, s'.limiter.loop.point u = s.limiter.loop.point u)
    (hborrowers : s'.limiter.borrowers = s.limiter.borrowers) : Turn currentTask s s' t := by
  have hholds : Holds s' t ↔ Holds s t := by rw [Holds, Holds, hphase, hpoint]
  refine ⟨⟨?_, ?_, ?_⟩, ⟨?_, ?_, ?_, ?_⟩, ?_⟩
  · exact fun u _ => congrFun hphase u
  · exact fun u _ => hpoint u
  · intro b _
    rw [hborrowers]
  · rw [hphase, hpoint]
    exact held.entering
  · rw [hphase, hpoint]
    exact held.waiting
  · rw [hphase, hpoint]
    exact held.own
  · rw [hholds, hborrowers]
    exact held.token
  · rw [hholds, hborrowers]
    exact id

section Calls
variable [DecidableEq τ] [DecidableEq β]

/-- A call that ends is outside, and its token is back. -/
theorem turn_leave (hb : currentTask t ∈ s.limiter.borrowers) :
    Turn currentTask s (leave currentTask s t o).1 t ∧
      currentTask t ∉ (leave currentTask s t o).1.limiter.borrowers := by
  rw [leave, CapacityLimiter.releaseOnBehalfOf, if_pos hb]
  refine ⟨⟨⟨?_, ?_, ?_⟩, ⟨?_, ?_, ?_, ?_⟩, ?_⟩, ?_⟩
  · intro u hu
    simp [setPhase, hu]
  · intro u _
    simp [setPhase]
  · intro b hb
    simp [setPhase, hb]
  · simp [setPhase]
  · simp [setPhase]
  · simp [setPhase]
  · simp [setPhase, Holds]
  · intro _ hmem
    simp [setPhase] at hmem
  · simp [setPhase]

variable (root) in
theorem turn_call (hp : s.limiter.loop.point t = .outside)
    (hb : currentTask t ∈ s.limiter.borrowers) :
    Turn currentTask s (call currentTask s t root).1 t ∧
      (currentTask t ∈ (call currentTask s t root).1.limiter.borrowers →
        Holds (call currentTask s t root).1 t) := by
  rw [call]
  split
  · refine ⟨⟨⟨?_, ?_, ?_⟩, ⟨?_, ?_, ?_, ?_⟩, ?_⟩, ?_⟩
    · intro u hu
      simp [setPhase, hu]
    · exact fun _ _ => rfl
    · exact fun _ _ => Iff.rfl
    · simp [setPhase]
    · exact fun _ _ => hp
    · simp [setPhase]
    · exact fun _ => hb
    · simp [setPhase, Holds]
    · simp [setPhase, Holds]
  · rename_i pool _ _ _
    have h := turn_leave (s := { s with pool := pool }) (t := t) (o := .raised queueFull) hb
    refine ⟨⟨⟨h.1.frame.phase, h.1.frame.point, h.1.frame.borrowers⟩, h.1.held, ?_⟩, ?_⟩
    · exact fun _ hmem => absurd hmem h.2
    · exact fun hmem => absurd hmem h.2

variable (root) in
theorem turn_enter {r : CapacityLimiter.State τ β × Outcome (CapacityLimiter.Point β) Unit}
    (piece : Piece currentTask s.limiter t r)
    (inside : Holds s t → s.limiter.loop.point t = .shieldedCheckpoint) :
    Turn currentTask s (enter currentTask s t root r).1 t := by
  cases piece with
  | @suspended l p hinside hown hpoint hgranted hwaits =>
      have ht : l.loop.point t = p := by rw [hpoint, if_pos rfl]
      have hother : ∀ u, u ≠ t → l.loop.point u = s.limiter.loop.point u := by
        intro u hu
        rw [hpoint, if_neg hu]
      refine ⟨⟨?_, hother, ?_⟩, ⟨?_, ?_, ?_, ?_⟩, ?_⟩
      · intro u hu
        simp [enter, setPhase, hu]
      · intro b hb
        change b ∈ l.borrowers ↔ _
        by_cases hp : p = .shieldedCheckpoint
        · simp [hgranted hp, hb]
        · rw [(hwaits hp).1]
      · intro _ _
        exact ht ▸ hinside
      · simp [enter, setPhase]
      · intro _ b f _ hb
        exact hown b f (ht ▸ hb)
      · intro holds
        have hp : p = .shieldedCheckpoint := by simpa [enter, setPhase, Holds, ht] using holds
        change currentTask t ∈ l.borrowers
        rw [hgranted hp]
        exact Finset.mem_insert_self _ _
      · intro own hmem
        by_cases hp : p = .shieldedCheckpoint
        · simpa [enter, setPhase, Holds, ht] using hp
        · obtain ⟨hsame, hnot⟩ := hwaits hp
          change currentTask t ∈ l.borrowers at hmem
          exact absurd (inside (own (hsame ▸ hmem))) hnot
  | @raised l e hpoint hgaveBack hnothing =>
      refine ⟨⟨?_, ?_, ?_⟩, ⟨?_, ?_, ?_, ?_⟩, ?_⟩
      · intro u hu
        simp [enter, setPhase, hu]
      · intro u hu
        change l.loop.point u = _
        rw [hpoint, if_neg hu]
      · intro b hb
        change b ∈ l.borrowers ↔ _
        by_cases hp : s.limiter.loop.point t = .shieldedCheckpoint
        · simp [hgaveBack hp, hb]
        · rw [hnothing hp]
      · simp [enter, setPhase]
      · simp [enter, setPhase]
      · simp [enter, setPhase]
      · simp [enter, setPhase, Holds]
      · intro own hmem
        change currentTask t ∈ l.borrowers at hmem
        by_cases hp : s.limiter.loop.point t = .shieldedCheckpoint
        · rw [hgaveBack hp] at hmem
          exact absurd hmem (Finset.notMem_erase _ _)
        · rw [hnothing hp] at hmem
          exact absurd (inside (own hmem)) hp
  | @returned l hpoint hgranted =>
      have hpt : l.loop.point t = .outside := by rw [hpoint, if_pos rfl]
      have hb : currentTask t ∈ l.borrowers := hgranted ▸ Finset.mem_insert_self _ _
      have h := turn_call root (s := { s with limiter := l }) hpt hb
      refine h.1.after_frame (frame_limiter ?_ ?_) h.2
      · intro u hu
        rw [hpoint, if_neg hu]
      · intro b hb
        simp [hgranted, hb]

theorem turn_resume (held : HeldAt currentTask s t)
    (hs : resume currentTask s t = some (s', o)) : Turn currentTask s s' t := by
  rw [resume] at hs
  cases hphase : s.phase t with
  | outside => simp [hphase] at hs
  | entering root =>
      simp only [hphase, Option.ite_none_right_eq_some, Option.some.injEq] at hs
      obtain ⟨-, hs⟩ := hs
      have hinside : Holds s t ↔ s.limiter.loop.point t = .shieldedCheckpoint := by
        rw [Holds, hphase]
      have piece : Piece currentTask s.limiter t
          (CapacityLimiter.resume currentTask s.limiter t) := by
        apply piece_resume
        · exact held.entering root hphase
        · exact fun b f => held.own root b f hphase
        · exact fun hp => held.token (hinside.mpr hp)
      have turn := turn_enter root piece hinside.mp
      rwa [hs] at turn
  | waiting item =>
      have hb : currentTask t ∈ s.limiter.borrowers := by
        apply held.token
        rw [Holds, hphase]
        trivial
      cases hfuture : s.pool.future item with
      | pending => simp [hphase, hfuture] at hs
      | finished =>
          simp only [hphase, hfuture, Option.some.injEq] at hs
          have turn := (turn_leave (o := .returned ()) hb).1
          rwa [hs] at turn
      | cancelled =>
          simp only [hphase, hfuture, Option.some.injEq] at hs
          have turn := (turn_leave (o := .raised .cancelledError) hb).1
          rwa [hs] at turn

theorem turn_cancel (held : HeldAt currentTask s t)
    (hs : cancel currentTask s t = some (s', o)) : Turn currentTask s s' t := by
  rw [cancel] at hs
  cases hphase : s.phase t with
  | outside => simp [hphase] at hs
  | entering root =>
      simp only [hphase, Option.map_eq_some_iff, CapacityLimiter.step,
        Option.ite_none_right_eq_some, Option.some.injEq] at hs
      obtain ⟨_, ⟨-, rfl⟩, hs⟩ := hs
      cases hs
      exact turn_of_same held rfl (fun u => Loop.cancel_point _ _ _) rfl
  | waiting item =>
      simp only [hphase, Option.map_eq_some_iff] at hs
      obtain ⟨_, -, hs⟩ := hs
      cases hs
      exact turn_of_same held rfl (fun _ => rfl) rfl

/-- A step of the call of a task, a use of the limiter by somebody else, or a step of the pool. -/
theorem step_cases {a : Action τ β} (hs : step currentTask s a = some (s', o)) :
    (∃ t, HeldAt currentTask s t → Turn currentTask s s' t) ∨
    (∃ use, a = .limiter use ∧ (∀ t ∈ userOf use, s.phase t = .outside) ∧
      CapacityLimiter.Effect currentTask s.limiter use s'.limiter ∧ s'.phase = s.phase) ∨
    (s'.limiter = s.limiter ∧ s'.phase = s.phase) := by
  cases a with
  | runSync t root scopeCancelled =>
      simp only [step, Option.ite_none_right_eq_some, Option.some.injEq] at hs
      obtain ⟨⟨-, hphase, hpoint⟩, hs⟩ := hs
      have turn : Turn currentTask s (enter currentTask s t root
          (CapacityLimiter.acquireOnBehalfOf s.limiter t (currentTask t) scopeCancelled)).1 t := by
        apply turn_enter root (piece_acquire hpoint scopeCancelled)
        simp [Holds, hphase]
      exact .inl ⟨t, fun _ => by rwa [hs] at turn⟩
  | cancel t =>
      simp only [step, Option.ite_none_left_eq_some] at hs
      exact .inl ⟨t, fun held => turn_cancel held hs.2⟩
  | resume t =>
      simp only [step, Option.ite_none_left_eq_some] at hs
      exact .inl ⟨t, fun held => turn_resume held hs.2⟩
  | limiter use =>
      simp only [step, Option.ite_none_right_eq_some, Option.map_eq_some_iff] at hs
      obtain ⟨⟨-, huser⟩, ⟨l, r⟩, hl, hs⟩ := hs
      cases hs
      exact .inr (.inl ⟨use, rfl, huser, CapacityLimiter.effect_of_step hl, rfl⟩)
  | pool event =>
      simp only [step, Option.ite_none_right_eq_some, Option.map_eq_some_iff] at hs
      obtain ⟨-, ⟨p, r⟩, -, hs⟩ := hs
      cases hs
      exact .inr (.inr ⟨rfl, rfl⟩)

/-- A use of the limiter moves its user only. -/
theorem point_of_use {use : CapacityLimiter.Action τ β} {l l' : CapacityLimiter.State τ β}
    (effect : CapacityLimiter.Effect currentTask l use l') (ht : t ∉ userOf use) :
    l'.loop.point t = l.loop.point t := by
  cases effect with
  | refused => rfl
  | grantedNowait _ => rfl
  | released _ => rw [CapacityLimiter.notifyIfFree_point]
  | adjusted _ => exact CapacityLimiter.adjustTotal_point _ _ _
  | cancelled _ => exact Loop.cancel_point _ _ _
  | gaveBack _ _ _ =>
      have hne : t ≠ _ := fun h => ht (h ▸ rfl)
      rw [CapacityLimiter.notifyIfFree_point]
      simp [hne]
  | parked _ | granted _ _ | queued _ _ | left _ _ | took _ | withdrew _ _ =>
      have hne : t ≠ _ := fun h => ht (h ▸ rfl)
      simp [hne]

/-- A token stays out unless it is released or its owner gives it back. -/
theorem borrowed_of_use {use : CapacityLimiter.Action τ β} {l l' : CapacityLimiter.State τ β}
    (effect : CapacityLimiter.Effect currentTask l use l') (hb : b ∈ l.borrowers)
    (hrelease : use ≠ .releaseOnBehalfOf b) (huser : ∀ t ∈ userOf use, currentTask t ≠ b) :
    b ∈ l'.borrowers := by
  cases effect with
  | refused | parked _ | queued _ _ | cancelled _ | left _ _ | withdrew _ _ => exact hb
  | granted _ _ | grantedNowait _ | took _ => exact Finset.mem_insert_of_mem hb
  | @released c _ =>
      have hne : b ≠ c := fun h => hrelease (h ▸ rfl)
      simpa [hne] using hb
  | adjusted _ => rwa [CapacityLimiter.adjustTotal_borrowers]
  | @gaveBack t _ _ _ =>
      have hne : b ≠ currentTask t := (huser t rfl).symm
      simpa [hne] using hb

theorem borrowers_of_set {value : Number} {l l' : CapacityLimiter.State τ β}
    (effect : CapacityLimiter.Effect currentTask l (.setTotalTokens value) l') :
    l'.borrowers = l.borrowers := by
  cases effect with
  | refused => rfl
  | adjusted _ => exact CapacityLimiter.adjustTotal_borrowers _ _

variable (currentTask) in
/-- Nobody else releases the token of a task that is inside of a call. -/
def Minds (s : State τ β) : Action τ β → Prop
  | .limiter (.releaseOnBehalfOf b) => ∀ t, currentTask t = b → s.phase t = .outside
  | _ => True

/-- The token of a call is out in every state of a run that minds it. -/
theorem heldAt_step {a : Action τ β} (injective : currentTask.Injective)
    (held : ∀ t, HeldAt currentTask s t) (ok : Minds currentTask s a)
    (hs : step currentTask s a = some (s', o)) (t : τ) : HeldAt currentTask s' t := by
  rcases step_cases hs with ⟨u, turn⟩ | ⟨use, rfl, huser, effect, hphase⟩ | ⟨hl, hphase⟩
  · exact (turn (held u)).heldAt injective held t
  · by_cases hout : s.phase t = .outside
    · constructor
      · simp [hphase, hout]
      · simp [hphase, hout]
      · simp [hphase, hout]
      · simp [Holds, hphase, hout]
    · have hpoint : s'.limiter.loop.point t = s.limiter.loop.point t :=
        point_of_use effect fun h => hout (huser t h)
      have hholds : Holds s' t ↔ Holds s t := by rw [Holds, Holds, hphase, hpoint]
      constructor
      · rw [hphase, hpoint]
        exact (held t).entering
      · rw [hphase, hpoint]
        exact (held t).waiting
      · rw [hphase, hpoint]
        exact (held t).own
      · intro holds
        apply borrowed_of_use effect ((held t).token (hholds.mp holds))
        · rintro rfl
          exact hout (ok t rfl)
        · intro u hu h
          exact hout (injective h ▸ huser u hu)
  · exact (turn_of_same (held t) hphase (fun u => by rw [hl]) (by rw [hl])).held

omit [DecidableEq τ] [DecidableEq β] in
theorem heldAt_initial (l : CapacityLimiter.State τ β) (t : τ) :
    HeldAt currentTask (initial l) t := by
  constructor <;> simp [initial, Holds]

/-- The limiter is used by the calls only; others may still assign `total_tokens`. -/
def Dedicated (_ : State τ β) : Action τ β → Prop
  | .limiter (.setTotalTokens _) => True
  | .limiter _ => False
  | _ => True

instance (s : State τ β) (a : Action τ β) : Decidable (Dedicated s a) :=
  match a with
  | .limiter (.setTotalTokens _) => .isTrue trivial
  | .limiter (.acquireOnBehalfOf _ _ _) | .limiter (.acquireOnBehalfOfNowait _)
  | .limiter (.releaseOnBehalfOf _) | .limiter (.cancel _) | .limiter (.resume _) => .isFalse id
  | .runSync _ _ _ | .cancel _ | .resume _ | .pool _ => .isTrue trivial

omit [DecidableEq τ] [DecidableEq β] in
theorem Dedicated.minds {a : Action τ β} (ok : Dedicated s a) : Minds currentTask s a := by
  cases a with
  | limiter use =>
      cases use with
      | releaseOnBehalfOf b => exact ok.elim
      | _ => trivial
  | _ => trivial

theorem exact_step {a : Action τ β} (injective : currentTask.Injective)
    (held : ∀ t, HeldAt currentTask s t) (exact' : Exact currentTask s) (ok : Dedicated s a)
    (hs : step currentTask s a = some (s', o)) : Exact currentTask s' := by
  rcases step_cases hs with ⟨u, turn⟩ | ⟨use, rfl, -, effect, hphase⟩ | ⟨hl, hphase⟩
  · exact (turn (held u)).exact injective exact'
  · have hsame : s'.limiter.borrowers = s.limiter.borrowers ∧
        ∀ t, s'.limiter.loop.point t = s.limiter.loop.point t := by
      cases use with
      | setTotalTokens value =>
          exact ⟨borrowers_of_set effect, fun t => point_of_use effect (by simp [userOf])⟩
      | _ => exact ok.elim
    intro b hb
    obtain ⟨t, ht, holds⟩ := exact' b (hsame.1 ▸ hb)
    refine ⟨t, ht, ?_⟩
    rwa [Holds, hphase, hsame.2]
  · intro b hb
    obtain ⟨t, ht, holds⟩ := exact' b (hl ▸ hb)
    refine ⟨t, ht, ?_⟩
    rwa [Holds, hphase, hl]

variable (currentTask) in
/-- Of a limiter that only calls use, exactly the tokens of the calls that have got one are out,
whatever becomes of the calls. When no call is under way, no token is missing. -/
theorem tokens_come_back {value : Number} {l : CapacityLimiter.State τ β}
    (injective : currentTask.Injective)
    (hcreate : CapacityLimiter.create τ β value = .ok l)
    (run : (machine currentTask).Reachable Dedicated (initial l) s) :
    (∀ b, b ∈ s.limiter.borrowers ↔ ∃ t, currentTask t = b ∧ Holds s t) ∧
      ((∀ t, s.phase t = .outside) → s.limiter.borrowers = ∅) := by
  have hempty : l.borrowers = ∅ := by
    obtain ⟨total, rfl⟩ := CapacityLimiter.create_ok hcreate
    rfl
  obtain ⟨held, hexact⟩ := run.invariant
    (I := fun s => (∀ t, HeldAt currentTask s t) ∧ Exact currentTask s)
    ⟨heldAt_initial l, fun b hb => by simp [initial, hempty] at hb⟩
    fun s a s' o inv ok hs => ⟨heldAt_step injective inv.1 ok.minds hs,
      exact_step injective inv.1 inv.2 ok hs⟩
  constructor
  · intro b
    constructor
    · exact hexact b
    · rintro ⟨t, rfl, holds⟩
      exact (held t).token holds
  · intro hout
    apply Finset.eq_empty_of_forall_notMem
    intro b hb
    obtain ⟨t, -, holds⟩ := hexact b hb
    rw [Holds, hout t] at holds
    exact holds

/-- Task 0 is in a worker thread and task 1 in line for the one token when both are cancelled;
the thread of task 0 is at work to the end. -/
def bothCancelled : State (Fin 2) (Fin 2) :=
  ((machine id).exec Dedicated (initial (CapacityLimiter.oneToken (Fin 2) (Fin 2)))
    [.runSync 0 0 false, .resume 0, .runSync 1 0 false, .pool (.thread 0), .pool (.thread 0),
      .cancel 0, .cancel 1, .resume 0, .resume 1]).get (by decide)

theorem tokens_come_back_cancelled :
    ((bothCancelled.pool.worker 0).point = .running 0 ∧ ∀ t, bothCancelled.phase t = .outside) ∧
      bothCancelled.limiter.borrowers = ∅ := by
  have hout : ∀ t, bothCancelled.phase t = .outside := by decide
  have run : (machine id).Reachable Dedicated
      (initial (CapacityLimiter.oneToken (Fin 2) (Fin 2))) bothCancelled :=
    Machine.exec_get_reachable _ _ _
  have created : CapacityLimiter.create (Fin 2) (Fin 2) (.int 1) =
      .ok (CapacityLimiter.oneToken (Fin 2) (Fin 2)) := rfl
  exact ⟨⟨by decide, hout⟩, (tokens_come_back id Function.injective_id created run).2 hout⟩

end Calls

end Anyio.ToThread
