import Anyio.RawSocket.Model
import Mathlib.Tactic.Common

/-!
# Closing a raw UNIX socket

A task waits for a future that is not done only while that future is stored,
and `aclose()` completes what is stored. It fails on a stored future that is
done already: its done-callback, which clears the attribute, is still queued.
The flag of `aclose()` is up by then, so no later call makes up for the wait
that this one did not end.
-/

namespace Anyio.RawSocket

open Asyncio Library

variable {τ : Type*}

/-- What holds in every state of the runs below. -/
structure Inv (s : State τ) : Prop where
  created : ∀ t side f, (s.loop.point t).waitsOn = some (side, f) → f < s.loop.nextFuture
  stored : ∀ side f, (s.half side).future = some f → f < s.loop.nextFuture
  separate : ∀ f, (s.half .receive).future = some f → (s.half .send).future ≠ some f
  guarded : ∀ t side f, (s.loop.point t).waitsOn = some (side, f) →
    (s.half side).guarded = true
  single : ∀ t u side f g, (s.loop.point t).waitsOn = some (side, f) →
    (s.loop.point u).waitsOn = some (side, g) → t = u
  waiting : ∀ t side f, (s.loop.point t).waitsOn = some (side, f) →
    s.loop.future f = .pending → (s.half side).future = some f
  shut : s.closing = true → s.fileOpen = false
  woken : s.closing = true → ∀ t side f, (s.loop.point t).waitsOn = some (side, f) →
    s.loop.future f ≠ .pending

/-- No task waits in one direction. -/
def Free (s : State τ) (side : Side) : Prop :=
  ∀ t f, (s.loop.point t).waitsOn ≠ some (side, f)

/-- An `aclose()` that is going to close the socket finds no stored future that is done. -/
def FindsPending (s : State τ) : Action τ → Prop
  | .aclose _ => s.closing = false →
      ∀ side f, (s.half side).future = some f → s.loop.future f = .pending
  | _ => True

instance (s : State τ) (a : Action τ) : Decidable (FindsPending s a) :=
  match a with
  | .aclose _ =>
      decidable_of_iff (s.closing = false →
        (∀ f ∈ (s.half .receive).future, s.loop.future f = .pending) ∧
          ∀ f ∈ (s.half .send).future, s.loop.future f = .pending)
        ⟨fun h hc side f hf => by
          cases side with
          | receive => exact (h hc).1 f hf
          | send => exact (h hc).2 f hf,
         fun h hc => ⟨fun f hf => h hc .receive f hf, fun f hf => h hc .send f hf⟩⟩
  | .receive _ _ | .send _ _ | .socketCloses | .ready _ | .doneCallback _ | .cancel _
  | .resume _ _ _ => .isTrue trivial

variable {s s' : State τ} {t u : τ} {side other : Side} {f g : FutureId} {o : Answer}

/-- A task awaits exactly the future of its wait. -/
theorem waits_future_iff :
    s.loop.waits t = .future f ↔ ∃ side, (s.loop.point t).waitsOn = some (side, f) := by
  unfold Loop.waits
  cases s.loop.point t <;> simp [Coroutine.waits, Point.waitsOn]

@[simp] theorem setHalf_self (s : State τ) (side : Side) (half : Half) :
    (setHalf s side half).half side = half := by
  simp [setHalf]

theorem setHalf_of_ne (h : other ≠ side) (half : Half) :
    (setHalf s side half).half other = s.half other := by
  simp [setHalf, h]

@[simp] theorem setGuarded_future (s : State τ) (side other : Side) (b : Bool) :
    ((setGuarded s side b).half other).future = (s.half other).future := by
  rcases eq_or_ne other side with rfl | h
  · simp [setGuarded]
  · simp [setGuarded, setHalf_of_ne h]

theorem setGuarded_guarded_of_ne (h : other ≠ side) (b : Bool) :
    ((setGuarded s side b).half other).guarded = (s.half other).guarded := by
  simp [setGuarded, setHalf_of_ne h]

@[simp] theorem doneCallback_guarded (s : State τ) (side other : Side) :
    ((doneCallback s side).half other).guarded = (s.half other).guarded := by
  rcases eq_or_ne other side with rfl | h
  · simp [doneCallback]
  · simp [doneCallback, setHalf_of_ne h]

theorem doneCallback_future (s : State τ) (side other : Side) :
    ((doneCallback s side).half other).future =
      if other = side then none else (s.half other).future := by
  split_ifs with h
  · simp [doneCallback, h]
  · simp [doneCallback, setHalf_of_ne h]

theorem inv_initial : Inv (initial τ) := by
  constructor <;> intros <;> contradiction

/-- Completing and cancelling futures, while nobody moves between waits. -/
theorem Inv.settle (h : Inv s) (hhalf : s'.half = s.half) (hclosing : s'.closing = s.closing)
    (hopen : s'.fileOpen = true → s.fileOpen = true)
    (hpoint : ∀ t, (s'.loop.point t).waitsOn = (s.loop.point t).waitsOn)
    (hnext : s'.loop.nextFuture = s.loop.nextFuture)
    (hpending : ∀ f, s'.loop.future f = .pending → s.loop.future f = .pending) : Inv s' where
  created t side f hw := by
    rw [hpoint] at hw
    rw [hnext]
    exact h.created t side f hw
  stored side f hf := by
    rw [hhalf] at hf
    rw [hnext]
    exact h.stored side f hf
  separate := by
    rw [hhalf]
    exact h.separate
  guarded t side f hw := by
    rw [hpoint] at hw
    rw [hhalf]
    exact h.guarded t side f hw
  single t u side f g ht hu := by
    rw [hpoint] at ht hu
    exact h.single t u side f g ht hu
  waiting t side f hw hp := by
    rw [hpoint] at hw
    rw [hhalf]
    exact h.waiting t side f hw (hpending f hp)
  shut hc := by
    rw [hclosing] at hc
    apply Bool.eq_false_iff.mpr
    intro ho
    exact absurd (hopen ho) (by simp [h.shut hc])
  woken hc t side f hw hp := by
    rw [hpoint] at hw
    exact h.woken (hclosing ▸ hc) t side f hw (hpending f hp)

/-- A guard may change while no task waits in its direction. -/
theorem Inv.setGuarded (h : Inv s) (hfree : Free s side) (b : Bool) :
    Inv (setGuarded s side b) where
  created := h.created
  stored other f hf := h.stored other f (by simpa using hf)
  separate f hf := by
    rw [setGuarded_future] at hf ⊢
    exact h.separate f hf
  guarded t other f hw := by
    have hne : other ≠ side := by
      rintro rfl
      exact hfree t f hw
    rw [setGuarded_guarded_of_ne hne]
    exact h.guarded t other f hw
  single := h.single
  waiting t other f hw hp := by
    rw [setGuarded_future]
    exact h.waiting t other f hw hp
  shut := h.shut
  woken := h.woken

/-- The done-callback clears a future that is done, and nobody waits for another one. -/
theorem Inv.doneCallback (h : Inv s) (hf : (s.half side).future = some f)
    (hdone : s.loop.future f ≠ .pending) : Inv (doneCallback s side) where
  created := h.created
  stored other g hg := by
    rw [doneCallback_future] at hg
    split_ifs at hg with ho
    exact h.stored other g hg
  separate g hg := by
    rw [doneCallback_future] at hg ⊢
    split_ifs at hg
    split_ifs
    · simp
    · exact h.separate g hg
  guarded t other g hw := by
    rw [doneCallback_guarded]
    exact h.guarded t other g hw
  single := h.single
  waiting t other g hw hp := by
    have hg := h.waiting t other g hw hp
    have hne : other ≠ side := by
      rintro rfl
      rw [hf] at hg
      exact hdone (Option.some.inj hg ▸ hp)
    rw [doneCallback_future, if_neg hne]
    exact hg
  shut := h.shut
  woken := h.woken

/-- Nobody waits in a direction whose guard is not taken. -/
theorem Inv.free_of_unguarded (h : Inv s) (hg : (s.half side).guarded = false) : Free s side := by
  intro u f hu
  simp [h.guarded u side f hu] at hg

/-- Only an open socket makes a call wait. -/
theorem open_of_blocks {α : Type*} {answer : Attempt α}
    (hb : attempt s answer = .blocks) : s.fileOpen = true := by
  unfold attempt at hb
  split_ifs at hb with ho
  exact ho

variable [DecidableEq τ]

/-- A task that comes to a point where it waits in no direction. -/
theorem Inv.move {p : Point} (h : Inv s) (hhalf : s'.half = s.half)
    (hclosing : s'.closing = s.closing) (hopen : s'.fileOpen = s.fileOpen)
    (hpoint : ∀ u, s'.loop.point u = if u = t then p else s.loop.point u)
    (hp : p.waitsOn = none) (hnext : s'.loop.nextFuture = s.loop.nextFuture)
    (hfuture : s'.loop.future = s.loop.future) : Inv s' := by
  have hw : ∀ u side f, (s'.loop.point u).waitsOn = some (side, f) →
      (s.loop.point u).waitsOn = some (side, f) := by
    intro u side f hu
    rw [hpoint] at hu
    split_ifs at hu with hut
    · simp [hp] at hu
    · exact hu
  constructor
  · intro u side f hu
    rw [hnext]
    exact h.created u side f (hw u side f hu)
  · intro side f hf
    rw [hhalf] at hf
    rw [hnext]
    exact h.stored side f hf
  · rw [hhalf]
    exact h.separate
  · intro u side f hu
    rw [hhalf]
    exact h.guarded u side f (hw u side f hu)
  · intro u v side f g hu hv
    exact h.single u v side f g (hw u side f hu) (hw v side g hv)
  · intro u side f hu hf
    rw [hhalf]
    rw [hfuture] at hf
    exact h.waiting u side f (hw u side f hu) hf
  · rw [hclosing, hopen]
    exact h.shut
  · intro hc u side f hu
    rw [hfuture]
    exact h.woken (hclosing ▸ hc) u side f (hw u side f hu)

theorem Inv.wake (h : Inv s) (t : τ) : Inv (wake s t) := by
  refine Inv.move (t := t) (p := .outside) h rfl rfl rfl ?_ rfl rfl rfl
  intro u
  exact Loop.resumeAt_point s.loop t u .outside

/-- The task that waited in a direction was the only one. -/
theorem Inv.free_wake (h : Inv s) (hw : (s.loop.point t).waitsOn = some (side, f)) :
    Free (RawSocket.wake s t) side := by
  intro u g hu
  simp only [RawSocket.wake, Loop.resumeAt_point] at hu
  split_ifs at hu with hut
  · simp [Point.waitsOn] at hu
  · exact hut (h.single u t side g f hu hw)

theorem Free.wake (h : Free s side) (t : τ) : Free (RawSocket.wake s t) side := by
  intro u f hu
  simp only [RawSocket.wake, Loop.resumeAt_point] at hu
  split_ifs at hu
  · simp [Point.waitsOn] at hu
  · exact h u f hu

/-- A task that waits for the new future of a direction, under its guard. The socket is
open, so no `aclose()` is over. -/
theorem Inv.waitUntil {p : Point} (h : Inv s) (hfree : Free s side)
    (hg : (s.half side).guarded = true) (hopen : s.fileOpen = true)
    (hp : p.waitsOn = some (side, s.loop.nextFuture)) :
    Inv { waitUntil s side with loop := (waitUntil s side).loop.moveTo t p } := by
  have hclosing : s.closing = false := by
    apply Bool.eq_false_iff.mpr
    intro hc
    simp [h.shut hc] at hopen
  have hw : ∀ u other f, ((if u = t then p else s.loop.point u).waitsOn = some (other, f)) →
      u = t ∧ other = side ∧ f = s.loop.nextFuture ∨
        u ≠ t ∧ (s.loop.point u).waitsOn = some (other, f) := by
    intro u other f hu
    split_ifs at hu with hut
    · simp only [hp, Option.some.injEq, Prod.mk.injEq] at hu
      exact .inl ⟨hut, hu.1.symm, hu.2.symm⟩
    · exact .inr ⟨hut, hu⟩
  have hfuture : ∀ other, ((RawSocket.waitUntil s side).half other).future =
      if other = side then some s.loop.nextFuture else (s.half other).future := by
    intro other
    split_ifs with ho
    · simp [RawSocket.waitUntil, setHalf, ho]
    · simp [RawSocket.waitUntil, setHalf, ho]
  have hguarded : ∀ other, ((RawSocket.waitUntil s side).half other).guarded =
      (s.half other).guarded := by
    intro other
    rcases eq_or_ne other side with rfl | ho
    · simp [RawSocket.waitUntil, setHalf]
    · simp [RawSocket.waitUntil, setHalf, ho]
  constructor
  · intro u other f hu
    simp only [RawSocket.waitUntil, Loop.moveTo_point, Loop.createFuture_point,
      Loop.moveTo_nextFuture, Loop.createFuture_nextFuture] at hu ⊢
    rcases hw u other f hu with ⟨-, -, rfl⟩ | ⟨-, hu⟩
    · exact Nat.lt_succ_self _
    · exact Nat.lt_succ_of_lt (h.created u other f hu)
  · intro other f hf
    simp only [hfuture] at hf
    simp only [RawSocket.waitUntil, Loop.moveTo_nextFuture, Loop.createFuture_nextFuture]
    split_ifs at hf
    · cases hf
      exact Nat.lt_succ_self _
    · exact Nat.lt_succ_of_lt (h.stored other f hf)
  · intro f hr hs
    simp only [hfuture] at hr hs
    cases side with
    | receive =>
        simp only [if_true, Option.some.injEq, reduceCtorEq, if_false] at hr hs
        exact absurd (h.stored .send f hs) (by simp [← hr])
    | send =>
        simp only [if_true, Option.some.injEq, reduceCtorEq, if_false] at hr hs
        exact absurd (h.stored .receive f hr) (by simp [← hs])
  · intro u other f hu
    simp only [RawSocket.waitUntil, Loop.moveTo_point, Loop.createFuture_point] at hu
    simp only [hguarded]
    rcases hw u other f hu with ⟨-, rfl, -⟩ | ⟨-, hu⟩
    · exact hg
    · exact h.guarded u other f hu
  · intro u v other f g hu hv
    simp only [RawSocket.waitUntil, Loop.moveTo_point, Loop.createFuture_point] at hu hv
    rcases hw u other f hu with ⟨hu, rfl, -⟩ | ⟨-, hu⟩ <;>
      rcases hw v other g hv with ⟨hv, ho, -⟩ | ⟨-, hv⟩
    · rw [hu, hv]
    · exact absurd hv (hfree v g)
    · exact absurd (ho ▸ hu) (hfree u f)
    · exact h.single u v other f g hu hv
  · intro u other f hu hpending
    simp only [RawSocket.waitUntil, Loop.moveTo_point, Loop.createFuture_point] at hu
    simp only [hfuture]
    rcases hw u other f hu with ⟨-, rfl, rfl⟩ | ⟨-, hu⟩
    · rw [if_pos rfl]
    · have hne : other ≠ side := by
        rintro rfl
        exact hfree u f hu
      rw [if_neg hne]
      apply h.waiting u other f hu
      have hold : f ≠ s.loop.nextFuture := (h.created u other f hu).ne
      simpa [RawSocket.waitUntil, hold] using hpending
  · intro hc
    exact h.shut hc
  · intro hc
    change s.closing = true at hc
    simp [hclosing] at hc

theorem Inv.recv (h : Inv s) (hfree : Free s .receive) (hg : (s.half .receive).guarded = true)
    (m : Int) (received : Attempt Bytes) : Inv (recv s t m received).1 := by
  unfold RawSocket.recv
  split
  · rename_i hb
    exact h.waitUntil hfree hg (open_of_blocks hb) rfl
  · exact h.setGuarded hfree false
  · exact h.setGuarded hfree false
  · exact h.setGuarded hfree false

theorem Inv.sendBlocked (h : Inv s) (hfree : Free s .send) (hg : (s.half .send).guarded = true)
    (hopen : s.fileOpen = true) (view : Bytes) : Inv (sendBlocked s t view).1 :=
  h.waitUntil hfree hg hopen rfl

theorem Inv.sendView (h : Inv s) (hfree : Free s .send) (hg : (s.half .send).guarded = true)
    (view : Bytes) (sent : List (Attempt Nat)) : Inv (sendView s t view sent).1 := by
  fun_induction RawSocket.sendView s t view sent with
  | case1 => exact h.setGuarded hfree false
  | case2 => exact h.setGuarded hfree false
  | case3 b view hb =>
      apply h.sendBlocked hfree hg
      apply Bool.eq_true_of_not_eq_false
      intro ho
      simp [attempt, ho] at hb
  | case4 b view answer rest hb => exact h.sendBlocked hfree hg (open_of_blocks hb) _
  | case5 => exact h.setGuarded hfree false
  | case6 b view answer rest n hn ih => exact ih

theorem Inv.resume (h : Inv s) (received : Attempt Bytes) (sent : List (Attempt Nat)) :
    Inv (resume s t received sent).1 := by
  have hwake := h.wake t
  unfold RawSocket.resume
  cases hpt : s.loop.point t with
  | outside => exact h
  | receiveCheckpoint m =>
      dsimp only
      split_ifs with hthrow hg
      · exact hwake
      · exact hwake
      · have hfree := (h.free_of_unguarded (by simpa using hg)).wake t
        exact (hwake.setGuarded hfree true).recv hfree (by simp [RawSocket.setGuarded]) m received
  | receiveWait m f =>
      have hw : (s.loop.point t).waitsOn = some (.receive, f) := by rw [hpt]; rfl
      dsimp only
      split_ifs with hthrow
      · exact hwake.setGuarded (h.free_wake hw) false
      · exact hwake.recv (h.free_wake hw) (h.guarded t .receive f hw) m received
  | sendCheckpoint item =>
      dsimp only
      split_ifs with hthrow hg
      · exact hwake
      · exact hwake
      · have hfree := (h.free_of_unguarded (by simpa using hg)).wake t
        exact (hwake.setGuarded hfree true).sendView hfree (by simp [RawSocket.setGuarded]) item
          sent
  | sendWait view f =>
      have hw : (s.loop.point t).waitsOn = some (.send, f) := by rw [hpt]; rfl
      dsimp only
      split_ifs with hthrow
      · exact hwake.setGuarded (h.free_wake hw) false
      · exact hwake.sendView (h.free_wake hw) (h.guarded t .send f hw) view sent

omit [DecidableEq τ] in
/-- `set_result()` of a stored future that is pending touches no other. -/
theorem complete_of_pending (hp : ∀ f, (s.half side).future = some f → s.loop.future f = .pending) :
    ∃ l : Loop τ Point, complete s side = some { s with loop := l } ∧ l.task = s.loop.task ∧
      l.nextFuture = s.loop.nextFuture ∧
      ∀ g, l.future g = if (s.half side).future = some g then .finished else s.loop.future g := by
  unfold complete
  cases hf : (s.half side).future with
  | none => exact ⟨s.loop, rfl, rfl, rfl, by simp⟩
  | some f =>
      have hset := Loop.setResult_eq_some.mpr ⟨hp f hf, rfl⟩
      refine ⟨{ s.loop with future := Function.update s.loop.future f .finished }, ?_, rfl, rfl, ?_⟩
      · simp only [hset, Option.map_some]
      · intro g
        simp [Function.update_apply, eq_comm]

omit [DecidableEq τ] in
/-- A stored future that is done makes `set_result()` fail. -/
theorem complete_of_done (hf : (s.half side).future = some f) (hdone : s.loop.future f ≠ .pending) :
    complete s side = none := by
  simp [complete, hf, Loop.setResult, hdone]

omit [DecidableEq τ] in
/-- An `aclose()` that finds both stored futures pending completes both of them. -/
theorem Inv.aclose_of_pending (h : Inv s) (hc : s.closing = false)
    (hp : ∀ side f, (s.half side).future = some f → s.loop.future f = .pending) :
    ∃ l : Loop τ Point,
      aclose s = ({ s with closing := true, fileOpen := false, loop := l }, .returned none) ∧
        l.task = s.loop.task ∧ l.nextFuture = s.loop.nextFuture ∧
        (∀ side g, (s.half side).future = some g → l.future g = .finished) ∧
        ∀ g, l.future g = .pending → s.loop.future g = .pending := by
  obtain ⟨l, hl, ltask, lnext, lfuture⟩ :=
    complete_of_pending (s := { s with closing := true, fileOpen := false }) (hp .receive)
  have hsend : ∀ f, (s.half .send).future = some f → l.future f = .pending := by
    intro f hf
    rw [lfuture, if_neg]
    · exact hp .send f hf
    · exact fun hr => h.separate f hr hf
  obtain ⟨k, hk, ktask, knext, kfuture⟩ :=
    complete_of_pending (s := { s with closing := true, fileOpen := false, loop := l }) hsend
  refine ⟨k, ?_, ktask.trans ltask, knext.trans lnext, ?_, ?_⟩
  · simp [aclose, hc, hl, hk]
  · intro side g hg
    rw [kfuture]
    split_ifs with hs
    · rfl
    · change l.future g = .finished
      cases side with
      | receive => rw [lfuture, if_pos hg]
      | send => exact absurd hg hs
  · intro g hg
    rw [kfuture] at hg
    split_ifs at hg
    change l.future g = .pending at hg
    rw [lfuture] at hg
    split_ifs at hg
    exact hg

omit [DecidableEq τ] in
/-- An `aclose()` that finds a stored future done raises. -/
theorem aclose_of_done (hc : s.closing = false) (hf : (s.half side).future = some f)
    (hdone : s.loop.future f ≠ .pending) : (aclose s).2 = .raised .invalidStateError := by
  unfold aclose
  simp only [hc, Bool.false_eq_true, if_false]
  cases side with
  | receive =>
      rw [complete_of_done (s := { s with closing := true, fileOpen := false }) hf hdone]
  | send =>
      cases hr : complete { s with closing := true, fileOpen := false } .receive with
      | none => rfl
      | some woken =>
          have hstill : (woken.half .send).future = some f ∧ woken.loop.future f ≠ .pending := by
            unfold complete at hr
            split at hr
            · cases hr
              exact ⟨hf, hdone⟩
            · obtain ⟨l, hl, rfl⟩ := Option.map_eq_some_iff.mp hr
              obtain ⟨-, rfl⟩ := Loop.setResult_eq_some.mp hl
              refine ⟨hf, ?_⟩
              simp only [Function.update_apply]
              split_ifs
              · simp
              · exact hdone
          simp only
          rw [complete_of_done hstill.1 hstill.2]

omit [DecidableEq τ] in
/-- After an `aclose()` that completes what is stored, no task waits any more. -/
theorem Inv.aclose_woken (h : Inv s) (hc : s.closing = false)
    (hp : ∀ side f, (s.half side).future = some f → s.loop.future f = .pending) :
    ∃ s', aclose s = (s', .returned none) ∧ Inv s' ∧ s'.closing = true ∧
      ∀ u, s'.loop.point u = s.loop.point u := by
  obtain ⟨l, hl, htask, hnext, hfinished, hpending⟩ := h.aclose_of_pending hc hp
  refine ⟨_, hl, ?_, rfl, ?_⟩
  · have hpoint : ∀ u, l.point u = s.loop.point u := by
      intro u
      simp [Loop.point, htask]
    have hset : Inv { s with fileOpen := false, loop := l } := by
      exact h.settle rfl rfl (by simp) (fun u => by simp only [hpoint]) hnext hpending
    refine ⟨hset.created, hset.stored, hset.separate, hset.guarded, hset.single, hset.waiting,
      fun _ => rfl, ?_⟩
    intro _ u side f hw hf
    have hfin := hfinished side f (hset.waiting u side f hw hf)
    exact absurd (hfin.symm.trans hf) (by simp)
  · intro u
    simp [Loop.point, htask]

theorem Inv.step (h : Inv s) {a : Action τ} (ok : FindsPending s a)
    (hs : step s a = some (s', o)) : Inv s' := by
  cases a with
  | receive t m =>
      obtain ⟨-, he⟩ := Option.ite_none_right_eq_some.mp hs
      cases he
      exact h.move (t := t) rfl rfl rfl (fun u => Loop.moveTo_point s.loop t u _) rfl rfl rfl
  | send t item =>
      obtain ⟨-, he⟩ := Option.ite_none_right_eq_some.mp hs
      cases he
      exact h.move (t := t) rfl rfl rfl (fun u => Loop.moveTo_point s.loop t u _) rfl rfl rfl
  | aclose t =>
      obtain ⟨-, he⟩ := Option.ite_none_right_eq_some.mp hs
      cases hc : s.closing with
      | true =>
          simp only [RawSocket.aclose, hc, if_true, Option.some.injEq, Prod.mk.injEq] at he
          exact he.1 ▸ h
      | false =>
          obtain ⟨s₁, hs₁, hinv, -, -⟩ := h.aclose_woken hc (ok hc)
          rw [hs₁] at he
          cases he
          exact hinv
  | socketCloses =>
      cases hs
      exact h.settle rfl rfl (by simp) (fun _ => rfl) rfl (fun _ hf => hf)
  | ready side =>
      obtain ⟨f, hf, he⟩ := Option.map_eq_some_iff.mp hs
      unfold RawSocket.ready at he
      cases hl : s.loop.setResult f with
      | none =>
          simp only [hl] at he
          cases he
          exact h
      | some l =>
          simp only [hl] at he
          cases he
          obtain ⟨-, rfl⟩ := Loop.setResult_eq_some.mp hl
          refine Inv.settle h rfl rfl id (fun _ => rfl) rfl ?_
          intro g hg
          simp only [Function.update_apply] at hg
          split_ifs at hg
          exact hg
  | doneCallback side =>
      simp only [RawSocket.step] at hs
      cases hf : (s.half side).future with
      | none => simp [hf] at hs
      | some f =>
          simp only [hf] at hs
          obtain ⟨hdone, he⟩ := Option.ite_none_left_eq_some.mp hs
          cases he
          exact h.doneCallback hf hdone
  | cancel t =>
      obtain ⟨-, he⟩ := Option.ite_none_right_eq_some.mp hs
      cases he
      refine Inv.settle h rfl rfl id (fun u => by simp) (by simp) ?_
      exact fun f hf => Loop.pending_of_cancel hf
  | resume t received sent =>
      obtain ⟨-, he⟩ := Option.ite_none_right_eq_some.mp hs
      have hr := h.resume (t := t) received sent
      rw [Option.some.inj he] at hr
      exact hr

theorem reachable_inv (run : (machine τ).Reachable FindsPending (initial τ) s) : Inv s :=
  run.invariant inv_initial fun _ _ _ _ hinv ok hs => hinv.step ok hs

/-- In every run whose earlier `aclose()` found no stored future that was done, an `aclose()`
raises nothing and leaves no task waiting for a future that is not done if and only if it
finds none itself. -/
theorem aclose_wakes_both (run : (machine τ).Reachable FindsPending (initial τ) s)
    (hs : (machine τ).step s (.aclose t) = some (s', o)) :
    ((∀ e, o ≠ .raised e) ∧
        ∀ u f, s.loop.waits u = .future f → s'.loop.future f ≠ .pending) ↔
      FindsPending s (.aclose t) := by
  have hinv := reachable_inv run
  obtain ⟨-, he⟩ := Option.ite_none_right_eq_some.mp hs
  constructor
  · rintro ⟨hquiet, -⟩ hc side f hf
    by_contra hdone
    have hraise := aclose_of_done hc hf hdone
    rw [Option.some.inj he] at hraise
    exact hquiet _ hraise
  · intro hfinds
    cases hc : s.closing with
    | true =>
        simp only [aclose, hc, if_true, Option.some.injEq, Prod.mk.injEq] at he
        obtain ⟨rfl, rfl⟩ := he
        refine ⟨by simp, ?_⟩
        intro u f hw
        obtain ⟨side, hside⟩ := waits_future_iff.mp hw
        exact hinv.woken hc u side f hside
    | false =>
        obtain ⟨s₁, hs₁, hinv₁, hc₁, hpoint⟩ := hinv.aclose_woken hc (hfinds hc)
        rw [hs₁] at he
        cases he
        refine ⟨by simp, ?_⟩
        intro u f hw
        obtain ⟨side, hside⟩ := waits_future_iff.mp hw
        rw [← hpoint] at hside
        exact hinv₁.woken hc₁ u side f hside

/-- A reader and a writer that both wait. -/
def bothWait : State (Fin 3) :=
  ((machine (Fin 3)).exec FindsPending (initial (Fin 3))
    [.receive 0 1, .send 1 [1], .resume 0 .blocks [], .resume 1 .blocks [.blocks]]).get (by decide)

theorem aclose_wakes_both_bothWait :
    bothWait.loop.waits 0 = .future 0 ∧ bothWait.loop.waits 1 = .future 1 ∧
      (aclose bothWait).1.loop.future 0 ≠ .pending ∧
      (aclose bothWait).1.loop.future 1 ≠ .pending := by
  have run : (machine (Fin 3)).Reachable FindsPending (initial (Fin 3)) bothWait :=
    Machine.exec_get_reachable _ _ _
  have hs : (machine (Fin 3)).step bothWait (.aclose 2) = some (aclose bothWait) := rfl
  have hwoken := ((aclose_wakes_both run hs).mpr (by decide)).2
  exact ⟨by decide, by decide, hwoken 0 0 (by decide), hwoken 1 1 (by decide)⟩

/-- The reader was cancelled, and its done-callback has not run yet. -/
def cancelledReader : State (Fin 3) :=
  ((machine (Fin 3)).exec Machine.anyStep (initial (Fin 3))
    [.receive 0 1, .send 1 [1], .resume 0 .blocks [], .resume 1 .blocks [.blocks],
      .cancel 0]).get (by decide)

/-- `aclose()` raises on the cancelled future of the reader and leaves the writer waiting. -/
theorem aclose_not_wakes_both :
    ¬ ∀ (s : State (Fin 3)), (machine (Fin 3)).Reachable Machine.anyStep (initial (Fin 3)) s →
      ∀ t s' o, (machine (Fin 3)).step s (.aclose t) = some (s', o) →
        (∀ e, o ≠ .raised e) ∧
          ∀ u f, s.loop.waits u = .future f → s'.loop.future f ≠ .pending := by
  intro hclaim
  have run : (machine (Fin 3)).Reachable Machine.anyStep (initial (Fin 3)) cancelledReader :=
    Machine.exec_get_reachable _ _ _
  have hs : (machine (Fin 3)).step cancelledReader (.aclose 2) = some (aclose cancelledReader) :=
    rfl
  obtain ⟨hquiet, -⟩ := hclaim cancelledReader run 2 _ _ hs
  exact hquiet .invalidStateError (by decide)

/-- A second `aclose()` returns at once, with the writer still waiting. -/
example : (aclose (aclose cancelledReader).1).2 = .returned none ∧
    (aclose (aclose cancelledReader).1).1.loop.waits 1 = .future 1 ∧
    (aclose (aclose cancelledReader).1).1.loop.future 1 = .pending := by decide

end Anyio.RawSocket
