import Anyio.CancelScope.Tree
import Mathlib.Tactic.Common

/-!
# What `_deliver_cancellation` does

A delivery leaves the tree as it is and moves no handle but that of its
origin. It asks for another run if there is a task in a scope that it gets to,
and a task in such a scope that is ready for it is cancelled.
-/

namespace Anyio.CancelScope

open Asyncio Library

variable {τ : Type*}

/-- What is kept by a delivery that `origin` started. -/
structure Delivered (origin : ScopeId) (w w' : World τ) : Prop extends SameTree w w' where
  handle : ∀ c, c ≠ origin → (w'.scope c).cancelHandle = (w.scope c).cancelHandle
  grows : ∀ e ∈ w.callbacks, e ∈ w'.callbacks
  throws : ∀ t, w.loop.throws t = true → w'.loop.throws t = true
  unfinished : ∀ f, w.loop.future f ≠ .finished → w'.loop.future f ≠ .finished

/-- A fold that meets `y` achieves what its step achieves at `y` and never undoes. -/
theorem foldl_of_mem {β γ : Type*} {g : β → γ → β} {P Q : β → Prop} {l : List γ} {y : γ} {b : β}
    (hy : y ∈ l) (keep : ∀ b a, P b → P (g b a)) (mono : ∀ b a, P b → Q b → Q (g b a))
    (hit : ∀ b, P b → Q (g b y)) (hb : P b) : Q (l.foldl g b) := by
  obtain ⟨before, after, rfl⟩ := List.append_of_mem hy
  rw [List.foldl_append, List.foldl_cons]
  have hp : P (before.foldl g b) := List.foldlRecOn before g hb fun b hb a _ => keep b a hb
  have hpq : P (g (before.foldl g b) y) ∧ Q (g (before.foldl g b) y) := ⟨keep _ _ hp, hit _ hp⟩
  exact (List.foldlRecOn (motive := fun b => P b ∧ Q b) after g hpq
    fun b hb a _ => ⟨keep b a hb.1, mono b a hb.1 hb.2⟩).2

variable {w w' w'' : World τ} {Opened : ScopeId → Prop} {self origin c x y : ScopeId} {t u : τ}
  {n : Nat}

namespace Delivered

theorem refl (origin : ScopeId) (w : World τ) : Delivered origin w w :=
  ⟨.refl w, fun _ _ => rfl, fun _ => id, fun _ => id, fun _ => id⟩

theorem trans (h : Delivered origin w w') (h' : Delivered origin w' w'') :
    Delivered origin w w'' where
  toSameTree := h.toSameTree.trans h'.toSameTree
  handle c hc := (h'.handle c hc).trans (h.handle c hc)
  grows e he := h'.grows e (h.grows e he)
  throws t ht := h'.throws t (h.throws t ht)
  unfinished f hf := h'.unfinished f (h.unfinished f hf)

/-- The attributes of the origin outside of the tree may change. -/
theorem modify (w : World τ) (origin : ScopeId) {f : Scope τ → Scope τ}
    (hf : (f (w.scope origin)).tree = (w.scope origin).tree) :
    Delivered origin w (w.modify origin f) where
  toSameTree := .modify w origin hf
  handle c hc := by simp [hc]
  grows _ := id
  throws _ := id
  unfinished _ := id

end Delivered

theorem reschedule_delivered (w : World τ) (origin : ScopeId) :
    Delivered origin w (w.reschedule origin) where
  scope c := by
    by_cases hc : c = origin
    · simp [World.reschedule, World.modify, hc, Scope.tree]
    · simp [World.reschedule, World.modify, hc]
  entered := rfl
  taskState := rfl
  point _ := rfl
  current := rfl
  groups := ⟨rfl, rfl, rfl⟩
  handle c hc := by simp [World.reschedule, World.modify, hc]
  grows e he := List.mem_append_left _ he
  throws _ := id
  unfinished _ := id

theorem deliverToChild_delivered {go : World τ → ScopeId → World τ × Bool}
    (hgo : ∀ w c, Delivered origin w (go w c).1) (r : World τ × Bool) (c : ScopeId) :
    Delivered origin r.1 (World.deliverToChild go r c).1 := by
  unfold World.deliverToChild
  split_ifs
  · exact .refl origin r.1
  · exact hgo r.1 c

theorem scheduleAnother_delivered (self origin : ScopeId) (r : World τ × Bool) :
    Delivered origin r.1 (World.scheduleAnother self origin r).1 := by
  unfold World.scheduleAnother
  split_ifs
  · exact reschedule_delivered r.1 origin
  · exact Delivered.modify r.1 origin (f := fun s => { s with cancelHandle := none }) rfl
  · exact .refl origin r.1

@[simp] theorem scheduleAnother_snd (self origin : ScopeId) (r : World τ × Bool) :
    (World.scheduleAnother self origin r).2 = r.2 := by
  unfold World.scheduleAnother
  split_ifs with _ hr <;> simp_all

theorem children_delivered {go : World τ → ScopeId → World τ × Bool}
    (hgo : ∀ w c, Delivered origin w (go w c).1) (r : World τ × Bool) (l : List ScopeId) :
    Delivered origin r.1 (l.foldl (World.deliverToChild go) r).1 :=
  List.foldlRecOn (motive := fun s => Delivered origin r.1 s.1) l _ (.refl origin r.1)
    fun s hs c _ => hs.trans (deliverToChild_delivered hgo s c)

variable [DecidableEq τ]

theorem cancel_delivered (origin : ScopeId) (w : World τ) (t : τ) :
    Delivered origin w { w with loop := w.loop.cancel t } where
  scope _ := rfl
  entered := rfl
  taskState := rfl
  point u := w.loop.cancel_point t u
  current := rfl
  groups := ⟨rfl, rfl, rfl⟩
  handle _ _ := rfl
  grows _ := id
  throws _ := w.loop.cancel_keeps_throws t
  unfinished f hf := by
    rcases w.loop.cancel_future_cases t f with h | ⟨-, -, h⟩
    · exact h ▸ hf
    · simp [h]

theorem deliverTo_delivered (self origin : ScopeId) (w : World τ) (t : τ) :
    Delivered origin w (w.deliverTo self origin t) := by
  unfold World.deliverTo
  split_ifs
  · exact .refl origin w
  · exact (cancel_delivered origin w t).trans (.modify _ origin rfl)
  · exact cancel_delivered origin w t
  · exact .refl origin w

theorem tasks_delivered (self origin : ScopeId) (w : World τ) (tasks : List τ) :
    Delivered origin w (tasks.foldl (World.deliverTo self origin) w) :=
  List.foldlRecOn tasks _ (.refl origin w) fun w' hw t _ =>
    hw.trans (deliverTo_delivered self origin w' t)

theorem deliverCancellation_delivered (n : Nat) (w : World τ) (self origin : ScopeId) :
    Delivered origin w (w.deliverCancellation n self origin).1 := by
  induction n generalizing w self with
  | zero => exact .refl origin w
  | succ n ih =>
      apply Delivered.trans (tasks_delivered self origin w (w.scope self).tasks)
      apply Delivered.trans _ (scheduleAnother_delivered self origin _)
      exact children_delivered (fun w c => ih w c) (_, _) (w.scope self).childScopes

/-- The next run of a delivery cancels task `t` in its scope `x`: it is not the
running task, it was started or is the host, and its future has no result yet. -/
structure Ready (w : World τ) (x : ScopeId) (t : τ) : Prop where
  alive : w.loop.point t ≠ .finished
  notCurrent : w.current ≠ some t
  eligible : (w.scope x).hostTask = some t ∨ Coroutine.started (w.loop.point t) = true
  waits : ∀ f, w.loop.waits t = .future f → w.loop.future f ≠ .finished

omit [DecidableEq τ] in
theorem Delivered.ready (h : Delivered origin w w') (ready : Ready w x t) : Ready w' x t where
  alive := h.point t ▸ ready.alive
  notCurrent := h.current ▸ ready.notCurrent
  eligible := by
    rw [h.hostTask, h.point]
    exact ready.eligible
  waits f hf := h.unfinished f (ready.waits f (by simpa [Loop.waits, h.point] using hf))

theorem done_eq_false {p : Point} (h : p ≠ .finished) : Coroutine.done p = false := by
  cases p <;> first | rfl | exact absurd rfl h

theorem deliverTo_throws (ready : Ready w x t) (origin : ScopeId) :
    (w.deliverTo x origin t).loop.throws t = true := by
  have hcancel : (w.loop.cancel t).throws t = true :=
    Loop.cancel_throws (done_eq_false ready.alive)
  unfold World.deliverTo
  split_ifs with hm hc
  · simp [Loop.throws, hm]
  · exact hcancel
  · exact hcancel
  · -- the only task left out is one whose future was cancelled before
    have hdone : w.waiterDone t = true := by
      by_contra hd
      exact hc ⟨ready.notCurrent, ready.eligible, by simpa using hd⟩
    cases hw : w.loop.waits t with
    | future f =>
        have hne := ready.waits f hw
        simp only [World.waiterDone, hw, ne_eq, decide_not, Bool.not_eq_true',
          decide_eq_false_iff_not] at hdone
        cases hf : w.loop.future f with
        | pending => exact absurd hf hdone
        | finished => exact absurd hf hne
        | cancelled => simp [Loop.throws, hw, hf]
    | nothing => simp [World.waiterDone, hw] at hdone
    | step => simp [World.waiterDone, hw] at hdone

/-- The loop over the tasks of a scope gets to every one of them. -/
theorem tasks_throw (ready : Ready w x t) {tasks : List τ} (ht : t ∈ tasks) (origin : ScopeId) :
    (tasks.foldl (World.deliverTo x origin) w).loop.throws t = true :=
  foldl_of_mem (P := fun w => Ready w x t) (Q := fun w => w.loop.throws t = true) ht
    (fun w u h => (deliverTo_delivered x origin w u).ready h)
    (fun w u _ h => (deliverTo_delivered x origin w u).throws t h)
    (fun _ h => deliverTo_throws h origin) ready

/-- A delivery from state `w` got to the scope `x` of task `t`. -/
def Arrived (w : World τ) (x : ScopeId) (t : τ) (r : World τ × Bool) : Prop :=
  r.2 = true ∧ (Ready w x t → r.1.loop.throws t = true)

/-- A delivery gets to every scope below the one it is made to, as long as it
may go down as many levels as scopes were entered after that one. -/
theorem deliverCancellation_arrived (hl : Linked w Opened) (hr : Reaches w self x)
    (ht : t ∈ (w.scope x).tasks) (hn : w.entered.length < n + w.entered.idxOf self)
    (origin : ScopeId) : Arrived w x t (w.deliverCancellation n self origin) := by
  induction n generalizing w self with
  | zero =>
      have hle := List.idxOf_le_length (a := self) (l := w.entered)
      omega
  | succ n ih =>
      let go : World τ → ScopeId → World τ × Bool := fun w child =>
        w.deliverCancellation n child origin
      have hgo : ∀ w c, Delivered origin w (go w c).1 := fun w c =>
        deliverCancellation_delivered n w c origin
      let direct := ((w.scope self).tasks.foldl (World.deliverTo self origin) w,
        !(w.scope self).tasks.isEmpty)
      have hdirect : Delivered origin w direct.1 := tasks_delivered self origin w _
      have hall : Arrived w x t
          ((w.scope self).childScopes.foldl (World.deliverToChild go) direct) := by
        have mono : ∀ r c, Arrived w x t r → Arrived w x t (World.deliverToChild go r c) := by
          intro r c hr
          refine ⟨?_, fun ready => (deliverToChild_delivered hgo r c).throws t (hr.2 ready)⟩
          unfold World.deliverToChild
          split_ifs
          · exact hr.1
          · simp [hr.1]
        rcases hr.cases_head with rfl | ⟨y, ⟨hy, hpass⟩, hr⟩
        · apply List.foldlRecOn (motive := Arrived w self t)
          · refine ⟨?_, fun ready => tasks_throw ready ht origin⟩
            cases hts : (w.scope self).tasks with
            | nil => simp [hts] at ht
            | cons _ _ => simp [direct, hts]
          · exact fun r hr c _ => mono r c hr
        · apply foldl_of_mem (P := fun r => Delivered origin w r.1) hy
          · exact fun r c h => h.trans (deliverToChild_delivered hgo r c)
          · exact fun r c _ h => mono r c h
          · intro r h
            have hpass' : ((r.1.scope y).shield || (r.1.scope y).cancelCalled) = false := by
              rw [h.shield, h.cancelCalled]
              exact hpass
            have hlt := (hl.older y self (hl.child y self hy)).1
            have harr : Arrived r.1 x t (go r.1 y) := by
              apply ih (h.linked hl) (h.reaches ▸ hr) (h.tasks x ▸ ht)
              rw [h.entered]
              omega
            simp only [World.deliverToChild, hpass', Bool.false_eq_true, if_false]
            exact ⟨by simp [harr.1], fun ready => harr.2 (h.ready ready)⟩
          · exact hdirect
      refine ⟨(scheduleAnother_snd self origin _).trans hall.1, fun ready => ?_⟩
      exact (scheduleAnother_delivered self origin _).throws t (hall.2 ready)

theorem deliver_delivered (w : World τ) (c : ScopeId) : Delivered c w (w.deliver c) :=
  deliverCancellation_delivered _ w c c

/-- A delivery over the whole tree gets to every task below its origin. -/
theorem deliver_arrived (hl : Linked w Opened) (hr : Reaches w origin x)
    (ht : t ∈ (w.scope x).tasks) :
    ((w.deliver origin).scope origin).cancelHandle ≠ none ∧
      (Ready w x t → (w.deliver origin).loop.throws t = true) := by
  have harr := deliverCancellation_arrived (n := w.entered.length + 1) hl hr ht (by omega) origin
  refine ⟨?_, harr.2⟩
  have hsnd := harr.1
  unfold World.deliver
  rw [World.deliverCancellation, scheduleAnother_snd] at hsnd
  rw [World.deliverCancellation, World.scheduleAnother, if_pos rfl, if_pos hsnd]
  simp [World.reschedule, World.modify]

/-- After a delivery the handle of its origin is that of a queued callback, if there is one. -/
theorem deliver_queued {h : HandleId}
    (hh : ((w.deliver origin).scope origin).cancelHandle = some h) :
    (h, origin) ∈ (w.deliver origin).callbacks := by
  unfold World.deliver at hh ⊢
  rw [World.deliverCancellation, World.scheduleAnother, if_pos rfl] at hh ⊢
  split_ifs at hh ⊢
  · simp only [World.reschedule, World.modify, Function.update_self, Option.some.injEq] at hh ⊢
    simp [hh]
  · simp at hh

end Anyio.CancelScope
