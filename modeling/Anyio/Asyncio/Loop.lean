import Mathlib.Data.Fintype.Basic
import Mathlib.Tactic.SplitIfs

/-!
# Futures and suspended tasks of an asyncio event loop

The part of `asyncio` that synchronization code depends on: the state of each
future, the point each task stands at, and what `Task.cancel()` and a wake-up
do to them. A task is suspended on a future or on a bare yield; in the second
case its next step is queued from the start.

## Implementation notes

The point of a task is a parameter. It holds the local variables that live
across the suspension, and `Coroutine.waits` reads off what is awaited there,
so a task can never be at a point that awaits one thing and be suspended on
another. A wake-up may be run whenever it is queued: the queue of the real
loop is first-in first-out, and each of its schedules is one of these.

A cancellation request that reaches a task while it runs takes effect at its
next suspension. Unless something reads the count before that, it is the same
run as one in which the request arrives right after that suspension; a model
for which this matters suspends its tasks with `suspend`.
-/

namespace Anyio.Asyncio

abbrev FutureId := Nat

/-- The states of an `asyncio.Future`; a result and an exception are both `finished`. -/
inductive FutureState
  | pending | finished | cancelled
  deriving DecidableEq, Repr

/-- What a task is suspended on. -/
inductive Waits
  | nothing
  | step
  | future (fut : FutureId)
  deriving DecidableEq, Repr

/-- The points of a coroutine: what each awaits, and whether its first step
was made and its last one is over. -/
class Coroutine (κ : Type*) where
  waits : κ → Waits
  started : κ → Bool := fun _ => true
  done : κ → Bool := fun _ => false

/-- The point of a task, `_must_cancel`, and the count behind `cancelling()`. -/
structure Task (κ : Type*) where
  point : κ
  mustCancel : Bool := false
  cancelling : Nat := 0

structure Loop (τ κ : Type*) where
  future : FutureId → FutureState
  nextFuture : FutureId
  task : τ → Task κ

namespace Loop

variable {τ κ : Type*}

/-- All tasks stand at `p` and no future was created yet. -/
def initial (p : κ) : Loop τ κ where
  future := fun _ => .pending
  nextFuture := 0
  task := fun _ => { point := p }

/-- The point at which a task stands. -/
def point (l : Loop τ κ) (t : τ) : κ := (l.task t).point

@[simp] theorem initial_point (p : κ) (t : τ) : (initial p : Loop τ κ).point t = p := rfl

/-- `asyncio.Future()`. The identifier of the new future is the old `nextFuture`. -/
def createFuture (l : Loop τ κ) : Loop τ κ :=
  { l with
    future := Function.update l.future l.nextFuture .pending
    nextFuture := l.nextFuture + 1 }

/-- `Future.set_result()`; `none` is `InvalidStateError`. -/
def setResult (l : Loop τ κ) (f : FutureId) : Option (Loop τ κ) :=
  if l.future f = .pending then
    some { l with future := Function.update l.future f .finished }
  else none

/-- `asyncio.Event.set()` for an event with one waiter, whose future is `f`. -/
def setEvent (l : Loop τ κ) (f : FutureId) : Loop τ κ :=
  if l.future f = .pending then
    { l with future := Function.update l.future f .finished }
  else l

@[simp] theorem createFuture_point (l : Loop τ κ) (t : τ) :
    l.createFuture.point t = l.point t := rfl

@[simp] theorem createFuture_task (l : Loop τ κ) : l.createFuture.task = l.task := rfl

@[simp] theorem createFuture_nextFuture (l : Loop τ κ) :
    l.createFuture.nextFuture = l.nextFuture + 1 := rfl

@[simp] theorem createFuture_future (l : Loop τ κ) (g : FutureId) :
    l.createFuture.future g = if g = l.nextFuture then .pending else l.future g := by
  simp [createFuture, Function.update_apply]

/-- `set_result` succeeds exactly on a pending future. -/
theorem setResult_eq_some {l l' : Loop τ κ} {f : FutureId} :
    l.setResult f = some l' ↔ l.future f = .pending ∧
      l' = { l with future := Function.update l.future f .finished } := by
  unfold setResult
  split_ifs with h <;> simp [h, eq_comm]

@[simp] theorem setEvent_task (l : Loop τ κ) (f : FutureId) : (l.setEvent f).task = l.task := by
  unfold setEvent
  split_ifs <;> rfl

@[simp] theorem setEvent_point (l : Loop τ κ) (f : FutureId) (t : τ) :
    (l.setEvent f).point t = l.point t := by
  simp [point]

@[simp] theorem setEvent_nextFuture (l : Loop τ κ) (f : FutureId) :
    (l.setEvent f).nextFuture = l.nextFuture := by
  unfold setEvent
  split_ifs <;> rfl

theorem setEvent_future (l : Loop τ κ) (f g : FutureId) :
    (l.setEvent f).future g =
      if g = f ∧ l.future f = .pending then .finished else l.future g := by
  unfold setEvent
  split_ifs with h h' h'
  · simp [h'.1]
  · have hne : g ≠ f := fun he => h' ⟨he, h⟩
    simp [Function.update_of_ne hne]
  · exact absurd h'.2 h
  · rfl

theorem setEvent_future_of_ne {l : Loop τ κ} {f g : FutureId} (h : g ≠ f) :
    (l.setEvent f).future g = l.future g := by
  rw [setEvent_future, if_neg fun hg => h hg.1]

section Tasks
variable [DecidableEq τ]

/-- Leave task `t` at point `p` of its coroutine. -/
def moveTo (l : Loop τ κ) (t : τ) (p : κ) : Loop τ κ :=
  { l with task := Function.update l.task t { l.task t with point := p } }

/-- A step of task `t` that ends at point `p`: a pending request was consumed by it. -/
def resumeAt (l : Loop τ κ) (t : τ) (p : κ) : Loop τ κ :=
  { l with task := Function.update l.task t { l.task t with point := p, mustCancel := false } }

/-- `Task.uncancel()` and the requests that reach task `t` elsewhere: the count
behind `cancelling()` becomes `n`. -/
def setCancelling (l : Loop τ κ) (t : τ) (n : Nat) : Loop τ κ :=
  { l with task := Function.update l.task t { l.task t with cancelling := n } }

/-- Suspend task `t` at point `p`. A request that reached the task while it ran
is passed on to the awaited future, if that is still pending. -/
def suspend [Coroutine κ] (l : Loop τ κ) (t : τ) (p : κ) : Loop τ κ :=
  match Coroutine.waits p with
  | .future f =>
      if (l.task t).mustCancel = true ∧ l.future f = .pending then
        { l.resumeAt t p with future := Function.update l.future f .cancelled }
      else l.moveTo t p
  | _ => l.moveTo t p

/-- `Task.uncancel()`. From Python 3.13 on, taking back the last request also
rescinds the one that is pending. -/
def uncancel (l : Loop τ κ) (t : τ) (rescinds : Bool) : Loop τ κ :=
  let k := l.task t
  let last := rescinds && k.cancelling == 1
  { l with
    task := Function.update l.task t
      { k with cancelling := k.cancelling - 1, mustCancel := k.mustCancel && !last } }

@[simp] theorem moveTo_point (l : Loop τ κ) (t u : τ) (p : κ) :
    (l.moveTo t p).point u = if u = t then p else l.point u := by
  by_cases h : u = t <;> simp [moveTo, point, h]

@[simp] theorem moveTo_mustCancel (l : Loop τ κ) (t u : τ) (p : κ) :
    ((l.moveTo t p).task u).mustCancel = (l.task u).mustCancel := by
  by_cases h : u = t <;> simp [moveTo, h]

@[simp] theorem moveTo_cancelling (l : Loop τ κ) (t u : τ) (p : κ) :
    ((l.moveTo t p).task u).cancelling = (l.task u).cancelling := by
  by_cases h : u = t <;> simp [moveTo, h]

@[simp] theorem moveTo_future (l : Loop τ κ) (t : τ) (p : κ) :
    (l.moveTo t p).future = l.future := rfl

@[simp] theorem moveTo_nextFuture (l : Loop τ κ) (t : τ) (p : κ) :
    (l.moveTo t p).nextFuture = l.nextFuture := rfl

theorem moveTo_task_of_ne {l : Loop τ κ} {t u : τ} (h : u ≠ t) (p : κ) :
    (l.moveTo t p).task u = l.task u := by
  simp [moveTo, h]

theorem resumeAt_task_of_ne {l : Loop τ κ} {t u : τ} (h : u ≠ t) (p : κ) :
    (l.resumeAt t p).task u = l.task u := by
  simp [resumeAt, h]

@[simp] theorem resumeAt_point (l : Loop τ κ) (t u : τ) (p : κ) :
    (l.resumeAt t p).point u = if u = t then p else l.point u := by
  by_cases h : u = t <;> simp [resumeAt, point, h]

@[simp] theorem resumeAt_mustCancel (l : Loop τ κ) (t u : τ) (p : κ) :
    ((l.resumeAt t p).task u).mustCancel = if u = t then false else (l.task u).mustCancel := by
  by_cases h : u = t <;> simp [resumeAt, h]

@[simp] theorem resumeAt_cancelling (l : Loop τ κ) (t u : τ) (p : κ) :
    ((l.resumeAt t p).task u).cancelling = (l.task u).cancelling := by
  by_cases h : u = t <;> simp [resumeAt, h]

@[simp] theorem resumeAt_future (l : Loop τ κ) (t : τ) (p : κ) :
    (l.resumeAt t p).future = l.future := rfl

@[simp] theorem resumeAt_nextFuture (l : Loop τ κ) (t : τ) (p : κ) :
    (l.resumeAt t p).nextFuture = l.nextFuture := rfl

@[simp] theorem suspend_point [Coroutine κ] (l : Loop τ κ) (t u : τ) (p : κ) :
    (l.suspend t p).point u = if u = t then p else l.point u := by
  unfold suspend
  split
  · split_ifs with h hu
    · simp [resumeAt, point, hu]
    · simp [resumeAt, point, hu]
    · simp [*]
    · simp [*]
  · simp

@[simp] theorem suspend_cancelling [Coroutine κ] (l : Loop τ κ) (t u : τ) (p : κ) :
    ((l.suspend t p).task u).cancelling = (l.task u).cancelling := by
  unfold suspend
  split
  · split_ifs
    · by_cases hu : u = t <;> simp [resumeAt, hu]
    · simp
  · simp

@[simp] theorem suspend_nextFuture [Coroutine κ] (l : Loop τ κ) (t : τ) (p : κ) :
    (l.suspend t p).nextFuture = l.nextFuture := by
  unfold suspend
  split
  · split_ifs <;> rfl
  · rfl

@[simp] theorem setCancelling_point (l : Loop τ κ) (t u : τ) (n : Nat) :
    (l.setCancelling t n).point u = l.point u := by
  by_cases h : u = t <;> simp [setCancelling, point, h]

@[simp] theorem setCancelling_mustCancel (l : Loop τ κ) (t u : τ) (n : Nat) :
    ((l.setCancelling t n).task u).mustCancel = (l.task u).mustCancel := by
  by_cases h : u = t <;> simp [setCancelling, h]

theorem setCancelling_task_of_ne {l : Loop τ κ} {t u : τ} (h : u ≠ t) (n : Nat) :
    (l.setCancelling t n).task u = l.task u := by
  simp [setCancelling, h]

@[simp] theorem setCancelling_future (l : Loop τ κ) (t : τ) (n : Nat) :
    (l.setCancelling t n).future = l.future := rfl

@[simp] theorem setCancelling_nextFuture (l : Loop τ κ) (t : τ) (n : Nat) :
    (l.setCancelling t n).nextFuture = l.nextFuture := rfl

@[simp] theorem uncancel_point (l : Loop τ κ) (t u : τ) (b : Bool) :
    (l.uncancel t b).point u = l.point u := by
  by_cases h : u = t <;> simp [uncancel, point, h]

@[simp] theorem uncancel_future (l : Loop τ κ) (t : τ) (b : Bool) :
    (l.uncancel t b).future = l.future := rfl

/-- Without a pending request, leaving a point consumes nothing. -/
theorem moveTo_eq_resumeAt {l : Loop τ κ} {t : τ} (h : (l.task t).mustCancel = false) (p : κ) :
    l.moveTo t p = l.resumeAt t p := by
  simp [moveTo, resumeAt, h]

variable [Coroutine κ]

/-- The thing a task is suspended on. -/
def waits (l : Loop τ κ) (t : τ) : Waits := Coroutine.waits (l.point t)

/-- `Task.cancel()`: cancel the awaited future if it is still pending, and
otherwise leave a request for the task's next step. -/
def cancel (l : Loop τ κ) (t : τ) : Loop τ κ :=
  if Coroutine.done (l.point t) then l
  else
    let k := { l.task t with cancelling := (l.task t).cancelling + 1 }
    match l.waits t with
    | .future f =>
        if l.future f = .pending then
          { l with
            task := Function.update l.task t k
            future := Function.update l.future f .cancelled }
        else { l with task := Function.update l.task t { k with mustCancel := true } }
    | _ => { l with task := Function.update l.task t { k with mustCancel := true } }

/-- The wake-up of a suspended task is queued: at once after a bare yield,
else from the moment its future is done. -/
def wakeUpQueued (l : Loop τ κ) (t : τ) : Bool :=
  match l.waits t with
  | .nothing => false
  | .step => true
  | .future f => l.future f ≠ .pending

/-- Whether the next step of a suspended task starts with a `CancelledError`. -/
def throws (l : Loop τ κ) (t : τ) : Bool :=
  (l.task t).mustCancel ||
    match l.waits t with
    | .future f => l.future f = .cancelled
    | _ => false

omit [DecidableEq τ] in
/-- A task woken from a future without a `CancelledError` gets its result. -/
theorem finished_of_woken {l : Loop τ κ} {t : τ} {f : FutureId} (hw : l.waits t = .future f)
    (hwake : l.wakeUpQueued t = true) (hthrow : l.throws t ≠ true) :
    (l.task t).mustCancel = false ∧ l.future f = .finished := by
  simp only [throws, hw, Bool.not_eq_true, Bool.or_eq_false_iff, decide_eq_false_iff_not]
    at hthrow
  simp only [wakeUpQueued, hw, ne_eq, decide_not, Bool.not_eq_eq_eq_not, Bool.not_true,
    decide_eq_false_iff_not] at hwake
  refine ⟨hthrow.1, ?_⟩
  cases hf : l.future f <;> simp_all

/-- No wake-up of a task is queued in the loop. -/
def Quiescent (l : Loop τ κ) : Prop := ∀ t, l.wakeUpQueued t = false

instance [Fintype τ] (l : Loop τ κ) : Decidable l.Quiescent :=
  inferInstanceAs (Decidable (∀ t, l.wakeUpQueued t = false))

@[simp] theorem cancel_point (l : Loop τ κ) (t u : τ) : (l.cancel t).point u = l.point u := by
  unfold cancel point
  by_cases h : u = t
  · subst h
    split_ifs
    · rfl
    · split <;> (try split_ifs) <;> simp
  · split_ifs
    · rfl
    · split <;> (try split_ifs) <;> simp [Function.update_of_ne h]

@[simp] theorem cancel_waits (l : Loop τ κ) (t u : τ) : (l.cancel t).waits u = l.waits u := by
  simp [waits]

@[simp] theorem cancel_nextFuture (l : Loop τ κ) (t : τ) :
    (l.cancel t).nextFuture = l.nextFuture := by
  unfold cancel
  split_ifs
  · rfl
  · split <;> (try split_ifs) <;> rfl

/-- `Task.cancel()` changes no future but the one its task awaits. -/
theorem cancel_future_of_ne {l : Loop τ κ} {t : τ} {g : FutureId} (h : l.waits t ≠ .future g) :
    (l.cancel t).future g = l.future g := by
  unfold cancel
  split_ifs
  · rfl
  · split
    · rename_i f hf
      have hne : g ≠ f := fun he => h (he ▸ hf)
      split_ifs <;> simp [Function.update_of_ne hne]
    · rfl

/-- `Task.cancel()` leaves a done future as it is. -/
theorem cancel_future_of_done {l : Loop τ κ} {t : τ} {g : FutureId} (h : l.future g ≠ .pending) :
    (l.cancel t).future g = l.future g := by
  by_cases hw : l.waits t = .future g
  · unfold cancel
    split_ifs
    · rfl
    · simp [hw, h]
  · exact cancel_future_of_ne hw

/-- A future that `Task.cancel()` changes was pending and is cancelled after it. -/
theorem cancel_future_cases (l : Loop τ κ) (t : τ) (g : FutureId) :
    (l.cancel t).future g = l.future g ∨
      l.waits t = .future g ∧ l.future g = .pending ∧ (l.cancel t).future g = .cancelled := by
  by_cases hw : l.waits t = .future g
  · by_cases hp : l.future g = .pending
    · by_cases hd : Coroutine.done (l.point t) = true
      · left
        simp [cancel, hd]
      · right
        exact ⟨hw, hp, by simp [cancel, hd, hw, hp]⟩
    · exact .inl (cancel_future_of_done hp)
  · exact .inl (cancel_future_of_ne hw)

/-- `Task.cancel()` gives no future a result, and takes none away. -/
theorem cancel_finished_iff {l : Loop τ κ} {t : τ} {g : FutureId} :
    (l.cancel t).future g = .finished ↔ l.future g = .finished := by
  rcases l.cancel_future_cases t g with hsame | ⟨-, hpending, hcancelled⟩
  · rw [hsame]
  · simp [hpending, hcancelled]

theorem pending_of_cancel {l : Loop τ κ} {t : τ} {g : FutureId}
    (h : (l.cancel t).future g = .pending) : l.future g = .pending := by
  rcases l.cancel_future_cases t g with hsame | ⟨-, hpending, -⟩
  · exact hsame ▸ h
  · exact hpending

@[simp] theorem cancel_task_of_ne {l : Loop τ κ} {t u : τ} (h : u ≠ t) :
    (l.cancel t).task u = l.task u := by
  unfold cancel
  split_ifs
  · rfl
  · split <;> (try split_ifs) <;> simp [Function.update_of_ne h]

/-- Every request is counted. -/
theorem cancel_cancelling {l : Loop τ κ} {t : τ} (hd : Coroutine.done (l.point t) = false) :
    ((l.cancel t).task t).cancelling = (l.task t).cancelling + 1 := by
  unfold cancel
  rw [if_neg (by simp [hd])]
  split
  · split_ifs <;> simp
  · simp

/-- On a pending future the request is the future's cancellation, not `_must_cancel`. -/
theorem cancel_mustCancel_of_pending {l : Loop τ κ} {t : τ} {f : FutureId}
    (hw : l.waits t = .future f) (hf : l.future f = .pending) :
    ((l.cancel t).task t).mustCancel = (l.task t).mustCancel := by
  unfold cancel
  split_ifs
  · rfl
  · simp [hw, hf]

/-- A request is not lost: the next step of the task starts with a `CancelledError`. -/
theorem cancel_throws {l : Loop τ κ} {t : τ} (hd : Coroutine.done (l.point t) = false) :
    (l.cancel t).throws t = true := by
  have hpt := l.cancel_waits t t
  unfold throws
  rw [hpt]
  cases hw : l.waits t with
  | future f =>
      by_cases hf : l.future f = .pending <;> simp [cancel, hd, hw, hf]
  | nothing => simp [cancel, hd, hw]
  | step => simp [cancel, hd, hw]

/-- A request made to any task keeps the `CancelledError` that another is about to get. -/
theorem cancel_keeps_throws {l : Loop τ κ} {t : τ} (u : τ) (h : l.throws t = true) :
    (l.cancel u).throws t = true := by
  by_cases hd : Coroutine.done (l.point u) = true
  · simpa [cancel, hd] using h
  · by_cases hut : t = u
    · subst hut
      exact cancel_throws (by simpa using hd)
    · unfold throws at h ⊢
      rw [cancel_waits, cancel_task_of_ne hut]
      cases hw : l.waits t with
      | future f =>
          simp only [hw, Bool.or_eq_true, decide_eq_true_eq] at h ⊢
          apply h.imp_right
          intro hf
          rw [cancel_future_of_done (by simp [hf]), hf]
      | nothing => simpa [hw] using h
      | step => simpa [hw] using h

/-- Distinct tasks await distinct futures, all of them created. -/
structure Owned (l : Loop τ κ) : Prop where
  created : ∀ t f, l.waits t = .future f → f < l.nextFuture
  injective : ∀ t u f, l.waits t = .future f → l.waits u = .future f → t = u

omit [DecidableEq τ] in
theorem Owned.congr {l l' : Loop τ κ} (h : l.Owned) (ha : ∀ t, l'.point t = l.point t)
    (hn : l.nextFuture ≤ l'.nextFuture) : l'.Owned := by
  have hw : ∀ t, l'.waits t = l.waits t := fun t => by simp [waits, ha]
  constructor
  · intro t f hf
    exact Nat.lt_of_lt_of_le (h.created t f (hw t ▸ hf)) hn
  · intro t u f ht hu
    exact h.injective t u f (hw t ▸ ht) (hw u ▸ hu)

/-- A task that comes to stand at a point awaiting no future takes none over. -/
theorem Owned.leave {l l' : Loop τ κ} {t : τ} {p : κ} (h : l.Owned)
    (ha : ∀ u, l'.point u = if u = t then p else l.point u) (hn : l'.nextFuture = l.nextFuture)
    (hp : ∀ f, Coroutine.waits p ≠ .future f) : l'.Owned := by
  have hw : ∀ u f, l'.waits u = .future f → u ≠ t ∧ l.waits u = .future f := by
    intro u f hf
    by_cases hu : u = t
    · simp only [waits, ha, hu, if_true] at hf
      exact absurd hf (hp f)
    · exact ⟨hu, by simpa [waits, ha, hu] using hf⟩
  constructor
  · intro u f hf
    rw [hn]
    exact h.created u f (hw u f hf).2
  · intro u v f hu hv
    exact h.injective u v f (hw u f hu).2 (hw v f hv).2

/-- A task that creates a future and awaits it is the only one to await it. -/
theorem Owned.await_new {l l' : Loop τ κ} {t : τ} {p : κ} (h : l.Owned)
    (ha : ∀ u, l'.point u = if u = t then p else l.point u) (hn : l'.nextFuture = l.nextFuture + 1)
    (hp : Coroutine.waits p = .future l.nextFuture) : l'.Owned := by
  have hw : ∀ u f, l'.waits u = .future f →
      u = t ∧ f = l.nextFuture ∨ u ≠ t ∧ l.waits u = .future f := by
    intro u f hf
    by_cases hu : u = t
    · simp only [waits, ha, hu, if_true, hp, Waits.future.injEq] at hf
      exact .inl ⟨hu, hf.symm⟩
    · exact .inr ⟨hu, by simpa [waits, ha, hu] using hf⟩
  constructor
  · intro u f hf
    rw [hn]
    rcases hw u f hf with ⟨-, rfl⟩ | ⟨-, hf⟩
    · exact Nat.lt_succ_self _
    · exact Nat.lt_succ_of_lt (h.created u f hf)
  · intro u v f hu hv
    rcases hw u f hu with ⟨rfl, hf⟩ | ⟨-, hu⟩ <;> rcases hw v f hv with ⟨rfl, hf'⟩ | ⟨-, hv⟩
    · rfl
    · exact absurd (h.created v f hv) (by simp [hf])
    · exact absurd (h.created u f hu) (by simp [hf'])
    · exact h.injective u v f hu hv

end Tasks

end Loop

end Anyio.Asyncio
