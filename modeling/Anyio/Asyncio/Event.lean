import Anyio.Asyncio.Loop

/-!
# `asyncio.Event`

An event with its flag and the futures of the tasks that wait for it. Setting
the flag gives a result to the futures that are not done; clearing it, and
waiting while it is set, touches no future.
-/

namespace Anyio.Asyncio

/-- An `asyncio.Event`: its `_value` and `_waiters`. -/
structure Event where
  value : Bool
  waiters : List FutureId
  deriving DecidableEq, Repr

namespace Event

variable {τ κ : Type*}

/-- A new event. -/
def new : Event := ⟨false, []⟩

/-- `Event.clear()`. -/
def clear (e : Event) : Event := { e with value := false }

/-- The start of `Event.wait()` on an event that is not set, with its new future. -/
def join (e : Event) (waiter : FutureId) : Event := { e with waiters := e.waiters ++ [waiter] }

/-- The `finally` block of `Event.wait()`. -/
def leave (e : Event) (waiter : FutureId) : Event := { e with waiters := e.waiters.erase waiter }

/-- The flag is up: `Event.set()` on the event itself. -/
def raised (e : Event) : Event := { e with value := true }

/-- What `Event.set()` does to the futures. -/
def wakeWaiters (e : Event) (l : Loop τ κ) : Loop τ κ :=
  if e.value then l else e.waiters.foldl Loop.setEvent l

@[simp] theorem clear_value (e : Event) : e.clear.value = false := rfl

@[simp] theorem clear_waiters (e : Event) : e.clear.waiters = e.waiters := rfl

@[simp] theorem join_value (e : Event) (f : FutureId) : (e.join f).value = e.value := rfl

@[simp] theorem join_waiters (e : Event) (f : FutureId) :
    (e.join f).waiters = e.waiters ++ [f] := rfl

@[simp] theorem leave_value (e : Event) (f : FutureId) : (e.leave f).value = e.value := rfl

@[simp] theorem leave_waiters (e : Event) (f : FutureId) :
    (e.leave f).waiters = e.waiters.erase f := rfl

@[simp] theorem raised_value (e : Event) : e.raised.value = true := rfl

@[simp] theorem raised_waiters (e : Event) : e.raised.waiters = e.waiters := rfl

theorem foldl_setEvent_task (fs : List FutureId) (l : Loop τ κ) :
    (fs.foldl Loop.setEvent l).task = l.task := by
  induction fs generalizing l with
  | nil => rfl
  | cons f rest ih => rw [List.foldl_cons, ih, Loop.setEvent_task]

theorem foldl_setEvent_nextFuture (fs : List FutureId) (l : Loop τ κ) :
    (fs.foldl Loop.setEvent l).nextFuture = l.nextFuture := by
  induction fs generalizing l with
  | nil => rfl
  | cons f rest ih => rw [List.foldl_cons, ih, Loop.setEvent_nextFuture]

theorem foldl_setEvent_future (fs : List FutureId) (l : Loop τ κ) (g : FutureId) :
    (fs.foldl Loop.setEvent l).future g =
      if g ∈ fs ∧ l.future g = .pending then .finished else l.future g := by
  induction fs generalizing l with
  | nil => simp
  | cons f rest ih =>
      rw [List.foldl_cons, ih, Loop.setEvent_future]
      by_cases hgf : g = f
      · subst hgf
        by_cases hp : l.future g = .pending <;> simp [hp]
      · simp [hgf]

@[simp] theorem wakeWaiters_task (e : Event) (l : Loop τ κ) :
    (e.wakeWaiters l).task = l.task := by
  unfold wakeWaiters
  split_ifs
  · rfl
  · exact foldl_setEvent_task _ _

@[simp] theorem wakeWaiters_point (e : Event) (l : Loop τ κ) (t : τ) :
    (e.wakeWaiters l).point t = l.point t := by
  simp [Loop.point]

@[simp] theorem wakeWaiters_nextFuture (e : Event) (l : Loop τ κ) :
    (e.wakeWaiters l).nextFuture = l.nextFuture := by
  unfold wakeWaiters
  split_ifs
  · rfl
  · exact foldl_setEvent_nextFuture _ _

/-- Every pending waiter of an event that was not set gets its result, and no other future is
changed. -/
theorem wakeWaiters_future (e : Event) (l : Loop τ κ) (g : FutureId) :
    (e.wakeWaiters l).future g =
      if e.value = false ∧ g ∈ e.waiters ∧ l.future g = .pending then .finished
      else l.future g := by
  unfold wakeWaiters
  split_ifs with hv h h
  · simp [hv] at h
  · rfl
  · rw [foldl_setEvent_future, if_pos h.2]
  · rw [foldl_setEvent_future, if_neg]
    exact fun hg => h ⟨by simpa using hv, hg⟩

/-- A waiter that is pending is registered with the event, and the event is not set. -/
def Listens (e : Event) (l : Loop τ κ) (f : FutureId) : Prop :=
  l.future f = .pending → f ∈ e.waiters ∧ e.value = false

namespace Listens

variable {e : Event} {l l' : Loop τ κ} {f g : FutureId}

theorem congr (h : e.Listens l f) (hf : l'.future f = .pending → l.future f = .pending) :
    e.Listens l' f :=
  fun hpending => h (hf hpending)

theorem clear (h : e.Listens l f) : e.clear.Listens l f :=
  fun hpending => ⟨(h hpending).1, rfl⟩

theorem join (h : e.Listens l f) (g : FutureId) : (e.join g).Listens l f :=
  fun hpending => ⟨List.mem_append_left _ (h hpending).1, (h hpending).2⟩

theorem join_self (hvalue : e.value = false) : (e.join f).Listens l f :=
  fun _ => ⟨List.mem_append_right _ List.mem_cons_self, hvalue⟩

theorem leave (h : e.Listens l f) (hne : f ≠ g) : (e.leave g).Listens l f :=
  fun hpending => ⟨(List.mem_erase_of_ne hne).mpr (h hpending).1, (h hpending).2⟩

/-- Setting the event leaves no waiter pending. -/
theorem not_pending_of_set (h : e.Listens l f) : (e.wakeWaiters l).future f ≠ .pending := by
  intro hpending
  rw [wakeWaiters_future] at hpending
  split_ifs at hpending with hwoken
  obtain ⟨hmem, hvalue⟩ := h hpending
  exact hwoken ⟨hvalue, hmem, hpending⟩

end Listens

/-- A future that is not among the waiters keeps its state when the event is set. -/
theorem wakeWaiters_future_of_not_mem {e : Event} {f : FutureId} (h : f ∉ e.waiters)
    (l : Loop τ κ) : (e.wakeWaiters l).future f = l.future f := by
  rw [wakeWaiters_future, if_neg fun hwoken => h hwoken.2.1]

end Event

end Anyio.Asyncio
