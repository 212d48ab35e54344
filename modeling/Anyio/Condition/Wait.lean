import Anyio.Condition.Invariant

/-!
# Waits and the lock

A `wait()` that was called with the lock ends with it, and leaves no event
behind. One that was called without the lock puts its event into the deque
before its `release()` raises, and the event stays there.
-/

namespace Anyio.Condition

open Asyncio Library

variable {τ : Type*} [DecidableEq τ]

/-- The call of a task is a `wait()`. -/
def Point.inWait : Point → Bool
  | .waitCheckpoint => true
  | .waiting _ => true
  | .reacquiring _ _ => true
  | _ => false

/-- The task that makes a step of the condition. -/
def Action.task : Action τ → τ
  | .acquire t _ => t
  | .acquireNowait t => t
  | .release t => t
  | .wait t => t
  | .notify t _ => t
  | .notifyAll t => t
  | .interrupt t => t
  | .resume t => t

/-- Whether each task owned the lock when it last called `wait()`. -/
abbrev Callers (τ : Type*) := τ → Bool

def Callers.none : Callers τ := fun _ => false

def recordCall (h : Callers τ) (s : State τ) : Action τ → Outcome Point Unit → Callers τ
  | .wait t, .suspended _ => Function.update h t (decide (s.lock.ownerTask = some t))
  | _, _ => h

/-- The machine that keeps who called `wait()` with the lock. -/
abbrev callRecorded (τ : Type*) [DecidableEq τ] :
    Machine (State τ × Callers τ) (Action τ) (Outcome Point Unit) :=
  (machine τ).withHistory recordCall

variable {s s' : State τ} {h : Callers τ} {t u : τ} {a : Action τ} {o : Outcome Point Unit}

section Bystanders

theorem LockCall.actionTask {b : Lock.Action τ} {m : State τ} {p : Point}
    {done : Outcome Point Unit} (call : LockCall s t a b m p done) : a.task = t := by
  cases call <;> rfl

/-- A step leaves the other tasks where they are. -/
theorem Change.point (change : Change s a s' o) (hu : u ≠ a.task) :
    s'.loop.point u = s.loop.point u := by
  cases change with
  | refused => rfl
  | released => rfl
  | @started t =>
      have hut : u ≠ t := hu
      simp [hut]
  | notified => simp [popAndSet_eq]
  | notifiedAll => simp
  | interruptedInLock => rfl
  | interrupted => simp
  | @refusedWait t =>
      have hut : u ≠ t := hu
      simp [wake, hut]
  | @waiting t =>
      have hut : u ≠ t := hu
      simp [wake, hut]
  | @left t =>
      have hut : u ≠ t := hu
      simp [register, wake, hut]
  | @locked a b t m p done r call =>
      rw [call.actionTask] at hu
      have hpoint : m.loop.point u = s.loop.point u := congrArg Task.point (call.entered.task u hu)
      obtain ⟨lock, o⟩ := r
      cases o <;> simp [afterLock, wake, hu, hpoint]

/-- A step of one task makes no other one the owner that is outside of the lock, and does not take
the lock from it. -/
theorem LockStep.owner (lw : Lockwise s) {r : Lock.State τ × Outcome Lock.Point Unit}
    (call : LockStep s t r) (hu : u ≠ t) (hout : (s.loop.point u).inLock = false) :
    r.1.ownerTask = some u ↔ s.lock.ownerTask = some u := by
  obtain ⟨b, rfl, hstep⟩ := call
  constructor
  · intro ho
    exact ((Lock.Bystander.step lw.lock hstep hu).owner ho).resolve_right
      (not_not.mpr (lw.outside hout))
  · exact Lock.owner_kept hstep hu

theorem Change.owner (lw : Lockwise s) (change : Change s a s' o) (hu : u ≠ a.task)
    (hout : (s.loop.point u).inLock = false) :
    s'.lock.ownerTask = some u ↔ s.lock.ownerTask = some u := by
  cases change with
  | refused => rfl
  | released hfrom call => exact call.owner lw hu hout
  | started => rfl
  | notified => simp [popAndSet_eq]
  | notifiedAll => simp
  | interruptedInLock hp call => exact call.owner lw hu hout
  | interrupted => rfl
  | refusedWait => rfl
  | waiting hp hthrow call => exact call.owner lw hu hout
  | left => rfl
  | @locked a b t m p done r call hstep =>
      rw [call.actionTask] at hu
      have hstep' : Lock.step s.lock b = some r := call.entered.lock ▸ hstep
      have hlock : (afterLock m t p done r).1.lock = r.1 := by
        obtain ⟨lock, o⟩ := r
        cases o <;> rfl
      rw [hlock]
      exact LockStep.owner lw ⟨b, call.task, hstep'⟩ hu hout

end Bystanders

/-- Between its call and its `release()` a `wait()` does not change who owns the lock. -/
def Called (s : State τ) (h : Callers τ) : Prop :=
  ∀ t, s.loop.point t = .waitCheckpoint → (h t = true ↔ s.lock.ownerTask = some t)

theorem recordCall_of_ne (h : Callers τ) (s : State τ) (o : Outcome Point Unit)
    (hu : a ≠ .wait u) : recordCall h s a o u = h u := by
  unfold recordCall
  split
  · rename_i t _
    have hut : u ≠ t := fun hut => hu (hut ▸ rfl)
    exact Function.update_of_ne hut _ _
  · rfl

theorem recordCall_raised (h : Callers τ) (s : State τ) (a : Action τ) (e : Error) :
    recordCall h s a (.raised e) = h := by
  cases a <;> rfl

theorem Called.step (called : Called s h) (lw : Lockwise s) (change : Change s a s' o) :
    Called s' (recordCall h s a o) := by
  intro u hp
  by_cases hu : u = a.task
  · -- its call takes a task to the checkpoint, and a request leaves it there
    cases change with
    | refused =>
        rw [recordCall_raised]
        exact called u hp
    | @started t =>
        obtain rfl : u = t := hu
        simp [recordCall]
    | notified =>
        rw [recordCall_of_ne h s _ (by simp)]
        simpa [popAndSet_eq] using called u (by simpa [popAndSet_eq] using hp)
    | notifiedAll =>
        rw [recordCall_of_ne h s _ (by simp)]
        simpa using called u (by simpa using hp)
    | interrupted => exact called u (by simpa using hp)
    | released hfrom =>
        subst hu
        exact absurd (hfrom.symm.trans hp) (by simp)
    | interruptedInLock hfrom =>
        subst hu
        exact absurd (hfrom.symm.trans hp) (by simp)
    | refusedWait =>
        subst hu
        simp [wake] at hp
    | waiting =>
        subst hu
        simp at hp
    | left =>
        subst hu
        simp [register, wake] at hp
    | @locked a b t m p done r call =>
        rw [hu, call.actionTask] at hp
        have hin := call.entered.inLock
        obtain ⟨lock, o⟩ := r
        cases o with
        | returned => simp [afterLock, wake] at hp
        | raised => simp [afterLock, wake] at hp
        | suspended =>
            have heq : p = .waitCheckpoint := by simpa [afterLock] using hp
            rw [heq] at hin
            cases hin
  · have hpoint := change.point hu
    have hbefore : s.loop.point u = .waitCheckpoint := hpoint ▸ hp
    have hne : a ≠ .wait u := fun ha => hu (by rw [ha]; rfl)
    rw [recordCall_of_ne h s o hne, change.owner lw hu (by simp [hbefore, Point.inLock])]
    exact called u hbefore

section Events

omit [DecidableEq τ] in
/-- The events are set, and no other one is changed. -/
theorem setEvents_isSet (s : State τ) (events : List (τ × FutureId)) (e : FutureId) :
    (setEvents s events).isSet e = true ↔ e ∈ events.map Prod.snd ∨ s.isSet e = true := by
  induction events generalizing s with
  | nil => simp [setEvents]
  | cons first rest ih =>
      apply (ih (setEvent s first.2)).trans
      by_cases he : e = first.2
      · simp [setEvent, he]
      · simp [setEvent, he]

/-- What `wait()` knows of its event when it looks whether it is set. An event that is set has left
the deque, and one that is not set stands there with the task that waits for it. -/
structure Posted (s : State τ) : Prop where
  taken : ∀ e, s.isSet e = true → e ∉ s.waiters.map Prod.snd
  finished : ∀ t e, s.loop.point t = .waiting e → s.loop.future e = .finished → s.isSet e = true
  own : ∀ t e, s.loop.point t = .waiting e → ∀ u, (u, e) ∈ s.waiters → u = t
  gone : ∀ t e error, s.loop.point t = .reacquiring e error → e ∉ s.waiters.map Prod.snd

omit [DecidableEq τ] in
/-- Steps that keep the tasks where they are. -/
theorem Posted.congr (posted : Posted s) (hp : ∀ u, s'.loop.point u = s.loop.point u)
    (hw : s'.waiters.Sublist s.waiters)
    (htaken : ∀ e, s'.isSet e = true → e ∉ s'.waiters.map Prod.snd)
    (hfinished : ∀ t e, s.loop.point t = .waiting e → s'.loop.future e = .finished →
      s'.isSet e = true) : Posted s' where
  taken := htaken
  finished t e hu hf := hfinished t e (hp t ▸ hu) hf
  own t e hu u hmem := posted.own t e (hp t ▸ hu) u (hw.subset hmem)
  gone t e error hu hmem := posted.gone t e error (hp t ▸ hu) ((hw.map Prod.snd).subset hmem)

/-- Task `t` moves on to a point that has nothing to do with an event in the deque. -/
theorem Posted.move (posted : Posted s) (hother : ∀ u, u ≠ t → s'.loop.point u = s.loop.point u)
    (hw : s'.waiters.Sublist s.waiters) (hset : s'.isSet = s.isSet)
    (hfuture : s'.loop.future = s.loop.future) (hwait : ∀ e, s'.loop.point t ≠ .waiting e)
    (hgone : ∀ e error, s'.loop.point t = .reacquiring e error →
      e ∉ s'.waiters.map Prod.snd) : Posted s' := by
  constructor
  case taken =>
    intro e he hmem
    exact posted.taken e (hset ▸ he) ((hw.map Prod.snd).subset hmem)
  case finished =>
    intro u e hu hf
    by_cases hut : u = t
    · exact absurd (hut ▸ hu) (hwait e)
    · rw [hset]
      exact posted.finished u e (hother u hut ▸ hu) (hfuture ▸ hf)
  case own =>
    intro u e hu v hmem
    by_cases hut : u = t
    · exact absurd (hut ▸ hu) (hwait e)
    · exact posted.own u e (hother u hut ▸ hu) v (hw.subset hmem)
  case gone =>
    intro u e error hu hmem
    by_cases hut : u = t
    · exact hgone e error (hut ▸ hu) hmem
    · exact posted.gone u e error (hother u hut ▸ hu) ((hw.map Prod.snd).subset hmem)

omit [DecidableEq τ] in
/-- A new event goes last in the deque, and task `t` waits for it or leaves it behind. -/
theorem Posted.register (posted : Posted s) (queued : Queued s)
    (hother : ∀ u, u ≠ t → s'.loop.point u = s.loop.point u)
    (hw : s'.waiters = s.waiters ++ [(t, s.loop.nextFuture)])
    (hset : s'.isSet = Function.update s.isSet s.loop.nextFuture false)
    (hfuture : s'.loop.future = Function.update s.loop.future s.loop.nextFuture .pending)
    (hp : s'.loop.point t = .outside ∨ s'.loop.point t = .waiting s.loop.nextFuture) :
    Posted s' := by
  have hold : ∀ e, e ∈ s.waiters.map Prod.snd → e < s.loop.nextFuture := by
    intro e he
    obtain ⟨x, hx, rfl⟩ := List.mem_map.mp he
    exact queued.fresh x hx
  constructor
  case taken =>
    intro e he hmem
    rw [hset] at he
    rw [hw, List.map_append, List.mem_append] at hmem
    by_cases hnew : e = s.loop.nextFuture
    · simp [hnew] at he
    · rw [Function.update_of_ne hnew] at he
      exact hmem.elim (posted.taken e he) fun hlast => hnew (by simpa using hlast)
  case finished =>
    intro u e hu hf
    by_cases hut : u = t
    · obtain hp | hp := hp
      · exact absurd ((hut ▸ hu).symm.trans hp) (by simp)
      · obtain rfl : e = s.loop.nextFuture := Point.waiting.inj ((hut ▸ hu).symm.trans hp)
        simp [hfuture] at hf
    · have hbefore := hother u hut ▸ hu
      have hne : e ≠ s.loop.nextFuture :=
        (queued.created u e (by rw [hbefore]; rfl)).ne
      rw [hfuture, Function.update_of_ne hne] at hf
      rw [hset, Function.update_of_ne hne]
      exact posted.finished u e hbefore hf
  case own =>
    intro u e hu v hmem
    rw [hw, List.mem_append, List.mem_singleton, Prod.mk.injEq] at hmem
    by_cases hut : u = t
    · obtain hp | hp := hp
      · exact absurd ((hut ▸ hu).symm.trans hp) (by simp)
      · obtain rfl : e = s.loop.nextFuture := Point.waiting.inj ((hut ▸ hu).symm.trans hp)
        obtain hmem | hmem := hmem
        · exact absurd (queued.fresh _ hmem) (lt_irrefl _)
        · exact hmem.1.trans hut.symm
    · have hbefore := hother u hut ▸ hu
      have hlt := queued.created u e (by rw [hbefore]; rfl)
      obtain hmem | hmem := hmem
      · exact posted.own u e hbefore v hmem
      · exact absurd hmem.2 hlt.ne
  case gone =>
    intro u e error hu hmem
    rw [hw, List.map_append, List.mem_append] at hmem
    by_cases hut : u = t
    · obtain hp | hp := hp
      · exact absurd ((hut ▸ hu).symm.trans hp) (by simp)
      · exact absurd ((hut ▸ hu).symm.trans hp) (by simp)
    · have hbefore := hother u hut ▸ hu
      have hlt := queued.created u e (by rw [hbefore]; rfl)
      exact hmem.elim (posted.gone u e error hbefore) fun hlast =>
        absurd (by simpa using hlast) hlt.ne

/-- The `except` block of `wait()` leaves the event out of the deque. -/
theorem Posted.forget (posted : Posted s) (queued : Queued s) {e : FutureId}
    (hp : s.loop.point t = .waiting e) :
    e ∉ (forget (wake s t) t e).1.waiters.map Prod.snd := by
  have hnodup : s.waiters.Nodup := queued.ordered.imp fun hlt heq => by simp [heq] at hlt
  unfold Condition.forget
  split_ifs with hset hmem
  · exact posted.taken e hset
  · intro hstill
    obtain ⟨⟨u, f⟩, hx, rfl⟩ := List.mem_map.mp hstill
    have hkept := (hnodup.mem_erase_iff).mp hx
    exact hkept.1 (by rw [posted.own t _ hp u hkept.2])
  · intro hstill
    obtain ⟨⟨u, f⟩, hx, rfl⟩ := List.mem_map.mp hstill
    exact hmem (posted.own t _ hp u hx ▸ hx)

theorem forget_isSet (s : State τ) (t : τ) (e : FutureId) : (forget s t e).1.isSet = s.isSet := by
  unfold forget
  split_ifs <;> rfl

theorem LockCall.isSet {b : Lock.Action τ} {m : State τ} {p : Point} {done : Outcome Point Unit}
    (call : LockCall s t a b m p done) : m.isSet = s.isSet := by
  cases call with
  | interrupted => rw [forget_isSet]; rfl
  | _ => rfl

/-- A task that goes on to acquire the lock again has its event out of the deque. -/
theorem LockCall.gone {b : Lock.Action τ} {m : State τ} {p : Point} {done : Outcome Point Unit}
    (call : LockCall s t a b m p done) (posted : Posted s) (queued : Queued s)
    (hwake : ∀ u, a = .resume u → wakeUpQueued s u = true) {e : FutureId} {error : Option Error}
    (hp : p = .reacquiring e error) : e ∉ m.waiters.map Prod.snd := by
  cases call with
  | acquire => cases hp
  | acquireNowait => cases hp
  | acquiring => cases hp
  | reacquiring hpt =>
      cases hp
      exact posted.gone t e error hpt
  | woken hpt hthrow =>
      cases hp
      have hw : s.loop.waits t = .future e := by simp [Loop.waits, hpt, Coroutine.waits]
      have hqueued : s.loop.wakeUpQueued t = true := by
        simpa [wakeUpQueued, hpt, Point.inLock] using hwake t rfl
      have hfin := (Loop.finished_of_woken hw hqueued (by simp [hthrow])).2
      exact posted.taken e (posted.finished t e hpt hfin)
  | interrupted hpt hthrow =>
      cases hp
      exact posted.forget queued hpt

omit [DecidableEq τ] in
/-- Events are set, and leave the deque with it. -/
theorem Posted.setEvents (posted : Posted s) (queued : Queued s) {events rest : List (τ × FutureId)}
    (hsplit : events ++ rest = s.waiters) :
    Posted { setEvents s events with waiters := rest } := by
  have hrest : rest.Sublist s.waiters := hsplit ▸ List.sublist_append_right _ _
  have hordered := queued.ordered
  rw [← hsplit, List.pairwise_append] at hordered
  refine posted.congr (by simp) hrest (fun e he hmem => ?_) fun t e hp hf => ?_
  · rcases (setEvents_isSet s events e).mp he with hin | hset
    · obtain ⟨x, hx, rfl⟩ := List.mem_map.mp hin
      obtain ⟨y, hy, heq⟩ := List.mem_map.mp hmem
      exact absurd heq.symm (hordered.2.2 x hx y hy).ne
    · exact posted.taken e hset ((hrest.map Prod.snd).subset hmem)
  · rw [show ({ Condition.setEvents s events with waiters := rest } : State τ).loop.future e =
      (Condition.setEvents s events).loop.future e from rfl, setEvents_future] at hf
    apply (setEvents_isSet s events e).mpr
    split_ifs at hf with hin
    · exact .inl hin.1
    · exact .inr (posted.finished t e hp hf)

theorem Posted.step (posted : Posted s) (queued : Queued s) (change : Change s a s' o)
    (hwake : ∀ u, a = .resume u → wakeUpQueued s u = true) : Posted s' := by
  cases change with
  | refused => exact posted
  | released => exact ⟨posted.taken, posted.finished, posted.own, posted.gone⟩
  | @started t =>
      exact posted.move (t := t) (fun u hu => by simp [hu]) (List.Sublist.refl _) rfl rfl
        (by simp) (by simp)
  | @notified t n =>
      rw [popAndSet_eq]
      exact posted.setEvents queued (List.take_append_drop _ _)
  | notifiedAll => exact posted.setEvents queued (List.append_nil _)
  | interruptedInLock => exact ⟨posted.taken, posted.finished, posted.own, posted.gone⟩
  | @interrupted t =>
      refine posted.congr (by simp) (List.Sublist.refl _) posted.taken fun u e hp hf => ?_
      rcases Loop.cancel_future_cases s.loop t e with hsame | hcancelled
      · exact posted.finished u e hp (hsame ▸ hf)
      · exact absurd (hcancelled.2.2.symm.trans hf) (by simp)
  | @refusedWait t =>
      exact posted.move (t := t) (fun u hu => by simp [wake, hu]) (List.Sublist.refl _) rfl rfl
        (by simp [wake]) (by simp [wake])
  | @waiting t lock =>
      exact posted.register (t := t) queued (fun u hu => by simp [wake, hu]) rfl rfl rfl
        (.inr (by simp))
  | @left t e =>
      exact posted.register (t := t) queued (fun u hu => by simp [Condition.register, wake, hu])
        rfl rfl rfl (.inl (by simp [Condition.register, wake]))
  | @locked a b t m p done r call =>
      have entered := call.entered
      have hpoint : ∀ u, u ≠ t → m.loop.point u = s.loop.point u := fun u hu =>
        congrArg Task.point (entered.task u hu)
      have hin := entered.inLock
      obtain ⟨lock, o⟩ := r
      cases o with
      | returned v =>
          exact posted.move (t := t) (fun u hu => by simp [afterLock, wake, hu, hpoint u hu])
            entered.waiters call.isSet entered.future (by simp [afterLock, wake])
            (by simp [afterLock, wake])
      | raised e =>
          exact posted.move (t := t) (fun u hu => by simp [afterLock, wake, hu, hpoint u hu])
            entered.waiters call.isSet entered.future (by simp [afterLock, wake])
            (by simp [afterLock, wake])
      | suspended q =>
          refine posted.move (t := t) (fun u hu => by simp [afterLock, hu, hpoint u hu])
            entered.waiters call.isSet entered.future (fun e he => ?_) fun e error he => ?_
          · have heq : p = .waiting e := by simpa [afterLock] using he
            rw [heq] at hin
            cases hin
          · exact call.gone posted queued hwake (by simpa [afterLock] using he)

end Events

section Runs

omit [DecidableEq τ] in
theorem Posted.initial (taskId : τ → TaskId) (fastAcquire : Bool) :
    Posted (initial taskId fastAcquire) where
  taken _ h := by cases h
  finished _ _ h := by cases h
  own _ _ h := by cases h
  gone _ _ _ h := by cases h

theorem wakeUpQueued_of_step (hs : step s a = some (s', o)) :
    ∀ u, a = .resume u → wakeUpQueued s u = true := by
  rintro u rfl
  exact (Option.ite_none_right_eq_some.mp hs).1

theorem of_callRun {taskId : τ → TaskId} {fastAcquire : Bool}
    (run : (callRecorded τ).Reachable Machine.anyStep (initial taskId fastAcquire, .none) (s, h)) :
    Lockwise s ∧ Queued s ∧ Posted s ∧ Called s h := by
  refine run.invariant_history
    (I := fun s h => Lockwise s ∧ Queued s ∧ Posted s ∧ Called s h)
    ⟨.initial taskId fastAcquire, .initial taskId fastAcquire, .initial taskId fastAcquire, ?_⟩ ?_
  · intro t hp
    cases hp
  · rintro s h a s' o ⟨lw, queued, posted, called⟩ - hs
    have change := step_change lw hs
    exact ⟨lw.step change, queued.step change,
      posted.step queued change (wakeUpQueued_of_step hs), called.step lw change⟩

theorem waitAfterCheckpoint_eq (s : State τ) (t : τ) : waitAfterCheckpoint s t =
    match release (register s t) t with
    | .ok s' => ({ s' with loop := s'.loop.moveTo t (.waiting s.loop.nextFuture) },
        .suspended (.waiting s.loop.nextFuture))
    | .error e => (register s t, .raised e) :=
  rfl

/-- `wait()` goes on from its checkpoint with the lock: it gives the lock back and waits. -/
theorem resume_of_owner (lw : Lockwise s) (hp : s.loop.point t = .waitCheckpoint)
    (hthrow : s.loop.throws t = false) (ho : s.lock.ownerTask = some t) :
    (resume s t).2 = .suspended (.waiting s.loop.nextFuture) := by
  obtain ⟨lock, hlock⟩ := lw.lock.release_ok ho (lw.outside (by simp [hp, Point.inLock]))
  have hrelease : release (register (wake s t) t) t =
      .ok { register (wake s t) t with lock := lock } := release_eq_ok.mpr ⟨lock, hlock, rfl⟩
  unfold resume
  simp only [hp, hthrow, Bool.false_eq_true, if_false]
  rw [waitAfterCheckpoint_eq, hrelease]
  rfl

/-- `wait()` goes on from its checkpoint without the lock: its event is in the deque when
`release()` raises. -/
theorem resume_of_stranger (hp : s.loop.point t = .waitCheckpoint)
    (hthrow : s.loop.throws t = false) (ho : s.lock.ownerTask ≠ some t) :
    resume s t = (register (wake s t) t, .raised Lock.notHolding) := by
  have hrelease : release (register (wake s t) t) t = .error Lock.notHolding := by
    simp [release, Lock.release, register, wake, ho, Except.map]
  unfold resume
  simp only [hp, hthrow, Bool.false_eq_true, if_false]
  rw [waitAfterCheckpoint_eq, hrelease]

/-- A task leaves the checkpoint of `wait()` by its wake-up only. -/
theorem Change.leaves_checkpoint (change : Change s a s' o)
    (hp : s.loop.point t = .waitCheckpoint) (hend : s'.loop.point t ≠ .waitCheckpoint) :
    a = .resume t := by
  have hself : t = a.task := by
    by_contra hne
    exact hend ((change.point hne).trans hp)
  cases change with
  | refused => exact absurd hp hend
  | released => exact absurd hp hend
  | @started u hfrom =>
      obtain rfl : t = u := hself
      exact absurd (hfrom.symm.trans hp) (by simp)
  | notified => exact absurd (by simpa [popAndSet_eq] using hp) hend
  | notifiedAll => exact absurd (by simpa using hp) hend
  | interruptedInLock => exact absurd hp hend
  | interrupted => exact absurd (by simpa using hp) hend
  | refusedWait => exact congrArg Action.resume hself.symm
  | waiting => exact congrArg Action.resume hself.symm
  | left => exact congrArg Action.resume hself.symm
  | @locked a b u m p done r call =>
      obtain rfl : t = u := hself.trans call.actionTask
      cases call with
      | acquire hpt => simp [hp] at hpt
      | acquireNowait hpt => simp [hp] at hpt
      | acquiring => rfl
      | reacquiring => rfl
      | woken => rfl
      | interrupted => rfl

/-- The end of a wait that was called with the lock. -/
theorem wait_ends (lw : Lockwise s) (queued : Queued s) (posted : Posted s) (called : Called s h)
    (hs : step s a = some (s', o)) (hp : (s.loop.point t).inWait = true)
    (hend : s'.loop.point t = .outside) (ht : h t = true) :
    s'.lock.ownerTask = some t ∧
      ∀ e, (s.loop.point t).event = some e → e ∉ s'.waiters.map Prod.snd := by
  have change := step_change lw hs
  have hin : s.loop.point t ≠ .outside := fun hout => by simp [hout, Point.inWait] at hp
  have hself : t = a.task := by
    by_contra hne
    exact hin ((change.point hne).symm.trans hend)
  cases change with
  | refused => exact absurd hend hin
  | released hfrom => exact absurd (hself ▸ hfrom) hin
  | started hfrom => exact absurd (hself ▸ hfrom) hin
  | notified => exact absurd (by simpa [popAndSet_eq] using hend) hin
  | notifiedAll => exact absurd (by simpa using hend) hin
  | interruptedInLock => exact absurd hend hin
  | interrupted => exact absurd (by simpa using hend) hin
  | @refusedWait u hpu =>
      obtain rfl : t = u := hself
      exact ⟨(called t hpu).mp ht, by simp [hpu, Point.event]⟩
  | @waiting u =>
      obtain rfl : t = u := hself
      simp at hend
  | @left u e hpu hthrow =>
      obtain rfl : t = u := hself
      have hresume := resume_of_owner lw hpu hthrow ((called t hpu).mp ht)
      have houtcome := (Option.ite_none_right_eq_some.mp hs).2
      rw [Option.some.inj houtcome] at hresume
      cases hresume
  | @locked a b u m p done r call hstep =>
      obtain rfl : t = u := hself.trans call.actionTask
      have hstep' : Lock.step s.lock b = some r := call.entered.lock ▸ hstep
      obtain ⟨e, error, hpe, hevent⟩ : ∃ e error, p = .reacquiring e error ∧
          (s.loop.point t).event = some e := by
        cases call with
        | acquire hfrom => exact absurd hfrom hin
        | acquireNowait hfrom => exact absurd hfrom hin
        | acquiring hpt => simp [hpt, Point.inWait] at hp
        | reacquiring hpt => exact ⟨_, _, rfl, by rw [hpt]; rfl⟩
        | woken hpt => exact ⟨_, _, rfl, by rw [hpt]; rfl⟩
        | interrupted hpt => exact ⟨_, _, rfl, by rw [hpt]; rfl⟩
      obtain ⟨lock, lo⟩ := r
      cases lo with
      | returned v =>
          refine ⟨?_, fun f hf => ?_⟩
          · have howner := Lock.owner_of_returned lw.lock hstep' (by cases call <;> simp at hpe ⊢)
            rwa [call.task] at howner
          · obtain rfl : e = f := Option.some.inj (hevent.symm.trans hf)
            exact call.gone posted queued (wakeUpQueued_of_step hs) hpe
      | raised e' => exact absurd rfl ((call.clean lw hstep hpe).1 e')
      | suspended q =>
          have heq : p = .outside := by simpa [afterLock] using hend
          rw [hpe] at heq
          cases heq

/-- Once a task has the lock again at the end of its `wait()`, it keeps it to the end. -/
theorem reacquired_kept (lw : Lockwise s) (hs : step s a = some (s', o)) {e : FutureId}
    {error : Option Error} (hp : s.loop.point t = .reacquiring e error)
    (ho : s.lock.ownerTask = some t) : s'.lock.ownerTask = some t := by
  have change := step_change lw hs
  have hkept : ∀ {r : Lock.State τ × Outcome Lock.Point Unit} {u : τ}, LockStep s u r → t ≠ u →
      r.1.ownerTask = some t := by
    rintro r u ⟨b, rfl, hstep⟩ hu
    exact Lock.owner_kept hstep hu ho
  cases change with
  | refused => exact ho
  | released hfrom call =>
      exact hkept call fun hut => by simp [← hut, hp] at hfrom
  | started => exact ho
  | notified => simpa [popAndSet_eq] using ho
  | notifiedAll => simpa using ho
  | interruptedInLock hfrom call =>
      exact hkept call fun hut => by simp [← hut, hp] at hfrom
  | interrupted => exact ho
  | refusedWait => exact ho
  | waiting hfrom hthrow call =>
      exact hkept call fun hut => by simp [← hut, hp] at hfrom
  | left => exact ho
  | @locked a b u m p done r call hstep =>
      have hstep' : Lock.step s.lock b = some r := call.entered.lock ▸ hstep
      have hlock : (afterLock m u p done r).1.lock = r.1 := by
        obtain ⟨lock, o⟩ := r
        cases o <;> rfl
      rw [hlock]
      by_cases hut : t = u
      · -- only the wake-up of its wait for the lock moves the task
        subst hut
        cases call with
        | reacquiring hpt =>
            obtain ⟨-, hr⟩ := Option.ite_none_right_eq_some.mp hstep'
            obtain ⟨hthrow, hne⟩ := lw.shielded t _ _ hpt
            have hdone := Lock.resume_clean hthrow hne
            rw [Option.some.inj hr] at hdone
            obtain ⟨lock, lo⟩ := r
            obtain rfl : lo = .returned () := hdone
            exact Lock.owner_of_returned lw.lock hstep' (by simp)
        | acquire hpt => simp [hp] at hpt
        | acquireNowait hpt => simp [hp] at hpt
        | acquiring hpt => simp [hp] at hpt
        | woken hpt => simp [hp] at hpt
        | interrupted hpt => simp [hp] at hpt
      · exact hkept ⟨b, call.task, hstep'⟩ hut

/-- In every run, a `wait()` that was called by the owner of the lock ends with its task as the
owner and with its event out of the deque, whether it returns or raises. Its task does not own the
lock while it waits for a notification; when it has got the lock again, it keeps it until the call
ends. -/
theorem wait_keeps_lock {taskId : τ → TaskId} {fastAcquire : Bool}
    (run : (callRecorded τ).Reachable Machine.anyStep (initial taskId fastAcquire, .none) (s, h))
    (t : τ) :
    (∀ a s' o, step s a = some (s', o) → (s.loop.point t).inWait = true →
      s'.loop.point t = .outside → h t = true →
        s'.lock.ownerTask = some t ∧
          ∀ e, (s.loop.point t).event = some e → e ∉ s'.waiters.map Prod.snd) ∧
    (∀ e, s.loop.point t = .waiting e → s.lock.ownerTask ≠ some t) ∧
    (∀ a s' o, step s a = some (s', o) → ∀ e error, s.loop.point t = .reacquiring e error →
      s.lock.ownerTask = some t → s'.lock.ownerTask = some t) := by
  obtain ⟨lw, queued, posted, called⟩ := of_callRun run
  refine ⟨?_, lw.parted t, ?_⟩
  · intro a s' o hs
    exact wait_ends lw queued posted called hs
  · intro a s' o hs e error
    exact reacquired_kept lw hs

/-- In every run, a `wait()` that was called without the lock never raises `RuntimeError` with the
deque as it was: it is interrupted at its checkpoint, or it raises and leaves its event behind. -/
theorem rejected_wait_leaves_event {taskId : τ → TaskId} {fastAcquire : Bool}
    (run : (callRecorded τ).Reachable Machine.anyStep (initial taskId fastAcquire, .none) (s, h))
    (ht : h t = false) (hp : s.loop.point t = .waitCheckpoint) (hs : step s a = some (s', o))
    (hend : s'.loop.point t ≠ .waitCheckpoint) :
    (o = .raised .cancelledError ∧ s'.waiters = s.waiters ∨
      o = .raised Lock.notHolding ∧ s'.waiters = s.waiters ++ [(t, s.loop.nextFuture)]) ∧
    ¬ ∃ message, o = .raised (.runtimeError message) ∧ s'.waiters = s.waiters := by
  obtain ⟨lw, -, -, called⟩ := of_callRun run
  have ho : s.lock.ownerTask ≠ some t := fun ho => by simp [(called t hp).mpr ho] at ht
  have hcases : o = .raised .cancelledError ∧ s'.waiters = s.waiters ∨
      o = .raised Lock.notHolding ∧ s'.waiters = s.waiters ++ [(t, s.loop.nextFuture)] := by
    obtain rfl := (step_change lw hs).leaves_checkpoint hp hend
    have hresume := Option.some.inj (Option.ite_none_right_eq_some.mp hs).2
    cases hthrow : s.loop.throws t with
    | true =>
        have hraise : resume s t = (wake s t, .raised .cancelledError) := by
          simp [resume, hp, hthrow]
        cases hraise.symm.trans hresume
        exact .inl ⟨rfl, rfl⟩
    | false =>
        cases (resume_of_stranger hp hthrow ho).symm.trans hresume
        exact .inr ⟨rfl, rfl⟩
  refine ⟨hcases, ?_⟩
  rintro ⟨message, hraised, hsame⟩
  obtain ⟨hcancelled, -⟩ | ⟨-, happend⟩ := hcases
  · simp [hcancelled] at hraised
  · simp [happend] at hsame

/-- Task 0 waits with the lock and is interrupted while task 1 has it; it gets the lock back when
task 1 releases it. -/
def interruptedWait : State (Fin 2) × Callers (Fin 2) :=
  ((callRecorded (Fin 2)).exec Machine.anyStep (initial Fin.val true, .none)
    [.acquire 0 false, .wait 0, .resume 0, .acquire 1 false, .interrupt 0, .resume 0,
      .release 1]).get (by decide)

theorem wait_keeps_lock_interrupted :
    ∃ s', step interruptedWait.1 (.resume 0) = some (s', .raised .cancelledError) ∧
      interruptedWait.1.waiters = [] ∧ s'.lock.ownerTask = some 0 := by
  have run : (callRecorded (Fin 2)).Reachable Machine.anyStep (initial Fin.val true, .none)
      interruptedWait := Machine.exec_get_reachable _ _ _
  have hs : step interruptedWait.1 (.resume 0) =
      some ((resume interruptedWait.1 0).1, .raised .cancelledError) := by rfl
  refine ⟨_, hs, by decide, ?_⟩
  exact ((wait_keeps_lock (s := interruptedWait.1) (h := interruptedWait.2) run 0).1 _ _ _ hs
    (by decide) (by decide) (by decide)).1

/-- Task 0 calls `wait()` without the lock and goes on from its checkpoint. -/
theorem rejected_wait_leaves_event_alone :
    ∃ s h s', (callRecorded (Fin 1)).Reachable Machine.anyStep (initial Fin.val true, .none)
        (s, h) ∧ h 0 = false ∧
      step s (.resume 0) = some (s', .raised Lock.notHolding) ∧
      ¬ ∃ message, (Outcome.raised Lock.notHolding : Outcome Point Unit) =
        .raised (.runtimeError message) ∧ s'.waiters = s.waiters := by
  have run : (callRecorded (Fin 1)).Reachable Machine.anyStep (initial Fin.val true, .none) _ :=
    Machine.exec_get_reachable _ [.wait 0] (by decide)
  exact ⟨_, _, _, run, by decide, rfl,
    (rejected_wait_leaves_event (t := 0) (a := .resume 0) run (by decide) (by decide) rfl
      (by decide)).2⟩

/-- The event of a rejected `wait()` is the oldest one. The notification that the owner of the
lock sends is spent on it, and the task that waits stays suspended. -/
theorem rejected_wait_spends_notification :
    ∃ s s' : State (Fin 3), (machine (Fin 3)).Reachable Machine.anyStep (initial Fin.val true) s ∧
      step s (.resume 0) = some (s', .raised Lock.notHolding) ∧ s.lock.ownerTask ≠ some 0 ∧
      s.waiters = [] ∧ s'.waiters = [(0, 0)] ∧
      ((machine (Fin 3)).exec Machine.anyStep s' [.acquire 1 false, .wait 1, .resume 1,
        .acquire 2 false, .notify 2 1]).map (fun p =>
          (p.waiters, p.loop.point 1, p.loop.wakeUpQueued 1)) =
        some ([(1, 1)], .waiting 1, false) := by
  have run : (machine (Fin 3)).Reachable Machine.anyStep (initial Fin.val true) _ :=
    Machine.exec_get_reachable _ [.wait 0] (by decide)
  exact ⟨_, _, run, rfl, by decide, rfl, rfl, by decide⟩

end Runs

end Anyio.Condition
