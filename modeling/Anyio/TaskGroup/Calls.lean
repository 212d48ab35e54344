import Anyio.TaskGroup.Children

/-!
# The `start()` calls of the asyncio `TaskGroup`

Who awaits which child, in the runs in which every cancellation comes in time:
a `Task.cancel()` that `start()` sends to its own child does not look at what
that child waits for, so if the child is itself in a `start()` whose child has
just ended, the request takes the place of the exception.
-/

namespace Anyio.TaskGroup

open Asyncio Library

variable {τ ε : Type*}

mutual

/-- No leaf of the exception is a `CancelledError`; a group is never empty. -/
def Exc.isWhole : Exc ε → Bool
  | .cancelled _ => false
  | .group _ exceptions => !exceptions.isEmpty && eachIsWhole exceptions
  | _ => true

def eachIsWhole : List (Exc ε) → Bool
  | [] => true
  | e :: rest => e.isWhole && eachIsWhole rest

end

mutual

theorem Exc.withoutCancelled_eq (e : Exc ε) (h : e.isWhole = true) :
    e.withoutCancelled = some e := by
  cases e with
  | cancelled anyio => simp [Exc.isWhole] at h
  | known error => rfl
  | other value => rfl
  | group message exceptions =>
      obtain ⟨hne, hall⟩ : exceptions ≠ [] ∧ eachIsWhole exceptions = true := by
        simpa [Exc.isWhole] using h
      simp only [Exc.withoutCancelled, eachWithoutCancelled_eq exceptions hall]
      cases exceptions with
      | nil => exact absurd rfl hne
      | cons e rest => rfl

theorem eachWithoutCancelled_eq (es : List (Exc ε)) (h : eachIsWhole es = true) :
    eachWithoutCancelled es = es := by
  cases es with
  | nil => rfl
  | cons e rest =>
      obtain ⟨he, hrest⟩ : e.isWhole = true ∧ eachIsWhole rest = true := by
        simpa [eachIsWhole] using h
      simp [eachWithoutCancelled, Exc.withoutCancelled_eq e he, eachWithoutCancelled_eq rest hrest]

end

/-- `suppress(CancelledError)` takes nothing away from the exception of `u`, if it is not a
`CancelledError`. -/
def raisesWhole (s : State τ ε) (u : τ) : Bool :=
  match s.exception u with
  | some e => e.isCancelled || !s.python312 || e.isWhole
  | none => true

/-- The future or the child that a task awaits is done. -/
def awaitsDone (l : Loop τ (Point τ)) (t : τ) : Bool :=
  match l.point t with
  | .waiting f => l.future f ≠ .pending
  | .starting _ f => l.future f ≠ .pending
  | .joining u => Coroutine.done (l.point u)
  | _ => false

/-- What a task must meet that runs again in `start()`: a cancelled call does not cancel a child
that awaits something done, and gets no group from it that loses its `CancelledError`s. -/
def CallInTime (s : State τ ε) (t : τ) : Point τ → Prop
  | .starting u _ => s.loop.throws t = true → awaitsDone s.loop u = false ∧ raisesWhole s u = true
  | .joining u => raisesWhole s u = true
  | _ => True

instance (s : State τ ε) (t : τ) (p : Point τ) : Decidable (CallInTime s t p) :=
  match p with
  | .starting u _ => inferInstanceAs
      (Decidable (s.loop.throws t = true → awaitsDone s.loop u = false ∧ raisesWhole s u = true))
  | .joining u => inferInstanceAs (Decidable (raisesWhole s u = true))
  | .unborn | .created | .outside | .waiting _ | .checkpoint | .finished => .isTrue trivial

/-- What a step must meet. A request comes from a cancel scope, which reaches neither the
shielded checkpoint nor a task that awaits something done. -/
def InTime (s : State τ ε) : Action τ ε → Prop
  | .cancel t => s.loop.point t ≠ .checkpoint ∧ awaitsDone s.loop t = false
  | .resume t _ _ => CallInTime s t (s.loop.point t)
  | _ => True

instance [DecidableEq τ] (s : State τ ε) (a : Action τ ε) : Decidable (InTime s a) :=
  match a with
  | .cancel t =>
      inferInstanceAs (Decidable (s.loop.point t ≠ .checkpoint ∧ awaitsDone s.loop t = false))
  | .resume t _ _ => inferInstanceAs (Decidable (CallInTime s t (s.loop.point t)))
  | .createTask _ | .aenter _ | .aexit _ _ | .startSoon _ _ | .start _ _ _ | .started _
  | .finish _ _ | .taskDone _ _ | .onCompletion _ => .isTrue trivial

/-- What happened in the calls of a run: the exception with which the host came to `__aexit__()`,
the children whose future got a value from `started()`, and the `start()` calls that ended, by
their children, with what they raised. -/
structure History (τ ε : Type*) where
  hostExc : Option (Exc ε)
  started : List τ
  ended : List (τ × Option (Exc ε))

namespace History

def empty : History τ ε := ⟨none, [], []⟩

/-- The `start()` call of the child, if the task was in one, has ended. -/
def endCall (h : History τ ε) (child : Option τ) (exc : Option (Exc ε)) : History τ ε :=
  { h with ended := h.ended ++ child.toList.map fun u => (u, exc) }

end History

/-- The future of the `start()` call of `u` still waits for a value. -/
def awaitsValue (s : State τ ε) (u : τ) : Bool :=
  match s.taskStatus u with
  | some (some f) => s.loop.future f = .pending
  | _ => false

/-- What a step adds to the history. -/
def record (h : History τ ε) (s : State τ ε) (a : Action τ ε) (o : Result τ ε) : History τ ε :=
  match a, o with
  | .aexit _ excVal, _ => { h with hostExc := excVal }
  | .started u, _ => if awaitsValue s u then { h with started := h.started ++ [u] } else h
  | .resume t _ _, .returned _ => h.endCall (s.loop.point t).child none
  | .resume t _ _, .raised e => h.endCall (s.loop.point t).child (some e)
  | _, _ => h

/-- The machine that keeps the history. -/
def recorded (τ ε : Type*) [DecidableEq τ] :
    Machine (State τ ε × History τ ε) (Action τ ε) (Result τ ε) :=
  (machine τ ε).withHistory record

/-- A task at such a point has no request left for its next step. -/
def Point.isCalm : Point τ → Bool
  | .outside => true
  | .checkpoint => true
  | .starting _ _ => true
  | .joining _ => true
  | _ => false

/-- The futures of the `start()` calls, and who awaits them. -/
structure Awaits (s : State τ ε) : Prop where
  ids : ∀ u f, s.taskStatus u = some (some f) → f < s.loop.nextFuture
  distinct : ∀ u v f, s.taskStatus u = some (some f) → s.taskStatus v = some (some f) → u = v
  waiter : ∀ t f, s.loop.point t = .waiting f →
    f < s.loop.nextFuture ∧ ∀ u, s.taskStatus u ≠ some (some f)
  starting : ∀ t u f, s.loop.point t = .starting u f → s.taskStatus u = some (some f)
  joining : ∀ t u, s.loop.point t = .joining u →
    ∃ f, s.taskStatus u = some (some f) ∧ s.loop.future f = .cancelled
  caller : ∀ t v u, (s.loop.point t).child = some u → (s.loop.point v).child = some u → t = v
  calm : ∀ t, (s.loop.point t).isCalm = true → (s.loop.task t).mustCancel = false

section Awaits
variable {s s' : State τ ε} {t u : τ} {f : FutureId} {a : Action τ ε} {o : Result τ ε}

/-- No task gets into a `start()` call or into a wait of `__aexit__()`. -/
theorem Awaits.frame (aw : Awaits s) (hstatus : s'.taskStatus = s.taskStatus)
    (hnext : s.loop.nextFuture ≤ s'.loop.nextFuture)
    (hfuture : ∀ u f, s.taskStatus u = some (some f) → s.loop.future f = .cancelled →
      s'.loop.future f = .cancelled)
    (hpoint : ∀ u, s'.loop.point u = s.loop.point u ∨
      (∀ f, s'.loop.point u ≠ .waiting f) ∧ (s'.loop.point u).child = none)
    (hcalm : ∀ u, (s'.loop.point u).isCalm = true → (s'.loop.task u).mustCancel = false) :
    Awaits s' := by
  have hchild : ∀ t u, (s'.loop.point t).child = some u → s'.loop.point t = s.loop.point t := by
    intro t u h
    rcases hpoint t with hp | ⟨-, hp⟩
    · exact hp
    · rw [hp] at h
      cases h
  refine ⟨fun u f hu => ?_, ?_, fun t f ht => ?_, fun t u f ht => ?_, fun t u ht => ?_,
    fun t v u ht hv => ?_, hcalm⟩
  · exact Nat.lt_of_lt_of_le (aw.ids u f (hstatus ▸ hu)) hnext
  · rw [hstatus]
    exact aw.distinct
  · rcases hpoint t with hp | ⟨hp, -⟩
    · obtain ⟨hlt, hne⟩ := aw.waiter t f (hp ▸ ht)
      rw [hstatus]
      exact ⟨Nat.lt_of_lt_of_le hlt hnext, hne⟩
    · exact absurd ht (hp f)
  · rw [hstatus]
    exact aw.starting t u f (hchild t u (by simp [ht, Point.child]) ▸ ht)
  · obtain ⟨f, hf, hcancelled⟩ := aw.joining t u (hchild t u (by simp [ht, Point.child]) ▸ ht)
    exact ⟨f, hstatus ▸ hf, hfuture u f hf hcancelled⟩
  · exact aw.caller t v u (hchild t u ht ▸ ht) (hchild v u hv ▸ hv)

variable [DecidableEq τ]

/-- Task `t` moves to a point outside of these calls. -/
theorem Awaits.walk (aw : Awaits s) (t : τ) (hstatus : s'.taskStatus = s.taskStatus)
    (hnext : s.loop.nextFuture ≤ s'.loop.nextFuture) (hfuture : s'.loop.future = s.loop.future)
    (hother : ∀ u, u ≠ t → s'.loop.task u = s.loop.task u)
    (hwait : ∀ f, s'.loop.point t ≠ .waiting f) (hchild : (s'.loop.point t).child = none)
    (hcalm : (s'.loop.point t).isCalm = true → (s'.loop.task t).mustCancel = false) :
    Awaits s' := by
  refine aw.frame hstatus hnext (fun u f _ hf => by rw [hfuture, hf]) (fun u => ?_) fun u hu => ?_
  · by_cases hut : u = t
    · exact .inr ⟨hut ▸ hwait, hut ▸ hchild⟩
    · exact .inl (point_congr (hother u hut))
  · by_cases hut : u = t
    · exact hut ▸ hcalm (hut ▸ hu)
    · rw [hother u hut]
      exact aw.calm u (point_congr (hother u hut) ▸ hu)

theorem Awaits.departs {m : State τ ε} (aw : Awaits s) (hstatus : m.taskStatus = s.taskStatus)
    (hloop : m.loop = s.loop.resumeAt t .outside) (active : Bool) :
    Awaits (departed m t active) := by
  refine aw.walk t hstatus (by simp [departed, hloop]) (by simp [departed, hloop])
    (fun u hu => ?_) (by simp [departed]) (by simp [departed, Point.child])
    (by simp [departed, hloop])
  change (m.loop.moveTo t .outside).task u = s.loop.task u
  rw [hloop, Loop.moveTo_task_of_ne hu, Loop.resumeAt_task_of_ne hu]

/-- The host waits for its children with a new future. -/
theorem Awaits.wait (aw : Awaits s) (t : τ) (hstatus : s'.taskStatus = s.taskStatus)
    (hnext : s'.loop.nextFuture = s.loop.nextFuture + 1)
    (hfuture : ∀ f, f < s.loop.nextFuture → s'.loop.future f = s.loop.future f)
    (hother : ∀ u, u ≠ t → s'.loop.task u = s.loop.task u)
    (ht : s'.loop.point t = .waiting s.loop.nextFuture) : Awaits s' := by
  have hpoint : ∀ u, u ≠ t → s'.loop.point u = s.loop.point u := fun u hu =>
    point_congr (hother u hu)
  have hout : ∀ u p, s'.loop.point u = p → (∀ f, p ≠ .waiting f) → s.loop.point u = p := by
    intro u p hu hp
    by_cases hut : u = t
    · rw [hut, ht] at hu
      exact absurd hu.symm (hp _)
    · exact hpoint u hut ▸ hu
  refine ⟨fun u f hu => ?_, ?_, fun u f hu => ?_, fun v u f hv => ?_, fun v u hv => ?_,
    fun v w u hv hw => ?_, fun u hu => ?_⟩
  · rw [hnext]
    exact Nat.lt_succ_of_lt (aw.ids u f (hstatus ▸ hu))
  · rw [hstatus]
    exact aw.distinct
  · rw [hstatus, hnext]
    by_cases hut : u = t
    · rw [hut, ht] at hu
      cases hu
      exact ⟨Nat.lt_succ_self _, fun v hv => absurd (aw.ids v _ hv) (lt_irrefl _)⟩
    · obtain ⟨hlt, hne⟩ := aw.waiter u f (hpoint u hut ▸ hu)
      exact ⟨Nat.lt_succ_of_lt hlt, hne⟩
  · rw [hstatus]
    exact aw.starting v u f (hout v _ hv (by simp))
  · obtain ⟨f, hf, hcancelled⟩ := aw.joining v u (hout v _ hv (by simp))
    exact ⟨f, hstatus ▸ hf, (hfuture f (aw.ids u f hf)).trans hcancelled⟩
  · have hchild : ∀ v, (s'.loop.point v).child = some u → (s.loop.point v).child = some u := by
      intro v hv
      by_cases hvt : v = t
      · simp [hvt, ht, Point.child] at hv
      · exact hpoint v hvt ▸ hv
    exact aw.caller v w u (hchild v hv) (hchild w hw)
  · by_cases hut : u = t
    · simp [hut, ht, Point.isCalm] at hu
    · rw [hother u hut]
      exact aw.calm u (hpoint u hut ▸ hu)

/-- What a request leaves behind that comes before the awaited future or child is done. -/
structure Requested (l l' : Loop τ (Point τ)) : Prop where
  nextFuture : l'.nextFuture = l.nextFuture
  point : ∀ u, l'.point u = l.point u
  mustCancel : ∀ u, (l.point u).isCalm = true → (l'.task u).mustCancel = (l.task u).mustCancel
  future : ∀ f, l'.future f = l.future f ∨ l.future f = .pending ∧ l'.future f = .cancelled

theorem requested (l : Loop τ (Point τ)) (hp : l.point t ≠ .checkpoint)
    (hdone : awaitsDone l t = false) : Requested l (requestCancel l t) := by
  have same : Requested l l := ⟨rfl, fun _ => rfl, fun _ _ => rfl, fun _ => .inl rfl⟩
  have cancelled : ((l.point t).isCalm = true →
      ((l.cancel t).task t).mustCancel = (l.task t).mustCancel) → Requested l (l.cancel t) := by
    refine fun hcalm => ⟨by simp, by simp, fun u hu => ?_, fun f => ?_⟩
    · by_cases hut : u = t
      · exact hut ▸ hcalm (hut ▸ hu)
      · rw [Loop.cancel_task_of_ne hut]
    · exact (l.cancel_future_cases t f).imp_right And.right
  unfold requestCancel
  cases ht : l.point t with
  | checkpoint => exact absurd ht hp
  | outside => exact same
  | joining u =>
      have hdone : Coroutine.done (l.point u) = false := by simpa [awaitsDone, ht] using hdone
      simp only [hdone, Bool.false_eq_true, if_false]
      exact same
  | starting u f =>
      have hf : l.future f = .pending := by simpa [awaitsDone, ht] using hdone
      exact cancelled fun _ =>
        Loop.cancel_mustCancel_of_pending (by simp [Loop.waits, ht, Coroutine.waits]) hf
  | waiting f => exact cancelled (by simp [ht, Point.isCalm])
  | created => exact cancelled (by simp [ht, Point.isCalm])
  | unborn => exact cancelled (by simp [ht, Point.isCalm])
  | finished => exact cancelled (by simp [ht, Point.isCalm])

/-- A cancelled `start()` joins its child. -/
theorem Awaits.join (aw : Awaits s) {l : Loop τ (Point τ)} (hp : s.loop.point t = .starting u f)
    (hf : s.loop.future f = .cancelled) (req : Requested (s.loop.resumeAt t (.joining u)) l)
    (hl : s' = { s with loop := l }) : Awaits s' := by
  have hpoint : ∀ v, l.point v = if v = t then .joining u else s.loop.point v := fun v =>
    (req.point v).trans (by simp)
  have hchild : ∀ v w, (l.point v).child = some w → (s.loop.point v).child = some w := by
    intro v w hv
    rw [hpoint] at hv
    split_ifs at hv with hvt
    · simpa [hvt, hp, Point.child] using hv
    · exact hv
  have hnext : l.nextFuture = s.loop.nextFuture := req.nextFuture
  have hcancelled : ∀ g, s.loop.future g = .cancelled → l.future g = .cancelled := by
    intro g hg
    rcases req.future g with h | ⟨h, -⟩
    · exact h.trans hg
    · simp [hg] at h
  subst hl
  refine ⟨?_, aw.distinct, fun v g hv => ?_, fun v w g hv => ?_, fun v w hv => ?_,
    fun v w x hv hw => ?_, fun v hv => ?_⟩
  · simpa only [hnext] using aw.ids
  · simp only [hpoint] at hv
    split_ifs at hv
    simpa only [hnext] using aw.waiter v g hv
  · simp only [hpoint] at hv
    split_ifs at hv
    exact aw.starting v w g hv
  · simp only [hpoint] at hv
    split_ifs at hv
    · cases hv
      exact ⟨f, aw.starting t u f hp, hcancelled f hf⟩
    · obtain ⟨g, hg, hc⟩ := aw.joining v w hv
      exact ⟨g, hg, hcancelled g hc⟩
  · exact aw.caller v w x (hchild v x hv) (hchild w x hw)
  · have hcalm := req.mustCancel v (req.point v ▸ hv)
    rw [hcalm]
    simp only [hpoint] at hv
    split_ifs at hv with hvt
    · simp [hvt]
    · simpa [hvt] using aw.calm v hv

omit [DecidableEq τ] in
/-- The result of a future changes nothing about the futures that were cancelled. -/
theorem Awaits.setEvent (aw : Awaits s) (hstatus : s'.taskStatus = s.taskStatus)
    (hl : s'.loop = s.loop.setEvent f) : Awaits s' := by
  refine aw.frame hstatus (by simp [hl]) (fun v g _ hg => ?_) (fun _ => .inl (by simp [hl]))
    (by simpa [hl] using aw.calm)
  rw [hl, Loop.setEvent_future, hg, if_neg]
  rintro ⟨rfl, hpending⟩
  rw [hg] at hpending
  cases hpending

/-- A child is added, with a future that is new or without one. -/
theorem Awaits.added (aw : Awaits s) (hu : s.loop.point u = .unborn) (hnone : s.taskStatus u = none)
    (g : Option FutureId) (hg : ∀ f, g = some f → f < s.loop.nextFuture ∧
      (∀ v, s.taskStatus v ≠ some (some f)) ∧ ∀ t, s.loop.point t ≠ .waiting f) :
    Awaits (added s u g) := by
  have hpoint : ∀ v, (TaskGroup.added s u g).loop.point v =
      if v = u then .created else s.loop.point v := fun v => by simp [TaskGroup.added]
  have hold : ∀ v f, s.taskStatus v = some (some f) →
      (TaskGroup.added s u g).taskStatus v = some (some f) := by
    intro v f hv
    have hvu : v ≠ u := by
      rintro rfl
      rw [hnone] at hv
      cases hv
    simpa [TaskGroup.added, hvu] using hv
  have hnew : ∀ v f, (TaskGroup.added s u g).taskStatus v = some (some f) →
      v = u ∧ g = some f ∨ s.taskStatus v = some (some f) := by
    intro v f hv
    by_cases hvu : v = u
    · exact .inl ⟨hvu, by simpa [TaskGroup.added, hvu] using hv⟩
    · exact .inr (by simpa [TaskGroup.added, hvu] using hv)
  refine ⟨fun v f hv => ?_, fun v w f hv hw => ?_, fun t f ht => ?_, fun t v f ht => ?_,
    fun t v ht => ?_, fun t v w ht hv => ?_, fun t ht => ?_⟩
  · rcases hnew v f hv with ⟨-, hgf⟩ | hv
    · exact (hg f hgf).1
    · exact aw.ids v f hv
  · rcases hnew v f hv with ⟨hvu, hgf⟩ | hv' <;> rcases hnew w f hw with ⟨hwu, hgf'⟩ | hw'
    · exact hvu.trans hwu.symm
    · exact absurd hw' ((hg f hgf).2.1 w)
    · exact absurd hv' ((hg f hgf').2.1 v)
    · exact aw.distinct v w f hv' hw'
  · rw [hpoint] at ht
    split_ifs at ht
    obtain ⟨hlt, hne⟩ := aw.waiter t f ht
    refine ⟨hlt, fun v hv => ?_⟩
    rcases hnew v f hv with ⟨-, hgf⟩ | hv
    · exact (hg f hgf).2.2 t ht
    · exact hne v hv
  · rw [hpoint] at ht
    split_ifs at ht
    exact hold v f (aw.starting t v f ht)
  · rw [hpoint] at ht
    split_ifs at ht
    obtain ⟨f, hf, hc⟩ := aw.joining t v ht
    exact ⟨f, hold v f hf, hc⟩
  · rw [hpoint] at ht hv
    split_ifs at ht
    · cases ht
    · split_ifs at hv
      · cases hv
      · exact aw.caller t v w ht hv
  · rw [hpoint] at ht
    split_ifs at ht with htu
    · cases ht
    · simpa [TaskGroup.added, htu] using aw.calm t ht

/-- Task `t` awaits the future of the child that it has just started. -/
theorem Awaits.call (aw : Awaits s) (ht : s.loop.point t = .outside)
    (hu : s.taskStatus u = some (some f)) (hnobody : ∀ v, (s.loop.point v).child ≠ some u) :
    Awaits { s with loop := s.loop.moveTo t (.starting u f) } := by
  refine ⟨aw.ids, aw.distinct, fun v g hv => ?_, fun v w g hv => ?_, fun v w hv => ?_,
    fun v w x hv hw => ?_, fun v hv => ?_⟩
  · simp only [Loop.moveTo_point] at hv
    split_ifs at hv
    exact aw.waiter v g hv
  · simp only [Loop.moveTo_point] at hv
    split_ifs at hv
    · cases hv
      exact hu
    · exact aw.starting v w g hv
  · simp only [Loop.moveTo_point] at hv
    split_ifs at hv
    exact aw.joining v w hv
  · simp only [Loop.moveTo_point] at hv hw
    split_ifs at hv hw with hvt hwt hwt
    · exact hvt.trans hwt.symm
    · obtain rfl : u = x := by simpa [Point.child] using hv
      exact absurd hw (hnobody w)
    · obtain rfl : u = x := by simpa [Point.child] using hw
      exact absurd hv (hnobody v)
    · exact aw.caller v w x hv hw
  · simp only [Loop.moveTo_point] at hv
    rw [Loop.moveTo_mustCancel]
    split_ifs at hv with hvt
    · exact hvt ▸ aw.calm t (by simp [ht, Point.isCalm])
    · exact aw.calm v hv

omit [DecidableEq τ] in
/-- A task in `start()` gets a `CancelledError` exactly if its future was cancelled. -/
theorem Awaits.throws_iff (aw : Awaits s) (hp : s.loop.point t = .starting u f) :
    s.loop.throws t = true ↔ s.loop.future f = .cancelled := by
  have hcalm := aw.calm t (by simp [hp, Point.isCalm])
  simp [Loop.throws, Loop.waits, hp, Coroutine.waits, hcalm]

omit [DecidableEq τ] in
/-- Nothing replaces the exception that a joined child raises. -/
theorem Awaits.joining_clear (aw : Awaits s) (hp : s.loop.point t = .joining u) :
    s.loop.throws t = false := by
  have hcalm := aw.calm t (by simp [hp, Point.isCalm])
  simp [Loop.throws, Loop.waits, hp, Coroutine.waits, hcalm]

omit [DecidableEq τ] in
/-- The child of a `start()` call is a child of the group. -/
theorem Awaits.child_status (aw : Awaits s) (h : (s.loop.point t).child = some u) :
    ∃ f, s.taskStatus u = some (some f) := by
  cases hp : s.loop.point t with
  | starting v f =>
      obtain rfl : v = u := by simpa [hp, Point.child] using h
      exact ⟨f, aw.starting t v f hp⟩
  | joining v =>
      obtain rfl : v = u := by simpa [hp, Point.child] using h
      obtain ⟨f, hf, -⟩ := aw.joining t v hp
      exact ⟨f, hf⟩
  | _ => simp [hp, Point.child] at h

/-- The request of a cancelled `start()` comes in time if its child awaits nothing done. -/
theorem Awaits.requested_child (aw : Awaits s) (kids : Children s)
    (hp : s.loop.point t = .starting u f) (hdone : awaitsDone s.loop u = false) :
    Requested (s.loop.resumeAt t (.joining u))
      (requestCancel (s.loop.resumeAt t (.joining u)) u) := by
  refine requested _ (fun hcheck => ?_) ?_
  · rw [Loop.resumeAt_point] at hcheck
    split_ifs at hcheck
    -- the host is in the checkpoint, and it is no child
    obtain ⟨hhost, -⟩ := kids.exit u (by simp [hcheck, Point.isExit])
    have hnone := (kids.host u hhost).1
    rw [aw.starting t u f hp] at hnone
    cases hnone
  · by_cases hut : u = t
    · simp [awaitsDone, hut, Coroutine.done]
    · unfold awaitsDone at hdone ⊢
      simp only [Loop.resumeAt_point, hut, if_false, Loop.resumeAt_future]
      split at hdone
      · exact hdone
      · exact hdone
      · rename_i v hv
        by_cases hvt : v = t
        · simp [hvt, Coroutine.done]
        · simpa [hvt] using hdone
      · rfl

theorem Awaits.step (aw : Awaits s) (kids : Children s) (ok : InTime s a)
    (change : Change s a s' o) : Awaits s' := by
  cases change with
  | refused => exact aw
  | late => exact aw
  | @created t =>
      exact aw.walk t rfl le_rfl rfl (fun u hu => Loop.moveTo_task_of_ne hu _) (by simp)
        (by simp [Point.child]) (by simp [Point.isCalm])
  | entered =>
      exact ⟨aw.ids, aw.distinct, aw.waiter, aw.starting, aw.joining, aw.caller, aw.calm⟩
  | @checks t excVal _ _ hp =>
      refine aw.walk t (by simp) le_rfl rfl (fun u hu => Loop.moveTo_task_of_ne hu _) (by simp)
        (by simp [Point.child]) fun _ => ?_
      simpa using aw.calm t (by simp [hp, Point.isCalm])
  | @waits t =>
      refine aw.wait t (by simp) rfl (fun f hf => by simp [hf.ne])
        (fun u hu => Loop.moveTo_task_of_ne hu _) (by simp)
  | spawned _ hp =>
      exact aw.added hp (kids.unspawned hp) none (by simp)
  | @starts t func u _ ht hp =>
      have created : Awaits { s with loop := s.loop.createFuture } := by
        refine aw.frame rfl (Nat.le_succ _) (fun u f hu hf => ?_) (fun _ => .inl rfl) aw.calm
        simpa [(aw.ids u f hu).ne] using hf
      have htu : t ≠ u := by
        rintro rfl
        simp [ht] at hp
      have hnone := kids.unspawned hp
      have added := created.added hp hnone (some s.loop.nextFuture) (by
        rintro f ⟨rfl⟩
        refine ⟨Nat.lt_succ_self _, fun v hv => ?_, fun v hv => ?_⟩
        · exact absurd (aw.ids v _ hv) (lt_irrefl _)
        · exact absurd (aw.waiter v _ hv).1 (lt_irrefl _))
      refine added.call (t := t) (u := u) (by simp [TaskGroup.added, htu, ht])
        (by simp [TaskGroup.added]) fun v hv => ?_
      by_cases hvu : v = u
      · simp [TaskGroup.added, hvu, Point.child] at hv
      · obtain ⟨f, hf⟩ := aw.child_status (t := v) (by simpa [TaskGroup.added, hvu] using hv)
        rw [hnone] at hf
        cases hf
  | @valued u f _ hf =>
      refine aw.frame rfl le_rfl (fun v g _ hg => ?_) (fun _ => .inl rfl) aw.calm
      have hgf : g ≠ f := by
        rintro rfl
        simp [hf] at hg
      simpa [hgf] using hg
  | @finished t =>
      exact aw.walk t rfl le_rfl rfl (fun u hu => Loop.moveTo_task_of_ne hu _) (by simp)
        (by simp [Point.child]) (by simp [Point.isCalm])
  | unreported =>
      exact ⟨aw.ids, aw.distinct, aw.waiter, aw.starting, aw.joining, aw.caller, aw.calm⟩
  | @failed u f => exact aw.setEvent (f := f) rfl rfl
  | reported =>
      exact ⟨aw.ids, aw.distinct, aw.waiter, aw.starting, aw.joining, aw.caller, aw.calm⟩
  | lost =>
      exact ⟨aw.ids, aw.distinct, aw.waiter, aw.starting, aw.joining, aw.caller, aw.calm⟩
  | @completed t u f =>
      unfold onCompletion
      simp only
      split_ifs
      · exact aw.setEvent (f := f) rfl rfl
      · exact ⟨aw.ids, aw.distinct, aw.waiter, aw.starting, aw.joining, aw.caller, aw.calm⟩
  | @requested t hp =>
      have req := TaskGroup.requested s.loop ok.1 ok.2
      refine aw.frame rfl req.nextFuture.ge (fun v f _ hf => ?_) (fun v => .inl (req.point v))
        fun v hv => ?_
      · rcases req.future f with h | ⟨h, -⟩
        · exact h.trans hf
        · rw [hf] at h
          cases h
      · have hcalm : (s.loop.point v).isCalm = true := req.point v ▸ hv
        exact (req.mustCancel v hcalm).trans (aw.calm v hcalm)
  | @refusedFirst t =>
      exact aw.walk t rfl le_rfl rfl (fun u hu => Loop.resumeAt_task_of_ne hu _) (by simp)
        (by simp [Point.child]) (by simp [Point.isCalm])
  | @first t =>
      exact aw.walk t rfl le_rfl rfl (fun u hu => Loop.resumeAt_task_of_ne hu _) (by simp)
        (by simp [Point.child]) (by simp)
  | @waitsAgain t =>
      refine aw.wait t rfl rfl (fun f hf => by simp [hf.ne]) (fun u hu => ?_) (by simp)
      exact (Loop.moveTo_task_of_ne hu _).trans (Loop.resumeAt_task_of_ne hu _)
  | waited | checked | interrupted => apply aw.departs <;> rfl
  | @joins t u f _ _ hp hthrow hdone =>
      obtain ⟨hawaits, -⟩ : awaitsDone s.loop u = false ∧ raisesWhole s u = true := by
        have ok : CallInTime s t (s.loop.point t) := ok
        rw [hp] at ok
        exact ok hthrow
      exact aw.join hp ((aw.throws_iff hp).mp hthrow) (aw.requested_child kids hp hawaits) rfl
  | @ends t =>
      exact aw.walk t rfl le_rfl rfl (fun u hu => Loop.resumeAt_task_of_ne hu _) (by simp)
        (by simp [Point.child]) (by simp)

end Awaits

end Anyio.TaskGroup
