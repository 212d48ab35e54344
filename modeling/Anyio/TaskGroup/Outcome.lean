import Anyio.TaskGroup.Children

/-!
# The outcome of `start()`

What a `start()` call returns or raises, for every behaviour of its child and
every cancellation of its caller, be it native or not.

## Implementation notes

The values of the status futures are kept next to the group, since no other
step looks at them. A caller counts as cancelled from the first request on that
is made to it during its call, also if that is made by a `start()` call whose
child it is.
-/

namespace Anyio.TaskGroup

open Asyncio Library

variable {τ ε ν : Type*}

/-- A task group, and the values with which its status futures were resolved. -/
structure Valued (τ ε ν : Type*) where
  group : State τ ε
  result : FutureId → Option ν

/-- The calls, where `started()` has its argument. -/
inductive ValuedAction (τ ε ν : Type*)
  | call (action : Action τ ε)
  | started (child : τ) (value : ν)

def Valued.initial (τ ε ν : Type*) (python312 : Bool) : Valued τ ε ν where
  group := TaskGroup.initial τ ε python312
  result := fun _ => none

def Action.isStarted : Action τ ε → Bool
  | .started _ => true
  | _ => false

/-- `self._future.set_result(value)` of the child `u` -/
def Valued.store (s : Valued τ ε ν) (u : τ) (value : ν) : FutureId → Option ν :=
  match s.group.taskStatus u with
  | some (some f) =>
      if s.group.loop.future f = .pending then Function.update s.result f (some value)
      else s.result
  | _ => s.result

/-- `return await future` -/
def Valued.returned (s : Valued τ ε ν) : Action τ ε → Result τ ε → Option ν
  | .resume t _ _, .returned _ =>
      match s.group.loop.point t with
      | .starting _ f => s.result f
      | _ => none
  | _, _ => none

/-- The values of the first `started()` calls of the children, and which tasks were cancelled
since they called `start()`. -/
structure Told (τ ν : Type*) where
  first : τ → Option ν
  cancelled : τ → Bool

def Told.nothing (τ ν : Type*) : Told τ ν := ⟨fun _ => none, fun _ => false⟩

variable [DecidableEq τ]

def valuedStep (s : Valued τ ε ν) :
    ValuedAction τ ε ν → Option (Valued τ ε ν × Result τ ε × Option ν)
  | .started u value =>
      (step s.group (.started u)).map fun r => (⟨r.1, s.store u value⟩, r.2, none)
  | .call a =>
      if a.isStarted then none
      else (step s.group a).map fun r => (⟨r.1, s.result⟩, r.2, s.returned a r.2)

abbrev valuedMachine (τ ε ν : Type*) [DecidableEq τ] :
    Machine (Valued τ ε ν) (ValuedAction τ ε ν) (Result τ ε × Option ν) where
  step := valuedStep

/-- A call of `started()` is the first one, or not; a `start()` call begins without a request, and
cancels its child before it joins it. -/
def tell (h : Told τ ν) (_ : Valued τ ε ν) :
    ValuedAction τ ε ν → Result τ ε × Option ν → Told τ ν
  | .started u value, _ =>
      { h with first := Function.update h.first u ((h.first u).or (some value)) }
  | .call (.start t _ _), _ => { h with cancelled := Function.update h.cancelled t false }
  | .call (.cancel t), _ => { h with cancelled := Function.update h.cancelled t true }
  | .call (.resume _ _ _), (.suspended (.joining u), _) =>
      { h with cancelled := Function.update h.cancelled u true }
  | _, _ => h

abbrev valuedRecorded (τ ε ν : Type*) [DecidableEq τ] :
    Machine (Valued τ ε ν × Told τ ν) (ValuedAction τ ε ν) (Result τ ε × Option ν) :=
  (valuedMachine τ ε ν).withHistory tell

/-- The status futures, what they were resolved with, and who awaits them. -/
structure Resolved (s : State τ ε) (result : FutureId → Option ν) (h : Told τ ν) : Prop where
  ids : ∀ u f, s.taskStatus u = some (some f) → f < s.loop.nextFuture
  distinct : ∀ u v f, s.taskStatus u = some (some f) → s.taskStatus v = some (some f) → u = v
  waiter : ∀ t f, s.loop.point t = .waiting f →
    f < s.loop.nextFuture ∧ ∀ u, s.taskStatus u ≠ some (some f)
  starting : ∀ t u f, s.loop.point t = .starting u f → s.taskStatus u = some (some f)
  unresolved : ∀ u f, s.taskStatus u = some (some f) → s.loop.future f = .pending →
    s.failure f = none ∧ h.first u = none ∧ u ∈ s.doneCallbacks
  resolved : ∀ u f, s.taskStatus u = some (some f) → s.loop.future f = .finished →
    (s.failure f = none ∧ ∃ value, result f = some value ∧ h.first u = some value) ∨
      (u ∉ s.doneCallbacks ∧ ∃ e, s.failure f = some e ∧
        (s.exception u = none → e = .known exitedWithoutStarted))
  known : ∀ u, s.taskStatus u = none → h.first u = none
  fresh : ∀ f, s.loop.nextFuture ≤ f → s.failure f = none
  caller : ∀ t v u, (s.loop.point t).child = some u → (s.loop.point v).child = some u → t = v
  idle : ∀ t, s.loop.point t = .outside → (s.loop.task t).mustCancel = false
  calm : ∀ t u f, s.loop.point t = .starting u f → h.cancelled t = false →
    s.loop.future f ≠ .cancelled ∧ (s.loop.task t).mustCancel = false
  joining : ∀ t u, s.loop.point t = .joining u →
    s.taskStatus u ≠ none ∧ h.cancelled t = true

/-- A step that leaves the status futures alone, and in which task `t` may move on. -/
structure Walks (s s' : State τ ε) (t : τ) : Prop where
  taskStatus : s'.taskStatus = s.taskStatus
  failure : s'.failure = s.failure
  nextFuture : s.loop.nextFuture ≤ s'.loop.nextFuture
  future : ∀ u f, s.taskStatus u = some (some f) → s'.loop.future f = s.loop.future f
  callbacks : ∀ u, u ∈ s'.doneCallbacks → u ∈ s.doneCallbacks
  unresolved : ∀ u f, s.taskStatus u = some (some f) → s.loop.future f = .pending →
    u ∈ s.doneCallbacks → u ∈ s'.doneCallbacks
  exception : ∀ u, s.loop.point u = .finished → s'.exception u = s.exception u
  others : ∀ u, u ≠ t → s'.loop.task u = s.loop.task u
  moves : s'.loop.task t = s.loop.task t ∨ ((s'.loop.point t).child = none ∧
    (∀ f, s'.loop.point t = .waiting f → s.loop.nextFuture ≤ f ∧ f < s'.loop.nextFuture) ∧
      (s'.loop.point t = .outside → (s'.loop.task t).mustCancel = false))

section Steps
variable {s s' : State τ ε} {result : FutureId → Option ν} {h : Told τ ν} {t u v : τ}
  {f : FutureId} {a : Action τ ε} {o : Result τ ε}

omit [DecidableEq τ] in
/-- The other tasks, and task `t` if it does not move, stand where they stood. -/
theorem Walks.task (walks : Walks s s' t) (u : τ) :
    s'.loop.task u = s.loop.task u ∨ (u = t ∧ (s'.loop.point u).child = none ∧
      (∀ f, s'.loop.point u = .waiting f → s.loop.nextFuture ≤ f ∧ f < s'.loop.nextFuture) ∧
        (s'.loop.point u = .outside → (s'.loop.task u).mustCancel = false)) := by
  by_cases hut : u = t
  · exact walks.moves.imp (fun hsame => hut ▸ hsame) fun hmoves => ⟨hut, hut ▸ hmoves⟩
  · exact .inl (walks.others u hut)

omit [DecidableEq τ] in
theorem Resolved.walks (res : Resolved s result h) (kids : Children s) (walks : Walks s s' t) :
    Resolved s' result h := by
  have hold : ∀ v w f, s'.loop.point v = .starting w f → s'.loop.task v = s.loop.task v := by
    intro v w f hv
    rcases walks.task v with hsame | ⟨-, hchild, -⟩
    · exact hsame
    · simp [hv, Point.child] at hchild
  constructor
  case ids =>
    intro u f hu
    exact (res.ids u f (walks.taskStatus ▸ hu)).trans_le walks.nextFuture
  case distinct =>
    rw [walks.taskStatus]
    exact res.distinct
  case waiter =>
    intro v f hv
    rw [walks.taskStatus]
    rcases walks.task v with hsame | ⟨-, -, hnew, -⟩
    · obtain ⟨hlt, hne⟩ := res.waiter v f (point_congr hsame ▸ hv)
      exact ⟨hlt.trans_le walks.nextFuture, hne⟩
    · obtain ⟨hge, hlt⟩ := hnew f hv
      exact ⟨hlt, fun u hu => absurd (res.ids u f hu) (Nat.not_lt.mpr hge)⟩
  case starting =>
    intro v w f hv
    rw [walks.taskStatus]
    exact res.starting v w f (point_congr (hold v w f hv) ▸ hv)
  case unresolved =>
    intro u f hu hf
    rw [walks.taskStatus] at hu
    rw [walks.future u f hu] at hf
    obtain ⟨hfailure, hfirst, hmem⟩ := res.unresolved u f hu hf
    exact ⟨walks.failure ▸ hfailure, hfirst, walks.unresolved u f hu hf hmem⟩
  case resolved =>
    intro u f hu hf
    rw [walks.taskStatus] at hu
    rw [walks.future u f hu] at hf
    rw [walks.failure]
    apply (res.resolved u f hu hf).imp_right
    rintro ⟨hgone, e, he, hnone⟩
    refine ⟨fun hmem => hgone (walks.callbacks u hmem), e, he, fun hexc => hnone ?_⟩
    rwa [walks.exception u (kids.ran u (by simp [hu]) hgone)] at hexc
  case known =>
    intro u hu
    exact res.known u (walks.taskStatus ▸ hu)
  case fresh =>
    intro f hf
    rw [walks.failure]
    exact res.fresh f (walks.nextFuture.trans hf)
  case caller =>
    have hchild : ∀ v u, (s'.loop.point v).child = some u → (s.loop.point v).child = some u := by
      intro v u hv
      rcases walks.task v with hsame | ⟨-, hnone, -⟩
      · exact point_congr hsame ▸ hv
      · rw [hnone] at hv
        cases hv
    intro v w u hv hw
    exact res.caller v w u (hchild v u hv) (hchild w u hw)
  case idle =>
    intro v hv
    rcases walks.task v with hsame | ⟨-, -, -, hidle⟩
    · rw [hsame]
      exact res.idle v (point_congr hsame ▸ hv)
    · exact hidle hv
  case calm =>
    intro v w f hv hcalm
    have hsame := hold v w f hv
    have hpoint : s.loop.point v = .starting w f := point_congr hsame ▸ hv
    rw [hsame, walks.future w f (res.starting v w f hpoint)]
    exact res.calm v w f hpoint hcalm
  case joining =>
    intro v w hv
    rcases walks.task v with hsame | ⟨-, hchild, -⟩
    · rw [walks.taskStatus]
      exact res.joining v w (point_congr hsame ▸ hv)
    · simp [hv, Point.child] at hchild

omit [DecidableEq τ] in
/-- The child of a `start()` call is a child of the group. -/
theorem Resolved.child (res : Resolved s result h) (ht : (s.loop.point t).child = some u) :
    s.taskStatus u ≠ none := by
  cases hp : s.loop.point t with
  | starting v f =>
      obtain rfl : v = u := by simpa [hp, Point.child] using ht
      simp [res.starting t v f hp]
  | joining v =>
      obtain rfl : v = u := by simpa [hp, Point.child] using ht
      exact (res.joining t v hp).1
  | _ => simp [hp, Point.child] at ht

/-- A child is added, with a new future or without one. -/
theorem Resolved.added (res : Resolved s result h) (hnone : s.taskStatus u = none)
    (g : Option FutureId) (hg : ∀ f, g = some f → f < s.loop.nextFuture ∧
      (∀ v, s.taskStatus v ≠ some (some f)) ∧ (∀ t, s.loop.point t ≠ .waiting f) ∧
        s.loop.future f = .pending ∧ s.failure f = none) :
    Resolved (added s u g) result h := by
  have hpoint : ∀ v, (TaskGroup.added s u g).loop.point v =
      if v = u then .created else s.loop.point v := fun v => by simp [TaskGroup.added]
  have hold : ∀ v, s.taskStatus v ≠ none →
      (TaskGroup.added s u g).taskStatus v = s.taskStatus v := by
    intro v hv
    have hvu : v ≠ u := fun hvu => hv (hvu ▸ hnone)
    simp [TaskGroup.added, hvu]
  have hnew : ∀ v f, (TaskGroup.added s u g).taskStatus v = some (some f) →
      v = u ∧ g = some f ∨ v ≠ u ∧ s.taskStatus v = some (some f) := by
    intro v f hv
    by_cases hvu : v = u
    · exact .inl ⟨hvu, by simpa [TaskGroup.added, hvu] using hv⟩
    · exact .inr ⟨hvu, by simpa [TaskGroup.added, hvu] using hv⟩
  constructor
  case ids =>
    intro v f hv
    rcases hnew v f hv with ⟨-, hgf⟩ | ⟨-, hv⟩
    · exact (hg f hgf).1
    · exact res.ids v f hv
  case distinct =>
    intro v w f hv hw
    rcases hnew v f hv with ⟨hvu, hgf⟩ | ⟨-, hv'⟩ <;>
      rcases hnew w f hw with ⟨hwu, hgf'⟩ | ⟨-, hw'⟩
    · exact hvu.trans hwu.symm
    · exact absurd hw' ((hg f hgf).2.1 w)
    · exact absurd hv' ((hg f hgf').2.1 v)
    · exact res.distinct v w f hv' hw'
  case waiter =>
    intro t f ht
    rw [hpoint] at ht
    split_ifs at ht
    obtain ⟨hlt, hne⟩ := res.waiter t f ht
    refine ⟨hlt, fun v hv => ?_⟩
    rcases hnew v f hv with ⟨-, hgf⟩ | ⟨-, hv⟩
    · exact (hg f hgf).2.2.1 t ht
    · exact hne v hv
  case starting =>
    intro t v f ht
    rw [hpoint] at ht
    split_ifs at ht
    have hstatus := res.starting t v f ht
    rw [hold v (by simp [hstatus]), hstatus]
  case unresolved =>
    intro v f hv hf
    rcases hnew v f hv with ⟨rfl, hgf⟩ | ⟨-, hv⟩
    · exact ⟨(hg f hgf).2.2.2.2, res.known v hnone, List.mem_cons_self⟩
    · obtain ⟨hfailure, hfirst, hmem⟩ := res.unresolved v f hv hf
      exact ⟨hfailure, hfirst, List.mem_cons_of_mem u hmem⟩
  case resolved =>
    intro v f hv hf
    rcases hnew v f hv with ⟨rfl, hgf⟩ | ⟨hvu, hv⟩
    · have hpending := (hg f hgf).2.2.2.1
      exact absurd (hpending.symm.trans hf) (by simp)
    · apply (res.resolved v f hv hf).imp_right
      rintro ⟨hgone, hfailed⟩
      exact ⟨fun hmem => (List.mem_cons.mp hmem).elim hvu hgone, hfailed⟩
  case known =>
    intro v hv
    apply res.known v
    by_contra hne
    exact hne (hold v hne ▸ hv)
  case fresh => exact res.fresh
  case caller =>
    intro t v w ht hv
    rw [hpoint] at ht hv
    split_ifs at ht hv
    · cases ht
    · cases ht
    · cases hv
    · exact res.caller t v w ht hv
  case idle =>
    intro t ht
    rw [hpoint] at ht
    split_ifs at ht with htu
    simpa [TaskGroup.added, htu] using res.idle t ht
  case calm =>
    intro t v f ht hcalm
    rw [hpoint] at ht
    split_ifs at ht with htu
    simpa [TaskGroup.added, htu] using res.calm t v f ht hcalm
  case joining =>
    intro t v ht
    rw [hpoint] at ht
    split_ifs at ht
    obtain ⟨hstatus, hcancelled⟩ := res.joining t v ht
    exact ⟨hold v hstatus ▸ hstatus, hcancelled⟩

/-- Task `t` awaits the future of the child that it has just started. -/
theorem Resolved.call (res : Resolved s result h) (ht : s.loop.point t = .outside)
    (hu : s.taskStatus u = some (some f)) (hf : s.loop.future f = .pending)
    (hnobody : ∀ v, (s.loop.point v).child ≠ some u) :
    Resolved { s with loop := s.loop.moveTo t (.starting u f) } result
      { h with cancelled := Function.update h.cancelled t false } := by
  refine ⟨res.ids, res.distinct, fun v g hv => ?_, fun v w g hv => ?_, res.unresolved,
    res.resolved, res.known, res.fresh, fun v w x hv hw => ?_, fun v hv => ?_,
    fun v w g hv hcalm => ?_, fun v w hv => ?_⟩
  · simp only [Loop.moveTo_point] at hv
    split_ifs at hv
    exact res.waiter v g hv
  · simp only [Loop.moveTo_point] at hv
    split_ifs at hv
    · cases hv
      exact hu
    · exact res.starting v w g hv
  · simp only [Loop.moveTo_point] at hv hw
    split_ifs at hv hw with hvt hwt hwt
    · exact hvt.trans hwt.symm
    · obtain rfl : u = x := by simpa [Point.child] using hv
      exact absurd hw (hnobody w)
    · obtain rfl : u = x := by simpa [Point.child] using hw
      exact absurd hv (hnobody v)
    · exact res.caller v w x hv hw
  · simp only [Loop.moveTo_point] at hv
    split_ifs at hv
    simpa using res.idle v hv
  · simp only [Loop.moveTo_point] at hv
    split_ifs at hv with hvt
    · cases hv
      simp [hf, hvt, res.idle t ht]
    · simpa using res.calm v w g hv (by simpa [hvt] using hcalm)
  · simp only [Loop.moveTo_point] at hv
    split_ifs at hv with hvt
    simpa [hvt] using res.joining v w hv

/-- The first `started()` call of a child that is still awaited. -/
theorem Resolved.valued (res : Resolved s result h) (hu : s.taskStatus u = some (some f))
    (hf : s.loop.future f = .pending) (value : ν) :
    Resolved { s with loop := { s.loop with future := Function.update s.loop.future f .finished } }
      (Function.update result f (some value))
      { h with first := Function.update h.first u ((h.first u).or (some value)) } := by
  obtain ⟨hfailure, hfirst, -⟩ := res.unresolved u f hu hf
  have hne : ∀ v g, s.taskStatus v = some (some g) → g ≠ f → v ≠ u := by
    rintro v g hv hgf rfl
    exact hgf (Option.some.inj (Option.some.inj (hv.symm.trans hu)))
  refine ⟨res.ids, res.distinct, res.waiter, res.starting, fun v g hv hg => ?_,
    fun v g hv hg => ?_, fun v hv => ?_, res.fresh, res.caller, res.idle,
    fun v w g hv hcalm => ?_, res.joining⟩
  · by_cases hgf : g = f
    · simp [hgf] at hg
    · have hvu := hne v g hv hgf
      simpa [hvu] using res.unresolved v g hv (by simpa [hgf] using hg)
  · by_cases hgf : g = f
    · rw [hgf] at hv
      obtain rfl := res.distinct v u f hv hu
      exact .inl ⟨hgf ▸ hfailure, value, by simp [hgf], by simp [hfirst]⟩
    · have hvu := hne v g hv hgf
      simpa [hgf, hvu] using res.resolved v g hv (by simpa [hgf] using hg)
  · have hvu : v ≠ u := by
      rintro rfl
      rw [hu] at hv
      cases hv
    simpa [hvu] using res.known v hv
  · obtain ⟨hcancelled, hmust⟩ := res.calm v w g hv hcalm
    refine ⟨?_, hmust⟩
    by_cases hgf : g = f
    · simp [hgf]
    · simpa [hgf] using hcancelled

/-- A later `started()` call, or one of a child that is not awaited any more. -/
theorem Resolved.late (res : Resolved s result h)
    (hu : s.taskStatus u = some (some f)) (hf : s.loop.future f ≠ .pending) (value : ν) :
    Resolved s result
      { h with first := Function.update h.first u ((h.first u).or (some value)) } := by
  have hsame : ∀ v, (v = u → h.first u ≠ none) →
      Function.update h.first u ((h.first u).or (some value)) v = h.first v := by
    intro v hv
    by_cases hvu : v = u
    · obtain ⟨x, hx⟩ := Option.ne_none_iff_exists'.mp (hv hvu)
      simp [hvu, hx]
    · simp [hvu]
  refine ⟨res.ids, res.distinct, res.waiter, res.starting, fun v g hv hg => ?_,
    fun v g hv hg => ?_, fun v hv => ?_, res.fresh, res.caller, res.idle, res.calm, res.joining⟩
  · have hvu : v ≠ u := by
      rintro rfl
      rw [hu] at hv
      cases hv
      exact hf hg
    obtain ⟨hfailure, hfirst, hmem⟩ := res.unresolved v g hv hg
    exact ⟨hfailure, (hsame v fun hvu' => absurd hvu' hvu).trans hfirst, hmem⟩
  · apply (res.resolved v g hv hg).imp_left
    rintro ⟨hfailure, x, hx, hfirst⟩
    exact ⟨hfailure, x, hx, (hsame v fun hvu => by simp [← hvu, hfirst]).trans hfirst⟩
  · have hvu : v ≠ u := by
      rintro rfl
      rw [hu] at hv
      cases hv
    exact (hsame v fun hvu' => absurd hvu' hvu).trans (res.known v hv)

/-- `task_done` fails the future of the child `u`. -/
theorem Resolved.failed (res : Resolved s result h) (kids : Children s)
    (hu : s.taskStatus u = some (some f)) (hf : s.loop.future f = .pending) {e : Exc ε}
    (he : s.exception u = none → e = .known exitedWithoutStarted) :
    Resolved (setException (removed s u) f e) result h := by
  have hfuture : ∀ g, (setException (removed s u) f e).loop.future g =
      if g = f then .finished else s.loop.future g := fun g => by
    simp [setException, removed, Loop.setEvent_future, hf]
  have hfailure : ∀ g, (setException (removed s u) f e).failure g =
      if g = f then some e else s.failure g := fun g => by
    simp [setException, removed, Function.update_apply]
  have hpoint : ∀ v, (setException (removed s u) f e).loop.point v = s.loop.point v := fun v => by
    simp [setException, removed]
  have hne : ∀ v g, s.taskStatus v = some (some g) → g ≠ f → v ≠ u := by
    rintro v g hv hgf rfl
    exact hgf (Option.some.inj (Option.some.inj (hv.symm.trans hu)))
  constructor
  case ids => simpa [setException, removed] using res.ids
  case distinct => exact res.distinct
  case waiter => simpa [setException, removed] using res.waiter
  case starting => simpa [setException, removed] using res.starting
  case unresolved =>
    intro v g hv hg
    rw [hfuture] at hg
    split_ifs at hg with hgf
    obtain ⟨hnone, hfirst, hmem⟩ := res.unresolved v g hv hg
    rw [hfailure, if_neg hgf]
    exact ⟨hnone, hfirst, (List.mem_erase_of_ne (hne v g hv hgf)).mpr hmem⟩
  case resolved =>
    intro v g hv hg
    rw [hfuture] at hg
    rw [hfailure]
    split_ifs at hg ⊢ with hgf
    · rw [hgf] at hv
      obtain rfl := res.distinct v u f hv hu
      exact .inr ⟨kids.once.not_mem_erase, e, rfl, he⟩
    · apply (res.resolved v g hv hg).imp_right
      rintro ⟨hgone, hfailed⟩
      exact ⟨fun hmem => hgone (List.mem_of_mem_erase hmem), hfailed⟩
  case known => exact res.known
  case fresh =>
    intro g hg
    have hgf : g ≠ f := by
      rintro rfl
      exact absurd (res.ids u g hu) (Nat.not_lt.mpr (by simpa [setException, removed] using hg))
    rw [hfailure, if_neg hgf]
    exact res.fresh g (by simpa [setException, removed] using hg)
  case caller => simpa [setException, removed] using res.caller
  case idle => simpa [setException, removed] using res.idle
  case calm =>
    intro v w g hv hcalm
    rw [hpoint] at hv
    obtain ⟨hcancelled, hmust⟩ := res.calm v w g hv hcalm
    rw [hfuture]
    refine ⟨?_, by simpa [setException, removed] using hmust⟩
    split_ifs
    · simp
    · exact hcancelled
  case joining => simpa [setException, removed] using res.joining

theorem requestCancel_task (l : Loop τ (Point τ)) (hv : v ≠ t ∨ l.point v = .outside) :
    (requestCancel l t).task v = l.task v := by
  unfold requestCancel
  by_cases hvt : v = t
  · have hout : l.point t = .outside := hvt ▸ hv.resolve_left (not_not.mpr hvt)
    simp [hout]
  · split
    · rfl
    · split_ifs
      · exact Loop.cancel_task_of_ne hvt
      · rfl
    · exact Loop.cancel_task_of_ne hvt

theorem requestCancel_future (l : Loop τ (Point τ)) (t : τ) (f : FutureId) :
    (requestCancel l t).future f = l.future f ∨
      l.waits t = .future f ∧ l.future f = .pending ∧
        (requestCancel l t).future f = .cancelled := by
  unfold requestCancel
  split
  · exact .inl rfl
  · split_ifs
    · exact l.cancel_future_cases t f
    · exact .inl rfl
  · exact l.cancel_future_cases t f

@[simp] theorem requestCancel_nextFuture (l : Loop τ (Point τ)) (t : τ) :
    (requestCancel l t).nextFuture = l.nextFuture := by
  unfold requestCancel
  split
  · rfl
  · split_ifs <;> simp
  · simp

/-- A request to task `t`. -/
theorem Resolved.request (res : Resolved s result h) (t : τ) :
    Resolved { s with loop := requestCancel s.loop t } result
      { h with cancelled := Function.update h.cancelled t true } := by
  have hfuture : ∀ f, (requestCancel s.loop t).future f ≠ .cancelled →
      (requestCancel s.loop t).future f = s.loop.future f := by
    intro f hf
    exact (requestCancel_future s.loop t f).resolve_right fun hcancelled => hf hcancelled.2.2
  constructor
  case ids => simpa using res.ids
  case distinct => exact res.distinct
  case waiter => simpa using res.waiter
  case starting => simpa using res.starting
  case unresolved =>
    intro v f hv hf
    have hpending : (requestCancel s.loop t).future f = .pending := hf
    exact res.unresolved v f hv ((hfuture f (by simp [hpending])).symm.trans hpending)
  case resolved =>
    intro v f hv hf
    have hfinished : (requestCancel s.loop t).future f = .finished := hf
    exact res.resolved v f hv ((hfuture f (by simp [hfinished])).symm.trans hfinished)
  case known => exact res.known
  case fresh => simpa using res.fresh
  case caller => simpa using res.caller
  case idle =>
    intro v hv
    have hout : s.loop.point v = .outside := by simpa using hv
    change ((requestCancel s.loop t).task v).mustCancel = false
    rw [requestCancel_task s.loop (.inr hout)]
    exact res.idle v hout
  case calm =>
    intro v w f hv hcalm
    have hvt : v ≠ t := by
      rintro rfl
      simp at hcalm
    have hp : s.loop.point v = .starting w f := by simpa using hv
    obtain ⟨hcancelled, hmust⟩ := res.calm v w f hp (by simpa [hvt] using hcalm)
    constructor
    · rcases requestCancel_future s.loop t f with hsame | ⟨hwaits, -⟩
      · exact hsame ▸ hcancelled
      · -- nobody else awaits this future
        cases hpt : s.loop.point t with
        | waiting g =>
            obtain rfl : g = f := by simpa [Loop.waits, hpt, Coroutine.waits] using hwaits
            exact absurd (res.starting v w g hp) ((res.waiter t g hpt).2 w)
        | starting x g =>
            obtain rfl : g = f := by simpa [Loop.waits, hpt, Coroutine.waits] using hwaits
            have hxw := res.distinct x w g (res.starting t x g hpt) (res.starting v w g hp)
            exact absurd (res.caller v t w (by simp [hp, Point.child])
              (by simp [hpt, hxw, Point.child])) hvt
        | _ => simp [Loop.waits, hpt, Coroutine.waits] at hwaits
    · change ((requestCancel s.loop t).task v).mustCancel = false
      rw [requestCancel_task s.loop (.inl hvt)]
      exact hmust
  case joining =>
    intro v w hv
    obtain ⟨hstatus, hcancelled⟩ := res.joining v w (by simpa using hv)
    refine ⟨hstatus, ?_⟩
    by_cases hvt : v = t
    · simp [hvt]
    · simpa [hvt] using hcancelled

/-- A cancelled `start()` goes on to join its child. -/
theorem Resolved.join (res : Resolved s result h) (hp : s.loop.point t = .starting u f)
    (hcancelled : h.cancelled t = true) :
    Resolved { s with loop := s.loop.resumeAt t (.joining u) } result h := by
  have hchild : ∀ v w, ((s.loop.resumeAt t (.joining u)).point v).child = some w →
      (s.loop.point v).child = some w := by
    intro v w hv
    rw [Loop.resumeAt_point] at hv
    split_ifs at hv with hvt
    · simpa [hvt, hp, Point.child] using hv
    · exact hv
  refine ⟨res.ids, res.distinct, fun v g hv => ?_, fun v w g hv => ?_, res.unresolved,
    res.resolved, res.known, res.fresh, fun v w x hv hw => ?_, fun v hv => ?_,
    fun v w g hv hcalm => ?_, fun v w hv => ?_⟩
  · simp only [Loop.resumeAt_point] at hv
    split_ifs at hv
    exact res.waiter v g hv
  · simp only [Loop.resumeAt_point] at hv
    split_ifs at hv
    exact res.starting v w g hv
  · exact res.caller v w x (hchild v x hv) (hchild w x hw)
  · simp only [Loop.resumeAt_point] at hv
    split_ifs at hv with hvt
    simpa [hvt] using res.idle v hv
  · simp only [Loop.resumeAt_point] at hv
    split_ifs at hv with hvt
    simpa [hvt] using res.calm v w g hv hcalm
  · simp only [Loop.resumeAt_point] at hv
    split_ifs at hv with hvt
    · cases hv
      exact ⟨by simp [res.starting t u f hp], hvt ▸ hcancelled⟩
    · exact res.joining v w hv

omit [DecidableEq τ] in
/-- Task `t` moves on, and the group stays as it is for `start()`. -/
theorem Resolved.move (res : Resolved s result h) (kids : Children s) (t : τ)
    (hstatus : s'.taskStatus = s.taskStatus) (hfailure : s'.failure = s.failure)
    (hcallbacks : s'.doneCallbacks = s.doneCallbacks)
    (hexc : ∀ u, s.loop.point u = .finished → s'.exception u = s.exception u)
    (hnext : s.loop.nextFuture ≤ s'.loop.nextFuture)
    (hfuture : ∀ f, f < s.loop.nextFuture → s'.loop.future f = s.loop.future f)
    (hothers : ∀ u, u ≠ t → s'.loop.task u = s.loop.task u)
    (hmoves : s'.loop.task t = s.loop.task t ∨ ((s'.loop.point t).child = none ∧
      (∀ f, s'.loop.point t = .waiting f → s.loop.nextFuture ≤ f ∧ f < s'.loop.nextFuture) ∧
        (s'.loop.point t = .outside → (s'.loop.task t).mustCancel = false))) :
    Resolved s' result h := by
  apply res.walks (t := t) kids
  constructor
  case taskStatus => exact hstatus
  case failure => exact hfailure
  case nextFuture => exact hnext
  case future => exact fun u f hu => hfuture f (res.ids u f hu)
  case callbacks => exact fun u hu => hcallbacks ▸ hu
  case unresolved => exact fun u f _ _ hu => hcallbacks ▸ hu
  case exception => exact hexc
  case others => exact hothers
  case moves => exact hmoves

/-- A done callback that fails no future. -/
theorem Resolved.removed (res : Resolved s result h) (kids : Children s)
    {g : Option FutureId} (hu : s.taskStatus u = some g)
    (hg : ∀ f, g = some f → s.loop.future f ≠ .pending) : Resolved (removed s u) result h := by
  apply res.walks (t := u) kids
  constructor
  case taskStatus => rfl
  case failure => rfl
  case nextFuture => exact le_rfl
  case future => exact fun _ _ _ => rfl
  case callbacks => exact fun v hv => List.mem_of_mem_erase hv
  case unresolved =>
    intro v f hv hf hmem
    have hvu : v ≠ u := by
      rintro rfl
      exact hg f (Option.some.inj (hu.symm.trans hv)) hf
    exact (List.mem_erase_of_ne hvu).mpr hmem
  case exception => exact fun _ _ => rfl
  case others => exact fun _ _ => rfl
  case moves => exact .inl rfl

omit [DecidableEq τ] in
/-- Nothing of this is about the fields of `__aexit__()`. -/
theorem Resolved.congr (res : Resolved s result h) (hstatus : s'.taskStatus = s.taskStatus)
    (hfailure : s'.failure = s.failure) (hcallbacks : s'.doneCallbacks = s.doneCallbacks)
    (hexc : s'.exception = s.exception) (hloop : s'.loop = s.loop) : Resolved s' result h := by
  constructor
  case ids => simpa only [hstatus, hloop] using res.ids
  case distinct => simpa only [hstatus] using res.distinct
  case waiter => simpa only [hstatus, hloop] using res.waiter
  case starting => simpa only [hstatus, hloop] using res.starting
  case unresolved => simpa only [hstatus, hloop, hfailure, hcallbacks] using res.unresolved
  case resolved => simpa only [hstatus, hloop, hfailure, hcallbacks, hexc] using res.resolved
  case known => simpa only [hstatus] using res.known
  case fresh => simpa only [hfailure, hloop] using res.fresh
  case caller => simpa only [hloop] using res.caller
  case idle => simpa only [hloop] using res.idle
  case calm => simpa only [hloop] using res.calm
  case joining => simpa only [hstatus, hloop] using res.joining

/-- A child that has returned is reported to the call that waits for its value. -/
theorem failure_of_return {b : Bool} (hs : step s (.taskDone u b) = some (s', o))
    (hstatus : s.taskStatus u = some (some f)) (hf : s.loop.future f = .pending)
    (hexc : s.exception u = none) : s'.failure f = some (.known exitedWithoutStarted) := by
  simp only [step, hstatus] at hs
  obtain ⟨-, hs⟩ := Option.ite_none_right_eq_some.mp hs
  simp only [TaskGroup.taskDone, hexc, hf, if_true] at hs
  cases hs
  simp [setException]

omit [DecidableEq τ] in
/-- The step of a task in `start()` tells whether its caller was cancelled. -/
theorem Resolved.throws (res : Resolved s result h) (hp : s.loop.point t = .starting u f)
    (hthrow : s.loop.throws t = true) : h.cancelled t = true := by
  by_contra hcalm
  obtain ⟨hcancelled, hmust⟩ := res.calm t u f hp (by simpa using hcalm)
  simp [Loop.throws, Loop.waits, hp, Coroutine.waits, hcancelled, hmust] at hthrow

/-- A call of `start()` forgets what happened to its caller before. -/
theorem Resolved.begin (res : Resolved s result h) (ht : s.loop.point t = .outside) :
    Resolved s result { h with cancelled := Function.update h.cancelled t false } := by
  have hne : ∀ v p, s.loop.point v = p → p ≠ .outside → v ≠ t := by
    rintro v p hv hp rfl
    exact hp (hv.symm.trans ht)
  refine ⟨res.ids, res.distinct, res.waiter, res.starting, res.unresolved, res.resolved, res.known,
    res.fresh, res.caller, res.idle, fun v u f hv hcalm => ?_, fun v u hv => ?_⟩
  · have hvt := hne v _ hv (by simp)
    exact res.calm v u f hv (by simpa [hvt] using hcalm)
  · have hvt := hne v _ hv (by simp)
    simpa [hvt] using res.joining v u hv

/-- `on_completion` resolves the future of a wait in `__aexit__()`. -/
theorem Resolved.completed (res : Resolved s result h) (kids : Children s)
    (hp : s.loop.point t = .waiting f) : Resolved (onCompletion s u f) result h := by
  have htask : (onCompletion s u f).loop.task = s.loop.task := by
    unfold onCompletion
    simp only
    split_ifs <;> simp
  apply res.walks (t := t) kids
  constructor
  case taskStatus => rfl
  case failure => rfl
  case nextFuture =>
    unfold onCompletion
    simp only
    split_ifs <;> simp
  case future =>
    intro v g hv
    have hgf : g ≠ f := by
      rintro rfl
      exact (res.waiter t g hp).2 v hv
    unfold onCompletion
    simp only
    split_ifs
    · simp [Loop.setEvent_future, hgf]
    · rfl
  case callbacks => exact fun _ => id
  case unresolved => exact fun _ _ _ _ => id
  case exception => exact fun _ _ => rfl
  case others => exact fun v _ => congrFun htask v
  case moves => exact .inl (congrFun htask t)

/-- The call of `start()`: its child is created, and its caller waits for the value. -/
theorem Resolved.starts (res : Resolved s result h) (kids : Children s)
    (ht : s.loop.point t = .outside) (hp : s.loop.point u = .unborn) :
    Resolved { TaskGroup.added { s with loop := s.loop.createFuture } u
        (some s.loop.nextFuture) with
      loop := (s.loop.createFuture.moveTo u .created).moveTo t (.starting u s.loop.nextFuture) }
      result { h with cancelled := Function.update h.cancelled t false } := by
  have hnone := kids.unspawned hp
  have htu : t ≠ u := by
    rintro rfl
    simp [ht] at hp
  have hlater : ∀ v, (s.loop.point v).child ≠ some u := fun v hv => res.child hv hnone
  have created : Resolved { s with loop := s.loop.createFuture } result h :=
    res.move kids t rfl rfl rfl (fun _ _ => rfl) (Nat.le_succ _) (fun f hf => by simp [hf.ne])
      (fun _ _ => rfl) (.inl rfl)
  have added := created.added (u := u) hnone (some s.loop.nextFuture) (by
    rintro f ⟨rfl⟩
    refine ⟨Nat.lt_succ_self _, fun v hv => ?_, fun v hv => ?_, by simp, res.fresh _ le_rfl⟩
    · exact absurd (res.ids v _ hv) (lt_irrefl _)
    · exact absurd (res.waiter v _ hv).1 (lt_irrefl _))
  apply added.call (by simp [TaskGroup.added, htu, ht]) (by simp [TaskGroup.added])
    (by simp [TaskGroup.added])
  intro v hv
  by_cases hvu : v = u
  · simp [TaskGroup.added, hvu, Point.child] at hv
  · exact hlater v (by simpa [TaskGroup.added, hvu] using hv)

theorem tell_resume (w : Valued τ ε ν) (anyio caught : Bool) (x : Option ν)
    (ho : ∀ p, o ≠ .suspended p) : tell h w (.call (.resume t anyio caught)) (o, x) = h := by
  cases o with
  | returned => rfl
  | raised => rfl
  | suspended p => exact absurd rfl (ho p)

omit [DecidableEq τ] in
theorem exitResult_ne (caught : Bool) (exc : Option (Exc ε)) (p : Point τ) :
    exitResult caught exc ≠ .suspended p := by
  unfold exitResult
  split
  · simp
  · split_ifs <;> simp

omit [DecidableEq τ] in
theorem StartEnds.not_suspended (ends : StartEnds s t u o) (p : Point τ) : o ≠ .suspended p := by
  cases ends <;> simp

/-- Task `t` comes back to its own code. -/
theorem Resolved.back (res : Resolved s result h) (kids : Children s) (t : τ)
    (hstatus : s'.taskStatus = s.taskStatus) (hfailure : s'.failure = s.failure)
    (hcallbacks : s'.doneCallbacks = s.doneCallbacks) (hexc : s'.exception = s.exception)
    (hloop : s'.loop = s.loop.resumeAt t .outside ∨
      s'.loop = (s.loop.resumeAt t .outside).moveTo t .outside) : Resolved s' result h := by
  have heq : (s.loop.resumeAt t .outside).moveTo t .outside = s.loop.resumeAt t .outside := by
    simp [Loop.moveTo, Loop.resumeAt]
  rw [heq, or_self] at hloop
  exact res.move kids t hstatus hfailure hcallbacks (fun _ _ => by rw [hexc])
    (by rw [hloop]; exact le_rfl) (fun _ _ => by rw [hloop]; rfl)
    (fun u hu => by rw [hloop]; exact Loop.resumeAt_task_of_ne hu _)
    (.inr (by simp [hloop, Point.child]))

theorem Resolved.change (res : Resolved s result h) (kids : Children s) (w : Valued τ ε ν)
    (x : Option ν) (ha : a.isStarted = false) (hs : step s a = some (s', o)) :
    Resolved s' result (tell h w (.call a) (o, x)) := by
  cases step_change hs with
  | refused ha' =>
      rcases ha' with ⟨func, u, rfl⟩ | ⟨t, func, u, rfl⟩
      · exact res
      · exact res.begin (Option.ite_none_right_eq_some.mp hs).1.1
  | valued => cases ha
  | late => cases ha
  | @created t hp =>
      exact res.move kids t rfl rfl rfl (fun _ _ => rfl) le_rfl (fun _ _ => rfl)
        (fun u hu => Loop.moveTo_task_of_ne hu _) (.inr (by simp [Point.child]))
  | entered => exact res.congr rfl rfl rfl rfl rfl
  | @checks t excVal hphase hhost hp =>
      exact res.move kids t (by simp) (by simp) (by simp) (by simp) le_rfl (fun _ _ => rfl)
        (fun u hu => Loop.moveTo_task_of_ne hu _) (.inr (by simp [Point.child]))
  | @waits t excVal hphase hhost hp =>
      exact res.move kids t (by simp) (by simp) (by simp) (by simp) (Nat.le_succ _)
        (fun f hf => by simp [hf.ne]) (fun u hu => Loop.moveTo_task_of_ne hu _)
        (.inr (by simp [Point.child]))
  | spawned hactive hp => exact res.added (kids.unspawned hp) none (by simp)
  | starts hactive ht hp => exact res.starts kids ht hp
  | @finished t exc hp =>
      refine res.move kids t rfl rfl rfl (fun u hu => ?_) le_rfl (fun _ _ => rfl)
        (fun u hu => Loop.moveTo_task_of_ne hu _) (.inr (by simp [Point.child]))
      have hut : u ≠ t := by
        rintro rfl
        simp [hp] at hu
      exact Function.update_of_ne hut _ _
  | unreported hp hstatus hu hf =>
      exact (res.removed kids hstatus hf).congr rfl rfl rfl rfl rfl
  | @failed u f b e hp hstatus hu hf he =>
      apply res.failed kids hstatus hf
      intro hexc
      have hfailure := failure_of_return hs hstatus hf hexc
      simpa [setException] using hfailure
  | reported hp hstatus hu hf =>
      exact (res.removed kids hstatus fun g hg => by simp [hf g hg]).congr rfl rfl rfl rfl rfl
  | lost hp hstatus hu hf =>
      exact res.removed kids hstatus fun g hg => by simp [hf g hg]
  | completed hp => exact res.completed kids hp
  | requested => exact res.request _
  | @refusedFirst t _ _ hp =>
      refine res.move kids t rfl rfl rfl (fun u hu => ?_) le_rfl (fun _ _ => rfl)
        (fun u hu => Loop.resumeAt_task_of_ne hu _) (.inr (by simp [Point.child]))
      have hut : u ≠ t := by
        rintro rfl
        simp [hp] at hu
      exact Function.update_of_ne hut _ _
  | @first t _ _ hp => exact res.back kids t rfl rfl rfl rfl (.inl rfl)
  | @waitsAgain t =>
      refine res.move kids t rfl rfl rfl (fun _ _ => rfl) (Nat.le_succ _)
        (fun f hf => by simp [hf.ne]) (fun u hu => ?_) (.inr (by simp [Point.child]))
      exact (Loop.moveTo_task_of_ne hu _).trans (Loop.resumeAt_task_of_ne hu _)
  | @waited t =>
      rw [tell_resume w _ _ x (exitResult_ne _ _)]
      exact res.back kids t rfl rfl rfl rfl (.inr rfl)
  | @checked t =>
      rw [tell_resume w _ _ x (exitResult_ne _ _)]
      exact res.back kids t rfl rfl rfl rfl (.inr rfl)
  | @interrupted t =>
      rw [tell_resume w _ _ x (exitResult_ne _ _)]
      exact res.back kids t rfl rfl rfl rfl (.inr rfl)
  | @joins t u f _ _ hp hthrow =>
      exact (res.join hp (res.throws hp hthrow)).request u
  | @ends t u _ _ o hchild ends =>
      rw [tell_resume w _ _ x ends.not_suspended]
      exact res.back kids t rfl rfl rfl rfl (.inl rfl)

/-- A task that comes back from its `start()` call. -/
theorem start_ends {anyio caught : Bool} (hs : step s (.resume t anyio caught) = some (s', o))
    (hchild : (s.loop.point t).child = some u) (ho : ∀ p, o ≠ .suspended p) :
    StartEnds s t u o ∧ s'.loop = s.loop.resumeAt t .outside := by
  cases step_change hs with
  | refused ha => rcases ha with ⟨_, _, ha⟩ | ⟨_, _, _, ha⟩ <;> cases ha
  | refusedFirst hp => simp [hp, Point.child] at hchild
  | first hp => simp [hp, Point.child] at hchild
  | waitsAgain => exact absurd rfl (ho _)
  | waited hp => simp [hp, Point.child] at hchild
  | checked hp => simp [hp, Point.child] at hchild
  | interrupted hp => simp [hp, Point.child] at hchild
  | joins => exact absurd rfl (ho _)
  | ends hchild' ends =>
      cases hchild.symm.trans hchild'
      exact ⟨ends, rfl⟩

end Steps

section Runs
variable {s s' : Valued τ ε ν} {h : Told τ ν} {t u : τ} {f : FutureId} {b : ValuedAction τ ε ν}
  {r : Result τ ε × Option ν}

theorem Resolved.step (res : Resolved s.group s.result h) (kids : Children s.group)
    (hs : valuedStep s b = some (s', r)) :
    Resolved s'.group s'.result (tell h s b r) ∧ Children s'.group := by
  cases b with
  | call a =>
      obtain ⟨ha, hs⟩ := Option.ite_none_left_eq_some.mp hs
      obtain ⟨⟨next, o⟩, hstep, heq⟩ := Option.map_eq_some_iff.mp hs
      cases heq
      exact ⟨res.change kids s _ (by simpa using ha) hstep, kids.step (step_change hstep)⟩
  | started u value =>
      obtain ⟨⟨next, o⟩, hstep, heq⟩ := Option.map_eq_some_iff.mp hs
      cases heq
      have change := step_change hstep
      refine ⟨?_, kids.step change⟩
      cases change with
      | refused ha => rcases ha with ⟨_, _, ha⟩ | ⟨_, _, _, ha⟩ <;> cases ha
      | @valued _ f hstatus hf =>
          have hstore : s.store u value = Function.update s.result f (some value) := by
            simp [Valued.store, hstatus, hf]
          rw [hstore]
          exact res.valued hstatus hf value
      | @late _ f _ hstatus hf =>
          have hstore : s.store u value = s.result := by simp [Valued.store, hstatus, hf]
          rw [hstore]
          exact res.late hstatus hf value

omit [DecidableEq τ] in
theorem Resolved.initial (python312 : Bool) :
    Resolved (initial τ ε python312) (fun _ => none) (.nothing τ ν) where
  ids _ _ hu := by cases hu
  distinct _ _ _ hu := by cases hu
  waiter _ _ ht := by cases ht
  starting _ _ _ ht := by cases ht
  unresolved _ _ hu := by cases hu
  resolved _ _ hu := by cases hu
  known _ _ := rfl
  fresh _ _ := rfl
  caller _ _ _ ht := by cases ht
  idle _ ht := by cases ht
  calm _ _ _ ht := by cases ht
  joining _ _ ht := by cases ht

theorem Resolved.of_run {python312 : Bool}
    (run : (valuedRecorded τ ε ν).Reachable Machine.anyStep
      (.initial τ ε ν python312, .nothing τ ν) (s, h)) :
    Resolved s.group s.result h ∧ Children s.group :=
  run.invariant_history (I := fun s h => Resolved s.group s.result h ∧ Children s.group)
    ⟨.initial python312, .initial python312⟩ fun _ _ _ _ _ inv _ hs => inv.1.step inv.2 hs

theorem step_of_resume {anyio caught : Bool} {o : Result τ ε} {x : Option ν}
    (hs : valuedStep s (.call (.resume t anyio caught)) = some (s', o, x)) :
    step s.group (.resume t anyio caught) = some (s'.group, o) ∧
      x = s.returned (.resume t anyio caught) o := by
  have hcall : valuedStep s (.call (.resume t anyio caught)) =
      (step s.group (.resume t anyio caught)).map fun r =>
        (⟨r.1, s.result⟩, r.2, s.returned (.resume t anyio caught) r.2) := rfl
  rw [hcall] at hs
  obtain ⟨p, hstep, heq⟩ := Option.map_eq_some_iff.mp hs
  cases heq
  exact ⟨hstep, rfl⟩

/-- `start()` returns the value of the first `started()` call of its child. -/
theorem Resolved.returns (res : Resolved s.group s.result h)
    (hp : s.group.loop.point t = .starting u f) {anyio caught done : Bool} {x : Option ν}
    (hs : valuedStep s (.call (.resume t anyio caught)) = some (s', .returned done, x)) :
    ∃ v, x = some v ∧ h.first u = some v := by
  obtain ⟨hstep, hx⟩ := step_of_resume hs
  have hresult : x = s.result f := by
    rw [hx]
    simp [Valued.returned, hp]
  obtain ⟨ends, -⟩ := start_ends (u := u) hstep (by simp [hp, Point.child]) (by simp)
  cases ends with
  | value hpt hdone hfailure =>
      cases hp.symm.trans hpt
      rcases res.resolved u f (res.starting t u f hp) hdone with
        ⟨-, value, hvalue, hfirst⟩ | ⟨-, e, he, -⟩
      · exact ⟨value, hresult.trans hvalue, hfirst⟩
      · exact absurd (hfailure.symm.trans he) (by simp)

omit [DecidableEq τ] in
theorem finished_of_done {p : Point τ} (hdone : Coroutine.done p = true) : p = .finished := by
  cases p <;> first | rfl | cases hdone

/-- A `start()` call that raises leaves a finished child behind. -/
theorem Resolved.raises (res : Resolved s.group s.result h) (kids : Children s.group)
    (hchild : (s.group.loop.point t).child = some u) {anyio caught : Bool} {e : Exc ε}
    {x : Option ν}
    (hs : valuedStep s (.call (.resume t anyio caught)) = some (s', .raised e, x)) :
    s'.group.loop.point u = .finished := by
  obtain ⟨hstep, -⟩ := step_of_resume hs
  have hwake := (Option.ite_none_right_eq_some.mp hstep).1
  obtain ⟨ends, hloop⟩ := start_ends hstep hchild (by simp)
  have hfinished : s.group.loop.point u = .finished := by
    cases ends with
    | failed hpt hdone hfailure =>
        have hstatus := res.starting t u _ hpt
        rcases res.resolved u _ hstatus hdone with ⟨hnone, -⟩ | ⟨hgone, -⟩
        · exact absurd (hfailure.symm.trans hnone) (by simp)
        · exact kids.ran u (by simp [hstatus]) hgone
    | afterDone _ _ hdone => exact finished_of_done hdone
    | joined _ _ hdone => exact finished_of_done hdone
    | replaced hpt => exact finished_of_done (by simpa [wakeUpQueued, hpt] using hwake)
  have hut : u ≠ t := by
    rintro rfl
    simp [hfinished, Point.child] at hchild
  simpa [hloop, hut] using hfinished

omit [DecidableEq τ] in
/-- The future of a child that has returned without a value fails with the error that says so. -/
theorem Resolved.failure (res : Resolved s.group s.result h)
    (hp : s.group.loop.point t = .starting u f) (hfirst : h.first u = none)
    (hexc : s.group.exception u = none) (hdone : s.group.loop.future f = .finished) :
    s.group.failure f = some (.known exitedWithoutStarted) := by
  rcases res.resolved u f (res.starting t u f hp) hdone with
    ⟨-, value, -, hvalue⟩ | ⟨-, e, he, hnone⟩
  · rw [hfirst] at hvalue
    cases hvalue
  · rw [he, hnone hexc]

omit [DecidableEq τ] in
/-- A caller that was not cancelled still waits for the value, and nothing is thrown at it. -/
theorem Resolved.undisturbed (res : Resolved s.group s.result h)
    (hchild : (s.group.loop.point t).child = some u) (hcalm : h.cancelled t = false) :
    ∃ f, s.group.loop.point t = .starting u f ∧ s.group.loop.throws t = false := by
  cases hp : s.group.loop.point t with
  | starting v f =>
      obtain rfl : v = u := by simpa [hp, Point.child] using hchild
      refine ⟨f, rfl, Bool.eq_false_iff.mpr fun hthrow => ?_⟩
      rw [res.throws hp hthrow] at hcalm
      cases hcalm
  | joining v =>
      rw [(res.joining t v hp).2] at hcalm
      cases hcalm
  | _ => simp [hp, Point.child] at hchild

/-- A `start()` call whose child has returned without calling `started()`, and whose caller was
not cancelled, raises when it ends. -/
theorem Resolved.raises_without_value (res : Resolved s.group s.result h)
    (hchild : (s.group.loop.point t).child = some u) (hexc : s.group.exception u = none)
    (hfirst : h.first u = none) (hcalm : h.cancelled t = false) {anyio caught : Bool}
    {o : Result τ ε} {x : Option ν}
    (hs : valuedStep s (.call (.resume t anyio caught)) = some (s', o, x)) :
    o = .raised (.known exitedWithoutStarted) := by
  obtain ⟨f, hp, hthrow⟩ := res.undisturbed hchild hcalm
  obtain ⟨hstep, -⟩ := step_of_resume hs
  obtain ⟨hwake, hresume⟩ := Option.ite_none_right_eq_some.mp hstep
  have hwaits : s.group.loop.waits t = .future f := by simp [Loop.waits, hp, Coroutine.waits]
  have hdone := (Loop.finished_of_woken hwaits (by simpa [wakeUpQueued, hp] using hwake)
    (by simp [hthrow])).2
  have hfailure := res.failure hp hfirst hexc hdone
  simp only [resume, hp, hthrow, Bool.false_eq_true, if_false, hfailure, Option.some.injEq]
    at hresume
  exact (Prod.mk.inj hresume).2.symm

/-- It does end, once `task_done` of the child has run. -/
theorem Resolved.wakes (res : Resolved s.group s.result h)
    (hchild : (s.group.loop.point t).child = some u) (hcalm : h.cancelled t = false)
    (hgone : u ∉ s.group.doneCallbacks) (anyio caught : Bool) :
    (valuedStep s (.call (.resume t anyio caught))).isSome = true := by
  obtain ⟨f, hp, -⟩ := res.undisturbed hchild hcalm
  have hdone : s.group.loop.future f ≠ .pending := fun hpending =>
    hgone (res.unresolved u f (res.starting t u f hp) hpending).2.2
  have hwake : wakeUpQueued s.group t = true := by
    simp [wakeUpQueued, hp, Loop.wakeUpQueued, Loop.waits, Coroutine.waits, hdone]
  have hstep : TaskGroup.step s.group (.resume t anyio caught) =
      some (resume s.group t anyio caught) := if_pos hwake
  simp [valuedStep, Action.isStarted, hstep]

/-- `start()` returns the value of the first `started()` call of its child. When it raises, its
child is finished. If the child has returned without calling `started()` and the caller was not
cancelled, it raises the error that says so, and does so once `task_done` of the child has run. -/
theorem start_outcome {python312 : Bool}
    (run : (valuedRecorded τ ε ν).Reachable Machine.anyStep
      (.initial τ ε ν python312, .nothing τ ν) (s, h)) :
    (∀ t u f anyio caught s' done x, s.group.loop.point t = .starting u f →
      valuedStep s (.call (.resume t anyio caught)) = some (s', .returned done, x) →
        ∃ v, x = some v ∧ h.first u = some v) ∧
    (∀ t u anyio caught s' e x, (s.group.loop.point t).child = some u →
      valuedStep s (.call (.resume t anyio caught)) = some (s', .raised e, x) →
        s'.group.loop.point u = .finished) ∧
    ∀ t u anyio caught, (s.group.loop.point t).child = some u →
      s.group.loop.point u = .finished → s.group.exception u = none → h.first u = none →
        h.cancelled t = false →
          (u ∉ s.group.doneCallbacks →
            (valuedStep s (.call (.resume t anyio caught))).isSome = true) ∧
          ∀ s' o x, valuedStep s (.call (.resume t anyio caught)) = some (s', o, x) →
            o = .raised (.known exitedWithoutStarted) := by
  obtain ⟨res, kids⟩ := Resolved.of_run run
  refine ⟨?_, ?_, ?_⟩
  · intro t u f anyio caught s' done x hp hs
    exact res.returns hp hs
  · intro t u anyio caught s' e x hchild hs
    exact res.raises kids hchild hs
  · intro t u anyio caught hchild _ hexc hfirst hcalm
    exact ⟨fun hgone => res.wakes hchild hcalm hgone anyio caught,
      fun s' o x hs => res.raises_without_value hchild hexc hfirst hcalm hs⟩

end Runs

/-- A child of the group. -/
def service : Func where
  module := some "app"
  qualname := "service"

/-- The child 1 has called `started(7)` and then `started(8)`. -/
def startedOnce : Valued (Fin 3) Unit Nat × Told (Fin 3) Nat :=
  ((valuedRecorded (Fin 3) Unit Nat).exec Machine.anyStep
    (.initial (Fin 3) Unit Nat true, .nothing (Fin 3) Nat)
    [.call (.createTask 0), .call (.resume 0 false false), .call (.aenter 0),
      .call (.start 0 service 1), .call (.resume 1 false false), .started 1 7, .started 1 8]).get
    (by decide)

theorem start_outcome_startedOnce :
    ∃ s' x, valuedStep startedOnce.1 (.call (.resume 0 false false)) =
        some (s', .returned true, x) ∧ ∃ v, x = some v ∧ startedOnce.2.first 1 = some v := by
  have run : (valuedRecorded (Fin 3) Unit Nat).Reachable Machine.anyStep
      (.initial (Fin 3) Unit Nat true, .nothing (Fin 3) Nat) startedOnce :=
    Machine.exec_get_reachable _ _ _
  have outcome := start_outcome (s := startedOnce.1) (h := startedOnce.2) run
  exact ⟨_, some 7, rfl, outcome.1 0 1 0 false false _ true (some 7) rfl rfl⟩

end Anyio.TaskGroup
