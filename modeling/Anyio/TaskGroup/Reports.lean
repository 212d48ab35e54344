import Anyio.TaskGroup.Calls

/-!
# Where the exceptions of the children go

`task_done` puts the exception of a child into `_exceptions` or into the
future of its `start()` call, and a cancelled `start()` raises what the child
raises that it joins. In the runs in which every cancellation comes in time,
each exception takes one of these ways once.
-/

namespace Anyio.TaskGroup

open Asyncio Library

variable {τ ε : Type*}

/-- What the futures of the `start()` calls and the history say about each other. -/
structure Routed (s : State τ ε) (h : History τ ε) : Prop where
  started : ∀ u ∈ h.started, ∃ f, s.taskStatus u = some (some f)
  known : ∀ f e, s.failure f = some e → f < s.loop.nextFuture
  value : ∀ u f, s.taskStatus u = some (some f) →
    (u ∈ h.started ↔ s.loop.future f = .finished ∧ s.failure f = none)
  failed : ∀ u f e, s.taskStatus u = some (some f) → s.failure f = some e →
    s.loop.future f = .finished ∧ u ∉ s.doneCallbacks ∧ ∀ e', s.exception u = some e' → e = e'
  answered : ∀ u f, s.taskStatus u = some (some f) → u ∉ s.doneCallbacks →
    s.loop.future f ≠ .pending
  going : ∀ u f, s.taskStatus u = some (some f) →
    (∃ t, (s.loop.point t).child = some u) ∨ u ∈ h.ended.map Prod.fst
  settled : ∀ u ∈ h.ended.map Prod.fst, (∀ t, (s.loop.point t).child ≠ some u) ∧
    ∃ f, s.taskStatus u = some (some f) ∧ s.loop.future f ≠ .pending
  returned : ∀ u, (u, none) ∈ h.ended → u ∈ h.started
  raised : ∀ u e, (u, some e) ∈ h.ended → u ∉ h.started ∧ s.loop.point u = .finished ∧
    ∀ e', s.exception u = some e' → e'.isCancelled = false → e = e'
  once : (h.ended.map Prod.fst).Nodup

section Routed
variable {s s' : State τ ε} {h : History τ ε} {t u : τ} {f : FutureId} {a : Action τ ε}
  {o : Result τ ε}

/-- No child is added, no future gets a value or a failure and no `start()` call ends. -/
theorem Routed.frame (routed : Routed s h) (kids : Children s)
    (hstatus : s'.taskStatus = s.taskStatus) (hnext : s.loop.nextFuture ≤ s'.loop.nextFuture)
    (hfailure : s'.failure = s.failure)
    (hfuture : ∀ u f, s.taskStatus u = some (some f) → s'.loop.future f = s.loop.future f ∨
      s.loop.future f = .pending ∧ s'.loop.future f = .cancelled)
    (hdone : ∀ u, u ∉ s'.doneCallbacks → u ∈ s.doneCallbacks →
      ∀ f, s.taskStatus u = some (some f) → s.loop.future f ≠ .pending)
    (hmono : ∀ u ∈ s'.doneCallbacks, u ∈ s.doneCallbacks)
    (hchild : ∀ t, (s'.loop.point t).child = (s.loop.point t).child)
    (hover : ∀ u, s.loop.point u = .finished →
      s'.loop.point u = .finished ∧ s'.exception u = s.exception u) : Routed s' h := by
  have hpending : ∀ u f, s.taskStatus u = some (some f) → s.loop.future f ≠ .pending →
      s'.loop.future f = s.loop.future f := by
    intro u f hu hf
    rcases hfuture u f hu with h | ⟨h, -⟩
    · exact h
    · exact absurd h hf
  refine ⟨fun u hu => hstatus ▸ routed.started u hu, fun f e hf => ?_, fun u f hu => ?_,
    fun u f e hu hf => ?_, fun u f hu hout => ?_, fun u f hu => ?_, fun u hu => ?_,
    routed.returned, fun u e hu => ?_, routed.once⟩
  · exact Nat.lt_of_lt_of_le (routed.known f e (hfailure ▸ hf)) hnext
  · rw [hstatus] at hu
    rw [routed.value u f hu, hfailure]
    rcases hfuture u f hu with h | ⟨hold, hnew⟩
    · rw [h]
    · simp [hold, hnew]
  · rw [hstatus] at hu
    rw [hfailure] at hf
    obtain ⟨hfin, hout, hexc⟩ := routed.failed u f e hu hf
    have hpoint := kids.ran u (by simp [hu]) hout
    rw [hpending u f hu (by simp [hfin]), (hover u hpoint).2]
    exact ⟨hfin, fun hmem => hout (hmono u hmem), hexc⟩
  · rw [hstatus] at hu
    have hne : s.loop.future f ≠ .pending := by
      by_cases hmem : u ∈ s.doneCallbacks
      · exact hdone u hout hmem f hu
      · exact routed.answered u f hu hmem
    rwa [hpending u f hu hne]
  · rw [hstatus] at hu
    simp only [hchild]
    exact routed.going u f hu
  · obtain ⟨hnobody, f, hf, hne⟩ := routed.settled u hu
    simp only [hchild]
    exact ⟨hnobody, f, hstatus ▸ hf, by rwa [hpending u f hf hne]⟩
  · obtain ⟨hout, hpoint, hexc⟩ := routed.raised u e hu
    rw [(hover u hpoint).2]
    exact ⟨hout, (hover u hpoint).1, hexc⟩

/-- The future of the `start()` call of `u` gets a value. -/
theorem Routed.valued (routed : Routed s h) (aw : Awaits s)
    (hu : s.taskStatus u = some (some f)) (hf : s.loop.future f = .pending) :
    Routed { s with loop := { s.loop with future := Function.update s.loop.future f .finished } }
      { h with started := h.started ++ [u] } := by
  have hother : ∀ v g, s.taskStatus v = some (some g) → v ≠ u → g ≠ f := by
    rintro v g hv hvu rfl
    exact hvu (aw.distinct v u g hv hu)
  have hnone : s.failure f = none := by
    cases hfail : s.failure f with
    | none => rfl
    | some e => simp [(routed.failed u f e hu hfail).1] at hf
  refine ⟨fun v hv => ?_, routed.known, fun v g hv => ?_, fun v g e hv hg => ?_,
    fun v g hv hout => ?_, routed.going, fun v hv => ?_, fun v hv => ?_, fun v e hv => ?_,
    routed.once⟩
  · rcases List.mem_append.mp hv with hv | hv
    · exact routed.started v hv
    · exact ⟨f, List.mem_singleton.mp hv ▸ hu⟩
  · by_cases hvu : v = u
    · obtain rfl : f = g := by simpa [hvu, hu] using hv
      simp [hvu, hnone]
    · simp [hvu, hother v g hv hvu, routed.value v g hv]
  · have hgf : g ≠ f := by
      rintro rfl
      rw [hnone] at hg
      cases hg
    simpa [hgf] using routed.failed v g e hv hg
  · by_cases hgf : g = f
    · simp [hgf]
    · simpa [hgf] using routed.answered v g hv hout
  · obtain ⟨hnobody, g, hg, hne⟩ := routed.settled v hv
    refine ⟨hnobody, g, hg, ?_⟩
    by_cases hgf : g = f
    · simp [hgf]
    · simpa [hgf] using hne
  · exact List.mem_append_left _ (routed.returned v hv)
  · obtain ⟨hout, hpoint, hexc⟩ := routed.raised v e hv
    refine ⟨fun hmem => ?_, hpoint, hexc⟩
    rcases List.mem_append.mp hmem with hmem | hmem
    · exact hout hmem
    · -- the call of `u` is not over while its future is pending
      obtain rfl : v = u := List.mem_singleton.mp hmem
      obtain ⟨-, g, hg, hne⟩ := routed.settled v (List.mem_map.mpr ⟨_, hv, rfl⟩)
      obtain rfl : f = g := by simpa [hu] using hg
      exact hne hf

variable [DecidableEq τ]

/-- The callback of `u` puts the exception `e` into the future of its `start()` call. -/
theorem Routed.fail (routed : Routed s h) (aw : Awaits s) (kids : Children s)
    (hp : s.loop.point u = .finished) (hu : s.taskStatus u = some (some f))
    (hf : s.loop.future f = .pending) {e : Exc ε}
    (he : ∀ e', s.exception u = some e' → e = e') :
    Routed (setException (removed s u) f e) h := by
  have hother : ∀ v g, s.taskStatus v = some (some g) → v ≠ u → g ≠ f := by
    rintro v g hv hvu rfl
    exact hvu (aw.distinct v u g hv hu)
  have hsame : ∀ v, s.taskStatus v = some (some f) → v = u := fun v hv => aw.distinct v u f hv hu
  have hfuture : ∀ g, (setException (removed s u) f e).loop.future g =
      if g = f then .finished else s.loop.future g := by
    intro g
    simp [setException, removed, Loop.setEvent_future, hf]
  have hpoint : ∀ v, (setException (removed s u) f e).loop.point v = s.loop.point v := by
    simp [setException, removed]
  have hnotin : u ∉ s.doneCallbacks.erase u := kids.once.not_mem_erase
  refine ⟨routed.started, fun g e' hg => ?_, fun v g hv => ?_, fun v g e' hv hg => ?_,
    fun v g hv hout => ?_, fun v g hv => ?_, fun v hv => ?_, routed.returned, fun v e' hv => ?_,
    routed.once⟩
  · have hlt : g < s.loop.nextFuture := by
      by_cases hgf : g = f
      · exact hgf ▸ aw.ids u f hu
      · exact routed.known g e' (by simpa [setException, removed, hgf] using hg)
    simpa [setException, removed] using hlt
  · have hv : s.taskStatus v = some (some g) := hv
    rw [routed.value v g hv, hfuture]
    by_cases hgf : g = f
    · simp [setException, hgf, hf]
    · simp [setException, removed, hgf]
  · have hv : s.taskStatus v = some (some g) := hv
    rw [hfuture]
    by_cases hgf : g = f
    · obtain rfl := hsame v (hgf ▸ hv)
      obtain rfl : e = e' := by simpa [setException, hgf] using hg
      exact ⟨if_pos hgf, hnotin, he⟩
    · have hold := routed.failed v g e' hv (by simpa [setException, removed, hgf] using hg)
      rw [if_neg hgf]
      exact ⟨hold.1, fun hmem => hold.2.1 (List.mem_of_mem_erase hmem), hold.2.2⟩
  · have hv : s.taskStatus v = some (some g) := hv
    rw [hfuture]
    by_cases hvu : v = u
    · obtain rfl : f = g := by simpa [hvu, hu] using hv
      simp
    · rw [if_neg (hother v g hv hvu)]
      exact routed.answered v g hv fun hmem => hout ((List.mem_erase_of_ne hvu).mpr hmem)
  · simp only [hpoint]
    exact routed.going v g hv
  · obtain ⟨hnobody, g, hg, hne⟩ := routed.settled v hv
    simp only [hpoint]
    refine ⟨hnobody, g, hg, ?_⟩
    rw [hfuture]
    split_ifs
    · simp
    · exact hne
  · rw [hpoint]
    exact routed.raised v e' hv

/-- A child is added that has no future. -/
theorem Routed.added (routed : Routed s h) (hu : s.loop.point u = .unborn)
    (hnone : s.taskStatus u = none) : Routed (added s u none) h := by
  have hpoint : ∀ v, (TaskGroup.added s u none).loop.point v =
      if v = u then .created else s.loop.point v := fun v => by simp [TaskGroup.added]
  have hchild : ∀ v, ((TaskGroup.added s u none).loop.point v).child =
      (s.loop.point v).child := by
    intro v
    rw [hpoint]
    split_ifs with hvu
    · simp [hvu, hu, Point.child]
    · rfl
  have hstatus : ∀ v f, (TaskGroup.added s u none).taskStatus v = some (some f) ↔
      s.taskStatus v = some (some f) := by
    intro v f
    by_cases hvu : v = u
    · simp [TaskGroup.added, hvu, hnone]
    · simp [TaskGroup.added, hvu]
  have hmem : ∀ v f, s.taskStatus v = some (some f) →
      (v ∉ (TaskGroup.added s u none).doneCallbacks ↔ v ∉ s.doneCallbacks) := by
    intro v f hv
    have hvu : v ≠ u := by
      rintro rfl
      rw [hnone] at hv
      cases hv
    simp [TaskGroup.added, hvu]
  refine ⟨fun v hv => ?_, routed.known, fun v f hv => ?_, fun v f e hv hf => ?_,
    fun v f hv hout => ?_, fun v f hv => ?_, fun v hv => ?_, routed.returned, fun v e hv => ?_,
    routed.once⟩
  · obtain ⟨f, hf⟩ := routed.started v hv
    exact ⟨f, (hstatus v f).mpr hf⟩
  · exact routed.value v f ((hstatus v f).mp hv)
  · rw [hmem v f ((hstatus v f).mp hv)]
    exact routed.failed v f e ((hstatus v f).mp hv) hf
  · have hv := (hstatus v f).mp hv
    exact routed.answered v f hv ((hmem v f hv).mp hout)
  · simp only [hchild]
    exact routed.going v f ((hstatus v f).mp hv)
  · obtain ⟨hnobody, f, hf, hne⟩ := routed.settled v hv
    simp only [hchild]
    exact ⟨hnobody, f, (hstatus v f).mpr hf, hne⟩
  · obtain ⟨hout, hfin, hexc⟩ := routed.raised v e hv
    have hvu : v ≠ u := by
      rintro rfl
      rw [hu] at hfin
      cases hfin
    exact ⟨hout, by rw [hpoint, if_neg hvu, hfin], hexc⟩

/-- Task `t` calls `start()`, which creates the child `u` and its future. -/
theorem Routed.starts (routed : Routed s h) (aw : Awaits s) (ht : s.loop.point t = .outside)
    (hu : s.loop.point u = .unborn) (hnone : s.taskStatus u = none) :
    Routed { TaskGroup.added { s with loop := s.loop.createFuture } u (some s.loop.nextFuture) with
      loop := (s.loop.createFuture.moveTo u .created).moveTo t
        (.starting u s.loop.nextFuture) } h := by
  generalize hs : ({ TaskGroup.added { s with loop := s.loop.createFuture } u
    (some s.loop.nextFuture) with
      loop := (s.loop.createFuture.moveTo u .created).moveTo t
        (.starting u s.loop.nextFuture) } : State τ ε) = s'
  have hstatus : ∀ v f, s'.taskStatus v = some (some f) →
      v = u ∧ f = s.loop.nextFuture ∨ v ≠ u ∧ s.taskStatus v = some (some f) := by
    subst hs
    intro v f hv
    by_cases hvu : v = u
    · exact .inl ⟨hvu, by simpa [TaskGroup.added, hvu, eq_comm] using hv⟩
    · exact .inr ⟨hvu, by simpa [TaskGroup.added, hvu] using hv⟩
  have hkept : ∀ v f, s.taskStatus v = some (some f) →
      v ≠ u ∧ s'.taskStatus v = some (some f) ∧ s'.loop.future f = s.loop.future f := by
    subst hs
    intro v f hv
    have hvu : v ≠ u := by
      rintro rfl
      rw [hnone] at hv
      cases hv
    exact ⟨hvu, by simpa [TaskGroup.added, hvu] using hv, by simp [(aw.ids v f hv).ne]⟩
  have hchild : ∀ v, (s'.loop.point v).child =
      if v = t then some u else (s.loop.point v).child := by
    subst hs
    intro v
    by_cases hvt : v = t
    · simp [hvt, Point.child]
    · by_cases hvu : v = u
      · simp [hvu ▸ hvt, hvu, hu, Point.child]
      · simp [hvt, hvu]
  have hpoint : ∀ v, s.loop.point v = .finished → s'.loop.point v = .finished := by
    subst hs
    intro v hv
    have hvt : v ≠ t := by
      rintro rfl
      rw [ht] at hv
      cases hv
    have hvu : v ≠ u := by
      rintro rfl
      rw [hu] at hv
      cases hv
    simp [hvt, hvu, hv]
  have hdone : ∀ v, v ≠ u → (v ∉ s'.doneCallbacks ↔ v ∉ s.doneCallbacks) := by
    subst hs
    intro v hvu
    simp [TaskGroup.added, hvu]
  have hself : u ∈ s'.doneCallbacks := by
    subst hs
    exact List.mem_cons_self
  have hfailure : s'.failure = s.failure := by subst hs; rfl
  have hexception : s'.exception = s.exception := by subst hs; rfl
  have hnext : s'.loop.nextFuture = s.loop.nextFuture + 1 := by subst hs; rfl
  have hfresh : s'.loop.future s.loop.nextFuture = .pending := by subst hs; simp
  refine ⟨fun v hv => ?_, fun f e hf => ?_, fun v f hv => ?_, fun v f e hv hf => ?_,
    fun v f hv hout => ?_, fun v f hv => ?_, fun v hv => ?_, routed.returned, fun v e hv => ?_,
    routed.once⟩
  · obtain ⟨f, hf⟩ := routed.started v hv
    exact ⟨f, (hkept v f hf).2.1⟩
  · rw [hnext]
    exact Nat.lt_succ_of_lt (routed.known f e (hfailure ▸ hf))
  · rcases hstatus v f hv with ⟨rfl, rfl⟩ | ⟨-, hv⟩
    · refine iff_of_false (fun hmem => ?_) (by simp [hfresh])
      obtain ⟨f, hf⟩ := routed.started v hmem
      rw [hnone] at hf
      cases hf
    · rw [(hkept v f hv).2.2, hfailure]
      exact routed.value v f hv
  · rw [hfailure] at hf
    rcases hstatus v f hv with ⟨rfl, rfl⟩ | ⟨hvu, hv⟩
    · exact absurd (routed.known _ e hf) (lt_irrefl _)
    · rw [(hkept v f hv).2.2, hexception, hdone v hvu]
      exact routed.failed v f e hv hf
  · rcases hstatus v f hv with ⟨rfl, rfl⟩ | ⟨hvu, hv⟩
    · exact absurd hself hout
    · rw [(hkept v f hv).2.2]
      exact routed.answered v f hv ((hdone v hvu).mp hout)
  · rcases hstatus v f hv with ⟨rfl, rfl⟩ | ⟨-, hv⟩
    · exact .inl ⟨t, by rw [hchild, if_pos rfl]⟩
    · apply (routed.going v f hv).imp_left
      rintro ⟨w, hw⟩
      have hwt : w ≠ t := by
        rintro rfl
        simp [ht, Point.child] at hw
      exact ⟨w, by rw [hchild, if_neg hwt, hw]⟩
  · obtain ⟨hnobody, f, hf, hne⟩ := routed.settled v hv
    obtain ⟨hvu, hf', hfuture⟩ := hkept v f hf
    refine ⟨fun w hw => ?_, f, hf', hfuture ▸ hne⟩
    rw [hchild] at hw
    split_ifs at hw
    · exact hvu (Option.some.inj hw).symm
    · exact hnobody w hw
  · obtain ⟨hout, hfin, hexc⟩ := routed.raised v e hv
    rw [hexception]
    exact ⟨hout, hpoint v hfin, hexc⟩

/-- The `start()` call of the child `u` that task `t` is in ends. -/
theorem Routed.endCall (routed : Routed s h) (aw : Awaits s)
    (hchild : (s.loop.point t).child = some u) (exc : Option (Exc ε))
    (hfuture : ∃ f, s.taskStatus u = some (some f) ∧ s.loop.future f ≠ .pending)
    (hreturned : exc = none → u ∈ h.started)
    (hraised : ∀ e, exc = some e → u ∉ h.started ∧ s.loop.point u = .finished ∧
      ∀ e', s.exception u = some e' → e'.isCancelled = false → e = e') :
    Routed { s with loop := s.loop.resumeAt t .outside }
      { h with ended := h.ended ++ [(u, exc)] } := by
  have hold : ∀ v, ((s.loop.resumeAt t .outside).point v).child =
      if v = t then none else (s.loop.point v).child := by
    intro v
    by_cases hvt : v = t <;> simp [hvt, Point.child]
  have hfinished : ∀ v, s.loop.point v = .finished →
      (s.loop.resumeAt t .outside).point v = .finished := by
    intro v hv
    have hvt : v ≠ t := by
      rintro rfl
      simp [hv, Point.child] at hchild
    simp [hvt, hv]
  have hnotyet : u ∉ h.ended.map Prod.fst := fun hmem => (routed.settled u hmem).1 t hchild
  refine ⟨routed.started, routed.known, routed.value, routed.failed, routed.answered,
    fun v f hv => ?_, fun v hv => ?_, fun v hv => ?_, fun v e hv => ?_, ?_⟩
  · rw [List.map_append, List.mem_append]
    rcases routed.going v f hv with ⟨w, hw⟩ | hend
    · by_cases hwt : w = t
      · obtain rfl : u = v := Option.some.inj (hchild.symm.trans (hwt ▸ hw))
        exact .inr (.inr (List.mem_singleton_self _))
      · exact .inl ⟨w, by rw [hold, if_neg hwt, hw]⟩
    · exact .inr (.inl hend)
  · have hnobody : ∀ w, (if w = t then none else (s.loop.point w).child) ≠ some v := by
      intro w hw
      split_ifs at hw with hwt
      rw [List.map_append, List.mem_append] at hv
      rcases hv with hv | hv
      · exact (routed.settled v hv).1 w hw
      · obtain rfl : v = u := List.mem_singleton.mp hv
        exact hwt (aw.caller w t v hw hchild)
    simp only [hold]
    refine ⟨hnobody, ?_⟩
    rw [List.map_append, List.mem_append] at hv
    rcases hv with hv | hv
    · exact (routed.settled v hv).2
    · exact List.mem_singleton.mp hv ▸ hfuture
  · rcases List.mem_append.mp hv with hv | hv
    · exact routed.returned v hv
    · obtain ⟨rfl, hexc⟩ := Prod.mk.inj (List.mem_singleton.mp hv)
      exact hreturned hexc.symm
  · rcases List.mem_append.mp hv with hv | hv
    · obtain ⟨hout, hfin, hexc⟩ := routed.raised v e hv
      exact ⟨hout, hfinished v hfin, hexc⟩
    · obtain ⟨rfl, hexc⟩ := Prod.mk.inj (List.mem_singleton.mp hv)
      obtain ⟨hout, hfin, hexc⟩ := hraised e hexc.symm
      exact ⟨hout, hfinished v hfin, hexc⟩
  · rw [List.map_append, List.nodup_append]
    refine ⟨routed.once, List.nodup_singleton _, ?_⟩
    rintro v hv w hw rfl
    obtain rfl : v = u := List.mem_singleton.mp hw
    exact hnotyet hv

omit [DecidableEq τ] in
/-- What a joined child raises is what `start()` raises. -/
theorem joined_eq (hwhole : raisesWhole s u = true) {e : Exc ε} (he : s.exception u = some e)
    (hcancelled : e.isCancelled = false) (anyio : Bool) : joined s u anyio = e := by
  have hsuppress : suppressCancelled s.python312 e = some e := by
    unfold suppressCancelled
    rw [if_neg (by simp [hcancelled])]
    split_ifs with hpython
    · apply e.withoutCancelled_eq
      simpa [raisesWhole, he, hcancelled, hpython] using hwhole
    · rfl
  simp [joined, he, hsuppress]

omit [DecidableEq τ] in
theorem done_iff {p : Point τ} : Coroutine.done p = true ↔ p = .finished := by
  cases p <;> simp [Coroutine.done]

/-- What a `start()` call ends with is the value or the exception of its child. -/
theorem Routed.ends (routed : Routed s h) (kids : Children s) (aw : Awaits s)
    (hchild : (s.loop.point t).child = some u) (ok : CallInTime s t (s.loop.point t))
    (ends : StartEnds s t u o) :
    ∃ exc, Routed { s with loop := s.loop.resumeAt t .outside }
      { h with ended := h.ended ++ [(u, exc)] } ∧ (o = .returned true ∧ exc = none ∨
        ∃ e, o = .raised e ∧ exc = some e) := by
  -- the future was cancelled, so no value came
  have joins : ∀ u f anyio, s.taskStatus u = some (some f) → s.loop.future f = .cancelled →
      Coroutine.done (s.loop.point u) = true → raisesWhole s u = true →
      (s.loop.point t).child = some u →
      Routed { s with loop := s.loop.resumeAt t .outside }
        { h with ended := h.ended ++ [(u, some (joined s u anyio))] } := by
    intro u f anyio hu hcancelled hdone hwhole hchild
    refine routed.endCall aw hchild _ ⟨f, hu, by simp [hcancelled]⟩ (by simp) ?_
    rintro e ⟨rfl⟩
    refine ⟨fun hmem => ?_, done_iff.mp hdone, fun e' he' hne => joined_eq hwhole he' hne anyio⟩
    simp [((routed.value u f hu).mp hmem).1] at hcancelled
  cases ends with
  | @value f hp hdone hf =>
      have hu := aw.starting t u f hp
      have hvalue := (routed.value u f hu).mpr ⟨hdone, hf⟩
      exact ⟨none, routed.endCall aw hchild none ⟨f, hu, by simp [hdone]⟩ (fun _ => hvalue)
        (by simp), .inl ⟨rfl, rfl⟩⟩
  | @failed f e hp hdone hf =>
      have hu := aw.starting t u f hp
      obtain ⟨-, hout, hexc⟩ := routed.failed u f e hu hf
      have hnot : u ∉ h.started := fun hmem => by simp [((routed.value u f hu).mp hmem).2] at hf
      refine ⟨some e, routed.endCall aw hchild _ ⟨f, hu, by simp [hdone]⟩ (by simp) ?_,
        .inr ⟨e, rfl, rfl⟩⟩
      rintro e ⟨rfl⟩
      exact ⟨hnot, kids.ran u (by simp [hu]) hout, fun e' he' _ => hexc e' he'⟩
  | @afterDone f anyio hp hthrow hdone =>
      have hu := aw.starting t u f hp
      have hcancelled := (aw.throws_iff hp).mp hthrow
      rw [hp] at ok
      exact ⟨_, joins u f anyio hu hcancelled hdone (ok hthrow).2 hchild, .inr ⟨_, rfl, rfl⟩⟩
  | @joined anyio hp _ hdone =>
      obtain ⟨f, hu, hcancelled⟩ := aw.joining t u hp
      rw [hp] at ok
      exact ⟨_, joins u f anyio hu hcancelled hdone ok hchild, .inr ⟨_, rfl, rfl⟩⟩
  | replaced hp hthrow =>
      rw [aw.joining_clear hp] at hthrow
      cases hthrow

omit [DecidableEq τ] in
/-- No callback runs, and no child that is finished moves. -/
theorem Routed.same (routed : Routed s h) (kids : Children s)
    (hstatus : s'.taskStatus = s.taskStatus) (hnext : s.loop.nextFuture ≤ s'.loop.nextFuture)
    (hfailure : s'.failure = s.failure)
    (hfuture : ∀ u f, s.taskStatus u = some (some f) → s'.loop.future f = s.loop.future f ∨
      s.loop.future f = .pending ∧ s'.loop.future f = .cancelled)
    (hdone : s'.doneCallbacks = s.doneCallbacks)
    (hchild : ∀ t, (s'.loop.point t).child = (s.loop.point t).child)
    (hover : ∀ u, s.loop.point u = .finished →
      s'.loop.point u = .finished ∧ s'.exception u = s.exception u) : Routed s' h :=
  routed.frame kids hstatus hnext hfailure hfuture
    (fun _ hout hmem => absurd (hdone ▸ hmem) hout) (fun _ hu => hdone ▸ hu) hchild hover

/-- Task `t` moves outside of the `start()` calls. -/
theorem Routed.walk (routed : Routed s h) (kids : Children s) (aw : Awaits s) (t : τ)
    (hstatus : s'.taskStatus = s.taskStatus) (hnext : s.loop.nextFuture ≤ s'.loop.nextFuture)
    (hfailure : s'.failure = s.failure)
    (hfuture : ∀ f, f < s.loop.nextFuture → s'.loop.future f = s.loop.future f)
    (hdone : s'.doneCallbacks = s.doneCallbacks)
    (hother : ∀ u, u ≠ t → s'.loop.point u = s.loop.point u)
    (hold : (s.loop.point t).child = none) (hnew : (s'.loop.point t).child = none)
    (hfin : s.loop.point t ≠ .finished) (hexc : ∀ u, u ≠ t → s'.exception u = s.exception u) :
    Routed s' h := by
  refine routed.same kids hstatus hnext hfailure (fun u f hu => .inl (hfuture f (aw.ids u f hu)))
    hdone (fun u => ?_) fun u hu => ?_
  · by_cases hut : u = t
    · rw [hut, hold, hnew]
    · rw [hother u hut]
  · have hut : u ≠ t := fun hut => hfin (hut ▸ hu)
    exact ⟨(hother u hut).trans hu, hexc u hut⟩

theorem Routed.departs {m : State τ ε} (routed : Routed s h) (kids : Children s) (aw : Awaits s)
    (hstatus : m.taskStatus = s.taskStatus) (hfailure : m.failure = s.failure)
    (hdone : m.doneCallbacks = s.doneCallbacks) (hexc : m.exception = s.exception)
    (hloop : m.loop = s.loop.resumeAt t .outside) (hexit : (s.loop.point t).isExit = true)
    (active : Bool) : Routed (departed m t active) h := by
  have hchild : (s.loop.point t).child = none := by
    cases hp : s.loop.point t <;> simp_all [Point.isExit, Point.child]
  have hfinished : s.loop.point t ≠ .finished := by
    intro h
    simp [h, Point.isExit] at hexit
  exact routed.walk kids aw t hstatus (by simp [departed, hloop]) hfailure
    (fun f _ => by simp [departed, hloop]) hdone (fun u hu => by simp [departed, hloop, hu])
    hchild (by simp [departed, Point.child]) hfinished fun u _ => congrFun hexc u

/-- The callback of `u` runs and leaves its future as it is. -/
theorem Routed.removed (routed : Routed s h) (kids : Children s)
    (hf : ∀ f, s.taskStatus u = some (some f) → s.loop.future f ≠ .pending)
    (hl : s'.loop = s.loop) (hstatus : s'.taskStatus = s.taskStatus)
    (hfailure : s'.failure = s.failure) (hexc : s'.exception = s.exception)
    (hdone : s'.doneCallbacks = s.doneCallbacks.erase u) : Routed s' h := by
  refine routed.frame kids hstatus (by rw [hl]) hfailure (fun _ _ _ => .inl (by rw [hl]))
    (fun v hout hmem f hv => ?_) (fun v hv => ?_) (fun _ => by rw [hl])
    fun v hv => ⟨by rw [hl, hv], by rw [hexc]⟩
  · have hvu : v = u := by
      by_contra hvu
      exact hout (hdone ▸ (List.mem_erase_of_ne hvu).mpr hmem)
    exact hf f (hvu ▸ hv)
  · exact List.mem_of_mem_erase (hdone ▸ hv)

omit [DecidableEq τ] in
theorem Routed.hostExc (routed : Routed s h) (exc : Option (Exc ε)) :
    Routed s { h with hostExc := exc } :=
  ⟨routed.started, routed.known, routed.value, routed.failed, routed.answered, routed.going,
    routed.settled, routed.returned, routed.raised, routed.once⟩

omit [DecidableEq τ] in
/-- A step of a task outside of `start()` ends no call. -/
theorem record_resume (hchild : (s.loop.point t).child = none) (anyio caught : Bool) :
    record h s (.resume t anyio caught) o = h := by
  cases o <;> simp [record, hchild, History.endCall]

theorem Routed.step (routed : Routed s h) (kids : Children s) (aw : Awaits s) (ok : InTime s a)
    (change : Change s a s' o) : Routed s' (record h s a o) := by
  cases change with
  | refused ha =>
      rcases ha with ⟨func, u, rfl⟩ | ⟨t, func, u, rfl⟩ <;> exact routed
  | @created t hp =>
      exact routed.walk kids aw t rfl le_rfl rfl (fun _ _ => rfl) rfl (fun u hu => by simp [hu])
        (by simp [hp, Point.child]) (by simp [Point.child]) (by simp [hp]) fun _ _ => rfl
  | entered =>
      exact routed.same kids rfl le_rfl rfl (fun _ _ _ => .inl rfl) rfl (fun _ => rfl)
        fun _ hu => ⟨hu, rfl⟩
  | @checks t excVal _ _ hp =>
      refine Routed.hostExc ?_ excVal
      exact routed.walk kids aw t (by simp) le_rfl (by simp) (fun _ _ => rfl) (by simp)
        (fun u hu => by simp [hu]) (by simp [hp, Point.child]) (by simp [Point.child])
        (by simp [hp]) (by simp)
  | @waits t excVal _ _ hp =>
      refine Routed.hostExc ?_ excVal
      exact routed.walk kids aw t (by simp) (Nat.le_succ _) (by simp)
        (fun f hf => by simp [hf.ne]) (by simp) (fun u hu => by simp [hu])
        (by simp [hp, Point.child]) (by simp [Point.child]) (by simp [hp]) (by simp)
  | spawned _ hp => exact routed.added hp (kids.unspawned hp)
  | starts _ ht hp => exact routed.starts aw ht hp (kids.unspawned hp)
  | @valued u f hu hf =>
      have hawaits : awaitsValue s u = true := by simp [awaitsValue, hu, hf]
      simpa [record, hawaits] using routed.valued aw hu hf
  | @late u f o hu hf =>
      have hawaits : awaitsValue s u = false := by simp [awaitsValue, hu, hf]
      simpa [record, hawaits] using routed
  | @finished t exc hp =>
      exact routed.walk kids aw t rfl le_rfl rfl (fun _ _ => rfl) rfl (fun u hu => by simp [hu])
        (by simp [hp, Point.child]) (by simp [Point.child]) (by simp [hp])
        fun u hu => by simp [hu]
  | unreported _ hstatus _ hf =>
      exact routed.removed kids (fun f hu => hf f (Option.some.inj (hstatus.symm.trans hu))) rfl rfl
        rfl rfl rfl
  | failed hp hstatus _ hf he => exact routed.fail aw kids hp hstatus hf he
  | reported _ hstatus _ hf =>
      exact routed.removed kids
        (fun f hu => by simp [hf f (Option.some.inj (hstatus.symm.trans hu))]) rfl rfl rfl rfl rfl
  | lost _ hstatus _ hf =>
      exact routed.removed kids
        (fun f hu => by simp [hf f (Option.some.inj (hstatus.symm.trans hu))]) rfl rfl rfl rfl rfl
  | @completed t u f hp =>
      -- the waiter is not the future of a `start()` call
      refine routed.same kids rfl ?_ rfl (fun v g hv => .inl ?_) rfl (fun v => ?_)
        fun v hv => ⟨?_, rfl⟩
      · simp only [onCompletion]
        split_ifs <;> simp
      · have hgf : g ≠ f := by
          rintro rfl
          exact (aw.waiter t g hp).2 v hv
        simp only [onCompletion]
        split_ifs
        · simp [Loop.setEvent_future, hgf]
        · rfl
      · simp only [onCompletion]
        split_ifs <;> simp
      · simp only [onCompletion]
        split_ifs <;> simp [hv]
  | @requested t hp =>
      have req := TaskGroup.requested s.loop ok.1 ok.2
      exact routed.same kids rfl req.nextFuture.ge rfl (fun u f _ => req.future f) rfl
        (fun u => by rw [req.point u]) fun u hu => ⟨(req.point u).trans hu, rfl⟩
  | @refusedFirst t anyio caught hp =>
      rw [record_resume (by simp [hp, Point.child])]
      exact routed.walk kids aw t rfl le_rfl rfl (fun _ _ => rfl) rfl (fun u hu => by simp [hu])
        (by simp [hp, Point.child]) (by simp [Point.child]) (by simp [hp])
        fun u hu => by simp [hu]
  | @first t anyio caught hp =>
      rw [record_resume (by simp [hp, Point.child])]
      exact routed.walk kids aw t rfl le_rfl rfl (fun _ _ => rfl) rfl (fun u hu => by simp [hu])
        (by simp [hp, Point.child]) (by simp [Point.child]) (by simp [hp]) fun _ _ => rfl
  | @waitsAgain t anyio caught f _ _ hp =>
      rw [record_resume (by simp [hp, Point.child])]
      exact routed.walk kids aw t rfl (Nat.le_succ _) rfl (fun g hg => by simp [hg.ne]) rfl
        (fun u hu => by simp [hu]) (by simp [hp, Point.child]) (by simp [Point.child])
        (by simp [hp]) fun _ _ => rfl
  | waited hp =>
      rw [record_resume (by simp [hp, Point.child])]
      refine routed.departs kids aw ?_ ?_ ?_ ?_ ?_ (by simp [hp, Point.isExit]) _ <;> rfl
  | checked hp | interrupted hp =>
      rw [record_resume (by simp [hp, Point.child])]
      refine routed.departs kids aw ?_ ?_ ?_ ?_ ?_ (by simp [hp, Point.isExit]) _ <;> rfl
  | @joins t u f _ _ hp hthrow hdone =>
      obtain ⟨hawaits, -⟩ : awaitsDone s.loop u = false ∧ raisesWhole s u = true := by
        have ok : CallInTime s t (s.loop.point t) := ok
        rw [hp] at ok
        exact ok hthrow
      have req := aw.requested_child kids hp hawaits
      refine routed.same kids rfl req.nextFuture.ge rfl (fun v g _ => req.future g) rfl
        (fun v => ?_) fun v hv => ⟨?_, rfl⟩
      · rw [req.point v, Loop.resumeAt_point]
        split_ifs with hvt
        · simp [hvt, hp, Point.child]
        · rfl
      · have hvt : v ≠ t := by
          rintro rfl
          simp [hp] at hv
        rw [req.point v]
        simp [hvt, hv]
  | @ends t u anyio caught o hchild hends =>
      obtain ⟨exc, hrouted, ⟨rfl, rfl⟩ | ⟨e, rfl, rfl⟩⟩ := routed.ends kids aw hchild ok hends
      · simpa [record, History.endCall, hchild] using hrouted
      · simpa [record, History.endCall, hchild] using hrouted

end Routed

/-- Where an exception in `_exceptions` comes from. -/
inductive Origin (τ : Type*)
  | host
  | child (task : τ)
  deriving DecidableEq, Repr

/-- The exception of the host at `__aexit__()`, or that of a child. -/
def entry (s : State τ ε) (h : History τ ε) : Origin τ → Option (Exc ε)
  | .host => h.hostExc
  | .child u => s.exception u

def HostFailed (h : History τ ε) : Prop := ∃ e, h.hostExc = some e ∧ e.isCancelled = false

/-- The child raised an exception other than a `CancelledError`, and it was spawned by
`start_soon()` or its `start()` call had got a value. -/
def Reportable (s : State τ ε) (h : History τ ε) (u : τ) : Prop :=
  ∃ e, s.exception u = some e ∧ e.isCancelled = false ∧
    (s.taskStatus u = some none ∨ ∃ f, s.taskStatus u = some (some f) ∧ u ∈ h.started)

/-- The exceptions of the host and of the children whose callbacks have run, each once. -/
structure Lists (s : State τ ε) (h : History τ ε) (excs : List (Exc ε))
    (origins : List (Origin τ)) : Prop where
  once : origins.Nodup
  entries : excs.map some = origins.map (entry s h)
  host : .host ∈ origins ↔ HostFailed h
  child : ∀ u, .child u ∈ origins ↔ u ∉ s.doneCallbacks ∧ Reportable s h u

/-- What `_exceptions` holds until `__aexit__()` deletes it. -/
structure Listed (s : State τ ε) (h : History τ ε) : Prop where
  early : s.phase = .new ∨ s.phase = .body → h.hostExc = none
  deleted : s.phase = .left → s.exceptions = none
  list : s.phase ≠ .left → ∃ excs origins, s.exceptions = some excs ∧ Lists s h excs origins

section Listed
variable {s s' : State τ ε} {h h' : History τ ε} {t u : τ} {f : FutureId} {a : Action τ ε}
  {o : Result τ ε}

theorem Reportable.status (reportable : Reportable s h u) : s.taskStatus u ≠ none := by
  obtain ⟨e, -, -, hu | ⟨f, hu, -⟩⟩ := reportable <;> simp [hu]

/-- Nothing is added to the list. -/
theorem Listed.frame (listed : Listed s h) (hexcs : s'.exceptions = s.exceptions)
    (hphase : s'.phase = s.phase ∨ s.phase = .new ∧ s'.phase = .body)
    (hhost : h'.hostExc = h.hostExc)
    (hchild : ∀ u, u ∉ s'.doneCallbacks ∧ Reportable s' h' u ↔
      u ∉ s.doneCallbacks ∧ Reportable s h u)
    (hexc : ∀ u, u ∉ s.doneCallbacks → s.taskStatus u ≠ none →
      s'.exception u = s.exception u) : Listed s' h' := by
  refine ⟨fun hp => ?_, fun hp => ?_, fun hp => ?_⟩
  · rw [hhost]
    apply listed.early
    rcases hphase with hsame | ⟨hold, -⟩
    · exact hsame ▸ hp
    · exact .inl hold
  · rw [hexcs]
    apply listed.deleted
    rcases hphase with hsame | ⟨-, hnew⟩
    · exact hsame ▸ hp
    · simp [hp] at hnew
  · have hold : s.phase ≠ .left := by
      rcases hphase with hsame | ⟨hold, -⟩
      · exact hsame ▸ hp
      · simp [hold]
    obtain ⟨excs, origins, hsome, lists⟩ := listed.list hold
    refine ⟨excs, origins, hexcs.trans hsome, lists.once, ?_, ?_, fun u => ?_⟩
    · rw [lists.entries]
      apply List.map_congr_left
      intro origin hmem
      cases origin with
      | host => exact hhost.symm
      | child u =>
          obtain ⟨hout, reportable⟩ := (lists.child u).mp hmem
          exact (hexc u hout reportable.status).symm
    · rw [lists.host, HostFailed, HostFailed, hhost]
    · rw [lists.child, hchild]

/-- Nobody is added, no callback runs and no future gets a value. -/
theorem Listed.same (listed : Listed s h) (kids : Children s)
    (hexcs : s'.exceptions = s.exceptions)
    (hphase : s'.phase = s.phase ∨ s.phase = .new ∧ s'.phase = .body)
    (hhost : h'.hostExc = h.hostExc) (hstarted : h'.started = h.started)
    (hstatus : s'.taskStatus = s.taskStatus) (hdone : s'.doneCallbacks = s.doneCallbacks)
    (hexc : ∀ u, s.loop.point u = .finished → s'.exception u = s.exception u) :
    Listed s' h' := by
  have hkept : ∀ u, u ∉ s.doneCallbacks → s.taskStatus u ≠ none →
      s'.exception u = s.exception u := fun u hout hu => hexc u (kids.ran u hu hout)
  refine listed.frame hexcs hphase hhost (fun u => ?_) hkept
  rw [hdone]
  apply and_congr_right
  intro hout
  by_cases hu : s.taskStatus u = none
  · refine iff_of_false (fun reportable => reportable.status (hstatus ▸ hu)) fun reportable =>
      reportable.status hu
  · simp only [Reportable, hstatus, hstarted, hkept u hout hu]

/-- A child is added. -/
theorem Listed.added (listed : Listed s h) (hnone : s.taskStatus u = none)
    {g : Option FutureId} [DecidableEq τ] (hexcs : s'.exceptions = s.exceptions)
    (hphase : s'.phase = s.phase)
    (hstatus : s'.taskStatus = Function.update s.taskStatus u (some g))
    (hdone : s'.doneCallbacks = u :: s.doneCallbacks) (hexc : s'.exception = s.exception) :
    Listed s' h := by
  refine listed.frame hexcs (.inl hphase) rfl (fun v => ?_) fun _ _ _ => by rw [hexc]
  by_cases hvu : v = u
  · subst hvu
    exact iff_of_false (fun hv => hv.1 (hdone ▸ List.mem_cons_self)) fun hv =>
      hv.2.status hnone
  · simp [Reportable, hdone, hstatus, hexc, hvu]

/-- `__aexit__()` is left. -/
theorem Listed.left (hphase : s.phase = .left) (hexcs : s.exceptions = none) : Listed s h :=
  ⟨fun hp => by simp [hphase] at hp, fun _ => hexcs, fun hp => absurd hphase hp⟩

/-- The host comes to `__aexit__()` with an exception or without. -/
theorem Listed.exits (listed : Listed s h) (hphase : s.phase = .body) (excVal : Option (Exc ε))
    (hs : s'.exceptions = (exiting s excVal).exceptions) (hp : s'.phase = .exiting)
    (hstatus : s'.taskStatus = s.taskStatus) (hdone : s'.doneCallbacks = s.doneCallbacks)
    (hexc : s'.exception = s.exception) : Listed s' { h with hostExc := excVal } := by
  obtain ⟨excs, origins, hsome, lists⟩ := listed.list (by simp [hphase])
  have hnone := listed.early (.inr hphase)
  have hnohost : .host ∉ origins := by
    rw [lists.host]
    rintro ⟨e, he, -⟩
    simp [hnone] at he
  have hentries : ∀ origin ∈ origins,
      entry s' { h with hostExc := excVal } origin = entry s h origin := by
    intro origin hmem
    cases origin with
    | host => exact absurd hmem hnohost
    | child u => simp [entry, hexc]
  have hchild : ∀ u, Reportable s' { h with hostExc := excVal } u ↔ Reportable s h u := fun u => by
    simp only [Reportable, hexc, hstatus]
  refine ⟨by simp [hp], by simp [hp], fun _ => ?_⟩
  -- only an exception other than a `CancelledError` is appended
  by_cases hfail : ∃ e, excVal = some e ∧ e.isCancelled = false
  · obtain ⟨e, rfl, he⟩ := hfail
    refine ⟨excs ++ [e], origins ++ [.host], by simp [hs, exiting, he, hsome], ?_, ?_, ?_, ?_⟩
    · rw [List.nodup_append]
      refine ⟨lists.once, List.nodup_singleton _, ?_⟩
      rintro origin hmem other hother rfl
      exact hnohost (List.mem_singleton.mp hother ▸ hmem)
    · rw [List.map_append, List.map_append, List.map_congr_left hentries, lists.entries]
      rfl
    · exact iff_of_true (by simp) ⟨e, rfl, he⟩
    · intro u
      rw [List.mem_append, hdone, hchild, ← lists.child]
      simp
  · have hexcs : (exiting s excVal).exceptions = s.exceptions := by
      cases excVal with
      | none => rfl
      | some e =>
          have he : e.isCancelled = true := by simpa using hfail
          simp [exiting, he]
    refine ⟨excs, origins, by rw [hs, hexcs, hsome], lists.once, ?_, ?_, ?_⟩
    · rw [List.map_congr_left hentries, lists.entries]
    · exact iff_of_false hnohost fun ⟨e, he, hn⟩ => hfail ⟨e, he, hn⟩
    · intro u
      rw [lists.child, hdone, hchild]

variable [DecidableEq τ]

/-- The callback of `u` puts nothing into the list. -/
theorem Listed.removed (listed : Listed s h) (hnot : ¬Reportable s h u)
    (hexcs : s'.exceptions = s.exceptions) (hphase : s'.phase = s.phase)
    (hstatus : s'.taskStatus = s.taskStatus) (hexc : s'.exception = s.exception)
    (hdone : s'.doneCallbacks = s.doneCallbacks.erase u) : Listed s' h := by
  refine listed.frame hexcs (.inl hphase) rfl (fun v => ?_) fun _ _ _ => by rw [hexc]
  have hsame : Reportable s' h v ↔ Reportable s h v := by
    simp only [Reportable, hexc, hstatus]
  rw [hsame, hdone]
  refine and_congr_left fun reportable => not_congr ?_
  have hvu : v ≠ u := by
    rintro rfl
    exact hnot reportable
  exact List.mem_erase_of_ne hvu

/-- The callback of `u` puts the exception of `u` into the list. -/
theorem Listed.append (listed : Listed s h) (kids : Children s) (hu : u ∈ s.doneCallbacks)
    {e : Exc ε} {excs : List (Exc ε)} (reportable : Reportable s h u)
    (he : s.exception u = some e) (hsome : s.exceptions = some excs)
    (hexcs : s'.exceptions = some (excs ++ [e])) (hphase : s'.phase = s.phase)
    (hstatus : s'.taskStatus = s.taskStatus) (hexc : s'.exception = s.exception)
    (hdone : s'.doneCallbacks = s.doneCallbacks.erase u) : Listed s' h := by
  have hleft : s.phase ≠ .left := by
    intro hp
    rw [listed.deleted hp] at hsome
    cases hsome
  obtain ⟨excs', origins, hsome', lists⟩ := listed.list hleft
  obtain rfl : excs' = excs := Option.some.inj (hsome'.symm.trans hsome)
  have hnot : .child u ∉ origins := fun hmem => ((lists.child u).mp hmem).1 hu
  have hentry : entry s' h = entry s h := by
    funext origin
    cases origin <;> simp [entry, hexc]
  refine ⟨fun hp => listed.early (hphase ▸ hp), fun hp => absurd (hphase ▸ hp) hleft, fun _ =>
    ⟨excs' ++ [e], origins ++ [.child u], hexcs, ?_, ?_, ?_, fun v => ?_⟩⟩
  · rw [List.nodup_append]
    refine ⟨lists.once, List.nodup_singleton _, ?_⟩
    rintro origin hmem other hother rfl
    exact hnot (List.mem_singleton.mp hother ▸ hmem)
  · rw [List.map_append, List.map_append, lists.entries, hentry]
    simp [entry, he]
  · rw [List.mem_append, lists.host]
    simp
  · have hsame : Reportable s' h v ↔ Reportable s h v := by
      simp only [Reportable, hexc, hstatus]
    rw [List.mem_append, lists.child, hsame, hdone]
    by_cases hvu : v = u
    · simp [hvu, reportable, kids.once.not_mem_erase]
    · simp [hvu, List.mem_erase_of_ne hvu]

theorem Listed.step (listed : Listed s h) (routed : Routed s h) (kids : Children s)
    (change : Change s a s' o) : Listed s' (record h s a o) := by
  have resumed : ∀ t anyio caught, (record h s (.resume t anyio caught) o).hostExc = h.hostExc ∧
      (record h s (.resume t anyio caught) o).started = h.started := by
    intro t anyio caught
    cases o <;> exact ⟨rfl, rfl⟩
  cases change with
  | refused ha =>
      rcases ha with ⟨func, u, rfl⟩ | ⟨t, func, u, rfl⟩ <;> exact listed
  | created => exact listed.same kids rfl (.inl rfl) rfl rfl rfl rfl fun _ _ => rfl
  | entered hphase =>
      exact listed.same kids rfl (.inr ⟨hphase, rfl⟩) rfl rfl rfl rfl fun _ _ => rfl
  | checks hphase => exact listed.exits hphase _ rfl (by simp) (by simp) (by simp) (by simp)
  | waits hphase => exact listed.exits hphase _ rfl (by simp) (by simp) (by simp) (by simp)
  | @spawned func u _ hp => exact listed.added (kids.unspawned hp) rfl rfl rfl rfl rfl
  | @starts t func u _ _ hp => exact listed.added (kids.unspawned hp) rfl rfl rfl rfl rfl
  | @valued u f hu hf =>
      have hawaits : awaitsValue s u = true := by simp [awaitsValue, hu, hf]
      have hmem : u ∈ s.doneCallbacks := by
        by_contra hout
        exact routed.answered u f hu hout hf
      refine listed.frame rfl (.inl rfl) (by simp [record, hawaits]) (fun v => ?_)
        fun _ _ _ => rfl
      apply and_congr_right
      intro hout
      have hvu : v ≠ u := by
        rintro rfl
        exact hout hmem
      simp [Reportable, record, hawaits, hvu]
  | @late u f o hu hf =>
      have hawaits : awaitsValue s u = false := by simp [awaitsValue, hu, hf]
      simpa [record, hawaits] using listed
  | @finished t exc hp =>
      refine listed.same kids rfl (.inl rfl) rfl rfl rfl rfl fun u hu => ?_
      have hut : u ≠ t := by
        rintro rfl
        rw [hp] at hu
        cases hu
      simp [hut]
  | @unreported u f b c _ hstatus hmem hf hquiet =>
      refine listed.removed (u := u) (fun reportable => ?_) rfl rfl rfl rfl rfl
      obtain ⟨e, he, hcancelled, hreported⟩ := reportable
      obtain ⟨g, rfl, hg⟩ := hquiet e he hcancelled
      rcases hreported with hu | ⟨g', hu, hstarted⟩
      · rw [hstatus] at hu
        cases hu
      · obtain rfl : g = g' := by simpa [hstatus] using hu
        simp [((routed.value u g hstatus).mp hstarted).1] at hg
  | @failed u f b e _ hstatus hmem hf he =>
      refine listed.removed (u := u) (fun reportable => ?_) rfl rfl rfl rfl rfl
      obtain ⟨e', -, -, hu | ⟨g, hu, hstarted⟩⟩ := reportable
      · rw [hstatus] at hu
        cases hu
      · obtain rfl : f = g := by simpa [hstatus] using hu
        simp [((routed.value u f hstatus).mp hstarted).1] at hf
  | @reported u f b c e excs _ hstatus hmem hf he hcancelled hexcs =>
      refine listed.append kids hmem ⟨e, he, hcancelled, ?_⟩ he hexcs rfl rfl rfl rfl rfl
      cases f with
      | none => exact .inl hstatus
      | some f =>
          refine .inr ⟨f, hstatus, (routed.value u f hstatus).mpr ⟨hf f rfl, ?_⟩⟩
          cases hfail : s.failure f with
          | none => rfl
          | some e' => exact absurd hmem (routed.failed u f e' hstatus hfail).2.1
  | @lost u f b e _ _ _ _ _ hexcs =>
      refine Listed.left ?_ hexcs
      by_contra hleft
      obtain ⟨excs, origins, hsome, -⟩ := listed.list hleft
      rw [hexcs] at hsome
      cases hsome
  | completed => exact listed.same kids rfl (.inl rfl) rfl rfl rfl rfl fun _ _ => rfl
  | requested => exact listed.same kids rfl (.inl rfl) rfl rfl rfl rfl fun _ _ => rfl
  | @refusedFirst t anyio caught hp =>
      refine listed.same kids rfl (.inl rfl) (resumed t _ _).1 (resumed t _ _).2 rfl rfl
        fun u hu => ?_
      have hut : u ≠ t := by
        rintro rfl
        rw [hp] at hu
        cases hu
      simp [hut]
  | @first t anyio caught =>
      exact listed.same kids rfl (.inl rfl) (resumed t _ _).1 (resumed t _ _).2 rfl rfl
        fun _ _ => rfl
  | @waitsAgain t anyio caught =>
      exact listed.same kids rfl (.inl rfl) (resumed t _ _).1 (resumed t _ _).2 rfl rfl
        fun _ _ => rfl
  | waited => exact .left rfl rfl
  | checked => exact .left rfl rfl
  | interrupted => exact .left rfl rfl
  | @joins t u f anyio caught =>
      exact listed.same kids rfl (.inl rfl) (resumed t _ _).1 (resumed t _ _).2 rfl rfl
        fun _ _ => rfl
  | @ends t u anyio caught =>
      exact listed.same kids rfl (.inl rfl) (resumed t _ _).1 (resumed t _ _).2 rfl rfl
        fun _ _ => rfl

end Listed

/-- What holds in every state of a run in which every cancellation comes in time. -/
structure Accounted (s : State τ ε) (h : History τ ε) : Prop where
  children : Children s
  awaits : Awaits s
  routed : Routed s h
  listed : Listed s h

theorem Accounted.initial (python312 : Bool) : Accounted (initial τ ε python312) .empty where
  children := .initial python312
  awaits := by
    constructor <;> simp [TaskGroup.initial, Loop.initial, Point.child, Point.isCalm, Loop.point]
  routed := by
    constructor <;> simp [TaskGroup.initial, History.empty]
  listed := by
    refine ⟨fun _ => rfl, fun hp => (by cases hp), fun _ => ⟨[], [], rfl, .nil, rfl, ?_, ?_⟩⟩
    · apply iff_of_false List.not_mem_nil
      rintro ⟨_, he, _⟩
      cases he
    · intro u
      apply iff_of_false List.not_mem_nil
      rintro ⟨_, _, he, _⟩
      cases he

section Runs
variable [DecidableEq τ] {s s' : State τ ε} {h : History τ ε} {t u : τ} {o : Result τ ε}

theorem Accounted.of_run {python312 : Bool}
    (run : (recorded τ ε).Reachable (fun p a => InTime p.1 a)
      (TaskGroup.initial τ ε python312, .empty) (s, h)) : Accounted s h := by
  apply run.invariant_history (I := Accounted) (.initial python312)
  intro s h a s' o acc ok hs
  have change := step_change hs
  exact ⟨acc.children.step change, acc.awaits.step acc.children ok change,
    acc.routed.step acc.children acc.awaits ok change,
    acc.listed.step acc.routed acc.children change⟩

/-- The exception that `__aexit__()` raises for these. -/
def unhandled (excs : List (Exc ε)) : Exc ε := .group "unhandled errors in a TaskGroup" excs

omit [DecidableEq τ] in
/-- The scope swallows nothing but AnyIO cancellations. -/
theorem leaf_of_exitAnswer {caught : Bool} {e leaf : Exc ε} (h : exitAnswer caught e = true)
    (hleaf : leaf ∈ e.leaves) : leaf = .cancelled true := by
  obtain ⟨-, hall⟩ := Bool.and_eq_true_iff.mp h
  have hanyio := List.all_eq_true.mp hall leaf hleaf
  cases leaf with
  | cancelled anyio => simpa using (Bool.and_eq_true_iff.mp hanyio).1
  | known error => cases hanyio
  | other value => cases hanyio
  | group message exceptions => cases hanyio

/-- How the host leaves `__aexit__()`. -/
theorem Change.leaves {anyio caught : Bool} (change : Change s (.resume t anyio caught) s' o)
    (hphase : s.phase = .exiting) (hleft : s'.phase = .left) :
    (∃ f x, s.loop.point t = .waiting f ∧ s.tasks = [] ∧
        o = exitResult caught (leaving { s with excVal := x })) ∨
      s.loop.point t = .checkpoint ∧ s.loop.throws t = false ∧
        o = exitResult caught (leaving s) ∨
      s.loop.point t = .checkpoint ∧ s.loop.throws t = true := by
  have hstill : s.phase ≠ .left := by simp [hphase]
  generalize ha : Action.resume t anyio caught = a at change
  cases change with
  | waited hp htasks => cases ha; exact .inl ⟨_, _, hp, htasks, rfl⟩
  | checked hp hthrow => cases ha; exact .inr (.inl ⟨hp, hthrow, rfl⟩)
  | interrupted hp hthrow => cases ha; exact .inr (.inr ⟨hp, hthrow⟩)
  | refused hspawn => rcases hspawn with ⟨_, _, rfl⟩ | ⟨_, _, _, rfl⟩ <;> cases ha
  | refusedFirst => exact absurd hleft hstill
  | first => exact absurd hleft hstill
  | waitsAgain => exact absurd hleft hstill
  | joins => exact absurd hleft hstill
  | ends => exact absurd hleft hstill
  | _ => cases ha

/-- When the wait for the children ends, all of them are finished and their callbacks have run. -/
theorem Accounted.waited (acc : Accounted s h) {anyio caught : Bool} {f : FutureId}
    (hp : s.loop.point t = .waiting f) (hs : step s (.resume t anyio caught) = some (s', o))
    (hleft : s'.phase = .left) (hu : s.taskStatus u ≠ none) :
    s.loop.point u = .finished ∧ u ∉ s.doneCallbacks := by
  obtain ⟨-, hphase⟩ := acc.children.exit t (by simp [hp, Point.isExit])
  have htasks : s.tasks = [] := by
    rcases (step_change hs).leaves hphase hleft with ⟨_, _, _, h, _⟩ | ⟨h, -⟩ | ⟨h, -⟩
    · exact h
    · simp [hp] at h
    · simp [hp] at h
  have hnot : u ∉ s.doneCallbacks := by simp [← acc.children.same, htasks]
  exact ⟨acc.children.ran u hu hnot, hnot⟩

/-- With exceptions in the list, `__aexit__()` raises all of them, or its scope catches them. -/
theorem Accounted.raises (acc : Accounted s h) {anyio caught : Bool}
    (hexit : (s.loop.point t).isExit = true)
    (hs : step s (.resume t anyio caught) = some (s', o)) (hleft : s'.phase = .left) {e : Exc ε}
    {es : List (Exc ε)} (hexcs : s.exceptions = some (e :: es)) :
    o = .raised (unhandled (e :: es)) ∨
      o = .returned true ∧ ∀ leaf ∈ (unhandled (e :: es)).leaves, leaf = .cancelled true := by
  have hresult : o = exitResult caught (some (unhandled (e :: es))) := by
    rcases (step_change hs).leaves (acc.children.exit t hexit).2 hleft with
      ⟨f, x, -, -, ho⟩ | ⟨-, -, ho⟩ | ⟨hp, hthrow⟩
    · rw [ho]
      simp [leaving, hexcs, unhandled]
    · rw [ho]
      simp [leaving, hexcs, unhandled]
    · -- the checkpoint is shielded
      have hcalm := acc.awaits.calm t (by simp [hp, Point.isCalm])
      simp [Loop.throws, Loop.waits, hp, Coroutine.waits, hcalm] at hthrow
  simp only [exitResult] at hresult
  split_ifs at hresult with hanswer
  · exact .inr ⟨hresult, fun leaf hmem => leaf_of_exitAnswer hanswer hmem⟩
  · exact .inl hresult

/-- The exception of a child that got no value is raised by its `start()` call. -/
theorem Accounted.starting (acc : Accounted s h) {f : FutureId} {e : Exc ε}
    (hu : s.taskStatus u = some (some f)) (he : s.exception u = some e)
    (hcancelled : e.isCancelled = false) (hdone : u ∉ s.doneCallbacks) (hvalue : u ∉ h.started) :
    (u, some e) ∈ h.ended ∨ ∃ t, (s.loop.point t).child = some u ∧
      ∀ anyio caught, InTime s (.resume t anyio caught) →
        ∃ s', step s (.resume t anyio caught) = some (s', .raised e) := by
  obtain ⟨kids, aw, routed, -⟩ := acc
  rcases routed.going u f hu with ⟨t, ht⟩ | hend
  · refine .inr ⟨t, ht, fun anyio caught ok => ?_⟩
    have hfin : s.loop.point u = .finished := kids.ran u (by simp [hu]) hdone
    have hanswered := routed.answered u f hu hdone
    have ok : CallInTime s t (s.loop.point t) := ok
    cases hp : s.loop.point t with
    | starting v g =>
        obtain rfl : v = u := by simpa [hp, Point.child] using ht
        obtain rfl : g = f := by simpa [aw.starting t v g hp] using hu
        rw [hp] at ok
        have hwake : wakeUpQueued s t = true := by
          simpa [wakeUpQueued, hp, Loop.wakeUpQueued, Loop.waits, Coroutine.waits] using hanswered
        by_cases hthrow : s.loop.throws t = true
        · refine ⟨{ s with loop := s.loop.resumeAt t .outside }, ?_⟩
          simp only [step, hwake, if_true, resume, hp, hthrow, done_iff.mpr hfin,
            joined_eq (ok hthrow).2 he hcancelled]
        · have hg : s.loop.future g = .finished := by
            have hne := mt (aw.throws_iff hp).mpr hthrow
            cases hg : s.loop.future g <;> simp_all
          have hfail : s.failure g = some e := by
            cases hfail : s.failure g with
            | none => exact absurd ((routed.value v g hu).mpr ⟨hg, hfail⟩) hvalue
            | some e' => rw [(routed.failed v g e' hu hfail).2.2 e he]
          refine ⟨{ s with loop := s.loop.resumeAt t .outside }, ?_⟩
          simp only [step, hwake, if_true, resume, hp, hthrow, hfail, Bool.false_eq_true, if_false]
    | joining v =>
        obtain rfl : v = u := by simpa [hp, Point.child] using ht
        rw [hp] at ok
        have hwake : wakeUpQueued s t = true := by simp [wakeUpQueued, hp, done_iff.mpr hfin]
        refine ⟨{ s with loop := s.loop.resumeAt t .outside }, ?_⟩
        simp only [step, hwake, if_true, resume, hp, aw.joining_clear hp, Bool.false_eq_true,
          if_false, joined_eq ok he hcancelled]
    | _ => simp [hp, Point.child] at ht
  · obtain ⟨⟨v, exc⟩, hmem, rfl⟩ := List.mem_map.mp hend
    cases exc with
    | none => exact absurd (routed.returned v hmem) hvalue
    | some e' =>
        obtain ⟨-, -, hexc⟩ := routed.raised v e' hmem
        exact .inl (hexc e he hcancelled ▸ hmem)

/-- In a run in which no request reaches the shielded checkpoint or a task that awaits something
done, `start()` cancels no child that awaits something done and gets no exception group from a
child that loses its `CancelledError`s: until `__aexit__()` is left, the list holds each exception
of the host and of the children that `start()` does not raise, once; at the end of the wait all
children are finished, and what is in the list is raised; the exception of a child whose `start()`
call got no value is raised by that call, and by no other way. -/
theorem exceptions_reported_once {python312 : Bool}
    (run : (recorded τ ε).Reachable (fun p a => InTime p.1 a)
      (initial τ ε python312, .empty) (s, h)) :
    (∀ excs, s.exceptions = some excs → ∃ origins, Lists s h excs origins) ∧
      (∀ t anyio caught s' o, (s.loop.point t).isExit = true →
        step s (.resume t anyio caught) = some (s', o) → s'.phase = .left →
        (s.loop.point t ≠ .checkpoint → ∀ u, s.taskStatus u ≠ none →
          s.loop.point u = .finished ∧ u ∉ s.doneCallbacks) ∧
        ∀ e es, s.exceptions = some (e :: es) → o = .raised (unhandled (e :: es)) ∨
          o = .returned true ∧ ∀ leaf ∈ (unhandled (e :: es)).leaves, leaf = .cancelled true) ∧
      (∀ u f e, s.taskStatus u = some (some f) → s.exception u = some e → e.isCancelled = false →
        u ∉ s.doneCallbacks → u ∉ h.started → (u, some e) ∈ h.ended ∨
          ∃ t, (s.loop.point t).child = some u ∧
            ∀ anyio caught, InTime s (.resume t anyio caught) →
              ∃ s', step s (.resume t anyio caught) = some (s', .raised e)) ∧
      (h.ended.map Prod.fst).Nodup ∧ ∀ u e, (u, some e) ∈ h.ended → u ∉ h.started := by
  have acc := Accounted.of_run run
  refine ⟨fun excs hexcs => ?_, fun t anyio caught s' o hexit hs hleft => ⟨fun hp u hu => ?_,
    fun e es hexcs => acc.raises hexit hs hleft hexcs⟩, fun u f e => acc.starting,
    acc.routed.once, fun u e hmem => (acc.routed.raised u e hmem).1⟩
  · have hphase : s.phase ≠ .left := by
      intro hp
      rw [acc.listed.deleted hp] at hexcs
      cases hexcs
    obtain ⟨excs', origins, hsome, lists⟩ := acc.listed.list hphase
    obtain rfl : excs' = excs := Option.some.inj (hsome.symm.trans hexcs)
    exact ⟨origins, lists⟩
  · cases hpt : s.loop.point t with
    | waiting f => exact acc.waited hpt hs hleft hu
    | checkpoint => exact absurd hpt hp
    | _ => simp [hpt, Point.isExit] at hexit

end Runs

/-- A coroutine function that is called with a `task_status`. -/
def worker : Func where
  module := some "app"
  qualname := "worker"

/-- The child 1 raises before it has called `started()`, and the child 2 in the wait for it. -/
def failedChildren : State (Fin 3) Unit × History (Fin 3) Unit :=
  ((recorded (Fin 3) Unit).exec (fun p a => InTime p.1 a) (initial (Fin 3) Unit true, .empty)
    [.createTask 0, .resume 0 false false, .aenter 0, .start 0 worker 1, .resume 1 false false,
      .finish 1 (some (.other ())), .taskDone 1 false, .resume 0 false false,
      .startSoon worker 2, .resume 2 false false, .aexit 0 none, .finish 2 (some (.other ())),
      .taskDone 2 false]).get (by decide)

theorem exceptions_reported_once_failed : failedChildren.1.exceptions = some [.other ()] ∧
    (∃ origins, Lists failedChildren.1 failedChildren.2 [.other ()] origins) ∧
      (1, some (.other ())) ∈ failedChildren.2.ended ∧ 1 ∉ failedChildren.2.started := by
  have run : (recorded (Fin 3) Unit).Reachable (fun p a => InTime p.1 a)
      (initial (Fin 3) Unit true, .empty) failedChildren := Machine.exec_get_reachable _ _ _
  have once := exceptions_reported_once (s := failedChildren.1) (h := failedChildren.2) run
  have hended : (1, some (.other ())) ∈ failedChildren.2.ended := List.mem_cons_self
  exact ⟨rfl, once.1 _ rfl, hended, once.2.2.2.2 1 _ hended⟩

/-- Task 0 is in `start()` of the child 1, which is in `start()` of the child 2, and both are
cancelled. Task 1 joins the child 2, which raises; before task 1 resumes, task 0 cancels it. -/
def lostException : State (Fin 3) Unit × History (Fin 3) Unit :=
  ((recorded (Fin 3) Unit).exec Machine.anyStep (initial (Fin 3) Unit true, .empty)
    [.createTask 0, .resume 0 false false, .aenter 0, .start 0 worker 1, .resume 1 false false,
      .start 1 worker 2, .resume 2 false false, .cancel 0, .cancel 1, .resume 1 true false,
      .finish 2 (some (.other ())), .resume 0 true false, .taskDone 2 true,
      .resume 1 true false]).get (by decide)

/-- The `start()` call of the child 2 has ended with a `CancelledError`, and the exception of the
child is not in the list. -/
theorem exception_lost :
    (recorded (Fin 3) Unit).Reachable Machine.anyStep (initial (Fin 3) Unit true, .empty)
        lostException ∧
      lostException.1.taskStatus 2 = some (some 1) ∧
      lostException.1.exception 2 = some (.other ()) ∧ 2 ∉ lostException.1.doneCallbacks ∧
      lostException.1.loop.future 1 = .cancelled ∧ lostException.1.exceptions = some [] ∧
      lostException.2.ended = [(2, some (.cancelled true))] ∧ lostException.2.started = [] :=
  ⟨Machine.exec_get_reachable _ _ _, by decide, rfl, by decide, by decide, rfl, rfl, rfl⟩

end Anyio.TaskGroup
