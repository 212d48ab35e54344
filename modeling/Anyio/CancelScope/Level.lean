import Anyio.CancelScope.Nesting
import Mathlib.Data.Fintype.Basic

/-!
# Level cancellation

In every run with properly nested scopes, in which no task is placed into a
cancelled scope, every unfinished task in a cancelled scope is within reach of
a queued `_deliver_cancellation` callback.
-/

namespace Anyio.CancelScope

open Asyncio Library

variable {τ : Type*} {w w' : World τ} {k : Watch} {c x : ScopeId} {t : τ}

/-- A step that concerns one task and its entry in the `_tasks` of scopes. -/
theorem Sound.moveTask (inv : Sound k w) (t : τ)
    (hscope : ∀ d, w'.scope d = { w.scope d with tasks := (w'.scope d).tasks })
    (htasks : ∀ d u, u ≠ t → u ∈ (w.scope d).tasks → u ∈ (w'.scope d).tasks)
    (hothers : ∀ u, u ≠ t → w'.currentScope u = w.currentScope u ∧
      w'.loop.point u = w.loop.point u)
    (hself : ∀ x, w'.loop.point t ≠ .finished → w'.currentScope t = some x →
      t ∈ (w'.scope x).tasks)
    (hnew : ∀ d u, u ∈ (w'.scope d).tasks → u ∈ (w.scope d).tasks ∨
      (w.scope d).active = true ∧ ∀ e, Near w d e → Live k w e)
    (hdistinct : ∀ d, (w'.scope d).tasks.Nodup)
    (hrun : ∀ u, w'.current = some u → w'.loop.point u = .running)
    (hentered : w'.entered = w.entered) (hcallbacks : w'.callbacks = w.callbacks) :
    Sound k w' := by
  have hparent : ∀ d, (w'.scope d).parentScope = (w.scope d).parentScope := fun d => by
    rw [hscope]
  have hchildren : ∀ d, (w'.scope d).childScopes = (w.scope d).childScopes := fun d => by
    rw [hscope]
  have hhost : ∀ d, (w'.scope d).hostTask = (w.scope d).hostTask := fun d => by
    rw [hscope]
  have hactive : ∀ d, (w'.scope d).active = (w.scope d).active := fun d => by
    rw [hscope]
  have hhandle : ∀ d, (w'.scope d).cancelHandle = (w.scope d).cancelHandle := fun d => by
    rw [hscope]
  have hnear : Near w' = Near w := by
    unfold Near
    congr 1
    · exact funext hparent
    · funext d
      rw [hscope]
    · funext d
      rw [hscope]
  have hmono : ∀ d, Live k w d → Live k w' d := fun d hd =>
    hd.mono (hhandle d) (by simp [hcallbacks])
  suffices inv' : Inv k (fun y => (w.scope y).active = true) (fun _ => False) w' from
    inv'.sound (by simp [hactive])
  have hmembers : ∀ u x, u ∈ (w'.scope x).tasks → (w.scope x).active = true := by
    intro u x hx
    obtain hx | ⟨hopen, -⟩ := hnew x u hx
    · exact inv.linked.members u x hx
    · exact hopen
  refine ⟨⟨?inside, hmembers, hdistinct, ?hosted, ?listed, ?child, ?older, ?known, hrun⟩,
    ?queued, ?level⟩
  case inside =>
    intro u x hp hx
    by_cases hu : u = t
    · subst hu
      exact ⟨hself x hp hx, hmembers u x (hself x hp hx)⟩
    · rw [(hothers u hu).1] at hx
      rw [(hothers u hu).2] at hp
      obtain ⟨hmem, hopen⟩ := inv.linked.inside u x hp hx
      exact ⟨htasks x u hu hmem, hopen⟩
  case hosted => exact fun x hx => hhost x ▸ inv.linked.hosted x hx
  case listed =>
    intro x p hx hp
    rw [hchildren]
    exact inv.linked.listed x p hx (hparent x ▸ hp)
  case child =>
    intro x p hx
    rw [hparent]
    exact inv.linked.child x p (hchildren p ▸ hx)
  case older =>
    intro x p hp
    rw [hentered]
    exact inv.linked.older x p (hparent x ▸ hp)
  case known => exact fun x hx => hentered ▸ inv.linked.known x hx
  case queued => exact fun d h hd => hcallbacks ▸ inv.queued d h (hhandle d ▸ hd)
  case level =>
    intro u x d hx hn
    rw [hnear] at hn
    refine .inl (hmono d ?_)
    obtain hx | ⟨-, hlive⟩ := hnew x u hx
    · exact (inv.level u x d hx hn).resolve_right id
    · exact hlive d hn

/-- A step of one task from one point to another, in the same scope. -/
theorem Sound.moveTo (inv : Sound k w) {t : τ} {l : Loop τ Point} {current : Option τ}
    (hl : ∀ u, u ≠ t → l.point u = w.loop.point u) (ht : w.loop.point t ≠ .finished)
    (hrun : ∀ u, current = some u → l.point u = .running) :
    Sound k { w with loop := l, current := current } := by
  refine inv.moveTask t (fun _ => rfl) (fun _ _ _ => id) (fun u hu => ⟨rfl, hl u hu⟩) ?_
    (fun _ _ => .inl) inv.linked.distinct hrun rfl rfl
  intro x _ hx
  exact (inv.linked.inside t x ht hx).1

variable [DecidableEq τ]

theorem mem_of_mem_eraseTask {u : τ}
    (h : u ∈ ((w.modify c fun s => { s with tasks := s.tasks.erase t }).scope x).tasks) :
    u ∈ (w.scope x).tasks := by
  by_cases hx : x = c
  · subst hx
    exact List.mem_of_mem_erase (by simpa using h)
  · simpa [hx] using h

theorem nodup_eraseTask (h : (w.scope x).tasks.Nodup) :
    ((w.modify c fun s => { s with tasks := s.tasks.erase t }).scope x).tasks.Nodup := by
  by_cases hx : x = c
  · subst hx
    simpa using h.erase t
  · simpa [hx] using h

theorem Sound.spawn (inv : Sound k w) (hp : w.loop.point t = .unborn)
    (hopen : (w.scope c).active = true) (hlive : ∀ d, Near w c d → Live k w d) :
    Sound k (w.spawn c t) := by
  refine inv.moveTask t (fun d => ?_) (fun d u hu hmem => ?_) (fun u hu => ?_) (fun x _ hx => ?_)
    (fun d u hmem => ?_) (fun d => ?_) (fun u hu => ?_) rfl rfl
  · by_cases hd : d = c <;> simp [World.spawn, hd]
  · by_cases hd : d = c
    · subst hd
      simp [World.spawn, hmem]
    · simpa [World.spawn, hd] using hmem
  · simp [World.spawn, World.currentScope, hu]
  · obtain rfl : c = x := by simpa [World.spawn, World.currentScope] using hx
    simp [World.spawn]
  · by_cases hd : d = c
    · exact .inr (hd ▸ ⟨hopen, hlive⟩)
    · exact .inl (by simpa [World.spawn, hd] using hmem)
  · by_cases hd : d = c
    · simpa [World.spawn, hd] using (inv.linked.distinct c).insert
    · simpa [World.spawn, hd] using inv.linked.distinct d
  · have hrun := inv.linked.running u hu
    have hut : u ≠ t := by
      rintro rfl
      simp [hp] at hrun
    simpa [World.spawn, hut] using hrun

theorem Sound.taskWrapper (inv : Sound k w) (hopen : (w.scope c).active = true)
    (hlive : ∀ d, Near w c d → Live k w d) : Sound k (w.taskWrapper c t) := by
  refine inv.moveTask t (fun d => ?_) (fun d u hu hmem => ?_) (fun u hu => ?_) (fun x _ hx => ?_)
    (fun d u hmem => ?_) (fun d => ?_) (fun u hu => inv.linked.running u hu) rfl rfl
  · by_cases hd : d = c <;> simp [World.taskWrapper, hd]
  · by_cases hd : d = c
    · subst hd
      simp [World.taskWrapper, hmem]
    · simpa [World.taskWrapper, hd] using hmem
  · exact ⟨by simp [World.taskWrapper, World.currentScope, hu], rfl⟩
  · obtain rfl : c = x := by simpa [World.taskWrapper, World.currentScope] using hx
    simp [World.taskWrapper]
  · by_cases hd : d = c
    · exact .inr (hd ▸ ⟨hopen, hlive⟩)
    · exact .inl (by simpa [World.taskWrapper, hd] using hmem)
  · by_cases hd : d = c
    · simpa [World.taskWrapper, hd] using (inv.linked.distinct c).insert
    · simpa [World.taskWrapper, hd] using inv.linked.distinct d

theorem Sound.finish (inv : Sound k w) (t : τ) : Sound k (w.finish t) := by
  have hpoint : (w.finish t).loop.point t = .finished := by
    unfold World.finish
    cases w.placedScope t <;> simp
  unfold World.finish at hpoint ⊢
  cases hplaced : w.placedScope t with
  | none =>
      simp only [hplaced] at hpoint ⊢
      exact inv.moveTask t (fun _ => rfl) (fun _ _ _ => id) (fun u hu => ⟨rfl, by simp [hu]⟩)
        (fun x hp _ => absurd hpoint hp) (fun _ _ => .inl) inv.linked.distinct (by simp) rfl rfl
  | some c =>
      simp only [hplaced] at hpoint ⊢
      refine inv.moveTask t (fun d => ?_) (fun d u hu hmem => ?_) (fun u hu => ?_)
        (fun x hp _ => absurd hpoint hp) (fun d u hmem => .inl ?_) (fun d => ?_) (by simp) rfl rfl
      · by_cases hd : d = c <;> simp [hd]
      · by_cases hd : d = c
        · subst hd
          simp [List.mem_erase_of_ne hu, hmem]
        · simpa [hd] using hmem
      · exact ⟨rfl, by simp [World.modify, hu]⟩
      · exact mem_of_mem_eraseTask hmem
      · exact nodup_eraseTask (inv.linked.distinct d)

theorem Sound.taskDone (inv : Sound k w) (hp : w.loop.point t = .finished) (group : ScopeId) :
    Sound k (w.taskDone t group).1 := by
  have same : Sound k { w with doneCallbacks := w.doneCallbacks.erase (t, group) } :=
    inv.moveTask t (fun _ => rfl) (fun _ _ _ => id) (fun _ _ => ⟨rfl, rfl⟩)
      (fun x h _ => absurd hp h) (fun _ _ => .inl) inv.linked.distinct inv.linked.running rfl rfl
  unfold World.taskDone
  simp only
  split
  · exact same
  · exact same
  · rename_i c _
    have hscope : ∀ d, ((w.modify c fun s => { s with tasks := s.tasks.erase t }).scope d) =
        { w.scope d with tasks :=
          ((w.modify c fun s => { s with tasks := s.tasks.erase t }).scope d).tasks } := by
      intro d
      by_cases hd : d = c <;> simp [hd]
    have htasks : ∀ d u, u ≠ t → u ∈ (w.scope d).tasks →
        u ∈ ((w.modify c fun s => { s with tasks := s.tasks.erase t }).scope d).tasks := by
      intro d u hu hmem
      by_cases hd : d = c
      · subst hd
        simp [List.mem_erase_of_ne hu, hmem]
      · simpa [hd] using hmem
    split_ifs
    · exact inv.moveTask t hscope htasks
        (fun u hu => ⟨by simp [World.currentScope, hu], rfl⟩) (fun x h _ => absurd hp h)
        (fun _ _ => .inl ∘ mem_of_mem_eraseTask) (fun d => nodup_eraseTask (inv.linked.distinct d))
        inv.linked.running rfl rfl
    · exact inv.moveTask t hscope htasks (fun _ _ => ⟨rfl, rfl⟩) (fun x h _ => absurd hp h)
        (fun _ _ => .inl ∘ mem_of_mem_eraseTask) (fun d => nodup_eraseTask (inv.linked.distinct d))
        inv.linked.running rfl rfl
    · exact same

theorem Sound.cancel (inv : Sound k w) (c : ScopeId) : Sound k (w.cancel c) :=
  (Inv.cancel inv c).sound fun y => by rw [(cancel_links w c).active]

theorem Sound.timeout (inv : Sound k w) (c : ScopeId) : Sound k (w.timeout c) :=
  (Inv.timeout inv c).sound fun y => by rw [(timeout_links w c).active]

theorem Sound.setDeadline (inv : Sound k w) (c : ScopeId) (value : Option Int) :
    Sound k (w.setDeadline c value) :=
  (Inv.setDeadline inv c value).sound fun y => by rw [(setDeadline_links w c value).active]

theorem Sound.setShield (inv : Sound k w) (c : ScopeId) (value : Bool) :
    Sound k (w.setShield c value) :=
  (Inv.setShield inv c value).sound fun y => by rw [(setShield_links w c value).active]

/-- A queued callback runs: what it did for other scopes stays queued. -/
theorem Sound.runCallback (inv : Sound k w) (h : HandleId) (c : ScopeId) :
    Sound k ({ w with callbacks := w.callbacks.erase (h, c) }.deliver c) := by
  have hkeep : ∀ e ∈ w.callbacks, e.2 ≠ c → e ∈ w.callbacks.erase (h, c) := fun e he hne =>
    (List.mem_erase_of_ne fun heq => hne (congrArg Prod.snd heq)).mpr he
  have hsame : SameTree w { w with callbacks := w.callbacks.erase (h, c) } :=
    ⟨fun _ => rfl, rfl, rfl, fun _ => rfl, rfl, rfl, rfl, rfl⟩
  suffices inv' : Inv k (fun y => (w.scope y).active = true) (fun _ => False)
      ({ w with callbacks := w.callbacks.erase (h, c) }.deliver c) from
    inv'.sound fun y => by rw [(deliver_links _ c).active]
  apply Inv.deliver (hsame.linked inv.linked)
  · exact fun d hd g hg => hkeep _ (inv.queued d g hg) hd
  · intro t x d hx hn
    by_cases hd : d = c
    · exact .inr (.inr hd)
    · refine .inl ?_
      have hlive := (inv.level t x d hx hn).resolve_right id
      cases k with
      | handle => exact hlive
      | queue =>
          obtain ⟨e, he, rfl⟩ := List.mem_map.mp hlive
          exact List.mem_map_of_mem (f := Prod.snd) (hkeep e he hd)

theorem Sound.step {mayPlace : World τ → ScopeId → Prop} {a : Action τ} {o : Answer}
    (hmay : ∀ w c, Sound k w → mayPlace w c → ∀ d, Near w c d → Live k w d)
    (inv : Sound k w) (ok : Orderly mayPlace w a) (h : step w a = some (w', o)) : Sound k w' := by
  have quiet : ∀ {v : World τ}, Quiet w v → Sound k v := fun hq =>
    (hq.inv inv).sound fun y => by rw [hq.active]
  cases a with
  | enter c =>
      simp only [CancelScope.step] at h
      split at h
      · cases h
      · rename_i host hcur
        cases h
        exact inv.enter hcur ok
  | exit c exc =>
      simp only [CancelScope.step] at h
      split at h
      · cases h
      · rename_i host hcur
        cases h
        exact inv.exit hcur (ok host hcur)
  | cancel c =>
      cases h
      exact inv.cancel c
  | setShield c value =>
      cases h
      exact inv.setShield c value
  | setDeadline c value =>
      cases h
      exact inv.setDeadline c value
  | timeout g c =>
      obtain ⟨-, h⟩ := Option.ite_none_right_eq_some.mp h
      cases h
      have fired : Sound k { w with timers := w.timers.erase (g, c) } :=
        quiet
          ⟨⟨fun _ => rfl, rfl, rfl, fun _ => rfl, rfl, rfl, rfl, rfl⟩, fun _ => rfl, fun _ => id⟩
      exact fired.timeout c
  | deliverCancellation g c =>
      obtain ⟨-, h⟩ := Option.ite_none_right_eq_some.mp h
      cases h
      exact inv.runCallback g c
  | spawn c t =>
      obtain ⟨hp, h⟩ := Option.ite_none_right_eq_some.mp h
      cases h
      exact inv.spawn hp ok.1 (hmay w c inv ok.2)
  | taskWrapper c =>
      simp only [CancelScope.step] at h
      split at h
      · cases h
      · obtain ⟨-, h⟩ := Option.ite_none_right_eq_some.mp h
        cases h
        exact inv.taskWrapper ok.1 (hmay w c inv ok.2)
  | createTask t =>
      obtain ⟨hp, h⟩ := Option.ite_none_right_eq_some.mp h
      cases h
      apply inv.moveTo (t := t) (fun u hu => by simp [hu]) (by simp [hp])
      intro u hu
      have hrun := inv.linked.running u hu
      have hut : u ≠ t := by
        rintro rfl
        simp [hp] at hrun
      simpa [hut] using hrun
  | resume t =>
      obtain ⟨⟨-, hw⟩, h⟩ := Option.ite_none_right_eq_some.mp h
      cases h
      refine inv.moveTo (t := t) (fun u hu => by simp [hu]) (fun hp => ?_) fun u hu => ?_
      · simp [Loop.wakeUpQueued, Loop.waits, hp, Coroutine.waits] at hw
      · cases hu
        simp
  | sleep =>
      simp only [CancelScope.step] at h
      split at h
      · cases h
      · rename_i t hcur
        cases h
        exact inv.moveTo (t := t) (fun u hu => by simp [hu]) (inv.linked.alive hcur) (by simp)
  | await f =>
      simp only [CancelScope.step] at h
      split at h
      · cases h
      · rename_i t hcur
        obtain ⟨-, h⟩ := Option.ite_none_right_eq_some.mp h
        cases h
        exact inv.moveTo (t := t) (fun u hu => by simp [hu]) (inv.linked.alive hcur) (by simp)
  | finish =>
      simp only [CancelScope.step] at h
      split at h
      · cases h
      · cases h
        exact inv.finish _
  | taskDone t group =>
      obtain ⟨⟨-, hp, -⟩, h⟩ := Option.ite_none_right_eq_some.mp h
      cases h
      exact inv.taskDone hp group
  | nativeCancel t =>
      obtain ⟨-, h⟩ := Option.ite_none_right_eq_some.mp h
      cases h
      exact quiet
        ⟨⟨fun _ => rfl, rfl, rfl, fun u => by simp, rfl, rfl, rfl, rfl⟩, fun _ => rfl, fun _ => id⟩
  | createFuture =>
      cases h
      exact quiet
        ⟨⟨fun _ => rfl, rfl, rfl, fun _ => rfl, rfl, rfl, rfl, rfl⟩, fun _ => rfl, fun _ => id⟩
  | setResult f =>
      simp only [CancelScope.step] at h
      split at h
      · cases h
        exact inv
      · rename_i l hl
        cases h
        obtain ⟨-, rfl⟩ := Loop.setResult_eq_some.mp hl
        exact quiet
          ⟨⟨fun _ => rfl, rfl, rfl, fun _ => rfl, rfl, rfl, rfl, rfl⟩, fun _ => rfl, fun _ => id⟩
  | setTime now =>
      obtain ⟨-, h⟩ := Option.ite_none_right_eq_some.mp h
      cases h
      exact quiet
        ⟨⟨fun _ => rfl, rfl, rfl, fun _ => rfl, rfl, rfl, rfl, rfl⟩, fun _ => rfl, fun _ => id⟩

omit [DecidableEq τ] in
theorem Sound.initial (minor : Nat) : Sound k (initial τ minor) where
  linked := .initial minor
  queued _ _ h := by simp [CancelScope.initial] at h
  level _ _ _ h := by simp [CancelScope.initial] at h

theorem Sound.of_run {mayPlace : World τ → ScopeId → Prop} {minor : Nat}
    (hmay : ∀ w c, Sound k w → mayPlace w c → ∀ d, Near w c d → Live k w d)
    (run : (machine τ).Reachable (Orderly mayPlace) (CancelScope.initial τ minor) w) : Sound k w :=
  run.invariant (.initial minor) fun _ _ _ _ hi ok h => hi.step hmay ok h

/-- A run of the queued callback `(h, c)` cancels the task `t` in its scope
`x`, if `t` is ready for it by then. -/
structure Served (w : World τ) (t : τ) (x : ScopeId) (h : HandleId) (c : ScopeId) : Prop where
  queued : (h, c) ∈ w.callbacks
  reaches : Reaches w c x
  listed : t ∈ (w.scope x).tasks
  cancels : w.current = none → Ready w x t → ∃ w' o,
    step w (.deliverCancellation h c) = some (w', o) ∧ w'.loop.throws t = true

theorem Sound.served (inv : Sound k w) {h : HandleId} (hp : w.loop.point t ≠ .finished)
    (hx : w.currentScope t = some x) (hn : Near w x c) (hq : (h, c) ∈ w.callbacks) :
    Served w t x h c := by
  obtain ⟨hmem, hopen⟩ := inv.linked.inside t x hp hx
  have hreach := inv.linked.reaches hopen hn
  refine ⟨hq, hreach, hmem, fun hcur ready => ?_⟩
  have hsame : SameTree w { w with callbacks := w.callbacks.erase (h, c) } :=
    ⟨fun _ => rfl, rfl, rfl, fun _ => rfl, rfl, rfl, rfl, rfl⟩
  have harr := (deliver_arrived (hsame.linked inv.linked) hreach hmem).2
  exact ⟨_, _, if_pos ⟨hcur, hq⟩, harr ⟨ready.alive, ready.notCurrent, ready.eligible, ready.waits⟩⟩

/-- In a run in which no task is placed into an effectively cancelled scope,
the closest cancelled scope `c` of an unfinished task has a `_cancel_handle`,
and the callback behind it gets to the task. -/
theorem level_cancellation {minor : Nat}
    (run : (machine τ).Reachable (Orderly fun w c => w.effectivelyCancelled c = false)
      (initial τ minor) w)
    (alive : w.loop.point t ≠ .finished) (hx : w.currentScope t = some x) :
    (w.effectivelyCancelled x = true ↔ ∃ c, Near w x c) ∧
      ∀ c, Near w x c → ∃ h, (w.scope c).cancelHandle = some h ∧ Served w t x h c := by
  have inv : Sound .handle w := .of_run (fun w c inv hmay d hd => by
    have heff : w.effectivelyCancelled c = true :=
      inv.linked.effectivelyCancelled.mpr ⟨d, hd⟩
    simp [hmay] at heff) run
  refine ⟨inv.linked.effectivelyCancelled, fun c hn => ?_⟩
  have hmem := (inv.linked.inside t x alive hx).1
  have hlive : Live .handle w c := (inv.level t x c hmem hn).resolve_right id
  obtain ⟨h, hh⟩ := Option.ne_none_iff_exists'.mp hlive
  exact ⟨h, hh, inv.served alive hx hn (inv.queued c h hh)⟩

/-- Task 0 is shielded in scope 1 when scope 0 is cancelled, so that nothing is
delivered, and lifts the shield later. -/
def shieldLifted : World (Fin 1) :=
  ((machine (Fin 1)).exec (Orderly fun w c => w.effectivelyCancelled c = false)
    (initial (Fin 1) 12) [.createTask 0, .resume 0, .enter 0, .enter 1, .setShield 1 true,
      .cancel 0, .sleep, .resume 0, .setShield 1 false, .sleep]).get (by decide)

theorem level_cancellation_shield_lifted :
    shieldLifted.loop.point 0 = .yielding ∧ shieldLifted.currentScope 0 = some 1 ∧
      Near shieldLifted 1 0 ∧
      ∃ h, (shieldLifted.scope 0).cancelHandle = some h ∧ Served shieldLifted 0 1 h 0 := by
  have run : (machine (Fin 1)).Reachable (Orderly fun w c => w.effectivelyCancelled c = false)
      (initial (Fin 1) 12) shieldLifted := Machine.exec_get_reachable _ _ _
  have hp : shieldLifted.loop.point 0 = .yielding := by decide
  have hx : shieldLifted.currentScope 0 = some 1 := by decide
  have hn : Near shieldLifted 1 0 := .up (by decide) (by decide) (by decide) (.here (by decide))
  exact ⟨hp, hx, hn, (level_cancellation run (by simp [hp]) hx).2 0 hn⟩

end Anyio.CancelScope
