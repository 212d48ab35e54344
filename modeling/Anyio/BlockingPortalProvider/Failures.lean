import Anyio.BlockingPortalProvider.Leases

/-!
# Start-ups that fail

`__enter__()` stores the context manager before it enters it. Whether threads
exit as often as they entered or not, every call does what it should up to the
first start-up that fails, and that one leaves its context manager behind.
-/

namespace Anyio.BlockingPortalProvider

open Library

/-- `_leases`, `_portal_cm` and `_portal`. -/
abbrev Fields := Nat × Option PortalId × Option PortalId

/-- The fields as the last thread to enter with the lock found them, the portals started and told
to stop, whether a start-up has failed, and whether every `__enter__()` ended as it should. -/
structure Watch where
  found : Fields
  started : List PortalId
  stopped : List PortalId
  failed : Bool
  intact : Bool
  deriving DecidableEq, Repr

def Watch.start : Watch := ⟨(0, none, none), [], [], false, true⟩

variable {τ : Type*} [DecidableEq τ]

def fields (s : State τ) : Fields := (s.leases, s.portalCm, s.portal)

def Action.isFailure : Action τ → Bool
  | .startFails _ _ => true
  | _ => false

/-- An `__enter__()` that raises raises the error of its own start-up and leaves the fields as it
found them. One that returns has started a new portal, or shares a portal that was started and has
not been told to stop. -/
def endsWell (h : Watch) (s : State τ) : Action τ → Reply → Bool
  | .startFails t error, .raised raised =>
      raised = error ∧
        (step s (.startFails t error)).map (fun r => fields r.1) = some h.found
  | .started _, .raised _ => false
  | .started t, .entered portal => s.point t = .starting portal ∧ portal ∉ h.started
  | .proceed t, .raised _ => s.point t ≠ .entering
  | .proceed _, .entered portal => portal ∈ h.started ∧ portal ∉ h.stopped
  | _, _ => true

def foundBy (h : Watch) (s : State τ) : Action τ → Fields
  | .proceed t => if s.point t = .entering then fields s else h.found
  | _ => h.found

def watch (h : Watch) (s : State τ) (a : Action τ) (r : Reply) : Watch where
  found := foundBy h s a
  started := h.started ++ startedBy a r
  stopped := h.stopped ++ stoppedBy r
  failed := h.failed || a.isFailure
  intact := h.intact && endsWell h s a r

abbrev watched (τ : Type*) [DecidableEq τ] : Machine (State τ × Watch) (Action τ) Reply :=
  (machine τ).withHistory watch

variable {s s' : State τ} {h : Watch} {a : Action τ} {r : Reply} {t u : τ} {cm portal : PortalId}

/-- The threads that stand in a `with self._lock` block have the lock. -/
def Locked (s : State τ) : Prop := ∀ t, (s.point t).holdsLock = true ↔ s.lock = some t

theorem lease_fst (s : State τ) (t : τ) :
    (lease s t).1 = release { s with leases := s.leases + 1 } t .outside := by
  rw [lease]
  split <;> rfl

/-- How `__exit__()` with the lock may end. -/
theorem exit_cases (s : State τ) (t : τ) :
    (∃ error, exit s t = (release s t .outside, .raised error)) ∨
    (1 < s.leases ∧ exit s t = (release { s with leases := s.leases - 1 } t .outside, .left)) ∨
    ∃ cm, s.portalCm = some cm ∧ s.leases = 1 ∧
      ((s.portal = none ∧
          exit s t = (release { s with leases := 0, portalCm := none } t .outside,
            .raised .attributeError)) ∨
        (s.portal ≠ none ∧
          exit s t = (release { s with leases := 0, portalCm := none, portal := none } t
            (.stopping cm), .left))) := by
  obtain hcm | ⟨cm, hcm⟩ := Option.eq_none_or_eq_some s.portalCm
  · exact .inl ⟨.assertionError, by rw [exit, hcm]⟩
  · rcases Nat.lt_trichotomy s.leases 1 with hleases | hleases | hleases
    · have hzero : s.leases = 0 := by omega
      exact .inl ⟨.assertionError, by simp only [exit, hcm, if_pos hzero]⟩
    · refine .inr (.inr ⟨cm, hcm, hleases, ?_⟩)
      obtain hportal | ⟨portal, hportal⟩ := Option.eq_none_or_eq_some s.portal
      · exact .inl ⟨hportal, by simp [exit, hcm, hleases, hportal]⟩
      · exact .inr ⟨by simp [hportal], exit_of_last hcm hportal hleases t⟩
    · exact .inr (.inl ⟨hleases, exit_of_more hcm hleases t⟩)

/-- Only the thread that moved has taken or released the lock. -/
theorem Locked.moved (locked : Locked s) (hpoint : ∀ u, u ≠ t → s'.point u = s.point u)
    (hself : (s'.point t).holdsLock = true ↔ s'.lock = some t)
    (hothers : ∀ u, u ≠ t → (s'.lock = some u ↔ s.lock = some u)) : Locked s' := by
  intro u
  by_cases hu : u = t
  · rw [hu]
    exact hself
  · rw [hpoint u hu, locked, hothers u hu]

theorem Locked.release (locked : Locked s) (hp : (s.point t).holdsLock = true) {p : Point}
    (hto : p.holdsLock = false) {m : State τ} (hpoint : m.point = s.point) :
    Locked (release m t p) := by
  have hlock := (locked t).mp hp
  refine locked.moved (t := t) (fun u hu => ?_) ?_ fun u hu => ?_
  · simp [hu, hpoint]
  · simp [BlockingPortalProvider.release, hto]
  · simp [BlockingPortalProvider.release, hlock, Ne.symm hu]

/-- A thread that neither takes nor releases the lock. -/
theorem Locked.move (locked : Locked s) {p : Point}
    (hp : p.holdsLock = (s.point t).holdsLock) {m : State τ} (hpoint : m.point = s.point)
    (hlock : m.lock = s.lock) : Locked (moveTo m t p) := by
  refine locked.moved (t := t) (fun u hu => ?_) ?_ fun u _ => ?_
  · simp [hu, hpoint]
  · rw [moveTo_point, if_pos rfl, hp, locked]
    exact Iff.of_eq (congrArg (· = some t) hlock.symm)
  · exact Iff.of_eq (congrArg (· = some u) hlock)

theorem Locked.acquire (locked : Locked s) (hl : s.lock = none) {p : Point}
    (hp : p.holdsLock = true) : Locked { moveTo s t p with lock := some t } := by
  refine locked.moved (t := t) (fun u hu => ?_) ?_ fun u hu => ?_
  · simp [hu]
  · simp [hp]
  · simp [hl, Ne.symm hu]

theorem Locked.step (locked : Locked s) (change : Change s a s' r) : Locked s' := by
  cases change with
  | asks hp => exact locked.move (by rw [hp]; rfl) rfl rfl
  | leaves hp => exact locked.move (by rw [hp]; rfl) rfl rfl
  | locksEnter hl hp => exact locked.acquire hl rfl
  | locksExit hl hp => exact locked.acquire hl rfl
  | starts hp hcm => exact locked.move (by rw [hp]; rfl) rfl rfl
  | enters hp hcm =>
      rw [lease_fst]
      exact locked.release (by rw [hp]; rfl) rfl rfl
  | @exits t hp =>
      have hheld : (s.point t).holdsLock = true := by rw [hp]; rfl
      obtain ⟨_, heq⟩ | ⟨-, heq⟩ | ⟨cm, -, -, ⟨-, heq⟩ | ⟨-, heq⟩⟩ := exit_cases s t <;>
        rw [heq] <;> exact locked.release hheld rfl rfl
  | stops hp => exact locked.move (by rw [hp]; rfl) rfl rfl
  | joined hp => exact locked.move (by rw [hp]; rfl) rfl rfl
  | started hp =>
      rw [lease_fst]
      exact locked.release (by rw [hp]; rfl) rfl rfl
  | fails hp => exact locked.release (by rw [hp]; rfl) rfl rfl

/-- The portal was told to stop, or is about to be. -/
def Ended (s : State τ) (h : Watch) (cm : PortalId) : Prop :=
  cm ∈ h.stopped ∨ ∃ u, s.point u = .stopping cm

/-- The thread that starts a portal found none, and has stored the context manager. -/
def Began (s : State τ) (h : Watch) : Prop :=
  ∀ t cm, s.point t = .starting cm → s.portalCm ≠ none ∧ h.found.2.1 = none

/-- What holds of the fields as long as no start-up has failed. -/
structure Sane (s : State τ) (h : Watch) : Prop where
  starting : ∀ t cm, s.point t = .starting cm →
    s.portalCm = some cm ∧ s.portal = none ∧ s.leases = 0 ∧ cm ∉ h.started ∧ ¬ Ended s h cm
  ready : (∀ t cm, s.point t ≠ .starting cm) →
    s.portal = s.portalCm ∧ (s.portalCm = none ↔ s.leases = 0)
  running : ∀ cm, s.portal = some cm → cm ∈ h.started ∧ ¬ Ended s h cm
  known : ∀ cm, cm ∈ h.started ∨ Ended s h cm ∨ s.portalCm = some cm → cm < s.nextPortal

omit [DecidableEq τ] in
/-- A thread with the lock keeps the others from starting a portal. -/
theorem Locked.not_starting (locked : Locked s) (hp : (s.point t).holdsLock = true)
    (hu : u ≠ t) (cm : PortalId) : s.point u ≠ .starting cm := by
  intro hstarting
  have hlock := (locked u).mp (by rw [hstarting]; rfl)
  exact hu (Option.some.inj (hlock.symm.trans ((locked t).mp hp)))

omit [DecidableEq τ] in
/-- Steps that touch neither the fields nor a thread that starts a portal. -/
theorem Sane.frame {h' : Watch} (sane : Sane s h)
    (hpoint : ∀ u cm, s'.point u = .starting cm ↔ s.point u = .starting cm)
    (hfields : fields s' = fields s) (hnext : s'.nextPortal = s.nextPortal)
    (hstarted : h'.started = h.started) (hended : ∀ cm, Ended s' h' cm → Ended s h cm) :
    Sane s' h' := by
  simp only [fields, Prod.mk.injEq] at hfields
  obtain ⟨hleases, hcm, hportal⟩ := hfields
  constructor
  case starting =>
    intro t cm hp
    obtain ⟨hcm', hportal', hleases', hnew, hlive⟩ := sane.starting t cm ((hpoint t cm).mp hp)
    exact ⟨hcm.trans hcm', hportal.trans hportal', hleases.trans hleases', hstarted ▸ hnew,
      fun hend => hlive (hended cm hend)⟩
  case ready =>
    intro hnone
    rw [hleases, hcm, hportal]
    exact sane.ready fun t cm hp => hnone t cm ((hpoint t cm).mpr hp)
  case running =>
    intro cm hp
    obtain ⟨hmem, hlive⟩ := sane.running cm (hportal ▸ hp)
    exact ⟨hstarted ▸ hmem, fun hend => hlive (hended cm hend)⟩
  case known =>
    intro cm hk
    rw [hnext]
    rw [hstarted, hcm] at hk
    exact sane.known cm (hk.imp_right (Or.imp_left (hended cm)))

/-- A thread moves between points at which it has nothing to do with the life of a portal. -/
theorem Sane.walk {h' : Watch} {p : Point} {lock : Option τ} (sane : Sane s h)
    (hfrom : (s.point t).isQuiet = true) (hto : p.isQuiet = true)
    (hstarted : h'.started = h.started) (hstopped : h'.stopped = h.stopped) :
    Sane { moveTo s t p with lock := lock } h' := by
  have hsame : ∀ u q, q.isQuiet = false →
      ((moveTo s t p).point u = q ↔ s.point u = q) := by
    intro u q hq
    by_cases hu : u = t
    · rw [moveTo_point, if_pos hu, hu]
      exact iff_of_false (fun heq => by simp [heq, hq] at hto) fun heq => by simp [heq, hq] at hfrom
    · rw [moveTo_point, if_neg hu]
  refine sane.frame (fun u cm => hsame u _ rfl) rfl rfl hstarted fun cm => ?_
  rintro (hmem | ⟨u, hu⟩)
  · exact .inl (hstopped ▸ hmem)
  · exact .inr ⟨u, (hsame u _ rfl).mp hu⟩

omit [DecidableEq τ] in
theorem Locked.none_starting (locked : Locked s) (hp : (s.point t).holdsLock = true)
    (hne : ∀ cm, s.point t ≠ .starting cm) (u : τ) (cm : PortalId) :
    s.point u ≠ .starting cm := by
  by_cases hu : u = t
  · rw [hu]
    exact hne cm
  · exact locked.not_starting hp hu cm

omit [DecidableEq τ] in
@[simp] theorem startedBy_proceed (t : τ) (r : Reply) : startedBy (.proceed t) r = [] := by
  cases r <;> rfl

/-- `__enter__()` finds no portal and calls `start_blocking_portal()`. -/
theorem Sane.starts (sane : Sane s h) (locked : Locked s) (hp : s.point t = .entering)
    (hcm : s.portalCm = none) :
    Sane (moveTo { s with portalCm := some s.nextPortal, nextPortal := s.nextPortal + 1 } t
      (.starting s.nextPortal)) (watch h s (.proceed t) .going) := by
  have hothers := locked.none_starting (t := t) (by rw [hp]; rfl) (by simp [hp])
  obtain ⟨hportal, hleases⟩ := sane.ready hothers
  have hended : ∀ cm, Ended (moveTo { s with
        portalCm := some s.nextPortal, nextPortal := s.nextPortal + 1 } t
      (.starting s.nextPortal)) (watch h s (.proceed t) .going) cm → Ended s h cm := by
    rintro cm (hmem | ⟨u, hu⟩)
    · exact .inl (by simpa [watch, stoppedBy] using hmem)
    · by_cases hut : u = t
      · simp [hut] at hu
      · exact .inr ⟨u, by simpa [hut] using hu⟩
  constructor
  case starting =>
    intro u cm hu
    by_cases hut : u = t
    · obtain rfl : s.nextPortal = cm := by simpa [hut] using hu
      refine ⟨rfl, hportal.trans hcm, hleases.mp hcm, fun hmem => ?_, fun hend => ?_⟩
      · exact absurd (sane.known _ (.inl (by simpa [watch] using hmem))) (Nat.lt_irrefl _)
      · exact absurd (sane.known _ (.inr (.inl (hended _ hend)))) (Nat.lt_irrefl _)
    · exact absurd (by simpa [hut] using hu) (hothers u cm)
  case ready =>
    intro hnone
    exact absurd (by simp) (hnone t s.nextPortal)
  case running =>
    intro cm hsome
    have hnone : s.portal = none := hportal.trans hcm
    exact absurd (hsome.symm.trans hnone) (by simp)
  case known =>
    rintro cm (hmem | hend | hsome)
    · exact Nat.lt_succ_of_lt (sane.known cm (.inl (by simpa [watch] using hmem)))
    · exact Nat.lt_succ_of_lt (sane.known cm (.inr (.inl (hended cm hend))))
    · cases hsome
      exact Nat.lt_succ_self _

/-- The end of a step in which the thread with the lock leaves the block, and no portal is being
started any more. -/
theorem Sane.unlocked {h' : Watch} {m : State τ} {p : Point} (sane : Sane s h)
    (hothers : ∀ u, u ≠ t → ∀ cm, s.point u ≠ .starting cm) (hpoint : m.point = s.point)
    (hnext : m.nextPortal = s.nextPortal) (hp : ∀ cm, p ≠ .starting cm)
    (hready : m.portal = m.portalCm ∧ (m.portalCm = none ↔ m.leases = 0))
    (hold : ∀ cm, m.portalCm = some cm → s.portalCm = some cm ∧ cm ∈ h'.started)
    (hstarted : ∀ cm ∈ h'.started, cm ∈ h.started ∨ s.portalCm = some cm)
    (hstopping : ∀ cm, p = .stopping cm → s.portalCm = some cm)
    (hended : ∀ cm, Ended (release m t p) h' cm → p = .stopping cm ∨ Ended s h cm)
    (hlive : ∀ cm, m.portalCm = some cm → ¬ Ended (release m t p) h' cm) :
    Sane (release m t p) h' := by
  have hnone : ∀ u cm, (release m t p).point u ≠ .starting cm := by
    intro u cm
    by_cases hu : u = t
    · simpa [hu] using hp cm
    · simpa [hu, hpoint] using hothers u hu cm
  constructor
  case starting => exact fun u cm hu => absurd hu (hnone u cm)
  case ready => exact fun _ => hready
  case running =>
    intro cm hsome
    have hcm : m.portalCm = some cm := hready.1.symm.trans hsome
    exact ⟨(hold cm hcm).2, hlive cm hcm⟩
  case known =>
    rintro cm hk
    change cm < m.nextPortal
    rw [hnext]
    rcases hk with hmem | hend | hsome
    · rcases hstarted cm hmem with hmem | hcm
      · exact sane.known cm (.inl hmem)
      · exact sane.known cm (.inr (.inr hcm))
    · rcases hended cm hend with hp | hend
      · exact sane.known cm (.inr (.inr (hstopping cm hp)))
      · exact sane.known cm (.inr (.inl hend))
    · exact sane.known cm (.inr (.inr (hold cm hsome).1))

omit [DecidableEq τ] in
/-- A thread that leaves the block has ended no portal but the one it goes on to stop. -/
theorem ended_release [DecidableEq τ] {h' : Watch} {m : State τ} {p : Point}
    (hpoint : m.point = s.point) (hstopped : h'.stopped = h.stopped)
    (hend : Ended (release m t p) h' cm) : p = .stopping cm ∨ Ended s h cm := by
  obtain hmem | ⟨u, hu⟩ := hend
  · exact .inr (.inl (hstopped ▸ hmem))
  · by_cases hut : u = t
    · exact .inl (by simpa [hut] using hu)
    · exact .inr (.inr ⟨u, by simpa [hut, hpoint] using hu⟩)

/-- The thread with the lock only changes the number of leases. -/
theorem Sane.recounted {h' : Watch} {p : Point} {n : Nat} (sane : Sane s h)
    (hothers : ∀ u cm, s.point u ≠ .starting cm) (hleases : s.portalCm = none ↔ n = 0)
    (hp : ∀ cm, p ≠ .starting cm) (hstops : ∀ cm, p ≠ .stopping cm)
    (hstarted : h'.started = h.started) (hstopped : h'.stopped = h.stopped) :
    Sane (release { s with leases := n } t p) h' := by
  obtain ⟨hportal, -⟩ := sane.ready hothers
  apply sane.unlocked (m := { s with leases := n }) (fun u _ => hothers u) rfl rfl hp
    ⟨hportal, hleases⟩
  · exact fun cm hcm => ⟨hcm, hstarted ▸ (sane.running cm (hportal.trans hcm)).1⟩
  · exact fun cm hcm => .inl (hstarted ▸ hcm)
  · exact fun cm hcm => absurd hcm (hstops cm)
  · exact fun cm => ended_release rfl hstopped
  · intro cm hcm hend
    exact (sane.running cm (hportal.trans hcm)).2
      ((ended_release rfl hstopped hend).resolve_left (hstops cm))

/-- Up to the first failure every step keeps the fields sane, and every `__enter__()` ends as it
should. -/
theorem Sane.step (sane : Sane s h) (locked : Locked s) (change : Change s a s' r)
    (ok : a.isFailure = false) : Sane s' (watch h s a r) ∧ endsWell h s a r = true := by
  cases change with
  | asks hp => exact ⟨sane.walk (by rw [hp]; rfl) rfl (List.append_nil _) (List.append_nil _), rfl⟩
  | leaves hp =>
      exact ⟨sane.walk (by rw [hp]; rfl) rfl (List.append_nil _) (List.append_nil _), rfl⟩
  | locksEnter hl hp =>
      exact ⟨sane.walk (by rw [hp]; rfl) rfl (List.append_nil _) (List.append_nil _), rfl⟩
  | locksExit hl hp =>
      exact ⟨sane.walk (by rw [hp]; rfl) rfl (List.append_nil _) (List.append_nil _), rfl⟩
  | joined hp =>
      exact ⟨sane.walk (by rw [hp]; rfl) rfl (List.append_nil _) (List.append_nil _), rfl⟩
  | starts hp hcm => exact ⟨sane.starts locked hp hcm, rfl⟩
  | @stops t cm hp =>
      refine ⟨sane.frame (fun u d => ?_) rfl rfl (List.append_nil _) fun d => ?_, rfl⟩
      · by_cases hu : u = t <;> simp [hu, hp]
      · rintro (hmem | ⟨u, hu⟩)
        · rcases List.mem_append.mp hmem with hmem | hmem
          · exact .inl hmem
          · obtain rfl := List.mem_singleton.mp hmem
            exact .inr ⟨t, hp⟩
        · by_cases hut : u = t
          · simp [hut] at hu
          · exact .inr ⟨u, by simpa [hut] using hu⟩
  | @enters t cm hp hcm =>
      have hothers := locked.none_starting (t := t) (by rw [hp]; rfl) (by simp [hp])
      obtain ⟨hportal, hleases⟩ := sane.ready hothers
      have hsome : s.portal = some cm := hportal.trans hcm
      obtain ⟨hmem, hlive⟩ := sane.running cm hsome
      rw [lease_eq hsome]
      refine ⟨?_, by simpa [endsWell] using ⟨hmem, fun hstopped => hlive (.inl hstopped)⟩⟩
      exact sane.recounted hothers (by simp [hcm]) (by simp) (by simp) (by simp [watch])
        (List.append_nil _)
  | @exits t hp =>
      have hothers := locked.none_starting (t := t) (by rw [hp]; rfl) (by simp [hp])
      obtain ⟨hportal, hleases⟩ := sane.ready hothers
      obtain ⟨error, heq⟩ | ⟨hmore, heq⟩ | ⟨cm, hcm, hone, ⟨hnone, -⟩ | ⟨-, heq⟩⟩ := exit_cases s t
      · rw [heq]
        refine ⟨sane.walk (by rw [hp]; rfl) rfl (by simp [watch]) (List.append_nil _), ?_⟩
        simp [endsWell, hp]
      · rw [heq]
        refine ⟨?_, rfl⟩
        exact sane.recounted hothers (hleases.trans (by omega)) (by simp) (by simp)
          (by simp [watch]) (List.append_nil _)
      · exact absurd (hnone.symm.trans (hportal.trans hcm)) (by simp)
      · rw [heq]
        refine ⟨?_, rfl⟩
        apply sane.unlocked (m := { s with leases := 0, portalCm := none, portal := none })
          (fun u _ => hothers u) rfl rfl (by simp) ⟨rfl, by simp⟩
        · simp
        · exact fun d hd => .inl (by simpa [watch] using hd)
        · intro d hd
          cases hd
          exact hcm
        · exact fun d => ended_release rfl (List.append_nil _)
        · simp
  | @started t cm hp =>
      obtain ⟨hcm, hportal, hleases, hnew, hlive⟩ := sane.starting t cm hp
      have hothers := fun u (hu : u ≠ t) => locked.not_starting (t := t) (by rw [hp]; rfl) hu
      rw [lease_eq rfl]
      refine ⟨?_, by simpa [endsWell, hp] using hnew⟩
      apply sane.unlocked (m := { s with portal := some cm, leases := s.leases + 1 }) hothers rfl rfl
        (by simp) ⟨hcm.symm, by simp [hcm]⟩
      · intro d hd
        obtain rfl : cm = d := Option.some.inj (hcm.symm.trans hd)
        exact ⟨hd, by simp [watch, startedBy]⟩
      · intro d hd
        rcases List.mem_append.mp hd with hd | hd
        · exact .inl hd
        · obtain rfl := List.mem_singleton.mp hd
          exact .inr hcm
      · simp
      · exact fun d => ended_release rfl (List.append_nil _)
      · intro d hd hend
        obtain rfl : cm = d := Option.some.inj (hcm.symm.trans hd)
        exact hlive ((ended_release rfl (List.append_nil _) hend).resolve_left (by simp))
  | fails => exact absurd ok (by simp [Action.isFailure])

/-- A step of a thread that does not start a portal, and leaves those alone that do. -/
theorem Began.frame {h' : Watch} (began : Began s h) {p : Point} {m : State τ}
    (hm : m.point = Function.update s.point t p) (hp : ∀ cm, p ≠ .starting cm)
    (hcm : m.portalCm = s.portalCm) (hfound : h'.found = h.found) : Began m h' := by
  intro u cm hu
  rw [hm, Function.update_apply] at hu
  by_cases hut : u = t
  · rw [if_pos hut] at hu
    exact absurd hu (hp cm)
  · rw [if_neg hut] at hu
    rw [hcm, hfound]
    exact began u cm hu

/-- Nobody starts a portal once the thread with the lock has left the block. -/
theorem began_release {h' : Watch} {m : State τ} {p : Point} (locked : Locked s)
    (hp : (s.point t).holdsLock = true) (hpoint : m.point = s.point)
    (hto : ∀ cm, p ≠ .starting cm) : Began (release m t p) h' := by
  intro u cm hu
  by_cases hut : u = t
  · exact absurd (by simpa [hut] using hu) (hto cm)
  · exact absurd (by simpa [hut, hpoint] using hu) (locked.not_starting hp hut cm)

theorem Began.step (began : Began s h) (locked : Locked s) (change : Change s a s' r) :
    Began s' (watch h s a r) := by
  cases change with
  | asks => exact began.frame rfl (by simp) rfl rfl
  | leaves => exact began.frame rfl (by simp) rfl rfl
  | locksEnter => exact began.frame rfl (by simp) rfl rfl
  | locksExit => exact began.frame rfl (by simp) rfl rfl
  | stops hp => exact began.frame rfl (by simp) rfl (by simp [watch, foundBy, hp])
  | joined hp => exact began.frame rfl (by simp) rfl (by simp [watch, foundBy, hp])
  | @starts t hp hcm =>
      intro u cm hu
      by_cases hut : u = t
      · exact ⟨by simp [moveTo], by simpa [watch, foundBy, hp, fields] using hcm⟩
      · exact absurd (by simpa [hut] using hu) (locked.not_starting (by rw [hp]; rfl) hut cm)
  | enters hp =>
      rw [lease_fst]
      exact began_release locked (by rw [hp]; rfl) rfl (by simp)
  | @exits t hp =>
      have hheld : (s.point t).holdsLock = true := by rw [hp]; rfl
      obtain ⟨_, heq⟩ | ⟨-, heq⟩ | ⟨cm, -, -, ⟨-, heq⟩ | ⟨-, heq⟩⟩ := exit_cases s t <;>
        rw [heq] <;> exact began_release locked hheld rfl (by simp)
  | started hp =>
      rw [lease_fst]
      exact began_release locked (by rw [hp]; rfl) rfl (by simp)
  | fails hp => exact began_release locked (by rw [hp]; rfl) rfl (by simp)

/-- A start-up that fails leaves the context manager in `_portal_cm`. -/
theorem Began.not_endsWell (began : Began s h) {error : Error} (hp : s.point t = .starting cm) :
    endsWell h s (.startFails t error) (.raised error) = false := by
  obtain ⟨hcm, hfound⟩ := began t cm hp
  have hchanged : fields (release s t .outside) ≠ h.found := fun heq =>
    hcm ((congrArg (fun f : Fields => f.2.1) heq).trans hfound)
  have hs : BlockingPortalProvider.step s (.startFails t error) =
      some (release s t .outside, .raised error) := by
    simp only [BlockingPortalProvider.step, hp]
  rw [endsWell, hs]
  simpa using hchanged

/-- In every run, whatever the threads do, each `__enter__()` up to now has ended as it should
exactly if no start-up of a portal has failed. -/
theorem enter_intact (run : (watched τ).Reachable Machine.anyStep (initial τ, .start) (s, h)) :
    h.intact = true ↔ h.failed = false := by
  have inv : Locked s ∧ Began s h ∧
      (h.failed = false → Sane s h ∧ h.intact = true) ∧ (h.failed = true → h.intact = false) := by
    refine run.invariant_history (I := fun s h => Locked s ∧ Began s h ∧
      (h.failed = false → Sane s h ∧ h.intact = true) ∧ (h.failed = true → h.intact = false)) ?_ ?_
    · refine ⟨by simp [Locked, initial, Point.holdsLock], by simp [Began, initial],
        fun _ => ⟨?_, rfl⟩, by simp [Watch.start]⟩
      constructor <;> simp [initial, Watch.start, Ended]
    · rintro s h a s' r ⟨locked, began, sound, broken⟩ - hs
      have change := step_change hs
      refine ⟨locked.step change, began.step locked change, fun hfailed => ?_, fun hfailed => ?_⟩
      · obtain ⟨hbefore, ok⟩ := Bool.or_eq_false_iff.mp hfailed
        obtain ⟨sane, hintact⟩ := sound hbefore
        obtain ⟨sane', hend⟩ := sane.step locked change ok
        exact ⟨sane', by simp [watch, hintact, hend]⟩
      · obtain hbefore | hfails := (Bool.or_eq_true _ _).mp hfailed
        · simp [watch, broken hbefore]
        · cases change with
          | fails hp => simp [watch, began.not_endsWell hp]
          | _ => simp [Action.isFailure] at hfails
  obtain ⟨-, -, sound, broken⟩ := inv
  cases hfailed : h.failed with
  | false => exact iff_of_true (sound hfailed).2 rfl
  | true => simp [broken hfailed]

/-- Two threads share a portal, one of them exits once too often, and a portal is started anew. -/
theorem enter_intact_twice :
    ∃ s h, (watched (Fin 2)).Reachable Machine.anyStep (initial (Fin 2), .start) (s, h) ∧
      h.started = [0, 1] ∧ h.intact = true := by
  have run : (watched (Fin 2)).Reachable Machine.anyStep (initial (Fin 2), .start) _ :=
    Machine.exec_get_reachable _
      [.enter 0, .acquire 0, .proceed 0, .enter 1, .started 0, .acquire 1, .proceed 1, .exit 1,
        .acquire 1, .proceed 1, .exit 1, .acquire 1, .proceed 1, .enter 0, .acquire 0, .proceed 0,
        .started 0, .proceed 1] (by decide)
  exact ⟨_, _, run, by decide, (enter_intact run).mpr (by decide)⟩

/-- The start-up of the first portal fails. The next `__enter__()` finds its context manager,
starts nothing and fails on the missing `_portal`. -/
theorem failed_enter_remembered :
    ∃ s h, (watched (Fin 1)).Reachable Machine.anyStep (initial (Fin 1), .start) (s, h) ∧
      fields s = (0, some 0, none) ∧ h.found = (0, none, none) ∧
      s.point 0 = .outside ∧
      ((watched (Fin 1)).exec Machine.anyStep (s, h) [.enter 0, .acquire 0]).bind (fun p =>
        (step p.1 (.proceed 0)).map fun q => (fields q.1, q.2)) =
          some ((1, some 0, none), .raised .attributeError) := by
  have run : (watched (Fin 1)).Reachable Machine.anyStep (initial (Fin 1), .start) _ :=
    Machine.exec_get_reachable _
      [.enter 0, .acquire 0, .proceed 0, .startFails 0 (.other "LookupError")] (by decide)
  exact ⟨_, _, run, by decide, by decide, by decide, by decide⟩

end Anyio.BlockingPortalProvider
