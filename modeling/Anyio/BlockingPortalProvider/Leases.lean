import Anyio.BlockingPortalProvider.Model
import Mathlib.Data.List.Nodup
import Mathlib.Data.List.Perm.Basic

/-!
# Leases of a portal provider

The counter, the two optional fields and the life of the portals agree, in
every run in which the threads leave as often as they entered and portals start.
-/

namespace Anyio.BlockingPortalProvider

open Library

/-- The enters that have succeeded and for which the thread has not left again, with the portals
they returned, and the portals that were started and told to stop. -/
structure History (τ : Type*) where
  inside : List (τ × PortalId)
  started : List PortalId
  stopped : List PortalId
  deriving DecidableEq, Repr

def History.empty {τ : Type*} : History τ := ⟨[], [], []⟩

variable {τ : Type*} [DecidableEq τ]

def Action.thread : Action τ → τ
  | .enter t => t
  | .exit t => t
  | .acquire t => t
  | .proceed t => t
  | .started t => t
  | .startFails t _ => t

/-- The leases that are out after a step of thread `t`. -/
def insideAfter (inside : List (τ × PortalId)) (t : τ) : Reply → List (τ × PortalId)
  | .entered portal => inside ++ [(t, portal)]
  | .left => inside.eraseP fun e => e.1 = t
  | _ => inside

def startedBy : Action τ → Reply → List PortalId
  | .started _, .entered portal => [portal]
  | _, _ => []

def stoppedBy : Reply → List PortalId
  | .stopped portal => [portal]
  | _ => []

def record (h : History τ) (_ : State τ) (a : Action τ) (r : Reply) : History τ where
  inside := insideAfter h.inside a.thread r
  started := h.started ++ startedBy a r
  stopped := h.stopped ++ stoppedBy r

abbrev recorded (τ : Type*) [DecidableEq τ] : Machine (State τ × History τ) (Action τ) Reply :=
  (machine τ).withHistory record

/-- A thread exits once for each of its successful enters, and portals start. -/
def Paired (p : State τ × History τ) : Action τ → Prop
  | .exit t => t ∈ p.2.inside.map Prod.fst
  | .startFails _ _ => False
  | _ => True

instance (p : State τ × History τ) (a : Action τ) : Decidable (Paired p a) := by
  cases a <;> unfold Paired <;> infer_instance

/-- What a step does. -/
inductive Change (s : State τ) : Action τ → State τ → Reply → Prop
  | asks {t} (hp : s.point t = .outside) :
      Change s (.enter t) (moveTo s t .waitingToEnter) .going
  | leaves {t} (hp : s.point t = .outside) :
      Change s (.exit t) (moveTo s t .waitingToExit) .going
  | locksEnter {t} (hl : s.lock = none) (hp : s.point t = .waitingToEnter) :
      Change s (.acquire t) { moveTo s t .entering with lock := some t } .going
  | locksExit {t} (hl : s.lock = none) (hp : s.point t = .waitingToExit) :
      Change s (.acquire t) { moveTo s t .exiting with lock := some t } .going
  | starts {t} (hp : s.point t = .entering) (hcm : s.portalCm = none) :
      Change s (.proceed t)
        (moveTo { s with portalCm := some s.nextPortal, nextPortal := s.nextPortal + 1 } t
          (.starting s.nextPortal)) .going
  | enters {t cm} (hp : s.point t = .entering) (hcm : s.portalCm = some cm) :
      Change s (.proceed t) (lease s t).1 (lease s t).2
  | exits {t} (hp : s.point t = .exiting) : Change s (.proceed t) (exit s t).1 (exit s t).2
  | stops {t cm} (hp : s.point t = .stopping cm) :
      Change s (.proceed t) (moveTo s t .joining) (.stopped cm)
  | joined {t} (hp : s.point t = .joining) : Change s (.proceed t) (moveTo s t .outside) .going
  | started {t cm} (hp : s.point t = .starting cm) :
      Change s (.started t) (lease { s with portal := some cm } t).1
        (lease { s with portal := some cm } t).2
  | fails {t cm error} (hp : s.point t = .starting cm) :
      Change s (.startFails t error) (release s t .outside) (.raised error)

/-- Points at which a thread has nothing to do with the life of a portal. -/
def Point.isQuiet : Point → Bool
  | .starting _ => false
  | .stopping _ => false
  | _ => true

/-- The steps of a run in which the threads leave as often as they entered and portals start. -/
inductive Move (s : State τ) (h : History τ) : Action τ → State τ → Reply → Prop
  | walk {a t p lock} (hfrom : (s.point t).isQuiet = true) (hto : p.isQuiet = true)
      (hlock : lock = some t ∧ s.lock = none ∧ p.holdsLock = true ∨
        lock = s.lock ∧ (s.point t).holdsLock = false ∧ p.holdsLock = false)
      (hleaving : p = .waitingToExit ∨ p = .exiting → t ∈ h.inside.map Prod.fst) :
      Move s h a { moveTo s t p with lock := lock } .going
  | starts {t} (hp : s.point t = .entering) (hcm : s.portalCm = none) :
      Move s h (.proceed t)
        (moveTo { s with portalCm := some s.nextPortal, nextPortal := s.nextPortal + 1 } t
          (.starting s.nextPortal)) .going
  | enters {t cm} (hp : s.point t = .entering) (hcm : s.portalCm = some cm)
      (hportal : s.portal = some cm) :
      Move s h (.proceed t) (release { s with leases := s.leases + 1 } t .outside) (.entered cm)
  | started {t cm} (hp : s.point t = .starting cm) :
      Move s h (.started t)
        (release { s with portal := some cm, leases := s.leases + 1 } t .outside) (.entered cm)
  | leaves {t} (hp : s.point t = .exiting) (hleases : 1 < s.leases) :
      Move s h (.proceed t) (release { s with leases := s.leases - 1 } t .outside) .left
  | last {t cm} (hp : s.point t = .exiting) (hcm : s.portalCm = some cm)
      (hleases : s.leases = 1) :
      Move s h (.proceed t)
        (release { s with leases := 0, portalCm := none, portal := none } t (.stopping cm)) .left
  | stops {t cm} (hp : s.point t = .stopping cm) :
      Move s h (.proceed t) (moveTo s t .joining) (.stopped cm)

variable {s s' : State τ} {h : History τ} {a : Action τ} {r : Reply} {t u : τ}
  {cm portal : PortalId}
  {p : Point} {l : List (τ × PortalId)}

theorem step_change (hs : step s a = some (s', r)) : Change s a s' r := by
  cases a with
  | enter t =>
      obtain ⟨hp, ⟨⟩⟩ := Option.ite_none_right_eq_some.mp hs
      exact .asks hp
  | exit t =>
      obtain ⟨hp, ⟨⟩⟩ := Option.ite_none_right_eq_some.mp hs
      exact .leaves hp
  | acquire t =>
      obtain ⟨hl, hs⟩ := Option.ite_none_left_eq_some.mp hs
      rw [Bool.not_eq_true, Option.isSome_eq_false_iff, Option.isNone_iff_eq_none] at hl
      cases hp : s.point t <;> simp only [hp] at hs <;> cases hs
      · exact .locksEnter hl hp
      · exact .locksExit hl hp
  | proceed t =>
      rw [step, proceed] at hs
      cases hp : s.point t with
      | outside => simp [hp] at hs
      | waitingToEnter => simp [hp] at hs
      | waitingToExit => simp [hp] at hs
      | starting cm => simp [hp] at hs
      | entering =>
          simp only [hp, Option.some.injEq, enter] at hs
          cases hcm : s.portalCm with
          | none =>
              simp only [hcm] at hs
              cases hs
              exact .starts hp hcm
          | some cm =>
              simp only [hcm] at hs
              have change := Change.enters hp hcm
              rwa [hs] at change
      | exiting =>
          simp only [hp, Option.some.injEq] at hs
          have change := Change.exits hp
          rwa [hs] at change
      | stopping cm =>
          simp only [hp, Option.some.injEq] at hs
          cases hs
          exact .stops hp
      | joining =>
          simp only [hp, Option.some.injEq] at hs
          cases hs
          exact .joined hp
  | started t =>
      cases hp : s.point t <;> simp only [step, hp] at hs <;> cases hs
      exact .started hp
  | startFails t error =>
      cases hp : s.point t <;> simp only [step, hp] at hs <;> cases hs
      exact .fails hp

/-- The lock, the counter and the two fields. No lease is out while a portal starts. -/
structure Leased (s : State τ) (h : History τ) : Prop where
  locked : ∀ t, (s.point t).holdsLock = true ↔ s.lock = some t
  counted : s.leases = h.inside.length
  shared : ∀ e ∈ h.inside, s.portalCm = some e.2
  leaving : ∀ t, s.point t = .waitingToExit ∨ s.point t = .exiting → t ∈ h.inside.map Prod.fst
  starting : ∀ t cm, s.point t = .starting cm →
    s.portalCm = some cm ∧ s.portal = none ∧ h.inside = []
  ready : (∀ t cm, s.point t ≠ .starting cm) →
    s.portal = s.portalCm ∧ (s.portalCm ≠ none → h.inside ≠ [])

theorem lease_eq (hportal : s.portal = some portal) (t : τ) :
    lease s t = (release { s with leases := s.leases + 1 } t .outside, .entered portal) := by
  rw [lease, hportal]

theorem exit_of_more (hcm : s.portalCm = some cm) (hleases : 1 < s.leases) (t : τ) :
    exit s t = (release { s with leases := s.leases - 1 } t .outside, .left) := by
  have hpos : s.leases ≠ 0 := by omega
  have hmore : s.leases - 1 ≠ 0 := by omega
  simp only [exit, hcm, if_neg hpos, if_pos hmore]

theorem exit_of_last (hcm : s.portalCm = some cm) (hportal : s.portal = some portal)
    (hleases : s.leases = 1) (t : τ) :
    exit s t =
      (release { s with leases := 0, portalCm := none, portal := none } t (.stopping cm),
        .left) := by
  simp [exit, hcm, hportal, hleases]

omit [DecidableEq τ] in
/-- A thread with the lock keeps the others from starting a portal. -/
theorem Leased.not_starting (leased : Leased s h) (hp : (s.point t).holdsLock = true)
    (hne : ∀ cm, s.point t ≠ .starting cm) (u : τ) (cm : PortalId) : s.point u ≠ .starting cm := by
  intro hu
  have ht := (leased.locked t).mp hp
  have hu' := (leased.locked u).mp (by rw [hu]; rfl)
  obtain rfl : t = u := Option.some.inj (ht.symm.trans hu')
  exact hne cm hu

omit [DecidableEq τ] in
/-- A thread that exits with the lock finds the portal and at least its own lease. -/
theorem Leased.exits (leased : Leased s h) (hp : s.point t = .exiting) :
    ∃ cm, s.portalCm = some cm ∧ s.portal = some cm ∧ 0 < s.leases := by
  have hinside := leased.leaving t (.inr hp)
  obtain ⟨e, he, -⟩ := List.mem_map.mp hinside
  have hcm := leased.shared e he
  have hready := leased.ready (leased.not_starting (t := t) (by rw [hp]; rfl) (by simp [hp]))
  refine ⟨e.2, hcm, hready.1.trans hcm, ?_⟩
  rw [leased.counted]
  exact List.length_pos_of_mem he

/-- A step of a thread that does not have the lock. -/
theorem Move.walkUnlocked {p : Point} (hfrom : (s.point t).isQuiet = true)
    (hto : p.isQuiet = true) (hbefore : (s.point t).holdsLock = false)
    (hafter : p.holdsLock = false)
    (hleaving : p = .waitingToExit ∨ p = .exiting → t ∈ h.inside.map Prod.fst) :
    Move s h a (moveTo s t p) .going :=
  .walk hfrom hto (.inr ⟨rfl, hbefore, hafter⟩) hleaving

theorem Leased.move (leased : Leased s h) (ok : Paired (s, h) a) (change : Change s a s' r) :
    Move s h a s' r := by
  cases change with
  | asks hp =>
      exact .walkUnlocked (by rw [hp]; rfl) rfl (by rw [hp]; rfl) rfl (by simp)
  | leaves hp =>
      exact .walkUnlocked (by rw [hp]; rfl) rfl (by rw [hp]; rfl) rfl fun _ => ok
  | locksEnter hl hp =>
      exact .walk (by rw [hp]; rfl) rfl (.inl ⟨rfl, hl, rfl⟩) (by simp)
  | locksExit hl hp =>
      exact .walk (by rw [hp]; rfl) rfl (.inl ⟨rfl, hl, rfl⟩)
        fun _ => leased.leaving _ (.inl hp)
  | joined hp =>
      exact .walkUnlocked (by rw [hp]; rfl) rfl (by rw [hp]; rfl) rfl (by simp)
  | starts hp hcm => exact .starts hp hcm
  | @enters t cm hp hcm =>
      have hready := leased.ready (leased.not_starting (t := t) (by rw [hp]; rfl) (by simp [hp]))
      have hportal := hready.1.trans hcm
      rw [lease_eq hportal]
      exact .enters hp hcm hportal
  | @exits t hp =>
      obtain ⟨cm, hcm, hportal, hpos⟩ := leased.exits hp
      rcases Nat.lt_or_ge 1 s.leases with hmore | hlast
      · rw [exit_of_more hcm hmore]
        exact .leaves hp hmore
      · rw [exit_of_last hcm hportal (by omega)]
        exact .last hp hcm (by omega)
  | stops hp => exact .stops hp
  | started hp =>
      rw [lease_eq rfl]
      exact .started hp
  | fails => exact ok.elim

@[simp] theorem moveTo_point (s : State τ) (t u : τ) (p : Point) :
    (moveTo s t p).point u = if u = t then p else s.point u :=
  Function.update_apply ..

@[simp] theorem release_point (s : State τ) (t u : τ) (p : Point) :
    (release s t p).point u = if u = t then p else s.point u :=
  Function.update_apply ..

@[simp] theorem release_leases (s : State τ) (t : τ) (p : Point) :
    (release s t p).leases = s.leases := rfl

@[simp] theorem release_portalCm (s : State τ) (t : τ) (p : Point) :
    (release s t p).portalCm = s.portalCm := rfl

@[simp] theorem release_portal (s : State τ) (t : τ) (p : Point) :
    (release s t p).portal = s.portal := rfl

/-- Only the thread that moved has taken or released the lock. -/
theorem Leased.relocked (leased : Leased s h)
    (hpoint : ∀ u, s'.point u = if u = t then s'.point t else s.point u)
    (hself : (s'.point t).holdsLock = true ↔ s'.lock = some t)
    (hothers : ∀ u, u ≠ t → (s'.lock = some u ↔ s.lock = some u)) (u : τ) :
    (s'.point u).holdsLock = true ↔ s'.lock = some u := by
  by_cases hu : u = t
  · rw [hu]
    exact hself
  · rw [hpoint, if_neg hu, leased.locked, hothers u hu]

/-- After a release no thread holds the lock. -/
theorem Leased.released (leased : Leased s h) (hp : (s.point t).holdsLock = true)
    (hto : p.holdsLock = false) (u : τ) :
    ((release s t p).point u).holdsLock = true ↔ (release s t p).lock = some u := by
  have hlock := (leased.locked t).mp hp
  refine leased.relocked (t := t) (by simp) ?_ (fun u hu => ?_) u
  · simp [release, hto]
  · simp [release, hlock, Ne.symm hu]

/-- A thread that still leaves keeps its lease when another one gives its lease back. -/
theorem mem_eraseP_of_ne (hu : u ≠ t) (h : u ∈ l.map Prod.fst) :
    u ∈ (l.eraseP fun e : τ × PortalId => e.1 = t).map Prod.fst := by
  obtain ⟨e, he, rfl⟩ := List.mem_map.mp h
  exact List.mem_map.mpr ⟨e, (List.mem_eraseP_of_neg (by simpa using hu)).mpr he, rfl⟩

theorem Leased.step (leased : Leased s h) (move : Move s h a s' r) :
    Leased s' (record h s a r) := by
  cases move with
  | @walk a t p lock hfrom hto hlock hleaving =>
      constructor
      case locked =>
        refine leased.relocked (t := t) (by simp) ?_ fun u hu => ?_
        · rcases hlock with ⟨hl, -, hp⟩ | ⟨hl, hfrom, hp⟩
          · simp [hl, hp]
          · simp [hl, hp, ← leased.locked, hfrom]
        · rcases hlock with ⟨hl, hnone, -⟩ | ⟨hl, -, -⟩
          · simp [hl, hnone, Ne.symm hu]
          · simp [hl]
      case counted => exact leased.counted
      case shared => exact leased.shared
      case leaving =>
        intro u hu
        by_cases hut : u = t
        · rw [hut] at hu ⊢
          exact hleaving (by simpa using hu)
        · exact leased.leaving u (by simpa [hut] using hu)
      case starting =>
        intro u cm hu
        by_cases hut : u = t
        · obtain rfl : p = .starting cm := by simpa [hut] using hu
          cases hto
        · exact leased.starting u cm (by simpa [hut] using hu)
      case ready =>
        intro hnone
        apply leased.ready
        intro u cm hu
        by_cases hut : u = t
        · rw [← hut, hu] at hfrom
          cases hfrom
        · exact hnone u cm (by simpa [hut] using hu)
  | @starts t hp hcm =>
      have hothers := leased.not_starting (t := t) (by rw [hp]; rfl) (by simp [hp])
      have hempty : h.inside = [] := by
        apply List.eq_nil_iff_forall_not_mem.mpr
        intro e he
        simpa [hcm] using leased.shared e he
      constructor
      case locked =>
        refine leased.relocked (t := t) (by simp) ?_ fun u _ => Iff.rfl
        simpa [moveTo, Point.holdsLock] using (leased.locked t).mp (by rw [hp]; rfl)
      case counted => exact leased.counted
      case shared => simp [record, insideAfter, hempty]
      case leaving =>
        intro u hu
        by_cases hut : u = t
        · simp [hut] at hu
        · exact leased.leaving u (by simpa [hut] using hu)
      case starting =>
        intro u cm hu
        by_cases hut : u = t
        · obtain rfl : s.nextPortal = cm := by simpa [hut] using hu
          exact ⟨rfl, (leased.ready hothers).1.trans hcm, hempty⟩
        · exact absurd (by simpa [hut] using hu) (hothers u cm)
      case ready =>
        intro hnone
        exact absurd (by simp) (hnone t s.nextPortal)
  | @enters t cm hp hcm hportal =>
      have hothers := leased.not_starting (t := t) (by rw [hp]; rfl) (by simp [hp])
      constructor
      case locked => exact leased.released (by rw [hp]; rfl) rfl
      case counted => simpa [record, insideAfter] using leased.counted
      case shared =>
        intro e he
        rcases List.mem_append.mp he with he | he
        · exact leased.shared e he
        · rw [List.mem_singleton.mp he]
          exact hcm
      case leaving =>
        intro u hu
        by_cases hut : u = t
        · simp [hut] at hu
        · have := leased.leaving u (by simpa [hut] using hu)
          simpa [record, insideAfter] using Or.inl this
      case starting =>
        intro u cm hu
        by_cases hut : u = t
        · simp [hut] at hu
        · exact absurd (by simpa [hut] using hu) (hothers u cm)
      case ready => exact fun _ => ⟨(leased.ready hothers).1, by simp [record, insideAfter]⟩
  | @started t cm hp =>
      obtain ⟨hcm, -, hempty⟩ := leased.starting t cm hp
      have hlock := (leased.locked t).mp (by rw [hp]; rfl)
      constructor
      case locked => exact leased.released (by rw [hp]; rfl) rfl
      case counted => simpa [record, insideAfter] using leased.counted
      case shared => simpa [record, insideAfter, hempty] using hcm
      case leaving =>
        intro u hu
        by_cases hut : u = t
        · simp [hut] at hu
        · have := leased.leaving u (by simpa [hut] using hu)
          simpa [record, insideAfter] using Or.inl this
      case starting =>
        intro u d hu
        by_cases hut : u = t
        · simp [hut] at hu
        · have hstarting : s.point u = .starting d := by simpa [hut] using hu
          have hu' := (leased.locked u).mp (by rw [hstarting]; rfl)
          exact absurd (Option.some.inj (hu'.symm.trans hlock)) hut
      case ready => exact fun _ => ⟨hcm.symm, by simp [record, insideAfter]⟩
  | @leaves t hp hleases =>
      have hothers := leased.not_starting (t := t) (by rw [hp]; rfl) (by simp [hp])
      obtain ⟨e, he, het⟩ := List.mem_map.mp (leased.leaving t (.inr hp))
      have hlength : (insideAfter h.inside t .left).length = s.leases - 1 := by
        rw [insideAfter, List.length_eraseP_of_mem he (by simpa using het), leased.counted]
      constructor
      case locked => exact leased.released (by rw [hp]; rfl) rfl
      case counted => exact hlength.symm
      case shared => exact fun e he => leased.shared e (List.mem_of_mem_eraseP he)
      case leaving =>
        intro u hu
        by_cases hut : u = t
        · simp [hut] at hu
        · exact mem_eraseP_of_ne hut (leased.leaving u (by simpa [hut] using hu))
      case starting =>
        intro u cm hu
        by_cases hut : u = t
        · simp [hut] at hu
        · exact absurd (by simpa [hut] using hu) (hothers u cm)
      case ready =>
        intro _
        refine ⟨(leased.ready hothers).1, fun _ hnil => ?_⟩
        rw [show insideAfter h.inside t .left = [] from hnil] at hlength
        simp at hlength
        omega
  | @last t cm hp hcm hleases =>
      have hothers := leased.not_starting (t := t) (by rw [hp]; rfl) (by simp [hp])
      obtain ⟨e, he, het⟩ := List.mem_map.mp (leased.leaving t (.inr hp))
      have hempty : insideAfter h.inside t .left = [] := by
        rw [← List.length_eq_zero_iff, insideAfter,
          List.length_eraseP_of_mem he (by simpa using het), ← leased.counted, hleases]
      constructor
      case locked => exact leased.released (by rw [hp]; rfl) rfl
      case counted => exact (congrArg List.length hempty).symm
      case shared =>
        intro e he
        rw [show (record h s (.proceed t) .left).inside = [] from hempty] at he
        exact absurd he List.not_mem_nil
      case leaving =>
        intro u hu
        by_cases hut : u = t
        · simp [hut] at hu
        · exact mem_eraseP_of_ne hut (leased.leaving u (by simpa [hut] using hu))
      case starting =>
        intro u d hu
        by_cases hut : u = t
        · simp [hut] at hu
        · exact absurd (by simpa [hut] using hu) (hothers u d)
      case ready => exact fun _ => ⟨rfl, fun h => absurd rfl h⟩
  | @stops t cm hp =>
      constructor
      case locked =>
        refine leased.relocked (t := t) (by simp) ?_ fun u _ => Iff.rfl
        have := leased.locked t
        simpa [moveTo, hp, Point.holdsLock] using this
      case counted => exact leased.counted
      case shared => exact leased.shared
      case leaving =>
        intro u hu
        by_cases hut : u = t
        · simp [hut] at hu
        · exact leased.leaving u (by simpa [hut] using hu)
      case starting =>
        intro u d hu
        by_cases hut : u = t
        · simp [hut] at hu
        · exact leased.starting u d (by simpa [hut] using hu)
      case ready =>
        intro hnone
        apply leased.ready
        intro u d hu
        by_cases hut : u = t
        · rw [hut, hp] at hu
          cases hu
        · exact hnone u d (by simpa [hut] using hu)

/-- The life of the portals: every one that was started is running, or is about to be stopped by
exactly one thread, or has been stopped once. -/
structure Portals (s : State τ) (h : History τ) : Prop where
  known : ∀ cm ∈ h.started, cm < s.nextPortal
  current : ∀ cm, s.portalCm = some cm →
    cm < s.nextPortal ∧ cm ∉ h.stopped ∧ ∀ t, s.point t ≠ .stopping cm
  unborn : ∀ t cm, s.point t = .starting cm → cm ∉ h.started
  running : (∀ t cm, s.point t ≠ .starting cm) → ∀ cm, s.portalCm = some cm → cm ∈ h.started
  stopping : ∀ t cm, s.point t = .stopping cm →
    cm ∈ h.started ∧ cm ∉ h.stopped ∧ ∀ u, s.point u = .stopping cm → u = t
  once : h.started.Nodup ∧ h.stopped.Nodup
  stopped : ∀ cm ∈ h.stopped, cm ∈ h.started
  covered : ∀ cm ∈ h.started,
    cm ∈ h.stopped ∨ s.portalCm = some cm ∨ ∃ t, s.point t = .stopping cm

omit [DecidableEq τ] in
/-- Nothing happens to a portal. -/
theorem Portals.frame {h' : History τ} (portals : Portals s h)
    (hstarting : ∀ u cm, s'.point u = .starting cm ↔ s.point u = .starting cm)
    (hstopping : ∀ u cm, s'.point u = .stopping cm ↔ s.point u = .stopping cm)
    (hcm : s'.portalCm = s.portalCm) (hnext : s'.nextPortal = s.nextPortal)
    (hstarted : h'.started = h.started) (hstopped : h'.stopped = h.stopped) : Portals s' h' := by
  constructor
  case known => simpa only [hstarted, hnext] using portals.known
  case current => simpa only [hcm, hnext, hstopped, ne_eq, hstopping] using portals.current
  case unborn => simpa only [hstarting, hstarted] using portals.unborn
  case running => simpa only [ne_eq, hstarting, hcm, hstarted] using portals.running
  case stopping => simpa only [hstopping, hstarted, hstopped] using portals.stopping
  case once => simpa only [hstarted, hstopped] using portals.once
  case stopped => simpa only [hstarted, hstopped] using portals.stopped
  case covered => simpa only [hstarted, hstopped, hcm, hstopping] using portals.covered

/-- A step of thread `t` that neither leaves nor reaches `q` tells nothing about `q`. -/
theorem update_eq_iff {q : Point} (hfrom : s.point t ≠ q) (hto : p ≠ q) (u : τ) :
    (if u = t then p else s.point u) = q ↔ s.point u = q := by
  by_cases hu : u = t
  · rw [if_pos hu, hu]
    exact iff_of_false hto hfrom
  · rw [if_neg hu]

omit [DecidableEq τ] in
theorem startedBy_going (a : Action τ) : startedBy a .going = [] := by
  cases a <;> rfl

/-- The number of a new context manager is one that no portal has had. -/
theorem Portals.starts (portals : Portals s h) (hp : s.point t = .entering)
    (hcm : s.portalCm = none) :
    Portals (moveTo { s with portalCm := some s.nextPortal, nextPortal := s.nextPortal + 1 } t
      (.starting s.nextPortal)) h := by
  have hfresh : s.nextPortal ∉ h.started := fun h => Nat.lt_irrefl _ (portals.known _ h)
  have hstopping : ∀ u cm,
      (moveTo { s with portalCm := some s.nextPortal, nextPortal := s.nextPortal + 1 } t
        (.starting s.nextPortal)).point u = .stopping cm ↔ s.point u = .stopping cm := by
    intro u cm
    simpa using update_eq_iff (t := t) (by simp [hp]) (by simp) u
  constructor
  case known => exact fun cm hmem => Nat.lt_succ_of_lt (portals.known cm hmem)
  case current =>
    intro cm hcm'
    obtain rfl : s.nextPortal = cm := Option.some.inj hcm'
    refine ⟨Nat.lt_succ_self _, fun h => hfresh (portals.stopped _ h), fun u hu => ?_⟩
    exact hfresh (portals.stopping u _ ((hstopping u _).mp hu)).1
  case unborn =>
    intro u cm hu
    by_cases hut : u = t
    · obtain rfl : s.nextPortal = cm := by simpa [hut] using hu
      exact hfresh
    · exact portals.unborn u cm (by simpa [hut] using hu)
  case running => exact fun hnone => absurd (by simp) (hnone t s.nextPortal)
  case stopping => simpa only [hstopping] using portals.stopping
  case once => exact portals.once
  case stopped => exact portals.stopped
  case covered =>
    intro cm hmem
    simp only [hstopping]
    refine (portals.covered cm hmem).imp_right fun hcase => .inr ?_
    exact hcase.resolve_left (by simp [hcm])

/-- The portal of the current context manager runs. -/
theorem Portals.started (portals : Portals s h) (leased : Leased s h) {inside}
    (hp : s.point t = .starting cm) :
    Portals (release { s with portal := some cm, leases := s.leases + 1 } t .outside)
      ⟨inside, h.started ++ [cm], h.stopped⟩ := by
  obtain ⟨hcm, -, -⟩ := leased.starting t cm hp
  have hlock := (leased.locked t).mp (by rw [hp]; rfl)
  have hstopping : ∀ u d,
      (release { s with portal := some cm, leases := s.leases + 1 } t .outside).point u =
        .stopping d ↔ s.point u = .stopping d := by
    intro u d
    simpa using update_eq_iff (t := t) (by simp [hp]) (by simp) u
  have hnone : ∀ u d,
      (release { s with portal := some cm, leases := s.leases + 1 } t .outside).point u ≠
        .starting d := by
    intro u d hu
    by_cases hut : u = t
    · simp [hut] at hu
    · have hstarting : s.point u = .starting d := by simpa [hut] using hu
      have hu' := (leased.locked u).mp (by rw [hstarting]; rfl)
      exact hut (Option.some.inj (hu'.symm.trans hlock))
  constructor
  case known =>
    intro d hd
    rcases List.mem_append.mp hd with hd | hd
    · exact portals.known d hd
    · rw [List.mem_singleton.mp hd]
      exact (portals.current cm hcm).1
  case current =>
    intro d hd
    obtain ⟨hlt, hnot, hnobody⟩ := portals.current d hd
    exact ⟨hlt, hnot, fun u hu => hnobody u ((hstopping u d).mp hu)⟩
  case unborn => exact fun u d hu => absurd hu (hnone u d)
  case running =>
    intro _ d hd
    obtain rfl : cm = d := Option.some.inj (hcm.symm.trans hd)
    exact List.mem_append_right _ (List.mem_singleton_self _)
  case stopping =>
    intro u d hu
    obtain ⟨hmem, hnot, honly⟩ := portals.stopping u d ((hstopping u d).mp hu)
    exact ⟨List.mem_append_left _ hmem, hnot, fun v hv => honly v ((hstopping v d).mp hv)⟩
  case once =>
    refine ⟨portals.once.1.append (List.nodup_singleton cm) ?_, portals.once.2⟩
    exact List.disjoint_singleton.mpr (portals.unborn t cm hp)
  case stopped => exact fun d hd => List.mem_append_left _ (portals.stopped d hd)
  case covered =>
    intro d hd
    rcases List.mem_append.mp hd with hd | hd
    · simp only [hstopping]
      exact portals.covered d hd
    · rw [List.mem_singleton.mp hd]
      exact .inr (.inl hcm)

/-- The last thread to leave takes the context manager with it. -/
theorem Portals.last (portals : Portals s h) (leased : Leased s h) {inside}
    (hp : s.point t = .exiting) (hcm : s.portalCm = some cm) :
    Portals (release { s with leases := 0, portalCm := none, portal := none } t (.stopping cm))
      ⟨inside, h.started, h.stopped⟩ := by
  have hothers := leased.not_starting (t := t) (by rw [hp]; rfl) (by simp [hp])
  obtain ⟨-, hnot, hnobody⟩ := portals.current cm hcm
  have hstopping : ∀ u d,
      (release { s with leases := 0, portalCm := none, portal := none } t
        (.stopping cm)).point u = .stopping d ↔ u = t ∧ d = cm ∨ s.point u = .stopping d := by
    intro u d
    by_cases hut : u = t
    · simp [hut, hp, eq_comm]
    · simp [hut]
  constructor
  case known => exact portals.known
  case current => exact fun d hd => by cases hd
  case unborn =>
    intro u d hu
    by_cases hut : u = t
    · simp [hut] at hu
    · exact portals.unborn u d (by simpa [hut] using hu)
  case running => exact fun _ d hd => by cases hd
  case stopping =>
    intro u d hu
    rcases (hstopping u d).mp hu with ⟨rfl, rfl⟩ | hstill
    · refine ⟨portals.running hothers d hcm, hnot, fun v hv => ?_⟩
      rcases (hstopping v d).mp hv with ⟨hv, -⟩ | hv
      · exact hv
      · exact absurd hv (hnobody v)
    · obtain ⟨hmem, hnot, honly⟩ := portals.stopping u d hstill
      refine ⟨hmem, hnot, fun v hv => ?_⟩
      rcases (hstopping v d).mp hv with ⟨-, hd⟩ | hv
      · exact absurd (hd ▸ hstill) (hnobody u)
      · exact honly v hv
  case once => exact portals.once
  case stopped => exact portals.stopped
  case covered =>
    intro d hd
    simp only [hstopping]
    rcases portals.covered d hd with hd | hd | ⟨u, hu⟩
    · exact .inl hd
    · exact .inr (.inr ⟨t, .inl ⟨rfl, Option.some.inj (hd.symm.trans hcm)⟩⟩)
    · exact .inr (.inr ⟨u, .inr hu⟩)

/-- The portal is told to stop by the one thread that took its context manager. -/
theorem Portals.stops (portals : Portals s h) {inside} (hp : s.point t = .stopping cm) :
    Portals (moveTo s t .joining) ⟨inside, h.started, h.stopped ++ [cm]⟩ := by
  obtain ⟨hmem, hnot, honly⟩ := portals.stopping t cm hp
  have hstopping : ∀ u d,
      (moveTo s t .joining).point u = .stopping d ↔ u ≠ t ∧ s.point u = .stopping d := by
    intro u d
    by_cases hut : u = t <;> simp [hut]
  have hstarting : ∀ u d,
      (moveTo s t .joining).point u = .starting d ↔ s.point u = .starting d := by
    intro u d
    simpa using update_eq_iff (t := t) (by simp [hp]) (by simp) u
  constructor
  case known => exact portals.known
  case current =>
    intro d hd
    obtain ⟨hlt, hnot, hnobody⟩ := portals.current d hd
    refine ⟨hlt, fun hd => ?_, fun u hu => hnobody u ((hstopping u d).mp hu).2⟩
    rcases List.mem_append.mp hd with hd | hd
    · exact hnot hd
    · exact hnobody t (List.mem_singleton.mp hd ▸ hp)
  case unborn => simpa only [hstarting] using portals.unborn
  case running =>
    intro hnone
    exact portals.running fun u d hu => hnone u d ((hstarting u d).mpr hu)
  case stopping =>
    intro u d hu
    obtain ⟨hut, hu⟩ := (hstopping u d).mp hu
    obtain ⟨hmem, hnot, hunique⟩ := portals.stopping u d hu
    refine ⟨hmem, fun hd => ?_, fun v hv => hunique v ((hstopping v d).mp hv).2⟩
    rcases List.mem_append.mp hd with hd | hd
    · exact hnot hd
    · exact hut (honly u (List.mem_singleton.mp hd ▸ hu))
  case once =>
    exact ⟨portals.once.1, portals.once.2.append (List.nodup_singleton cm)
      (List.disjoint_singleton.mpr hnot)⟩
  case stopped =>
    intro d hd
    rcases List.mem_append.mp hd with hd | hd
    · exact portals.stopped d hd
    · exact List.mem_singleton.mp hd ▸ hmem
  case covered =>
    intro d hd
    simp only [hstopping]
    rcases portals.covered d hd with hd | hd | ⟨u, hu⟩
    · exact .inl (List.mem_append_left _ hd)
    · exact .inr (.inl hd)
    · by_cases hut : u = t
      · rw [hut, hp] at hu
        cases hu
        exact .inl (List.mem_append_right _ (List.mem_singleton_self _))
      · exact .inr (.inr ⟨u, hut, hu⟩)

theorem Portals.step (portals : Portals s h) (leased : Leased s h) (move : Move s h a s' r) :
    Portals s' (record h s a r) := by
  cases move with
  | @walk a t p lock hfrom hto =>
      have hsame : ∀ u q, q.isQuiet = false →
          ((moveTo s t p).point u = q ↔ s.point u = q) := by
        intro u q hq
        have hfrom : s.point t ≠ q := by
          rintro rfl
          simp [hfrom] at hq
        have hto : p ≠ q := by
          rintro rfl
          simp [hto] at hq
        simpa using update_eq_iff hfrom hto u
      refine portals.frame (fun u cm => hsame u _ rfl) (fun u cm => hsame u _ rfl) rfl rfl ?_
        (List.append_nil _)
      simp [record, startedBy_going]
  | @enters t cm hp =>
      refine portals.frame (fun u d => ?_) (fun u d => ?_) rfl rfl (List.append_nil _)
        (List.append_nil _) <;>
        simpa using update_eq_iff (t := t) (by simp [hp]) (by simp) u
  | @leaves t hp =>
      refine portals.frame (fun u d => ?_) (fun u d => ?_) rfl rfl (List.append_nil _)
        (List.append_nil _) <;>
        simpa using update_eq_iff (t := t) (by simp [hp]) (by simp) u
  | @starts t hp hcm =>
      have hrecord : record h s (.proceed t) .going = h := by
        simp [record, startedBy, stoppedBy, insideAfter]
      rw [hrecord]
      exact portals.starts hp hcm
  | started hp => simpa [record, stoppedBy, startedBy] using portals.started leased hp
  | last hp hcm => simpa [record, stoppedBy, startedBy] using portals.last leased hp hcm
  | stops hp => simpa [record, stoppedBy, startedBy] using portals.stops hp

section Runs

theorem of_run (run : (recorded τ).Reachable Paired (initial τ, .empty) (s, h)) :
    Leased s h ∧ Portals s h := by
  refine run.invariant_history (I := fun s h => Leased s h ∧ Portals s h) ⟨?_, ?_⟩ ?_
  · constructor <;> simp [initial, History.empty, Point.holdsLock]
  · constructor <;> simp [initial, History.empty]
  · rintro s h a s' r ⟨leased, portals⟩ ok hs
    have move := leased.move ok (step_change hs)
    exact ⟨leased.step move, portals.step leased move⟩

/-- In every run in which the threads exit as often as they entered and portals start: while the
lock is free, the counter is the number of enters that have not been exited and a context manager
is stored exactly if it is positive. All threads inside hold the same portal, and it has not been
told to stop. Every portal is told to stop at most once and after it was started, and it is,
unless it is still the stored one or a thread is on its way to do it; when all threads are outside
of the provider every portal was stopped exactly once. -/
theorem leases_counted (run : (recorded τ).Reachable Paired (initial τ, .empty) (s, h)) :
    (s.lock = none → s.leases = h.inside.length ∧ (s.portalCm ≠ none ↔ 0 < s.leases)) ∧
    (∀ e ∈ h.inside, ∀ f ∈ h.inside, e.2 = f.2) ∧
    (∀ e ∈ h.inside, e.2 ∉ h.stopped) ∧
    (h.stopped.Nodup ∧ ∀ cm ∈ h.stopped, cm ∈ h.started) ∧
    (∀ cm ∈ h.started, cm ∈ h.stopped ∨ s.portalCm = some cm ∨ ∃ t, s.point t = .stopping cm) ∧
    (h.inside = [] → (∀ t, s.point t = .outside) → h.stopped.Perm h.started) := by
  obtain ⟨leased, portals⟩ := of_run run
  have hcm : s.lock = none → (s.portalCm ≠ none ↔ 0 < s.leases) := by
    intro hlock
    have hnone : ∀ t cm, s.point t ≠ .starting cm := by
      intro t cm hp
      have ht := (leased.locked t).mp (by rw [hp]; rfl)
      simp [hlock] at ht
    rw [leased.counted, List.length_pos_iff]
    refine ⟨(leased.ready hnone).2, fun hne hcm => ?_⟩
    obtain ⟨e, he⟩ := List.exists_mem_of_ne_nil _ hne
    simpa [hcm] using leased.shared e he
  refine ⟨fun hlock => ⟨leased.counted, hcm hlock⟩, fun e he f hf => ?_, fun e he => ?_,
    ⟨portals.once.2, portals.stopped⟩, portals.covered, fun hempty hout => ?_⟩
  · exact Option.some.inj ((leased.shared e he).symm.trans (leased.shared f hf))
  · exact (portals.current e.2 (leased.shared e he)).2.1
  · have hready := leased.ready (by simp [hout])
    have hnone : s.portalCm = none := not_not.mp fun hne => hready.2 hne hempty
    apply (List.perm_ext_iff_of_nodup portals.once.2 portals.once.1).mpr
    intro cm
    refine ⟨portals.stopped cm, fun hmem => ?_⟩
    rcases portals.covered cm hmem with h | h | ⟨t, ht⟩
    · exact h
    · simp [hnone] at h
    · simp [hout] at ht

/-- Two threads share a portal. While the last one of them stops it, the first one enters again
and starts another portal, which it then stops. -/
theorem leases_counted_twice :
    ∃ s h, (recorded (Fin 2)).Reachable Paired (initial (Fin 2), .empty) (s, h) ∧
      h.inside = [] ∧ h.started = [0, 1] ∧ h.stopped.Perm h.started := by
  have run : (recorded (Fin 2)).Reachable Paired (initial (Fin 2), .empty) _ :=
    Machine.exec_get_reachable _
      [.enter 0, .acquire 0, .proceed 0, .enter 1, .started 0, .acquire 1, .proceed 1, .exit 0,
        .acquire 0, .proceed 0, .exit 1, .acquire 1, .proceed 1, .enter 0, .acquire 0, .proceed 0,
        .started 0, .proceed 1, .proceed 1, .exit 0, .acquire 0, .proceed 0, .proceed 0,
        .proceed 0] (by decide)
  exact ⟨_, _, run, by decide, by decide,
    (leases_counted run).2.2.2.2.2 (by decide) (by decide)⟩

end Runs

end Anyio.BlockingPortalProvider
