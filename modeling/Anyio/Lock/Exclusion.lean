import Anyio.Lock.Invariant

/-!
# Mutual exclusion and hand-over order of the asyncio `Lock`

The history of a run records who is between a successful acquire and its
release, which waits were started, which were hit by a cancellation request
and which of them obtained the lock. Waits are named by their futures, so the
order of the names is the order in which the waits were started.
-/

namespace Anyio.Lock

open Asyncio Library

variable {τ : Type*}

/-- What an observer of the calls knows after a run. -/
structure History (τ : Type*) where
  holding : τ → Bool
  started : List FutureId
  cancelled : List FutureId
  obtained : List FutureId

def History.empty (τ : Type*) : History τ where
  holding := fun _ => false
  started := []
  cancelled := []
  obtained := []

section Record
variable [DecidableEq τ]

def History.hold (h : History τ) (t : τ) (b : Bool) : History τ :=
  { h with holding := Function.update h.holding t b }

/-- The history after one more step, taken in state `s`. -/
def record (h : History τ) (s : State τ) : Action τ → Outcome Point Unit → History τ
  | .acquire t _, .returned _ => h.hold t true
  | .acquire _ _, .suspended (.waiting f) => { h with started := h.started ++ [f] }
  | .acquireNowait t, .returned _ => h.hold t true
  | .release t, .returned _ => h.hold t false
  | .cancel _, .suspended (.waiting f) => { h with cancelled := h.cancelled ++ [f] }
  | .resume t, .returned _ =>
      match s.loop.point t with
      | .waiting f => { h.hold t true with obtained := h.obtained ++ [f] }
      | _ => h.hold t true
  | _, _ => h

/-- The lock together with the history of its calls. -/
def recorded (τ : Type*) [DecidableEq τ] :
    Machine (State τ × History τ) (Action τ) (Outcome Point Unit) :=
  (machine τ).withHistory record

end Record

/-- The waits are the same in two states, and hit by the same requests. -/
structure SameWaits (s s' : State τ) : Prop where
  point : ∀ t f, s'.loop.point t = .waiting f ↔ s.loop.point t = .waiting f
  request : ∀ t f, s.loop.point t = .waiting f →
    (s'.loop.task t).mustCancel = (s.loop.task t).mustCancel
  future : ∀ t f, s.loop.point t = .waiting f →
    (s'.loop.future f = .cancelled ↔ s.loop.future f = .cancelled)
  next : s'.loop.nextFuture = s.loop.nextFuture

/-- The record of the waits agrees with the queue, and nobody who was not
cancelled is still waiting behind a later wait that obtained the lock. -/
structure Ordered (s : State τ) (h : History τ) : Prop where
  started_lt : ∀ f ∈ h.started, f < s.loop.nextFuture
  started_sorted : h.started.Pairwise (· < ·)
  known : ∀ t f, s.loop.point t = .waiting f → f ∈ h.started
  known_cancelled : ∀ f ∈ h.cancelled, f ∈ h.started
  known_obtained : ∀ f ∈ h.obtained, f ∈ h.started
  accounted : ∀ f ∈ h.started,
    f ∈ h.obtained ∨ f ∈ h.cancelled ∨ ∃ t, s.loop.point t = .waiting f
  hit : ∀ t f, s.loop.point t = .waiting f →
    (f ∈ h.cancelled ↔ (s.loop.task t).mustCancel = true ∨ s.loop.future f = .cancelled)
  gone : ∀ g ∈ h.obtained, ∀ t, s.loop.point t ≠ .waiting g
  passed : ∀ g ∈ h.obtained, ∀ t f, s.loop.point t = .waiting f → f < g → f ∈ h.cancelled
  obtained_sorted : h.obtained.Pairwise (· < ·)

theorem Ordered.initial (fastAcquire : Bool) :
    Ordered (initial τ fastAcquire) (History.empty τ) := by
  constructor <;> simp [Lock.initial, History.empty, Loop.initial, Loop.point]

variable {s s' : State τ} {h : History τ} {t : τ} {f : FutureId}

/-- The order does not read who is holding the lock. -/
theorem Ordered.hold {holding : τ → Bool} (ord : Ordered s h) :
    Ordered s { h with holding := holding } :=
  ⟨ord.started_lt, ord.started_sorted, ord.known, ord.known_cancelled, ord.known_obtained,
    ord.accounted, ord.hit, ord.gone, ord.passed, ord.obtained_sorted⟩

theorem Ordered.frame (ord : Ordered s h) (same : SameWaits s s') : Ordered s' h where
  started_lt f hf := by
    rw [same.next]
    exact ord.started_lt f hf
  started_sorted := ord.started_sorted
  known t f ht := ord.known t f ((same.point t f).mp ht)
  known_cancelled := ord.known_cancelled
  known_obtained := ord.known_obtained
  accounted f hf := by
    simpa only [same.point] using ord.accounted f hf
  hit t f ht := by
    have ht' := (same.point t f).mp ht
    rw [ord.hit t f ht', same.request t f ht', same.future t f ht']
  gone g hg t ht := ord.gone g hg t ((same.point t g).mp ht)
  passed g hg t f ht := ord.passed g hg t f ((same.point t f).mp ht)
  obtained_sorted := ord.obtained_sorted

/-- A new wait comes after all earlier ones, and no request has hit it. -/
theorem Ordered.join [DecidableEq τ] (ord : Ordered s h) (inv : Inv s)
    (hp : s.loop.point t = .outside)
    (hloop : s'.loop = s.loop.createFuture.moveTo t (.waiting s.loop.nextFuture)) :
    Ordered s' { h with started := h.started ++ [s.loop.nextFuture] } := by
  have hcase : ∀ u f, s'.loop.point u = .waiting f →
      u = t ∧ f = s.loop.nextFuture ∨ s.loop.point u = .waiting f ∧ u ≠ t := by
    intro u f hu
    by_cases hut : u = t
    · exact .inl ⟨hut, by simpa [hloop, hut, eq_comm] using hu⟩
    · exact .inr ⟨by simpa [hloop, hut] using hu, hut⟩
  have hback : ∀ u f, s.loop.point u = .waiting f → s'.loop.point u = .waiting f := by
    intro u f hu
    have hut : u ≠ t := fun he => by simp [he, hp] at hu
    simpa [hloop, hut] using hu
  have hold : ∀ g ∈ h.started, g ≠ s.loop.nextFuture := fun g hg => (ord.started_lt g hg).ne
  constructor
  · intro g hg
    simp only [hloop, Loop.moveTo_nextFuture, Loop.createFuture_nextFuture]
    rcases List.mem_append.mp hg with hg | hg
    · exact Nat.lt_succ_of_lt (ord.started_lt g hg)
    · simp [List.mem_singleton.mp hg]
  · refine List.pairwise_append.mpr ⟨ord.started_sorted, List.pairwise_singleton _ _, ?_⟩
    intro g hg k hk
    rw [List.mem_singleton.mp hk]
    exact ord.started_lt g hg
  · intro u g hu
    rcases hcase u g hu with ⟨-, rfl⟩ | ⟨hu, -⟩
    · simp
    · exact List.mem_append_left _ (ord.known u g hu)
  · exact fun g hg => List.mem_append_left _ (ord.known_cancelled g hg)
  · exact fun g hg => List.mem_append_left _ (ord.known_obtained g hg)
  · intro g hg
    rcases List.mem_append.mp hg with hg | hg
    · rcases ord.accounted g hg with hg | hg | ⟨u, hu⟩
      · exact .inl hg
      · exact .inr (.inl hg)
      · exact .inr (.inr ⟨u, hback u g hu⟩)
    · exact .inr (.inr ⟨t, by simp [hloop, List.mem_singleton.mp hg]⟩)
  · intro u g hu
    rcases hcase u g hu with ⟨rfl, rfl⟩ | ⟨hu, -⟩
    · have hnew : s.loop.nextFuture ∉ h.cancelled :=
        fun hc => hold _ (ord.known_cancelled _ hc) rfl
      simp [hloop, hnew, inv.idle u hp]
    · rw [ord.hit u g hu]
      simp [hloop, hold g (ord.known u g hu)]
  · intro g hg u hu
    rcases hcase u g hu with ⟨-, rfl⟩ | ⟨hu, -⟩
    · exact hold _ (ord.known_obtained _ hg) rfl
    · exact ord.gone g hg u hu
  · intro g hg u k hu hlt
    rcases hcase u k hu with ⟨-, rfl⟩ | ⟨hu, -⟩
    · exact absurd hlt (Nat.lt_asymm (ord.started_lt g (ord.known_obtained g hg)))
    · exact ord.passed g hg u k hu hlt
  · exact ord.obtained_sorted

/-- A wait that was hit ends without the lock. -/
theorem Ordered.leave {r : State τ} (ord : Ordered s h) (hp : s.loop.point t = .waiting f)
    (hwait : ∀ u g, r.loop.point u = .waiting g ↔ u ≠ t ∧ s.loop.point u = .waiting g)
    (hreq : ∀ u, u ≠ t → (r.loop.task u).mustCancel = (s.loop.task u).mustCancel)
    (hfut : r.loop.future = s.loop.future) (hnext : r.loop.nextFuture = s.loop.nextFuture)
    (hhit : f ∈ h.cancelled) : Ordered r h where
  started_lt g hg := hnext ▸ ord.started_lt g hg
  started_sorted := ord.started_sorted
  known u g hu := ord.known u g ((hwait u g).mp hu).2
  known_cancelled := ord.known_cancelled
  known_obtained := ord.known_obtained
  accounted g hg := by
    rcases ord.accounted g hg with hg | hg | ⟨u, hu⟩
    · exact .inl hg
    · exact .inr (.inl hg)
    · by_cases hut : u = t
      · have hgf : g = f := Point.waiting.inj ((hut ▸ hu).symm.trans hp)
        exact .inr (.inl (hgf ▸ hhit))
      · exact .inr (.inr ⟨u, (hwait u g).mpr ⟨hut, hu⟩⟩)
  hit u g hu := by
    obtain ⟨hut, hu⟩ := (hwait u g).mp hu
    rw [ord.hit u g hu, hreq u hut, hfut]
  gone g hg u hu := ord.gone g hg u ((hwait u g).mp hu).2
  passed g hg u k hu := ord.passed g hg u k ((hwait u k).mp hu).2
  obtained_sorted := ord.obtained_sorted

/-- A wait that ends with the lock is later than every wait that obtained it before. -/
theorem Ordered.obtain {r : State τ} (ord : Ordered s h) (inv : Inv s)
    (hp : s.loop.point t = .waiting f)
    (hwait : ∀ u g, r.loop.point u = .waiting g ↔ u ≠ t ∧ s.loop.point u = .waiting g)
    (hreq : ∀ u, u ≠ t → (r.loop.task u).mustCancel = (s.loop.task u).mustCancel)
    (hfut : r.loop.future = s.loop.future) (hnext : r.loop.nextFuture = s.loop.nextFuture)
    (hmust : (s.loop.task t).mustCancel = false) (hfin : s.loop.future f = .finished) :
    Ordered r { h with obtained := h.obtained ++ [f] } := by
  have hnot : f ∉ h.cancelled := by
    rw [ord.hit t f hp]
    simp [hmust, hfin]
  constructor
  · exact fun g hg => hnext ▸ ord.started_lt g hg
  · exact ord.started_sorted
  · exact fun u g hu => ord.known u g ((hwait u g).mp hu).2
  · exact ord.known_cancelled
  · intro g hg
    rcases List.mem_append.mp hg with hg | hg
    · exact ord.known_obtained g hg
    · exact List.mem_singleton.mp hg ▸ ord.known t f hp
  · intro g hg
    rcases ord.accounted g hg with hg | hg | ⟨u, hu⟩
    · exact .inl (List.mem_append_left _ hg)
    · exact .inr (.inl hg)
    · by_cases hut : u = t
      · have hgf : g = f := Point.waiting.inj ((hut ▸ hu).symm.trans hp)
        exact .inl (by simp [hgf])
      · exact .inr (.inr ⟨u, (hwait u g).mpr ⟨hut, hu⟩⟩)
  · intro u g hu
    obtain ⟨hut, hu⟩ := (hwait u g).mp hu
    rw [ord.hit u g hu, hreq u hut, hfut]
  · intro g hg u hu
    obtain ⟨hut, hu⟩ := (hwait u g).mp hu
    rcases List.mem_append.mp hg with hg | hg
    · exact ord.gone g hg u hu
    · exact hut (inv.unique hu (List.mem_singleton.mp hg ▸ hp))
  · intro g hg u k hu hlt
    obtain ⟨-, hu⟩ := (hwait u k).mp hu
    rcases List.mem_append.mp hg with hg | hg
    · exact ord.passed g hg u k hu hlt
    · rw [List.mem_singleton.mp hg] at hlt
      exact (ord.hit u k hu).mpr (.inr (inv.skipped u k t f hu hp hfin hlt))
  · refine List.pairwise_append.mpr ⟨ord.obtained_sorted, List.pairwise_singleton _ _, ?_⟩
    intro g hg k hk
    rw [List.mem_singleton.mp hk]
    rcases Nat.lt_trichotomy g f with hlt | rfl | hlt
    · exact hlt
    · exact absurd hp (ord.gone g hg t)
    · exact absurd (ord.passed g hg t f hp hlt) hnot

section Steps
variable [DecidableEq τ]

omit [DecidableEq τ] in
theorem throws_waiting (hp : s.loop.point t = .waiting f) :
    s.loop.throws t = true ↔
      (s.loop.task t).mustCancel = true ∨ s.loop.future f = .cancelled := by
  simp [Loop.throws, waits_waiting hp]

/-- A request that reaches a wait is recorded, and the wait will end with it. -/
theorem Ordered.cancel (ord : Ordered s h) (inv : Inv s) (hp : s.loop.point t = .waiting f) :
    Ordered { s with loop := s.loop.cancel t } { h with cancelled := h.cancelled ++ [f] } := by
  constructor
  · simpa using ord.started_lt
  · exact ord.started_sorted
  · simpa using ord.known
  · intro g hg
    rcases List.mem_append.mp hg with hg | hg
    · exact ord.known_cancelled g hg
    · exact List.mem_singleton.mp hg ▸ ord.known t f hp
  · exact ord.known_obtained
  · intro g hg
    rcases ord.accounted g hg with hg | hg | hg
    · exact .inl hg
    · exact .inr (.inl (List.mem_append_left _ hg))
    · exact .inr (.inr (by simpa using hg))
  · intro u g hu
    replace hu : s.loop.point u = .waiting g := by simpa using hu
    by_cases hut : u = t
    · subst hut
      obtain rfl := Point.waiting.inj (hu.symm.trans hp)
      have hthrows : (s.loop.cancel u).throws u = true := Loop.cancel_throws rfl
      have hwait : (s.loop.cancel u).point u = .waiting g := by simpa using hu
      simpa [Loop.throws, waits_waiting hwait] using hthrows
    · have hgf : g ≠ f := fun he => hut (inv.unique hu (he ▸ hp))
      have hfut : (s.loop.cancel t).future g = s.loop.future g :=
        Loop.cancel_future_of_ne (by simp [waits_waiting hp, Ne.symm hgf])
      simp [ord.hit u g hu, hgf, hfut, Loop.cancel_task_of_ne hut]
  · simpa using ord.gone
  · intro g hg u k hu hlt
    exact List.mem_append_left _ (ord.passed g hg u k (by simpa using hu) hlt)
  · exact ord.obtained_sorted

/-- A task moving between points outside of the queue leaves the waits alone. -/
theorem SameWaits.move {p : Point} (hfrom : ∀ f, s.loop.point t ≠ .waiting f)
    (hto : ∀ f, p ≠ .waiting f)
    (hl : ∀ u, s'.loop.point u = if u = t then p else s.loop.point u)
    (htask : ∀ u, u ≠ t → s'.loop.task u = s.loop.task u)
    (hfut : s'.loop.future = s.loop.future)
    (hnext : s'.loop.nextFuture = s.loop.nextFuture) : SameWaits s s' := by
  refine ⟨fun u g => ?_, fun u g hu => ?_, fun u g _ => by rw [hfut], hnext⟩
  · by_cases hut : u = t
    · subst hut
      simp [hl, hto g, hfrom g]
    · simp [hl, hut]
  · rw [htask u fun hut => hfrom g (hut ▸ hu)]

theorem SameWaits.leave (hfrom : ∀ f, s.loop.point t ≠ .waiting f) :
    SameWaits s { s with loop := s.loop.resumeAt t .outside } :=
  .move (t := t) (p := .outside) hfrom (by simp) (by simp)
    (fun u hu => Loop.resumeAt_task_of_ne hu _) rfl rfl

theorem SameWaits.release (hs' : release s t = .ok s') : SameWaits s s' := by
  obtain ⟨-, ⟨before, u, f, after, -, -, hpending, rfl⟩ | ⟨-, rfl⟩⟩ := release_cases hs'
  · refine ⟨fun _ _ => Iff.rfl, fun _ _ _ => rfl, fun v g _ => ?_, rfl⟩
    by_cases hg : g = f
    · simp [hg, hpending]
    · simp [Function.update_of_ne hg]
  · exact ⟨fun _ _ => Iff.rfl, fun _ _ _ => rfl, fun _ _ _ => Iff.rfl, rfl⟩

/-- The record of who holds the lock is the owner field, seen at tasks outside `acquire()`. -/
def Held (s : State τ) (h : History τ) : Prop :=
  ∀ t, h.holding t = true ↔ s.ownerTask = some t ∧ s.loop.point t = .outside

omit [DecidableEq τ] in
theorem Held.initial (fastAcquire : Bool) :
    Held (Lock.initial τ fastAcquire) (History.empty τ) := by
  simp [Held, Lock.initial, History.empty]

/-- Steps that end with a new owner outside `acquire()`. -/
theorem Held.gain {r : State τ} (ho : r.ownerTask = some t) (hp : r.loop.point t = .outside)
    (hnone : ∀ u, u ≠ t → h.holding u = false) : Held r (h.hold t true) := by
  intro u
  by_cases hu : u = t
  · simp [History.hold, hu, ho, hp]
  · simp [History.hold, Function.update_of_ne hu, ho, Ne.symm hu, hnone u hu]

omit [DecidableEq τ] in
/-- Steps that leave no owner outside `acquire()`. -/
theorem Held.nobody (hout : ∀ u, s'.ownerTask = some u → s'.loop.point u ≠ .outside)
    (hnone : ∀ u, h.holding u = false) : Held s' h := by
  intro u
  simp only [hnone, Bool.false_eq_true, false_iff, not_and]
  exact hout u

omit [DecidableEq τ] in
theorem Held.free (held : Held s h) (ho : s.ownerTask = none) (u : τ) : h.holding u = false := by
  by_contra hu
  simpa [ho] using ((held u).mp (by simpa using hu)).1

omit [DecidableEq τ] in
/-- Nobody but the owner is recorded, and not even the owner inside `acquire()`. -/
theorem Held.other (held : Held s h) (ho : s.ownerTask = some t) (u : τ)
    (hu : u = t → s.loop.point t ≠ .outside) : h.holding u = false := by
  by_contra hcon
  obtain ⟨hown, hout⟩ := (held u).mp (by simpa using hcon)
  obtain rfl : t = u := by simpa [ho] using hown
  exact hu rfl hout

/-- What holds of a lock and the record of its calls in every state of a run. -/
structure Known (s : State τ) (h : History τ) : Prop where
  inv : Inv s
  ord : Ordered s h
  held : Held s h

theorem Known.acquire (k : Known s h) (hp : s.loop.point t = .outside) (c : Bool) :
    Known (acquire s t c).1 (record h s (.acquire t c) (Lock.acquire s t c).2) := by
  refine ⟨k.inv.acquire hp c, ?_, ?_⟩
  all_goals unfold Lock.acquire; split_ifs with hfree hc hfast hown
  · exact k.ord.frame (.move (t := t) (p := .checkpointIfCancelled) (by simp [hp]) (by simp)
      (by simp) (fun u hu => Loop.moveTo_task_of_ne hu _) rfl rfl)
  · exact k.ord.hold.frame ⟨fun _ _ => Iff.rfl, fun _ _ _ => rfl, fun _ _ _ => Iff.rfl, rfl⟩
  · exact k.ord.frame (.move (t := t) (p := .shieldedCheckpoint) (by simp [hp]) (by simp)
      (by simp) (fun u hu => Loop.moveTo_task_of_ne hu _) rfl rfl)
  · exact k.ord
  · exact k.ord.join k.inv hp rfl
  · exact .nobody (by simp [hfree.1]) (k.held.free hfree.1)
  · exact .gain rfl hp fun u _ => k.held.free hfree.1 u
  · refine .nobody (fun u hu => ?_) (k.held.free hfree.1)
    obtain rfl : t = u := by simpa using hu
    simp
  · exact k.held
  · intro u
    change h.holding u = true ↔ _
    rw [k.held u]
    by_cases hu : u = t
    · simp [hu, hown]
    · simp [hu]

theorem Known.acquireNowait (k : Known s h) (hp : s.loop.point t = .outside) :
    Known (acquireNowait s t).1 (record h s (.acquireNowait t) (Lock.acquireNowait s t).2) := by
  refine ⟨k.inv.acquireNowait hp, ?_, ?_⟩
  all_goals unfold Lock.acquireNowait; split_ifs with hfree hown
  · exact k.ord.hold.frame ⟨fun _ _ => Iff.rfl, fun _ _ _ => rfl, fun _ _ _ => Iff.rfl, rfl⟩
  · exact k.ord
  · exact k.ord
  · exact .gain rfl hp fun u _ => k.held.free hfree.1 u
  · exact k.held
  · exact k.held

theorem Known.release (k : Known s h) (hp : s.loop.point t = .outside)
    (hs' : Lock.release s t = .ok s') : Known s' (h.hold t false) := by
  have ho := (release_cases hs').1
  refine ⟨k.inv.release hp hs', k.ord.hold.frame (.release hs'), .nobody ?_ ?_⟩
  · intro u hu
    obtain ⟨f, hf⟩ := k.inv.release_owner hs' u hu
    simp [hf]
  · intro u
    by_cases hu : u = t
    · simp [History.hold, hu]
    · simpa [History.hold, Function.update_of_ne hu] using
        k.held.other ho u fun he => absurd he hu

theorem Known.cancel (k : Known s h) (hp : s.loop.point t ≠ .outside) :
    Known { s with loop := s.loop.cancel t }
      (record h s (.cancel t) (.suspended (s.loop.point t))) := by
  have hheld : Held { s with loop := s.loop.cancel t } h := by simpa [Held] using k.held
  refine ⟨k.inv.cancel hp, ?_, ?_⟩
  · cases hpt : s.loop.point t with
    | waiting f => exact k.ord.cancel k.inv hpt
    | outside => exact absurd hpt hp
    | checkpointIfCancelled | shieldedCheckpoint =>
        have hfut : (s.loop.cancel t).future = s.loop.future := by
          funext g
          exact Loop.cancel_future_of_ne (by simp [Loop.waits, hpt, Coroutine.waits])
        refine k.ord.frame ⟨by simp, fun u g hu => ?_, by simp [hfut], by simp⟩
        have hut : u ≠ t := fun he => by simp [he, hpt] at hu
        simp [Loop.cancel_task_of_ne hut]
  · cases hpt : s.loop.point t <;> simpa [record, Held] using hheld

/-- The task that raises leaves the record as it is, once it stands outside. -/
theorem Held.raise (held : Held s h) (hp : s.loop.point t ≠ .outside)
    (hl : ∀ u, s'.loop.point u = if u = t then .outside else s.loop.point u)
    (ho : s'.ownerTask = s.ownerTask) (hne : s.ownerTask ≠ some t) : Held s' h := by
  intro u
  rw [held u, ho, hl]
  by_cases hu : u = t
  · simp [hu, hne, hp]
  · simp [hu]

/-- Raising with the lock passes it on. -/
theorem Known.raise_release (k : Known s h) (hp : s.loop.point t ≠ .outside)
    (ho : s.ownerTask = some t) {left : State τ} (inv : Inv left) (ord : Ordered left h)
    (hs' : Lock.release left t = .ok s') (hout : left.loop.point t = .outside) :
    Known s' h := by
  refine ⟨inv.release hout hs', ord.frame (.release hs'), .nobody ?_ ?_⟩
  · intro u hu
    obtain ⟨f, hf⟩ := inv.release_owner hs' u hu
    simp [hf]
  · exact fun u => k.held.other ho u fun _ => hp

theorem Known.resume (k : Known s h) (hwake : s.loop.wakeUpQueued t = true) :
    Known (resume s t).1 (record h s (.resume t) (Lock.resume s t).2) := by
  unfold Lock.resume
  cases hp : s.loop.point t with
  | outside => simp [Loop.wakeUpQueued, Loop.waits, hp, Coroutine.waits] at hwake
  | checkpointIfCancelled =>
      have left : SameWaits s { s with loop := s.loop.resumeAt t .outside } :=
        .leave (by simp [hp])
      simp only
      split_ifs
      · exact ⟨k.inv.resume_outside (by simp [hp]), k.ord.frame left,
          k.held.raise (by simp [hp]) (by simp) rfl (k.inv.checking t hp)⟩
      · have stay : SameWaits s { s with loop := s.loop.resumeAt t .checkpointIfCancelled } :=
          .move (t := t) (p := .checkpointIfCancelled) (by simp [hp]) (by simp) (by simp)
            (fun u hu => Loop.resumeAt_task_of_ne hu _) rfl rfl
        have hinv := k.inv.resume (t := t)
        simp only [Lock.resume, *] at hinv
        refine ⟨hinv, k.ord.frame stay, fun u => ?_⟩
        change h.holding u = true ↔ _
        rw [k.held u]
        by_cases hu : u = t
        · simp [hu, hp]
        · simp [hu]
  | shieldedCheckpoint =>
      have ho := k.inv.yielding t hp
      have hleft := k.inv.resume_outside (t := t) (by simp [hp])
      have left : SameWaits s { s with loop := s.loop.resumeAt t .outside } :=
        .leave (by simp [hp])
      simp only
      split_ifs
      · obtain ⟨s', hs', -, heq⟩ := hleft.releaseAndRaise (by simp) ho
        rw [heq]
        exact k.raise_release (by simp [hp]) ho hleft (k.ord.frame left) hs' (by simp)
      · refine ⟨hleft, ?_, ?_⟩
        · simpa [record, hp, History.hold] using k.ord.hold.frame left
        · simpa [record, hp] using Held.gain (r := { s with loop := s.loop.resumeAt t .outside })
            ho (by simp) fun u hu => k.held.other ho u fun he => absurd he hu
  | waiting f =>
      have hleft := k.inv.leave_queue hp
      have hwait : ∀ u g, (s.loop.resumeAt t .outside).point u = .waiting g ↔
          u ≠ t ∧ s.loop.point u = .waiting g := by
        intro u g
        by_cases hu : u = t <;> simp [hu]
      have hreq : ∀ u, u ≠ t → ((s.loop.resumeAt t .outside).task u).mustCancel =
          (s.loop.task u).mustCancel := fun u hu => by simp [hu]
      simp only
      split_ifs with hthrow ho
      · have hhit := (k.ord.hit t f hp).mpr ((throws_waiting hp).mp hthrow)
        have hord := k.ord.leave (r := { s with
          waiters := s.waiters.erase (t, f), loop := s.loop.resumeAt t .outside })
          hp hwait hreq rfl rfl hhit
        obtain ⟨s', hs', -, heq⟩ := hleft.releaseAndRaise (by simp) ho
        rw [heq]
        exact k.raise_release (by simp [hp]) ho hleft hord hs' (by simp)
      · have hhit := (k.ord.hit t f hp).mpr ((throws_waiting hp).mp hthrow)
        exact ⟨hleft, k.ord.leave hp hwait hreq rfl rfl hhit,
          k.held.raise (by simp [hp]) (by simp) rfl ho⟩
      · -- nobody cancelled this wait, so it was woken because the lock was handed over
        obtain ⟨hmust, hfin⟩ := Loop.finished_of_woken (waits_waiting hp) hwake hthrow
        have ho := (k.inv.granted t f hp).mp hfin
        refine ⟨hleft, ?_, ?_⟩
        · have hord := k.ord.obtain (r := { s with
            waiters := s.waiters.erase (t, f), loop := s.loop.resumeAt t .outside })
            k.inv hp hwait hreq rfl rfl hmust hfin
          simpa [record, hp, History.hold] using hord.hold
        · have hgain := Held.gain (h := h) (r := { s with
            waiters := s.waiters.erase (t, f), loop := s.loop.resumeAt t .outside })
            ho (by simp) fun u hu => k.held.other ho u fun he => absurd he hu
          simpa [record, hp, History.hold, Held] using hgain

theorem Known.step {a : Action τ} {o : Outcome Point Unit} (k : Known s h)
    (hs : step s a = some (s', o)) : Known s' (record h s a o) := by
  cases a with
  | acquire t c =>
      simp only [Lock.step, Option.ite_none_right_eq_some, Option.some.injEq] at hs
      simpa [hs.2] using k.acquire hs.1 c
  | acquireNowait t =>
      simp only [Lock.step, Option.ite_none_right_eq_some, Option.some.injEq] at hs
      simpa [hs.2] using k.acquireNowait hs.1
  | release t =>
      simp only [Lock.step, Option.ite_none_right_eq_some] at hs
      obtain ⟨hp, hs⟩ := hs
      split at hs
      · rename_i s'' hs''
        cases hs
        exact k.release hp hs''
      · cases hs
        exact k
  | cancel t =>
      simp only [Lock.step, Option.ite_none_right_eq_some, Option.some.injEq, Prod.mk.injEq] at hs
      obtain ⟨hp, rfl, rfl⟩ := hs
      exact k.cancel hp
  | resume t =>
      simp only [Lock.step, Option.ite_none_right_eq_some, Option.some.injEq] at hs
      simpa [hs.2] using k.resume hs.1

theorem Known.reachable {allowed : State τ × History τ → Action τ → Prop} {fastAcquire : Bool}
    (run : (recorded τ).Reachable allowed
      (Lock.initial τ fastAcquire, History.empty τ) (s, h)) : Known s h :=
  run.invariant_history ⟨.initial fastAcquire, .initial fastAcquire, .initial fastAcquire⟩
    fun _ _ _ _ _ k _ hs => k.step hs

/-- The waiter to which a release would hand the lock. -/
def firstLive (s : State τ) : Option (τ × FutureId) :=
  s.waiters.find? fun item => s.loop.future item.2 ≠ .cancelled

theorem releaseAndRaise_owner (inv : Inv s) (hp : s.loop.point t = .outside)
    (ho : s.ownerTask = some t) :
    (releaseAndRaise s t).2 = .raised .cancelledError ∧
      (releaseAndRaise s t).1.ownerTask ≠ some t ∧
      (releaseAndRaise s t).1.ownerTask = (firstLive (releaseAndRaise s t).1).map Prod.fst := by
  obtain ⟨s', hs', -, heq⟩ := inv.releaseAndRaise hp ho
  rw [heq]
  refine ⟨rfl, fun hown => ?_, ?_⟩
  · obtain ⟨f, hf⟩ := inv.release_owner hs' t hown
    have hf' := ((SameWaits.release hs').point t f).mp hf
    simp [hp] at hf'
  · obtain ⟨-, ⟨before, u, f, after, hsplit, hbefore, -, rfl⟩ | ⟨hall, rfl⟩⟩ := release_cases hs'
    · have hne : ∀ item ∈ before, item.2 ≠ f := by
        intro item hitem he
        have hord : (before ++ (u, f) :: after).Pairwise fun x y => x.2 < y.2 :=
          hsplit ▸ inv.ordered
        have hlt := (List.pairwise_append.mp hord).2.2 item hitem (u, f) (by simp)
        exact absurd he hlt.ne
      have hfind : firstLive { s with
          ownerTask := some u
          loop := { s.loop with future := Function.update s.loop.future f .finished } } =
          some (u, f) := by
        refine List.find?_eq_some_iff_append.mpr ⟨by simp, before, after, hsplit, ?_⟩
        intro item hitem
        simpa [Function.update_of_ne (hne item hitem)] using hbefore item hitem
      simp [hfind]
    · have hfind : firstLive { s with ownerTask := none } = none :=
        List.find?_eq_none.mpr fun item hitem => by simpa using hall item hitem
      simp [hfind]

/-- A call that raises is refused and changes nothing, or it was resumed by a
cancellation. Then its task is not the owner afterwards: a lock it had been
handed went on to the next live waiter. -/
theorem Inv.raised (inv : Inv s) {a : Action τ} {e : Error}
    (hs : Lock.step s a = some (s', .raised e)) :
    (s' = s ∧ (e = alreadyHeld ∨ e = notHolding ∨ e = .wouldBlock)) ∨
      (e = .cancelledError ∧ ∃ t, a = .resume t ∧ s'.ownerTask ≠ some t ∧
        (s.ownerTask = some t → s'.ownerTask = (firstLive s').map Prod.fst)) := by
  cases a with
  | acquire t c =>
      simp only [Lock.step, Option.ite_none_right_eq_some, Option.some.injEq] at hs
      unfold Lock.acquire at hs
      split_ifs at hs <;> simp_all
  | acquireNowait t =>
      simp only [Lock.step, Option.ite_none_right_eq_some, Option.some.injEq] at hs
      unfold Lock.acquireNowait at hs
      split_ifs at hs <;> simp_all
  | release t =>
      simp only [Lock.step, Option.ite_none_right_eq_some] at hs
      obtain ⟨hp, hs⟩ := hs
      by_cases ho : s.ownerTask = some t
      · obtain ⟨s'', hs''⟩ := inv.release_ok ho hp
        simp [hs''] at hs
      · simp only [Lock.release, ne_eq, ho, not_false_eq_true, if_true, Option.some.injEq,
          Prod.mk.injEq, Outcome.raised.injEq] at hs
        exact .inl ⟨hs.1.symm, .inr (.inl hs.2.symm)⟩
  | cancel t =>
      simp [Lock.step] at hs
  | resume t =>
      simp only [Lock.step, Option.ite_none_right_eq_some, Option.some.injEq] at hs
      obtain ⟨hwake, hs⟩ := hs
      unfold Lock.resume at hs
      cases hp : s.loop.point t with
      | outside => simp [Loop.wakeUpQueued, Loop.waits, hp, Coroutine.waits] at hwake
      | checkpointIfCancelled =>
          simp only [hp] at hs
          split_ifs at hs
          · cases hs
            have hne := inv.checking t hp
            exact .inr ⟨rfl, t, rfl, hne, fun ho => absurd ho hne⟩
          · cases hs
      | shieldedCheckpoint =>
          simp only [hp] at hs
          have left := inv.resume_outside (t := t) (by simp [hp])
          split_ifs at hs
          · have hown := releaseAndRaise_owner left (by simp) (inv.yielding t hp)
            rw [hs] at hown
            cases hown.1
            exact .inr ⟨rfl, t, rfl, hown.2.1, fun _ => hown.2.2⟩
          · cases hs
      | waiting f =>
          simp only [hp] at hs
          split_ifs at hs with _ ho
          · have hown := releaseAndRaise_owner (inv.leave_queue hp) (by simp) ho
            rw [hs] at hown
            cases hown.1
            exact .inr ⟨rfl, t, rfl, hown.2.1, fun _ => hown.2.2⟩
          · cases hs
            exact .inr ⟨rfl, t, rfl, ho, fun h => absurd h ho⟩
          · cases hs

/-- At most one task is between a successful acquire and its release, and it
is the owner; while a task runs, it is recorded exactly if it is the owner.
A cancelled `acquire()` leaves its task without the lock and passes on a lock
that the task had been handed. No future is completed twice. The waits that
obtained the lock did so in the order in which they were started, and a wait
that was started before one of them and was not cancelled has obtained it. -/
theorem mutual_exclusion_and_order {fastAcquire : Bool}
    (run : (recorded τ).Reachable Machine.anyStep
      (Lock.initial τ fastAcquire, History.empty τ) (s, h)) :
    (∀ t u, h.holding t = true → h.holding u = true → t = u) ∧
    (∀ t, h.holding t = true → s.ownerTask = some t) ∧
    (∀ t, s.loop.point t = .outside → (h.holding t = true ↔ s.ownerTask = some t)) ∧
    (∀ a s', step s a = some (s', .raised .cancelledError) →
      ∃ t, a = .resume t ∧ s'.ownerTask ≠ some t ∧
        (s.ownerTask = some t → s'.ownerTask = (firstLive s').map Prod.fst)) ∧
    (∀ a s', step s a ≠ some (s', .raised .invalidStateError)) ∧
    (h.started.Pairwise (· < ·) ∧ h.obtained.Pairwise (· < ·) ∧ (∀ f ∈ h.obtained, f ∈ h.started) ∧
      ∀ f ∈ h.started, ∀ g ∈ h.obtained, f < g → f ∉ h.cancelled → f ∈ h.obtained) := by
  have k := Known.reachable run
  have howner : ∀ t, h.holding t = true → s.ownerTask = some t := fun t ht => ((k.held t).mp ht).1
  refine ⟨?_, howner, ?_, ?_, ?_, k.ord.started_sorted, k.ord.obtained_sorted,
    k.ord.known_obtained, ?_⟩
  · intro t u ht hu
    exact Option.some.inj ((howner t ht).symm.trans (howner u hu))
  · intro t hp
    exact ⟨howner t, fun ho => (k.held t).mpr ⟨ho, hp⟩⟩
  · intro a s' hs
    rcases k.inv.raised hs with ⟨-, he⟩ | ⟨-, ht⟩
    · simp [alreadyHeld, notHolding] at he
    · exact ht
  · intro a s' hs
    rcases k.inv.raised hs with ⟨-, he⟩ | ⟨he, -⟩
    · simp [alreadyHeld, notHolding] at he
    · cases he
  · intro f hf g hg hlt hnot
    rcases k.ord.accounted f hf with hobt | hc | ⟨t, ht⟩
    · exact hobt
    · exact absurd hc hnot
    · exact absurd (k.ord.passed g hg t f ht hlt) hnot

/-- Task 1 waits for the lock that task 0 releases, and resumes with it. -/
def handover : State (Fin 2) × History (Fin 2) :=
  ((recorded (Fin 2)).exec Machine.anyStep (Lock.initial (Fin 2) false, History.empty (Fin 2))
    [.acquireNowait 0, .acquire 1 false, .release 0, .resume 1]).get (by decide)

theorem mutual_exclusion_and_order_handover :
    handover.1.ownerTask = some 1 ∧ handover.2.obtained = [0] ∧
      ∀ t u, handover.2.holding t = true → handover.2.holding u = true → t = u := by
  have run : (recorded (Fin 2)).Reachable Machine.anyStep
      (Lock.initial (Fin 2) false, History.empty (Fin 2)) handover :=
    Machine.exec_get_reachable _ _ _
  exact ⟨by decide, by decide,
    (mutual_exclusion_and_order (s := handover.1) (h := handover.2) run).1⟩

end Steps

end Anyio.Lock
