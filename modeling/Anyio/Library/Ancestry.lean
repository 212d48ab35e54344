import Mathlib.Logic.Relation
import Mathlib.Tactic.SplitIfs

/-!
# Walks along parent pointers

A forest is given by the parent of each element. A walk goes up from an
element and looks for the first hit; it does not go past a stop. Going down
from the hit along the children leads back to the element, through elements
that are neither hits nor stops.
-/

namespace Anyio.Library

variable {α : Type*}

/-- The first hit on the way up from an element, itself included. -/
inductive Nearest (parent : α → Option α) (hit stop : α → Bool) : α → α → Prop
  | here {c : α} (found : hit c = true) : Nearest parent hit stop c c
  | up {x p c : α} (miss : hit x = false) (pass : stop x = false) (hp : parent x = some p)
      (rest : Nearest parent hit stop p c) : Nearest parent hit stop x c

/-- The same as a program, for chains of at most `n` elements. -/
def nearest (parent : α → Option α) (hit stop : α → Bool) : Nat → Option α → Option α
  | 0, _ => none
  | _ + 1, none => none
  | n + 1, some x =>
      if hit x then some x
      else if stop x then none
      else nearest parent hit stop n (parent x)

/-- The elements below `c` that are reached through children that are not blocked. -/
def Descends (children : α → List α) (blocked : α → Bool) : α → α → Prop :=
  Relation.ReflTransGen fun y z => z ∈ children y ∧ blocked z = false

/-- `y` is `x` or one of its ancestors. -/
def Ascends (parent : α → Option α) : α → α → Prop :=
  Relation.ReflTransGen fun y p => parent y = some p

/-- The elements from one on upwards, to the one without a parent. -/
inductive Lineage (parent : α → Option α) : Option α → List α → Prop
  | nil : Lineage parent none []
  | cons {c rest} (above : Lineage parent (parent c) rest) : Lineage parent (some c) (c :: rest)

/-- The same as a program, for chains of at most `n` elements. -/
def lineage (parent : α → Option α) : Nat → Option α → List α
  | 0, _ => []
  | _ + 1, none => []
  | n + 1, some x => x :: lineage parent n (parent x)

/-- A list up to its first stop, which is included. -/
def upTo (stop : α → Bool) : List α → List α
  | [] => []
  | c :: rest => if stop c then [c] else c :: upTo stop rest

/-- The last hit of a list up to its first stop. -/
def outermost (hit stop : α → Bool) (l : List α) : Option α :=
  ((upTo stop l).filter hit).getLast?

variable {parent parent' : α → Option α} {hit hit' stop stop' : α → Bool} {x c d : α}
  {start : Option α} {l rest above : List α}

theorem Nearest.hit_of (h : Nearest parent hit stop x c) : hit c = true := by
  induction h with
  | here found => exact found
  | up _ _ _ _ ih => exact ih

theorem Nearest.unique (hc : Nearest parent hit stop x c) (hd : Nearest parent hit stop x d) :
    c = d := by
  induction hc with
  | here found =>
      cases hd with
      | here => rfl
      | up miss => simp [found] at miss
  | up miss _ hp _ ih =>
      cases hd with
      | here found => simp [found] at miss
      | up _ _ hp' rest =>
          rw [hp, Option.some.injEq] at hp'
          exact ih (hp' ▸ rest)

/-- A walk that starts at a miss continues at the parent. -/
theorem Nearest.of_miss (h : Nearest parent hit stop x c) (miss : hit x = false) :
    stop x = false ∧ ∃ p, parent x = some p ∧ Nearest parent hit stop p c := by
  cases h with
  | here found => simp [found] at miss
  | up _ pass hp rest => exact ⟨pass, _, hp, rest⟩

/-- A walk stays in a set that is closed under parents. -/
theorem Nearest.closed {P : α → Prop} (h : Nearest parent hit stop x c) (hx : P x)
    (hparent : ∀ y p, P y → parent y = some p → P p) : P c := by
  induction h with
  | here => exact hx
  | up _ _ hp _ ih => exact ih (hparent _ _ hx hp)

/-- A walk with one more hit ends there, or where it ended before. -/
theorem Nearest.of_new_hit (h : Nearest parent hit' stop x c) (hd : hit' d = true)
    (hne : ∀ y, y ≠ d → hit' y = hit y) : Nearest parent hit stop x c ∨ c = d := by
  induction h with
  | @here c found =>
      by_cases hc : c = d
      · exact .inr hc
      · exact .inl (.here (hne c hc ▸ found))
  | @up x p c miss pass hp _ ih =>
      have hx : x ≠ d := fun h => by simp [h, hd] at miss
      exact ih.imp_left fun rest => .up (hne x hx ▸ miss) pass hp rest

/-- A walk past fewer stops is still a walk. -/
theorem Nearest.of_more_stops (h : Nearest parent hit stop' x c)
    (hs : ∀ y, stop y = true → stop' y = true) : Nearest parent hit stop x c := by
  induction h with
  | here found => exact .here found
  | up miss pass hp _ ih =>
      exact .up miss (Bool.eq_false_iff.mpr fun h => Bool.eq_false_iff.mp pass (hs _ h)) hp ih

/-- A walk past an element that has become passable was possible before, or it
goes on from the parent of that element. -/
theorem Nearest.of_lifted_stop (h : Nearest parent hit stop' x c)
    (hne : ∀ y, y ≠ d → stop' y = stop y) :
    Nearest parent hit stop x c ∨
      ∃ p, parent d = some p ∧ Nearest parent hit stop' p c := by
  induction h with
  | here found => exact .inl (.here found)
  | @up x p c miss pass hp rest ih =>
      by_cases hx : x = d
      · exact .inr ⟨p, hx ▸ hp, rest⟩
      · exact ih.imp_left fun rest' => .up miss (hne x hx ▸ pass) hp rest'

/-- A walk is the same in another forest that agrees with it on a set of
elements closed under parents. -/
theorem Nearest.congr_on {P : α → Prop} (h : Nearest parent hit stop x c) (hx : P x)
    (hparent : ∀ y p, P y → parent y = some p → parent' y = some p ∧ P p)
    (hhit : ∀ y, P y → hit' y = hit y) (hstop : ∀ y, P y → stop' y = stop y) :
    Nearest parent' hit' stop' x c := by
  induction h with
  | here found => exact .here ((hhit _ hx).trans found)
  | up miss pass hp _ ih =>
      obtain ⟨hp', hpp⟩ := hparent _ _ hx hp
      exact .up ((hhit _ hx).trans miss) ((hstop _ hx).trans pass) hp' (ih hpp)

/-- The program finds the same in another forest that agrees with it on a set of elements closed
under parents. -/
theorem nearest_congr_on {P : α → Prop} {n : Nat} (hstart : ∀ x, start = some x → P x)
    (hagree : ∀ y, P y → parent' y = parent y ∧ hit' y = hit y ∧ stop' y = stop y ∧
      ∀ p, parent y = some p → P p) :
    nearest parent' hit' stop' n start = nearest parent hit stop n start := by
  induction n generalizing start with
  | zero => rfl
  | succ n ih =>
      cases start with
      | none => rfl
      | some x =>
          obtain ⟨hparent, hhit, hstop, habove⟩ := hagree x (hstart x rfl)
          simp only [nearest, hparent, hhit, hstop, ih habove]

theorem nearest_sound {n : Nat} {start : Option α}
    (h : nearest parent hit stop n start = some c) :
    ∃ x, start = some x ∧ Nearest parent hit stop x c := by
  induction n generalizing start with
  | zero => cases h
  | succ n ih =>
      cases start with
      | none => cases h
      | some x =>
          refine ⟨x, rfl, ?_⟩
          unfold nearest at h
          split_ifs at h with hh hs
          · obtain rfl := Option.some.inj h
            exact .here hh
          · obtain ⟨p, hp, rest⟩ := ih h
            exact .up (Bool.not_eq_true _ ▸ hh) (Bool.not_eq_true _ ▸ hs) hp rest

/-- With a rank that falls along the parents, `rank x` steps are enough. -/
theorem nearest_complete {rank : α → Nat} (hrank : ∀ y p, parent y = some p → rank p < rank y)
    {n : Nat} (h : Nearest parent hit stop x c) (hn : rank x < n) :
    nearest parent hit stop n (some x) = some c := by
  induction h generalizing n with
  | here found =>
      obtain ⟨n, rfl⟩ := Nat.exists_eq_succ_of_ne_zero (Nat.ne_of_gt (Nat.zero_lt_of_lt hn))
      simp [nearest, found]
  | up miss pass hp _ ih =>
      obtain ⟨n, rfl⟩ := Nat.exists_eq_succ_of_ne_zero (Nat.ne_of_gt (Nat.zero_lt_of_lt hn))
      have hlt := hrank _ _ hp
      simp only [nearest, miss, pass, Bool.false_eq_true, if_false, hp]
      exact ih (by omega)

/-- From an element whose ancestors are all listed as children, the way up to
the hit is also a way down. -/
theorem Nearest.descends {children : α → List α} {P : α → Prop}
    (h : Nearest parent hit stop x c) (hx : P x)
    (hchild : ∀ y p, P y → parent y = some p → y ∈ children p ∧ P p) :
    Descends children (fun z => stop z || hit z) c x := by
  induction h with
  | here => exact .refl
  | up miss pass hp _ ih =>
      obtain ⟨hmem, hpp⟩ := hchild _ _ hx hp
      exact (ih hpp).tail ⟨hmem, by simp [miss, pass]⟩

theorem Nearest.ascends (h : Nearest parent hit stop x c) : Ascends parent x c := by
  induction h with
  | here => exact .refl
  | up _ _ hp _ ih => exact .head hp ih

/-- What a walk meets before its end is neither a hit nor a stop. -/
theorem Nearest.passes (h : Nearest parent hit stop x c) {y : α} (hy : Ascends parent x y) :
    Ascends parent c y ∨ hit y = false ∧ stop y = false := by
  induction h with
  | here => exact .inl hy
  | up miss pass hp _ ih =>
      rcases hy.cases_head with rfl | ⟨q, hq, hy⟩
      · exact .inr ⟨miss, pass⟩
      · rw [hp, Option.some.injEq] at hq
        exact ih (hq ▸ hy)

/-- With more hits and otherwise unchanged a walk still finds something. -/
theorem Nearest.persists {P : α → Prop} (h : Nearest parent hit stop x c) (hx : P x)
    (hparent : ∀ y p, P y → parent y = some p → parent' y = some p ∧ P p)
    (hhit : ∀ y, P y → hit y = true → hit' y = true) (hstop : ∀ y, P y → stop' y = stop y) :
    ∃ d, Nearest parent' hit' stop' x d := by
  induction h with
  | here found => exact ⟨_, .here (hhit _ hx found)⟩
  | @up x p c _ pass hp _ ih =>
      obtain ⟨hp', hpp⟩ := hparent _ _ hx hp
      cases hfound : hit' x with
      | true => exact ⟨x, .here hfound⟩
      | false =>
          obtain ⟨d, hd⟩ := ih hpp
          exact ⟨d, .up hfound ((hstop x hx).trans pass) hp' hd⟩

/-- Stops matter only up to the hit: where the elements before the first hit let pass what they
let pass before, a walk still finds something. -/
theorem Nearest.survives (h : Nearest parent hit stop x c) (hl : Lineage parent (some x) l)
    (hparent : ∀ y p, parent y = some p → parent' y = some p)
    (hhit : ∀ y, hit y = true → hit' y = true)
    (hstop : ∀ y ∈ l.takeWhile (fun y => !hit y), stop y = false → stop' y = false) :
    ∃ d, Nearest parent' hit' stop' x d := by
  induction h generalizing l with
  | here found => exact ⟨_, .here (hhit _ found)⟩
  | @up x p c miss pass hp _ ih =>
      cases hl with
      | cons above =>
          rw [hp] at above
          rw [List.takeWhile_cons_of_pos (by simp [miss])] at hstop
          obtain ⟨hx, hrest⟩ := List.forall_mem_cons.mp hstop
          cases hfound : hit' x with
          | true => exact ⟨x, .here hfound⟩
          | false =>
              obtain ⟨d, hd⟩ := ih above hrest
              exact ⟨d, .up hfound (hx pass) (hparent x p hp) hd⟩

/-- A stop before the first hit ends every walk. -/
theorem Nearest.stopped (hl : Lineage parent (some x) l) {y : α}
    (hy : y ∈ l.takeWhile fun y => !hit y) (hstop : stop y = true) :
    ¬ Nearest parent hit stop x c := by
  intro h
  induction h generalizing l with
  | @here c found =>
      cases hl with
      | cons => simp [found] at hy
  | @up x p c miss pass hp _ ih =>
      cases hl with
      | cons above =>
          rw [hp] at above
          rw [List.takeWhile_cons_of_pos (by simp [miss])] at hy
          rcases List.mem_cons.mp hy with rfl | hy
          · rw [hstop] at pass
            cases pass
          · exact ih above hy

/-- The way down to an element is a walk back up, in a forest where children
know their parents. -/
theorem Descends.nearest {children : α → List α}
    (h : Descends children (fun z => stop z || hit z) c x) (hc : hit c = true)
    (hparent : ∀ y p, y ∈ children p → parent y = some p) :
    Nearest parent hit stop x c := by
  induction h with
  | refl => exact .here hc
  | tail _ hz ih =>
      obtain ⟨hmem, hpass⟩ := hz
      obtain ⟨pass, miss⟩ := Bool.or_eq_false_iff.mp hpass
      exact .up miss pass (hparent _ _ hmem) ih

/-- A walk that ends beyond an element of the lineage passes it. -/
theorem Nearest.beyond (h : Nearest parent hit stop x d)
    (hl : Lineage parent (some x) (above ++ c :: rest)) (hnodup : (above ++ c :: rest).Nodup)
    (hd : d ∈ rest) : stop c = false ∧ ∃ p, parent c = some p ∧ Nearest parent hit stop p d := by
  induction above generalizing x with
  | nil =>
      cases hl with
      | cons _ =>
          obtain ⟨hnot, -⟩ := List.nodup_cons.mp hnodup
          cases h with
          | here => exact absurd hd hnot
          | up _ pass hp rest => exact ⟨pass, _, hp, rest⟩
  | cons a above ih =>
      obtain ⟨hnot, hnodup⟩ := List.nodup_cons.mp hnodup
      cases hl with
      | cons hl =>
          cases h with
          | here => exact absurd (List.mem_append_right above (List.mem_cons_of_mem c hd)) hnot
          | up _ _ hp rest => exact ih rest (hp ▸ hl) hnodup

/-- With a rank that falls along the parents, every element has a lineage. -/
theorem Lineage.exists_of_rank {rank : α → Nat}
    (hrank : ∀ y p, parent y = some p → rank p < rank y) (start : Option α) :
    ∃ l, Lineage parent start l := by
  have hall : ∀ n x, rank x < n → ∃ l, Lineage parent (some x) l := by
    intro n
    induction n with
    | zero => exact fun x hx => absurd hx (Nat.not_lt_zero _)
    | succ n ih =>
        intro x hx
        cases hp : parent x with
        | none => exact ⟨[x], .cons (hp.symm ▸ .nil)⟩
        | some p =>
            obtain ⟨l, hl⟩ := ih p (by have := hrank x p hp; omega)
            exact ⟨x :: l, .cons (hp.symm ▸ hl)⟩
  cases start with
  | none => exact ⟨[], .nil⟩
  | some x => exact hall _ x (Nat.lt_succ_self _)

/-- With a rank that falls along the parents, `rank x` steps are enough. -/
theorem Lineage.complete {rank : α → Nat} (hrank : ∀ y p, parent y = some p → rank p < rank y)
    (h : Lineage parent start l) {n : Nat} (hn : ∀ x, start = some x → rank x < n) :
    lineage parent n start = l := by
  induction h generalizing n with
  | nil => cases n <;> rfl
  | @cons b rest _ ih =>
      have hlt := hn b rfl
      obtain ⟨n, rfl⟩ := Nat.exists_eq_succ_of_ne_zero (Nat.ne_of_gt (Nat.zero_lt_of_lt hlt))
      have hrest := ih fun p hp => Nat.lt_of_lt_of_le (hrank b p hp) (Nat.le_of_lt_succ hlt)
      rw [lineage, hrest]

/-- What is around an element is in its lineage. -/
theorem Lineage.mem_of_ascends (h : Lineage parent (some x) l) (hc : Ascends parent x c) :
    c ∈ l := by
  induction hc using Relation.ReflTransGen.head_induction_on generalizing l with
  | refl =>
      cases h with
      | cons => exact List.mem_cons_self
  | head hp _ ih =>
      cases h with
      | cons above => exact List.mem_cons_of_mem _ (ih (hp ▸ above))

theorem Lineage.congr (h : Lineage parent start l) (hp : ∀ c ∈ l, parent' c = parent c) :
    Lineage parent' start l := by
  induction h with
  | nil => exact .nil
  | cons _ ih =>
      refine .cons ?_
      rw [hp _ List.mem_cons_self]
      exact ih fun d hd => hp d (List.mem_cons_of_mem _ hd)

/-- A lineage stays in a set that is closed under parents. -/
theorem Lineage.closed {P : α → Prop} (h : Lineage parent start l)
    (hstart : ∀ x, start = some x → P x)
    (hparent : ∀ y p, P y → parent y = some p → P p) : ∀ c ∈ l, P c := by
  induction h with
  | nil => simp
  | cons _ ih =>
      have hc := hstart _ rfl
      exact List.forall_mem_cons.mpr ⟨hc, ih fun p hp => hparent _ p hc hp⟩

/-- With a rank that falls along the parents, no element of a lineage comes back. -/
theorem Lineage.nodup {rank : α → Nat} (hrank : ∀ y p, parent y = some p → rank p < rank y)
    (h : Lineage parent start l) : l.Nodup := by
  have hfalls : ∀ {start l}, Lineage parent start l → ∀ c, start = some c → ∀ d ∈ l,
      rank d ≤ rank c := by
    intro start l h
    induction h with
    | nil => simp
    | @cons b rest above ih =>
        rintro c ⟨⟩ d hd
        rcases List.mem_cons.mp hd with rfl | hd
        · exact Nat.le_refl _
        · cases hp : parent b with
          | none =>
              rw [hp] at above
              cases above
              cases hd
          | some p => exact Nat.le_trans (ih p hp d hd) (Nat.le_of_lt (hrank b p hp))
  induction h with
  | nil => exact List.nodup_nil
  | @cons b rest above ih =>
      refine List.nodup_cons.mpr ⟨fun hmem => ?_, ih⟩
      cases hp : parent b with
      | none =>
          rw [hp] at above
          cases above
          cases hmem
      | some p =>
          have hle := hfalls above p hp b hmem
          have hlt := hrank b p hp
          omega

theorem mem_of_mem_upTo (h : c ∈ upTo stop l) : c ∈ l := by
  induction l with
  | nil => cases h
  | cons b rest ih =>
      rw [upTo] at h
      split_ifs at h
      · exact List.mem_singleton.mp h ▸ List.mem_cons_self
      · rcases List.mem_cons.mp h with rfl | h
        · exact List.mem_cons_self
        · exact List.mem_cons_of_mem b (ih h)

theorem upTo_map {β : Type*} (f : β → α) (l : List β) :
    upTo stop (l.map f) = (upTo (stop ∘ f) l).map f := by
  induction l with
  | nil => rfl
  | cons b rest ih =>
      simp only [List.map_cons, upTo, ih, Function.comp_apply]
      split_ifs <;> rfl

/-- There is an outermost hit if any element up to the first stop is a hit. -/
theorem outermost_ne_none : outermost hit stop l ≠ none ↔ ∃ c ∈ upTo stop l, hit c = true := by
  simp [outermost]

theorem outermost_cons_stop (h : stop c = true) :
    outermost hit stop (c :: rest) = if hit c then some c else none := by
  simp only [outermost, upTo, h, if_true, List.filter_cons, List.filter_nil]
  split_ifs <;> rfl

theorem outermost_cons_pass (h : stop c = false) :
    outermost hit stop (c :: rest) =
      (outermost hit stop rest).or (if hit c then some c else none) := by
  simp only [outermost, upTo, h, Bool.false_eq_true, if_false, List.filter_cons]
  split_ifs
  · rw [List.getLast?_cons]
    cases ((upTo stop rest).filter hit).getLast? <;> rfl
  · simp

theorem outermost_congr (hhit : ∀ d ∈ l, hit' d = hit d) (hstop : ∀ d ∈ l, stop' d = stop d) :
    outermost hit' stop' l = outermost hit stop l := by
  induction l with
  | nil => rfl
  | cons c rest ih =>
      have hrest := ih (fun d hd => hhit d (List.mem_cons_of_mem c hd))
        fun d hd => hstop d (List.mem_cons_of_mem c hd)
      cases hs : stop c with
      | true =>
          rw [outermost_cons_stop hs, outermost_cons_stop ((hstop c List.mem_cons_self).trans hs),
            hhit c List.mem_cons_self]
      | false =>
          rw [outermost_cons_pass hs, outermost_cons_pass ((hstop c List.mem_cons_self).trans hs),
            hhit c List.mem_cons_self, hrest]

/-- A list has an outermost hit if its first element is one, or passable with one in the rest. -/
theorem outermost_cons_ne_none :
    outermost hit stop (c :: rest) ≠ none ↔
      hit c = true ∨ stop c = false ∧ outermost hit stop rest ≠ none := by
  cases hs : stop c <;> cases hh : hit c <;>
    simp [outermost_cons_stop, outermost_cons_pass, hs, hh]

/-- With more hits there still is an outermost one, unless an element that was no
hit and had none before it has become a stop. -/
theorem outermost_of_new_stop (h : outermost hit stop l ≠ none)
    (hhit : ∀ d ∈ l, hit d = true → hit' d = true) :
    outermost hit' stop' l ≠ none ∨ ∃ below c out, l = below ++ c :: out ∧
      (∀ d ∈ below, hit d = false) ∧ stop c = false ∧ hit' c = false ∧ stop' c = true := by
  induction l with
  | nil => exact absurd rfl h
  | cons b rest ih =>
      rw [outermost_cons_ne_none] at h
      cases hb' : hit' b with
      | true => exact .inl (outermost_cons_ne_none.mpr (.inl hb'))
      | false =>
          have hb : hit b = false := by
            apply Bool.eq_false_iff.mpr
            intro hfound
            rw [hhit b List.mem_cons_self hfound] at hb'
            cases hb'
          obtain ⟨hs, hrest⟩ := h.resolve_left (by simp [hb])
          cases hs' : stop' b with
          | true => exact .inr ⟨[], b, rest, rfl, by simp, hs, hb', hs'⟩
          | false =>
              rcases ih hrest fun d hd => hhit d (List.mem_cons_of_mem b hd) with
                hfound | ⟨below, c, out, rfl, hmiss, hnew⟩
              · exact .inl (outermost_cons_ne_none.mpr (.inr ⟨hs', hfound⟩))
              · exact .inr ⟨b :: below, c, out, rfl, List.forall_mem_cons.mpr ⟨hb, hmiss⟩, hnew⟩

theorem mem_of_outermost (h : outermost hit stop l = some c) : c ∈ l := by
  induction l with
  | nil => cases h
  | cons b rest ih =>
      cases hs : stop b with
      | true =>
          rw [outermost_cons_stop hs] at h
          split_ifs at h
          exact Option.some.inj h ▸ List.mem_cons_self
      | false =>
          rw [outermost_cons_pass hs, Option.or_eq_some_iff] at h
          rcases h with h | ⟨-, h⟩
          · exact List.mem_cons_of_mem b (ih h)
          · split_ifs at h
            exact Option.some.inj h ▸ List.mem_cons_self

/-- The first element is the outermost hit if no stop separates it from no further hit. -/
theorem outermost_cons_eq_self (hnot : c ∉ rest) :
    outermost hit stop (c :: rest) = some c ↔
      hit c = true ∧ (stop c = true ∨ outermost hit stop rest = none) := by
  cases hs : stop c with
  | true => simp [outermost_cons_stop hs]
  | false =>
      rw [outermost_cons_pass hs]
      cases hrest : outermost hit stop rest with
      | none => simp
      | some d =>
          have hdc : d ≠ c := fun h => hnot (h ▸ mem_of_outermost hrest)
          simp [hdc]

/-- An outermost hit other than the first element is found in the rest. -/
theorem outermost_of_cons (h : outermost hit stop (c :: rest) = some d) (hne : d ≠ c) :
    outermost hit stop rest = some d := by
  cases hs : stop c with
  | true =>
      rw [outermost_cons_stop hs] at h
      split_ifs at h
      exact absurd (Option.some.inj h).symm hne
  | false =>
      rw [outermost_cons_pass hs, Option.or_eq_some_iff] at h
      rcases h with h | ⟨-, h⟩
      · exact h
      · split_ifs at h
        exact absurd (Option.some.inj h).symm hne

/-- A walk finds a hit if and only if there is an outermost one. -/
theorem Lineage.nearest_iff (h : Lineage parent (some x) l) :
    (∃ c, Nearest parent hit stop x c) ↔ outermost hit stop l ≠ none := by
  have hall : ∀ {start l}, Lineage parent start l → ∀ x, start = some x →
      ((∃ c, Nearest parent hit stop x c) ↔ outermost hit stop l ≠ none) := by
    intro start l h
    induction h with
    | nil => simp
    | @cons b rest above ih =>
        rintro x ⟨⟩
        cases hh : hit b with
        | true =>
            refine iff_of_true ⟨b, .here hh⟩ ?_
            cases hs : stop b with
            | true => simp [outermost_cons_stop hs, hh]
            | false => simp [outermost_cons_pass hs, hh]
        | false =>
            cases hs : stop b with
            | true =>
                refine iff_of_false ?_ (by simp [outermost_cons_stop hs, hh])
                rintro ⟨c, hc⟩
                have hpass := (hc.of_miss hh).1
                rw [hs] at hpass
                cases hpass
            | false =>
                rw [outermost_cons_pass hs, hh, if_neg Bool.false_ne_true, Option.or_none]
                cases hp : parent b with
                | none =>
                    rw [hp] at above
                    cases above
                    refine iff_of_false ?_ (by simp [outermost, upTo])
                    rintro ⟨c, hc⟩
                    obtain ⟨-, p, hp', -⟩ := hc.of_miss hh
                    rw [hp] at hp'
                    cases hp'
                | some p =>
                    rw [← ih p hp]
                    constructor
                    · rintro ⟨c, hc⟩
                      obtain ⟨-, q, hq, rest⟩ := hc.of_miss hh
                      rw [hp, Option.some.injEq] at hq
                      exact ⟨c, hq ▸ rest⟩
                    · rintro ⟨c, hc⟩
                      exact ⟨c, .up hh hs hp hc⟩
  exact hall h x rfl

/-- A walk that does not end in the first part of a lineage finds its hit in the rest. -/
theorem Nearest.outermost_ne_none (h : Nearest parent hit stop x d)
    (hl : Lineage parent (some x) (above ++ l)) (hd : d ∉ above) :
    outermost hit stop l ≠ none := by
  induction above generalizing x with
  | nil => exact hl.nearest_iff.mp ⟨d, h⟩
  | cons a above ih =>
      cases hl with
      | cons hl =>
          cases h with
          | here => exact absurd List.mem_cons_self hd
          | up _ _ hp rest =>
              exact ih rest (hp ▸ hl) fun hmem => hd (List.mem_cons_of_mem _ hmem)

end Anyio.Library
