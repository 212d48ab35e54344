import Anyio.MultiListener.Model
import Mathlib.Data.List.Nodup
import Mathlib.Data.List.Perm.Basic
import Mathlib.Tactic.Common

/-!
# Every listener has one owner

The constructor moves listeners and copies none, so the lists of all
`MultiListener` objects together hold what was passed to them directly. A
flattened `MultiListener` has the extra attributes of the nested one.
-/

namespace Anyio.MultiListener

open Library

variable {α κ ν τ : Type*}

/-- The listeners among the arguments that are no `MultiListener`. -/
def direct (args : List (Argument α)) : List α :=
  args.filterMap fun
    | .listener l => some l
    | .multi _ => none

theorem postInit_length (multis : List (List α)) (args : List (Argument α)) :
    (postInit multis args).2.length = multis.length := by
  induction args generalizing multis with
  | nil => rfl
  | cons arg rest ih =>
      cases arg with
      | listener l => exact ih multis
      | multi m => exact (ih _).trans List.length_set

/-- Taking the listeners of one object leaves those of the others. -/
theorem members_append_set (multis : List (List α)) (m : MultiId) :
    (members multis m ++ (multis.set m []).flatten).Perm multis.flatten := by
  induction multis generalizing m with
  | nil => simp [members]
  | cons first rest ih =>
      cases m with
      | zero => simp [members]
      | succ m =>
          have hrest := ih m
          simp only [members, List.getD_cons_succ, List.set_cons_succ, List.flatten_cons] at hrest ⊢
          calc (rest.getD m [] ++ (first ++ (rest.set m []).flatten)).Perm
                (first ++ (rest.getD m [] ++ (rest.set m []).flatten)) :=
              List.perm_append_comm_assoc _ _ _
            _ |>.Perm (first ++ rest.flatten) := hrest.append_left first

/-- The constructor moves listeners and takes those that it is given directly. -/
theorem postInit_perm (multis : List (List α)) (args : List (Argument α)) :
    ((postInit multis args).1 ++ (postInit multis args).2.flatten).Perm
      (direct args ++ multis.flatten) := by
  induction args generalizing multis with
  | nil => exact List.Perm.refl _
  | cons arg rest ih =>
      cases arg with
      | listener l => exact (ih multis).cons l
      | multi m =>
          set r := postInit (multis.set m []) rest
          have hrest : (r.1 ++ r.2.flatten).Perm (direct rest ++ (multis.set m []).flatten) :=
            ih (multis.set m [])
          calc (members multis m ++ r.1 ++ r.2.flatten).Perm
                (members multis m ++ (r.1 ++ r.2.flatten)) :=
              List.Perm.of_eq (List.append_assoc _ _ _)
            _ |>.Perm (members multis m ++ (direct rest ++ (multis.set m []).flatten)) :=
              hrest.append_left _
            _ |>.Perm (direct rest ++ (members multis m ++ (multis.set m []).flatten)) :=
              List.perm_append_comm_assoc _ _ _
            _ |>.Perm (direct rest ++ multis.flatten) :=
              (members_append_set multis m).append_left _

/-- The constructor leaves another object as it is, or takes all of its listeners. -/
theorem postInit_members (multis : List (List α)) (args : List (Argument α)) (m : MultiId) :
    members (postInit multis args).2 m = members multis m ∨
      members (postInit multis args).2 m = [] := by
  induction args generalizing multis with
  | nil => exact .inl rfl
  | cons arg rest ih =>
      cases arg with
      | listener l => exact ih multis
      | multi n =>
          have hset : members (multis.set n []) m = members multis m ∨
              members (multis.set n []) m = [] := by
            simp only [members, List.getD_eq_getElem?_getD, List.getElem?_set]
            split_ifs <;> simp
          rcases ih (multis.set n []) with hsame | hempty
          · rcases hset with hset | hset
            · exact .inl (hsame.trans hset)
            · exact .inr (hsame.trans hset)
          · exact .inr hempty

theorem members_append_of_lt {multis : List (List α)} {m : MultiId} (h : m < multis.length)
    (l : List α) : members (multis ++ [l]) m = members multis m := by
  simp [members, List.getD_eq_getElem?_getD, List.getElem?_append_left h]

section Runs

variable [DecidableEq τ]

/-- What was passed to the constructor directly, the listeners that each `aclose()` has found when
it began, and those that it has closed. -/
structure History (α τ : Type*) where
  given : List α
  began : τ → List α
  closed : τ → List α

def History.empty (α τ : Type*) : History α τ := ⟨[], fun _ => [], fun _ => []⟩

def record (h : History α τ) (s : State α τ) : Action α τ → List α → History α τ
  | .construct listeners, _ => { h with given := direct listeners ++ h.given }
  | .aclose t m, _ =>
      { h with
        began := Function.update h.began t (members s.multis m)
        closed := Function.update h.closed t [] }
  | .closes t, called => { h with closed := Function.update h.closed t (h.closed t ++ called) }
  | _, _ => h

abbrev recorded (α τ : Type*) [DecidableEq τ] :
    Machine (State α τ × History α τ) (Action α τ) (List α) :=
  (machine α τ).withHistory record

/-- What holds at every step. -/
structure Owned (s : State α τ) (h : History α τ) : Prop where
  perm : s.multis.flatten.Perm h.given
  exists_of_closing : ∀ t m i, s.closing t = some (m, i) → m < s.multis.length
  closed : ∀ t m i, s.closing t = some (m, i) → h.closed t = (h.began t).take i
  kept : ∀ t m i, s.closing t = some (m, i) →
    members s.multis m = h.began t ∨ members s.multis m = []

variable {s s' : State α τ} {h : History α τ} {a : Action α τ} {called : List α}

omit [DecidableEq τ] in
theorem Owned.construct (owned : Owned s h) (args : List (Argument α)) :
    Owned
      { s with
        multis := (postInit s.multis args).2 ++ [(postInit s.multis args).1] }
      { h with given := direct args ++ h.given } where
  perm := by
    rw [List.flatten_append, List.flatten_singleton]
    calc ((postInit s.multis args).2.flatten ++ (postInit s.multis args).1).Perm
          ((postInit s.multis args).1 ++ (postInit s.multis args).2.flatten) :=
        List.perm_append_comm
      _ |>.Perm (direct args ++ s.multis.flatten) := postInit_perm s.multis args
      _ |>.Perm (direct args ++ h.given) := owned.perm.append_left _
  exists_of_closing t m i ht := by
    have hlt := owned.exists_of_closing t m i ht
    rw [List.length_append, postInit_length]
    exact Nat.lt_add_right 1 hlt
  closed := owned.closed
  kept t m i ht := by
    have hlt : m < (postInit s.multis args).2.length := by
      rw [postInit_length]
      exact owned.exists_of_closing t m i ht
    rw [members_append_of_lt hlt]
    rcases postInit_members s.multis args m with hsame | hempty
    · rw [hsame]
      exact owned.kept t m i ht
    · exact .inr hempty

/-- A step of the loop of one task. -/
theorem Owned.loop (owned : Owned s h) {t : τ} {c : Option (MultiId × Nat)}
    (began closed : List α) (hexists : ∀ m i, c = some (m, i) → m < s.multis.length)
    (hclosed : ∀ m i, c = some (m, i) → closed = began.take i)
    (hkept : ∀ m i, c = some (m, i) → members s.multis m = began ∨ members s.multis m = []) :
    Owned { s with closing := Function.update s.closing t c }
      { h with
        began := Function.update h.began t began, closed := Function.update h.closed t closed } where
  perm := owned.perm
  exists_of_closing u m i hu := by
    by_cases ht : u = t
    · rw [ht] at hu
      exact hexists m i ((Function.update_self t c s.closing).symm.trans hu)
    · exact owned.exists_of_closing u m i ((Function.update_of_ne ht c s.closing).symm.trans hu)
  closed u m i hu := by
    by_cases ht : u = t
    · subst ht
      simp only [Function.update_self] at hu ⊢
      exact hclosed m i hu
    · simp only [Function.update_of_ne ht] at hu ⊢
      exact owned.closed u m i hu
  kept u m i hu := by
    by_cases ht : u = t
    · subst ht
      simp only [Function.update_self] at hu ⊢
      exact hkept m i hu
    · simp only [Function.update_of_ne ht] at hu ⊢
      exact owned.kept u m i hu

theorem Owned.step (owned : Owned s h) (hs : step s a = some (s', called)) :
    Owned s' (record h s a called) := by
  cases a with
  | construct args =>
      obtain ⟨-, ⟨⟩⟩ := Option.ite_none_right_eq_some.mp hs
      exact owned.construct args
  | serve m =>
      obtain ⟨-, ⟨⟩⟩ := Option.ite_none_right_eq_some.mp hs
      exact owned
  | aclose t m =>
      obtain ⟨⟨-, hlt⟩, ⟨⟩⟩ := Option.ite_none_right_eq_some.mp hs
      apply owned.loop (members s.multis m) []
      · rintro _ _ ⟨⟩
        exact hlt
      · rintro _ _ ⟨⟩
        rfl
      · rintro _ _ ⟨⟩
        exact .inl rfl
  | closes t =>
      have hbegan : Function.update h.began t (h.began t) = h.began := Function.update_eq_self _ _
      cases hclosing : s.closing t with
      | none => simp [MultiListener.step, hclosing] at hs
      | some loop =>
          obtain ⟨m, i⟩ := loop
          have hkept := owned.kept t m i hclosing
          cases hnext : (members s.multis m)[i]? with
          | some listener =>
              simp only [MultiListener.step, hclosing, hnext, Option.some.injEq, Prod.mk.injEq] at hs
              obtain ⟨rfl, rfl⟩ := hs
              have hsame : members s.multis m = h.began t := by
                apply hkept.resolve_right
                intro hempty
                rw [hempty] at hnext
                cases hnext
              have next := owned.loop (t := t) (c := some (m, i + 1)) (h.began t)
                (h.closed t ++ [listener]) (by
                  rintro _ _ ⟨⟩
                  exact owned.exists_of_closing t m i hclosing) (by
                  rintro _ _ ⟨⟩
                  rw [List.take_add_one, ← hsame, hnext, hsame, owned.closed t m i hclosing]
                  rfl) (by
                  rintro _ _ ⟨⟩
                  exact hkept)
              rwa [hbegan] at next
          | none =>
              simp only [MultiListener.step, hclosing, hnext, Option.some.injEq, Prod.mk.injEq] at hs
              obtain ⟨rfl, rfl⟩ := hs
              have next := owned.loop (t := t) (c := none) (h.began t) (h.closed t ++ [])
                (fun _ _ h => by cases h) (fun _ _ h => by cases h) (fun _ _ h => by cases h)
              rwa [hbegan] at next
  | raises t =>
      have hbegan : Function.update h.began t (h.began t) = h.began := Function.update_eq_self _ _
      have hclosed : Function.update h.closed t (h.closed t) = h.closed :=
        Function.update_eq_self _ _
      cases hclosing : s.closing t with
      | none => simp [MultiListener.step, hclosing] at hs
      | some loop =>
          simp only [MultiListener.step, hclosing, Option.some.injEq, Prod.mk.injEq] at hs
          obtain ⟨rfl, rfl⟩ := hs
          have next := owned.loop (t := t) (c := none) (h.began t) (h.closed t)
            (fun _ _ h => by cases h) (fun _ _ h => by cases h) (fun _ _ h => by cases h)
          rwa [hbegan, hclosed] at next

/-- In every run, the lists of all `MultiListener` objects hold what was passed to the constructor
directly, each as often as it was passed, so a listener that was passed once has one owner. An
`aclose()` closes in order what it has found when it began, and if it gets to its end it has closed
all of that, unless the listeners were moved to another object meanwhile. -/
theorem listeners_have_one_owner
    (run : (recorded α τ).Reachable Machine.anyStep (initial α τ, .empty α τ) (s, h)) :
    s.multis.flatten.Perm h.given ∧
      (h.given.Nodup → s.multis.Pairwise List.Disjoint ∧ ∀ l ∈ s.multis, l.Nodup) ∧
      ∀ t m i, s.closing t = some (m, i) → h.closed t = (h.began t).take i ∧
        ((members s.multis m)[i]? = none →
          h.closed t = h.began t ∨ members s.multis m = []) := by
  have owned : Owned s h := by
    apply run.invariant_history (I := Owned)
    · exact ⟨List.Perm.refl _, (fun t m i h => by cases h), (fun t m i h => by cases h),
        (fun t m i h => by cases h)⟩
    · intro s h a s' called owned _ hs
      exact owned.step hs
  refine ⟨owned.perm, fun hnodup => ?_, fun t m i ht => ⟨owned.closed t m i ht, fun hnext => ?_⟩⟩
  · have hflatten := List.nodup_flatten.mp (owned.perm.nodup_iff.mpr hnodup)
    exact ⟨hflatten.2, hflatten.1⟩
  · rcases owned.kept t m i ht with hsame | hempty
    · left
      rw [owned.closed t m i ht]
      apply List.take_of_length_le
      rw [← hsame]
      exact List.getElem?_eq_none_iff.mp hnext
    · exact .inr hempty

/-- Two listeners are combined, and moved to a third object while the first one is closed. -/
def movedRun : List (Action Nat (Fin 2)) :=
  [.construct [.listener 1, .listener 2], .aclose 0 0, .closes 0,
    .construct [.multi 0, .listener 3, .multi 0]]

theorem listeners_have_one_owner_moved :
    let s := ((recorded Nat (Fin 2)).exec Machine.anyStep (initial Nat (Fin 2), .empty Nat (Fin 2))
      movedRun).get (by decide)
    s.1.multis = [[], [1, 2, 3]] ∧ s.1.multis.Pairwise List.Disjoint ∧ s.2.closed 0 = [1] := by
  have run : (recorded Nat (Fin 2)).Reachable Machine.anyStep
      (initial Nat (Fin 2), .empty Nat (Fin 2)) _ :=
    Machine.exec_get_reachable _ movedRun (by decide)
  obtain ⟨-, hdisjoint, hclosed⟩ := listeners_have_one_owner run
  exact ⟨by decide, (hdisjoint (by decide)).1, (hclosed 0 0 1 (by decide)).1⟩

end Runs

end Anyio.MultiListener
