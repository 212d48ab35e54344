import Anyio.RunVar.Model
import Mathlib.Tactic.Common

/-!
# Which value a run variable has

Variables with different names do not see each other, and neither do event loops. A
token gives back the value that was there before its `set()`, in whatever order the
tokens are used. When they are used in the reverse order of their sets, the value is
therefore that of the last `set()` that was not undone.
-/

namespace Anyio.RunVar

open Library

/-- The `set()` that a token comes from: its loop, its variable, and the value before it. -/
structure Made (κ ν α : Type*) where
  loop : κ
  var : ν
  before : Option α

/-- For every token, the `set()` it comes from; the tokens that were used; for every variable in a
loop, the sets that were not undone, the last one first, and whether the tokens were used in the
reverse order. -/
structure History (κ ν α : Type*) where
  made : List (Made κ ν α)
  used : List Nat
  live : κ → ν → List (Nat × α)
  lifo : κ → ν → Bool

def History.empty (κ ν α : Type*) : History κ ν α where
  made := []
  used := []
  live := fun _ _ => []
  lifo := fun _ _ => true

variable {κ ν α : Type*} {vars : Variables ν α}

/-- The sets in a list are undone one by one from its head: each token gives back the value of
the set after it in the list. -/
def Undoes (made : List (Made κ ν α)) : Option α → List (Nat × α) → Prop
  | value, [] => value = none
  | value, (id, x) :: rest => value = some x ∧ ∃ m, made[id]? = some m ∧ Undoes made m.before rest

theorem Undoes.append {made : List (Made κ ν α)} {value : Option α} {live : List (Nat × α)}
    (h : Undoes made value live) (m : Made κ ν α) : Undoes (made ++ [m]) value live := by
  induction live generalizing value with
  | nil => exact h
  | cons entry rest ih =>
      obtain ⟨hvalue, before, hmade, hrest⟩ := h
      have hlt : entry.1 < made.length := by
        by_contra hge
        rw [List.getElem?_eq_none (by omega)] at hmade
        cases hmade
      refine ⟨hvalue, before, ?_, ih hrest⟩
      rw [List.getElem?_append_left hlt]
      exact hmade

/-- The value is that of the last set that was not undone. -/
theorem Undoes.value_eq {made : List (Made κ ν α)} {value : Option α} {live : List (Nat × α)}
    (h : Undoes made value live) : value = live.head?.map Prod.snd := by
  cases live with
  | nil => exact h
  | cons entry rest => exact h.1

variable [DecidableEq κ] [DecidableEq ν]

/-- The function with another value at one variable in one loop. -/
def updateAt {β : Type*} (f : κ → ν → β) (l : κ) (v : ν) (b : β) : κ → ν → β :=
  Function.update f l (Function.update (f l) v b)

theorem updateAt_self {β : Type*} (f : κ → ν → β) (l : κ) (v : ν) (b : β) :
    updateAt f l v b l v = b := by
  simp [updateAt]

theorem updateAt_of_ne {β : Type*} {f : κ → ν → β} {l l' : κ} {v v' : ν}
    (h : (l', v') ≠ (l, v)) (b : β) : updateAt f l v b l' v' = f l' v' := by
  rcases eq_or_ne l' l with rfl | hl
  · have hv : v' ≠ v := fun hv => h (by rw [hv])
    simp [updateAt, hv]
  · simp [updateAt, hl]

def record (vars : Variables ν α) (h : History κ ν α) (s : State κ ν α) (a : Action κ ν α)
    (o : Answer α) : History κ ν α :=
  match a, o with
  | .set l v x, .token id =>
      { h with
        made := h.made ++ [⟨l, v, current vars s l v⟩]
        live := updateAt h.live l v ((id, x) :: h.live l v) }
  | .reset l v id, .done =>
      { h with
        used := id :: h.used
        live := updateAt h.live l v ((h.live l v).eraseP fun entry => entry.1 = id)
        lifo := updateAt h.lifo l v
          (h.lifo l v && (h.live l v).head?.map Prod.fst = some id) }
  | _, _ => h

abbrev recorded (vars : Variables ν α) :
    Machine (State κ ν α × History κ ν α) (Action κ ν α) (Answer α) :=
  (machine vars).withHistory (record vars)

variable {s s' : State κ ν α} {h : History κ ν α} {a : Action κ ν α} {o : Answer α} {l l' : κ}
  {v v' : ν} {id : Nat}

omit [DecidableEq ν] in
theorem current_store_self (value : Option α) :
    current vars (store vars s l v value) l v = value := by
  simp [current, store]

omit [DecidableEq ν] in
/-- Under different names, writing one variable in one loop leaves every other as it is. -/
theorem current_store_of_ne (hname : Function.Injective vars.name) (hne : (l', v') ≠ (l, v))
    (value : Option α) : current vars (store vars s l v value) l' v' = current vars s l' v' := by
  rcases eq_or_ne l' l with rfl | hl
  · have hv : vars.name v' ≠ vars.name v := fun hv => hne (by rw [hname hv])
    simp [current, store, hv]
  · simp [current, store, hl]

/-- `reset()` refuses a token of another variable and one that was used. -/
def refusal (token : Token ν α) (v : ν) : Option String :=
  if token.var ≠ v then some "This token does not belong to this RunVar"
  else if token.redeemed then some "This token has already been used"
  else none

/-- What `reset()` does with a token: it refuses it, or it gives back its value. -/
theorem reset_cases (token : Token ν α) :
    (∃ message, refusal token v = some message ∧
      reset vars s l v id token = (s, .valueError message)) ∨
    refusal token v = none ∧ reset vars s l v id token =
      ({ store vars s l v token.value with
          tokens := s.tokens.set id { token with redeemed := true } }, .done) := by
  unfold reset refusal
  split_ifs
  · exact .inl ⟨_, rfl, rfl⟩
  · exact .inl ⟨_, rfl, rfl⟩
  · exact .inr ⟨rfl, rfl⟩

/-- A token remembers the `set()` it comes from, and whether it was used. -/
structure Remembers (h : History κ ν α) (id : Nat) (token : Token ν α) (m : Made κ ν α) :
    Prop where
  var : token.var = m.var
  value : token.value = m.before
  redeemed : token.redeemed = true ↔ id ∈ h.used

/-- What holds in every state, with the history. -/
structure Inv (vars : Variables ν α) (s : State κ ν α) (h : History κ ν α) : Prop where
  length : h.made.length = s.tokens.length
  used : ∀ id ∈ h.used, id < s.tokens.length
  tokens : ∀ (id : Nat) (token : Token ν α) (m : Made κ ν α),
    s.tokens[id]? = some token → h.made[id]? = some m → Remembers h id token m
  undoes : ∀ l v, h.lifo l v = true → Undoes h.made (current vars s l v) (h.live l v)

omit [DecidableEq κ] [DecidableEq ν] in
theorem inv_initial : Inv vars (initial κ ν α) (.empty κ ν α) where
  length := rfl
  used _ hid := by cases hid
  tokens _ _ _ htoken := by cases htoken
  undoes _ _ _ := rfl

theorem Inv.set (hinv : Inv vars s h) (hname : Function.Injective vars.name) (l : κ) (v : ν)
    (x : α) :
    Inv vars (set vars s l v x).1 (record vars h s (.set l v x) (set vars s l v x).2) where
  length := by simp [RunVar.set, record, hinv.length]
  used id hid := by
    have hlt := hinv.used id hid
    simp only [RunVar.set, List.length_append]
    omega
  tokens id token m htoken hm := by
    simp only [RunVar.set, record] at htoken hm
    rcases Nat.lt_or_ge id s.tokens.length with hlt | hge
    · rw [List.getElem?_append_left hlt] at htoken
      rw [List.getElem?_append_left (hinv.length ▸ hlt)] at hm
      obtain ⟨hvar, hvalue, hredeemed⟩ := hinv.tokens id token m htoken hm
      exact ⟨hvar, hvalue, hredeemed⟩
    · rw [List.getElem?_append_right hge] at htoken
      rw [List.getElem?_append_right (hinv.length ▸ hge), hinv.length] at hm
      have hzero : id - s.tokens.length = 0 := by
        by_contra hne
        rw [List.getElem?_eq_none (by simp; omega)] at htoken
        cases htoken
      rw [hzero] at htoken hm
      cases htoken
      cases hm
      have hunused : id ∉ h.used := fun hid => absurd (hinv.used id hid) (Nat.not_lt.mpr hge)
      exact ⟨rfl, rfl, by simp [RunVar.set, record, hunused]⟩
  undoes l' v' hlifo := by
    change Undoes (h.made ++ [_]) (current vars (store vars s l v (some x)) l' v')
      (updateAt h.live l v _ l' v')
    change h.lifo l' v' = true at hlifo
    rcases eq_or_ne (l', v') (l, v) with he | hne
    · cases he
      rw [current_store_self, updateAt_self]
      refine ⟨rfl, ⟨l, v, current vars s l v⟩, ?_, (hinv.undoes l v hlifo).append _⟩
      rw [← hinv.length]
      simp
    · rw [current_store_of_ne hname hne, updateAt_of_ne hne]
      exact (hinv.undoes l' v' hlifo).append _

theorem Inv.reset (hinv : Inv vars s h) (hname : Function.Injective vars.name) {token : Token ν α}
    (htoken : s.tokens[id]? = some token) :
    Inv vars (reset vars s l v id token).1
      (record vars h s (.reset l v id) (reset vars s l v id token).2) := by
  have hid : id < s.tokens.length := (List.getElem?_eq_some_iff.mp htoken).1
  rcases (reset_cases token : _ ∨ _ ∧ RunVar.reset vars s l v id token = _) with
    ⟨message, -, heq⟩ | ⟨-, heq⟩
  · rw [heq]
    exact hinv
  · rw [heq]
    constructor
    · simp [record, hinv.length]
    · intro id' hid'
      rw [List.length_set]
      rcases List.mem_cons.mp hid' with rfl | hid'
      · exact hid
      · exact hinv.used id' hid'
    · intro id' token' m htoken' hm
      rcases eq_or_ne id' id with rfl | hne
      · rw [List.getElem?_set_self hid] at htoken'
        cases htoken'
        obtain ⟨hvar, hvalue, -⟩ := hinv.tokens id' token m htoken hm
        exact ⟨hvar, hvalue, by simp [record]⟩
      · rw [List.getElem?_set_ne hne.symm] at htoken'
        obtain ⟨hvar, hvalue, hredeemed⟩ := hinv.tokens id' token' m htoken' hm
        exact ⟨hvar, hvalue, by simp [record, hne, hredeemed]⟩
    · intro l' v' hlifo
      change Undoes h.made (current vars (store vars s l v token.value) l' v')
        (updateAt h.live l v _ l' v')
      change updateAt h.lifo l v _ l' v' = true at hlifo
      rcases eq_or_ne (l', v') (l, v) with he | hne
      · cases he
        rw [current_store_self, updateAt_self]
        rw [updateAt_self, Bool.and_eq_true] at hlifo
        have hundoes := hinv.undoes l v hlifo.1
        cases hlive : h.live l v with
        | nil => simp [hlive] at hlifo
        | cons entry rest =>
            have hentry : entry.1 = id := by simpa [hlive] using hlifo.2
            rw [hlive] at hundoes
            obtain ⟨-, m, hm, hrest⟩ := hundoes
            rw [List.eraseP_cons_of_pos (by simpa using hentry),
              (hinv.tokens id token m htoken (hentry ▸ hm)).value]
            exact hrest
      · rw [current_store_of_ne hname hne, updateAt_of_ne hne]
        rw [updateAt_of_ne hne] at hlifo
        exact hinv.undoes l' v' hlifo

omit [DecidableEq κ] in
/-- Exactly the tokens of other variables and those that were used are refused. -/
theorem Remembers.refusal {token : Token ν α} {m : Made κ ν α} (remembers : Remembers h id token m)
    (v : ν) : RunVar.refusal token v = none ↔ m.var = v ∧ id ∉ h.used := by
  unfold RunVar.refusal
  rw [remembers.var, ← remembers.redeemed]
  split_ifs with hvar hredeemed <;> simp_all

theorem Inv.step (hinv : Inv vars s h) (hname : Function.Injective vars.name)
    (hs : step vars s a = some (s', o)) : Inv vars s' (record vars h s a o) := by
  cases a with
  | get l v default =>
      cases hs
      exact hinv
  | set l v x =>
      have hset := hinv.set hname l v x
      rwa [Option.some.inj hs] at hset
  | reset l v id =>
      obtain ⟨token, htoken, he⟩ := Option.map_eq_some_iff.mp hs
      have hreset := hinv.reset (l := l) (v := v) hname htoken
      rwa [he] at hreset

/-- For variables with different names, in every run: `set()` gives the variable its value in the
loop; a token is refused exactly if it is of another variable or was used before, and otherwise,
used in the loop of its `set()`, it gives back the value or the lack of one before it, in whatever
order tokens are used; neither changes any other variable, nor the variable in another loop;
`get()` changes nothing and returns the value, else its own default, else that of the variable,
else it raises; and while the tokens of a variable are used in a loop in the reverse order of their
sets, the value there is that of the last `set()` not undone. -/
theorem run_vars_isolated (hname : Function.Injective vars.name)
    (run : (recorded vars).Reachable Machine.anyStep (initial κ ν α, .empty κ ν α) (s, h)) :
    (∀ l v x s' o, (machine vars).step s (.set l v x) = some (s', o) →
      current vars s' l v = some x ∧
        ∀ l' v', (l', v') ≠ (l, v) → current vars s' l' v' = current vars s l' v') ∧
    (∀ l v id s' o, (machine vars).step s (.reset l v id) = some (s', o) →
      ∃ m, h.made[id]? = some m ∧
        ((m.var ≠ v ∨ id ∈ h.used) ∧ s' = s ∧ (∃ message, o = .valueError message) ∨
        m.var = v ∧ id ∉ h.used ∧ o = .done ∧ (m.loop = l → current vars s' l v = m.before) ∧
          ∀ l' v', (l', v') ≠ (l, v) → current vars s' l' v' = current vars s l' v')) ∧
    (∀ l v default s' o, (machine vars).step s (.get l v default) = some (s', o) →
      s' = s ∧ ((∃ x, (current vars s l v).or (default.or (vars.default v)) = some x ∧ o = .value x) ∨
        (current vars s l v).or (default.or (vars.default v)) = none ∧
          o = .lookupError ("Run variable \"" ++ vars.name v ++
            "\" has no value and no default set"))) ∧
    ∀ l v, h.lifo l v = true → current vars s l v = (h.live l v).head?.map Prod.snd := by
  have hinv : Inv vars s h := run.invariant_history inv_initial
    fun _ _ _ _ _ hinv _ hs => hinv.step hname hs
  refine ⟨?_, ?_, ?_, fun l v hlifo => (hinv.undoes l v hlifo).value_eq⟩
  · intro l v x s' o hs
    cases hs
    exact ⟨current_store_self _, fun l' v' hne => current_store_of_ne hname hne _⟩
  · intro l v id s' o hs
    obtain ⟨token, htoken, he⟩ := Option.map_eq_some_iff.mp hs
    have hlt : id < h.made.length := by
      rw [hinv.length]
      exact (List.getElem?_eq_some_iff.mp htoken).1
    have hmade := List.getElem?_eq_getElem hlt
    have hremembers := hinv.tokens id token _ htoken hmade
    refine ⟨_, hmade, ?_⟩
    rcases (reset_cases token : _ ∨ _ ∧ reset vars s l v id token = _) with
      ⟨message, hrefused, heq⟩ | ⟨haccepted, heq⟩
    · cases he.symm.trans heq
      have hnot := (hremembers.refusal v).not.mp (by simp [hrefused])
      exact .inl ⟨by tauto, rfl, message, rfl⟩
    · cases he.symm.trans heq
      obtain ⟨hvar, hunused⟩ := (hremembers.refusal v).mp haccepted
      refine .inr ⟨hvar, hunused, rfl, fun _ => ?_, fun l' v' hne => ?_⟩
      · rw [← hremembers.value]
        exact current_store_self _
      · exact current_store_of_ne hname hne _
  · intro l v default s' o hs
    cases hs
    refine ⟨rfl, ?_⟩
    unfold get
    cases current vars s l v with
    | some x => exact .inl ⟨x, rfl, rfl⟩
    | none =>
        cases default with
        | some x => exact .inl ⟨x, rfl, rfl⟩
        | none =>
            cases vars.default v with
            | some x => exact .inl ⟨x, rfl, rfl⟩
            | none => exact .inr ⟨rfl, rfl⟩

/-- Two variables with different names and no defaults. -/
def twoVars : Variables Bool Nat where
  name v := if v then "first" else "second"
  default := fun _ => none

theorem twoVars_name : Function.Injective twoVars.name := by
  intro v v' h
  cases v <;> cases v' <;> simp_all [twoVars]

/-- Both variables are set, the first one twice, and its second token is used. -/
def setAndReset : State Unit Bool Nat × History Unit Bool Nat :=
  ((recorded twoVars).exec Machine.anyStep (initial Unit Bool Nat, .empty Unit Bool Nat)
    [.set () true 1, .set () true 2, .set () false 5, .reset () true 1]).get (by decide)

theorem run_vars_isolated_twoVars :
    setAndReset.2.live () true = [(0, 1)] ∧ current twoVars setAndReset.1 () true = some 1 ∧
      current twoVars setAndReset.1 () false = some 5 := by
  have run : (recorded twoVars).Reachable Machine.anyStep
      (initial Unit Bool Nat, .empty Unit Bool Nat) setAndReset := Machine.exec_get_reachable _ _ _
  obtain ⟨-, -, -, hlast⟩ :=
    run_vars_isolated (s := setAndReset.1) (h := setAndReset.2) twoVars_name run
  exact ⟨by decide, hlast () true (by decide), hlast () false (by decide)⟩

/-- The first of two tokens is used while the second set was not undone. -/
def outOfOrder : State Unit Bool Nat × History Unit Bool Nat :=
  ((recorded twoVars).exec Machine.anyStep (initial Unit Bool Nat, .empty Unit Bool Nat)
    [.set () true 1, .set () true 2, .reset () true 0]).get (by decide)

/-- Two variables with one name. -/
def sameName : Variables Bool Nat where
  name := fun _ => "name"
  default := fun _ => none

/-- A token that is used out of order takes the value of a later set away, and variables with one
name share their value. -/
theorem run_vars_not_isolated :
    (¬ ∀ s h, (recorded twoVars).Reachable Machine.anyStep
        (initial Unit Bool Nat, .empty Unit Bool Nat) (s, h) →
      ∀ l v, current twoVars s l v = (h.live l v).head?.map Prod.snd) ∧
    ¬ ∀ s h, (recorded sameName).Reachable Machine.anyStep
        (initial Unit Bool Nat, .empty Unit Bool Nat) (s, h) →
      ∀ l v x s' o, (machine sameName).step s (.set l v x) = some (s', o) →
        ∀ v' ≠ v, current sameName s' l v' = current sameName s l v' := by
  constructor
  · intro hclaim
    have run : (recorded twoVars).Reachable Machine.anyStep
        (initial Unit Bool Nat, .empty Unit Bool Nat) outOfOrder := Machine.exec_get_reachable _ _ _
    exact absurd (hclaim outOfOrder.1 outOfOrder.2 run () true) (by decide)
  · intro hclaim
    exact absurd (hclaim _ _ .refl () true 1 _ _ rfl false (by decide)) (by decide)

end Anyio.RunVar
