import Mathlib.Data.List.Basic
import Mathlib.Tactic.Common

/-!
# Queues that drop their oldest elements

A queue with a bound takes every element that arrives. When it is full, the
element that has waited longest makes room. An account of such a queue names
the positions of the elements that were taken out of it: the queue is what
arrived from some position on, and an element that was neither taken nor is
still queued was followed by as many others as the queue has room for.
-/

namespace Anyio.Library

variable {α : Type*}

/-- `append()` on a `deque(maxlen=bound)`. -/
def appendBounded (bound : Nat) (queue : List α) (a : α) : List α :=
  (queue ++ [a]).drop (queue.length + 1 - bound)

theorem appendBounded_length (bound : Nat) (queue : List α) (a : α) :
    (appendBounded bound queue a).length = min bound (queue.length + 1) := by
  rw [appendBounded, List.length_drop, List.length_append, List.length_singleton]
  omega

theorem appendBounded_ne_nil {bound : Nat} (h : 0 < bound) (queue : List α) (a : α) :
    appendBounded bound queue a ≠ [] := by
  apply List.ne_nil_of_length_pos
  rw [appendBounded_length]
  omega

/-- What is known of a queue with room for `bound` elements, given all elements that `arrived`
at it and the positions of those that were `taken` out of it; the front of the queue arrived at
the position `first`. -/
structure Account (bound : Nat) (arrived queue : List α) (taken : List Nat) (first : Nat) :
    Prop where
  rest : queue = arrived.drop first
  within : first ≤ arrived.length
  bounded : queue.length ≤ bound
  ascending : taken.Pairwise (· < ·)
  past : ∀ i ∈ taken, i < first
  dropped : ∀ i < first, i ∉ taken → i + bound < arrived.length

namespace Account

variable {bound first : Nat} {arrived queue : List α} {taken : List Nat} {a : α}

theorem empty (bound : Nat) : Account (α := α) bound [] [] [] 0 := by
  constructor <;> simp

theorem append (account : Account bound arrived queue taken first) (a : α) :
    Account bound (arrived ++ [a]) (appendBounded bound queue a) taken
      (first + (queue.length + 1 - bound)) := by
  have hlength : queue.length = arrived.length - first := by
    rw [account.rest, List.length_drop]
  have hwithin := account.within
  have hbounded := account.bounded
  constructor
  · calc
      appendBounded bound queue a
          = (arrived.drop first ++ [a]).drop (queue.length + 1 - bound) := by
        rw [appendBounded, ← account.rest]
      _ = ((arrived ++ [a]).drop first).drop (queue.length + 1 - bound) := by
        rw [List.drop_append_of_le_length hwithin]
      _ = (arrived ++ [a]).drop (first + (queue.length + 1 - bound)) := List.drop_drop
  · rw [List.length_append, List.length_singleton]
    omega
  · rw [appendBounded_length]
    exact Nat.min_le_left _ _
  · exact account.ascending
  · exact fun i hi => Nat.lt_add_right _ (account.past i hi)
  · intro i hi hmem
    rw [List.length_append, List.length_singleton]
    by_cases hpast : i < first
    · exact Nat.lt_succ_of_lt (account.dropped i hpast hmem)
    · omega

theorem popleft (account : Account bound arrived (a :: queue) taken first) :
    Account bound arrived queue (taken ++ [first]) (first + 1) ∧ arrived[first]? = some a := by
  have hrest := account.rest
  have hlt : first < arrived.length := by
    by_contra hge
    rw [List.drop_eq_nil_of_le (by omega)] at hrest
    cases hrest
  rw [List.drop_eq_getElem_cons hlt] at hrest
  obtain ⟨rfl, hqueue⟩ := List.cons.inj hrest
  refine ⟨?_, List.getElem?_eq_getElem hlt⟩
  constructor
  · exact hqueue
  · exact hlt
  · exact Nat.le_of_succ_le account.bounded
  · rw [List.pairwise_append]
    refine ⟨account.ascending, List.pairwise_singleton _ _, ?_⟩
    intro i hi j hj
    rw [List.mem_singleton.mp hj]
    exact account.past i hi
  · intro i hi
    cases List.mem_append.mp hi with
    | inl h => exact Nat.lt_succ_of_lt (account.past i h)
    | inr h => exact (List.mem_singleton.mp h) ▸ Nat.lt_succ_self _
  · intro i hi hmem
    simp only [List.mem_append, List.mem_singleton, not_or] at hmem
    exact account.dropped i (by omega) hmem.1

end Account

end Anyio.Library
