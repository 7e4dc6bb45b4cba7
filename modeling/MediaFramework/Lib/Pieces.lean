import Mathlib.Data.List.Basic
import Mathlib.Data.Nat.Notation
import Mathlib.Algebra.BigOperators.Ring.List
import Mathlib.Algebra.Order.Group.Nat
import Mathlib.Algebra.Ring.Nat

/-!
# Whole pieces of a list

A list is cut into pieces of one length; what is left over at its end makes no piece. Where the list
is the concatenation of others whose lengths are multiples of that of a piece, its pieces are theirs.
-/

namespace MediaFramework

universe u

variable {α : Type u}

/-- The pieces of length `n`, in their order. -/
def pieces (n : ℕ) (l : List α) : List (List α) :=
  (List.range (l.length / n)).map fun k => (l.drop (n * k)).take n

section Pieces

variable {n : ℕ} {l xs ys : List α}

theorem pieces_of_lt (h : l.length < n) : pieces n l = [] := by
  rw [pieces, Nat.div_eq_of_lt h]
  rfl

theorem getElem?_pieces {k : ℕ} (h : k < l.length / n) :
    (pieces n l)[k]? = some ((l.drop (n * k)).take n) := by
  rw [pieces, List.getElem?_map, List.getElem?_range h]
  rfl

/-- Where the first list ends, a piece begins. -/
theorem pieces_append (hn : 0 < n) (h : n ∣ xs.length) :
    pieces n (xs ++ ys) = pieces n xs ++ pieces n ys := by
  obtain ⟨m, hm⟩ := h
  have hdiv : xs.length / n = m := by rw [hm, Nat.mul_div_cancel_left m hn]
  have hlen : (xs ++ ys).length / n = m + ys.length / n := by
    rw [List.length_append, hm, Nat.mul_add_div hn]
  rw [pieces, hlen, List.range_add, List.map_append, pieces, hdiv, pieces, List.map_map]
  congr 1
  · refine List.map_congr_left fun k hk => ?_
    have hk := List.mem_range.mp hk
    have hle : n * k + n ≤ xs.length := by
      rw [hm, ← Nat.mul_succ]
      exact Nat.mul_le_mul_left n hk
    rw [List.drop_append_of_le_length (by omega), List.take_append_of_le_length]
    rw [List.length_drop]
    omega
  · refine List.map_congr_left fun k _ => ?_
    simp only [Function.comp_apply]
    rw [Nat.mul_add, ← hm, ← List.drop_drop, List.drop_left]

/-- The pieces of lists, one list after the other. -/
theorem flatMap_pieces (hn : 0 < n) {ls : List (List α)} (h : ∀ l ∈ ls, n ∣ l.length) :
    ls.flatMap (pieces n) = pieces n ls.flatten := by
  induction ls with
  | nil => exact (pieces_of_lt hn).symm
  | cons l ls ih =>
    rw [List.flatMap_cons, List.flatten_cons, pieces_append hn (h l List.mem_cons_self),
      ih fun l' hl' => h l' (List.mem_cons_of_mem l hl')]

/-- Lists of whole pieces make up a list of whole pieces. -/
theorem dvd_length_flatten {ls : List (List α)} (h : ∀ l ∈ ls, n ∣ l.length) :
    n ∣ ls.flatten.length := by
  rw [List.length_flatten]
  refine List.dvd_sum fun m hm => ?_
  obtain ⟨l, hl, rfl⟩ := List.mem_map.mp hm
  exact h l hl

/-- What is too short for a piece adds none. -/
theorem pieces_append_of_lt (hn : 0 < n) (h : n ∣ xs.length) (hlt : ys.length < n) :
    pieces n (xs ++ ys) = pieces n xs := by
  rw [pieces_append hn h, pieces_of_lt hlt, List.append_nil]

end Pieces

end MediaFramework
