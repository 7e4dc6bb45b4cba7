import Mathlib.Data.List.Basic
import Mathlib.Data.Nat.Notation

/-!
# Searches

A search goes through a list and stops at the first element it is looking for; `upTo` are the
elements it has a look at. Where each of them moves a mark upwards, the mark stays below a bound
exactly if each element does.
-/

namespace MediaFramework

universe u

variable {α : Type u}

/-- The elements up to the first one with `p`, and that one. -/
def upTo (p : α → Bool) : List α → List α
  | [] => []
  | x :: xs => if p x then [x] else x :: upTo p xs

section Search

variable {p : α → Bool} {x : α} {xs : List α}

theorem upTo_cons_of_true (h : p x = true) : upTo p (x :: xs) = [x] := if_pos h

theorem upTo_cons_of_false (h : p x = false) : upTo p (x :: xs) = x :: upTo p xs :=
  if_neg (by simp [h])

/-- A mark that each element moves upwards. -/
theorem mark_le_iff {f : α → ℕ} {mark bound : ℕ} :
    xs.foldl (fun mark x => max mark (f x)) mark ≤ bound ↔
      mark ≤ bound ∧ ∀ x ∈ xs, f x ≤ bound := by
  induction xs generalizing mark with
  | nil => simp
  | cons x xs ih => rw [List.foldl_cons, ih, Nat.max_le, List.forall_mem_cons, and_assoc]

end Search

end MediaFramework
