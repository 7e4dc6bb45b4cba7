import Mathlib.Algebra.BigOperators.Group.Finset.Piecewise
import Mathlib.Algebra.Order.BigOperators.Group.Finset
import Mathlib.Data.Fintype.Basic

/-!
# A family of components, of which one changes at a time

The threads of a program, or its queues, are a finite family `f : ι → α`. What they count
together is a `total` of weights, and a step that replaces one component changes it by the
weight of that component.
-/

namespace MediaFramework

universe u v

variable {ι : Type u} {α : Type v} [Fintype ι]

/-- What the components of the family weigh together. -/
def total (w : α → ℕ) (f : ι → α) : ℕ := ∑ i, w (f i)

/-- **One component changes.** The total changes with its weight. -/
theorem total_update [DecidableEq ι] (w : α → ℕ) (f : ι → α) (i : ι) (a : α) :
    total w (Function.update f i a) + w (f i) = total w f + w a := by
  have hrest : ∑ j ∈ Finset.univ \ {i}, w (Function.update f i a j) =
      ∑ j ∈ Finset.univ \ {i}, w (f j) := by
    refine Finset.sum_congr rfl fun j hj => ?_
    have hne : j ≠ i := fun h => (Finset.mem_sdiff.mp hj).2 (Finset.mem_singleton.mpr h)
    rw [Function.update_of_ne hne]
  have hnew := Finset.sum_sdiff (f := fun j => w (Function.update f i a j))
    (Finset.subset_univ {i})
  have hold := Finset.sum_sdiff (f := fun j => w (f j)) (Finset.subset_univ {i})
  rw [Finset.sum_singleton] at hnew hold
  rw [Function.update_self] at hnew
  unfold total
  omega

theorem le_total (w : α → ℕ) (f : ι → α) (i : ι) : w (f i) ≤ total w f :=
  Finset.single_le_sum (f := fun i => w (f i)) (fun _ _ => Nat.zero_le _) (Finset.mem_univ i)

/-- Two components weigh no more than all, where there is something without weight. -/
theorem add_le_total [DecidableEq ι] {w : α → ℕ} {a : α} (ha : w a = 0) (f : ι → α) {i j : ι}
    (hij : i ≠ j) : w (f i) + w (f j) ≤ total w f := by
  have hj := le_total w (Function.update f i a) j
  rw [Function.update_of_ne fun h => hij h.symm] at hj
  have := total_update w f i a
  omega

/-- Components that weigh one each are counted. -/
theorem total_eq_card {w : α → ℕ} {f : ι → α} (h : ∀ i, w (f i) = 1) :
    total w f = Fintype.card ι := by
  rw [Fintype.card, Finset.card_eq_sum_ones]
  exact Finset.sum_congr rfl fun i _ => h i

theorem total_le_card {w : α → ℕ} (hw : ∀ a, w a ≤ 1) (f : ι → α) : total w f ≤ Fintype.card ι := by
  rw [Fintype.card, Finset.card_eq_sum_ones]
  exact Finset.sum_le_sum fun i _ => hw (f i)

theorem total_eq_zero {w : α → ℕ} {f : ι → α} (h : ∀ i, w (f i) = 0) : total w f = 0 :=
  Finset.sum_eq_zero fun i _ => h i

end MediaFramework
