import Mathlib.Algebra.BigOperators.Group.List.Basic
import Mathlib.Algebra.GroupWithZero.Nat
import Mathlib.Data.Finset.Card
import Mathlib.Order.Interval.Finset.Nat

/-!
# Coverings of an interval

A list of spans `(offset, length)` covers `[0, n)` when every position lies in one of them. Spans
may overlap, so that their lengths may add up to `n` without a covering; but the lengths of a
covering do.
-/

namespace MediaFramework

/-- The position lies in the span. -/
def InSpan (i : ℕ) (span : ℕ × ℕ) : Prop := span.1 ≤ i ∧ i < span.1 + span.2

instance (i : ℕ) (span : ℕ × ℕ) : Decidable (InSpan i span) :=
  inferInstanceAs (Decidable (_ ∧ _))

/-- Every position before `n` lies in a span. -/
def Spanned (n : ℕ) (spans : List (ℕ × ℕ)) : Prop := ∀ i < n, ∃ span ∈ spans, InSpan i span

instance (n : ℕ) (spans : List (ℕ × ℕ)) : Decidable (Spanned n spans) :=
  inferInstanceAs (Decidable (∀ i < n, _))

namespace Spanned

variable {n : ℕ} {spans : List (ℕ × ℕ)}

theorem mono {more : List (ℕ × ℕ)} (h : Spanned n spans) (hsub : ∀ span ∈ spans, span ∈ more) :
    Spanned n more := by
  intro i hi
  obtain ⟨span, hspan, hin⟩ := h i hi
  exact ⟨span, hsub span hspan, hin⟩

/-- A covering begins at the first position. -/
theorem exists_first (h : Spanned n spans) (hn : 0 < n) : ∃ span ∈ spans, span.1 = 0 := by
  obtain ⟨span, hspan, hin⟩ := h 0 hn
  exact ⟨span, hspan, Nat.le_zero.mp hin.1⟩

/-- A covering reaches to the last position. -/
theorem exists_last (h : Spanned n spans) (hn : 0 < n) :
    ∃ span ∈ spans, n ≤ span.1 + span.2 := by
  obtain ⟨span, hspan, -, hlt⟩ := h (n - 1) (Nat.sub_lt hn Nat.one_pos)
  exact ⟨span, hspan, by omega⟩

/-- No more positions lie in the spans than their lengths add up to. -/
theorem card_le_sum (n : ℕ) (spans : List (ℕ × ℕ)) :
    ((Finset.range n).filter fun i => ∃ span ∈ spans, InSpan i span).card ≤
      (spans.map Prod.snd).sum := by
  induction spans with
  | nil => simp
  | cons span spans ih =>
    have hsub : ((Finset.range n).filter fun i => ∃ t ∈ span :: spans, InSpan i t) ⊆
        Finset.Ico span.1 (span.1 + span.2) ∪
          (Finset.range n).filter fun i => ∃ t ∈ spans, InSpan i t := by
      intro i hi
      obtain ⟨hi, t, ht, hin⟩ := Finset.mem_filter.mp hi
      rcases List.mem_cons.mp ht with rfl | ht
      · exact Finset.mem_union_left _ (Finset.mem_Ico.mpr hin)
      · exact Finset.mem_union_right _ (Finset.mem_filter.mpr ⟨hi, t, ht, hin⟩)
    have hcard := (Finset.card_le_card hsub).trans (Finset.card_union_le _ _)
    rw [Nat.card_Ico, Nat.add_sub_cancel_left] at hcard
    rw [List.map_cons, List.sum_cons]
    exact hcard.trans (Nat.add_le_add_left ih _)

/-- **The lengths of a covering** add up to what is covered. -/
theorem le_sum (h : Spanned n spans) : n ≤ (spans.map Prod.snd).sum := by
  have hall : ((Finset.range n).filter fun i => ∃ span ∈ spans, InSpan i span) =
      Finset.range n :=
    Finset.filter_true_of_mem fun i hi => h i (Finset.mem_range.mp hi)
  have hcard := card_le_sum n spans
  rwa [hall, Finset.card_range] at hcard

end Spanned

end MediaFramework
