import Mathlib.Algebra.BigOperators.Group.List.Basic
import Mathlib.Algebra.GroupWithZero.Nat
import Mathlib.Algebra.Order.Group.Nat
import Mathlib.Tactic.SplitIfs

/-!
# Arrays of rows

An array of rows has a count of rows beside it, which the loops over it run to. `scan` is the
loop that looks for the first row with a property; it has no defined meaning where it gets to a
row behind the array.

What is counted over the rows is a `tally`: each row has a weight. Where a row is replaced, the
tally changes by the difference of the weights.
-/

namespace MediaFramework

universe u

variable {ρ : Type u} {p : ρ → Bool} {w : ρ → ℕ} {rows : List ρ} {r r' : ρ} {i j n : ℕ}

/-! ## Scanning -/

/-- The index of the first of `n` rows that has the property, if one has it. -/
def scan (p : ρ → Bool) (n : ℕ) (rows : List ρ) : Option (Option ℕ) :=
  match (rows.take n).findIdx? p with
  | some i => some (some i)
  | none => if n ≤ rows.length then some none else none

/-- A loop over rows that there are. -/
theorem exists_scan (h : n ≤ rows.length) : ∃ found, scan p n rows = some found := by
  unfold scan
  split
  · exact ⟨_, rfl⟩
  · exact ⟨none, if_pos h⟩

/-- **The loop stops at a row.** -/
theorem of_scan_eq_some (h : scan p n rows = some (some i)) :
    i < n ∧ ∃ r, rows[i]? = some r ∧ p r = true := by
  unfold scan at h
  split at h
  case h_1 k hk =>
    obtain rfl := Option.some.inj (Option.some.inj h)
    obtain ⟨hlt, hp, -⟩ := List.findIdx?_eq_some_iff_getElem.mp hk
    rw [List.length_take] at hlt
    refine ⟨by omega, _, List.getElem?_eq_getElem (by omega), ?_⟩
    rwa [List.getElem_take] at hp
  case h_2 =>
    split_ifs at h
    cases h

/-! ## Tallies -/

/-- The weights of all rows together. -/
def tally (w : ρ → ℕ) (rows : List ρ) : ℕ := (rows.map w).sum

@[simp] theorem tally_cons : tally w (r :: rows) = w r + tally w rows := List.sum_cons

/-- **A row is replaced.** -/
theorem tally_set (hr : rows[i]? = some r) :
    tally w (rows.set i r') + w r = tally w rows + w r' := by
  induction rows generalizing i with
  | nil => cases hr
  | cons a rows ih =>
    cases i with
    | zero =>
      cases hr
      rw [List.set_cons_zero, tally_cons, tally_cons]
      omega
    | succ i =>
      have := @ih i hr
      rw [List.set_cons_succ, tally_cons, tally_cons]
      omega

theorem le_tally (hr : rows[i]? = some r) : w r ≤ tally w rows := by
  induction rows generalizing i with
  | nil => cases hr
  | cons a rows ih =>
    rw [tally_cons]
    cases i with
    | zero =>
      cases hr
      exact Nat.le_add_right _ _
    | succ i => exact Nat.le_trans (ih hr) (Nat.le_add_left _ _)

/-- Rows of which none has a weight. -/
theorem tally_eq_zero (h : ∀ r ∈ rows, w r = 0) : tally w rows = 0 := by
  induction rows with
  | nil => rfl
  | cons a rows ih =>
    rw [tally_cons, h a List.mem_cons_self, ih fun r hr => h r (List.mem_cons_of_mem a hr)]

/-- The rows with a property are counted. -/
theorem tally_filter : tally w (rows.filter p) = tally (fun r => if p r then w r else 0) rows := by
  induction rows with
  | nil => rfl
  | cons a rows ih =>
    rw [List.filter_cons, tally_cons, ← ih]
    split_ifs
    · exact tally_cons
    · exact (Nat.zero_add _).symm

theorem length_eq_tally : rows.length = tally (fun _ => 1) rows := by
  induction rows with
  | nil => rfl
  | cons a rows ih => rw [List.length_cons, tally_cons, ih, Nat.add_comm]

end MediaFramework
