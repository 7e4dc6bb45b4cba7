import Mathlib.Data.List.Basic

/-!
# Tilings of an interval

A list of inclusive ranges `(first, last)` tiles `[lo, hi)` when each is
non-empty, each begins where the one before it ended, and together they begin at
`lo` and end just before `hi`.
-/

namespace MediaFramework

/-- The ranges, in order, tile the positions from `lo` up to but excluding `hi`. -/
def Tiles : ℕ → List (ℕ × ℕ) → ℕ → Prop
  | lo, [], hi => lo = hi
  | lo, r :: rs, hi => r.1 = lo ∧ r.1 ≤ r.2 ∧ Tiles (r.2 + 1) rs hi

namespace Tiles

variable {lo hi : ℕ} {r : ℕ × ℕ} {rs : List (ℕ × ℕ)}

theorem cons_iff : Tiles lo (r :: rs) hi ↔ r.1 = lo ∧ r.1 ≤ r.2 ∧ Tiles (r.2 + 1) rs hi :=
  Iff.rfl

/-- A tiling does not go backwards. -/
theorem le (h : Tiles lo rs hi) : lo ≤ hi := by
  induction rs generalizing lo with
  | nil => exact Nat.le_of_eq h
  | cons r rs ih =>
    obtain ⟨hlo, hr, hrest⟩ := h
    have := ih hrest
    omega

/-- **Exact cover.** A position lies in the tiled interval exactly when one of
the ranges has it. -/
theorem mem_iff (h : Tiles lo rs hi) (x : ℕ) :
    (lo ≤ x ∧ x < hi) ↔ ∃ r ∈ rs, r.1 ≤ x ∧ x ≤ r.2 := by
  induction rs generalizing lo with
  | nil =>
    obtain rfl : lo = hi := h
    refine iff_of_false (fun hx => ?_) (fun ⟨r, hr, _⟩ => List.not_mem_nil hr)
    omega
  | cons r rs ih =>
    obtain ⟨hlo, hr, hrest⟩ := h
    have hle := hrest.le
    rw [List.exists_mem_cons_iff, ← ih hrest]
    omega

/-- No range of a tiling is empty. -/
theorem nonempty (h : Tiles lo rs hi) : ∀ r ∈ rs, r.1 ≤ r.2 := by
  induction rs generalizing lo with
  | nil =>
    intro r hr
    cases hr
  | cons r rs ih =>
    obtain ⟨-, hr, hrest⟩ := h
    exact List.forall_mem_cons.mpr ⟨hr, ih hrest⟩

/-- The ranges of a tiling do not overlap. -/
theorem pairwise (h : Tiles lo rs hi) : rs.Pairwise fun r r' => r.2 < r'.1 := by
  induction rs generalizing lo with
  | nil => exact List.Pairwise.nil
  | cons r rs ih =>
    obtain ⟨-, -, hrest⟩ := h
    refine List.Pairwise.cons (fun r' hr' => ?_) (ih hrest)
    -- the first position of a later range lies behind this range
    have hle := hrest.nonempty r' hr'
    exact ((hrest.mem_iff r'.1).mpr ⟨r', hr', Nat.le_refl _, hle⟩).1

/-- Ranges that run from each boundary to just before the next one tile the
interval between the outermost boundaries. -/
theorem map_range' {b : ℕ → ℕ} {f : ℕ → ℕ × ℕ} {n : ℕ} :
    ∀ {k : ℕ}, (∀ i, k ≤ i → i < k + n → b i < b (i + 1) ∧ f i = (b i, b (i + 1) - 1)) →
      Tiles (b k) ((List.range' k n).map f) (b (k + n)) := by
  induction n with
  | zero =>
    intro k _
    rfl
  | succ n ih =>
    intro k h
    obtain ⟨hlt, hf⟩ := h k (Nat.le_refl k) (by omega)
    rw [List.range'_succ, List.map_cons, cons_iff, hf]
    refine ⟨rfl, by simp only; omega, ?_⟩
    have hnext : b (k + 1) - 1 + 1 = b (k + 1) := by omega
    have hrest := ih (k := k + 1) fun i hi hi' => h i (by omega) (by omega)
    rw [Nat.add_right_comm, Nat.add_assoc] at hrest
    simp only [hnext]
    exact hrest

end Tiles

end MediaFramework
