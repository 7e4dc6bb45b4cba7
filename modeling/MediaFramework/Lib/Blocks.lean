import Mathlib.Data.Nat.Notation
import Mathlib.Tactic.ByContra

/-!
# Rows of equal blocks

Memory that is cut into blocks of one size, one after another. An address inside the row is in one
block, and its index is found by a division; `Row.index_eq_iff` says which addresses have an index.
-/

namespace MediaFramework

/-- A row of blocks that begins at `start`. -/
structure Row where
  start : ℕ
  size : ℕ
  count : ℕ
  size_pos : 0 < size

namespace Row

variable (r : Row)

/-- Where the block `i` begins. -/
def block (i : ℕ) : ℕ := r.start + i * r.size

/-- The end of the row. -/
def stop : ℕ := r.block r.count

/-- The address is inside the row. -/
abbrev Has (p : ℕ) : Prop := r.start ≤ p ∧ p < r.stop

/-- The block that the address is in. -/
def index (p : ℕ) : ℕ := (p - r.start) / r.size

variable {r} {p i j : ℕ}

theorem block_succ : r.block (i + 1) = r.block i + r.size := by
  rw [block, block, Nat.succ_mul, Nat.add_assoc]

theorem block_le_block (h : i ≤ j) : r.block i ≤ r.block j :=
  Nat.add_le_add_left (Nat.mul_le_mul_right r.size h) r.start

/-- A block ends before a later one begins. -/
theorem block_add_le (h : i < j) : r.block i + r.size ≤ r.block j := by
  rw [← block_succ]
  exact block_le_block h

/-- Every block is inside the row. -/
theorem has_of_lt (hi : i < r.count) (h : r.block i ≤ p) (h' : p < r.block i + r.size) : r.Has p :=
  ⟨Nat.le_trans (Nat.le_add_right _ _) h, Nat.lt_of_lt_of_le h' (block_add_le hi)⟩

/-- **The index of an address.** It is the block the address is in. -/
theorem index_eq_iff (h : r.start ≤ p) :
    r.index p = i ↔ r.block i ≤ p ∧ p < r.block i + r.size := by
  rw [index, Nat.div_eq_iff r.size_pos, block]
  have := r.size_pos
  omega

theorem index_lt (h : r.Has p) : r.index p < r.count := by
  obtain ⟨hstart, hstop⟩ := h
  have hblock := ((index_eq_iff hstart).mp rfl).1
  by_contra hi
  exact absurd (block_le_block (Nat.le_of_not_lt hi))
    (Nat.not_le.mpr (Nat.lt_of_le_of_lt hblock hstop))

end Row

end MediaFramework
