import Mathlib.Data.List.Basic
import Mathlib.Data.Nat.ModEq
import MediaFramework.Lib.Cells

/-!
# Ring buffers

A ring buffer keeps `count` elements in a memory of `capacity` cells, from
`tail` on and wrapping around; `head` is the cell the next element goes to. With
`head = tail` the buffer is empty or full, so the count is kept beside them.

Programs fill and drain such a buffer segment by segment, each segment a run of
adjacent cells. `window` reads the elements in order, and the three results of
this file say what a segment does to it: a segment stored at the head is
appended, one loaded from the tail is taken from the front, and one stored just
before the tail is put in front — each provided there is room.
-/

namespace MediaFramework

universe u

variable {α : Type u}

/-! ## Windows -/

/-- The `n` elements from cell `start` on, in a memory that wraps around. -/
def window (data : ℕ → α) (capacity start n : ℕ) : List α :=
  (List.range n).map fun i => data ((start + i) % capacity)

section Window

variable {data data' : ℕ → α} {capacity start pos m n : ℕ} {xs : List α}

@[simp] theorem length_window : (window data capacity start n).length = n := by simp [window]

theorem window_add :
    window data capacity start (m + n) =
      window data capacity start m ++ window data capacity (start + m) n := by
  simp [window, List.range_add, Nat.add_assoc, Function.comp_def]

theorem window_mod : window data capacity (start % capacity) n = window data capacity start n := by
  simp [window]

theorem window_congr
    (h : ∀ i < n, data' ((start + i) % capacity) = data ((start + i) % capacity)) :
    window data' capacity start n = window data capacity start n :=
  List.map_congr_left fun i hi => h i (List.mem_range.mp hi)

/-- A window that does not wrap is a run of adjacent cells. -/
theorem window_eq_load (h : start + n ≤ capacity) :
    window data capacity start n = load data start n :=
  List.map_congr_left fun i hi => by
    have := List.mem_range.mp hi
    rw [Nat.mod_eq_of_lt (by omega)]

/-- Positions less than a whole turn apart lie in different cells. -/
theorem mod_ne_of_lt (capacity : ℕ) {a b : ℕ} (hab : a < b) (hlt : b < a + capacity) :
    a % capacity ≠ b % capacity := by
  intro h
  have hdvd : capacity ∣ b - a := (Nat.modEq_iff_dvd' (Nat.le_of_lt hab)).mp h
  have := Nat.le_of_dvd (by omega) hdvd
  omega

/-- Storing behind a window, without lapping it, leaves it alone. -/
theorem window_store {s : ℕ} (hpos : pos = s % capacity)
    (hfit : pos + xs.length ≤ capacity)
    (hle : start + n ≤ s) (hlap : s + xs.length ≤ start + capacity) :
    window (store data pos xs) capacity start n = window data capacity start n := by
  refine window_congr fun i hi => store_of_not_mem ?_
  by_contra hmem
  -- the cell would belong to a position of the stored segment
  obtain ⟨j, hj⟩ := Nat.exists_eq_add_of_le (show pos ≤ (start + i) % capacity by omega)
  have hcell : (s + j) % capacity = pos + j := by
    rw [Nat.add_mod, ← hpos, Nat.mod_eq_of_lt (show j < capacity by omega),
      Nat.mod_eq_of_lt (by omega)]
  exact mod_ne_of_lt capacity (show start + i < s + j by omega) (by omega)
    (hj.trans hcell.symm)

end Window

/-! ## Buffers -/

/-- A ring buffer. -/
structure Ring (α : Type u) where
  /-- the cells; those from `capacity` on are not part of the buffer -/
  data : ℕ → α
  /-- the number of cells -/
  capacity : ℕ
  /-- where the next element is written -/
  head : ℕ
  /-- where the next element is read -/
  tail : ℕ
  /-- the number of elements held -/
  count : ℕ

namespace Ring

variable {r : Ring α} {xs : List α} {n : ℕ}

/-- The elements held, the next one to read first. -/
def contents (r : Ring α) : List α := window r.data r.capacity r.tail r.count

/-- The indices lie in the buffer, and the count is the distance between them. -/
structure Valid (r : Ring α) : Prop where
  head_lt : r.head < r.capacity
  tail_lt : r.tail < r.capacity
  count_le : r.count ≤ r.capacity
  head_eq : (r.tail + r.count) % r.capacity = r.head

/-- The cell after `n` cells from `pos`, back at the start when they reach the
end of the memory. -/
def advance (capacity pos n : ℕ) : ℕ := if pos + n ≥ capacity then 0 else pos + n

theorem advance_eq_mod {capacity pos : ℕ} (h : pos + n ≤ capacity) :
    advance capacity pos n = (pos + n) % capacity := by
  by_cases hge : pos + n ≥ capacity
  · rw [advance, if_pos hge, Nat.le_antisymm h hge, Nat.mod_self]
  · rw [advance, if_neg hge, Nat.mod_eq_of_lt (Nat.not_le.mp hge)]

/-- Store a segment at the head. -/
def push (r : Ring α) (xs : List α) : Ring α :=
  { r with
    data := store r.data r.head xs
    head := advance r.capacity r.head xs.length
    count := r.count + xs.length }

/-- Drop a segment from the tail. -/
def drop (r : Ring α) (n : ℕ) : Ring α :=
  { r with tail := advance r.capacity r.tail n, count := r.count - n }

/-- Store a segment at a new tail. -/
def unshift (r : Ring α) (tail : ℕ) (xs : List α) : Ring α :=
  { r with data := store r.data tail xs, tail := tail, count := r.count + xs.length }

/-- Replace a segment at the tail. -/
def overwrite (r : Ring α) (xs : List α) : Ring α :=
  { r with data := store r.data r.tail xs }

namespace Valid

/-- **Appending a segment.** -/
theorem push (h : r.Valid) (hroom : r.count + xs.length ≤ r.capacity)
    (hfit : r.head + xs.length ≤ r.capacity) :
    (r.push xs).Valid ∧ (r.push xs).contents = r.contents ++ xs := by
  have hcap : 0 < r.capacity := Nat.zero_lt_of_lt h.head_lt
  have hadv := advance_eq_mod hfit
  refine ⟨⟨?_, h.tail_lt, hroom, ?_⟩, ?_⟩
  · show advance r.capacity r.head xs.length < r.capacity
    rw [hadv]
    exact Nat.mod_lt _ hcap
  · show (r.tail + (r.count + xs.length)) % r.capacity = advance r.capacity r.head xs.length
    rw [hadv, ← h.head_eq, Nat.mod_add_mod, Nat.add_assoc]
  · show window (store r.data r.head xs) r.capacity r.tail (r.count + xs.length) = _
    rw [window_add]
    congr 1
    · exact window_store h.head_eq.symm hfit (Nat.le_refl _) (by omega)
    · rw [← window_mod, h.head_eq, window_eq_load hfit, load_store]

/-- **Taking a segment from the front.** -/
theorem drop (h : r.Valid) (hn : n ≤ r.count) (hfit : r.tail + n ≤ r.capacity) :
    (r.drop n).Valid ∧ r.contents = load r.data r.tail n ++ (r.drop n).contents := by
  have hcap : 0 < r.capacity := Nat.zero_lt_of_lt h.head_lt
  have hadv := advance_eq_mod hfit
  have hcount := h.count_le
  refine ⟨⟨h.head_lt, ?_, ?_, ?_⟩, ?_⟩
  · show advance r.capacity r.tail n < r.capacity
    rw [hadv]
    exact Nat.mod_lt _ hcap
  · show r.count - n ≤ r.capacity
    omega
  · show (advance r.capacity r.tail n + (r.count - n)) % r.capacity = r.head
    rw [hadv, Nat.mod_add_mod, Nat.add_assoc, Nat.add_sub_of_le hn]
    exact h.head_eq
  · show window r.data r.capacity r.tail r.count =
      _ ++ window r.data r.capacity (advance r.capacity r.tail n) (r.count - n)
    conv => lhs; rw [← Nat.add_sub_of_le hn]
    rw [window_add, window_eq_load hfit, hadv, window_mod]

/-- **Putting a segment in front.** -/
theorem unshift (h : r.Valid) (tail : ℕ) (xs : List α) (hroom : r.count + xs.length ≤ r.capacity)
    (hfit : tail + xs.length ≤ r.capacity) (htail : tail < r.capacity)
    (hadj : (tail + xs.length) % r.capacity = r.tail) :
    (r.unshift tail xs).Valid ∧ (r.unshift tail xs).contents = xs ++ r.contents := by
  refine ⟨⟨h.head_lt, htail, hroom, ?_⟩, ?_⟩
  · show (tail + (r.count + xs.length)) % r.capacity = r.head
    rw [Nat.add_comm r.count, ← Nat.add_assoc, Nat.add_mod, hadj,
      ← Nat.add_mod_mod, Nat.mod_mod, Nat.add_mod_mod]
    exact h.head_eq
  · show window (store r.data tail xs) r.capacity tail (r.count + xs.length) = _
    rw [Nat.add_comm, window_add, window_eq_load hfit, load_store]
    congr 1
    rw [← window_mod, hadj]
    -- the stored cells end where the window begins, a whole turn later
    rcases Nat.lt_or_ge (tail + xs.length) r.capacity with hlt | hge
    · rw [Nat.mod_eq_of_lt hlt] at hadj
      refine window_store (s := tail + r.capacity) ?_ hfit (by omega) (by omega)
      rw [Nat.add_mod_right, Nat.mod_eq_of_lt htail]
    · rw [Nat.le_antisymm hfit hge, Nat.mod_self] at hadj
      exact window_store (Nat.mod_eq_of_lt htail).symm hfit (by omega) (by omega)

/-- **Replacing a segment in place.** -/
theorem overwrite (h : r.Valid) (xs : List α) (hn : xs.length ≤ r.count)
    (hfit : r.tail + xs.length ≤ r.capacity) :
    (r.overwrite xs).Valid ∧ (r.overwrite xs).contents = xs ++ r.contents.drop xs.length := by
  have hcount := h.count_le
  refine ⟨⟨h.head_lt, h.tail_lt, h.count_le, h.head_eq⟩, ?_⟩
  show window (store r.data r.tail xs) r.capacity r.tail r.count =
    xs ++ (window r.data r.capacity r.tail r.count).drop xs.length
  rw [← Nat.add_sub_of_le hn, window_add, window_add, window_eq_load hfit, load_store,
    List.drop_left' (by simp)]
  congr 1
  refine window_store (s := r.tail + r.capacity) ?_ hfit (by omega) (by omega)
  rw [Nat.add_mod_right, Nat.mod_eq_of_lt h.tail_lt]

end Valid

end Ring

end MediaFramework
