import Mathlib.Data.List.Basic
import Mathlib.Logic.Function.Basic

/-!
# Memory cells

A memory is a function from positions to cells. `load` reads a run of adjacent
cells, and `store` writes one and leaves every other cell as it was.
-/

namespace MediaFramework

universe u

variable {α : Type u}

/-- `n` adjacent cells from `pos` on. -/
def load (data : ℕ → α) (pos n : ℕ) : List α := (List.range n).map fun i => data (pos + i)

/-- Put a list into adjacent cells from `pos` on. -/
def store (data : ℕ → α) (pos : ℕ) (xs : List α) : ℕ → α := fun i =>
  if h : pos ≤ i ∧ i - pos < xs.length then xs[i - pos] else data i

section Cells

variable {data : ℕ → α} {pos n : ℕ} {xs : List α}

@[simp] theorem length_load : (load data pos n).length = n := by simp [load]

/-- The first cells of a run of cells. -/
theorem take_load (k : ℕ) : (load data pos n).take k = load data pos (min k n) := by
  rw [load, load, ← List.map_take, List.take_range]

@[simp] theorem load_zero : load data pos 0 = [] := rfl

/-- A run of cells, from its first one. -/
theorem load_succ : load data pos (n + 1) = data pos :: load data (pos + 1) n := by
  rw [load, load, List.range_succ_eq_map, List.map_cons, List.map_map, Nat.add_zero]
  congr 1
  refine List.map_congr_left fun i _ => ?_
  simp only [Function.comp_apply, Nat.succ_eq_add_one]
  congr 1
  omega

/-- A run of cells, in two parts. -/
theorem load_add {m : ℕ} : load data pos (m + n) = load data pos m ++ load data (pos + m) n := by
  simp [load, List.range_add, Nat.add_assoc, Function.comp_def]

/-- A run of cells, up to its last one. -/
theorem load_concat : load data pos (n + 1) = load data pos n ++ [data (pos + n)] := by
  simp [load, List.range_succ]

/-- Changing another cell leaves a run of cells alone. -/
theorem load_update {i : ℕ} {x : α} (h : i < pos ∨ pos + n ≤ i) :
    load (Function.update data i x) pos n = load data pos n := by
  refine List.map_congr_left fun j hj => ?_
  have := List.mem_range.mp hj
  exact Function.update_of_ne (by omega) _ _

theorem store_of_mem {i : ℕ} (h₁ : pos ≤ i) (h₂ : i - pos < xs.length) :
    store data pos xs i = xs[i - pos] := dif_pos ⟨h₁, h₂⟩

theorem store_of_not_mem {i : ℕ} (h : i < pos ∨ pos + xs.length ≤ i) :
    store data pos xs i = data i := dif_neg (by omega)

theorem load_store : load (store data pos xs) pos xs.length = xs := by
  refine List.ext_getElem (by simp) fun i h₁ h₂ => ?_
  simp only [load, List.getElem_map, List.getElem_range]
  rw [store_of_mem (by omega) (by omega)]
  simp

/-- What is put elsewhere leaves a run of cells alone. -/
theorem load_store_elsewhere {q m : ℕ} (h : q + m ≤ pos ∨ pos + xs.length ≤ q) :
    load (store data pos xs) q m = load data q m := by
  refine List.map_congr_left fun i hi => ?_
  have := List.mem_range.mp hi
  exact store_of_not_mem (by omega)

theorem load_store_of_length (h : xs.length = n) : load (store data pos xs) pos n = xs := by
  rw [← h, load_store]

/-- A list put right behind another one. -/
theorem store_append {ys : List α} :
    store (store data pos xs) (pos + xs.length) ys = store data pos (xs ++ ys) := by
  funext i
  rcases Nat.lt_or_ge i (pos + xs.length) with hi | hi
  · rw [store_of_not_mem (Or.inl hi)]
    rcases Nat.lt_or_ge i pos with hpos | hpos
    · rw [store_of_not_mem (Or.inl hpos), store_of_not_mem (Or.inl hpos)]
    · rw [store_of_mem hpos (by omega), store_of_mem hpos (by rw [List.length_append]; omega),
        List.getElem_append_left]
  · rcases Nat.lt_or_ge i (pos + (xs ++ ys).length) with hlt | hge
    · rw [List.length_append] at hlt
      rw [store_of_mem hi (by omega), store_of_mem (by omega) (by rw [List.length_append]; omega),
        List.getElem_append_right (by omega)]
      congr 1
      omega
    · rw [store_of_not_mem (Or.inr hge)]
      rw [List.length_append] at hge
      rw [store_of_not_mem (Or.inr (by omega)), store_of_not_mem (Or.inr (by omega))]

/-- A run of cells within a list that was put there. -/
theorem load_store_of_le {k m : ℕ} (h : k + m ≤ xs.length) :
    load (store data 0 xs) k m = (xs.drop k).take m := by
  refine List.ext_getElem (by rw [length_load, List.length_take, List.length_drop]; omega)
    fun i h₁ h₂ => ?_
  rw [length_load] at h₁
  simp only [load, List.getElem_map, List.getElem_range, List.getElem_take, List.getElem_drop]
  exact store_of_mem (Nat.zero_le _) (by omega)

/-- A run of cells that is made longer. -/
theorem load_store_append {k : ℕ} (h : xs.length = k) :
    load (store data n xs) 0 (n + k) = load data 0 n ++ xs := by
  subst h
  refine List.ext_getElem (by simp) fun i h₁ h₂ => ?_
  rw [length_load] at h₁
  rcases Nat.lt_or_ge i n with hi | hi
  · rw [List.getElem_append_left (by rwa [length_load])]
    simp only [load, List.getElem_map, List.getElem_range, Nat.zero_add]
    exact store_of_not_mem (Or.inl hi)
  · rw [List.getElem_append_right (by rwa [length_load])]
    simp only [load, List.getElem_map, List.getElem_range, Nat.zero_add, List.length_map,
      List.length_range]
    exact store_of_mem hi (by omega)

end Cells

end MediaFramework
