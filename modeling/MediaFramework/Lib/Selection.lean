import Mathlib.Data.Set.Basic
import Mathlib.Order.Basic

/-!
# Picking the greatest first

Elements are taken out of a pool one after the other, each time one with the greatest key of those
that are still there. What is picked is picked once, in an order in which the keys do not increase,
and what is left has no greater key than anything that was picked.
-/

namespace MediaFramework

universe u v

variable {α : Type u} {β : Type v} [Preorder β]

/-- `picked` are taken out of `pool`, each with the greatest key of those still there, and `rest`
are left. -/
inductive Picks (key : α → β) : Set α → List α → Set α → Prop
  | nil (pool : Set α) : Picks key pool [] pool
  | cons {pool rest : Set α} {a : α} {picked : List α} (ha : a ∈ pool)
      (hmax : ∀ b ∈ pool, key b ≤ key a) (h : Picks key (pool \ {a}) picked rest) :
      Picks key pool (a :: picked) rest

namespace Picks

variable {key : α → β} {pool rest : Set α} {picked : List α} {a b : α}

theorem mem_pool (h : Picks key pool picked rest) (ha : a ∈ picked) : a ∈ pool := by
  induction h with
  | nil pool => exact absurd ha List.not_mem_nil
  | cons hmem hmax h ih =>
    rcases List.mem_cons.mp ha with rfl | ha
    · exact hmem
    · exact (ih ha).1

/-- What is left is what was not picked. -/
theorem mem_rest_iff (h : Picks key pool picked rest) : b ∈ rest ↔ b ∈ pool ∧ b ∉ picked := by
  induction h with
  | nil pool => exact ⟨fun hb => ⟨hb, List.not_mem_nil⟩, And.left⟩
  | cons hmem hmax h ih =>
    rw [ih, List.mem_cons, not_or]
    exact and_assoc

/-- Nothing is picked twice. -/
theorem nodup (h : Picks key pool picked rest) : picked.Nodup := by
  induction h with
  | nil pool => exact List.nodup_nil
  | cons hmem hmax h ih => exact List.nodup_cons.mpr ⟨fun hself => (h.mem_pool hself).2 rfl, ih⟩

/-- **The keys do not increase.** -/
theorem pairwise (h : Picks key pool picked rest) :
    picked.Pairwise fun a b => key b ≤ key a := by
  induction h with
  | nil pool => exact List.Pairwise.nil
  | cons hmem hmax h ih =>
    exact List.pairwise_cons.mpr ⟨fun b hb => hmax b (h.mem_pool hb).1, ih⟩

/-- Nothing that is left has a greater key than what was picked. -/
theorem le_of_mem_rest (h : Picks key pool picked rest) (ha : a ∈ picked) (hb : b ∈ rest) :
    key b ≤ key a := by
  induction h with
  | nil pool => exact absurd ha List.not_mem_nil
  | cons hmem hmax h ih =>
    rcases List.mem_cons.mp ha with rfl | ha
    · exact hmax b (h.mem_rest_iff.mp hb).1.1
    · exact ih ha hb

end Picks

end MediaFramework
