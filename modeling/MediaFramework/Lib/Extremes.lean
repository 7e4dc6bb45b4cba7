import Mathlib.Data.List.Induction
import Mathlib.Order.Lattice

/-!
# The least and the greatest of a list

A pair is the range of a list if it has the least and the greatest of its members. Two lists have the
same range just if each of them spans the other one (`IsRange.iff_spans`). A range is widened for a
member at a time (`isRange_foldl`).
-/

namespace MediaFramework

universe u

variable {α : Type u}

/-- The least and the greatest of the list. -/
structure IsRange [LE α] (l : List α) (range : α × α) : Prop where
  least_mem : range.1 ∈ l
  greatest_mem : range.2 ∈ l
  least_le : ∀ a ∈ l, range.1 ≤ a
  le_greatest : ∀ a ∈ l, a ≤ range.2

/-- What is in the second list lies between members of the first one. -/
def Spans [LE α] (l l' : List α) : Prop := ∀ a ∈ l', ∃ b ∈ l, ∃ c ∈ l, b ≤ a ∧ a ≤ c

section PartialOrder

variable [PartialOrder α] {l l' : List α} {range : α × α}

theorem Spans.of_subset (h : l' ⊆ l) : Spans l l' := fun a ha => ⟨a, h ha, a, h ha, le_rfl, le_rfl⟩

theorem spans_nil_iff : Spans [] l ↔ l = [] := by
  refine ⟨fun h => List.eq_nil_iff_forall_not_mem.mpr fun a ha => ?_, fun h a ha => ?_⟩
  · obtain ⟨b, hb, -⟩ := h a ha
    cases hb
  · rw [h] at ha
    cases ha

theorem spans_cons_iff {a : α} : Spans l (a :: l') ↔ Spans l [a] ∧ Spans l l' := by
  refine ⟨fun h => ⟨fun b hb => ?_, fun b hb => h b (List.mem_cons_of_mem a hb)⟩, fun h b hb => ?_⟩
  · rw [List.mem_singleton.mp hb]
    exact h a List.mem_cons_self
  · rcases List.mem_cons.mp hb with rfl | hb
    · exact h.1 b List.mem_cons_self
    · exact h.2 b hb

/-- **The same range.** -/
theorem IsRange.iff_spans (h : IsRange l range) : IsRange l' range ↔ Spans l l' ∧ Spans l' l := by
  constructor
  · intro h'
    exact ⟨fun a ha => ⟨_, h.least_mem, _, h.greatest_mem, h'.least_le a ha, h'.le_greatest a ha⟩,
      fun a ha => ⟨_, h'.least_mem, _, h'.greatest_mem, h.least_le a ha, h.le_greatest a ha⟩⟩
  · rintro ⟨hspans, hspans'⟩
    have hle : ∀ a ∈ l', range.1 ≤ a ∧ a ≤ range.2 := fun a ha => by
      obtain ⟨b, hb, c, hc, hba, hac⟩ := hspans a ha
      exact ⟨(h.least_le b hb).trans hba, hac.trans (h.le_greatest c hc)⟩
    obtain ⟨b, hb, -, -, hble, -⟩ := hspans' _ h.least_mem
    obtain ⟨-, -, c, hc, -, hlec⟩ := hspans' _ h.greatest_mem
    have hleast := le_antisymm hble (hle b hb).1
    have hgreatest := le_antisymm hlec (hle c hc).2
    exact ⟨hleast ▸ hb, hgreatest ▸ hc, fun a ha => (hle a ha).1, fun a ha => (hle a ha).2⟩

end PartialOrder

section LinearOrder

variable [LinearOrder α] {l : List α}

/-- A range is widened for one more member. -/
def widen (range : α × α) (a : α) : α × α :=
  if range.2 < a then (range.1, a) else if a < range.1 then (a, range.2) else range

/-- **A member at a time.** -/
theorem isRange_foldl (a : α) (l : List α) : IsRange (a :: l) (l.foldl widen (a, a)) := by
  induction l using List.reverseRecOn with
  | nil =>
    have hself : ∀ b ∈ [a], b = a := fun b hb => List.mem_singleton.mp hb
    exact ⟨List.mem_cons_self, List.mem_cons_self, fun b hb => (hself b hb).ge,
      fun b hb => (hself b hb).le⟩
  | append_singleton l b ih =>
    obtain ⟨hleast, hgreatest, hle, hge⟩ := ih
    have hmem : ∀ {c}, c ∈ a :: l → c ∈ a :: (l ++ [b]) := fun hc => by
      rw [← List.cons_append]
      exact List.mem_append_left _ hc
    have hlast : b ∈ a :: (l ++ [b]) := by
      rw [← List.cons_append]
      exact List.mem_append_right _ List.mem_cons_self
    have hcases : ∀ c ∈ a :: (l ++ [b]), c ∈ a :: l ∨ c = b := fun c hc => by
      rw [← List.cons_append, List.mem_append, List.mem_singleton] at hc
      exact hc
    have hends := hle _ hgreatest
    rw [List.foldl_append, List.foldl_cons, List.foldl_nil, widen]
    split_ifs with hhigh hlow
    · refine ⟨hmem hleast, hlast, fun c hc => ?_, fun c hc => ?_⟩
      · rcases hcases c hc with hc | rfl
        · exact hle c hc
        · exact hends.trans hhigh.le
      · rcases hcases c hc with hc | rfl
        · exact (hge c hc).trans hhigh.le
        · exact le_rfl
    · refine ⟨hlast, hmem hgreatest, fun c hc => ?_, fun c hc => ?_⟩
      · rcases hcases c hc with hc | rfl
        · exact hlow.le.trans (hle c hc)
        · exact le_rfl
      · rcases hcases c hc with hc | rfl
        · exact hge c hc
        · exact le_of_not_gt hhigh
    · refine ⟨hmem hleast, hmem hgreatest, fun c hc => ?_, fun c hc => ?_⟩
      · rcases hcases c hc with hc | rfl
        · exact hle c hc
        · exact le_of_not_gt hlow
      · rcases hcases c hc with hc | rfl
        · exact hge c hc
        · exact le_of_not_gt hhigh

end LinearOrder

end MediaFramework
