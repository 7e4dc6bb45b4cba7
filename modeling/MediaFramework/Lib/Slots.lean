import Mathlib.Data.List.FinRange
import Mathlib.Data.List.ReduceOption
import Mathlib.Logic.Function.Basic

/-!
# Slots that are named by an id

A table of a fixed size whose free slots carry the id zero. The ids name the slots in use when
a slot is in use exactly where its id is not zero, and two slots in use have different ids. A
slot may be taken exactly with an id that is new, and any slot may be freed.

The loops over such a table find the first slot with a property, or do something at each slot.

Where the slots hold the items themselves, or nothing, an item is put in the first free slot, and
taken out of every slot that has it.
-/

namespace MediaFramework

open Function (update update_of_ne update_self)

universe u v

/-! ## The table -/

/-- **The ids name the slots in use.** A free slot is marked by zero. -/
structure Named {ι : Type u} {κ : Type v} [Zero κ] (ids : ι → κ) (used : ι → Bool) : Prop where
  marked : ∀ p, used p = true ↔ ids p ≠ 0
  distinct : ∀ p q, used p = true → used q = true → ids p = ids q → p = q

namespace Named

variable {ι : Type u} {κ : Type v} [Zero κ] {ids : ι → κ} {used : ι → Bool}

theorem id_eq_zero (h : Named ids used) {p : ι} (hp : used p = false) : ids p = 0 := by
  by_contra hid
  have := (h.marked p).mpr hid
  rw [hp] at this
  cases this

theorem not_used (h : Named ids used) {p : ι} (hp : ids p = 0) : used p = false :=
  Bool.eq_false_iff.mpr fun hu => (h.marked p).mp hu hp

/-- An id other than zero names one slot at most. -/
theorem eq_of_id (h : Named ids used) {p q : ι} (hp : ids p ≠ 0) (hq : ids q = ids p) : q = p :=
  h.distinct q p ((h.marked q).mpr (hq ▸ hp)) ((h.marked p).mpr hp) hq

variable [DecidableEq ι]

/-- **A slot is freed.** -/
theorem free (h : Named ids used) (p : ι) :
    Named (update ids p 0) (update used p false) := by
  refine ⟨fun q => ?_, fun q r => ?_⟩
  · by_cases hq : q = p
    · subst hq
      simp
    · rw [update_of_ne hq, update_of_ne hq]
      exact h.marked q
  · by_cases hq : q = p
    · subst hq
      intro hu
      simp at hu
    · by_cases hr : r = p
      · subst hr
        intro _ hu
        simp at hu
      · rw [update_of_ne hq, update_of_ne hr, update_of_ne hq,
          update_of_ne hr]
        exact h.distinct q r

/-- **A free slot is taken.** The ids still name the slots in use exactly when the id is new. -/
theorem take_iff (h : Named ids used) {p : ι} (hp : used p = false) {k : κ} :
    Named (update ids p k) (update used p true) ↔ k ≠ 0 ∧ ∀ q, ids q ≠ k := by
  refine ⟨fun h' => ?_, fun hk => ⟨fun q => ?_, fun q r => ?_⟩⟩
  · have hk : k ≠ 0 := by
      have := (h'.marked p).mp (update_self p true used)
      rwa [update_self] at this
    refine ⟨hk, fun q hq => ?_⟩
    have hqp : q ≠ p := by
      rintro rfl
      exact hk (hq ▸ h.id_eq_zero hp)
    have hu : used q = true := (h.marked q).mpr (hq ▸ hk)
    refine hqp (h'.distinct q p ?_ (update_self p true used) ?_)
    · rw [update_of_ne hqp]
      exact hu
    · rw [update_of_ne hqp, update_self]
      exact hq
  · by_cases hq : q = p
    · subst hq
      simp [hk.1]
    · rw [update_of_ne hq, update_of_ne hq]
      exact h.marked q
  · by_cases hq : q = p
    · subst hq
      by_cases hr : r = q
      · exact fun _ _ _ => hr.symm
      · rw [update_self, update_self, update_of_ne hr]
        exact fun _ _ hid => absurd hid.symm (update_of_ne hr k ids ▸ hk.2 r)
    · by_cases hr : r = p
      · subst hr
        rw [update_self r k ids, update_of_ne hq k ids]
        exact fun _ _ hid => absurd hid (hk.2 q)
      · rw [update_of_ne hq, update_of_ne hr, update_of_ne hq,
          update_of_ne hr]
        exact h.distinct q r

end Named

/-! ## Items in slots -/

section Items

variable {α : Type u} {a b : α} {l : List (Option α)}

/-- Put the item in the first free slot, if there is one. -/
def fillFirst (a : α) : List (Option α) → List (Option α)
  | [] => []
  | none :: l => some a :: l
  | some b :: l => some b :: fillFirst a l

@[simp] theorem length_fillFirst : (fillFirst a l).length = l.length := by
  induction l with
  | nil => rfl
  | cons x l ih =>
    cases x with
    | none => rfl
    | some b => exact congrArg (· + 1) ih

/-- A free slot takes the item. -/
theorem reduceOption_fillFirst (h : none ∈ l) :
    (fillFirst a l).reduceOption.Perm (a :: l.reduceOption) := by
  induction l with
  | nil => cases h
  | cons x l ih =>
    cases x with
    | none => exact .refl _
    | some b =>
      have hl : none ∈ l := by simpa using h
      exact ((ih hl).cons b).trans (.swap a b _)

/-- Without a free slot the item is lost. -/
theorem fillFirst_of_full (h : none ∉ l) : fillFirst a l = l := by
  induction l with
  | nil => rfl
  | cons x l ih =>
    cases x with
    | none => exact absurd List.mem_cons_self h
    | some b => exact congrArg _ (ih fun hl => h (List.mem_cons_of_mem _ hl))

theorem mem_fillFirst_iff :
    b ∈ (fillFirst a l).reduceOption ↔ b ∈ l.reduceOption ∨ (b = a ∧ none ∈ l) := by
  by_cases h : none ∈ l
  · rw [(reduceOption_fillFirst h).mem_iff, List.mem_cons, and_iff_left h, or_comm]
  · rw [fillFirst_of_full h, or_iff_left fun hb => h hb.2]

variable [DecidableEq α]

/-- Take the item out of every slot that has it. -/
def clearAll (a : α) (l : List (Option α)) : List (Option α) :=
  l.map fun x => if x = some a then none else x

@[simp] theorem length_clearAll : (clearAll a l).length = l.length := List.length_map _

theorem reduceOption_clearAll :
    (clearAll a l).reduceOption = l.reduceOption.filter fun b => b ≠ a := by
  induction l with
  | nil => rfl
  | cons x l ih =>
    unfold clearAll at ih ⊢
    rw [List.map_cons]
    rcases x with _ | b
    · exact ih
    · by_cases hb : b = a
      · subst hb
        rw [if_pos rfl, List.reduceOption_cons_of_none, List.reduceOption_cons_of_some, ih,
          List.filter_cons_of_neg (by simp)]
      · rw [if_neg (by simpa using hb), List.reduceOption_cons_of_some,
          List.reduceOption_cons_of_some, ih, List.filter_cons_of_pos (by simpa using hb)]

end Items

/-! ## Loops -/

section Loops

variable {ι : Type u} {σ : Type v} {f : σ → ι → σ} {s : σ}

/-- A loop that does nothing anywhere. -/
theorem foldl_eq_self {is : List ι} (h : ∀ i ∈ is, f s i = s) : is.foldl f s = s := by
  induction is with
  | nil => rfl
  | cons i is ih =>
    rw [List.foldl_cons, h i List.mem_cons_self]
    exact ih fun j hj => h j (List.mem_cons_of_mem i hj)

/-- **A loop that acts at one place only.** -/
theorem foldl_eq_of_only {is : List ι} {i : ι} (hnodup : is.Nodup) (hi : i ∈ is)
    (hbefore : ∀ j, j ≠ i → f s j = s) (hafter : ∀ j, j ≠ i → f (f s i) j = f s i) :
    is.foldl f s = f s i := by
  induction is with
  | nil => cases hi
  | cons j is ih =>
    obtain ⟨hj, hnodup⟩ := List.nodup_cons.mp hnodup
    rw [List.foldl_cons]
    rcases List.mem_cons.mp hi with rfl | hi
    · exact foldl_eq_self fun k hk => hafter k fun h => hj (h ▸ hk)
    · have hne : j ≠ i := fun h => hj (h ▸ hi)
      rw [hbefore j hne]
      exact ih hnodup hi

/-- What every round keeps, the loop keeps. -/
theorem foldl_keeps_mem {R : σ → Prop} {is : List ι} (h : ∀ s, ∀ i ∈ is, R s → R (f s i))
    (hs : R s) : R (is.foldl f s) := by
  induction is generalizing s with
  | nil => exact hs
  | cons i is ih =>
    exact ih (fun s j hj => h s j (List.mem_cons_of_mem i hj)) (h s i List.mem_cons_self hs)

theorem foldl_keeps {R : σ → Prop} (h : ∀ s i, R s → R (f s i)) (is : List ι) (hs : R s) :
    R (is.foldl f s) :=
  foldl_keeps_mem (fun s i _ => h s i) hs

/-- What some round brings about, and every round keeps, the loop brings about. -/
theorem foldl_reaches {R : σ → Prop} {P : σ → ι → Prop} (hkeep : ∀ s i, R s → R (f s i))
    (hact : ∀ s i, P s i → R (f s i)) (hwait : ∀ s i j, P s j → ¬ P s i → P (f s i) j)
    {is : List ι} {j : ι} (hj : j ∈ is) (hs : P s j) : R (is.foldl f s) := by
  induction is generalizing s with
  | nil => cases hj
  | cons i is ih =>
    rw [List.foldl_cons]
    by_cases hi : P s i
    · exact foldl_keeps hkeep is (hact s i hi)
    · rcases List.mem_cons.mp hj with rfl | hj
      · exact absurd hs hi
      · exact ih hj (hwait s i j hs hi)

end Loops

/-- What a walk by index visits that removes each element it visits: the next one takes its
place and is passed over. -/
def everyOther {α : Type u} : List α → List α
  | [] => []
  | [a] => [a]
  | a :: _ :: as => a :: everyOther as

theorem everyOther_sublist {α : Type u} : ∀ as : List α, List.Sublist (everyOther as) as
  | [] => List.Sublist.slnil
  | [a] => List.Sublist.refl [a]
  | a :: b :: as => ((everyOther_sublist as).cons b).cons_cons a

theorem everyOther_of_length_le {α : Type u} {as : List α} (h : as.length ≤ 1) :
    everyOther as = as := by
  rcases as with _ | ⟨a, _ | ⟨b, as⟩⟩
  · rfl
  · rfl
  · exact absurd h (by simp)

/-- The first slot, in the order of the table, with the property. -/
def firstSlot {n : ℕ} (p : Fin n → Bool) : Option (Fin n) := (List.finRange n).find? p

theorem firstSlot_some {n : ℕ} {p : Fin n → Bool} {i : Fin n} (h : firstSlot p = some i) :
    p i = true := List.find?_some h

theorem firstSlot_eq_none {n : ℕ} {p : Fin n → Bool} :
    firstSlot p = none ↔ ∀ i, p i = false := by
  rw [firstSlot, List.find?_eq_none]
  exact ⟨fun h i => Bool.eq_false_iff.mpr (h i (List.mem_finRange i)),
    fun h i _ => Bool.eq_false_iff.mp (h i)⟩

/-- The last slot with the property: a loop over the table that notes each it finds. -/
def lastSlot {n : ℕ} (p : Fin n → Bool) : Option (Fin n) :=
  (List.finRange n).foldl (fun found i => if p i then some i else found) none

theorem lastSlot_spec {n : ℕ} (p : Fin n → Bool) :
    (∃ i, lastSlot p = some i ∧ p i = true) ∨ lastSlot p = none ∧ ∀ i, p i = false := by
  have hloop : ∀ (is : List (Fin n)) (found : Option (Fin n)),
      (∀ i ∈ found, p i = true) →
      let last := is.foldl (fun found i => if p i then some i else found) found
      (∀ i ∈ last, p i = true) ∧ (last = none → found = none ∧ ∀ i ∈ is, p i = false) := by
    intro is
    induction is with
    | nil => exact fun found h => ⟨h, fun hnone => ⟨hnone, fun i hi => absurd hi List.not_mem_nil⟩⟩
    | cons j is ih =>
      intro found h
      rw [List.foldl_cons]
      by_cases hj : p j = true
      · rw [if_pos hj]
        obtain ⟨hlast, hnone⟩ := ih (some j) fun i hi => Option.some.inj hi ▸ hj
        exact ⟨hlast, fun h => absurd (hnone h).1 (Option.some_ne_none j)⟩
      · rw [if_neg hj]
        obtain ⟨hlast, hnone⟩ := ih found h
        refine ⟨hlast, fun h => ⟨(hnone h).1, fun i hi => ?_⟩⟩
        rcases List.mem_cons.mp hi with rfl | hi
        · exact Bool.eq_false_iff.mpr hj
        · exact (hnone h).2 i hi
  obtain ⟨hlast, hnone⟩ := hloop (List.finRange n) none fun i hi => by cases hi
  rw [lastSlot]
  rcases hfound : (List.finRange n).foldl (fun found i => if p i then some i else found) none
    with _ | i
  · exact .inr ⟨rfl, fun i => (hnone hfound).2 i (List.mem_finRange i)⟩
  · exact .inl ⟨i, rfl, hlast i hfound⟩

end MediaFramework
