import Mathlib.Data.List.Basic

/-!
# Offering an item to one component after another

An item is offered to the components of a list in order. The first that takes it acts on it,
which changes that component and gives a result; if none takes it, a new component is put at the
end. Where a new component acts as an idle one does, the one that acts is the `taker`.

Where one component of the list is unlike all the others, an item it does not take leaves it
alone, and one that only it takes is its own.
-/

namespace MediaFramework

universe u v

variable {α : Type u} {ω : Type v}

/-- The first component that takes the item acts; `fresh` is a new one that has acted. -/
def offer (takes : α → Bool) (act : α → α × ω) (fresh : α × ω) : List α → List α × ω
  | [] => ([fresh.1], fresh.2)
  | a :: as =>
    if takes a then ((act a).1 :: as, (act a).2)
    else (a :: (offer takes act fresh as).1, (offer takes act fresh as).2)

/-- The component that acts: the first that takes the item, or an idle one. -/
def taker (takes : α → Bool) (idle : α) (as : List α) : α := (as.find? takes).getD idle

/-- All components but `a`, which is one of them, meet `P`. -/
def Sole (P : α → Prop) (a : α) : List α → Prop
  | [] => False
  | b :: bs => (b = a ∧ ∀ c ∈ bs, P c) ∨ (P b ∧ Sole P a bs)

section Offer

variable {takes : α → Bool} {act : α → α × ω} {fresh : α × ω} {idle : α} {as : List α} {a : α}
  {P : α → Prop}

theorem offer_cons_of_takes (h : takes a = true) :
    offer takes act fresh (a :: as) = ((act a).1 :: as, (act a).2) := if_pos h

theorem offer_cons_of_not_takes (h : ¬ takes a = true) :
    offer takes act fresh (a :: as) =
      (a :: (offer takes act fresh as).1, (offer takes act fresh as).2) := if_neg h

theorem taker_cons_of_takes (h : takes a = true) : taker takes idle (a :: as) = a := by
  unfold taker
  rw [List.find?_cons_of_pos h, Option.getD_some]

theorem taker_cons_of_not_takes (h : ¬ takes a = true) :
    taker takes idle (a :: as) = taker takes idle as := by
  unfold taker
  rw [List.find?_cons_of_neg h]

/-- A component that acts is one that takes the item, or the idle one. -/
theorem taker_cases (takes : α → Bool) (idle : α) (as : List α) :
    (taker takes idle as ∈ as ∧ takes (taker takes idle as) = true) ∨
      (taker takes idle as = idle ∧ ∀ a ∈ as, ¬ takes a = true) := by
  unfold taker
  rcases hfind : as.find? takes with _ | a
  · exact .inr ⟨rfl, List.find?_eq_none.mp hfind⟩
  · exact .inl ⟨List.mem_of_find?_eq_some hfind, List.find?_some hfind⟩

theorem Sole.mem : ∀ {as : List α}, Sole P a as → a ∈ as
  | _ :: _, .inl ⟨h, _⟩ => h ▸ List.mem_cons_self
  | b :: _, .inr ⟨_, h⟩ => List.mem_cons_of_mem b h.mem

/-- The other components meet `P`. -/
theorem Sole.eq_or : ∀ {as : List α}, Sole P a as → ∀ b ∈ as, b = a ∨ P b
  | c :: cs, .inl ⟨h, hcs⟩, b, hb => by
    rcases List.mem_cons.mp hb with rfl | hb
    · exact .inl h
    · exact .inr (hcs b hb)
  | c :: cs, .inr ⟨hc, h⟩, b, hb => by
    rcases List.mem_cons.mp hb with rfl | hb
    · exact .inr hc
    · exact h.eq_or b hb

/-- **The result** is that of the one that acts. -/
theorem offer_snd : (offer takes act (act idle) as).2 = (act (taker takes idle as)).2 := by
  induction as with
  | nil => rfl
  | cons a as ih =>
    by_cases htakes : takes a = true
    · rw [offer_cons_of_takes htakes, taker_cons_of_takes htakes]
    · rw [offer_cons_of_not_takes htakes, taker_cons_of_not_takes htakes]
      exact ih

/-- **Offering keeps** what the one that acts keeps. -/
theorem offer_keeps (hall : ∀ b ∈ as, P b) (hact : P (act (taker takes idle as)).1) :
    ∀ b ∈ (offer takes act (act idle) as).1, P b := by
  induction as with
  | nil =>
    intro b hb
    exact List.mem_singleton.mp hb ▸ hact
  | cons a as ih =>
    obtain ⟨ha, has⟩ := List.forall_mem_cons.mp hall
    by_cases htakes : takes a = true
    · rw [taker_cons_of_takes htakes] at hact
      rw [offer_cons_of_takes htakes]
      exact List.forall_mem_cons.mpr ⟨hact, has⟩
    · rw [taker_cons_of_not_takes htakes] at hact
      rw [offer_cons_of_not_takes htakes]
      exact List.forall_mem_cons.mpr ⟨ha, ih has hact⟩

/-- **An item of none.** Where all components meet `P`, the one that acted is alone. -/
theorem offer_sole (hall : ∀ b ∈ as, P b) :
    Sole P (act (taker takes idle as)).1 (offer takes act (act idle) as).1 := by
  induction as with
  | nil => exact .inl ⟨rfl, fun _ h => absurd h List.not_mem_nil⟩
  | cons a as ih =>
    obtain ⟨ha, has⟩ := List.forall_mem_cons.mp hall
    by_cases htakes : takes a = true
    · rw [offer_cons_of_takes htakes, taker_cons_of_takes htakes]
      exact .inl ⟨rfl, has⟩
    · rw [offer_cons_of_not_takes htakes, taker_cons_of_not_takes htakes]
      exact .inr ⟨ha, ih has⟩

/-- **An item of another.** A component that does not act stays as it is. -/
theorem Sole.offer_other (h : Sole P a as) (hnot : taker takes idle as ≠ a)
    (hact : P (act (taker takes idle as)).1) : Sole P a (offer takes act (act idle) as).1 := by
  induction as with
  | nil => cases h
  | cons b bs ih =>
    by_cases htakes : takes b = true
    · rw [taker_cons_of_takes htakes] at hnot hact
      rw [offer_cons_of_takes htakes]
      rcases h with ⟨rfl, -⟩ | ⟨-, hsole⟩
      · exact absurd rfl hnot
      · exact .inr ⟨hact, hsole⟩
    · rw [taker_cons_of_not_takes htakes] at hnot hact
      rw [offer_cons_of_not_takes htakes]
      rcases h with ⟨rfl, hbs⟩ | ⟨hb, hsole⟩
      · exact .inl ⟨rfl, offer_keeps hbs hact⟩
      · exact .inr ⟨hb, ih hsole hnot hact⟩

/-- **An item of its own.** The component that is unlike the others acts. -/
theorem Sole.offer_own (h : Sole P a as) (htaker : taker takes idle as = a) (hother : ¬ P a)
    (htakes : takes a = true) : Sole P (act a).1 (offer takes act (act idle) as).1 := by
  induction as with
  | nil => cases h
  | cons b bs ih =>
    by_cases hb : takes b = true
    · rw [taker_cons_of_takes hb] at htaker
      rw [offer_cons_of_takes hb]
      rcases h with ⟨-, hbs⟩ | ⟨hP, -⟩
      · exact .inl ⟨congrArg _ (congrArg act htaker), hbs⟩
      · exact absurd (htaker ▸ hP) hother
    · rw [taker_cons_of_not_takes hb] at htaker
      rw [offer_cons_of_not_takes hb]
      rcases h with ⟨rfl, -⟩ | ⟨hP, hsole⟩
      · exact absurd htakes hb
      · exact .inr ⟨hP, ih hsole htaker⟩

end Offer

end MediaFramework
