import Mathlib.Logic.Basic

/-!
# A computation that is defined and gives a result

A program whose behaviour may be undefined is a value of `Option α`. `Reaches x Q` is total
correctness: the program is defined, and its result meets `Q`.

The rules follow the program. `Reaches.iff_bind` reads a sequence in both directions, for
programs of which it is asked exactly when they are defined.
-/

namespace MediaFramework

universe u

variable {α β : Type u}

/-- `x` is defined, and its result meets `Q`. -/
def Reaches (x : Option α) (Q : α → Prop) : Prop := ∃ a, x = some a ∧ Q a

namespace Reaches

variable {x y : Option α} {Q R : α → Prop} {S : β → Prop}

@[simp] theorem some_iff {a : α} : Reaches (some a) Q ↔ Q a :=
  ⟨fun ⟨_, h, hQ⟩ => Option.some.inj h ▸ hQ, fun h => ⟨a, rfl, h⟩⟩

@[simp] theorem not_none : ¬Reaches (none : Option α) Q :=
  fun ⟨_, h, _⟩ => nomatch h

theorem pure {a : α} (h : Q a) : Reaches (some a) Q := ⟨a, rfl, h⟩

theorem mono (hx : Reaches x Q) (h : ∀ a, Q a → R a) : Reaches x R := by
  obtain ⟨a, ha, hQ⟩ := hx
  exact ⟨a, ha, h a hQ⟩

/-- **Sequencing.** What follows is run from a result of the first part. -/
theorem bind {f : α → Option β} (hx : Reaches x Q) (hf : ∀ a, Q a → Reaches (f a) S) :
    Reaches (x >>= f) S := by
  obtain ⟨a, rfl, hQ⟩ := hx
  exact hf a hQ

theorem map {f : α → β} (hx : Reaches x Q) (hf : ∀ a, Q a → S (f a)) : Reaches (x.map f) S := by
  obtain ⟨a, rfl, hQ⟩ := hx
  exact ⟨f a, rfl, hf a hQ⟩

/-- **Branching.** Each branch is run where its test decides for it. -/
theorem ite {c : Prop} [Decidable c] (hx : c → Reaches x Q) (hy : ¬c → Reaches y Q) :
    Reaches (if c then x else y) Q := by
  split
  case isTrue hc => exact hx hc
  case isFalse hc => exact hy hc

theorem iff_bind {f : α → Option β} :
    Reaches (x >>= f) S ↔ Reaches x fun a => Reaches (f a) S := by
  refine ⟨fun h => ?_, fun h => h.bind fun _ h => h⟩
  obtain ⟨b, hb, hS⟩ := h
  obtain ⟨a, ha, hb⟩ := Option.bind_eq_some_iff.mp hb
  exact ⟨a, ha, b, hb, hS⟩

end Reaches

end MediaFramework
