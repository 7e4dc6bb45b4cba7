import Mathlib.Logic.Basic

/-!
# How a computation that can fault ends

A program that may go wrong is a value of `Except ε α`. `Ends x Q E` says what
can be said of both ways it ends: a result meets `Q`, and a fault meets `E`.
With `E := fun _ => True` it is partial correctness, with `E := fun _ => False`
the program never faults.

The rules follow the program: `Ends.pure`, `Ends.bind`, `Ends.ite` and
`Ends.mono`; `Ends.of_ok` and `Ends.of_error` read a proved fact back.
-/

namespace MediaFramework

universe u v

variable {ε : Type u} {α β : Type v}

/-- A result of `x` meets `Q`, a fault of `x` meets `E`. -/
def Ends (x : Except ε α) (Q : α → Prop) (E : ε → Prop) : Prop :=
  match x with
  | .ok a => Q a
  | .error e => E e

namespace Ends

variable {E : ε → Prop} {Q R : α → Prop} {x y : Except ε α}

theorem pure {a : α} (h : Q a) : Ends (Except.ok a) Q E := h

theorem error {e : ε} (h : E e) : Ends (Except.error e : Except ε α) Q E := h

/-- **Sequencing.** What follows is run from a result of the first part. -/
theorem bind {f : α → Except ε β} {S : β → Prop} (hx : Ends x Q E)
    (hf : ∀ a, Q a → Ends (f a) S E) : Ends (x >>= f) S E := by
  cases x with
  | ok a => exact hf a hx
  | error e => exact hx

/-- **Branching.** Each branch is run where its test decides for it. -/
theorem ite {c : Prop} [Decidable c] (hx : c → Ends x Q E) (hy : ¬c → Ends y Q E) :
    Ends (if c then x else y) Q E := by
  split
  case isTrue hc => exact hx hc
  case isFalse hc => exact hy hc

theorem imp {F : ε → Prop} (hx : Ends x Q E) (hQ : ∀ a, Q a → R a) (hE : ∀ e, E e → F e) :
    Ends x R F := by
  cases x with
  | ok a => exact hQ a hx
  | error e => exact hE e hx

theorem mono (hx : Ends x Q E) (h : ∀ a, Q a → R a) : Ends x R E := hx.imp h fun _ he => he

/-- What was shown of one ending twice holds of it together. -/
theorem and (hx : Ends x Q E) (hy : Ends x R E) : Ends x (fun a => Q a ∧ R a) E := by
  cases x with
  | ok a => exact ⟨hx, hy⟩
  | error e => exact hx

/-- The result of a computation that gives one. -/
theorem of_ok {a : α} (hx : Ends x Q E) (h : x = .ok a) : Q a := by
  subst h
  exact hx

/-- The fault of a computation that ends with one. -/
theorem of_error {e : ε} (hx : Ends x Q E) (h : x = .error e) : E e := by
  subst h
  exact hx

end Ends

end MediaFramework
