import Mathlib.Data.List.Induction

/-!
# Doubly linked lists

A node says which node comes next and which one is in front of it: `node p n q` for the node `p`,
with `n` behind it and `q` in front. A list is a chain of such nodes, and what is at its ends is
left open, so that a chain can be cut anywhere:

* `Segment.append_iff` cuts it in two, each part with the end of the other one beside it;
* `Segment.mono` says that a part of it only depends on its own nodes.
-/

namespace MediaFramework

universe u

variable {α : Type u}

/-- What comes first, in a list with something behind it. -/
def firstOf (ps : List α) (behind : α) : α := ps.head?.getD behind

/-- What comes last, in a list with something in front of it. -/
def lastOf (before : α) (ps : List α) : α := ps.getLast?.getD before

/-- A chain of nodes. -/
def Segment (node : α → α → α → Prop) : α → List α → α → Prop
  | _, [], _ => True
  | before, p :: ps, behind => node p (firstOf ps behind) before ∧ Segment node p ps behind

section Ends

variable {p q before behind : α} {ps xs ys : List α}

@[simp] theorem firstOf_nil : firstOf [] behind = behind := rfl

@[simp] theorem firstOf_cons : firstOf (p :: ps) behind = p := rfl

@[simp] theorem lastOf_nil : lastOf before [] = before := rfl

@[simp] theorem lastOf_singleton : lastOf before [p] = p := rfl

@[simp] theorem lastOf_concat : lastOf before (ps ++ [p]) = p := by
  simp [lastOf]

theorem lastOf_cons : lastOf before (p :: ps) = lastOf p ps := by
  cases ps using List.reverseRecOn <;> simp [lastOf, List.getLast?_cons]

theorem lastOf_append_cons : lastOf before (xs ++ p :: ys) = lastOf p ys := by
  induction xs generalizing before with
  | nil => exact lastOf_cons
  | cons x xs ih => rw [List.cons_append, lastOf_cons, ih]

theorem firstOf_append : firstOf (xs ++ ys) behind = firstOf xs (firstOf ys behind) := by
  cases xs <;> rfl

theorem firstOf_mem (h : ps ≠ []) : firstOf ps behind ∈ ps := by
  cases ps with
  | nil => exact absurd rfl h
  | cons p ps => exact List.mem_cons_self

theorem lastOf_mem (h : ps ≠ []) : lastOf before ps ∈ ps := by
  cases ps using List.reverseRecOn with
  | nil => exact absurd rfl h
  | append_singleton xs p =>
    rw [lastOf_concat]
    exact List.mem_append_right _ List.mem_cons_self

end Ends

namespace Segment

variable {node node' : α → α → α → Prop} {p before behind : α} {xs ys ps : List α}

/-- **A chain is cut in two.** -/
theorem append_iff : Segment node before (xs ++ ys) behind ↔
    Segment node before xs (firstOf ys behind) ∧ Segment node (lastOf before xs) ys behind := by
  induction xs generalizing before with
  | nil => exact (and_iff_right trivial).symm
  | cons p xs ih =>
    rw [List.cons_append, Segment, Segment, firstOf_append, ih, lastOf_cons]
    exact and_assoc.symm

/-- Other nodes may change. -/
theorem mono (h : Segment node before ps behind)
    (hnode : ∀ p ∈ ps, ∀ n q, node p n q → node' p n q) : Segment node' before ps behind := by
  induction ps generalizing before with
  | nil => trivial
  | cons p ps ih =>
    exact ⟨hnode p List.mem_cons_self _ _ h.1,
      ih h.2 fun q hq => hnode q (List.mem_cons_of_mem p hq)⟩

/-- A node of the chain, with what is beside it. -/
theorem node_of_append (h : Segment node before (xs ++ p :: ys) behind) :
    node p (firstOf ys behind) (lastOf before xs) := (append_iff.mp h).2.1

end Segment

end MediaFramework
