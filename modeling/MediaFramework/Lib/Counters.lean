import Mathlib.Algebra.GroupWithZero.Nat
import Mathlib.Data.List.Induction
import Mathlib.Tactic.SplitIfs

/-!
# Counters of interleaved streams

A list of items belongs to several streams, told apart by a key. Some items of a stream
are counted: such an item carries the number of the counted item before it in the same
stream plus one, modulo `modulus`, and plus what `jump` adds for it and for the items
between the two.

`due` is the number an item of a stream has to be compared with, kept along the list;
`countsUp_concat` says that a list that counts up goes on to do so as long as each new
item fits what is due.
-/

namespace MediaFramework

universe u v

/-- How the items of interleaved streams are numbered. -/
structure Numbering (α : Type u) (κ : Type v) where
  key : α → κ
  /-- the item is counted -/
  counts : α → Bool
  number : α → ℕ
  jump : α → ℕ
  modulus : ℕ

namespace Numbering

variable {α : Type u} {κ : Type v} [DecidableEq κ] (N : Numbering α κ)

/-- What the items of a stream add beyond counting. -/
def jumps (k : κ) (items : List α) : ℕ :=
  ((items.filter fun item => N.key item = k).map N.jump).sum

/-- The counted items of the stream `k` follow each other without a gap. -/
def CountsUp (k : κ) (items : List α) : Prop :=
  ∀ {front mid back : List α} {a b : α}, items = front ++ a :: (mid ++ b :: back) →
    N.key a = k → N.key b = k → N.counts a = true → N.counts b = true →
    (∀ item ∈ mid, N.key item = k → N.counts item = false) →
    N.number b = (N.number a + 1 + N.jumps k (mid ++ [b])) % N.modulus

/-- One item further, what the next one has to be compared with. -/
def next (k : κ) (due : Option ℕ) (item : α) : Option ℕ :=
  if N.key item = k then
    if N.counts item then some (N.number item) else due.map (· + N.jump item)
  else due

/-- The number of the last counted item of a stream, with the jumps since. -/
def due (k : κ) (items : List α) : Option ℕ := items.foldl (N.next k) none

/-- The item fits what is due in its stream. -/
def Fits (k : κ) (due : Option ℕ) (item : α) : Prop :=
  N.key item = k → N.counts item = true →
    ∀ n ∈ due, N.number item = (n + 1 + N.jump item) % N.modulus

variable {N} {k : κ} {items : List α} {item : α}

theorem due_concat : N.due k (items ++ [item]) = N.next k (N.due k items) item := by
  simp [due]

theorem jumps_concat :
    N.jumps k (items ++ [item]) = N.jumps k items + if N.key item = k then N.jump item else 0 := by
  unfold jumps
  rw [List.filter_append, List.map_append, List.sum_append]
  by_cases hkey : N.key item = k <;> simp [hkey]

/-- Since the last counted item, only jumps are added. -/
theorem due_of_last {front : List α} {a : α} (ha : N.key a = k) (hcount : N.counts a = true)
    {mid : List α} (hmid : ∀ item ∈ mid, N.key item = k → N.counts item = false) :
    N.due k (front ++ a :: mid) = some (N.number a + N.jumps k mid) := by
  induction mid using List.reverseRecOn with
  | nil =>
    rw [due_concat, next, if_pos ha, if_pos hcount]
    rfl
  | append_singleton mid item ih =>
    have hbefore := ih fun other hother => hmid other (List.mem_append_left _ hother)
    rw [← List.cons_append, ← List.append_assoc, due_concat, hbefore, next, jumps_concat]
    split_ifs with hkey hcounted
    · exact absurd hcounted
        (Bool.eq_false_iff.mp (hmid item (List.mem_append_right _ (List.mem_singleton_self _)) hkey))
    · simp [Nat.add_assoc]
    · rw [Nat.add_zero]

theorem countsUp_nil : N.CountsUp k [] := by
  intro front mid back a b h
  simp at h

/-- **Counting goes on** with an item that fits what is due. -/
theorem countsUp_concat (h : N.CountsUp k items) (hfits : N.Fits k (N.due k items) item) :
    N.CountsUp k (items ++ [item]) := by
  intro front mid back a b hitems ha hb hcountA hcountB hmid
  rcases List.eq_nil_or_concat back with rfl | ⟨back', last, rfl⟩
  · -- the new item is the second of the two
    have hsplit : items ++ [item] = (front ++ a :: mid) ++ [b] := by
      rw [hitems, List.append_assoc, List.cons_append]
    obtain ⟨rfl, hlast⟩ := List.append_inj' hsplit rfl
    obtain rfl := List.singleton_inj.mp hlast
    rw [hfits hb hcountB _ (due_of_last ha hcountA hmid), jumps_concat, if_pos hb]
    congr 1
    omega
  · have hsplit : items ++ [item] = (front ++ a :: (mid ++ b :: back')) ++ [last] := by
      rw [hitems]
      simp
    obtain ⟨rfl, -⟩ := List.append_inj' hsplit rfl
    exact h rfl ha hb hcountA hcountB hmid

end Numbering

end MediaFramework
