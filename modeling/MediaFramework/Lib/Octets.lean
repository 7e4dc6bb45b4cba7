import Mathlib.Algebra.Group.Nat.Defs
import Mathlib.Data.List.Basic
import Mathlib.Data.List.Induction

/-!
# Reading octets

What a parser may read is a list of octets, and each read says where. A read outside the list has no
result, so that a parser with a result has only read within it:

* `octet` reads one octet, `octets` some adjacent ones, and `number` a number of them as one number,
  the highest first;
* `octet_append_left` and `octet_append_right` find an octet in either part of a list, and the same
  for the other two.
-/

namespace MediaFramework

/-- The octet at a place. -/
def octet (bytes : List UInt8) (i : ℕ) : Option ℕ := bytes[i]?.map UInt8.toNat

/-- Adjacent octets, from a place on. -/
def octets (bytes : List UInt8) (i n : ℕ) : Option (List UInt8) :=
  if i + n ≤ bytes.length then some ((bytes.drop i).take n) else none

/-- Adjacent octets as one number. -/
def number (bytes : List UInt8) (i : ℕ) : ℕ → Option ℕ
  | 0 => some 0
  | n + 1 => do
    let high ← number bytes i n
    let low ← octet bytes (i + n)
    return high <<< 8 ||| low

/-- The number that octets make. -/
def ofOctets (bytes : List UInt8) : ℕ := bytes.foldl (fun high b => high <<< 8 ||| b.toNat) 0

section Octets

variable {bytes xs ys zs : List UInt8} {i n : ℕ}

theorem exists_octet (h : i < bytes.length) : ∃ b : UInt8, octet bytes i = some b.toNat := by
  rw [octet, List.getElem?_eq_getElem h]
  exact ⟨_, rfl⟩

@[simp] theorem octet_cons_zero (b : UInt8) : octet (b :: bytes) 0 = some b.toNat := rfl

@[simp] theorem octet_cons_succ (b : UInt8) : octet (b :: bytes) (i + 1) = octet bytes i := rfl

@[simp] theorem octets_cons_succ (b : UInt8) :
    octets (b :: bytes) (i + 1) n = octets bytes i n := by
  rw [octets, octets, List.length_cons, List.drop_succ_cons]
  exact if_congr (by omega) rfl rfl

@[simp] theorem number_cons_succ (b : UInt8) :
    number (b :: bytes) (i + 1) n = number bytes i n := by
  induction n with
  | zero => rfl
  | succ n ih => rw [number, number, ih, Nat.add_right_comm, octet_cons_succ]

/-- The octet that what is left begins with. -/
theorem octet_of_drop {b : UInt8} (h : bytes.drop i = b :: xs) : octet bytes i = some b.toNat := by
  have hget : (bytes.drop i)[0]? = some b := by rw [h]; rfl
  rw [List.getElem?_drop, Nat.add_zero] at hget
  rw [octet, hget]
  rfl

theorem octet_append_left (h : i < xs.length) : octet (xs ++ ys) i = octet xs i := by
  rw [octet, List.getElem?_append_left h, octet]

@[simp] theorem octet_append_right : octet (xs ++ ys) (xs.length + i) = octet ys i := by
  rw [octet, List.getElem?_append_right (Nat.le_add_right _ _), Nat.add_sub_cancel_left, octet]

theorem octets_eq_none (h : bytes.length < i + n) : octets bytes i n = none :=
  if_neg (Nat.not_le_of_lt h)

@[simp] theorem octets_append_right : octets (xs ++ ys) (xs.length + i) n = octets ys i n := by
  rw [octets, octets, List.length_append, ← List.drop_drop, List.drop_left]
  exact if_congr (by omega) rfl rfl

/-- All of them, at the front. -/
@[simp] theorem octets_self : octets (xs ++ ys) 0 xs.length = some xs := by
  rw [octets, if_pos (by rw [List.length_append]; omega), List.drop_zero, List.take_left]

@[simp] theorem number_append_right :
    number (xs ++ ys) (xs.length + i) n = number ys i n := by
  induction n with
  | zero => rfl
  | succ n ih => rw [number, number, ih, Nat.add_assoc, octet_append_right]

theorem number_append_left (h : i + n ≤ xs.length) :
    number (xs ++ ys) i n = number xs i n := by
  induction n with
  | zero => rfl
  | succ n ih => rw [number, number, ih (by omega), octet_append_left (by omega)]

/-- What is read at the front. -/
@[simp] theorem number_self : number (xs ++ ys) 0 xs.length = some (ofOctets xs) := by
  have hall : ∀ n ≤ xs.length, number (xs ++ ys) 0 n = some (ofOctets (xs.take n)) := by
    intro n
    induction n with
    | zero => exact fun _ => rfl
    | succ n ih =>
      intro hn
      rw [number, ih (by omega), Nat.zero_add, octet_append_left hn, octet,
        List.getElem?_eq_getElem hn, ← List.take_append_getElem hn, ofOctets, ofOctets,
        List.foldl_append]
      rfl
  have := hall xs.length (Nat.le_refl _)
  rwa [List.take_length] at this

theorem ofOctets_concat (xs : List UInt8) (b : UInt8) :
    ofOctets (xs ++ [b]) = ofOctets xs * 256 + b.toNat := by
  rw [ofOctets, List.foldl_append, List.foldl_cons, List.foldl_nil,
    ← Nat.shiftLeft_add_eq_or_of_lt b.toNat_lt, Nat.shiftLeft_eq]
  rfl

theorem ofOctets_lt (xs : List UInt8) : ofOctets xs < 256 ^ xs.length := by
  induction xs using List.reverseRecOn with
  | nil => exact Nat.one_pos
  | append_singleton xs b ih =>
    have hb := b.toNat_lt
    rw [ofOctets_concat, List.length_append, List.length_singleton, Nat.pow_succ]
    omega

/-- As many octets that make the same number. -/
theorem eq_of_ofOctets_eq : ∀ {xs ys : List UInt8}, xs.length = ys.length →
    ofOctets xs = ofOctets ys → xs = ys := by
  intro xs
  induction xs using List.reverseRecOn with
  | nil =>
    intro ys hlength _
    exact (List.length_eq_zero_iff.mp hlength.symm).symm
  | append_singleton xs b ih =>
    intro ys hlength hvalue
    obtain rfl | ⟨ys, c, rfl⟩ := List.eq_nil_or_concat' ys
    · rw [List.length_append] at hlength
      cases hlength
    · rw [List.length_append, List.length_append, List.length_singleton,
        List.length_singleton] at hlength
      rw [ofOctets_concat, ofOctets_concat] at hvalue
      have hb := b.toNat_lt
      have hc := c.toNat_lt
      obtain rfl : xs = ys := ih (by omega) (by omega)
      obtain rfl := UInt8.toNat_inj.mp (show b.toNat = c.toNat by omega)
      rfl

/-- A read behind some octets. -/
theorem octet_behind {k : ℕ} (h : k = xs.length + i) : octet (xs ++ ys) k = octet ys i := by
  rw [h, octet_append_right]

theorem octets_behind {k : ℕ} (h : k = xs.length + i) :
    octets (xs ++ ys) k n = octets ys i n := by
  rw [h, octets_append_right]

theorem number_behind {k : ℕ} (h : k = xs.length + i) :
    number (xs ++ ys) k n = number ys i n := by
  rw [h, number_append_right]

/-- Octets at the front, of which it is known how many they are. -/
theorem octets_front (h : xs.length = n) : octets (xs ++ ys) 0 n = some xs := by
  rw [← h, octets_self]

theorem number_front (h : xs.length = n) : number (xs ++ ys) 0 n = some (ofOctets xs) := by
  rw [← h, number_self]

end Octets

end MediaFramework
