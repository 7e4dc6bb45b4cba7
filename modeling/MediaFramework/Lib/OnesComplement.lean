import Mathlib.Algebra.GroupWithZero.Nat
import MediaFramework.Lib.Octets

/-!
# One's complement sums

Numbers of 16 bits are added with an end-around carry, and octets are summed as words of two, the
last one with a zero behind it if their number is odd. `onesSum_eq` says what the sum of some words
is; so it does not depend on their order, and a word can be left out and compared with the rest
(`complement_iff`).
-/

namespace MediaFramework

namespace OnesComplement

/-- Addition with an end-around carry. -/
def onesAdd (a b : ℕ) : ℕ := if a + b < 2 ^ 16 then a + b else a + b - (2 ^ 16 - 1)

/-- The sum of some words. -/
def onesSum (words : List ℕ) : ℕ := words.foldl onesAdd 0

/-- Octets as words, the last one padded. -/
def wordsOf : List UInt8 → List ℕ
  | [] => []
  | [a] => [a.toNat <<< 8]
  | a :: b :: bytes => (a.toNat <<< 8 ||| b.toNat) :: wordsOf bytes

/-- The sum of the octets is all ones. -/
def Verifies (bytes : List UInt8) : Prop := onesSum (wordsOf bytes) = 0xFFFF

instance (bytes : List UInt8) : Decidable (Verifies bytes) :=
  inferInstanceAs (Decidable (_ = _))

/-- A number without its carries. Only zero is made zero. -/
def reduce (n : ℕ) : ℕ := if n = 0 then 0 else (n - 1) % (2 ^ 16 - 1) + 1

variable {n c w : ℕ} {words : List ℕ} {xs ys : List UInt8}

theorem reduce_lt (n : ℕ) : reduce n < 2 ^ 16 := by
  rw [reduce]
  split_ifs <;> omega

/-- **A word is added.** -/
theorem onesAdd_reduce (hw : w < 2 ^ 16) : onesAdd (reduce n) w = reduce (n + w) := by
  rw [onesAdd, reduce, reduce]
  split_ifs <;> omega

theorem foldl_onesAdd (hwords : ∀ w ∈ words, w < 2 ^ 16) :
    words.foldl onesAdd (reduce n) = reduce (n + words.sum) := by
  induction words generalizing n with
  | nil => rfl
  | cons w words ih =>
    rw [List.foldl_cons, onesAdd_reduce (hwords w List.mem_cons_self), List.sum_cons,
      ih fun w hw => hwords w (List.mem_cons_of_mem _ hw), Nat.add_assoc]

/-- **What the sum is.** -/
theorem onesSum_eq (hwords : ∀ w ∈ words, w < 2 ^ 16) : onesSum words = reduce words.sum := by
  have hsum := foldl_onesAdd (n := 0) hwords
  rwa [Nat.zero_add] at hsum

/-- **The complement of the other words.** If these are not all zero, it is the word that makes the
sum all ones, where all ones count as zero. -/
theorem complement_iff (hn : 0 < n) (hc : c < 2 ^ 16) :
    (if c = 0xFFFF then 0 else c) = 0xFFFF - reduce n ↔ reduce (n + c) = 0xFFFF := by
  rw [reduce, reduce]
  split_ifs <;> omega

/-! ## Octets -/

theorem shiftLeft_or_lt (a b : UInt8) : a.toNat <<< 8 ||| b.toNat < 2 ^ 16 := by
  have ha := a.toNat_lt
  have hb := b.toNat_lt
  rw [← Nat.shiftLeft_add_eq_or_of_lt hb, Nat.shiftLeft_eq]
  omega

theorem wordsOf_lt : ∀ (xs : List UInt8), ∀ w ∈ wordsOf xs, w < 2 ^ 16 := by
  intro xs
  fun_induction wordsOf xs with
  | case1 => exact fun w hw => absurd hw List.not_mem_nil
  | case2 a =>
    intro w hw
    obtain rfl := List.mem_singleton.mp hw
    have := shiftLeft_or_lt a 0
    rwa [UInt8.toNat_zero, Nat.or_zero] at this
  | case3 a b bytes ih =>
    intro w hw
    rcases List.mem_cons.mp hw with rfl | hw
    · exact shiftLeft_or_lt a b
    · exact ih w hw

/-- The sum of octets, from that of their words. -/
theorem verifies_iff : Verifies xs ↔ reduce (wordsOf xs).sum = 0xFFFF := by
  rw [Verifies, onesSum_eq (wordsOf_lt xs)]

/-- An even number of octets does not share a word with what follows. -/
theorem wordsOf_append (h : xs.length % 2 = 0) : wordsOf (xs ++ ys) = wordsOf xs ++ wordsOf ys := by
  fun_induction wordsOf xs with
  | case1 => rfl
  | case2 a => cases h
  | case3 a b bytes ih =>
    rw [List.length_cons, List.length_cons] at h
    rw [List.cons_append, List.cons_append, wordsOf, ih (by omega), List.cons_append]

/-- A word of the octets. -/
theorem getElem?_wordsOf {j : ℕ} (h : 2 * j + 2 ≤ xs.length) :
    (wordsOf xs)[j]? = some (ofOctets ((xs.drop (2 * j)).take 2)) := by
  induction j generalizing xs with
  | zero =>
    match xs, h with
    | a :: b :: bytes, _ =>
      rw [wordsOf, List.getElem?_cons_zero, Nat.mul_zero, List.drop_zero]
      exact congrArg (fun n => some (n <<< 8 ||| b.toNat)) (Nat.zero_or _).symm
  | succ j ih =>
    match xs, h with
    | a :: b :: bytes, h =>
      rw [List.length_cons, List.length_cons] at h
      rw [wordsOf, List.getElem?_cons_succ, ih (by omega)]
      rfl

/-- Octets that are not all zero have a sum. -/
theorem sum_wordsOf_pos {b : UInt8} (hmem : b ∈ xs) (hb : b ≠ 0) : 0 < (wordsOf xs).sum := by
  have hpos : 0 < b.toNat := Nat.pos_of_ne_zero fun h => hb (UInt8.toNat_inj.mp h)
  fun_induction wordsOf xs with
  | case1 => cases hmem
  | case2 a =>
    obtain rfl := List.mem_singleton.mp hmem
    rw [List.sum_singleton, Nat.shiftLeft_eq]
    omega
  | case3 c d bytes ih =>
    have hword : c.toNat <<< 8 ||| d.toNat = c.toNat * 256 + d.toNat := by
      rw [← Nat.shiftLeft_add_eq_or_of_lt d.toNat_lt, Nat.shiftLeft_eq]
    rw [List.sum_cons, hword]
    rcases List.mem_cons.mp hmem with rfl | hmem
    · omega
    · rcases List.mem_cons.mp hmem with rfl | hmem
      · omega
      · have := ih hmem
        omega

end OnesComplement

end MediaFramework
