import Mathlib.Data.Nat.Bitwise

/-!
# Bit fields

Programs cut numbers into fields with masks and shifts and put them together
again with `or`. On natural numbers a contiguous mask is a quotient and a
remainder, and an `or` of numbers that do not overlap is a sum.
-/

namespace MediaFramework

/-- Masking out the `n` bits from bit `k` on. -/
theorem and_mask (x n k : ℕ) :
    x &&& (2 ^ n - 1) * 2 ^ k = x / 2 ^ k % 2 ^ n * 2 ^ k := by
  refine Nat.eq_of_testBit_eq fun i => ?_
  rw [Nat.testBit_and, Nat.testBit_mul_two_pow, Nat.testBit_mul_two_pow, Nat.testBit_mod_two_pow,
    Nat.testBit_two_pow_sub_one, Nat.testBit_div_two_pow]
  by_cases hik : k ≤ i
  · simp [hik, Bool.and_comm]
  · simp [hik]

/-- Numbers without a common bit add up. -/
theorem or_eq_add (i : ℕ) {a b : ℕ} (ha : a % 2 ^ i = 0) (hb : b < 2 ^ i) : a ||| b = a + b := by
  obtain ⟨q, rfl⟩ := Nat.dvd_of_mod_eq_zero ha
  exact (Nat.two_pow_add_eq_or_of_lt hb q).symm

/-- Five fields put together, each below the lowest bit of those before it. -/
theorem or_fields {a b c d e : ℕ} (i j k l : ℕ) (ha : a % 2 ^ i = 0) (hb : b < 2 ^ i)
    (hab : (a + b) % 2 ^ j = 0) (hc : c < 2 ^ j) (habc : (a + b + c) % 2 ^ k = 0)
    (hd : d < 2 ^ k) (habcd : (a + b + c + d) % 2 ^ l = 0) (he : e < 2 ^ l) :
    a ||| b ||| c ||| d ||| e = a + b + c + d + e := by
  rw [or_eq_add i ha hb, or_eq_add j hab hc, or_eq_add k habc hd, or_eq_add l habcd he]

/-- The low `n` bits. -/
theorem and_low (x n : ℕ) : x &&& (2 ^ n - 1) = x % 2 ^ n := Nat.and_two_pow_sub_one_eq_mod x n

end MediaFramework
