import MediaFramework.Lib.Octets
import Mathlib.Data.Nat.Bitwise
import Mathlib.Tactic.Ring

/-!
# Bits of octets

The bits of a list of octets are counted from the highest one of the first octet on, and adjacent
ones make a number, the highest first. Taken together the octets are one large number, and the bits
are what is left of it between two places.

* `bitsAt_add` splits them, `bitsAt_front` takes the first one off;
* `bitsAt_slice` finds bits in the octets they lie in.
-/

namespace MediaFramework

/-- The number that `n` adjacent bits make, from the bit `i` on. -/
def bitsAt (bytes : List UInt8) (i n : ℕ) : ℕ :=
  ofOctets bytes / 2 ^ (8 * bytes.length - (i + n)) % 2 ^ n

/-- The number that the first octets make; 0 when there are not so many. -/
def leading (k : ℕ) (l : List UInt8) : ℕ := if k ≤ l.length then ofOctets (l.take k) else 0

/-- The octets of a number, the highest first. -/
def toOctets : ℕ → ℕ → List UInt8
  | 0, _ => []
  | k + 1, n => toOctets k (n / 256) ++ [UInt8.ofNat n]

variable {bytes xs ys : List UInt8} {i n p k : ℕ}

@[simp] theorem length_toOctets (k n : ℕ) : (toOctets k n).length = k := by
  induction k generalizing n with
  | zero => rfl
  | succ k ih => rw [toOctets, List.length_append, ih, List.length_singleton]

/-- An octet of a number. -/
theorem getElem?_toOctets : ∀ {k i : ℕ} (n : ℕ), i < k →
    (toOctets k n)[i]? = some (UInt8.ofNat (n / 256 ^ (k - 1 - i))) := by
  intro k
  induction k with
  | zero => exact fun _ h => absurd h (Nat.not_lt_zero _)
  | succ k ih =>
    intro i n hi
    rw [toOctets]
    rcases Nat.lt_or_ge i k with hlt | hge
    · rw [List.getElem?_append_left (by rwa [length_toOctets]), ih _ hlt, Nat.div_div_eq_div_mul,
        ← Nat.pow_succ', show k + 1 - 1 - i = (k - 1 - i).succ by omega]
    · obtain rfl : i = k := by omega
      rw [List.getElem?_append_right (by rw [length_toOctets]), length_toOctets, Nat.sub_self,
        show i + 1 - 1 - i = 0 by omega, Nat.pow_zero, Nat.div_one]
      rfl

/-- The octets of a number make that number, when there are enough of them. -/
theorem ofOctets_toOctets : ∀ k n, n < 256 ^ k → ofOctets (toOctets k n) = n := by
  intro k
  induction k with
  | zero =>
    intro n h
    rw [Nat.lt_one_iff.mp h]
    rfl
  | succ k ih =>
    intro n h
    rw [toOctets, ofOctets_concat, ih _ (Nat.div_lt_of_lt_mul (by rwa [Nat.mul_comm])),
      UInt8.toNat_ofNat']
    omega

theorem ofOctets_append (xs ys : List UInt8) :
    ofOctets (xs ++ ys) = ofOctets xs * 2 ^ (8 * ys.length) + ofOctets ys := by
  induction ys using List.reverseRecOn with
  | nil => simp [ofOctets]
  | append_singleton ys b ih =>
    rw [← List.append_assoc, ofOctets_concat, ofOctets_concat, ih, List.length_append,
      List.length_singleton, Nat.mul_add, Nat.pow_add]
    ring

theorem ofOctets_singleton (b : UInt8) : ofOctets [b] = b.toNat := by simp [ofOctets]

theorem bitsAt_lt (bytes : List UInt8) (i n : ℕ) : bitsAt bytes i n < 2 ^ n :=
  Nat.mod_lt _ (Nat.two_pow_pos n)

theorem bitsAt_zero (bytes : List UInt8) (i : ℕ) : bitsAt bytes i 0 = 0 := Nat.mod_one _

/-- Some bits and the ones behind them. -/
theorem bitsAt_add (h : i + (k + n) ≤ 8 * bytes.length) :
    bitsAt bytes i (k + n) = bitsAt bytes i k * 2 ^ n + bitsAt bytes (i + k) n := by
  have hplace : 8 * bytes.length - (i + k) = 8 * bytes.length - (i + (k + n)) + n := by omega
  rw [bitsAt, bitsAt, bitsAt, hplace, Nat.add_assoc i, Nat.pow_add 2 k n, Nat.mul_comm (2 ^ k),
    Nat.mod_mul, Nat.div_div_eq_div_mul, ← Nat.pow_add]
  ring

/-- The first of some bits. -/
theorem bitsAt_front (h : i + (n + 1) ≤ 8 * bytes.length) :
    bitsAt bytes i (n + 1) = bitsAt bytes i 1 * 2 ^ n + bitsAt bytes (i + 1) n := by
  rw [Nat.add_comm n] at h ⊢
  exact bitsAt_add h

/-- Bits are found in the octets they lie in. -/
theorem bitsAt_slice (hk : p + k ≤ bytes.length) (hi : 8 * p ≤ i) (hn : i + n ≤ 8 * (p + k)) :
    bitsAt bytes i n =
      ofOctets ((bytes.drop p).take k) / 2 ^ (8 * (p + k) - (i + n)) % 2 ^ n := by
  have hslice : ((bytes.drop p).take k).length = k := by
    rw [List.length_take, List.length_drop]
    omega
  have hnumber : ofOctets bytes =
      ofOctets (bytes.drop (p + k)) + (ofOctets ((bytes.drop p).take k) +
        ofOctets (bytes.take p) * 2 ^ (8 * k)) * 2 ^ (8 * (bytes.drop (p + k)).length) := by
    conv_lhs => rw [← List.take_append_drop p bytes, ← List.take_append_drop k (bytes.drop p),
      List.drop_drop, ← List.append_assoc]
    rw [ofOctets_append, ofOctets_append, hslice]
    ring
  have hplace : 8 * bytes.length - (i + n) =
      8 * (bytes.drop (p + k)).length + (8 * (p + k) - (i + n)) := by
    rw [List.length_drop]
    omega
  obtain ⟨r, hr⟩ : ∃ r, r = 8 * (p + k) - (i + n) := ⟨_, rfl⟩
  obtain ⟨m, hm⟩ : ∃ m, 8 * k = n + m + r := ⟨8 * k - n - r, by omega⟩
  have hrest : ofOctets (bytes.drop (p + k)) < 2 ^ (8 * (bytes.drop (p + k)).length) :=
    (ofOctets_lt _).trans_eq (by rw [Nat.pow_mul])
  rw [bitsAt, hplace, ← hr, Nat.pow_add, ← Nat.div_div_eq_div_mul, hnumber,
    Nat.add_mul_div_right _ _ (Nat.two_pow_pos _), Nat.div_eq_of_lt hrest, Nat.zero_add, hm,
    Nat.pow_add, ← Nat.mul_assoc, Nat.add_mul_div_right _ _ (Nat.two_pow_pos _), Nat.pow_add,
    Nat.mul_comm (2 ^ n), ← Nat.mul_assoc, Nat.add_mul_mod_self_right]

/-- Bits of octets between others. -/
theorem bitsAt_append (zs : List UInt8) (h : i + n ≤ 8 * ys.length) :
    bitsAt (xs ++ ys ++ zs) (8 * xs.length + i) n = bitsAt ys i n := by
  have hslice : ((xs ++ ys ++ zs).drop xs.length).take ys.length = ys := by
    rw [List.append_assoc, List.drop_left, List.take_left]
  have hplace : 8 * (xs.length + ys.length) - (8 * xs.length + i + n) = 8 * ys.length - (i + n) := by
    omega
  rw [bitsAt_slice (p := xs.length) (k := ys.length) (by simp) (by omega) (by omega), hslice, hplace,
    bitsAt]

/-- Some octets, bit by bit. -/
theorem bitsAt_octets (hk : p + k ≤ bytes.length) :
    bitsAt bytes (8 * p) (8 * k) = leading k (bytes.drop p) := by
  have hlength : ((bytes.drop p).take k).length = k := by
    rw [List.length_take, List.length_drop]
    omega
  have hlt := ofOctets_lt ((bytes.drop p).take k)
  rw [hlength] at hlt
  rw [bitsAt_slice hk (Nat.le_refl _) (by omega), Nat.mul_add, Nat.sub_self, Nat.pow_zero,
    Nat.div_one, Nat.mod_eq_of_lt (hlt.trans_eq (by rw [Nat.pow_mul])), leading,
    if_pos (by rw [List.length_drop]; omega)]

/-- Some bits of an octet. -/
theorem bitsAt_within {b : UInt8} (h : bytes[i / 8]? = some b) (hn : i % 8 + n ≤ 8) :
    bitsAt bytes i n = b.toNat >>> (8 - i % 8 - n) % 2 ^ n := by
  obtain ⟨hlt, hb⟩ := List.getElem?_eq_some_iff.mp h
  have hslice : (bytes.drop (i / 8)).take 1 = [b] := by
    rw [List.drop_eq_getElem_cons hlt, hb]
    rfl
  have hplace : 8 * (i / 8 + 1) - (i + n) = 8 - i % 8 - n := by omega
  rw [bitsAt_slice (p := i / 8) (k := 1) hlt (by omega) (by omega), hslice, hplace,
    Nat.shiftRight_eq_div_pow, ofOctets_singleton]

/-- One bit of an octet. -/
theorem bitsAt_one {b : UInt8} (h : bytes[i / 8]? = some b) :
    bitsAt bytes i 1 = b.toNat >>> (7 - i % 8) &&& 1 := by
  rw [bitsAt_within h (by omega), Nat.and_one_is_mod, pow_one,
    show 8 - i % 8 - 1 = 7 - i % 8 by omega]

theorem leading_append (h : xs.length = k) : leading k (xs ++ ys) = ofOctets xs := by
  rw [leading, if_pos (by rw [List.length_append]; omega), ← h, List.take_left]

theorem leading_one_cons (b : UInt8) (l : List UInt8) : leading 1 (b :: l) = b.toNat := by
  rw [leading, if_pos (by rw [List.length_cons]; omega), List.take_succ_cons, List.take_zero,
    ofOctets_singleton]

theorem leading_nil : leading 1 [] = 0 := rfl

end MediaFramework
