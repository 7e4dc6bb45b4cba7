import MediaFramework.Lib.BitNumber
import Mathlib.Data.Nat.Log

/-!
# Bits as lists

`msbBits` are the last bits of a number, the highest first, and `bitsOf` the bits of octets, the
highest of the first one first. Bits that come one after another are lists one after another, so what
a reader of bits finds is said with `++`.

The Exp-Golomb code of a number is that number plus one in binary, behind as many zeros as there are
digits after the first one; a signed number is coded by the place it has in `0, 1, -1, 2, -2, …`.
-/

namespace MediaFramework

/-- The last `n` bits of a number, the highest first. -/
def msbBits : ℕ → ℕ → List Bool
  | 0, _ => []
  | n + 1, x => x.testBit n :: msbBits n x

/-- The number that bits make, the highest first. -/
def natOfBits (bits : List Bool) : ℕ := bits.foldl (fun n b => 2 * n + b.toNat) 0

/-- The bits of octets. -/
def bitsOf (bytes : List UInt8) : List Bool := bytes.flatMap fun b => msbBits 8 b.toNat

section Bits

variable {n m x i : ℕ} {bits : List Bool} {bytes : List UInt8}

@[simp] theorem length_msbBits (n x : ℕ) : (msbBits n x).length = n := by
  induction n with
  | zero => rfl
  | succ n ih => rw [msbBits, List.length_cons, ih]

theorem getElem?_msbBits (h : i < n) : (msbBits n x)[i]? = some (x.testBit (n - 1 - i)) := by
  induction n generalizing i with
  | zero => exact absurd h (Nat.not_lt_zero i)
  | succ n ih =>
    rcases i with _ | i
    · rfl
    · rw [msbBits, List.getElem?_cons_succ, ih (by omega)]
      congr 2
      omega

/-- The bits of two numbers that have them in common. -/
theorem msbBits_congr {y : ℕ} (h : ∀ i < n, x.testBit i = y.testBit i) :
    msbBits n x = msbBits n y := by
  induction n with
  | zero => rfl
  | succ n ih => rw [msbBits, msbBits, h n (Nat.lt_succ_self n), ih fun i hi => h i (by omega)]

theorem msbBits_mod : msbBits n (x % 2 ^ n) = msbBits n x :=
  msbBits_congr fun i hi => by rw [Nat.testBit_mod_two_pow, decide_eq_true hi, Bool.true_and]

/-- Some bits, and the ones behind them. -/
theorem msbBits_add : msbBits (m + n) x = msbBits m (x / 2 ^ n) ++ msbBits n x := by
  induction m with
  | zero => rw [Nat.zero_add, msbBits, List.nil_append]
  | succ m ih =>
    rw [Nat.add_right_comm, msbBits, msbBits, List.cons_append, ← ih, Nat.testBit_div_two_pow,
      Nat.add_comm m n]

/-- The first bit of a number. -/
theorem msbBits_succ_of_lt (hle : 2 ^ n ≤ x) (hlt : x < 2 ^ (n + 1)) :
    msbBits (n + 1) x = true :: msbBits n (x - 2 ^ n) := by
  have hbit : x.testBit n = true := Nat.testBit_of_two_pow_le_and_two_pow_add_one_gt hle hlt
  have hrest : x % 2 ^ n = x - 2 ^ n := by
    rw [Nat.mod_eq_sub_mod hle, Nat.mod_eq_of_lt (by rw [Nat.pow_succ] at hlt; omega)]
  rw [msbBits, hbit, ← msbBits_mod, hrest]

theorem natOfBits_concat (bits : List Bool) (b : Bool) :
    natOfBits (bits ++ [b]) = 2 * natOfBits bits + b.toNat := by
  rw [natOfBits, List.foldl_append]
  rfl

theorem msbBits_natOfBits (bits : List Bool) : msbBits bits.length (natOfBits bits) = bits := by
  induction bits using List.reverseRecOn with
  | nil => rfl
  | append_singleton bits b ih =>
    have hhalf : (2 * natOfBits bits + b.toNat) / 2 ^ 1 = natOfBits bits := by
      rw [pow_one]
      cases b
      · simp
      · show (2 * natOfBits bits + 1) / 2 = natOfBits bits
        omega
    have hlast : msbBits 1 (2 * natOfBits bits + b.toNat) = [b] := by
      rw [msbBits, msbBits]
      cases b <;> simp
    rw [List.length_append, List.length_singleton, msbBits_add, natOfBits_concat, hhalf, hlast, ih]

/-- The number some bits of a number make. -/
theorem natOfBits_msbBits (n x : ℕ) : natOfBits (msbBits n x) = x % 2 ^ n := by
  induction n generalizing x with
  | zero => rw [pow_zero, Nat.mod_one]; rfl
  | succ n ih =>
    have hlast : msbBits 1 x = [x.testBit 0] := rfl
    have hbit : (x.testBit 0).toNat = x % 2 := by
      rw [Nat.testBit_zero]
      rcases Nat.mod_two_eq_zero_or_one x with h | h <;> simp [h]
    rw [msbBits_add, hlast, natOfBits_concat, ih, hbit, pow_one, pow_succ', Nat.mod_mul,
      Nat.add_comm]

theorem bitsOf_append (xs ys : List UInt8) : bitsOf (xs ++ ys) = bitsOf xs ++ bitsOf ys :=
  List.flatMap_append

@[simp] theorem length_bitsOf (bytes : List UInt8) : (bitsOf bytes).length = 8 * bytes.length := by
  induction bytes with
  | nil => rfl
  | cons b bytes ih =>
    rw [bitsOf, List.flatMap_cons, List.length_append, ← bitsOf, ih, length_msbBits,
      List.length_cons]
    omega

/-- Each bit of some octets. -/
theorem getElem?_bitsOf (bytes : List UInt8) : ∀ i : ℕ,
    (bitsOf bytes)[i]? = bytes[i / 8]?.map fun b => b.toNat.testBit (7 - i % 8) := by
  induction bytes with
  | nil => exact fun _ => rfl
  | cons b bytes ih =>
    intro i
    rw [bitsOf, List.flatMap_cons, ← bitsOf]
    rcases Nat.lt_or_ge i 8 with hi | hi
    · rw [List.getElem?_append_left (by rwa [length_msbBits]), getElem?_msbBits hi,
        Nat.div_eq_of_lt hi, Nat.mod_eq_of_lt hi]
      rfl
    · obtain ⟨i, rfl⟩ := Nat.exists_eq_add_of_le hi
      rw [List.getElem?_append_right (by rw [length_msbBits]; omega), length_msbBits,
        Nat.add_sub_cancel_left, ih, Nat.add_div_left _ (by decide), List.getElem?_cons_succ,
        Nat.add_mod_left]

theorem bitsOf_toOctets : ∀ k x, bitsOf (toOctets k x) = msbBits (8 * k) x := by
  intro k
  induction k with
  | zero => exact fun _ => rfl
  | succ k ih =>
    intro x
    have hlast : bitsOf [UInt8.ofNat x] = msbBits 8 x := by
      rw [bitsOf, List.flatMap_singleton, UInt8.toNat_ofNat']
      exact msbBits_mod
    rw [toOctets, bitsOf_append, ih, hlast, Nat.mul_succ, msbBits_add,
      show (256 : ℕ) = 2 ^ 8 from rfl]

/-- Any bits are the first ones of some octets. -/
theorem exists_bitsOf (bits : List Bool) :
    ∃ bytes rest, bitsOf bytes = bits ++ rest := by
  refine ⟨toOctets bits.length (natOfBits bits * 2 ^ (7 * bits.length)),
    msbBits (7 * bits.length) (natOfBits bits * 2 ^ (7 * bits.length)), ?_⟩
  rw [bitsOf_toOctets, show 8 * bits.length = bits.length + 7 * bits.length by omega, msbBits_add,
    Nat.mul_div_cancel _ (Nat.two_pow_pos _), msbBits_natOfBits]

theorem bitsOf_cons (b : UInt8) (bytes : List UInt8) :
    bitsOf (b :: bytes) = msbBits 8 b.toNat ++ bitsOf bytes := List.flatMap_cons

theorem msbBits_injective {a b : UInt8} (h : msbBits 8 a.toNat = msbBits 8 b.toNat) : a = b := by
  have hnum := congrArg natOfBits h
  rw [natOfBits_msbBits, natOfBits_msbBits, Nat.mod_eq_of_lt a.toNat_lt,
    Nat.mod_eq_of_lt b.toNat_lt] at hnum
  exact UInt8.toNat_inj.mp hnum

/-- Octets whose bits begin with those of others begin with these. -/
theorem exists_append_of_bitsOf_eq (ys : List UInt8) : ∀ {xs : List UInt8} {rest : List Bool},
    bitsOf xs = bitsOf ys ++ rest → ∃ zs, xs = ys ++ zs := by
  induction ys with
  | nil => exact fun {xs} _ _ => ⟨xs, rfl⟩
  | cons y ys ih =>
    intro xs rest h
    rw [bitsOf_cons, List.append_assoc] at h
    rcases xs with _ | ⟨x, xs⟩
    · have hlen := congrArg List.length h
      rw [length_bitsOf, List.length_append, length_msbBits, List.length_nil] at hlen
      omega
    · obtain ⟨hbyte, hrest⟩ := List.append_inj h (by rw [length_msbBits, length_msbBits])
      obtain ⟨zs, rfl⟩ := ih hrest
      rw [msbBits_injective hbyte]
      exact ⟨zs, rfl⟩

end Bits

/-! ## Exp-Golomb codes -/

/-- The zeros in front of the code of a number. -/
def golombZeros (v : ℕ) : ℕ := Nat.log2 (v + 1)

/-- The code of a number: `ue(v)`. -/
def ueBits (v : ℕ) : List Bool :=
  List.replicate (golombZeros v) false ++ msbBits (golombZeros v + 1) (v + 1)

/-- The place of a signed number in `0, 1, -1, 2, -2, …`. -/
def golombPlace (k : ℤ) : ℕ := if 0 < k then (2 * k - 1).toNat else (-2 * k).toNat

/-- The code of a signed number: `se(v)`. -/
def seBits (k : ℤ) : List Bool := ueBits (golombPlace k)

section Golomb

variable {v : ℕ}

theorem two_pow_golombZeros_le (v : ℕ) : 2 ^ golombZeros v ≤ v + 1 :=
  Nat.log2_self_le (Nat.succ_ne_zero v)

theorem lt_two_pow_golombZeros (v : ℕ) : v + 1 < 2 ^ (golombZeros v + 1) :=
  Nat.lt_log2_self

/-- The zeros, the first digit, and the others. -/
theorem ueBits_eq (v : ℕ) :
    ueBits v = List.replicate (golombZeros v) false ++
      true :: msbBits (golombZeros v) (v + 1 - 2 ^ golombZeros v) := by
  rw [ueBits, msbBits_succ_of_lt (two_pow_golombZeros_le v) (lt_two_pow_golombZeros v)]

theorem golombZeros_le {n : ℕ} (h : v + 1 < 2 ^ (n + 1)) : golombZeros v ≤ n := by
  have hlt : golombZeros v < n + 1 := (Nat.log2_lt (Nat.succ_ne_zero v)).mpr h
  omega

end Golomb

end MediaFramework
