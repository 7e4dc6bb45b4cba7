import MediaFramework.Lib.BitList
import Mathlib.Algebra.Order.Ring.Int
import Mathlib.Logic.Function.Iterate

/-!
# Reading Exp-Golomb codes (`getBits`, `getUExpGolomb`, `getSExpGolomb`)

The stream processor reads a sequence parameter set bit by bit, with a pointer to the
octet and a mask for the bit of it that comes next.

`getUExpGolomb` counts the zeros of a code and adds up what they stand for as it goes,
in an `int` that doubles with each of them. After thirty zeros it is as large as an
`int` gets; with one zero more the sum is that of a code with no zeros at all, and the
number read is 2³¹ too small. So all codes are read to their end, and the ones below
2³¹ - 1 as what they are.
-/

namespace MediaFramework

namespace ExpGolomb

/-- `p` and `mask`: the octet, and the bit of it that comes next. -/
structure BitReader where
  p : ℕ
  mask : ℕ
  deriving DecidableEq

/-- On to the next bit: `mask >>= 1`, and `++p` behind the last one of an octet. -/
def BitReader.next (r : BitReader) : BitReader :=
  let mask := r.mask >>> 1
  if mask = 0 then ⟨r.p + 1, 0x80⟩ else ⟨r.p, mask⟩

/-- What reads bits; it is not defined when an octet behind the last one is read. -/
abbrev BitRead := ReaderT (List UInt8) (StateT BitReader Option)

/-- `*p & mask`, and the reader is moved to the next bit. -/
def nextBit : BitRead Bool := fun bytes r =>
  bytes[r.p]?.map fun byte => (byte.toNat &&& r.mask != 0, r.next)

/-- The loop of `getBits`. -/
def getBitsLoop : ℕ → ℕ → BitRead ℕ
  | 0, bits => return bits
  | bitCount + 1, bits => do
    let bit ← nextBit
    getBitsLoop bitCount ((2 * bits + bit.toNat) % 2 ^ 32)

/-- `getBits` -/
def getBits (bitCount : ℕ) : BitRead ℕ := getBitsLoop bitCount 0

/-- An `int`. -/
def int32 (x : ℤ) : ℤ := Int.bmod x (2 ^ 32)

/-- An `unsigned int`. -/
def unsigned (x : ℤ) : ℕ := (x % 2 ^ 32).toNat

/-- What a zero does to `codeNum` and `factor`. -/
def golombStep (x : ℤ × ℤ) : ℤ × ℤ := (int32 (x.1 + x.2 >>> (1 : ℕ)), int32 (x.2 <<< (1 : ℕ)))

/-- The loop over the zeros of a code; with `codeNum` comes `leadingZeros`. There are
no more of them than there are bits. -/
def golombLoop : ℕ → ℤ × ℤ → ℕ → BitRead (ℤ × ℕ)
  | 0, _, _ => fun _ _ => none
  | fuel + 1, x, leadingZeros => do
    let bit ← nextBit
    if bit then return (x.1, leadingZeros)
    else golombLoop fuel (golombStep x) (leadingZeros + 1)

/-- The zeros of a code, as `getUExpGolomb` begins. -/
def golombPrefix : BitRead (ℤ × ℕ) := fun bytes => golombLoop (8 * bytes.length + 1) (0, 2) 0 bytes

/-- `getUExpGolomb` -/
def getUExpGolomb : BitRead ℕ := do
  let x ← golombPrefix
  if x.2 ≠ 0 then
    let bits ← getBits x.2
    return unsigned (x.1 + bits)
  else return unsigned x.1

/-- `getSExpGolomb` -/
def getSExpGolomb : BitRead ℤ := do
  let u ← getUExpGolomb
  let n : ℤ := ((u + 1) % 2 ^ 32 / 2 : ℕ)
  return if u % 2 = 0 then -n else n

/-! ## What is read where -/

/-- The reader at a bit. -/
def BitReader.atBit (i : ℕ) : BitReader := ⟨i / 8, 2 ^ (7 - i % 8)⟩

theorem next_atBit (i : ℕ) : (BitReader.atBit i).next = .atBit (i + 1) := by
  rw [BitReader.next, BitReader.atBit, BitReader.atBit]
  dsimp only
  rw [Nat.shiftRight_eq_div_pow, pow_one]
  rcases Nat.lt_or_ge (i % 8) 7 with hlt | hge
  · have hhalf : 2 ^ (7 - i % 8) / 2 = 2 ^ (7 - (i + 1) % 8) := by
      rw [show 7 - i % 8 = 7 - (i + 1) % 8 + 1 by omega, pow_succ,
        Nat.mul_div_cancel _ (by decide)]
    rw [hhalf, if_neg (Nat.two_pow_pos _).ne', show (i + 1) / 8 = i / 8 by omega]
  · -- the last bit of an octet
    rw [show i % 8 = 7 by omega, show (i + 1) % 8 = 0 by omega, show (i + 1) / 8 = i / 8 + 1 by omega]
    rfl

/-- From wherever these bits come next, `a` is read, and these bits only. -/
def Parses {α : Type} (m : BitRead α) (bits : List Bool) (a : α) : Prop :=
  ∀ bytes i rest, (bitsOf bytes).drop i = bits ++ rest →
    m bytes (.atBit i) = some (a, .atBit (i + bits.length))

theorem and_two_pow_bne_zero (n i : ℕ) : (n &&& 2 ^ i != 0) = n.testBit i := by
  rw [Nat.and_two_pow]
  rcases n.testBit i with _ | _
  · simp
  · simp

/-- The next bit of the list is read. -/
theorem parses_nextBit (b : Bool) : Parses nextBit [b] b := by
  intro bytes i rest h
  have hbit : (bitsOf bytes)[i]? = some b := by
    have := congrArg List.head? h
    rwa [List.head?_drop] at this
  rw [getElem?_bitsOf] at hbit
  obtain ⟨byte, hbyte, hb⟩ := Option.map_eq_some_iff.mp hbit
  rw [nextBit, next_atBit, BitReader.atBit, hbyte, Option.map_some, and_two_pow_bne_zero, hb]
  rfl

namespace Parses

variable {α β : Type} {m : BitRead α} {f : α → BitRead β} {xs ys : List Bool} {a : α} {b : β}

theorem pure (a : α) : Parses (Pure.pure a) [] a := fun _ _ _ _ => rfl

/-- **Sequencing.** What is read first is followed by what is read then. -/
theorem bind (hm : Parses m xs a) (hf : Parses (f a) ys b) : Parses (m >>= f) (xs ++ ys) b := by
  intro bytes i rest h
  rw [List.append_assoc] at h
  have hrest : (bitsOf bytes).drop (i + xs.length) = ys ++ rest := by
    rw [← List.drop_drop, h, List.drop_left]
  have hbind : (m >>= f) bytes (.atBit i) =
      (m bytes (.atBit i)).bind fun p => f p.1 bytes p.2 := rfl
  rw [hbind, hm bytes i (ys ++ rest) h, Option.bind_some, hf bytes _ rest hrest, List.length_append,
    Nat.add_assoc]

/-- What is read is determined by the bits, as there are octets that begin with them. -/
theorem unique {a' : α} (h : Parses m xs a) (h' : Parses m xs a') : a = a' := by
  obtain ⟨bytes, rest, hbytes⟩ := exists_bitsOf xs
  have hsame := (h bytes 0 rest hbytes).symm.trans (h' bytes 0 rest hbytes)
  rw [Option.some_inj, Prod.mk.injEq] at hsame
  exact hsame.1

end Parses

/-- Up to 32 bits make a number. -/
theorem parses_getBitsLoop (bits : List Bool) : ∀ (n k : ℕ), n < 2 ^ k → k + bits.length ≤ 32 →
    Parses (getBitsLoop bits.length n) bits (bits.foldl (fun n b => 2 * n + b.toNat) n) := by
  induction bits with
  | nil => exact fun n _ _ _ => Parses.pure n
  | cons b bits ih =>
    intro n k hn hk
    rw [List.length_cons] at hk
    have hnext : 2 * n + b.toNat < 2 ^ (k + 1) := by
      have := b.toNat_lt
      rw [pow_succ]
      omega
    have hword : 2 * n + b.toNat < 2 ^ 32 :=
      hnext.trans_le (Nat.pow_le_pow_right (by decide) (by omega))
    have hrest := ih (2 * n + b.toNat) (k + 1) hnext (by omega)
    rw [← Nat.mod_eq_of_lt hword] at hrest
    have hboth := Parses.bind (f := fun bit => getBitsLoop bits.length ((2 * n + bit.toNat) % 2 ^ 32))
      (parses_nextBit b) hrest
    rwa [Nat.mod_eq_of_lt hword] at hboth

theorem parses_getBits {bits : List Bool} (h : bits.length ≤ 32) :
    Parses (getBits bits.length) bits (natOfBits bits) :=
  parses_getBitsLoop bits 0 0 (by decide) (by omega)

/-- The zeros of a code, and the one behind them. -/
theorem parses_golombLoop (n : ℕ) : ∀ (fuel : ℕ) (x : ℤ × ℤ) (leadingZeros : ℕ), n < fuel →
    Parses (golombLoop fuel x leadingZeros) (List.replicate n false ++ [true])
      ((golombStep^[n] x).1, leadingZeros + n) := by
  induction n with
  | zero =>
    intro fuel x leadingZeros hfuel
    obtain ⟨fuel, rfl⟩ : ∃ k, fuel = k + 1 := ⟨fuel - 1, by omega⟩
    exact (parses_nextBit true).bind (Parses.pure _)
  | succ n ih =>
    intro fuel x leadingZeros hfuel
    obtain ⟨fuel, rfl⟩ : ∃ k, fuel = k + 1 := ⟨fuel - 1, by omega⟩
    have hrest := ih fuel (golombStep x) (leadingZeros + 1) (by omega)
    rw [Nat.add_assoc, Nat.add_comm 1 n, ← Function.iterate_succ_apply] at hrest
    exact (parses_nextBit false).bind hrest

theorem int32_of_lt {x : ℤ} (h : 0 ≤ x) (hlt : x < 2 ^ 31) : int32 x = x :=
  Int.bmod_eq_of_le_mul_two (by omega) (by omega)

/-- `codeNum` and `factor` behind the zeros, as long as they fit. -/
theorem golombStep_iterate {n : ℕ} (h : n < 30) : golombStep^[n] (0, 2) = (2 ^ n - 1, 2 ^ (n + 1)) := by
  induction n with
  | zero => rfl
  | succ n ih =>
    have hpow : (2 : ℤ) ^ (n + 1) ≤ 2 ^ 29 := pow_le_pow_right₀ (by decide) (by omega)
    have hpos : (0 : ℤ) < 2 ^ (n + 1) := pow_pos (by decide) _
    have hhalf : (2 : ℤ) ^ (n + 1) >>> (1 : ℕ) = 2 ^ n := by
      rw [Int.shiftRight_eq_div_pow, pow_succ]
      omega
    have hdouble : (2 : ℤ) ^ (n + 1) <<< (1 : ℕ) = 2 ^ (n + 2) := by
      rw [Int.shiftLeft_eq, pow_succ _ (n + 1)]
      rfl
    have hsum : (2 : ℤ) ^ n - 1 + 2 ^ n = 2 ^ (n + 1) - 1 := by
      rw [pow_succ]
      omega
    rw [Function.iterate_succ_apply', ih (by omega), golombStep, hhalf, hdouble, hsum,
      int32_of_lt (by omega) (by omega), int32_of_lt (pow_pos (by decide) _).le (by rw [pow_succ]; omega)]

/-- The last zero that fits makes `factor` too large, and the next one `codeNum`. -/
theorem golombStep_iterate_last :
    golombStep^[30] (0, 2) = (2 ^ 30 - 1, -2 ^ 31) ∧ golombStep^[31] (0, 2) = (-1, 0) := by
  have hlast : golombStep^[30] (0, 2) = (2 ^ 30 - 1, -2 ^ 31) := by
    rw [Function.iterate_succ_apply', golombStep_iterate (by decide)]
    decide
  refine ⟨hlast, ?_⟩
  rw [Function.iterate_succ_apply', hlast]
  decide

theorem codeNum_of_fits {n : ℕ} (h : n ≤ 30) : (golombStep^[n] (0, 2)).1 = 2 ^ n - 1 := by
  rcases Nat.lt_or_eq_of_le h with hlt | rfl
  · rw [golombStep_iterate hlt]
  · rw [golombStep_iterate_last.1]

theorem parses_golombPrefix (n : ℕ) :
    Parses golombPrefix (List.replicate n false ++ [true]) ((golombStep^[n] (0, 2)).1, n) := by
  intro bytes i rest h
  have hlen := congrArg List.length h
  rw [List.length_drop, length_bitsOf, List.length_append, List.length_append, List.length_replicate,
    List.length_singleton] at hlen
  have hloop := parses_golombLoop n (8 * bytes.length + 1) (0, 2) 0 (by omega) bytes i rest h
  rwa [Nat.zero_add] at hloop

/-- The number `getUExpGolomb` gives for the code of a number. -/
def ueRead (v : ℕ) : ℕ := if v < 2 ^ 31 - 1 then v else (v + 2 ^ 31) % 2 ^ 32

/-- What the digits behind the first one make of `codeNum`. -/
theorem unsigned_codeNum {v : ℕ} (h : v < 2 ^ 32 - 1) :
    unsigned ((golombStep^[golombZeros v] (0, 2)).1 + (v + 1 - 2 ^ golombZeros v : ℕ)) =
      ueRead v := by
  have hle := two_pow_golombZeros_le v
  have hlt := lt_two_pow_golombZeros v
  rw [unsigned, ueRead]
  split_ifs with hv
  · have hn : golombZeros v ≤ 30 := golombZeros_le (by omega)
    rw [codeNum_of_fits hn, Nat.cast_sub hle]
    push_cast
    omega
  · have hn : golombZeros v = 31 := by
      refine le_antisymm (golombZeros_le (by omega)) (Nat.le_of_not_lt fun hfew => hv ?_)
      have hpow := Nat.pow_le_pow_right (n := 2) (by decide) (show golombZeros v + 1 ≤ 31 by omega)
      omega
    rw [hn] at hle ⊢
    rw [golombStep_iterate_last.2]
    omega

/-- **Reading a code.** It is read to its end; the number is `ueRead`. -/
theorem parses_getUExpGolomb {v : ℕ} (h : v < 2 ^ 32 - 1) :
    Parses getUExpGolomb (ueBits v) (ueRead v) := by
  have hn : golombZeros v ≤ 31 := golombZeros_le (by omega)
  have hlt := lt_two_pow_golombZeros v
  rw [← unsigned_codeNum h, ueBits_eq, List.append_cons]
  refine Parses.bind (parses_golombPrefix (golombZeros v)) ?_
  by_cases hzero : golombZeros v = 0
  · have hv : v = 0 := by
      rw [hzero] at hlt
      omega
    subst hv
    exact Parses.pure _
  · rw [if_pos hzero]
    have hbits := @parses_getBits (msbBits (golombZeros v) (v + 1 - 2 ^ golombZeros v))
      (by rw [length_msbBits]; omega)
    rw [length_msbBits, natOfBits_msbBits, Nat.mod_eq_of_lt (by rw [pow_succ] at hlt; omega)] at hbits
    have hboth := hbits.bind (f := fun bits : ℕ => Pure.pure
      (unsigned ((golombStep^[golombZeros v] (0, 2)).1 + bits))) (Parses.pure _)
    rw [List.append_nil] at hboth
    exact hboth

/-- The number `getSExpGolomb` gives for the code of a number. -/
def seRead (k : ℤ) : ℤ := if |k| < 2 ^ 30 then k else if 0 < k then k - 2 ^ 30 else k + 2 ^ 30

theorem golombPlace_lt {k : ℤ} (h : |k| < 2 ^ 31) : golombPlace k < 2 ^ 32 - 1 := by
  rw [abs_lt] at h
  rw [golombPlace]
  split_ifs with hpos
  · omega
  · omega

theorem golombPlace_lt_iff (k : ℤ) : golombPlace k < 2 ^ 31 - 1 ↔ |k| < 2 ^ 30 := by
  rw [abs_lt, golombPlace]
  split_ifs with hpos
  · omega
  · omega

/-- The signed number of a place. -/
theorem seRead_eq {k : ℤ} (h : |k| < 2 ^ 31) :
    (if ueRead (golombPlace k) % 2 = 0 then -(((ueRead (golombPlace k) + 1) % 2 ^ 32 / 2 : ℕ) : ℤ)
      else ((ueRead (golombPlace k) + 1) % 2 ^ 32 / 2 : ℕ)) = seRead k := by
  have hplace : golombPlace k = if 0 < k then (2 * k - 1).toNat else (-2 * k).toNat := rfl
  rw [abs_lt] at h
  rw [seRead, ueRead]
  by_cases hsmall : |k| < 2 ^ 30
  · rw [if_pos hsmall, if_pos ((golombPlace_lt_iff k).mpr hsmall)]
    split_ifs at hplace ⊢ <;> omega
  · rw [if_neg hsmall, if_neg fun hlt => hsmall ((golombPlace_lt_iff k).mp hlt)]
    rw [abs_lt] at hsmall
    split_ifs at hplace ⊢ <;> omega

/-- **Reading a signed code.** It is read to its end; the number is `seRead`. -/
theorem parses_getSExpGolomb {k : ℤ} (h : |k| < 2 ^ 31) :
    Parses getSExpGolomb (seBits k) (seRead k) := by
  have hread := Parses.bind (f := fun u : ℕ =>
    (Pure.pure (if u % 2 = 0 then -(((u + 1) % 2 ^ 32 / 2 : ℕ) : ℤ)
      else ((u + 1) % 2 ^ 32 / 2 : ℕ)) : BitRead ℤ))
    (parses_getUExpGolomb (golombPlace_lt h)) (Parses.pure _)
  rwa [List.append_nil, seRead_eq h] at hread

/-- Codes of numbers below 2³¹ - 1 are read as these. -/
theorem parses_getUExpGolomb_of_lt {v : ℕ} (h : v < 2 ^ 31 - 1) : Parses getUExpGolomb (ueBits v) v := by
  have hread := parses_getUExpGolomb (v := v) (by omega)
  rwa [ueRead, if_pos h] at hread

/-- Signed numbers are read as they are exactly if their codes have at most thirty zeros. -/
theorem parses_getSExpGolomb_iff {k : ℤ} (h : |k| < 2 ^ 31) :
    Parses getSExpGolomb (seBits k) k ↔ |k| < 2 ^ 30 := by
  have hread := parses_getSExpGolomb h
  constructor
  · intro hsame
    have heq : k = seRead k := hsame.unique hread
    rw [seRead] at heq
    by_contra hlarge
    split_ifs at heq <;> omega
  · intro hsmall
    rwa [seRead, if_pos hsmall] at hread

end ExpGolomb

end MediaFramework
