import Mathlib.Data.BitVec

/-!
# Cyclic redundancy checks

A check of 32 bits, the highest bit first: the register is shifted by a bit at a time, and the
polynomial is added when a one is shifted out. Such a shift is linear (`shift_xor`), and nothing but
zero is shifted to zero if the polynomial has its lowest bit.

* `crcByte_eq` — a byte at a time with a table of what becomes of the highest byte;
* `crc_append_eq_zero_iff` — the register is zero behind a message and four more bytes exactly when
  these are the check of the message.
-/

namespace MediaFramework

namespace Crc

variable (p : BitVec 32)

/-- The register is shifted by a bit. -/
def shiftOne (x : BitVec 32) : BitVec 32 := if x.msb then x <<< 1 ^^^ p else x <<< 1

/-- It is shifted by some bits. -/
def shift : ℕ → BitVec 32 → BitVec 32
  | 0, x => x
  | n + 1, x => shift n (shiftOne p x)

/-- A byte, at the lowest place. -/
def low (b : UInt8) : BitVec 32 := BitVec.ofNat 32 b.toNat

/-- A byte is taken in. -/
def crcByte (x : BitVec 32) (b : UInt8) : BitVec 32 := shift p 8 (x ^^^ low b <<< 24)

/-- The register behind some bytes. -/
def crc (x : BitVec 32) (bytes : List UInt8) : BitVec 32 := bytes.foldl (crcByte p) x

/-- The number that bytes make, the highest first. They do not overlap. -/
def word (bytes : List UInt8) : BitVec 32 := bytes.foldl (fun w b => w <<< 8 ^^^ low b) 0#32

/-- What becomes of the highest byte, when it is shifted out. -/
def table (i : BitVec 32) : BitVec 32 := shift p 8 (i <<< 24)

variable {p}

theorem xor_cancel (x y z : BitVec 32) : x ^^^ z ^^^ (y ^^^ z) = x ^^^ y := by
  rw [BitVec.xor_assoc x z, BitVec.xor_comm y z, ← BitVec.xor_assoc z z, BitVec.xor_self,
    BitVec.zero_xor]

/-- **A shift is linear.** -/
theorem shiftOne_xor (x y : BitVec 32) : shiftOne p (x ^^^ y) = shiftOne p x ^^^ shiftOne p y := by
  rw [shiftOne, shiftOne, shiftOne, BitVec.msb_xor, BitVec.shiftLeft_xor_distrib]
  cases x.msb <;> cases y.msb
  · rfl
  · exact BitVec.xor_assoc _ _ _
  · show x <<< 1 ^^^ y <<< 1 ^^^ p = x <<< 1 ^^^ p ^^^ y <<< 1
    rw [BitVec.xor_assoc, BitVec.xor_comm (y <<< 1), ← BitVec.xor_assoc]
  · exact (xor_cancel _ _ p).symm

theorem shift_xor (n : ℕ) (x y : BitVec 32) :
    shift p n (x ^^^ y) = shift p n x ^^^ shift p n y := by
  induction n generalizing x y with
  | zero => rfl
  | succ n ih => rw [shift, shiftOne_xor, ih, shift, shift]

theorem shift_add (m n : ℕ) (x : BitVec 32) : shift p (m + n) x = shift p n (shift p m x) := by
  induction m generalizing x with
  | zero => rw [Nat.zero_add, shift]
  | succ m ih => rw [Nat.succ_add, shift, ih, shift]

/-- As long as only zeros are shifted out, it is a plain shift. -/
theorem shift_eq_shiftLeft {n : ℕ} {x : BitVec 32} (hx : x.toNat < 2 ^ (32 - n)) (hn : n ≤ 32) :
    shift p n x = x <<< n := by
  induction n generalizing x with
  | zero => rw [shift, BitVec.shiftLeft_zero]
  | succ n ih =>
    have hpow : 2 ^ (32 - n) = 2 * 2 ^ (32 - (n + 1)) := by
      rw [← Nat.pow_succ']
      congr 1
      omega
    have hle : 2 ^ (32 - n) ≤ 2 ^ 32 := Nat.pow_le_pow_right (by decide) (Nat.sub_le 32 n)
    have hmsb : x.msb = false := by
      rw [BitVec.msb_eq_decide]
      exact decide_eq_false (by omega)
    have hone : (x <<< 1).toNat = 2 * x.toNat := by
      rw [BitVec.toNat_shiftLeft, Nat.shiftLeft_eq, Nat.mod_eq_of_lt (by omega)]
      omega
    rw [shift, shiftOne, hmsb, if_neg Bool.false_ne_true, ih (by omega) (by omega),
      ← BitVec.shiftLeft_add, Nat.add_comm]

/-- **Nothing but zero** is shifted to zero. -/
theorem shift_eq_zero_iff (hp : p.getLsbD 0 = true) (n : ℕ) (x : BitVec 32) :
    shift p n x = 0#32 ↔ x = 0#32 := by
  induction n generalizing x with
  | zero => exact Iff.rfl
  | succ n ih =>
    rw [shift, ih, shiftOne]
    split_ifs with hmsb
    · refine iff_of_false (fun hzero => ?_) fun hx => ?_
      · have hbit : (x <<< 1 ^^^ p).getLsbD 0 = false := by
          rw [hzero]
          rfl
        rw [BitVec.getLsbD_xor, BitVec.getLsbD_shiftLeft, hp] at hbit
        cases hbit
      · rw [hx] at hmsb
        cases hmsb
    · rw [BitVec.msb_eq_decide, decide_eq_true_eq] at hmsb
      refine ⟨fun hzero => ?_, fun hx => by rw [hx]; rfl⟩
      have hnat := congrArg BitVec.toNat hzero
      refine BitVec.eq_of_toNat_eq ?_
      simp at hnat ⊢
      omega

theorem toNat_low (b : UInt8) : (low b).toNat = b.toNat := by
  have := b.toNat_lt
  rw [low, BitVec.toNat_ofNat, Nat.mod_eq_of_lt (by omega)]

/-- A byte can be taken in before the shifts that come first. -/
theorem shift_low {n k : ℕ} (hk : k + n = 24) (b : UInt8) :
    shift p n (low b <<< k) = low b <<< 24 := by
  have hb := b.toNat_lt
  have hpow : 2 ^ 8 * 2 ^ k = 2 ^ (32 - n) := by
    rw [← Nat.pow_add]
    congr 1
    omega
  have hle : 2 ^ (32 - n) ≤ 2 ^ 32 := Nat.pow_le_pow_right (by decide) (Nat.sub_le 32 n)
  have hmul : b.toNat * 2 ^ k < 2 ^ 8 * 2 ^ k := Nat.mul_lt_mul_of_pos_right hb (Nat.two_pow_pos k)
  rw [shift_eq_shiftLeft _ (by omega), ← BitVec.shiftLeft_add, hk]
  rw [BitVec.toNat_shiftLeft, toNat_low, Nat.shiftLeft_eq, Nat.mod_eq_of_lt (by omega)]
  omega

/-- A byte, with what comes after it. -/
theorem shift_crcByte (x y : BitVec 32) (b : UInt8) :
    shift p 8 (x ^^^ (low b <<< 24 ^^^ y)) = crcByte p x b ^^^ shift p 8 y := by
  rw [← BitVec.xor_assoc, shift_xor]
  rfl

/-- The register behind four more bytes. -/
theorem crc_four (x : BitVec 32) (a b c d : UInt8) :
    crc p x [a, b, c, d] = shift p 32 (x ^^^ word [a, b, c, d]) := by
  have hword : word [a, b, c, d] =
      low a <<< 24 ^^^ (low b <<< 16 ^^^ (low c <<< 8 ^^^ low d)) := by
    simp only [word, List.foldl_cons, List.foldl_nil, BitVec.zero_shiftLeft, BitVec.zero_xor,
      BitVec.shiftLeft_xor_distrib, ← BitVec.shiftLeft_add, BitVec.xor_assoc]
  have hb : shift p 8 (low b <<< 16) = low b <<< 24 := shift_low rfl b
  have hc : shift p 8 (shift p 8 (low c <<< 8)) = low c <<< 24 := by
    rw [← shift_add]
    exact shift_low rfl c
  have hd : shift p 8 (shift p 8 (shift p 8 (low d))) = low d <<< 24 := by
    have hshift := shift_low (p := p) (n := 24) (k := 0) rfl d
    rwa [BitVec.shiftLeft_zero, show 24 = 8 + 8 + 8 from rfl, shift_add, shift_add] at hshift
  calc crc p x [a, b, c, d]
      = shift p 8 (crcByte p (crcByte p (crcByte p x a) b) c ^^^ low d <<< 24) := rfl
    _ = shift p 8 (shift p 8 (crcByte p (crcByte p x a) b ^^^
          (low c <<< 24 ^^^ shift p 8 (shift p 8 (low d))))) := by rw [shift_crcByte, hd]
    _ = shift p 8 (shift p 8 (shift p 8 (crcByte p x a ^^^
          (low b <<< 24 ^^^ shift p 8 (low c <<< 8 ^^^ low d))))) := by
        rw [shift_crcByte (crcByte p x a), shift_xor 8 (low c <<< 8), shift_xor 8 (shift p 8 _), hc]
    _ = shift p 8 (shift p 8 (shift p 8 (shift p 8 (x ^^^
          (low a <<< 24 ^^^ (low b <<< 16 ^^^ (low c <<< 8 ^^^ low d))))))) := by
        rw [shift_crcByte x, shift_xor 8 (low b <<< 16), hb]
    _ = shift p 32 (x ^^^ word [a, b, c, d]) := by
        rw [hword, ← shift_add, ← shift_add, ← shift_add]

/-- **The check of a message.** The register is zero behind the message and four more bytes just if
these are what it was before them. -/
theorem crc_append_eq_zero_iff (hp : p.getLsbD 0 = true) (x : BitVec 32) {xs ys : List UInt8}
    (hys : ys.length = 4) : crc p x (xs ++ ys) = 0#32 ↔ crc p x xs = word ys := by
  match ys, hys with
  | [a, b, c, d], _ =>
    have happend : crc p x (xs ++ [a, b, c, d]) = crc p (crc p x xs) [a, b, c, d] :=
      List.foldl_append
    rw [happend, crc_four, shift_eq_zero_iff hp, BitVec.xor_eq_zero_iff]

/-- All but the highest byte. -/
def rest (x : BitVec 32) : BitVec 32 := (x.setWidth 24).setWidth 32

theorem highest_xor_rest (x : BitVec 32) : x >>> 24 <<< 24 ^^^ rest x = x := by
  refine BitVec.eq_of_getLsbD_eq fun i hi => ?_
  rw [rest, BitVec.getLsbD_xor, BitVec.getLsbD_shiftLeft, BitVec.getLsbD_ushiftRight,
    BitVec.getLsbD_setWidth, BitVec.getLsbD_setWidth]
  by_cases h : i < 24
  · simp [h, hi]
  · simp [h, hi, show 24 + (i - 24) = i by omega]

theorem shift_rest (x : BitVec 32) : shift p 8 (rest x) = x <<< 8 := by
  have hlt : (rest x).toNat < 2 ^ (32 - 8) := by
    rw [rest, BitVec.toNat_setWidth, BitVec.toNat_setWidth]
    omega
  rw [shift_eq_shiftLeft hlt (by decide)]
  refine BitVec.eq_of_getLsbD_eq fun i hi => ?_
  rw [rest, BitVec.getLsbD_shiftLeft, BitVec.getLsbD_shiftLeft, BitVec.getLsbD_setWidth,
    BitVec.getLsbD_setWidth]
  simp [show i - 8 < 24 by omega, show i - 8 < 32 by omega]

/-- **A byte at a time.** The highest byte and the one that is taken in are looked up. -/
theorem crcByte_eq (x : BitVec 32) (b : UInt8) :
    crcByte p x b = x <<< 8 ^^^ table p (x >>> 24 ^^^ low b) := by
  calc shift p 8 (x ^^^ low b <<< 24)
      = shift p 8 (rest x ^^^ (x >>> 24 ^^^ low b) <<< 24) := by
        rw [BitVec.shiftLeft_xor_distrib, ← BitVec.xor_assoc, BitVec.xor_comm (rest x),
          highest_xor_rest]
    _ = x <<< 8 ^^^ table p (x >>> 24 ^^^ low b) := by rw [shift_xor, shift_rest, table]

/-- The same when nothing is taken in. -/
theorem shift_eight (x : BitVec 32) : shift p 8 x = x <<< 8 ^^^ table p (x >>> 24) := by
  have hzero := crcByte_eq (p := p) x 0
  rw [crcByte, show low 0 = 0#32 from rfl, BitVec.zero_shiftLeft, BitVec.xor_zero,
    BitVec.xor_zero] at hzero
  exact hzero

/-- The loop by which a table is made: the bit that is shifted out is looked at with a mask. -/
theorem foldl_shiftOne (n : ℕ) (x : BitVec 32) :
    (List.range n).foldl
      (fun x _ => if x &&& 0x80000000#32 ≠ 0#32 then x <<< 1 ^^^ p else x <<< 1) x =
        shift p n x := by
  have hone : ∀ x : BitVec 32,
      (if x &&& 0x80000000#32 ≠ 0#32 then x <<< 1 ^^^ p else x <<< 1) = shiftOne p x := by
    intro x
    have hmsb : x &&& 0x80000000#32 ≠ 0#32 ↔ x.msb = true := by
      rw [show 0x80000000#32 = BitVec.twoPow 32 31 from rfl, BitVec.and_twoPow,
        BitVec.msb_eq_getLsbD_last]
      cases x.getLsbD (32 - 1) <;> simp
    rw [shiftOne]
    exact if_congr hmsb rfl rfl
  rw [funext fun x => funext fun _ => hone x]
  induction n with
  | zero => rfl
  | succ n ih =>
    rw [List.range_succ, List.foldl_concat, ih, shift_add]
    rfl

end Crc

end MediaFramework
