import MediaFramework.Lib.BitNumber
import Mathlib.Tactic.SplitIfs

/-!
# The bits of a PMT (`vlSimpleBitstream`)

`get_bits` goes through the octets a piece at a time. Where one begins and some whole octets are
left they are taken at once, four of them as an `int`, whose sign gets into a result of 64 bits.
Places in the buffer are counted in an `unsigned long`, and the octets in an `int`.
-/

namespace MediaFramework

/-- How large an `unsigned long` is. -/
inductive DataModel : Type where
  | ilp32
  | lp64
  deriving DecidableEq

/-- The bits of an `unsigned long`. -/
def DataModel.longBits : DataModel → ℕ
  | .ilp32 => 32
  | .lp64 => 64

/-- `vlSimpleBitstream`, with the memory from `bs` on. -/
structure VlSimpleBitstream where
  bs : List UInt8
  bs_len : ℕ
  curr_bit_index : ℕ
  marked_bit_index : ℕ
  deriving DecidableEq

namespace VlSimpleBitstream

/-! ## The functions -/

/-- The constructor. -/
def create (m : DataModel) (buf : List UInt8) (len : ℕ) : VlSimpleBitstream where
  bs := buf
  bs_len := len * 8 % 2 ^ m.longBits
  curr_bit_index := 0
  marked_bit_index := 0

/-- `VL_VALUE_2_FROM_ARRAY`, `VL_VALUE_3_FROM_ARRAY` and `VL_VALUE_4_FROM_ARRAY` -/
def valueFromArray (bs : List UInt8) (byte k : ℕ) : Option ℕ :=
  if byte + k ≤ bs.length then some (ofOctets ((bs.drop byte).take k)) else none

/-- A number of 32 bits that is an `int`, as an `unsigned long long`. -/
def signExtend (v : ℕ) : ℕ := if v < 2 ^ 31 then v else v + (2 ^ 64 - 2 ^ 32)

/-- Whole octets are left, and no more than four. -/
def Aligned (stop curr : ℕ) : Prop :=
  curr % 8 = 0 ∧ (stop - curr) % 8 = 0 ∧ (stop - curr) / 8 ≤ 4

instance (stop curr : ℕ) : Decidable (Aligned stop curr) := inferInstanceAs (Decidable (_ ∧ _))

/-- The bits that a round of `get_bits` takes. -/
def roundBits (stop curr : ℕ) : ℕ :=
  if Aligned stop curr then
    if 32 ≤ stop - curr then 32
    else if 24 ≤ stop - curr then 24
    else if 16 ≤ stop - curr then 16
    else 8
  else
    -- up to the end of the octet
    min (stop - curr) (7 - curr % 8 + 1)

variable (s : VlSimpleBitstream)

/-- What a round of `get_bits` puts into the result. -/
def roundValue (stop curr : ℕ) : Option ℕ :=
  if Aligned stop curr then
    (valueFromArray s.bs (curr / 8) (roundBits stop curr / 8)).map fun v =>
      if 32 ≤ stop - curr then signExtend v else v
  else
    s.bs[curr / 8]?.map fun b =>
      b.toNat >>> (7 - curr % 8 + 1 - roundBits stop curr) &&& 0xFF >>> (8 - roundBits stop curr)

theorem roundBits_pos {stop curr : ℕ} (h : curr < stop) : 0 < roundBits stop curr := by
  rw [roundBits]
  split_ifs <;> omega

theorem roundBits_le {stop curr : ℕ} (h : curr < stop) : curr + roundBits stop curr ≤ stop := by
  rw [roundBits]
  split_ifs with haligned
  · omega
  · omega
  · omega
  · obtain ⟨-, hrest, -⟩ := haligned
    omega
  · omega

/-- The loop of `get_bits`, up to `stop`. -/
def getBitsFrom (stop out curr : ℕ) : Option (ℕ × ℕ) :=
  if hcurr : curr < stop then
    if s.bs_len ≤ curr then some (0, curr)
    -- `int byte`
    else if 2 ^ 31 ≤ curr / 8 then none
    else do
      let v ← s.roundValue stop curr
      getBitsFrom stop ((out <<< roundBits stop curr ||| v) % 2 ^ 64) (curr + roundBits stop curr)
  else
    some (out, curr)
termination_by stop - curr
decreasing_by
  have hpos := roundBits_pos hcurr
  omega

/-- `get_bits` -/
def getBits (m : DataModel) (n : ℕ) : Option (ℕ × VlSimpleBitstream) := do
  let (out, curr) ← s.getBitsFrom ((s.curr_bit_index + n) % 2 ^ m.longBits) 0 s.curr_bit_index
  return (out % 2 ^ m.longBits, { s with curr_bit_index := curr })

/-- `skip_bits` -/
def skipBits (m : DataModel) (n : ℕ) : VlSimpleBitstream :=
  { s with curr_bit_index := (s.curr_bit_index + n) % 2 ^ m.longBits }

/-- `mark` -/
def mark : VlSimpleBitstream := { s with marked_bit_index := s.curr_bit_index }

/-- `rewind`, to the mark. -/
def rewind : VlSimpleBitstream := { s with curr_bit_index := s.marked_bit_index }

/-! ## A round -/

/-- Where the last round begins: with the octet of the last bit, or with the whole octets in front
of the end. -/
def lastRound (p n : ℕ) : ℕ :=
  if (p + n - 1) / 8 = p / 8 then p
  else if (p + n) % 8 = 0 then 8 * ((p + 7) / 8)
  else 8 * ((p + n) / 8)

/-- The highest bit of four octets is set. -/
def Negative (bs : List UInt8) (p n : ℕ) : Prop :=
  n = 32 ∧ p % 8 = 0 ∧ ∃ b ∈ bs[p / 8]?, 128 ≤ b.toNat

variable {s} {stop curr out v p n : ℕ}

theorem le_lastRound (p n : ℕ) : p ≤ lastRound p n := by
  rw [lastRound]
  split_ifs <;> omega

/-- The last round. -/
theorem lastRound_of_eq (h : curr < stop) (heq : curr + roundBits stop curr = stop) :
    lastRound curr (stop - curr) = curr := by
  by_cases haligned : Aligned stop curr
  · obtain ⟨hcurr, hrest, -⟩ := haligned
    have hstop : (curr + (stop - curr)) % 8 = 0 := by omega
    rw [lastRound, if_pos hstop, show 8 * ((curr + 7) / 8) = curr by omega, ite_self]
  · rw [roundBits, if_neg haligned] at heq
    exact if_pos (by omega)

/-- One round in front of another. -/
theorem lastRound_of_lt (h : curr < stop) (h32 : stop - curr ≤ 32)
    (hlt : curr + roundBits stop curr < stop) :
    lastRound (curr + roundBits stop curr) (stop - (curr + roundBits stop curr)) =
      lastRound curr (stop - curr) := by
  have haligned : ¬Aligned stop curr := by
    intro haligned
    rw [roundBits, if_pos haligned] at hlt
    obtain ⟨-, hrest, -⟩ := haligned
    split_ifs at hlt <;> omega
  have hbits : roundBits stop curr = 8 - curr % 8 := by
    rw [roundBits, if_neg haligned] at hlt ⊢
    omega
  have hfree : ¬(curr % 8 = 0 ∧ stop % 8 = 0) := fun hz => haligned ⟨hz.1, by omega, by omega⟩
  rw [lastRound, lastRound]
  split_ifs <;> omega

/-- Octets that are adjacent are a number. -/
theorem valueFromArray_eq {bs : List UInt8} {k : ℕ} (hk : p + k ≤ bs.length) :
    valueFromArray bs p k = some (bitsAt bs (8 * p) (8 * k)) := by
  rw [valueFromArray, if_pos hk, bitsAt_octets hk, leading,
    if_pos (by rw [List.length_drop]; omega)]

theorem roundBits_of_aligned (h32 : stop - curr ≤ 32) (h : curr < stop)
    (haligned : Aligned stop curr) : roundBits stop curr = stop - curr := by
  obtain ⟨hcurr, hrest, hfour⟩ := haligned
  rw [roundBits, if_pos ⟨hcurr, hrest, hfour⟩]
  split_ifs <;> omega

/-- The number that the whole octets are. -/
theorem roundValue_of_aligned (h : curr < stop) (h32 : stop - curr ≤ 32)
    (hstop : stop ≤ 8 * s.bs.length) (haligned : Aligned stop curr) :
    s.roundValue stop curr = some
      (if 32 ≤ stop - curr then signExtend (bitsAt s.bs curr (stop - curr))
        else bitsAt s.bs curr (stop - curr)) := by
  obtain ⟨hcurr, hrest, -⟩ := id haligned
  have hplace : 8 * (curr / 8) = curr := by omega
  have hbits : 8 * ((stop - curr) / 8) = stop - curr := by omega
  rw [roundValue, if_pos haligned, roundBits_of_aligned h32 h haligned,
    valueFromArray_eq (by omega), hplace, hbits]
  rfl

/-- The bits of a piece of an octet. -/
theorem roundValue_of_not_aligned (h : curr < stop) (hstop : stop ≤ 8 * s.bs.length)
    (haligned : ¬Aligned stop curr) :
    s.roundValue stop curr = some (bitsAt s.bs curr (roundBits stop curr)) := by
  have hbits : roundBits stop curr ≤ 8 - curr % 8 := by
    rw [roundBits, if_neg haligned]
    omega
  have hbyte : s.bs[curr / 8]? = some (s.bs.get ⟨curr / 8, by omega⟩) := List.getElem?_eq_getElem _
  have hmask : ∀ k ≤ 8, 0xFF >>> (8 - k) = 2 ^ k - 1 := by decide
  rw [roundValue, if_neg haligned, hbyte, bitsAt_within hbyte (by omega), Option.map_some,
    hmask _ (by omega), Nat.and_two_pow_sub_one_eq_mod,
    show 7 - curr % 8 + 1 = 8 - curr % 8 by omega]

/-- The first of four octets has the highest bit. -/
theorem negative_iff {bs : List UInt8} (hp : p % 8 = 0) (hstop : p + 32 ≤ 8 * bs.length) :
    Negative bs p 32 ↔ 2 ^ 31 ≤ bitsAt bs p 32 := by
  have hbyte : bs[p / 8]? = some (bs.get ⟨p / 8, by omega⟩) := List.getElem?_eq_getElem _
  have hfirst : bitsAt bs p 8 = (bs.get ⟨p / 8, by omega⟩).toNat := by
    rw [bitsAt_within hbyte (by omega), hp, Nat.sub_zero, Nat.sub_self, Nat.shiftRight_zero]
    exact Nat.mod_eq_of_lt (UInt8.toNat_lt _)
  have hsplit : bitsAt bs p 32 = bitsAt bs p 8 * 2 ^ 24 + bitsAt bs (p + 8) 24 :=
    bitsAt_add (k := 8) (n := 24) hstop
  have hrest := bitsAt_lt bs (p + 8) 24
  rw [Negative, hbyte]
  simp only [true_and, hp, Option.mem_def, Option.some.injEq, exists_eq_left']
  constructor
  · intro hb
    omega
  · intro hnum
    omega

/-- A round puts the next bits together. -/
theorem roundValue_eq (h : curr < stop) (h32 : stop - curr ≤ 32) (hstop : stop ≤ 8 * s.bs.length)
    (hneg : ¬Negative s.bs curr (stop - curr)) :
    s.roundValue stop curr = some (bitsAt s.bs curr (roundBits stop curr)) := by
  by_cases haligned : Aligned stop curr
  · rw [roundValue_of_aligned h h32 hstop haligned, roundBits_of_aligned h32 h haligned]
    split_ifs with hfour
    · have hrest : stop - curr = 32 := by omega
      rw [hrest] at hneg ⊢
      rw [negative_iff haligned.1 (by omega)] at hneg
      rw [signExtend, if_pos (Nat.lt_of_not_le hneg)]
    · rfl
  · exact roundValue_of_not_aligned h hstop haligned

/-- With the highest bit of four octets, those of the upper half are set too. -/
theorem roundValue_of_negative (h : curr < stop) (hstop : stop ≤ 8 * s.bs.length)
    (hneg : Negative s.bs curr (stop - curr)) :
    roundBits stop curr = 32 ∧
      s.roundValue stop curr = some (bitsAt s.bs curr 32 + (2 ^ 64 - 2 ^ 32)) := by
  obtain ⟨hrest, hcurr, -⟩ := id hneg
  have haligned : Aligned stop curr := ⟨hcurr, by omega, by omega⟩
  have hbits := roundBits_of_aligned (Nat.le_of_eq hrest) h haligned
  rw [hrest] at hneg hbits
  have hlarge := (negative_iff hcurr (by omega)).mp hneg
  refine ⟨hbits, ?_⟩
  rw [roundValue_of_aligned h (by omega) hstop haligned, hrest, if_pos (Nat.le_refl 32), signExtend,
    if_neg (Nat.not_lt.mpr hlarge)]

/-! ## The loop -/

theorem getBitsFrom_of_le (h : stop ≤ curr) : s.getBitsFrom stop out curr = some (out, curr) := by
  rw [getBitsFrom, dif_neg (Nat.not_lt.mpr h)]

/-- **The loop** puts all the bits together. -/
theorem getBitsFrom_eq (s : VlSimpleBitstream) (stop out curr : ℕ) (h32 : stop - curr ≤ 32) (hstop : stop ≤ 8 * s.bs.length)
    (hcurr : curr < stop) (hneg : ¬Negative s.bs curr (stop - curr))
    (hlen : lastRound curr (stop - curr) < s.bs_len)
    (hint : lastRound curr (stop - curr) / 8 < 2 ^ 31) (hout : out < 2 ^ (32 - (stop - curr))) :
    s.getBitsFrom stop out curr =
      some (out * 2 ^ (stop - curr) + bitsAt s.bs curr (stop - curr), stop) := by
  induction hk : stop - curr using Nat.strong_induction_on generalizing out curr with
  | _ k ih =>
    subst hk
    have hpos := roundBits_pos hcurr
    have hle := roundBits_le hcurr
    have hfront := le_lastRound curr (stop - curr)
    rw [getBitsFrom, dif_pos hcurr, if_neg (by omega), if_neg (by omega),
      roundValue_eq hcurr h32 hstop hneg, Option.bind_eq_bind, Option.bind_some]
    obtain ⟨j, hj⟩ : ∃ j, j = roundBits stop curr := ⟨_, rfl⟩
    rw [← hj] at hpos hle ⊢
    have hbits := bitsAt_lt s.bs curr j
    have hsum : out * 2 ^ j + bitsAt s.bs curr j < 2 ^ (32 - (stop - (curr + j))) := by
      have hexp : 32 - (stop - (curr + j)) = 32 - (stop - curr) + j := by omega
      rw [hexp, Nat.pow_add]
      calc out * 2 ^ j + bitsAt s.bs curr j < out * 2 ^ j + 2 ^ j := Nat.add_lt_add_left hbits _
        _ = (out + 1) * 2 ^ j := by ring
        _ ≤ 2 ^ (32 - (stop - curr)) * 2 ^ j := Nat.mul_le_mul_right _ hout
    have hsmall : out * 2 ^ j + bitsAt s.bs curr j < 2 ^ 64 :=
      hsum.trans_le (Nat.pow_le_pow_right (by decide) (by omega))
    rw [← Nat.shiftLeft_add_eq_or_of_lt hbits, Nat.shiftLeft_eq, Nat.mod_eq_of_lt hsmall]
    have hsplit : stop - curr = j + (stop - (curr + j)) := by omega
    have hadd : bitsAt s.bs curr (j + (stop - (curr + j))) = bitsAt s.bs curr j *
        2 ^ (stop - (curr + j)) + bitsAt s.bs (curr + j) (stop - (curr + j)) := bitsAt_add (by omega)
    rw [← hsplit] at hadd
    have hresult : (out * 2 ^ j + bitsAt s.bs curr j) * 2 ^ (stop - (curr + j)) +
        bitsAt s.bs (curr + j) (stop - (curr + j)) =
        out * 2 ^ (stop - curr) + bitsAt s.bs curr (stop - curr) := by
      rw [hadd, hsplit, Nat.pow_add]
      ring
    rw [← hresult]
    rcases Nat.eq_or_lt_of_le hle with hend | hlt
    · rw [hend, getBitsFrom_of_le (Nat.le_refl stop), Nat.sub_self, Nat.pow_zero, Nat.mul_one,
        bitsAt_zero, Nat.add_zero]
    · have hlast := lastRound_of_lt hcurr h32 (hj ▸ hlt)
      rw [← hj] at hlast
      exact ih _ (by omega) _ _ (by omega) hlt (fun hneg => by have := hneg.1; omega)
        (hlast ▸ hlen) (hlast ▸ hint) hsum rfl

/-- It comes to the end only if all rounds are in the buffer's length and in an `int`. -/
theorem lastRound_of_getBitsFrom (h32 : stop - curr ≤ 32) (hcurr : curr < stop)
    (hget : s.getBitsFrom stop out curr = some (v, stop)) :
    lastRound curr (stop - curr) < s.bs_len ∧ lastRound curr (stop - curr) / 8 < 2 ^ 31 := by
  induction hk : stop - curr using Nat.strong_induction_on generalizing out curr with
  | _ k ih =>
    subst hk
    have hpos := roundBits_pos hcurr
    rw [getBitsFrom, dif_pos hcurr] at hget
    split_ifs at hget with hlen hint
    · obtain ⟨-, heq⟩ := Prod.mk.inj (Option.some.inj hget)
      omega
    · obtain ⟨value, -, hget⟩ := Option.bind_eq_some_iff.mp hget
      rcases Nat.eq_or_lt_of_le (roundBits_le hcurr) with hend | hlt
      · rw [lastRound_of_eq hcurr hend]
        exact ⟨Nat.lt_of_not_le hlen, Nat.lt_of_not_le hint⟩
      · rw [← lastRound_of_lt hcurr h32 hlt]
        exact ih _ (by omega) (by omega) hlt hget rfl

/-- At the end nothing is read. -/
theorem getBitsFrom_past (hcurr : curr < stop) (hlen : s.bs_len ≤ curr) :
    s.getBitsFrom stop out curr = some (0, curr) := by
  rw [getBitsFrom, dif_pos hcurr, if_pos hlen]

/-- At an end between two rounds, what was read is lost. -/
theorem getBitsFrom_short (hmem : s.bs_len ≤ 8 * s.bs.length) (hlen : s.bs_len % 8 = 0)
    (h32 : stop - curr ≤ 32) (hcurr : curr < stop) (hle : curr ≤ s.bs_len)
    (hshort : s.bs_len ≤ lastRound curr (stop - curr)) (hint : s.bs_len < 2 ^ 34) :
    s.getBitsFrom stop out curr = some (0, s.bs_len) := by
  induction hk : stop - curr using Nat.strong_induction_on generalizing out curr with
  | _ k ih =>
    rcases Nat.eq_or_lt_of_le hle with heq | hlt
    · rw [getBitsFrom_past hcurr heq.ge, heq]
    · have hpos := roundBits_pos hcurr
      have hnext : curr + roundBits stop curr < stop := by
        refine Nat.lt_of_le_of_ne (roundBits_le hcurr) fun hend => ?_
        rw [lastRound_of_eq hcurr hend] at hshort
        omega
      have haligned : ¬Aligned stop curr := fun haligned => by
        rw [roundBits_of_aligned h32 hcurr haligned] at hnext
        omega
      have hbits : roundBits stop curr ≤ 8 - curr % 8 := by
        rw [roundBits, if_neg haligned]
        omega
      have hbyte : s.bs[curr / 8]? = some (s.bs.get ⟨curr / 8, by omega⟩) :=
        List.getElem?_eq_getElem _
      rw [getBitsFrom, dif_pos hcurr, if_neg (by omega), if_neg (by omega), roundValue,
        if_neg haligned, hbyte]
      exact ih _ (by omega) (by omega) hnext (by omega) (lastRound_of_lt hcurr h32 hnext ▸ hshort)
        rfl

/-! ## What is read -/

/-- The stream of a buffer, at one of its bits. -/
def atBit (m : DataModel) (buf : List UInt8) (p : ℕ) : VlSimpleBitstream :=
  { create m buf buf.length with curr_bit_index := p }

/-- The next bits are read, and no octet outside the buffer. -/
def ReadsNext (m : DataModel) (buf : List UInt8) (p n : ℕ) : Prop :=
  (atBit m buf p).getBits m n = some (bitsAt buf p n, atBit m buf (p + n))

/-- The places of the rounds can be counted. -/
def Counted (m : DataModel) (buf : List UInt8) (p n : ℕ) : Prop :=
  p + n < 2 ^ m.longBits ∧ lastRound p n < buf.length * 8 % 2 ^ m.longBits ∧
    lastRound p n / 8 < 2 ^ 31

instance (m : DataModel) (buf : List UInt8) (p n : ℕ) : Decidable (Counted m buf p n) :=
  inferInstanceAs (Decidable (_ ∧ _))

/-- The sign of four octets gets into the result. -/
def SignExtended (m : DataModel) (buf : List UInt8) (p n : ℕ) : Prop :=
  m = .lp64 ∧ Negative buf p n

variable {m : DataModel} {buf : List UInt8}

theorem two_pow_le_longBits (m : DataModel) : 2 ^ 32 ≤ 2 ^ m.longBits := by
  cases m <;> decide

theorem getBits_of_loop (hp : p + n < 2 ^ m.longBits)
    (h : (atBit m buf p).getBitsFrom (p + n) 0 p = some (v, curr)) :
    (atBit m buf p).getBits m n = some (v % 2 ^ m.longBits, atBit m buf curr) := by
  have hstop : (atBit m buf p).curr_bit_index = p := rfl
  rw [getBits, hstop, Nat.mod_eq_of_lt hp, h]
  rfl

/-- With the sign, the result is right if it has no more than 32 bits. -/
theorem getBits_of_negative (hfits : p + n ≤ 8 * buf.length) (hneg : Negative buf p n)
    (hcount : Counted m buf p n) :
    (atBit m buf p).getBits m n =
      some ((bitsAt buf p 32 + (2 ^ 64 - 2 ^ 32)) % 2 ^ m.longBits, atBit m buf (p + n)) := by
  obtain ⟨rfl, hp, -⟩ := id hneg
  obtain ⟨hlong, hlen, hint⟩ := hcount
  have hlt : p < p + 32 := Nat.lt_add_of_pos_right (by decide)
  have hrest : p + 32 - p = 32 := Nat.add_sub_cancel_left p 32
  obtain ⟨hbits, hvalue⟩ := roundValue_of_negative (s := atBit m buf p) hlt hfits (by
    rw [hrest]
    exact hneg)
  have hlast : lastRound p 32 = p := hrest ▸ lastRound_of_eq hlt (by rw [hbits])
  rw [hlast] at hlen hint
  have hlen : ¬(atBit m buf p).bs_len ≤ p := Nat.not_le.mpr hlen
  have hbound := bitsAt_lt buf p 32
  apply getBits_of_loop hlong
  rw [getBitsFrom, dif_pos hlt, if_neg hlen, if_neg (Nat.not_le.mpr hint), hvalue,
    Option.bind_eq_bind, Option.bind_some, hbits, getBitsFrom_of_le (Nat.le_refl _),
    Nat.zero_shiftLeft, Nat.zero_or]
  refine congrArg (fun v => some (v, p + 32)) (Nat.mod_eq_of_lt ?_)
  change bitsAt buf p 32 + (2 ^ 64 - 2 ^ 32) < 2 ^ 64
  omega

/-- **When the next bits are read.** -/
theorem getBits_iff (hn : 1 ≤ n) (hn' : n ≤ 32) (hfits : p + n ≤ 8 * buf.length) :
    ReadsNext m buf p n ↔ Counted m buf p n ∧ ¬SignExtended m buf p n := by
  have hlt : p < p + n := Nat.lt_add_of_pos_right hn
  have hrest : p + n - p = n := Nat.add_sub_cancel_left p n
  have hsmall : bitsAt buf p n < 2 ^ m.longBits :=
    ((bitsAt_lt buf p n).trans_le (Nat.pow_le_pow_right (by decide) hn')).trans_le
      (two_pow_le_longBits m)
  constructor
  · intro h
    have hcount : Counted m buf p n := by
      rw [ReadsNext, getBits] at h
      obtain ⟨⟨v, curr⟩, hloop, hresult⟩ := Option.bind_eq_some_iff.mp h
      obtain ⟨-, hcurr⟩ := Prod.mk.inj (Option.some.inj hresult)
      obtain rfl : curr = p + n := congrArg curr_bit_index hcurr
      change (atBit m buf p).getBitsFrom ((p + n) % 2 ^ m.longBits) 0 p = _ at hloop
      rcases Nat.lt_or_ge (p + n) (2 ^ m.longBits) with hlong | hlong
      · rw [Nat.mod_eq_of_lt hlong] at hloop
        have hlast := lastRound_of_getBitsFrom (by omega) hlt hloop
        rw [hrest] at hlast
        exact ⟨hlong, hlast⟩
      · -- the end of the bits is not in front of them
        have hstop : (p + n) % 2 ^ m.longBits ≤ p := by
          have := two_pow_le_longBits m
          rw [Nat.mod_eq_sub_mod hlong]
          have := Nat.mod_le (p + n - 2 ^ m.longBits) (2 ^ m.longBits)
          omega
        rw [getBitsFrom_of_le hstop] at hloop
        have := (Prod.mk.inj (Option.some.inj hloop)).2
        omega
    refine ⟨hcount, ?_⟩
    rintro ⟨rfl, hneg⟩
    obtain ⟨rfl, -⟩ := id hneg
    have hvalue := (Option.some.inj (h.symm.trans (getBits_of_negative hfits hneg hcount)))
    have hbound := bitsAt_lt buf p 32
    have heq : bitsAt buf p 32 = (bitsAt buf p 32 + (2 ^ 64 - 2 ^ 32)) % 2 ^ 64 :=
      (Prod.mk.inj hvalue).1
    omega
  · rintro ⟨hcount, hsign⟩
    by_cases hneg : Negative buf p n
    · have hm : m = .ilp32 := by
        cases m with
        | ilp32 => rfl
        | lp64 => exact absurd ⟨rfl, hneg⟩ hsign
      rw [ReadsNext, getBits_of_negative hfits hneg hcount, hm]
      obtain ⟨rfl, -⟩ := hneg
      have hvalue : (bitsAt buf p 32 + (2 ^ 64 - 2 ^ 32)) % 2 ^ 32 = bitsAt buf p 32 := by
        have hbound := bitsAt_lt buf p 32
        omega
      exact congrArg (fun v => some (v, atBit .ilp32 buf (p + 32))) hvalue
    · obtain ⟨hlong, hlen, hint⟩ := hcount
      have hloop := getBitsFrom_eq (atBit m buf p) (p + n) 0 p (hrest.symm ▸ hn') hfits hlt
        (hrest.symm ▸ hneg) (hrest.symm ▸ hlen) (hrest.symm ▸ hint) (Nat.two_pow_pos _)
      rw [hrest, Nat.zero_mul, Nat.zero_add] at hloop
      rw [ReadsNext, getBits_of_loop hlong hloop]
      exact congrArg (fun v => some (v, atBit m buf (p + n))) (Nat.mod_eq_of_lt hsmall)

theorem getBits_iff_pidOfPmt :
    ReadsNext .lp64 [0xE1, 0x23, 0xF0] 3 13 ↔
      Counted .lp64 [0xE1, 0x23, 0xF0] 3 13 ∧ ¬SignExtended .lp64 [0xE1, 0x23, 0xF0] 3 13 :=
  getBits_iff (by decide) (by decide) (by decide)

/-- Four octets, the first one with its highest bit. -/
theorem not_readsNext_fourOctets : ¬ReadsNext .lp64 [0x80, 0, 0, 0] 0 32 := by
  have hneg : Negative [0x80, 0, 0, 0] 0 32 := ⟨rfl, rfl, 0x80, rfl, by decide⟩
  have hcount : Counted .lp64 [0x80, 0, 0, 0] 0 32 := by decide
  rw [ReadsNext, getBits_of_negative (by decide) hneg hcount]
  intro h
  have hvalue := (Prod.mk.inj (Option.some.inj h)).1
  revert hvalue
  decide

end VlSimpleBitstream

end MediaFramework
