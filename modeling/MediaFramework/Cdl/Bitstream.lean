import MediaFramework.Lib.BitNumber
import Mathlib.Tactic.SplitIfs

/-!
# The bits of a code version table (`SimpleBitstream`)

A table is read as a stream of bits. `get_bits` stops at the end of the buffer, and then its result
is 0; `skip_bits` goes on past the end. So whatever is asked for, nothing outside the buffer is read.

What is read is followed by a place in the buffer, `Near`: up to the end it is where the stream is,
and beyond it only says that the stream is not inside any more.
-/

namespace MediaFramework

/-- `SimpleBitstream`: its buffer, and the bit that comes next. -/
structure SimpleBitstream where
  bs : List UInt8
  curr_bit_index : ℕ

/-- What reads a table: it is not defined when memory outside the buffers is used. -/
abbrev CvtRead := StateT SimpleBitstream Option

namespace SimpleBitstream

/-- The loop of `get_bits`. Of more than 32 bits no caller uses any but the last 32. -/
def getBits : ℕ → ℕ → SimpleBitstream → Option (ℕ × SimpleBitstream)
  | 0, out, b => some (out, b)
  | n + 1, out, b =>
    if 8 * b.bs.length ≤ b.curr_bit_index then some (0, b)
    else match b.bs[b.curr_bit_index / 8]? with
      | none => none
      | some byte => getBits n (out <<< 1 ||| (byte.toNat >>> (7 - b.curr_bit_index % 8) &&& 1))
          { b with curr_bit_index := b.curr_bit_index + 1 }

end SimpleBitstream

/-- `get_bits` -/
def get_bits (n : ℕ) : CvtRead ℕ := fun b => b.getBits n 0

/-- `skip_bits` -/
def skip_bits (n : ℕ) : CvtRead Unit :=
  fun b => some ((), { b with curr_bit_index := b.curr_bit_index + n })

/-- `get_pos` -/
def get_pos : CvtRead ℕ := fun b => some (b.curr_bit_index, b)

/-- Characters, one by one. -/
def get_chars : ℕ → CvtRead (List UInt8)
  | 0 => return []
  | n + 1 => do
    let c ← get_bits 8
    let cs ← get_chars n
    return UInt8.ofNat c :: cs

/-! ## What is read -/

/-- The stream is at the bit `i`, or it has come to the end before it. -/
structure Near (buf : List UInt8) (b : SimpleBitstream) (i : ℕ) : Prop where
  bs : b.bs = buf
  inside : i ≤ 8 * buf.length → b.curr_bit_index = i
  past : 8 * buf.length < i → 8 * buf.length ≤ b.curr_bit_index

/-- From the bit `i` on something is read, in the buffer only; of it, and of where it ends, `Q` is
said. -/
def Reads {α : Type} (buf : List UInt8) (m : CvtRead α) (i : ℕ) (Q : α → ℕ → Prop) : Prop :=
  ∀ b, Near buf b i → ∃ a b' j, m b = some (a, b') ∧ Near buf b' j ∧ Q a j

/-- From the bit `i` on, memory outside the buffers is used. -/
def Fails {α : Type} (buf : List UInt8) (m : CvtRead α) (i : ℕ) : Prop :=
  ∀ b, Near buf b i → m b = none

/-- The number at some bits; 0 when they are not all there. -/
def bitsIn (buf : List UInt8) (i n : ℕ) : ℕ :=
  if i + n ≤ 8 * buf.length then bitsAt buf i n else 0

namespace SimpleBitstream

/-- The bits are put together, the first one highest. -/
theorem getBits_inside : ∀ (n out : ℕ) (b : SimpleBitstream),
    b.curr_bit_index + n ≤ 8 * b.bs.length →
    b.getBits n out = some (out * 2 ^ n + bitsAt b.bs b.curr_bit_index n,
      { b with curr_bit_index := b.curr_bit_index + n }) := by
  intro n
  induction n with
  | zero =>
    intro out b _
    rw [getBits, bitsAt_zero, Nat.pow_zero, Nat.mul_one, Nat.add_zero, Nat.add_zero]
  | succ n ih =>
    intro out b h
    have hbyte : b.bs[b.curr_bit_index / 8]? =
        some (b.bs.get ⟨b.curr_bit_index / 8, by omega⟩) := List.getElem?_eq_getElem _
    have hbit := bitsAt_one hbyte
    have hor : out <<< 1 ||| bitsAt b.bs b.curr_bit_index 1 =
        out * 2 + bitsAt b.bs b.curr_bit_index 1 := by
      rw [← Nat.shiftLeft_add_eq_or_of_lt (bitsAt_lt b.bs b.curr_bit_index 1), Nat.shiftLeft_eq,
        pow_one]
    rw [getBits, if_neg (by omega), hbyte]
    dsimp only
    rw [← hbit, hor, ih _ _ (by dsimp only; omega), bitsAt_front h, Nat.pow_succ]
    congr 2
    · ring
    · rw [Nat.add_assoc, Nat.add_comm 1]

/-- At the end the result is lost. -/
theorem getBits_short : ∀ (n out : ℕ) (b : SimpleBitstream),
    b.curr_bit_index ≤ 8 * b.bs.length → 8 * b.bs.length < b.curr_bit_index + n →
    b.getBits n out = some (0, { b with curr_bit_index := 8 * b.bs.length }) := by
  intro n
  induction n with
  | zero =>
    intro out b h h'
    omega
  | succ n ih =>
    intro out b h h'
    rw [getBits]
    split_ifs with hend
    · have : b.curr_bit_index = 8 * b.bs.length := by omega
      rw [← this]
    · rw [List.getElem?_eq_getElem (by omega)]
      exact ih _ { b with curr_bit_index := b.curr_bit_index + 1 } (by dsimp only; omega)
        (by dsimp only; omega)

/-- Past the end nothing changes. -/
theorem getBits_past {n : ℕ} {b : SimpleBitstream} (h : 8 * b.bs.length ≤ b.curr_bit_index) :
    b.getBits n 0 = some (0, b) := by
  rcases n with _ | n
  · rfl
  · rw [getBits, if_pos h]

end SimpleBitstream

section Reads

variable {α β : Type} {buf : List UInt8} {m : CvtRead α} {i n : ℕ} {Q R : α → ℕ → Prop}

theorem Reads.bind {f : α → CvtRead β} {S : β → ℕ → Prop} (hm : Reads buf m i Q)
    (hf : ∀ a j, Q a j → Reads buf (f a) j S) : Reads buf (m >>= f) i S := by
  intro b hb
  obtain ⟨a, b', j, hab, hb', hQ⟩ := hm b hb
  obtain ⟨c, b'', k, hc, hb'', hS⟩ := hf a j hQ b' hb'
  refine ⟨c, b'', k, ?_, hb'', hS⟩
  show (m b).bind _ = _
  rw [hab]
  exact hc

theorem Reads.pure {a : α} (h : Q a i) : Reads buf (pure a) i Q :=
  fun b hb => ⟨a, b, i, rfl, hb, h⟩

theorem Reads.mono (hm : Reads buf m i Q) (h : ∀ a j, Q a j → R a j) : Reads buf m i R := by
  intro b hb
  obtain ⟨a, b', j, hab, hb', hQ⟩ := hm b hb
  exact ⟨a, b', j, hab, hb', h a j hQ⟩

theorem Reads.bind_fails {f : α → CvtRead β} (hm : Reads buf m i Q)
    (hf : ∀ a j, Q a j → Fails buf (f a) j) : Fails buf (m >>= f) i := by
  intro b hb
  obtain ⟨a, b', j, hab, hb', hQ⟩ := hm b hb
  show (m b).bind _ = _
  rw [hab]
  exact hf a j hQ b' hb'

theorem Fails.bind (f : α → CvtRead β) (hm : Fails buf m i) : Fails buf (m >>= f) i := by
  intro b hb
  show (m b).bind _ = _
  rw [hm b hb]
  rfl

/-- **What `get_bits` reads**: the bits, when they are all there. -/
theorem reads_get_bits (buf : List UInt8) (i n : ℕ) :
    Reads buf (get_bits n) i fun a j => a = bitsIn buf i n ∧ j = i + n := by
  intro b hb
  obtain ⟨rfl, hinside, hpast⟩ := hb
  rcases Nat.lt_or_ge (8 * b.bs.length) i with hi | hi
  · refine ⟨0, b, i + n, SimpleBitstream.getBits_past (hpast hi), ⟨rfl, ?_, fun _ => hpast hi⟩, ?_,
      rfl⟩
    · intro h
      omega
    · rw [bitsIn, if_neg (by omega)]
  · obtain rfl := hinside hi
    rcases Nat.lt_or_ge (8 * b.bs.length) (b.curr_bit_index + n) with hn | hn
    · refine ⟨0, _, b.curr_bit_index + n, SimpleBitstream.getBits_short n 0 b hi hn,
        ⟨rfl, ?_, fun _ => Nat.le_refl _⟩, ?_, rfl⟩
      · intro h
        omega
      · rw [bitsIn, if_neg (by omega)]
    · refine ⟨_, _, b.curr_bit_index + n, SimpleBitstream.getBits_inside n 0 b hn,
        ⟨rfl, fun _ => rfl, ?_⟩, ?_, rfl⟩
      · intro h
        omega
      · rw [bitsIn, if_pos hn, Nat.zero_mul, Nat.zero_add]

theorem reads_skip_bits (buf : List UInt8) (i n : ℕ) :
    Reads buf (skip_bits n) i fun _ j => j = i + n := by
  intro b hb
  refine ⟨(), _, i + n, rfl, ⟨hb.bs, fun h => ?_, fun h => ?_⟩, rfl⟩
  · rw [hb.inside (by omega)]
  · show _ ≤ b.curr_bit_index + n
    rcases Nat.lt_or_ge (8 * buf.length) i with hi | hi
    · have := hb.past hi
      omega
    · have := hb.inside hi
      omega

/-! ## Whole octets -/

theorem bitsIn_octets (buf : List UInt8) (p k : ℕ) :
    bitsIn buf (8 * p) (8 * k) = leading k (buf.drop p) := by
  rw [bitsIn]
  split_ifs with h
  · exact bitsAt_octets (by omega)
  · rcases k with _ | k
    · rw [leading, if_pos (Nat.zero_le _)]
      rfl
    · rw [leading, if_neg (by rw [List.length_drop]; omega)]

/-- The high bits of an octet. -/
theorem bitsIn_high (buf : List UInt8) (p : ℕ) {n : ℕ} (hpos : 0 < n) (hn : n ≤ 8) :
    bitsIn buf (8 * p) n = leading 1 (buf.drop p) / 2 ^ (8 - n) := by
  rcases Nat.lt_or_ge p buf.length with hp | hp
  · have hslice : ((buf.drop p).take 1).length = 1 := by
      rw [List.length_take, List.length_drop]
      omega
    have hlt := ofOctets_lt ((buf.drop p).take 1)
    rw [hslice] at hlt
    rw [bitsIn, if_pos (by omega), bitsAt_slice (k := 1) hp (Nat.le_refl _) (by omega), leading,
      if_pos (by rw [List.length_drop]; omega), show 8 * (p + 1) - (8 * p + n) = 8 - n by omega,
      Nat.mod_eq_of_lt]
    refine Nat.div_lt_of_lt_mul ?_
    rw [← Nat.pow_add, show 8 - n + n = 8 by omega]
    exact hlt
  · rw [bitsIn, if_neg (by omega), List.drop_eq_nil_of_le hp, leading_nil, Nat.zero_div]

/-- The low bits of some octets. -/
theorem bitsIn_low (buf : List UInt8) (p k : ℕ) {i n : ℕ} (hn : n ≤ 8 * k)
    (hi : i + n = 8 * (p + k)) : bitsIn buf i n = leading k (buf.drop p) % 2 ^ n := by
  rcases Nat.lt_or_ge buf.length (p + k) with hp | hp
  · have hk : 0 < k ∨ k = 0 := by omega
    rcases hk with hk | rfl
    · rw [bitsIn, if_neg (by omega), leading, if_neg (by rw [List.length_drop]; omega),
        Nat.zero_mod]
    · obtain rfl : n = 0 := by omega
      rw [bitsIn, Nat.pow_zero, Nat.mod_one]
      split_ifs
      · exact bitsAt_zero buf i
      · rfl
  · rw [bitsIn, if_pos (by omega), bitsAt_slice hp (by omega) (by omega), leading,
      if_pos (by rw [List.length_drop]; omega), hi, Nat.sub_self, Nat.pow_zero, Nat.div_one]

end Reads

end MediaFramework
