import MediaFramework.Lib.Bits
import MediaFramework.Lib.Cells

/-!
# Transport stream packets

A packet is the memory its pointer points to: byte `i` of it is `p i`. The
header fields are the expressions `RBIStreamProcessor` uses everywhere, and the
time stamps are read and written as in `readTimeStamp`, `writeTimeStamp`,
`readPCR` and `writePCR`: 33 bits, spread over five bytes with marker bits for a
PTS or DTS, and the first 33 bits of a PCR field.
-/

namespace MediaFramework

/-- The bytes from a packet's first one on. -/
abbrev Packet := ℕ → UInt8

/-- A packet that begins with the given bytes and is filled up. -/
def packetOf (bytes : List UInt8) : Packet := fun i => bytes.getD i 0xFF

/-- `MAX_90K`. -/
def max90k : ℕ := 0x1FFFFFFFF

/-- `& MAX_90K` -/
def mask90k (t : ℤ) : ℤ := t % (max90k + 1)

namespace Packet

variable (p : Packet)

/-! ## Header fields -/

/-- `(packet[1] << 8 | packet[2]) & 0x1FFF` -/
def pid : ℕ := ((p 1).toNat <<< 8 ||| (p 2).toNat) &&& 0x1FFF

/-- `packet[1] & 0x40` -/
def payloadStart : Bool := (p 1).toNat &&& 0x40 != 0

/-- `(packet[3] & 0x30) >> 4` -/
def adaptation : ℕ := ((p 3).toNat &&& 0x30) >>> 4

/-- There is an adaptation field. -/
def hasAdaptation : Bool := p.adaptation &&& 0x02 != 0

/-- There is a payload. -/
def hasPayload : Bool := p.adaptation &&& 0x01 != 0

/-- `packet[3] & 0xF` -/
def continuity : ℕ := (p 3).toNat &&& 0xF

/-- The packet carries a PCR: a non-empty adaptation field with the PCR flag. -/
def hasPcr : Bool := p.hasAdaptation && p 4 != 0 && (p 5).toNat &&& 0x10 != 0

/-- Where the payload begins. -/
def payload : ℕ := if p.hasAdaptation then 4 + (1 + (p 4).toNat) else 4

/-- The bytes of the payload: what is left of the 188 bytes of the packet. -/
def payloadBytes : List UInt8 := load p p.payload (188 - p.payload)

/-- A PES packet begins in this packet: its start code prefix is there. -/
def pesStart : Bool :=
  p.payloadStart && p p.payload == 0x00 && p (p.payload + 1) == 0x00 && p (p.payload + 2) == 0x01

/-- The PES header has a PTS. -/
def hasPts : Bool := (p (p.payload + 7)).toNat &&& 0x80 != 0

/-- The PES header has a DTS. -/
def hasDts : Bool := (p (p.payload + 7)).toNat &&& 0x40 != 0

/-! ## Time stamps -/

/-- `readTimeStamp( &packet[pos] )` -/
def readTimeStamp (pos : ℕ) : ℕ :=
  ((p pos).toNat &&& 0x0E) <<< 30 >>> 1 ||| ((p (pos + 1)).toNat &&& 0xFF) <<< 22 |||
    ((p (pos + 2)).toNat &&& 0xFE) <<< 15 >>> 1 ||| ((p (pos + 3)).toNat &&& 0xFF) <<< 7 |||
    ((p (pos + 4)).toNat &&& 0xFE) >>> 1

/-- `writeTimeStamp( &packet[pos], pre, ts )` -/
def writeTimeStamp (pos pre ts : ℕ) : Packet :=
  store p pos
    [UInt8.ofNat ((pre &&& 0xF) <<< 4 ||| (ts >>> 30 &&& 0x7) <<< 1 ||| 0x01),
      UInt8.ofNat (ts >>> 22 &&& 0xFF),
      UInt8.ofNat ((ts >>> 15 &&& 0x7F) <<< 1 ||| 0x01),
      UInt8.ofNat (ts >>> 7 &&& 0xFF),
      UInt8.ofNat ((ts &&& 0x7F) <<< 1 ||| 0x01)]

/-- `readPCR( &packet[pos] )` -/
def readPCR (pos : ℕ) : ℕ :=
  ((p pos).toNat &&& 0xFF) <<< (33 - 8) ||| ((p (pos + 1)).toNat &&& 0xFF) <<< (33 - 8 - 8) |||
    ((p (pos + 2)).toNat &&& 0xFF) <<< (33 - 8 - 8 - 8) |||
    ((p (pos + 3)).toNat &&& 0xFF) <<< (33 - 8 - 8 - 8 - 8) |||
    ((p (pos + 4)).toNat &&& 0xFF) >>> 7

/-- `writePCR( &packet[pos], pcr )` -/
def writePCR (pos pcr : ℕ) : Packet :=
  store p pos
    [UInt8.ofNat (pcr >>> (33 - 8) &&& 0xFF),
      UInt8.ofNat (pcr >>> (33 - 8 - 8) &&& 0xFF),
      UInt8.ofNat (pcr >>> (33 - 8 - 8 - 8) &&& 0xFF),
      UInt8.ofNat (pcr >>> (33 - 8 - 8 - 8 - 8) &&& 0xFF),
      UInt8.ofNat ((pcr &&& 0x01) <<< 7 ||| ((p (pos + 4)).toNat &&& 0x7F))]

theorem continuity_lt : p.continuity < 16 := by
  rw [continuity, show (p 3).toNat &&& 0xF = (p 3).toNat % 16 from and_low _ 4]
  exact Nat.mod_lt _ (by decide)

theorem four_le_payload : 4 ≤ p.payload := by
  unfold payload
  split_ifs <;> omega

/-! ### The fields as numbers -/

theorem readTimeStamp_eq (pos : ℕ) :
    p.readTimeStamp pos =
      (p pos).toNat / 2 % 8 * 2 ^ 30 + (p (pos + 1)).toNat * 2 ^ 22 +
        (p (pos + 2)).toNat / 2 * 2 ^ 15 + (p (pos + 3)).toNat * 2 ^ 7 +
        (p (pos + 4)).toNat / 2 := by
  have h1 := (p (pos + 1)).toNat_lt
  have h2 := (p (pos + 2)).toNat_lt
  have h3 := (p (pos + 3)).toNat_lt
  have h4 := (p (pos + 4)).toNat_lt
  unfold readTimeStamp
  generalize (p pos).toNat = a at *
  generalize (p (pos + 1)).toNat = b at *
  generalize (p (pos + 2)).toNat = c at *
  generalize (p (pos + 3)).toNat = d at *
  generalize (p (pos + 4)).toNat = e at *
  have ha : (a &&& 0x0E) <<< 30 >>> 1 = a / 2 % 8 * 2 ^ 30 := by
    rw [show a &&& 0x0E = a / 2 % 8 * 2 from and_mask a 3 1, Nat.shiftLeft_eq,
      Nat.shiftRight_eq_div_pow]
    omega
  have hb : (b &&& 0xFF) <<< 22 = b * 2 ^ 22 := by
    rw [show b &&& 0xFF = b % 256 from and_low b 8, Nat.shiftLeft_eq]
    omega
  have hc : (c &&& 0xFE) <<< 15 >>> 1 = c / 2 * 2 ^ 15 := by
    rw [show c &&& 0xFE = c / 2 % 128 * 2 from and_mask c 7 1, Nat.shiftLeft_eq,
      Nat.shiftRight_eq_div_pow]
    omega
  have hd : (d &&& 0xFF) <<< 7 = d * 2 ^ 7 := by
    rw [show d &&& 0xFF = d % 256 from and_low d 8, Nat.shiftLeft_eq]
    omega
  have he : (e &&& 0xFE) >>> 1 = e / 2 := by
    rw [show e &&& 0xFE = e / 2 % 128 * 2 from and_mask e 7 1, Nat.shiftRight_eq_div_pow]
    omega
  rw [ha, hb, hc, hd, he]
  exact or_fields 30 22 15 7 (by omega) (by omega) (by omega) (by omega) (by omega) (by omega)
    (by omega) (by omega)

theorem readPCR_eq (pos : ℕ) :
    p.readPCR pos =
      (p pos).toNat * 2 ^ 25 + (p (pos + 1)).toNat * 2 ^ 17 + (p (pos + 2)).toNat * 2 ^ 9 +
        (p (pos + 3)).toNat * 2 + (p (pos + 4)).toNat / 128 := by
  have h0 := (p pos).toNat_lt
  have h1 := (p (pos + 1)).toNat_lt
  have h2 := (p (pos + 2)).toNat_lt
  have h3 := (p (pos + 3)).toNat_lt
  have h4 := (p (pos + 4)).toNat_lt
  unfold readPCR
  generalize (p pos).toNat = a at *
  generalize (p (pos + 1)).toNat = b at *
  generalize (p (pos + 2)).toNat = c at *
  generalize (p (pos + 3)).toNat = d at *
  generalize (p (pos + 4)).toNat = e at *
  have hmask : ∀ x, x < 2 ^ 8 → x &&& 0xFF = x := by
    intro x hx
    exact (and_low x 8).trans (Nat.mod_eq_of_lt hx)
  rw [hmask a h0, hmask b h1, hmask c h2, hmask d h3, hmask e h4]
  simp only [Nat.shiftLeft_eq, Nat.shiftRight_eq_div_pow, Nat.reduceSub, Nat.reducePow]
  exact or_fields 25 17 9 1 (by omega) (by omega) (by omega) (by omega) (by omega) (by omega)
    (by omega) (by omega)

theorem readTimeStamp_lt (pos : ℕ) : p.readTimeStamp pos < 2 ^ 33 := by
  have h1 := (p (pos + 1)).toNat_lt
  have h2 := (p (pos + 2)).toNat_lt
  have h3 := (p (pos + 3)).toNat_lt
  have h4 := (p (pos + 4)).toNat_lt
  rw [readTimeStamp_eq]
  omega

/-- The five bytes `writeTimeStamp` writes. -/
theorem writeTimeStamp_eq (pos pre ts : ℕ) :
    p.writeTimeStamp pos pre ts = store p pos
      [UInt8.ofNat (pre % 16 * 16 + ts / 2 ^ 30 % 8 * 2 + 1), UInt8.ofNat (ts / 2 ^ 22 % 256),
        UInt8.ofNat (ts / 2 ^ 15 % 128 * 2 + 1), UInt8.ofNat (ts / 2 ^ 7 % 256),
        UInt8.ofNat (ts % 128 * 2 + 1)] := by
  have h0 : (pre &&& 0xF) <<< 4 ||| (ts >>> 30 &&& 0x7) <<< 1 ||| 0x01 =
      pre % 16 * 16 + ts / 2 ^ 30 % 8 * 2 + 1 := by
    rw [show pre &&& 0xF = pre % 16 from and_low pre 4,
      show ts >>> 30 &&& 0x7 = ts >>> 30 % 8 from and_low _ 3]
    simp only [Nat.shiftLeft_eq, Nat.shiftRight_eq_div_pow]
    have hhigh : pre % 16 * 2 ^ 4 ||| ts / 2 ^ 30 % 8 * 2 ^ 1 =
        pre % 16 * 2 ^ 4 + ts / 2 ^ 30 % 8 * 2 ^ 1 := or_eq_add 4 (by omega) (by omega)
    rw [hhigh, or_eq_add 1 (by omega) (by omega)]
    omega
  have h2 : (ts >>> 15 &&& 0x7F) <<< 1 ||| 0x01 = ts / 2 ^ 15 % 128 * 2 + 1 := by
    rw [show ts >>> 15 &&& 0x7F = ts >>> 15 % 128 from and_low _ 7]
    simp only [Nat.shiftLeft_eq, Nat.shiftRight_eq_div_pow]
    rw [or_eq_add 1 (by omega) (by omega)]
  have h4 : (ts &&& 0x7F) <<< 1 ||| 0x01 = ts % 128 * 2 + 1 := by
    rw [show ts &&& 0x7F = ts % 128 from and_low _ 7]
    simp only [Nat.shiftLeft_eq]
    rw [or_eq_add 1 (by omega) (by omega)]
  rw [writeTimeStamp, h0, h2, h4, show ts >>> 22 &&& 0xFF = ts >>> 22 % 256 from and_low _ 8,
    show ts >>> 7 &&& 0xFF = ts >>> 7 % 256 from and_low _ 8, Nat.shiftRight_eq_div_pow,
    Nat.shiftRight_eq_div_pow]

/-- The five bytes `writePCR` writes. -/
theorem writePCR_eq (pos pcr : ℕ) :
    p.writePCR pos pcr = store p pos
      [UInt8.ofNat (pcr / 2 ^ 25 % 256), UInt8.ofNat (pcr / 2 ^ 17 % 256),
        UInt8.ofNat (pcr / 2 ^ 9 % 256), UInt8.ofNat (pcr / 2 % 256),
        UInt8.ofNat (pcr % 2 * 128 + (p (pos + 4)).toNat % 128)] := by
  have h4 : (pcr &&& 0x01) <<< 7 ||| ((p (pos + 4)).toNat &&& 0x7F) =
      pcr % 2 * 128 + (p (pos + 4)).toNat % 128 := by
    rw [show pcr &&& 0x01 = pcr % 2 from and_low pcr 1,
      show (p (pos + 4)).toNat &&& 0x7F = (p (pos + 4)).toNat % 128 from and_low _ 7]
    simp only [Nat.shiftLeft_eq]
    rw [or_eq_add 7 (by omega) (by omega)]
  rw [writePCR, h4, show ∀ x, x &&& 0xFF = x % 256 from fun x => and_low x 8,
    show ∀ x, x &&& 0xFF = x % 256 from fun x => and_low x 8,
    show ∀ x, x &&& 0xFF = x % 256 from fun x => and_low x 8,
    show ∀ x, x &&& 0xFF = x % 256 from fun x => and_low x 8]
  simp only [Nat.shiftRight_eq_div_pow, Nat.reduceSub, Nat.pow_one]

/-! ### Writing and reading back -/

variable {p} {pos i : ℕ}

/-- Writing a time stamp touches its five bytes only. -/
theorem writeTimeStamp_of_not_mem {pre ts : ℕ} (h : i < pos ∨ pos + 5 ≤ i) :
    p.writeTimeStamp pos pre ts i = p i := store_of_not_mem h

/-- Writing a PCR touches its five bytes only. -/
theorem writePCR_of_not_mem {pcr : ℕ} (h : i < pos ∨ pos + 5 ≤ i) :
    p.writePCR pos pcr i = p i := store_of_not_mem h

/-! The cells of a stored field of five bytes. -/

section Field

variable (a b c d e : UInt8)

@[simp] theorem store_five_zero : store p pos [a, b, c, d, e] pos = a := by simp [store]

@[simp] theorem store_five_one : store p pos [a, b, c, d, e] (pos + 1) = b := by simp [store]

@[simp] theorem store_five_two : store p pos [a, b, c, d, e] (pos + 2) = c := by simp [store]

@[simp] theorem store_five_three : store p pos [a, b, c, d, e] (pos + 3) = d := by simp [store]

@[simp] theorem store_five_four : store p pos [a, b, c, d, e] (pos + 4) = e := by simp [store]

end Field

/-- **A time stamp reads back.** -/
theorem readTimeStamp_writeTimeStamp {pre ts : ℕ} (h : ts < 2 ^ 33) :
    (p.writeTimeStamp pos pre ts).readTimeStamp pos = ts := by
  rw [readTimeStamp_eq, writeTimeStamp_eq]
  simp only [store_five_zero, store_five_one, store_five_two, store_five_three, store_five_four,
    UInt8.toNat_ofNat']
  omega

/-- Writing a time stamp keeps the four bits before it that it was given. -/
theorem writeTimeStamp_guardBits {pre ts : ℕ} :
    (p.writeTimeStamp pos pre ts pos).toNat >>> 4 = pre % 16 := by
  rw [writeTimeStamp_eq, store_five_zero, UInt8.toNat_ofNat', Nat.shiftRight_eq_div_pow]
  omega

/-- **A PCR reads back.** -/
theorem readPCR_writePCR {pcr : ℕ} (h : pcr < 2 ^ 33) :
    (p.writePCR pos pcr).readPCR pos = pcr := by
  rw [readPCR_eq, writePCR_eq]
  simp only [store_five_zero, store_five_one, store_five_two, store_five_three, store_five_four,
    UInt8.toNat_ofNat']
  omega

/-- A time stamp is read from its five bytes. -/
theorem readTimeStamp_congr {q : Packet} (h : ∀ i, pos ≤ i → i < pos + 5 → q i = p i) :
    q.readTimeStamp pos = p.readTimeStamp pos := by
  rw [readTimeStamp_eq, readTimeStamp_eq, h pos, h (pos + 1), h (pos + 2), h (pos + 3),
    h (pos + 4)]
  all_goals omega

/-- A PCR is read from its five bytes. -/
theorem readPCR_congr {q : Packet} (h : ∀ i, pos ≤ i → i < pos + 5 → q i = p i) :
    q.readPCR pos = p.readPCR pos := by
  rw [readPCR_eq, readPCR_eq, h pos, h (pos + 1), h (pos + 2), h (pos + 3), h (pos + 4)]
  all_goals omega

/-- Writing a PCR keeps the seven bits after it. -/
theorem writePCR_low {pcr : ℕ} :
    (p.writePCR pos pcr (pos + 4)).toNat % 128 = (p (pos + 4)).toNat % 128 := by
  rw [writePCR_eq, store_five_four, UInt8.toNat_ofNat']
  omega

end Packet

end MediaFramework
