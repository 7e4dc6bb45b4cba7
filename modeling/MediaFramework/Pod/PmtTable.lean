import Mathlib.Algebra.Order.Group.Int
import MediaFramework.Pod.VlSimpleBitstream

/-!
# The table of a PMT (`capmtparse.cpp`)

The streams of a PMT are counted first, and then written to an array of that length. Both loops read
the same, but one is over when the section is, in octets, and the other one when the stream of bits
is there. At the end of the buffer the stream goes on by the bits that are skipped only.

The descriptors are read from where the stream is, as far as their length goes. Those for
conditional access are copied.
-/

namespace MediaFramework

/-- `vlcondAccessesDescsInfo`, with the place the descriptor has among the others, which the code
does not keep. -/
structure VlCondAccessesDescsInfo where
  place : ℕ
  condAccessesRawBuff : List UInt8
  deriving DecidableEq

/-- `vlpmt_streams` -/
structure VlPmtStream where
  stream_type : ℕ
  elem_pid : ℕ
  es_info_len : ℕ
  desc : Option (List VlCondAccessesDescsInfo)
  deriving DecidableEq

/-- The fields of a `vl_pmt_tbl` in front of its descriptors. -/
structure VlPmtHeader where
  table_id : ℕ
  section_len : ℕ
  program_num : ℕ
  version : ℕ
  current_next : ℕ
  section_num : ℕ
  last_section_num : ℕ
  pcr_pid : ℕ
  prog_info_len : ℕ
  deriving DecidableEq

/-- `vl_pmt_tbl` -/
structure VlPmtTbl where
  header : VlPmtHeader
  desc : Option (List VlCondAccessesDescsInfo)
  /-- `num_streams` of them -/
  streams : List VlPmtStream
  deriving DecidableEq

/-- What reads from a stream of bits. It has no result where memory outside the buffer is read, or
outside the array written. -/
abbrev PmtRead := StateT VlSimpleBitstream Option

namespace VlTablePMT

variable (m : DataModel)

/-! ## The functions -/

/-- `get_bits` -/
def getBits (n : ℕ) : PmtRead ℕ := fun b => b.getBits m n

/-- `skip_bits` -/
def skipBits (n : ℕ) : PmtRead Unit := fun b => some ((), b.skipBits m n)

/-- `get_pos` -/
def getPos : PmtRead ℕ := fun b => some (b.curr_bit_index, b)

/-- `VL_PMT_TBL_ID` -/
def pmtTblId : ℕ := 0x02

/-- `VL_DESC_COND_ACCESS` -/
def descCondAccess : ℕ := 0x09

/-- A descriptor for conditional access is copied, from behind its size on. -/
def copyDescriptor (s : List UInt8) (place ptr tag size : ℕ) (list : List VlCondAccessesDescsInfo) :
    Option (List VlCondAccessesDescsInfo) :=
  if tag = descCondAccess then
    (octets s ptr size).map fun data =>
      list ++ [⟨place, UInt8.ofNat tag :: UInt8.ofNat size :: data⟩]
  else some list

/-- The loop of `vlDescriptors::ParseData`, with no more rounds than octets. -/
def parseDescriptorsFrom (s : List UInt8) (len : ℕ) :
    ℕ → List VlCondAccessesDescsInfo → PmtRead (List VlCondAccessesDescsInfo)
  | 0, list => do
    let pos ← getPos
    if pos < len * 8 then failure else return list
  | rounds + 1, list => do
    let pos ← getPos
    if pos < len * 8 then
      let tag ← getBits m 8
      let size ← getBits m 8
      let ptr ← getPos
      let list ← copyDescriptor s (pos / 8) (ptr / 8) tag size list
      skipBits m (size * 8)
      parseDescriptorsFrom s len rounds list
    else return list

/-- `vlDescriptors::ParseData`, if there is memory for what is copied. -/
def parseDescriptors (pData : List UInt8) (length : ℕ) : Option (List VlCondAccessesDescsInfo) :=
  (parseDescriptorsFrom m pData length length []).run' (.create m pData length)

/-- The fields of a PMT up to its descriptors. -/
def parseHeader : PmtRead VlPmtHeader := do
  let table_id ← getBits m 8
  skipBits m 4
  let section_len ← getBits m 12
  let program_num ← getBits m 16
  skipBits m 2
  let version ← getBits m 5
  let current_next ← getBits m 1
  let section_num ← getBits m 8
  let last_section_num ← getBits m 8
  skipBits m 3
  let pcr_pid ← getBits m 13
  skipBits m 4
  let prog_info_len ← getBits m 12
  return ⟨table_id, section_len, program_num, version, current_next, section_num, last_section_num,
    pcr_pid, prog_info_len⟩

/-- The fields of a stream, which both loops read: its type, its PID and the length of its
descriptors. -/
def readStream : PmtRead (ℕ × ℕ × ℕ) := do
  let stream_type ← getBits m 8
  skipBits m 3
  let elem_pid ← getBits m 13
  skipBits m 4
  let es_info_len ← getBits m 12
  return (stream_type, elem_pid, es_info_len)

/-- The loop of `get_streams_count`. -/
def getStreamsCountFrom (nCount : ℕ) (nBytes : ℤ) : PmtRead ℕ :=
  if 0 < nBytes then do
    let (_, _, es_info_len) ← readStream m
    if es_info_len > 0 then skipBits m (es_info_len * 8)
    getStreamsCountFrom (nCount + 1) (nBytes - (5 + es_info_len))
  else
    return nCount
termination_by nBytes.toNat
decreasing_by omega

/-- `get_streams_count` -/
def getStreamsCount (nBytes : ℤ) : PmtRead ℕ := do
  modify VlSimpleBitstream.mark
  let nCount ← getStreamsCountFrom m 0 nBytes
  modify VlSimpleBitstream.rewind
  return nCount

/-- The descriptors of a program or of a stream, if there are any, and the stream of bits behind
them. -/
def parseInfo (s : List UInt8) (len : ℕ) : PmtRead (Option (List VlCondAccessesDescsInfo)) :=
  if 0 < len then do
    let pos ← getPos
    let list ← parseDescriptors m (s.drop (pos / 8)) len
    skipBits m (len * 8)
    return some list
  else
    return none

/-- The loop that writes the streams, with so many places left in the array. -/
def parseStreamsFrom (s : List UInt8) (bound : ℕ) :
    ℕ → List VlPmtStream → PmtRead (List VlPmtStream)
  | 0, streams => do
    let pos ← getPos
    if pos / 8 < bound then failure else return streams
  | left + 1, streams => do
    let pos ← getPos
    if pos / 8 < bound then
      let (stream_type, elem_pid, es_info_len) ← readStream m
      let desc ← parseInfo m s es_info_len
      parseStreamsFrom s bound left
        (streams ++ [{ stream_type, elem_pid, es_info_len, desc }])
    else return streams

/-- An `int`, as an `unsigned long`. -/
def toLong (i : ℤ) : ℕ := (i % 2 ^ m.longBits).toNat

/-- `vlTablePMT::ParseData`, behind the check of its parameters; no table where it returns -1. -/
def parseTable (s : List UInt8) : PmtRead (Option VlPmtTbl) := do
  let header ← parseHeader m
  let validLength : ℤ := 3 + header.section_len
  if header.current_next = 0 then return none
  else if header.table_id ≠ pmtTblId then return none
  else
    let desc ← parseInfo m s header.prog_info_len
    let pos ← getPos
    -- the difference is one of `unsigned long`, and passed as an `int`
    let nBytes := Int.bmod (toLong m (validLength - 4) - (pos / 8 : ℕ)) (2 ^ 32)
    let noOfStreams ← getStreamsCount m nBytes
    let streams ← parseStreamsFrom m s (toLong m (validLength - 4)) noOfStreams []
    return some { header, desc, streams }

/-- `vlTablePMT::ParseData`, of a buffer. -/
def parseData (pData : List UInt8) : Option (Option VlPmtTbl) :=
  if pData.length = 0 then some none
  else (parseTable m pData).run' (.create m pData pData.length)

/-! ## Reading -/

/-- The stream of a buffer of `8 * L` bits, at a bit. -/
def stream (buf : List UInt8) (L p mk : ℕ) : VlSimpleBitstream := ⟨buf, 8 * L, p, mk⟩

/-- The next bits; 0 when they are not all there. -/
def bitsWithin (buf : List UInt8) (L p n : ℕ) : ℕ := if p + n ≤ 8 * L then bitsAt buf p n else 0

/-- Where the stream is after some bits. -/
def advance (L p n : ℕ) : ℕ := max p (min (p + n) (8 * L))

/-- No piece of these bits lies across the end. -/
def Pieces (L p n : ℕ) : Prop := p + n ≤ 8 * L ∨ 8 * L ≤ VlSimpleBitstream.lastRound p n

variable {m} {buf : List UInt8} {L p n mk : ℕ}

theorem two_pow_le_longBits (h : n < 2 ^ 32) : n < 2 ^ m.longBits :=
  h.trans_le (VlSimpleBitstream.two_pow_le_longBits m)

theorem create_eq (m : DataModel) (buf : List UInt8) (len : ℕ) :
    VlSimpleBitstream.create m buf len = stream buf (len % 2 ^ (m.longBits - 3)) 0 0 := by
  have hbits : 2 ^ m.longBits = 8 * 2 ^ (m.longBits - 3) := by cases m <;> rfl
  rw [VlSimpleBitstream.create, stream, Nat.mul_comm, hbits, Nat.mul_mod_mul_left]

theorem skipBits_stream (h : p + n < 2 ^ 32) :
    skipBits m n (stream buf L p mk) = some ((), stream buf L (p + n) mk) := by
  rw [skipBits, VlSimpleBitstream.skipBits]
  refine congrArg (fun p => some ((), stream buf L p mk)) (Nat.mod_eq_of_lt ?_)
  exact two_pow_le_longBits h

theorem getBits_of_getBitsFrom {v q : ℕ} (hp : p + n < 2 ^ 32) (hv : v < 2 ^ 32)
    (hloop : (stream buf L p mk).getBitsFrom (p + n) 0 p = some (v, q)) :
    getBits m n (stream buf L p mk) = some (v, stream buf L q mk) := by
  have hstop : (stream buf L p mk).curr_bit_index = p := rfl
  rw [getBits, VlSimpleBitstream.getBits, hstop, Nat.mod_eq_of_lt (two_pow_le_longBits hp), hloop]
  exact congrArg (fun v => some (v, stream buf L q mk)) (Nat.mod_eq_of_lt (two_pow_le_longBits hv))

/-- **What is read**, unless a piece lies across the end. -/
theorem getBits_stream (hL : L ≤ buf.length) (hn : 0 < n) (hn' : n ≤ 16) (hp : p + n < 2 ^ 32)
    (hpieces : Pieces L p n) : getBits m n (stream buf L p mk) =
      some (bitsWithin buf L p n, stream buf L (advance L p n) mk) := by
  have hlt : p < p + n := Nat.lt_add_of_pos_right hn
  have hrest : p + n - p = n := Nat.add_sub_cancel_left p n
  have hlast : VlSimpleBitstream.lastRound p n < p + n := by
    rw [VlSimpleBitstream.lastRound]
    split_ifs <;> omega
  have hbs : (stream buf L p mk).bs_len = 8 * L := rfl
  rcases Nat.lt_or_ge (8 * L) (p + n) with hshort | hfits
  · have hval : bitsWithin buf L p n = 0 := if_neg (Nat.not_le.mpr hshort)
    have hround := hpieces.resolve_left (Nat.not_le.mpr hshort)
    rw [hval]
    apply getBits_of_getBitsFrom hp (by decide)
    rcases Nat.lt_or_ge p (8 * L) with hin | hout
    · rw [VlSimpleBitstream.getBitsFrom_short (hbs ▸ by
        change 8 * L ≤ 8 * buf.length
        omega) (by rw [hbs]; omega) (by omega) hlt (hbs ▸ hin.le) (by rwa [hbs, hrest])
        (by rw [hbs]; omega), hbs, advance, Nat.min_eq_right hshort.le, Nat.max_eq_right hin.le]
    · rw [VlSimpleBitstream.getBitsFrom_past hlt (hbs ▸ hout), advance,
        Nat.min_eq_right hshort.le, Nat.max_eq_left hout]
  · have hval : bitsWithin buf L p n = bitsAt buf p n := if_pos hfits
    have hbound := bitsAt_lt buf p n
    have hpow : 2 ^ n ≤ 2 ^ 32 := Nat.pow_le_pow_right (by decide) (by omega)
    rw [hval, advance, Nat.min_eq_left hfits, Nat.max_eq_right (Nat.le_add_right p n)]
    apply getBits_of_getBitsFrom hp (by omega)
    have hloop := VlSimpleBitstream.getBitsFrom_eq (stream buf L p mk) (p + n) 0 p (by omega)
      (by change p + n ≤ 8 * buf.length; omega) hlt (fun hneg => by have := hneg.1; omega)
      (by rw [hrest, hbs]; omega) (by rw [hrest]; omega)
      (Nat.two_pow_pos _)
    rw [hloop, hrest, Nat.zero_mul, Nat.zero_add]
    rfl

/-- An octet of the buffer, which may be no memory of it. -/
theorem getBits_octet {k : ℕ} (hk : k < L) (hint : k < 2 ^ 28) :
    getBits m 8 (stream buf L (8 * k) mk) =
      buf[k]?.map fun b => (b.toNat, stream buf L (8 * (k + 1)) mk) := by
  have hlt : 8 * k < 8 * k + 8 := by omega
  have hrest : 8 * k + 8 - 8 * k = 8 := Nat.add_sub_cancel_left _ _
  have hbyte : 8 * k / 8 = k := by omega
  have hbs : (stream buf L (8 * k) mk).bs_len = 8 * L := rfl
  rcases Nat.lt_or_ge k buf.length with hk' | hk'
  · have hlast : VlSimpleBitstream.lastRound (8 * k) 8 = 8 * k := if_pos (by omega)
    have hget : buf[8 * k / 8]? = some buf[k] := by rw [hbyte, List.getElem?_eq_getElem hk']
    have hvalue : bitsAt buf (8 * k) 8 = buf[k].toNat := by
      rw [bitsAt_within hget (by omega), show 8 - 8 * k % 8 - 8 = 0 by omega, Nat.shiftRight_zero]
      exact Nat.mod_eq_of_lt buf[k].toNat_lt
    have hloop := VlSimpleBitstream.getBitsFrom_eq (stream buf L (8 * k) mk) (8 * k + 8) 0 (8 * k)
      (by omega) (by change 8 * k + 8 ≤ 8 * buf.length; omega) hlt
      (fun hneg => by have := hneg.1; omega) (by rw [hrest, hbs, hlast]; omega)
      (by rw [hrest, hlast]; omega) (Nat.two_pow_pos _)
    rw [hrest, Nat.zero_mul, Nat.zero_add] at hloop
    rw [List.getElem?_eq_getElem hk', Option.map_some, ← hvalue]
    have hbound := bitsAt_lt buf (8 * k) 8
    exact getBits_of_getBitsFrom (by omega) (by omega) hloop
  · have haligned : VlSimpleBitstream.Aligned (8 * k + 8) (8 * k) := ⟨by omega, by omega, by omega⟩
    have hround : (stream buf L (8 * k) mk).roundValue (8 * k + 8) (8 * k) = none := by
      rw [VlSimpleBitstream.roundValue, if_pos haligned,
        VlSimpleBitstream.roundBits_of_aligned (by omega) hlt haligned, hrest, hbyte]
      change (VlSimpleBitstream.valueFromArray buf k 1).map _ = none
      rw [VlSimpleBitstream.valueFromArray, if_neg (by omega)]
      rfl
    have hstop : (stream buf L (8 * k) mk).curr_bit_index = 8 * k := rfl
    rw [getBits, VlSimpleBitstream.getBits, hstop,
      Nat.mod_eq_of_lt (two_pow_le_longBits (by omega)), VlSimpleBitstream.getBitsFrom,
      dif_pos hlt, if_neg (by omega), if_neg (by omega), hround,
      List.getElem?_eq_none hk']
    rfl

end VlTablePMT

end MediaFramework
