import MediaFramework.Lib.Octets
import MediaFramework.Pod.VlSimpleBitstream

/-!
# The stream of the POD manager (`buf_parse_utils.c`)

A stream is a place in a buffer with a capacity and a position, both of them an `int`. An operation
that does not find enough room does nothing but move on, so that the position may stand behind the
capacity, and a sum may get too large for an `int`. A child stream begins where its parent stands,
with a length that is not compared with anything.

The memory is the buffer of the root stream. An access outside it has no result.
-/

namespace MediaFramework

/-! ## Memory -/

/-- Bytes that are read at a place. -/
def bytesAt (mem : List UInt8) (a : ℤ) (n : ℕ) : Option (List UInt8) :=
  if n = 0 then some []
  else if 0 ≤ a then octets mem a.toNat n
  else none

/-- Bytes that are written to a place. -/
def writeAt (mem : List UInt8) (a : ℤ) (bytes : List UInt8) : Option (List UInt8) :=
  if bytes = [] then some mem
  else if 0 ≤ a ∧ a.toNat + bytes.length ≤ mem.length then
    some (mem.take a.toNat ++ bytes ++ mem.drop (a.toNat + bytes.length))
  else none

/-- An `int`, given by its 32 bits, as an `unsigned long`. -/
def DataModel.ofInt (m : DataModel) (v : ℕ) : ℕ :=
  VlSimpleBitstream.signExtend v % 2 ^ m.longBits

/-- A number is kept, unless it is a negative `int` and an `unsigned long` is larger. -/
theorem DataModel.ofInt_eq_iff {m : DataModel} {v w : ℕ} (hv : v < 2 ^ 32) (hw : w < 2 ^ 32) :
    m.ofInt v = w ↔ v = w ∧ (m = .lp64 → w < 2 ^ 31) := by
  cases m with
  | ilp32 =>
    rw [ofInt, VlSimpleBitstream.signExtend, longBits]
    simp only [reduceCtorEq, false_imp_iff, and_true]
    split_ifs <;> omega
  | lp64 =>
    rw [ofInt, VlSimpleBitstream.signExtend, longBits]
    simp only [forall_const]
    split_ifs <;> omega

/-! ## Streams -/

/-- `VL_BYTE_STREAM` -/
structure BufStream where
  nCapacity : ℤ
  iPosition : ℤ
  /-- where the buffer begins in the memory -/
  pBuffer : ℤ
  deriving DecidableEq

namespace BufStream

/-- What an `int` holds of a number. -/
def int32 (x : ℤ) : ℤ := x.bmod (2 ^ 32)

theorem int32_of_range {x : ℤ} (h₁ : -2 ^ 31 ≤ x) (h₂ : x < 2 ^ 31) : int32 x = x := by
  rw [int32, Int.bmod_eq_of_le (by omega) (by omega)]

variable (mem : List UInt8) (s : BufStream)

/-- `VL_BYTE_STREAM_INST` for the whole of the memory. -/
def inst : BufStream := ⟨mem.length, 0, 0⟩

/-- `VL_BYTE_STREAM_CAN_USE` -/
def canUse (len : ℤ) : Bool := int32 (s.iPosition + len) ≤ s.nCapacity

/-- `VL_BYTE_STREAM_REMAINDER` -/
def remainder : ℤ := int32 (s.nCapacity - s.iPosition)

/-- `VL_BYTE_STREAM_SMALLER` -/
def smaller (len : ℤ) : ℤ := if len ≤ s.remainder then len else s.remainder

/-- `VL_BYTE_STREAM_GET_CURRENT_BUF` -/
def currentBuf : ℤ := s.pBuffer + s.iPosition

/-- `VL_BYTE_STREAM_ADVANCE_BUF` -/
def advanceBuf (len : ℤ) : BufStream := { s with iPosition := int32 (s.iPosition + len) }

/-- `VL_BYTE_STREAM_PARENT_CHILD_INST`: the child. The parent is advanced by the length. -/
def child (len : ℤ) : BufStream := ⟨len, 0, s.currentBuf⟩

/-! ## Parsing

A number of four bytes is put together as an `int`, whose sign gets into an `unsigned long` of 64
bits. One of three bytes or fewer has no sign, and one of more than four is put together as an
`unsigned long long`.
-/

/-- `VL_IMPL_READ_N_BYTE_LONG`, with the bytes as a number. -/
def readNByteLong (n : ℕ) : Option (ℕ × BufStream) :=
  if s.canUse n then do
    let bytes ← bytesAt mem s.currentBuf n
    return (ofOctets bytes, s.advanceBuf n)
  else return (0, s.advanceBuf n)

/-- `vlParseByteWorker` -/
def vlParseByte : Option (ℕ × BufStream) := s.readNByteLong mem 1

/-- `vlParseShortWorker` -/
def vlParseShort : Option (ℕ × BufStream) := s.readNByteLong mem 2

/-- `vlParseLongWorker` -/
def vlParseLong (m : DataModel) : Option (ℕ × BufStream) := do
  let (val, s) ← s.readNByteLong mem 4
  return (m.ofInt val, s)

/-- `vlParse6ByteLongWorker` -/
def vlParse6ByteLong : Option (ℕ × BufStream) := s.readNByteLong mem 6

/-- `vlParseNByteLongWorker`: an `unsigned long long`. -/
def vlParseNByteLong (nBytes : ℤ) : Option (ℕ × BufStream) :=
  if s.canUse nBytes then do
    let bytes ← bytesAt mem s.currentBuf nBytes.toNat
    return (bytes.foldl (fun val b => val <<< 8 % 2 ^ 64 ||| b.toNat) 0, s.advanceBuf nBytes)
  else return (0, s.advanceBuf nBytes)

/-- `vlParseCcApduLengthFieldWorker`: an `unsigned long`. -/
def vlParseCcApduLengthField : Option (ℕ × BufStream) :=
  if s.canUse 1 then do
    let bytes ← bytesAt mem s.currentBuf 1
    let bSizeIndicator := ofOctets bytes >>> 7
    let nSize := ofOctets bytes &&& 0x7F
    let s := s.advanceBuf 1
    if bSizeIndicator = 0 then return (nSize, s)
    let (val, s) ← s.vlParseNByteLong mem nSize
    return (val % 2 ^ 32, s)
  else return (0, s.advanceBuf 1)

/-- `vlParseBufferWorker`: what is copied. Nothing is if `pResult` is null; and a count below zero
is one far beyond the memory. -/
def vlParseBuffer (pResult : Bool) (nBytes _nBufCapacity : ℤ) :
    Option (List UInt8 × BufStream) :=
  let nBytes := s.smaller nBytes
  if pResult then
    if nBytes < 0 then none
    else do
      let bytes ← bytesAt mem s.currentBuf nBytes.toNat
      return (bytes, s.advanceBuf nBytes)
  else return ([], s.advanceBuf nBytes)

/-! ## Writing -/

/-- The bytes of a number, the highest first. -/
def bytesOf (nBytes n : ℕ) : List UInt8 :=
  (List.range nBytes).map fun i => UInt8.ofNat (n >>> (8 * (nBytes - i - 1)))

theorem length_bytesOf (nBytes n : ℕ) : (bytesOf nBytes n).length = nBytes := by
  rw [bytesOf, List.length_map, List.length_range]

/-- `vlWriteNByteLongWorker`: the number of bytes, the memory and the stream. -/
def vlWriteNByteLong (nBytes : ℤ) (n : ℕ) : Option (ℤ × List UInt8 × BufStream) :=
  if s.canUse nBytes then do
    let mem ← writeAt mem s.currentBuf (bytesOf nBytes.toNat n)
    return (nBytes, mem, s.advanceBuf nBytes)
  else return (0, mem, s.advanceBuf nBytes)

/-- How many bytes a length needs, of four. -/
def sizeOfLength (nLength : ℕ) : ℕ :=
  (List.range 4).foldl
    (fun nSize i => if nLength >>> (8 * i) &&& 0xFF ≠ 0 then i + 1 else nSize) 0

/-- `vlWriteCcApduLengthFieldWorker` -/
def vlWriteCcApduLengthField (nLength : ℕ) : Option (ℤ × List UInt8 × BufStream) :=
  if s.canUse 1 then
    if nLength ≤ 127 then do
      let mem ← writeAt mem s.currentBuf [UInt8.ofNat nLength]
      return (1, mem, s.advanceBuf 1)
    else do
      let nSize := sizeOfLength nLength
      let mem ← writeAt mem s.currentBuf [UInt8.ofNat (0x80 ||| nSize)]
      let (nBytes, mem, s) ← (s.advanceBuf 1).vlWriteNByteLong mem nSize nLength
      return (1 + nBytes, mem, s)
  else return (0, mem, s.advanceBuf 1)

/-- `vlWriteBufferWorker`; zeros are written if `pBuffer` is null. -/
def vlWriteBuffer (pBuffer : Option (ℕ → UInt8)) (nBytes nBufCapacity : ℤ) :
    Option (ℤ × List UInt8 × BufStream) :=
  if s.canUse nBytes then
    if nBytes < 0 then none
    else do
      let bytes := (List.range nBytes.toNat).map (pBuffer.getD fun _ => 0)
      let mem ← writeAt mem s.currentBuf bytes
      return (if nBytes < nBufCapacity then nBytes else nBufCapacity, mem, s.advanceBuf nBytes)
  else return (0, mem, s.advanceBuf nBytes)

/-! ## What is ahead of a stream -/

theorem advanceBuf_advanceBuf (s : BufStream) (a b : ℤ) :
    (s.advanceBuf a).advanceBuf b = s.advanceBuf (a + b) := by
  rw [advanceBuf, advanceBuf, advanceBuf]
  rw [int32, int32, int32, Int.bmod_add_bmod, Int.add_assoc]

variable {mem s} {xs ys : List UInt8}

/-- The bytes that a stream can use next. -/
structure Ahead (mem : List UInt8) (s : BufStream) (xs : List UInt8) : Prop where
  buffer : 0 ≤ s.pBuffer
  position : 0 ≤ s.iPosition
  room : s.iPosition + xs.length ≤ s.nCapacity
  capacity : s.nCapacity < 2 ^ 31
  memory : xs <+: mem.drop s.currentBuf.toNat

theorem Ahead.currentBuf_nonneg (h : s.Ahead mem xs) : 0 ≤ s.currentBuf :=
  Int.add_nonneg h.buffer h.position

theorem Ahead.bytesAt (h : s.Ahead mem xs) : bytesAt mem s.currentBuf xs.length = some xs := by
  rw [MediaFramework.bytesAt]
  split_ifs with hnil hplace
  · rw [List.length_eq_zero_iff.mp hnil]
  · obtain ⟨rest, hrest⟩ := h.memory
    have hlength := congrArg List.length hrest
    rw [List.length_append, List.length_drop] at hlength
    rw [octets, if_pos (by omega), ← hrest, List.take_left]
  · exact absurd h.currentBuf_nonneg hplace

theorem Ahead.canUse (h : s.Ahead mem xs) : s.canUse xs.length = true := by
  have := h.position
  have := h.room
  have := h.capacity
  rw [BufStream.canUse, int32_of_range (by omega) (by omega)]
  exact decide_eq_true h.room

theorem Ahead.iPosition_advanceBuf (h : s.Ahead mem xs) {n : ℕ} (hn : n ≤ xs.length) :
    (s.advanceBuf n).iPosition = s.iPosition + n := by
  have := h.position
  have := h.room
  have := h.capacity
  exact int32_of_range (by omega) (by omega)

theorem Ahead.currentBuf_advanceBuf (h : s.Ahead mem xs) {n : ℕ} (hn : n ≤ xs.length) :
    (s.advanceBuf n).currentBuf = s.currentBuf + n := by
  rw [currentBuf, h.iPosition_advanceBuf hn, currentBuf, Int.add_assoc]
  rfl

@[simp] theorem currentBuf_child (s : BufStream) (len : ℤ) :
    (s.child len).currentBuf = s.currentBuf := Int.add_zero _

theorem Ahead.append (xs : List UInt8) (h : s.Ahead mem (xs ++ ys)) :
    s.Ahead mem xs ∧ (s.advanceBuf xs.length).Ahead mem ys := by
  have hroom := h.room
  rw [List.length_append] at hroom
  have hposition := h.iPosition_advanceBuf (n := xs.length)
    (by rw [List.length_append]; exact Nat.le_add_right _ _)
  have hplace := h.currentBuf_advanceBuf (n := xs.length)
    (by rw [List.length_append]; exact Nat.le_add_right _ _)
  have hcurrent := h.currentBuf_nonneg
  obtain ⟨rest, hrest⟩ := h.memory
  refine ⟨⟨h.buffer, h.position, by omega, h.capacity, ys ++ rest, ?_⟩,
    ⟨h.buffer, ?_, ?_, h.capacity, rest, ?_⟩⟩
  · rw [← hrest, List.append_assoc]
  · have := h.position
    omega
  · rw [hposition]
    show _ ≤ s.nCapacity
    omega
  · rw [hplace, Int.toNat_add hcurrent (Int.natCast_nonneg _), Int.toNat_natCast,
      ← List.drop_drop, ← hrest, List.append_assoc, List.drop_left]

theorem Ahead.advanceBuf_zero (h : s.Ahead mem xs) : s.advanceBuf (0 : ℕ) = s := by
  have hposition : int32 (s.iPosition + (0 : ℕ)) = s.iPosition + (0 : ℕ) :=
    h.iPosition_advanceBuf (Nat.zero_le _)
  rw [advanceBuf, hposition, Int.natCast_zero, Int.add_zero]

/-- A stream over all that is left. -/
theorem Ahead.child_remainder (h : s.Ahead mem xs) : (s.child s.remainder).Ahead mem xs := by
  have hposition := h.position
  have hroom := h.room
  have hcapacity := h.capacity
  have hremainder : s.remainder = s.nCapacity - s.iPosition :=
    int32_of_range (by omega) (by omega)
  refine ⟨h.currentBuf_nonneg, Int.le_refl 0, ?_, ?_, ?_⟩
  · show 0 + (xs.length : ℤ) ≤ s.remainder
    omega
  · show s.remainder < 2 ^ 31
    omega
  · rw [currentBuf_child]
    exact h.memory

theorem ahead_inst (h : (mem.length : ℤ) < 2 ^ 31) : (inst mem).Ahead mem mem where
  buffer := Int.le_refl 0
  position := Int.le_refl 0
  room := Int.le_of_eq (Int.zero_add _)
  capacity := h
  memory := List.prefix_refl mem

/-! ## What is read -/

theorem readNByteLong_of_ahead (h : s.Ahead mem xs) :
    s.readNByteLong mem xs.length = some (ofOctets xs, s.advanceBuf xs.length) := by
  rw [readNByteLong, if_pos h.canUse, h.bytesAt]
  rfl

/-- A number that fits 64 bits. -/
theorem foldl_eq_ofOctets (hxs : ofOctets xs < 2 ^ 64) :
    xs.foldl (fun val b => val <<< 8 % 2 ^ 64 ||| b.toNat) 0 = ofOctets xs := by
  induction xs using List.reverseRecOn with
  | nil => rfl
  | append_singleton xs b ih =>
    have hconcat : ofOctets (xs ++ [b]) = ofOctets xs <<< 8 ||| b.toNat := by
      rw [ofOctets, List.foldl_append]
      rfl
    rw [ofOctets_concat] at hxs
    have hshift : ofOctets xs * 256 < 2 ^ 64 := Nat.lt_of_le_of_lt (Nat.le_add_right _ _) hxs
    have hsmall : ofOctets xs <<< 8 < 2 ^ 64 := by rwa [Nat.shiftLeft_eq]
    have hlt := Nat.lt_of_le_of_lt (Nat.le_mul_of_pos_right (ofOctets xs) (by decide)) hshift
    rw [hconcat, List.foldl_append, ih hlt, List.foldl_cons, List.foldl_nil,
      Nat.mod_eq_of_lt hsmall]

theorem vlParseNByteLong_of_lt (h : s.Ahead mem xs) (hxs : ofOctets xs < 2 ^ 64) :
    s.vlParseNByteLong mem xs.length = some (ofOctets xs, s.advanceBuf xs.length) := by
  rw [vlParseNByteLong, if_pos h.canUse, Int.toNat_natCast, h.bytesAt,
    ← foldl_eq_ofOctets hxs]
  rfl

theorem vlParseNByteLong_of_ahead (h : s.Ahead mem xs) (hxs : xs.length ≤ 8) :
    s.vlParseNByteLong mem xs.length = some (ofOctets xs, s.advanceBuf xs.length) :=
  vlParseNByteLong_of_lt h (Nat.lt_of_lt_of_le (ofOctets_lt xs)
    (Nat.pow_le_pow_right (by decide) hxs))

theorem smaller_of_ahead (h : s.Ahead mem xs) : s.smaller xs.length = xs.length := by
  have := h.position
  have := h.room
  have := h.capacity
  rw [smaller, remainder, int32_of_range (by omega) (by omega)]
  exact if_pos (by omega)

theorem vlParseBuffer_of_ahead (h : s.Ahead mem xs) (pResult : Bool) (nBufCapacity : ℤ) :
    s.vlParseBuffer mem pResult xs.length nBufCapacity =
      some (if pResult then xs else [], s.advanceBuf xs.length) := by
  rw [vlParseBuffer, smaller_of_ahead h]
  cases pResult with
  | false => rfl
  | true =>
    rw [if_pos rfl, if_neg (by omega), Int.toNat_natCast, h.bytesAt]
    rfl

/-! ## What is written -/

/-- Where the bytes stand in the memory. -/
theorem Ahead.split (h : s.Ahead mem xs) (hne : xs ≠ []) :
    ∃ front back, mem = front ++ (xs ++ back) ∧ s.currentBuf = front.length := by
  have hcurrent := h.currentBuf_nonneg
  obtain ⟨back, hback⟩ := h.memory
  refine ⟨mem.take s.currentBuf.toNat, back, ?_, ?_⟩
  · rw [hback, List.take_append_drop]
  · have hlength := congrArg List.length hback
    have := List.length_pos_iff.mpr hne
    rw [List.length_append, List.length_drop] at hlength
    rw [List.length_take]
    omega

theorem writeAt_split {front mid back zs : List UInt8} {a : ℤ} (ha : a = front.length)
    (hmid : mid.length = zs.length) :
    writeAt (front ++ (mid ++ back)) a zs = some (front ++ (zs ++ back)) := by
  subst ha
  rw [writeAt]
  split_ifs with hnil hplace
  · rw [hnil, List.length_nil] at hmid
    rw [hnil, List.length_eq_zero_iff.mp hmid]
  · rw [Int.toNat_natCast, List.take_left, ← List.drop_drop, List.drop_left,
      List.drop_left' hmid, List.append_assoc]
  · refine absurd ⟨Int.natCast_nonneg _, ?_⟩ hplace
    rw [Int.toNat_natCast, List.length_append, List.length_append]
    omega

/-- Some of the bytes are written over. -/
theorem Ahead.write (ws xs zs : List UInt8) (h : s.Ahead mem (ws ++ (xs ++ ys)))
    (hzs : xs.length = zs.length) :
    ∃ mem', writeAt mem (s.currentBuf + ws.length) zs = some mem' ∧
      s.Ahead mem' (ws ++ (zs ++ ys)) := by
  by_cases hnil : ws ++ (xs ++ ys) = []
  · obtain ⟨rfl, hrest⟩ := List.append_eq_nil_iff.mp hnil
    obtain ⟨rfl, rfl⟩ := List.append_eq_nil_iff.mp hrest
    obtain rfl := List.length_eq_zero_iff.mp hzs.symm
    exact ⟨mem, rfl, h⟩
  · obtain ⟨front, back, rfl, hplace⟩ := h.split hnil
    refine ⟨front ++ ws ++ (zs ++ (ys ++ back)), ?_, h.buffer, h.position, ?_, h.capacity, ?_⟩
    · rw [show front ++ (ws ++ (xs ++ ys) ++ back) = front ++ ws ++ (xs ++ (ys ++ back)) by
        simp only [List.append_assoc]]
      refine writeAt_split ?_ hzs
      rw [hplace, List.length_append, Int.natCast_add]
    · have hroom := h.room
      simp only [List.length_append] at hroom ⊢
      omega
    · rw [hplace, Int.toNat_natCast, List.append_assoc, List.drop_left]
      exact ⟨back, by simp only [List.append_assoc]⟩

end BufStream

end MediaFramework
