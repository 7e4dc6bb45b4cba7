import MediaFramework.Lib.BitNumber
import MediaFramework.Pod.BufParse

/-!
# The length fields of the card's protocols

A length below 128 is one byte. A greater one follows, the highest byte first, behind a byte that
tells how many bytes it has. There are three encoders of this format and three decoders, each
written on its own. The streams (`vlWriteCcApduLengthField`, `vlParseCcApduLengthField`) go up to
four bytes, all the others up to two; but of the encoders only `buildApduHeader` refuses what it
cannot encode.
-/

namespace MediaFramework

open BufStream

/-! ## `ci.c` -/

/-- `ByteStreamPutWord`, for the low 16 bits of a number. -/
def byteStreamPutWord (data : ℕ) : List UInt8 := [UInt8.ofNat (data >>> 8), UInt8.ofNat data]

/-- `ByteStreamGetWord` -/
def byteStreamGetWord (stream : List UInt8) (i : ℕ) : Option ℕ := do
  let high ← octet stream i
  let low ← octet stream (i + 1)
  return high <<< 8 ||| low

/-- `ci_SetLength`: the field. -/
def ciSetLength (lSize : ℕ) : List UInt8 :=
  if lSize < 0x80 then [UInt8.ofNat lSize] else (0x80 + 2) :: byteStreamPutWord lSize

/-- `ci_GetLength`: the length, in 16 bits, and the size of the field. -/
def ciGetLength (pData : List UInt8) : Option (ℕ × ℕ) := do
  let b ← octet pData 0
  if b &&& 0x80 = 0 then return (b &&& 0x7F, 1)
  let bSizeLength := b &&& 0x7F
  let lSize ← (List.range bSizeLength).foldlM (fun lSize i => do
    let b ← octet pData (1 + i)
    return (lSize + b <<< (8 * (bSizeLength - 1 - i))) % 2 ^ 16) 0
  return (lSize, bSizeLength + 1)

/-! ## `utils.c` -/

/-- `buildApduHeader`: the header and what is written to `apduLen`, or nothing where it returns
a null pointer. -/
def buildApduHeader (tag : ℕ) (dataLen : UInt16) : Option (List UInt8 × ℕ) :=
  let hdr := [UInt8.ofNat (tag >>> 16), UInt8.ofNat (tag >>> 8), UInt8.ofNat tag]
  let n := dataLen.toNat
  if n < 128 then some (hdr ++ [UInt8.ofNat n], (3 + n + 1) % 2 ^ 16)
  else if n < 256 then some (hdr ++ [0x81, UInt8.ofNat n], (3 + n + 2) % 2 ^ 16)
  else if n < 65535 then
    some (hdr ++ [0x82, UInt8.ofNat (n >>> 8), UInt8.ofNat n], (3 + n + 3) % 2 ^ 16)
  else none

/-- `bGetTLVLength`: the length and the size of the field. -/
def bGetTLVLength (pData : List UInt8) : Option (ℕ × ℕ) := do
  let b ← octet pData 0
  if b &&& 0x82 = 0x82 then
    let n ← byteStreamGetWord pData 1
    return (n, 3)
  else if b &&& 0x81 = 0x81 then
    let n ← octet pData 1
    return (n, 2)
  else return (b &&& 0x7F, 1)

/-! ## The fields -/

/-- The encoders: the field for a length that they accept. -/
inductive LengthEncoder
  | vlWriteCcApduLengthField
  | buildApduHeader (tag : ℕ)
  | ciSetLength

/-- The decoders. -/
inductive LengthDecoder
  | vlParseCcApduLengthField
  | bGetTLVLength
  | ciGetLength

/-- The field. The stream has room for the five bytes that it may need. -/
def LengthEncoder.field (n : ℕ) : LengthEncoder → Option (List UInt8)
  | .vlWriteCcApduLengthField => do
    let mem := List.replicate 5 0
    let (_, mem, s) ← (inst mem).vlWriteCcApduLengthField mem n
    return mem.take s.iPosition.toNat
  | .buildApduHeader tag =>
    if n < 2 ^ 16 then
      (MediaFramework.buildApduHeader tag (UInt16.ofNat n)).map fun a => a.1.drop 3
    else none
  | .ciSetLength => some (MediaFramework.ciSetLength n)

/-- The length, and how many bytes it was read from. -/
def LengthDecoder.length (bytes : List UInt8) : LengthDecoder → Option (ℕ × ℕ)
  | .vlParseCcApduLengthField => do
    let (n, s) ← (inst bytes).vlParseCcApduLengthField bytes
    return (n, s.iPosition.toNat)
  | .bGetTLVLength => MediaFramework.bGetTLVLength bytes
  | .ciGetLength => MediaFramework.ciGetLength bytes

/-- **The codecs agree on a length.** Each decoder gets it back, with the size of the field, from
what each encoder that accepts it has written, whatever follows. -/
def LengthsAgree (n : ℕ) : Prop :=
  ∀ (e : LengthEncoder) (d : LengthDecoder), ∀ field ∈ e.field n, ∀ rest : List UInt8,
    (field ++ rest).length < 2 ^ 31 → d.length (field ++ rest) = some (n, field.length)

/-- **The streams agree.** What is written to a stream with room for it is read back from there,
and the stream then stands where it stood after the write. -/
def StreamsAgree (n : ℕ) : Prop :=
  ∀ (mem : List UInt8) (s : BufStream) (xs : List UInt8), s.Ahead mem xs →
    (if n ≤ 127 then 1 else 1 + sizeOfLength n) ≤ xs.length →
      ∃ size mem' s', s.vlWriteCcApduLengthField mem n = some (size, mem', s') ∧
        s.vlParseCcApduLengthField mem' = some (n, s') ∧ s'.iPosition = s.iPosition + size

/-- The three forms that a length below 2 ^ 16 may take. -/
inductive Encodes (n : ℕ) : List UInt8 → Prop
  | short (h : n < 128) : Encodes n [UInt8.ofNat n]
  | one (h : n < 256) : Encodes n [0x81, UInt8.ofNat n]
  | two (h : n < 2 ^ 16) : Encodes n [0x82, UInt8.ofNat (n >>> 8), UInt8.ofNat n]

section Codecs

variable {n : ℕ} {field : List UInt8}

theorem word_of_bytes (h : n < 2 ^ 16) :
    (UInt8.ofNat (n >>> 8)).toNat <<< 8 ||| (UInt8.ofNat n).toNat = n := by
  rw [← Nat.shiftLeft_add_eq_or_of_lt (UInt8.ofNat n).toNat_lt, UInt8.toNat_ofNat',
    UInt8.toNat_ofNat', Nat.shiftLeft_eq, Nat.shiftRight_eq_div_pow]
  omega

/-! ## The streams -/

/-- What `vlWriteCcApduLengthField` writes. -/
def ccField (n : ℕ) : List UInt8 :=
  if n ≤ 127 then [UInt8.ofNat n]
  else UInt8.ofNat (0x80 ||| sizeOfLength n) :: bytesOf (sizeOfLength n) n

theorem bytesOf_succ (k n : ℕ) : bytesOf (k + 1) n = bytesOf k (n >>> 8) ++ [UInt8.ofNat n] := by
  rw [bytesOf, bytesOf, List.range_succ, List.map_append, List.map_singleton]
  congr 1
  · refine List.map_congr_left fun i hi => ?_
    have hi : i < k := List.mem_range.mp hi
    rw [← Nat.shiftRight_add]
    congr 2
    omega
  · rw [show k + 1 - k - 1 = 0 by omega]
    rfl

theorem bytesOf_eq_toOctets (k : ℕ) : ∀ n, bytesOf k n = toOctets k n := by
  induction k with
  | zero => exact fun _ => rfl
  | succ k ih =>
    intro n
    rw [bytesOf_succ, ih, toOctets, Nat.shiftRight_eq_div_pow]

theorem sizeOfLength_eq (n : ℕ) :
    sizeOfLength n = if n / 256 ^ 3 % 256 ≠ 0 then 4 else if n / 256 ^ 2 % 256 ≠ 0 then 3
      else if n / 256 ^ 1 % 256 ≠ 0 then 2 else if n / 256 ^ 0 % 256 ≠ 0 then 1 else 0 := by
  have hbyte : ∀ i, n >>> (8 * i) &&& 0xFF = n / 256 ^ i % 256 := by
    intro i
    rw [show 0xFF = 2 ^ 8 - 1 from rfl, Nat.and_two_pow_sub_one_eq_mod,
      Nat.shiftRight_eq_div_pow, Nat.pow_mul]
  unfold sizeOfLength
  simp only [hbyte]
  rfl

/-- Four bytes are enough for what an `unsigned long` holds. -/
theorem sizeOfLength_spec (hn : n < 2 ^ 32) :
    sizeOfLength n ≤ 4 ∧ n < 256 ^ sizeOfLength n := by
  rw [sizeOfLength_eq]
  split_ifs <;> exact ⟨by decide, by omega⟩

theorem length_ccField (n : ℕ) :
    (ccField n).length = if n ≤ 127 then 1 else 1 + sizeOfLength n := by
  rw [ccField]
  split_ifs
  · rfl
  · rw [List.length_cons, length_bytesOf, Nat.add_comm]

variable {mem xs : List UInt8} {s : BufStream}

/-- **The write.** -/
theorem vlWriteCcApduLengthField_of_ahead (h : s.Ahead mem xs)
    (hroom : (ccField n).length ≤ xs.length) :
    ∃ mem' : List UInt8, s.vlWriteCcApduLengthField mem n =
        some (((ccField n).length : ℤ), mem', s.advanceBuf (ccField n).length) ∧
      s.Ahead mem' (ccField n) := by
  obtain ⟨x, xs, rfl⟩ : ∃ x xs', xs = x :: xs' := by
    refine List.exists_cons_of_length_pos (Nat.lt_of_lt_of_le ?_ hroom)
    rw [length_ccField]
    split_ifs <;> omega
  have hcan : s.canUse 1 = true := (h.append [x]).1.canUse
  rw [vlWriteCcApduLengthField, if_pos hcan]
  by_cases hn : n ≤ 127
  · have hfield : ccField n = [UInt8.ofNat n] := if_pos hn
    obtain ⟨mem', hwrite, h'⟩ := h.write [] [x] [UInt8.ofNat n] rfl
    rw [List.length_nil, Int.natCast_zero, Int.add_zero] at hwrite
    rw [if_pos hn, hfield, hwrite]
    exact ⟨mem', rfl, (h'.append [UInt8.ofNat n]).1⟩
  · let b := UInt8.ofNat (0x80 ||| sizeOfLength n)
    have hfield : ccField n = b :: bytesOf (sizeOfLength n) n := if_neg hn
    rw [if_neg hn]
    rw [hfield, List.length_cons, length_bytesOf] at hroom ⊢
    obtain ⟨mid, ys, rfl, hmid⟩ : ∃ mid ys, xs = mid ++ ys ∧ mid.length = sizeOfLength n :=
      ⟨_, _, (List.take_append_drop (sizeOfLength n) xs).symm, by
        rw [List.length_take]
        rw [List.length_cons] at hroom
        omega⟩
    obtain ⟨mem₁, hwrite₁, h₁⟩ := h.write [] [x] [b] rfl
    obtain ⟨mem₂, hwrite₂, h₂⟩ := h₁.write [b] mid (bytesOf (sizeOfLength n) n)
      (hmid.trans (length_bytesOf _ _).symm)
    have hplace : (s.advanceBuf 1).currentBuf = s.currentBuf + 1 :=
      h₁.currentBuf_advanceBuf (n := 1) (Nat.le_add_left 1 _)
    have hcan₂ := ((h₁.append [b]).2.append mid).1.canUse
    rw [hmid] at hcan₂
    have hwrite : (s.advanceBuf 1).vlWriteNByteLong mem₁ (sizeOfLength n) n =
        some ((sizeOfLength n : ℤ), mem₂, s.advanceBuf (sizeOfLength n + 1 : ℕ)) := by
      rw [vlWriteNByteLong, if_pos (by exact hcan₂), Int.toNat_natCast, hplace,
        show s.currentBuf + 1 = s.currentBuf + [b].length from rfl, hwrite₂,
        advanceBuf_advanceBuf, Int.natCast_add, Int.add_comm (sizeOfLength n : ℤ)]
      rfl
    rw [List.length_nil, Int.natCast_zero, Int.add_zero] at hwrite₁
    dsimp only
    rw [hwrite₁]
    refine ⟨mem₂, ?_, ((h₂.append (b :: bytesOf (sizeOfLength n) n)).1)⟩
    show (do
      let (nBytes, mem, s) ← (s.advanceBuf 1).vlWriteNByteLong mem₁ (sizeOfLength n) n
      return (1 + nBytes, mem, s)) = _
    rw [hwrite, Nat.add_comm, Int.natCast_add]
    rfl

/-- The first byte decides. -/
theorem vlParseCcApduLengthField_cons {b : UInt8} {body : List UInt8}
    (h : s.Ahead mem (b :: body)) :
    s.vlParseCcApduLengthField mem =
      if b.toNat >>> 7 = 0 then some (b.toNat &&& 0x7F, s.advanceBuf 1)
      else ((s.advanceBuf 1).vlParseNByteLong mem (b.toNat &&& 0x7F : ℕ)).map
        fun a => (a.1 % 2 ^ 32, a.2) := by
  have hfirst := (h.append [b]).1
  have hcan : s.canUse 1 = true := hfirst.canUse
  have hread : bytesAt mem s.currentBuf 1 = some [b] := hfirst.bytesAt
  have hb : ofOctets [b] = b.toNat := Nat.zero_or _
  rw [vlParseCcApduLengthField, if_pos hcan, hread]
  dsimp only [Option.bind_eq_bind, Option.bind_some]
  rw [hb]
  split_ifs
  · rfl
  · cases (s.advanceBuf 1).vlParseNByteLong mem (b.toNat &&& 0x7F : ℕ) <;> rfl

/-- A length in the first byte. -/
theorem vlParseCcApduLengthField_short (hn : n < 128) (h : s.Ahead mem (UInt8.ofNat n :: xs)) :
    s.vlParseCcApduLengthField mem = some (n, s.advanceBuf 1) := by
  rw [vlParseCcApduLengthField_cons h, UInt8.toNat_ofNat_of_lt' (show n < 256 by omega), if_pos,
    show 0x7F = 2 ^ 7 - 1 from rfl, Nat.and_two_pow_sub_one_eq_mod, Nat.mod_eq_of_lt hn]
  rw [Nat.shiftRight_eq_div_pow]
  omega

/-- A length in the bytes that follow. -/
theorem vlParseCcApduLengthField_long (body : List UInt8) {b : UInt8} (hbody : body.length ≤ 127)
    (hlt : ofOctets body < 2 ^ 32) (hb : b.toNat = 0x80 ||| body.length)
    (h : s.Ahead mem (b :: (body ++ xs))) :
    s.vlParseCcApduLengthField mem = some (ofOctets body, s.advanceBuf (body.length + 1 : ℕ)) := by
  have hmask : ∀ k ≤ 127, (0x80 ||| k) >>> 7 ≠ 0 ∧ (0x80 ||| k) &&& 0x7F = k := by decide
  obtain ⟨hlong, hsize⟩ := hmask body.length hbody
  have hread : (s.advanceBuf 1).vlParseNByteLong mem body.length = _ :=
    vlParseNByteLong_of_lt ((h.append [b]).2.append body).1 (by omega)
  rw [vlParseCcApduLengthField_cons h, hb, if_neg hlong, hsize, hread, Option.map_some,
    Nat.mod_eq_of_lt hlt]
  rw [advanceBuf_advanceBuf, Int.natCast_add, Int.add_comm (body.length : ℤ)]
  rfl

/-- **The read.** -/
theorem vlParseCcApduLengthField_of_ahead (hn : n < 2 ^ 32) (h : s.Ahead mem (ccField n)) :
    s.vlParseCcApduLengthField mem = some (n, s.advanceBuf (ccField n).length) := by
  by_cases hn₁ : n ≤ 127
  · have hfield : ccField n = [UInt8.ofNat n] := if_pos hn₁
    rw [hfield] at h ⊢
    exact vlParseCcApduLengthField_short (by omega) h
  · obtain ⟨hsize, hlt⟩ := sizeOfLength_spec hn
    have hfield : ccField n =
        UInt8.ofNat (0x80 ||| sizeOfLength n) :: (bytesOf (sizeOfLength n) n ++ []) := by
      rw [List.append_nil]
      exact if_neg hn₁
    have hlength := length_bytesOf (sizeOfLength n) n
    have hmark : ∀ k ≤ 4, 0x80 ||| k < 256 := by decide
    rw [hfield] at h ⊢
    have hvalue : ofOctets (bytesOf (sizeOfLength n) n) = n := by
      rw [bytesOf_eq_toOctets, ofOctets_toOctets _ _ hlt]
    rw [vlParseCcApduLengthField_long _ (by omega) (by rw [hvalue]; exact hn) _ h, hvalue,
      List.append_nil, List.length_cons]
    rw [hlength, UInt8.toNat_ofNat_of_lt' (hmark _ hsize)]

/-- **The streams agree**, on all that an `unsigned long` holds. -/
theorem streamsAgree (hn : n < 2 ^ 32) : StreamsAgree n := by
  intro mem s xs h hroom
  rw [← length_ccField] at hroom
  obtain ⟨mem', hwrite, h'⟩ := vlWriteCcApduLengthField_of_ahead h hroom
  exact ⟨_, _, _, hwrite, vlParseCcApduLengthField_of_ahead hn h',
    h'.iPosition_advanceBuf (Nat.le_refl _)⟩

/-! ## The three forms -/

theorem encodes_ciSetLength (h : n < 2 ^ 16) : Encodes n (ciSetLength n) := by
  rw [ciSetLength]
  split_ifs with hn
  · exact .short hn
  · exact .two h

theorem encodes_ccField (h : n < 2 ^ 16) : Encodes n (ccField n) := by
  rw [ccField]
  split_ifs with hn
  · exact .short (by omega)
  · rw [sizeOfLength_eq]
    split_ifs with h₃ h₂ h₁ h₀
    · omega
    · omega
    · exact .two h
    · exact .one (by omega)
    · omega

theorem encodes_buildApduHeader {tag len : ℕ} {hdr : List UInt8} {dataLen : UInt16}
    (h : buildApduHeader tag dataLen = some (hdr, len)) : Encodes dataLen.toNat (hdr.drop 3) := by
  rw [buildApduHeader] at h
  split_ifs at h with h₁ h₂ h₃
  · obtain ⟨rfl, -⟩ := Prod.mk.inj (Option.some.inj h)
    exact .short h₁
  · obtain ⟨rfl, -⟩ := Prod.mk.inj (Option.some.inj h)
    exact .one h₂
  · obtain ⟨rfl, -⟩ := Prod.mk.inj (Option.some.inj h)
    exact .two (by omega)

/-- **What the encoders write.** -/
theorem encodes_field {e : LengthEncoder} (hn : n < 2 ^ 16) (h : e.field n = some field) :
    Encodes n field := by
  cases e with
  | vlWriteCcApduLengthField =>
    have hahead : (inst (List.replicate 5 0)).Ahead (List.replicate 5 0) (List.replicate 5 0) :=
      ahead_inst (by decide)
    have hsize : (ccField n).length ≤ 5 := by
      rw [length_ccField]
      have := (sizeOfLength_spec (n := n) (by omega)).1
      split_ifs <;> omega
    obtain ⟨mem', hwrite, h'⟩ := vlWriteCcApduLengthField_of_ahead hahead hsize
    have hend : ((inst (List.replicate 5 0)).advanceBuf (ccField n).length).iPosition.toNat =
        (ccField n).length := by
      rw [h'.iPosition_advanceBuf (Nat.le_refl _)]
      show ((0 : ℤ) + (ccField n).length).toNat = (ccField n).length
      rw [Int.zero_add, Int.toNat_natCast]
    have hfield : ccField n = mem'.take (ccField n).length := List.prefix_iff_eq_take.mp h'.memory
    rw [LengthEncoder.field] at h
    rw [hwrite] at h
    obtain rfl := Option.some.inj h
    rw [hend, ← hfield]
    exact encodes_ccField hn
  | buildApduHeader tag =>
    rw [LengthEncoder.field, if_pos hn] at h
    obtain ⟨⟨hdr, len⟩, hbuild, rfl⟩ := Option.map_eq_some_iff.mp h
    have := encodes_buildApduHeader hbuild
    rwa [UInt16.toNat_ofNat', Nat.mod_eq_of_lt hn] at this
  | ciSetLength =>
    obtain rfl := Option.some.inj h
    exact encodes_ciSetLength hn

/-- The bits that tell the forms apart, in a length of one byte. -/
theorem short_masks : ∀ n < 128, n &&& 0x82 ≠ 0x82 ∧ n &&& 0x81 ≠ 0x81 ∧ n &&& 0x80 = 0 ∧
    n &&& 0x7F = n := by decide

theorem bGetTLVLength_of_encodes (h : Encodes n field) (rest : List UInt8) :
    bGetTLVLength (field ++ rest) = some (n, field.length) := by
  rw [bGetTLVLength]
  cases h with
  | short h =>
    obtain ⟨h₂, h₁, -, hlow⟩ := short_masks n h
    rw [List.singleton_append, octet_cons_zero, UInt8.toNat_ofNat_of_lt' (show n < 256 by omega)]
    dsimp only [Option.bind_eq_bind, Option.bind_some]
    rw [if_neg h₂, if_neg h₁, hlow]
    rfl
  | one h =>
    rw [List.cons_append, octet_cons_zero, octet_cons_succ, List.singleton_append,
      octet_cons_zero, UInt8.toNat_ofNat_of_lt' h]
    rfl
  | two h =>
    show some ((UInt8.ofNat (n >>> 8)).toNat <<< 8 ||| (UInt8.ofNat n).toNat, 3) = _
    rw [word_of_bytes h]
    rfl

/-- **What the decoders read.** -/
theorem length_of_encodes (h : Encodes n field) (d : LengthDecoder) (rest : List UInt8)
    (hlength : (field ++ rest).length < 2 ^ 31) :
    d.length (field ++ rest) = some (n, field.length) := by
  cases d with
  | vlParseCcApduLengthField =>
    have hahead : (inst (field ++ rest)).Ahead (field ++ rest) (field ++ rest) :=
      ahead_inst (by exact_mod_cast hlength)
    have hend : ∀ k ≤ (field ++ rest).length,
        ((inst (field ++ rest)).advanceBuf k).iPosition.toNat = k := by
      intro k hk
      rw [hahead.iPosition_advanceBuf hk]
      show ((0 : ℤ) + k).toNat = k
      rw [Int.zero_add, Int.toNat_natCast]
    suffices h : (inst (field ++ rest)).vlParseCcApduLengthField (field ++ rest) =
        some (n, (inst (field ++ rest)).advanceBuf field.length) by
      rw [LengthDecoder.length, h]
      exact congrArg (fun k => some (n, k)) (hend field.length (by simp))
    cases h with
    | short h => exact vlParseCcApduLengthField_short h hahead
    | one h =>
      have hvalue : ofOctets [UInt8.ofNat n] = n := by
        rw [ofOctets, List.foldl_cons, List.foldl_nil, Nat.zero_shiftLeft, Nat.zero_or,
          UInt8.toNat_ofNat_of_lt' h]
      have hparse := vlParseCcApduLengthField_long [UInt8.ofNat n] (Nat.le_add_left 1 126)
        (by rw [hvalue]; omega) (show (0x81 : UInt8).toNat = 0x80 ||| 1 by decide) hahead
      rwa [hvalue] at hparse
    | two h =>
      have hvalue : ofOctets [UInt8.ofNat (n >>> 8), UInt8.ofNat n] = n := by
        rw [ofOctets, List.foldl_cons, List.foldl_cons, List.foldl_nil, Nat.zero_shiftLeft,
          Nat.zero_or, word_of_bytes h]
      have hparse := vlParseCcApduLengthField_long [UInt8.ofNat (n >>> 8), UInt8.ofNat n]
        (Nat.le_add_left 2 125) (by rw [hvalue]; omega)
        (show (0x82 : UInt8).toNat = 0x80 ||| 2 by decide) hahead
      rwa [hvalue] at hparse
  | bGetTLVLength => exact bGetTLVLength_of_encodes h rest
  | ciGetLength =>
    rw [LengthDecoder.length, ciGetLength]
    cases h with
    | short h =>
      obtain ⟨-, -, hhigh, hlow⟩ := short_masks n h
      rw [List.singleton_append, octet_cons_zero, UInt8.toNat_ofNat_of_lt' (show n < 256 by omega)]
      dsimp only [Option.bind_eq_bind, Option.bind_some]
      rw [if_pos hhigh, hlow]
      rfl
    | one h =>
      show some ((0 + (UInt8.ofNat n).toNat <<< 0) % 2 ^ 16, 2) = _
      rw [Nat.zero_add, UInt8.toNat_ofNat_of_lt' h, Nat.shiftLeft_zero, Nat.mod_eq_of_lt (by omega)]
      rfl
    | two h =>
      show some (((0 + (UInt8.ofNat (n >>> 8)).toNat <<< 8) % 2 ^ 16 +
        (UInt8.ofNat n).toNat <<< 0) % 2 ^ 16, 3) = _
      have hword := word_of_bytes h
      rw [← Nat.shiftLeft_add_eq_or_of_lt (UInt8.ofNat n).toNat_lt] at hword
      rw [Nat.zero_add, Nat.shiftLeft_zero, Nat.mod_add_mod, hword, Nat.mod_eq_of_lt h]
      rfl

/-- From 2 ^ 16 on, what `ciSetLength` writes is the field of a smaller length. -/
theorem lengthsAgree_iff : LengthsAgree n ↔ n < 2 ^ 16 := by
  constructor
  · intro h
    by_contra hn
    let field : List UInt8 := [0x82, UInt8.ofNat (n >>> 8), UInt8.ofNat n]
    have hfield : LengthEncoder.ciSetLength.field n = some field :=
      congrArg some (if_neg (by omega))
    have hread := h .ciSetLength .bGetTLVLength field hfield [] (show 3 < 2 ^ 31 by decide)
    have hword : (UInt8.ofNat (n >>> 8)).toNat <<< 8 ||| (UInt8.ofNat n).toNat = n :=
      congrArg Prod.fst (Option.some.inj hread)
    have hhigh := (UInt8.ofNat (n >>> 8)).toNat_lt
    have hlow := (UInt8.ofNat n).toNat_lt
    rw [← Nat.shiftLeft_add_eq_or_of_lt hlow, Nat.shiftLeft_eq] at hword
    omega
  · intro hn e d field hfield rest hlength
    exact length_of_encodes (encodes_field hn hfield) d rest hlength

/-- **The codecs.** The streams agree on all that an `unsigned long` holds; all six agree on what
fits in 16 bits, and on nothing else. -/
theorem lengthFields (hn : n < 2 ^ 32) : StreamsAgree n ∧ (LengthsAgree n ↔ n < 2 ^ 16) :=
  ⟨streamsAgree hn, lengthsAgree_iff⟩

theorem lengthFields_256 : StreamsAgree 256 ∧ (LengthsAgree 256 ↔ 256 < 2 ^ 16) :=
  lengthFields (by decide)

/-- A length of 65536 is written as zero. -/
theorem lengthFields_65536 : ¬ LengthsAgree 65536 := by
  intro h
  have hread := h .ciSetLength .bGetTLVLength [0x82, 0, 0] rfl [] (by decide)
  exact absurd (congrArg Prod.fst (Option.some.inj hread)) (by decide)

end Codecs

end MediaFramework
