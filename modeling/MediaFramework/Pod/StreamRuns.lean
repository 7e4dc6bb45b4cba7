import MediaFramework.Lib.Run
import MediaFramework.Pod.BufParse

/-!
# Runs over a stream and its children

An operation that does not find enough room still moves the stream on, and a child has the length
that it was given. So the position may leave the buffer, and then the next parsed buffer has a
length below zero, which `memcpy` takes for one far beyond the memory. And what is parsed into a
result is never compared with the room there.

A run stays inside as long as no operation moves a position out of what an `int` holds, no child
ends behind the buffer, and each buffer that is parsed into a result fits there.
-/

namespace MediaFramework

/-- What is called for a stream. -/
inductive StreamOp
  /-- `vlParseByte` up to `vlParseLongLong`, by the number of bytes -/
  | parse (n : ℕ)
  | parseNByteLong (nBytes : ℤ)
  | parseCcApduLengthField
  | parseBuffer (pResult : Bool) (nBytes nBufCapacity : ℤ)
  | writeNByteLong (nBytes : ℤ) (nLongLong : ℕ)
  | writeCcApduLengthField (nLength : ℕ)
  | writeBuffer (pBuffer : Option (ℕ → UInt8)) (nBytes nBufCapacity : ℤ)
  /-- `VL_BYTE_STREAM_PARENT_CHILD_INST` -/
  | child (len : ℤ)

/-- A buffer and the streams over it. -/
structure StreamRun where
  mem : List UInt8
  /-- the stream over the whole of it, then the children -/
  streams : List BufStream
  /-- ghost: what was copied into results, and how much room is in each -/
  copied : List (List UInt8 × ℤ) := []

namespace StreamRun

variable (r : StreamRun)

/-- A stream is moved. -/
def setStream (i : ℕ) (s : BufStream) : StreamRun := { r with streams := r.streams.set i s }

/-- A call for the `i`th stream, undefined where it leaves the buffer. -/
def step (call : ℕ × StreamOp) : Option StreamRun :=
  let i := call.1
  match r.streams[i]? with
  | none => some r
  | some s =>
    match call.2 with
    | .parse n => do
      let (_, s) ← s.readNByteLong r.mem n
      return r.setStream i s
    | .parseNByteLong nBytes => do
      let (_, s) ← s.vlParseNByteLong r.mem nBytes
      return r.setStream i s
    | .parseCcApduLengthField => do
      let (_, s) ← s.vlParseCcApduLengthField r.mem
      return r.setStream i s
    | .parseBuffer pResult nBytes nBufCapacity => do
      let (bytes, s) ← s.vlParseBuffer r.mem pResult nBytes nBufCapacity
      let r := if pResult then { r with copied := r.copied ++ [(bytes, nBufCapacity)] } else r
      return r.setStream i s
    | .writeNByteLong nBytes nLongLong => do
      let (_, mem, s) ← s.vlWriteNByteLong r.mem nBytes nLongLong
      return { r with mem := mem }.setStream i s
    | .writeCcApduLengthField nLength => do
      let (_, mem, s) ← s.vlWriteCcApduLengthField r.mem nLength
      return { r with mem := mem }.setStream i s
    | .writeBuffer pBuffer nBytes nBufCapacity => do
      let (_, mem, s) ← s.vlWriteBuffer r.mem pBuffer nBytes nBufCapacity
      return { r with mem := mem }.setStream i s
    | .child len =>
      let r := { r with streams := r.streams ++ [s.child len] }
      some (r.setStream i (s.advanceBuf len))

/-- A stream over a buffer, before anything is called. -/
def start (mem : List UInt8) : StreamRun := ⟨mem, [BufStream.inst mem], []⟩

/-- Every result has room for what was copied into it. -/
def Copies : Prop := ∀ c ∈ r.copied, (c.1.length : ℤ) ≤ c.2

end StreamRun

/-! ## What a call needs -/

namespace BufStream

variable (mem : List UInt8) (s : BufStream)

/-- The position can be moved on so far. -/
def Moves (len : ℤ) : Prop := 0 ≤ s.iPosition + len ∧ s.iPosition + len < 2 ^ 31

/-- **What a call needs**: a position that an `int` holds afterwards, a child that ends in the
buffer, and a result with room for what is parsed into it. -/
def Fits : StreamOp → Prop
  | .parse n => s.Moves n
  | .parseNByteLong nBytes => s.Moves nBytes
  | .parseCcApduLengthField => s.Moves 1 ∧ ∀ b : UInt8, s.canUse 1 = true →
      bytesAt mem s.currentBuf 1 = some [b] → 0x80 ≤ b.toNat →
        (s.advanceBuf 1).Moves (b.toNat &&& 0x7F : ℕ)
  | .parseBuffer pResult nBytes nBufCapacity =>
      -2 ^ 31 ≤ s.nCapacity - s.iPosition ∧ 0 ≤ s.iPosition + s.smaller nBytes ∧
        (pResult = true → 0 ≤ s.smaller nBytes ∧ s.smaller nBytes ≤ nBufCapacity)
  | .writeNByteLong nBytes _ => s.Moves nBytes
  | .writeCcApduLengthField nLength => s.Moves 1 ∧
      (s.canUse 1 = true → 127 < nLength → (s.advanceBuf 1).Moves (sizeOfLength nLength))
  | .writeBuffer _ nBytes _ => s.Moves nBytes ∧ (s.canUse nBytes = true → 0 ≤ nBytes)
  | .child len => s.Moves len ∧ -2 ^ 31 ≤ len ∧ len < 2 ^ 31 ∧
      (0 < len → s.currentBuf + len ≤ mem.length)

/-- **A stream is in order**: it ends in the buffer, and its position is not before it. -/
structure InOrder (mem : List UInt8) (s : BufStream) : Prop where
  buffer : 0 ≤ s.pBuffer
  position : 0 ≤ s.iPosition ∧ s.iPosition < 2 ^ 31
  capacity : -2 ^ 31 ≤ s.nCapacity ∧ s.nCapacity < 2 ^ 31
  inside : 0 < s.nCapacity → s.pBuffer + s.nCapacity ≤ mem.length

section Calls

variable {mem : List UInt8} {s : BufStream} {len : ℤ}

theorem canUse_iff (h : s.Moves len) : s.canUse len = true ↔ s.iPosition + len ≤ s.nCapacity := by
  obtain ⟨hlow, hhigh⟩ := h
  rw [canUse, int32_of_range (by omega) hhigh]
  exact decide_eq_true_iff

theorem InOrder.advanceBuf (hs : s.InOrder mem) (h : s.Moves len) :
    (s.advanceBuf len).InOrder mem := by
  obtain ⟨hlow, hhigh⟩ := h
  have hposition : (s.advanceBuf len).iPosition = s.iPosition + len :=
    int32_of_range (by omega) hhigh
  exact ⟨hs.buffer, by rw [hposition]; exact ⟨hlow, hhigh⟩, hs.capacity, hs.inside⟩

/-- Only how long the buffer is matters. -/
theorem InOrder.congr {mem' : List UInt8} (hs : s.InOrder mem) (h : mem'.length = mem.length) :
    s.InOrder mem' := ⟨hs.buffer, hs.position, hs.capacity, by rw [h]; exact hs.inside⟩

/-- Where there is room is in the buffer. -/
theorem InOrder.currentBuf_add_le (hs : s.InOrder mem) (hpos : 0 < len)
    (hroom : s.iPosition + len ≤ s.nCapacity) :
    0 ≤ s.currentBuf ∧ s.currentBuf + len ≤ mem.length := by
  have hbuffer := hs.buffer
  have hposition := hs.position
  have hinside := hs.inside (by omega)
  rw [currentBuf]
  omega

/-- What there is room for can be read. -/
theorem InOrder.bytesAt (hs : s.InOrder mem) (hroom : s.iPosition + len ≤ s.nCapacity) :
    ∃ bytes, bytesAt mem s.currentBuf len.toNat = some bytes ∧ bytes.length = len.toNat := by
  rw [MediaFramework.bytesAt]
  split_ifs with hzero hplace
  · exact ⟨[], rfl, hzero.symm⟩
  · obtain ⟨-, hend⟩ := hs.currentBuf_add_le (by omega) hroom
    refine ⟨_, if_pos (by omega), ?_⟩
    rw [List.length_take, List.length_drop]
    omega
  · exact absurd (hs.currentBuf_add_le (by omega) hroom).1 hplace

/-- And written. -/
theorem InOrder.writeAt (bytes : List UInt8) (hs : s.InOrder mem)
    (hroom : bytes ≠ [] → s.iPosition + bytes.length ≤ s.nCapacity) :
    ∃ mem', writeAt mem s.currentBuf bytes = some mem' ∧ mem'.length = mem.length := by
  rw [MediaFramework.writeAt]
  split_ifs with hnil hplace
  · exact ⟨mem, rfl, rfl⟩
  · refine ⟨_, rfl, ?_⟩
    simp only [List.length_append, List.length_take, List.length_drop]
    omega
  · have hpos := List.length_pos_iff.mpr hnil
    obtain ⟨hfront, hend⟩ := hs.currentBuf_add_le (by omega) (hroom hnil)
    exact absurd ⟨hfront, by omega⟩ hplace

/-! ## The parsers -/

theorem readNByteLong_inOrder {n : ℕ} (hs : s.InOrder mem) (h : s.Moves n) :
    ∃ v s', s.readNByteLong mem n = some (v, s') ∧ s'.InOrder mem := by
  rw [readNByteLong]
  split_ifs with hcan
  · obtain ⟨bytes, hbytes, -⟩ := hs.bytesAt ((canUse_iff h).mp hcan)
    rw [Int.toNat_natCast] at hbytes
    rw [hbytes]
    exact ⟨_, _, rfl, hs.advanceBuf h⟩
  · exact ⟨_, _, rfl, hs.advanceBuf h⟩

theorem vlParseNByteLong_inOrder (hs : s.InOrder mem) (h : s.Moves len) :
    ∃ v s', s.vlParseNByteLong mem len = some (v, s') ∧ s'.InOrder mem := by
  rw [vlParseNByteLong]
  split_ifs with hcan
  · obtain ⟨bytes, hbytes, -⟩ := hs.bytesAt ((canUse_iff h).mp hcan)
    rw [hbytes]
    exact ⟨_, _, rfl, hs.advanceBuf h⟩
  · exact ⟨_, _, rfl, hs.advanceBuf h⟩

theorem vlParseCcApduLengthField_inOrder (hs : s.InOrder mem)
    (h : s.Fits mem .parseCcApduLengthField) :
    ∃ v s', s.vlParseCcApduLengthField mem = some (v, s') ∧ s'.InOrder mem := by
  obtain ⟨hone, hlong⟩ := h
  have hadvanced := hs.advanceBuf hone
  rw [vlParseCcApduLengthField]
  split_ifs with hcan
  · obtain ⟨bytes, hbytes, hlength⟩ := hs.bytesAt ((canUse_iff hone).mp hcan)
    obtain ⟨b, rfl⟩ := List.length_eq_one_iff.mp hlength
    have hread : MediaFramework.bytesAt mem s.currentBuf 1 = some [b] := hbytes
    rw [hread]
    dsimp only [Option.bind_eq_bind, Option.bind_some]
    rw [ofOctets, List.foldl_cons, List.foldl_nil, Nat.zero_shiftLeft, Nat.zero_or]
    split_ifs with hshort
    · exact ⟨_, _, rfl, hadvanced⟩
    · have hlow : 0x80 ≤ b.toNat := by
        rw [Nat.shiftRight_eq_div_pow] at hshort
        omega
      obtain ⟨v, s', hparse, hs'⟩ := vlParseNByteLong_inOrder hadvanced (hlong b hcan hread hlow)
      rw [hparse]
      exact ⟨_, _, rfl, hs'⟩
  · exact ⟨_, _, rfl, hadvanced⟩

/-- What is copied fits into the result. -/
theorem vlParseBuffer_inOrder {pResult : Bool} {nBytes nBufCapacity : ℤ} (hs : s.InOrder mem)
    (h : s.Fits mem (.parseBuffer pResult nBytes nBufCapacity)) :
    ∃ bytes s', s.vlParseBuffer mem pResult nBytes nBufCapacity = some (bytes, s') ∧
      (pResult = true → (bytes.length : ℤ) ≤ nBufCapacity) ∧ s'.InOrder mem := by
  obtain ⟨hrange, hfront, hresult⟩ := h
  have hposition := hs.position
  have hcapacity := hs.capacity
  have hremainder : s.remainder = s.nCapacity - s.iPosition := int32_of_range hrange (by omega)
  have hroom : s.iPosition + s.smaller nBytes ≤ s.nCapacity := by
    rw [smaller]
    split_ifs <;> omega
  have hadvanced := hs.advanceBuf ⟨hfront, by omega⟩
  rw [vlParseBuffer]
  cases pResult with
  | false => exact ⟨_, _, rfl, (fun h => by cases h), hadvanced⟩
  | true =>
    obtain ⟨hlow, hhigh⟩ := hresult rfl
    obtain ⟨bytes, hbytes, hlength⟩ := hs.bytesAt hroom
    rw [if_pos rfl, if_neg (by omega), hbytes]
    exact ⟨bytes, _, rfl, fun _ => by omega, hadvanced⟩

/-! ## The writers -/

theorem vlWriteNByteLong_inOrder {n : ℕ} (hs : s.InOrder mem) (h : s.Moves len) :
    ∃ k mem' s', s.vlWriteNByteLong mem len n = some (k, mem', s') ∧ mem'.length = mem.length ∧
      s'.InOrder mem' := by
  rw [vlWriteNByteLong]
  split_ifs with hcan
  · have hroom := (canUse_iff h).mp hcan
    obtain ⟨mem', hwrite, hlength⟩ := hs.writeAt (bytesOf len.toNat n) (by
      intro hne
      have := List.length_pos_iff.mpr hne
      rw [length_bytesOf] at this ⊢
      omega)
    rw [hwrite]
    exact ⟨_, _, _, rfl, hlength, (hs.advanceBuf h).congr hlength⟩
  · exact ⟨_, _, _, rfl, rfl, hs.advanceBuf h⟩

theorem vlWriteCcApduLengthField_inOrder {nLength : ℕ} (hs : s.InOrder mem)
    (h : s.Fits mem (.writeCcApduLengthField nLength)) :
    ∃ k mem' s', s.vlWriteCcApduLengthField mem nLength = some (k, mem', s') ∧
      mem'.length = mem.length ∧ s'.InOrder mem' := by
  obtain ⟨hone, hlong⟩ := h
  have hadvanced := hs.advanceBuf hone
  rw [vlWriteCcApduLengthField]
  split_ifs with hcan hshort
  · obtain ⟨mem', hwrite, hlength⟩ := hs.writeAt [UInt8.ofNat nLength]
      (fun _ => (canUse_iff hone).mp hcan)
    rw [hwrite]
    exact ⟨_, _, _, rfl, hlength, hadvanced.congr hlength⟩
  · obtain ⟨mem₁, hwrite₁, hlength₁⟩ :=
      hs.writeAt [UInt8.ofNat (0x80 ||| sizeOfLength nLength)]
        (fun _ => (canUse_iff hone).mp hcan)
    obtain ⟨k, mem₂, s', hwrite₂, hlength₂, hs'⟩ :=
      vlWriteNByteLong_inOrder (n := nLength) (hadvanced.congr hlength₁)
        (hlong hcan (Nat.lt_of_not_le hshort))
    dsimp only
    rw [hwrite₁]
    dsimp only [Option.bind_eq_bind, Option.bind_some]
    rw [hwrite₂]
    exact ⟨_, _, _, rfl, hlength₂.trans hlength₁, hs'⟩
  · exact ⟨_, _, _, rfl, rfl, hadvanced⟩

theorem vlWriteBuffer_inOrder {pBuffer : Option (ℕ → UInt8)} {nBufCapacity : ℤ}
    (hs : s.InOrder mem) (h : s.Fits mem (.writeBuffer pBuffer len nBufCapacity)) :
    ∃ k mem' s', s.vlWriteBuffer mem pBuffer len nBufCapacity = some (k, mem', s') ∧
      mem'.length = mem.length ∧ s'.InOrder mem' := by
  obtain ⟨hmoves, hfront⟩ := h
  rw [vlWriteBuffer]
  by_cases hcan : s.canUse len = true
  · have hpos := hfront hcan
    have hroom := (canUse_iff hmoves).mp hcan
    obtain ⟨mem', hwrite, hlength⟩ :=
      hs.writeAt ((List.range len.toNat).map (pBuffer.getD fun _ => 0)) (by
        intro _
        rw [List.length_map, List.length_range]
        omega)
    rw [if_pos hcan, if_neg (by omega)]
    dsimp only
    rw [hwrite]
    exact ⟨_, _, _, rfl, hlength, (hs.advanceBuf hmoves).congr hlength⟩
  · rw [if_neg hcan]
    exact ⟨_, _, _, rfl, rfl, hs.advanceBuf hmoves⟩

theorem child_inOrder (hs : s.InOrder mem) (h : s.Fits mem (.child len)) :
    (s.child len).InOrder mem ∧ (s.advanceBuf len).InOrder mem := by
  obtain ⟨hmoves, hlow, hhigh, hend⟩ := h
  have hbuffer := hs.buffer
  have hposition := hs.position
  exact ⟨⟨Int.add_nonneg hbuffer hposition.1, ⟨Int.le_refl 0, show (0 : ℤ) < 2 ^ 31 by decide⟩,
    ⟨hlow, hhigh⟩, hend⟩, hs.advanceBuf hmoves⟩

end Calls

end BufStream

/-! ## Runs -/

namespace StreamRun

variable {r : StreamRun} {mem : List UInt8}

/-- **The invariant of a run**, for a buffer of a fixed length. -/
structure Sound (n : ℕ) (r : StreamRun) : Prop where
  length_mem : r.mem.length = n
  streams : ∀ s ∈ r.streams, s.InOrder r.mem
  copies : r.Copies

/-- The call fits the stream that it is for. -/
def Orderly (r : StreamRun) (call : ℕ × StreamOp) : Prop :=
  ∀ s ∈ r.streams[call.1]?, s.Fits r.mem call.2

/-- A stream is moved, and perhaps the buffer is written. -/
theorem Sound.setStream {n i : ℕ} {s : BufStream} {mem : List UInt8} (hr : r.Sound n)
    (hlength : mem.length = r.mem.length) (hs : s.InOrder mem) :
    ({ r with mem := mem }.setStream i s).Sound n := by
  refine ⟨hlength.trans hr.length_mem, fun t ht => ?_, hr.copies⟩
  rcases List.mem_or_eq_of_mem_set ht with ht | rfl
  · exact (hr.streams t ht).congr hlength
  · exact hs

theorem Sound.step {n : ℕ} (hr : r.Sound n) (call : ℕ × StreamOp) (h : r.Orderly call) :
    ∃ r', r.step call = some r' ∧ r'.Sound n := by
  obtain ⟨i, op⟩ := call
  rw [StreamRun.step]
  split
  · exact ⟨r, rfl, hr⟩
  · next s hget =>
    have hs := hr.streams s (List.mem_of_getElem? hget)
    have hfits := h s hget
    cases op with
    | parse n =>
      obtain ⟨v, s', hparse, hs'⟩ := BufStream.readNByteLong_inOrder hs hfits
      dsimp only
      rw [hparse]
      exact ⟨_, rfl, hr.setStream rfl hs'⟩
    | parseNByteLong nBytes =>
      obtain ⟨v, s', hparse, hs'⟩ := BufStream.vlParseNByteLong_inOrder hs hfits
      dsimp only
      rw [hparse]
      exact ⟨_, rfl, hr.setStream rfl hs'⟩
    | parseCcApduLengthField =>
      obtain ⟨v, s', hparse, hs'⟩ := BufStream.vlParseCcApduLengthField_inOrder hs hfits
      rw [hparse]
      exact ⟨_, rfl, hr.setStream rfl hs'⟩
    | parseBuffer pResult nBytes nBufCapacity =>
      obtain ⟨bytes, s', hparse, hcopy, hs'⟩ := BufStream.vlParseBuffer_inOrder hs hfits
      dsimp only
      rw [hparse]
      refine ⟨_, rfl, ?_⟩
      cases pResult with
      | false => exact hr.setStream rfl hs'
      | true =>
        refine ⟨hr.length_mem, (hr.setStream rfl hs').streams, fun c hc => ?_⟩
        rcases List.mem_append.mp hc with hc | hc
        · exact hr.copies c hc
        · obtain rfl := List.mem_singleton.mp hc
          exact hcopy rfl
    | writeNByteLong nBytes nLongLong =>
      obtain ⟨k, mem', s', hwrite, hlength, hs'⟩ :=
        BufStream.vlWriteNByteLong_inOrder (n := nLongLong) hs hfits
      dsimp only
      rw [hwrite]
      exact ⟨_, rfl, hr.setStream hlength hs'⟩
    | writeCcApduLengthField nLength =>
      obtain ⟨k, mem', s', hwrite, hlength, hs'⟩ :=
        BufStream.vlWriteCcApduLengthField_inOrder hs hfits
      dsimp only
      rw [hwrite]
      exact ⟨_, rfl, hr.setStream hlength hs'⟩
    | writeBuffer pBuffer nBytes nBufCapacity =>
      obtain ⟨k, mem', s', hwrite, hlength, hs'⟩ := BufStream.vlWriteBuffer_inOrder hs hfits
      dsimp only
      rw [hwrite]
      exact ⟨_, rfl, hr.setStream hlength hs'⟩
    | child len =>
      obtain ⟨hchild, hs'⟩ := BufStream.child_inOrder hs hfits
      have hr' : ({ r with streams := r.streams ++ [s.child len] } : StreamRun).Sound n := by
        refine ⟨hr.length_mem, fun t ht => ?_, hr.copies⟩
        rcases List.mem_append.mp ht with ht | ht
        · exact hr.streams t ht
        · obtain rfl := List.mem_singleton.mp ht
          exact hchild
      exact ⟨_, rfl, hr'.setStream rfl hs'⟩

theorem sound_start (h : (mem.length : ℤ) < 2 ^ 31) : (start mem).Sound mem.length := by
  refine ⟨rfl, fun s hs => ?_, fun c hc => absurd hc List.not_mem_nil⟩
  obtain rfl := List.mem_singleton.mp hs
  refine ⟨Int.le_refl 0, ⟨Int.le_refl 0, show (0 : ℤ) < 2 ^ 31 by decide⟩, ⟨?_, h⟩, fun _ => ?_⟩
  · show -2 ^ 31 ≤ (mem.length : ℤ)
    omega
  · exact Int.le_of_eq (Int.zero_add _)

/-- **A run over a buffer stays inside it**: after each of its calls it is defined, and nothing was
copied into a result that has no room for it. -/
def StaysInside (mem : List UInt8) (calls : List (ℕ × StreamOp)) : Prop :=
  Throughout step Copies (start mem) calls

/-- **Runs of calls that fit.** -/
theorem stays_inside (h : (mem.length : ℤ) < 2 ^ 31) {calls : List (ℕ × StreamOp)}
    (hcalls : EachStep step Orderly (start mem) calls) : StaysInside mem calls := by
  rintro front back rfl
  obtain ⟨r, hrun, hr⟩ :=
    EachStep.total (I := Sound mem.length) (fun _ call hr hcall => hr.step call hcall)
      hcalls.left (sound_start h)
  exact ⟨r, hrun, hr.copies⟩

/-- A child of two bytes that does not have the number of three that is asked of it, and what its
parent has left in a result of two bytes. -/
theorem stays_inside_child :
    StaysInside [1, 2, 3, 4] [(0, .child 2), (1, .parse 3), (0, .parseBuffer true 5 2)] := by
  refine stays_inside (by decide) ⟨fun s hs => ?_, fun r hr => ⟨fun s hs => ?_, fun r' hr' =>
    ⟨fun s hs => ?_, fun _ _ => trivial⟩⟩⟩
  · obtain rfl := Option.some.inj hs
    exact ⟨⟨by decide, by decide⟩, by decide, by decide, fun _ => by decide⟩
  · obtain rfl := Option.some.inj hr
    obtain rfl := Option.some.inj hs
    exact ⟨by decide, by decide⟩
  · obtain rfl := Option.some.inj hr
    obtain rfl := Option.some.inj hr'
    obtain rfl := Option.some.inj hs
    exact ⟨by decide, by decide, fun _ => by decide⟩

/-- Five bytes of four, and then a buffer. -/
def pastTheEnd : List (ℕ × StreamOp) := [(0, .parseNByteLong 5), (0, .parseBuffer true 1 16)]

theorem not_staysInside_pastTheEnd : ¬ StaysInside [0, 0, 0, 0] pastTheEnd := by
  intro h
  obtain ⟨r, hrun, -⟩ := h pastTheEnd [] (List.append_nil _).symm
  cases hrun

end StreamRun

end MediaFramework
