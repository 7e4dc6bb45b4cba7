import MediaFramework.Lib.Octets
import MediaFramework.Lib.Tlv

/-!
# Byte streams (`VL_BYTE_STREAM`)

A stream is a place in a buffer with a limit. A child stream begins where its parent stands, and the
parent goes on behind it at once, whatever becomes of the child. A read over the limit gives nothing
and moves on; one outside the memory of the buffer is a fault, and has no result.
-/

namespace MediaFramework

/-- `VL_BYTE_STREAM` -/
structure VlByteStream where
  nCapacity : ℕ
  iPosition : ℕ
  /-- the memory from the beginning of the buffer on -/
  pBuffer : List UInt8

namespace VlByteStream

/-- `VL_BYTE_STREAM_INST` -/
def inst (buf : List UInt8) (len : ℕ) : VlByteStream := ⟨len, 0, buf⟩

/-- `VL_BYTE_STREAM_GET_CURRENT_BUF` -/
def getCurrentBuf (s : VlByteStream) : List UInt8 := s.pBuffer.drop s.iPosition

/-- `VL_BYTE_STREAM_ADVANCE_BUF` -/
def advanceBuf (s : VlByteStream) (len : ℕ) : VlByteStream :=
  { s with iPosition := s.iPosition + len }

/-- `VL_BYTE_STREAM_PARENT_CHILD_INST`: the child. -/
def child (s : VlByteStream) (len : ℕ) : VlByteStream := inst s.getCurrentBuf len

/-- `VL_BYTE_STREAM_CAN_USE` -/
def canUse (s : VlByteStream) (len : ℕ) : Bool := decide (s.iPosition + len ≤ s.nCapacity)

/-- `VL_BYTE_STREAM_REMAINDER` -/
def remainder (s : VlByteStream) : ℤ := s.nCapacity - s.iPosition

end VlByteStream

open VlByteStream

/-- `vlParseByteWorker` -/
def vlParseByte (s : VlByteStream) : Option (ℕ × VlByteStream) :=
  if s.canUse 1 then do
    let b ← octet s.pBuffer s.iPosition
    return (b, s.advanceBuf 1)
  else return (0, s.advanceBuf 1)

/-- `vlParseNByteLongWorker`: an `unsigned long long`. -/
def vlParseNByteLong (s : VlByteStream) (nBytes : ℕ) : Option (ℕ × VlByteStream) :=
  if s.canUse nBytes then do
    let bytes ← octets s.pBuffer s.iPosition nBytes
    return (bytes.foldl (fun val b => val <<< 8 % 2 ^ 64 ||| b.toNat) 0, s.advanceBuf nBytes)
  else return (0, s.advanceBuf nBytes)

/-- `vlParseBufferWorker`: the result with what was copied into it. -/
def vlParseBuffer (s : VlByteStream) (pResult : List UInt8) (nBytes : ℕ) :
    Option (List UInt8 × VlByteStream) := do
  let nSmaller := if (nBytes : ℤ) ≤ s.remainder then (nBytes : ℤ) else s.remainder
  -- a copy that runs over the result, as one of a count below zero does
  if nSmaller < 0 ∨ pResult.length < nSmaller.toNat then none
  let bytes ← octets s.pBuffer s.iPosition nSmaller.toNat
  return (bytes ++ pResult.drop nSmaller.toNat, s.advanceBuf nSmaller.toNat)

/-- The loop that all the parsers are made of: a type, a length, and a case for the type, which
leaves at once or goes on. -/
def tlvLoop {σ ρ : Type} (switch : ℕ → ℕ → σ → VlByteStream → Option (ρ ⊕ (σ × VlByteStream)))
    (finish : σ → ρ) : ℕ → σ → VlByteStream → Option ρ
  | 0, _, _ => none
  | fuel + 1, x, s =>
    if 0 < s.remainder then do
      let (ulTag, s) ← vlParseByte s
      let (nLength, s) ← vlParseByte s
      match ← switch ulTag nLength x s with
      | .inl r => return r
      | .inr (x, s) => tlvLoop switch finish fuel x s
    else return finish x

/-! ## What is ahead of a stream -/

namespace VlByteStream

/-- The octets that a stream can use next. -/
def Ahead (s : VlByteStream) (bytes : List UInt8) : Prop :=
  octets s.pBuffer s.iPosition bytes.length = some bytes ∧
    s.iPosition + bytes.length ≤ s.nCapacity

/-- And the last ones. -/
def Holds (s : VlByteStream) (bytes : List UInt8) : Prop :=
  s.Ahead bytes ∧ s.nCapacity = s.iPosition + bytes.length

variable {s : VlByteStream} {xs ys : List UInt8} {b : UInt8}

theorem octets_eq_some_iff {bytes : List UInt8} {i : ℕ} :
    octets bytes i xs.length = some xs ↔ i + xs.length ≤ bytes.length ∧ xs <+: bytes.drop i := by
  rw [octets]
  split_ifs with h
  · rw [Option.some_inj]
    constructor
    · intro heq
      refine ⟨h, ?_⟩
      nth_rewrite 1 [← heq]
      exact List.take_prefix _ _
    · rintro ⟨_, hpre⟩
      exact (List.prefix_iff_eq_take.mp hpre).symm
  · simp [h]

theorem Ahead.append (h : s.Ahead (xs ++ ys)) :
    s.Ahead xs ∧ (s.advanceBuf xs.length).Ahead ys := by
  obtain ⟨hoct, hcap⟩ := h
  obtain ⟨hlen, rest, hrest⟩ := octets_eq_some_iff.mp hoct
  rw [List.length_append] at hcap hlen
  refine ⟨⟨octets_eq_some_iff.mpr ⟨by omega, ys ++ rest, ?_⟩, by omega⟩,
    octets_eq_some_iff.mpr ⟨?_, rest, ?_⟩, ?_⟩
  · rw [← hrest, List.append_assoc]
  · dsimp only [advanceBuf]
    omega
  · dsimp only [advanceBuf]
    rw [← List.drop_drop, ← hrest, List.append_assoc, List.drop_left]
  · dsimp only [advanceBuf]
    omega

theorem Ahead.remainder_pos (h : s.Ahead (b :: xs)) : 0 < s.remainder := by
  have := h.2
  rw [List.length_cons] at this
  rw [remainder]
  omega

/-- The child has the octets ahead that the parent has. -/
theorem Ahead.child (h : s.Ahead xs) : (s.child xs.length).Holds xs := by
  obtain ⟨hlen, hpre⟩ := octets_eq_some_iff.mp h.1
  refine ⟨⟨octets_eq_some_iff.mpr ⟨?_, hpre⟩, ?_⟩, ?_⟩
  · dsimp only [VlByteStream.child, inst, getCurrentBuf]
    rw [List.length_drop]
    omega
  · exact Nat.le_of_eq (Nat.zero_add _)
  · exact (Nat.zero_add _).symm

theorem holds_inst (xs : List UInt8) : (inst xs xs.length).Holds xs := by
  refine ⟨⟨octets_eq_some_iff.mpr ⟨?_, List.prefix_refl xs⟩, ?_⟩, ?_⟩
  · exact Nat.le_of_eq (Nat.zero_add _)
  · exact Nat.le_of_eq (Nat.zero_add _)
  · exact (Nat.zero_add _).symm

theorem Holds.append (h : s.Holds (xs ++ ys)) :
    s.Ahead xs ∧ (s.advanceBuf xs.length).Holds ys := by
  obtain ⟨hxs, hys⟩ := h.1.append
  have hcap := h.2
  rw [List.length_append] at hcap
  refine ⟨hxs, hys, ?_⟩
  dsimp only [advanceBuf]
  omega

theorem Holds.remainder (h : s.Holds xs) : s.remainder = xs.length := by
  rw [VlByteStream.remainder, h.2]
  omega

end VlByteStream

/-! ## What is read -/

section Reads

variable {s : VlByteStream} {xs : List UInt8} {b : UInt8}

theorem vlParseByte_of_ahead (h : s.Ahead (b :: xs)) :
    vlParseByte s = some (b.toNat, s.advanceBuf 1) ∧ (s.advanceBuf 1).Ahead xs := by
  have hsplit : s.Ahead ([b] ++ xs) := h
  obtain ⟨⟨hoct, hcap⟩, hxs⟩ := hsplit.append
  refine ⟨?_, hxs⟩
  obtain ⟨_, rest, hrest⟩ := octets_eq_some_iff.mp hoct
  have huse : s.canUse 1 = true := decide_eq_true hcap
  rw [vlParseByte, if_pos huse, octet_of_drop hrest.symm]
  rfl

/-- The type and the length of a TLV. -/
theorem vlParseByte_of_ahead_encode {t : Tlv} (h : s.Ahead (t.encode ++ xs)) :
    vlParseByte s = some (t.tag.toNat, s.advanceBuf 1) ∧
      vlParseByte (s.advanceBuf 1) = some (t.value.length, s.advanceBuf 2) ∧
      (s.advanceBuf 2).Ahead (t.value ++ xs) := by
  obtain ⟨htag, hlength⟩ := vlParseByte_of_ahead h
  obtain ⟨hlength, hvalue⟩ := vlParseByte_of_ahead hlength
  rw [Tlv.toNat_length] at hlength
  exact ⟨htag, hlength, hvalue⟩

theorem vlParseNByteLong_of_ahead (h : s.Ahead xs) :
    vlParseNByteLong s xs.length =
      some (xs.foldl (fun val b => val <<< 8 % 2 ^ 64 ||| b.toNat) 0, s.advanceBuf xs.length) := by
  rw [vlParseNByteLong, canUse, if_pos (decide_eq_true h.2), h.1]
  rfl

theorem vlParseBuffer_of_ahead (h : s.Ahead xs) {pResult : List UInt8}
    (hle : xs.length ≤ pResult.length) :
    vlParseBuffer s pResult xs.length =
      some (xs ++ pResult.drop xs.length, s.advanceBuf xs.length) := by
  have hrem : (xs.length : ℤ) ≤ s.remainder := by
    have := h.2
    rw [remainder]
    omega
  rw [vlParseBuffer, if_pos hrem]
  rw [if_neg (by omega), Int.toNat_natCast, h.1]
  rfl

/-- **The run rule.** Each case reads its value and no more, and keeps what is to be known of the
state after so many TLVs, or leaves with such a result; then the loop ends with such a result. -/
theorem tlvLoop_of_holds {σ ρ : Type}
    (switch : ℕ → ℕ → σ → VlByteStream → Option (ρ ⊕ (σ × VlByteStream))) (finish : σ → ρ)
    {R : List Tlv → σ → Prop} {Q : ρ → Prop} (all : List Tlv)
    (hswitch : ∀ done t ts x s, all = done ++ t :: ts → R done x → s.Ahead t.value →
      (∃ r, switch t.tag.toNat t.value.length x s = some (.inl r) ∧ Q r) ∨
        ∃ y, switch t.tag.toNat t.value.length x s =
          some (.inr (y, s.advanceBuf t.value.length)) ∧ R (done ++ [t]) y)
    (hfinish : ∀ x, R all x → Q (finish x)) :
    ∀ (ts done : List Tlv) (fuel : ℕ) (x : σ) (s : VlByteStream), all = done ++ ts → R done x →
      s.Holds (Tlv.encodeAll ts) → ts.length < fuel →
      ∃ r, tlvLoop switch finish fuel x s = some r ∧ Q r := by
  intro ts
  induction ts with
  | nil =>
    intro done fuel x s hall hR hs hfuel
    obtain ⟨fuel, rfl⟩ : ∃ k, fuel = k + 1 := ⟨fuel - 1, by omega⟩
    have hrem := hs.remainder
    rw [List.append_nil] at hall
    rw [tlvLoop, if_neg (by rw [hrem]; exact Int.lt_irrefl _)]
    exact ⟨finish x, rfl, hfinish x (hall ▸ hR)⟩
  | cons t ts ih =>
    intro done fuel x s hall hR hs hfuel
    obtain ⟨fuel, rfl⟩ : ∃ k, fuel = k + 1 := ⟨fuel - 1, by omega⟩
    rw [List.length_cons] at hfuel
    obtain ⟨ht, hts⟩ := hs.append
    obtain ⟨htag, hlength, hvalue⟩ := vlParseByte_of_ahead_encode hs.1
    obtain ⟨hvalue, _⟩ := hvalue.append
    rw [tlvLoop, if_pos ht.remainder_pos, htag, Option.bind_eq_bind, Option.bind_some]
    dsimp only
    rw [hlength, Option.bind_some]
    rcases hswitch done t ts x _ hall hR hvalue with ⟨r, hr, hQ⟩ | ⟨y, hy, hRy⟩
    · rw [hr]
      exact ⟨r, rfl, hQ⟩
    · rw [hy, Option.bind_eq_bind, Option.bind_some]
      refine ih (done ++ [t]) fuel y _ (by rw [hall, List.append_assoc]; rfl) hRy ?_ (by omega)
      have hpos : s.iPosition + t.encode.length = s.iPosition + 2 + t.value.length := by
        rw [Tlv.length_encode]
        omega
      simp only [advanceBuf, hpos] at hts ⊢
      exact hts

end Reads

end MediaFramework
