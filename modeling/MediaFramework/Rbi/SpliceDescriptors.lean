import MediaFramework.Lib.Octets
import MediaFramework.Rbi.Opportunities

/-!
# Splice descriptors (`RBIStreamProcessor::processSCTEDescriptors`)

A loop over the descriptors of a splice information section. The end of the loop is computed before
the cursor is moved over the length field, so it is two bytes early, and a segmentation descriptor
in program mode moves the cursor over its own fields and then once more over its whole length.
-/

namespace MediaFramework

namespace SpliceDescriptors

/-- What is made of a descriptor. -/
inductive Reading where
  /-- a descriptor with another tag than a segmentation -/
  | ignored (descriptorTag descriptorLen : ℕ)
  /-- `segment_event_cancel_indicator` -/
  | cancelled (identifier segmentEventId : ℕ)
  /-- not `program_segmentation_flag` -/
  | component (identifier segmentEventId : ℕ)
  | program (identifier segmentEventId : ℕ) (findings : UpidFindings)
  deriving DecidableEq

section Walk

variable (packet : List UInt8)

/-- The UPIDs of `case 13`; there is no place for more than ten in `segments`. -/
def midUpids (descriptorOffset segmentationUpidLen segmentationTypeId : ℕ) :
    ℕ → ℕ → UpidFindings → Option UpidFindings
  | 0, _, _ => none
  | fuel + 1, moff, f =>
    if moff < segmentationUpidLen then do
      let segmentationUpidType ← octet packet (descriptorOffset + 2 + moff)
      let ulen ← octet packet (descriptorOffset + 3 + moff)
      let bytes ← octets packet (descriptorOffset + 2 + 2 + moff) ulen
      let f := Upid.midUpid segmentationTypeId ⟨segmentationUpidType, bytes⟩ f
      if f.poData.segments.length ≤ Upid.maxSegments then
        midUpids descriptorOffset segmentationUpidLen segmentationTypeId fuel (moff + (ulen + 2)) f
      else none
    else some f

/-- The `switch` over the type of a UPID. -/
def upids (descriptorOffset segmentationUpidType segmentationUpidLen segmentationTypeId : ℕ)
    (f : UpidFindings) : Option UpidFindings :=
  if segmentationUpidType = 13 then
    midUpids packet descriptorOffset segmentationUpidLen segmentationTypeId
      (segmentationUpidLen + 1) 0 f
  else do
    let bytes ← octets packet (descriptorOffset + 2) segmentationUpidLen
    return Upid.adiUpid segmentationTypeId ⟨segmentationUpidType, bytes⟩ f

/-- A segmentation in program mode, from its UPID on, and where the cursor is left. -/
def segmentationFields (descriptorOffset segmentEventId poDuration : ℕ) :
    Option (UpidFindings × ℕ) := do
  let segmentationUpidType ← octet packet descriptorOffset
  let segmentationUpidLen ← octet packet (descriptorOffset + 1)
  let segmentationTypeId ← octet packet (descriptorOffset + 2 + segmentationUpidLen)
  let segmentNum ← octet packet (descriptorOffset + 2 + segmentationUpidLen + 1)
  let segmentsExpected ← octet packet (descriptorOffset + 2 + segmentationUpidLen + 2)
  let f ← upids packet descriptorOffset segmentationUpidType segmentationUpidLen
    segmentationTypeId
    (.ofFields poDuration segmentEventId segmentationTypeId segmentNum segmentsExpected)
  return (f, descriptorOffset + (2 + segmentationUpidLen + 3))

/-- The same, from its duration on, if it has one. -/
def programSegmentation (descriptorOffset segmentEventId : ℕ) (segmentationDurationFlag : Bool) :
    Option (UpidFindings × ℕ) :=
  if segmentationDurationFlag then do
    let poDuration ← number packet descriptorOffset 5
    segmentationFields packet (descriptorOffset + 5) segmentEventId poDuration
  else segmentationFields packet descriptorOffset segmentEventId 0

/-- A round of the loop: what is made of a descriptor, and the cursor of the next round. -/
def descriptor (descriptorOffset : ℕ) : Option (Reading × ℕ) := do
  let descriptorTag ← octet packet descriptorOffset
  let descriptorLen ← octet packet (descriptorOffset + 1)
  if descriptorTag = 2 then
    let identifier ← number packet (descriptorOffset + 2) 4
    let segmentEventId ← number packet (descriptorOffset + 6) 4
    let cancelIndicator ← octet packet (descriptorOffset + 10)
    if cancelIndicator >>> 7 &&& 1 = 0 then
      let flags ← octet packet (descriptorOffset + 11)
      if flags >>> 7 &&& 1 = 1 then
        let (f, descriptorOffset) ← programSegmentation packet (descriptorOffset + 12)
          segmentEventId (decide (flags >>> 6 &&& 1 = 1))
        return (.program identifier segmentEventId f, descriptorOffset + (2 + descriptorLen))
      else return (.component identifier segmentEventId, descriptorOffset + (2 + descriptorLen))
    else return (.cancelled identifier segmentEventId, descriptorOffset + (2 + descriptorLen))
  else return (.ignored descriptorTag descriptorLen, descriptorOffset + (2 + descriptorLen))

/-- The loop: where it looks for descriptors, and what it makes of them. -/
def descriptors (descriptorEndOffset : ℕ) : ℕ → ℕ → Option (List (ℕ × Reading))
  | 0, _ => none
  | fuel + 1, descriptorOffset =>
    if descriptorOffset < descriptorEndOffset then do
      let (reading, next) ← descriptor packet descriptorOffset
      let readings ← descriptors descriptorEndOffset fuel next
      return (descriptorOffset, reading) :: readings
    else some []

end Walk

/-- What a descriptor leads to. -/
def Reading.lead (c : SpliceContext) (o : Opportunities) : ℕ × Reading → Opportunities
  | (_, .program _ segmentEventId f) => c.opportunity segmentEventId f o
  | _ => o

/-- `processSCTEDescriptors`: the descriptors it interprets, and what they lead to. -/
def processSCTEDescriptors (packet : List UInt8) (c : SpliceContext)
    (descriptorOffset descriptorLoopLength : ℕ) (o : Opportunities) :
    Option (List (ℕ × Reading) × Opportunities) := do
  let low ← octet packet (descriptorOffset + 1)
  let descriptorLoopLength := descriptorLoopLength ||| low
  let descriptorEndOffset := descriptorOffset + descriptorLoopLength
  let readings ← descriptors packet descriptorEndOffset (descriptorLoopLength + 1)
    (descriptorOffset + 2)
  return (readings, readings.foldl (Reading.lead c) { o with triggerEmitted := false })

end SpliceDescriptors

/-! ## Well-formed descriptors -/

/-- What a segmentation descriptor begins with. -/
structure SegmentationEvent where
  identifier : List UInt8
  segmentEventId : List UInt8
  length_identifier : identifier.length = 4
  length_segmentEventId : segmentEventId.length = 4

/-- The bytes of a list of UPIDs. -/
def midBytes (upids : List (UInt8 × List UInt8)) : List UInt8 :=
  upids.flatMap fun u => u.1 :: UInt8.ofNat u.2.length :: u.2

/-- The UPID field of a segmentation descriptor: a UPID, or a list of them. -/
inductive UpidField where
  | one (upidType : UInt8) (bytes : List UInt8) (htype : upidType ≠ 13)
      (hlength : bytes.length < 256)
  | mid (upids : List (UInt8 × List UInt8)) (hlength : ∀ u ∈ upids, u.2.length < 256)
      (htotal : (midBytes upids).length < 256)

namespace UpidField

/-- `segmentation_upid_type` -/
def upidType : UpidField → UInt8
  | one upidType .. => upidType
  | mid .. => 13

/-- `segmentation_upid` -/
def bytes : UpidField → List UInt8
  | one _ bytes .. => bytes
  | mid upids .. => midBytes upids

theorem length_nil_lt : ([] : List UInt8).length < 256 := by decide

theorem length_bytes_lt : ∀ u : UpidField, u.bytes.length < 256
  | one _ _ _ h => h
  | mid _ _ h => h

end UpidField

/-- A segmentation descriptor in program mode. -/
structure ProgramSegmentation where
  event : SegmentationEvent
  /-- the byte of the cancel indicator, which is not set -/
  cancel : UInt8
  flags : UInt8
  segmentationDuration : List UInt8
  upid : UpidField
  segmentationTypeId : UInt8
  segmentNum : UInt8
  segmentsExpected : UInt8
  /-- anything else -/
  rest : List UInt8
  cancel_lt : cancel.toNat < 128
  le_flags : 128 ≤ flags.toNat
  length_duration : segmentationDuration.length = if flags.toNat / 64 % 2 = 1 then 5 else 0

/-- The bodies of the descriptors. -/
inductive SpliceBody where
  | other (tag : UInt8) (content : List UInt8) (htag : tag ≠ 2)
  | cancelled (event : SegmentationEvent) (cancel : UInt8) (rest : List UInt8)
      (hcancel : 128 ≤ cancel.toNat)
  | component (event : SegmentationEvent) (cancel flags : UInt8) (rest : List UInt8)
      (hcancel : cancel.toNat < 128) (hflags : flags.toNat < 128)
  | program (p : ProgramSegmentation)

namespace SpliceBody

/-- `splice_descriptor_tag` -/
def tag : SpliceBody → UInt8
  | other tag .. => tag
  | _ => 2

/-- What follows the length. -/
def content : SpliceBody → List UInt8
  | other _ content _ => content
  | cancelled e cancel rest _ => e.identifier ++ e.segmentEventId ++ cancel :: rest
  | component e cancel flags rest .. => e.identifier ++ e.segmentEventId ++ cancel :: flags :: rest
  | program p => p.event.identifier ++ p.event.segmentEventId ++ p.cancel :: p.flags ::
      (p.segmentationDuration ++ p.upid.upidType :: UInt8.ofNat p.upid.bytes.length ::
        (p.upid.bytes ++ p.segmentationTypeId :: p.segmentNum :: p.segmentsExpected :: p.rest))

end SpliceBody

/-- A well-formed descriptor. -/
structure SpliceDescriptor where
  body : SpliceBody
  length_lt : body.content.length < 256

/-- Its bytes. -/
def SpliceDescriptor.encode (d : SpliceDescriptor) : List UInt8 :=
  d.body.tag :: UInt8.ofNat d.body.content.length :: d.body.content

/-- A descriptor loop. -/
structure SpliceLoop where
  descriptors : List SpliceDescriptor
  length_lt : (descriptors.flatMap SpliceDescriptor.encode).length < 2 ^ 16

namespace SpliceLoop

/-- The descriptors of a loop, without the length in front. -/
def bytes (l : SpliceLoop) : List UInt8 := l.descriptors.flatMap SpliceDescriptor.encode

/-- The length in front of a loop, and the loop. -/
def encode (l : SpliceLoop) : List UInt8 :=
  UInt8.ofNat (l.bytes.length / 256) :: UInt8.ofNat (l.bytes.length % 256) :: l.bytes

end SpliceLoop

/-! ## What the descriptors say -/

/-- What the UPIDs of a field say. -/
def UpidField.findings (segmentationTypeId : ℕ) (f : UpidFindings) : UpidField → UpidFindings
  | one upidType bytes .. => Upid.adiUpid segmentationTypeId ⟨upidType.toNat, bytes⟩ f
  | mid upids .. => (upids.map fun u => (⟨u.1.toNat, u.2⟩ : Upid)).foldl
      (fun f u => Upid.midUpid segmentationTypeId u f) f

/-- The UPIDs of a field that take a place in `segments`. -/
def UpidField.places (segmentationTypeId : ℕ) : UpidField → ℕ
  | one .. => 0
  | mid upids .. => (upids.map fun u => (⟨u.1.toNat, u.2⟩ : Upid)).countP
      (Upid.takesSegment segmentationTypeId)

/-- What a program segmentation says. -/
def ProgramSegmentation.findings (p : ProgramSegmentation) : UpidFindings :=
  p.upid.findings p.segmentationTypeId.toNat (.ofFields (ofOctets p.segmentationDuration)
    (ofOctets p.event.segmentEventId) p.segmentationTypeId.toNat p.segmentNum.toNat
    p.segmentsExpected.toNat)

/-- What a descriptor says. -/
def SpliceBody.reading : SpliceBody → SpliceDescriptors.Reading
  | other tag content _ => .ignored tag.toNat content.length
  | cancelled e .. => .cancelled (ofOctets e.identifier) (ofOctets e.segmentEventId)
  | component e .. => .component (ofOctets e.identifier) (ofOctets e.segmentEventId)
  | program p => .program (ofOctets p.event.identifier) (ofOctets p.event.segmentEventId)
      p.findings

/-- It is a segmentation in program mode. -/
def SpliceBody.inProgramMode : SpliceBody → Bool
  | program _ => true
  | _ => false

/-- There is a place for each of its UPIDs. -/
def SpliceBody.fits : SpliceBody → Bool
  | program p => decide (p.upid.places p.segmentationTypeId.toNat ≤ Upid.maxSegments)
  | _ => true

/-- How far the cursor has been moved over it before the end of the round. -/
def SpliceBody.skipped : SpliceBody → ℕ
  | program p => 12 + (p.segmentationDuration.length + (2 + p.upid.bytes.length + 3))
  | _ => 0

/-- What descriptors say, each from its own tag on. -/
def readings : ℕ → List SpliceDescriptor → List (ℕ × SpliceDescriptors.Reading)
  | _, [] => []
  | offset, d :: ds =>
    (offset, d.body.reading) :: readings (offset + (2 + d.body.content.length)) ds

namespace SpliceDescriptors

theorem length_le_midBytes (us : List (UInt8 × List UInt8)) :
    us.length ≤ (midBytes us).length := by
  induction us with
  | nil => exact Nat.zero_le _
  | cons u us ih =>
    rw [midBytes, List.flatMap_cons, List.length_append, ← midBytes]
    simp only [List.length_cons]
    omega

/-- The UPIDs of a list are read one after another, as long as there are places. -/
theorem midUpids_eq (segmentationTypeId descriptorOffset segmentationUpidLen : ℕ)
    (post : List UInt8) : ∀ (us : List (UInt8 × List UInt8)) (pre : List UInt8)
    (fuel moff : ℕ) (f : UpidFindings), (∀ u ∈ us, u.2.length < 256) →
    descriptorOffset + 2 + moff = pre.length → segmentationUpidLen = moff + (midBytes us).length →
    us.length < fuel → f.poData.segments.length ≤ Upid.maxSegments →
    midUpids (pre ++ (midBytes us ++ post)) descriptorOffset segmentationUpidLen
      segmentationTypeId fuel moff f =
      if f.poData.segments.length + (us.map fun u => (⟨u.1.toNat, u.2⟩ : Upid)).countP
          (Upid.takesSegment segmentationTypeId) ≤ Upid.maxSegments then
        some ((us.map fun u => (⟨u.1.toNat, u.2⟩ : Upid)).foldl
          (fun f u => Upid.midUpid segmentationTypeId u f) f)
      else none := by
  intro us
  induction us with
  | nil =>
    intro pre fuel moff f _ _ hlen hfuel hf
    obtain ⟨fuel, rfl⟩ : ∃ k, fuel = k + 1 := ⟨fuel - 1, by simp at hfuel; omega⟩
    rw [midUpids, if_neg (by simp [hlen, midBytes]), List.map_nil, List.countP_nil, Nat.add_zero,
      if_pos hf]
    rfl
  | cons u us ih =>
    intro pre fuel moff f hus hpre hlen hfuel hf
    obtain ⟨fuel, rfl⟩ : ∃ k, fuel = k + 1 := ⟨fuel - 1, by simp at hfuel; omega⟩
    have hu := hus u List.mem_cons_self
    have hbytes : midBytes (u :: us) = [u.1, UInt8.ofNat u.2.length] ++ (u.2 ++ midBytes us) := by
      rw [midBytes, List.flatMap_cons]
      rfl
    have hmid : (UInt8.ofNat u.2.length).toNat = u.2.length := by
      rw [UInt8.toNat_ofNat']
      omega
    have hcount := Upid.length_segments_midUpid segmentationTypeId ⟨u.1.toNat, u.2⟩ f
    rw [hbytes] at hlen
    simp only [List.length_append, List.length_cons, List.length_nil] at hlen hfuel
    rw [midUpids, if_pos (by omega), hbytes]
    simp only [List.append_assoc, Option.bind_eq_bind]
    rw [octet_behind (i := 0) (by omega), List.cons_append, octet_cons_zero, Option.bind_some,
      octet_behind (i := 1) (by omega), octet_cons_succ, List.cons_append, octet_cons_zero,
      Option.bind_some, hmid, octets_behind (i := 2) (by omega), List.nil_append,
      octets_cons_succ, octets_cons_succ, octets_front rfl, Option.bind_some]
    rw [List.map_cons, List.countP_cons, List.foldl_cons]
    rcases Nat.lt_or_ge Upid.maxSegments
      (Upid.midUpid segmentationTypeId ⟨u.1.toNat, u.2⟩ f).poData.segments.length with hmany | hfew
    · rw [if_neg (by omega), if_neg (by omega)]
    · rw [if_pos hfew]
      have hrest := ih (pre ++ ([u.1, UInt8.ofNat u.2.length] ++ u.2)) fuel (moff + (u.2.length + 2))
        _ (fun v hv => hus v (List.mem_cons_of_mem _ hv)) (by simp; omega) (by omega) (by omega) hfew
      simp only [List.append_assoc, List.cons_append, List.nil_append] at hrest
      rw [hrest, hcount, Nat.add_assoc, Nat.add_comm (List.countP _ _)]

/-- The UPID field is read where it is. -/
theorem upids_eq (u : UpidField) (segmentationTypeId : ℕ) (pre post : List UInt8)
    (descriptorOffset : ℕ) (f : UpidFindings) (hpre : descriptorOffset + 2 = pre.length)
    (hf : f.poData.segments = []) :
    upids (pre ++ (u.bytes ++ post)) descriptorOffset u.upidType.toNat u.bytes.length
      segmentationTypeId f =
      if u.places segmentationTypeId ≤ Upid.maxSegments then
        some (u.findings segmentationTypeId f) else none := by
  rcases u with ⟨upidType, bytes, htype, hlength⟩ | ⟨us, hlength, htotal⟩
  · have hne : upidType.toNat ≠ 13 := fun h => htype (UInt8.toNat_inj.mp h)
    have hread : octets (pre ++ (bytes ++ post)) (descriptorOffset + 2) bytes.length =
        some bytes := by
      rw [octets_behind (i := 0) (by omega), octets_front rfl]
    rw [upids, if_neg (show (UpidField.one upidType bytes htype hlength).upidType.toNat ≠ 13
      from hne), UpidField.bytes, hread]
    exact (if_pos (Nat.zero_le _)).symm
  · have hcount := length_le_midBytes us
    rw [upids, UpidField.upidType, if_pos (by decide), UpidField.bytes,
      midUpids_eq segmentationTypeId descriptorOffset _ post us pre _ 0 f hlength (by omega)
        (by omega) (by omega) (by rw [hf]; exact Nat.zero_le _), hf]
    simp [UpidField.places, UpidField.findings]

/-- A segmentation in program mode is read up to its last field. -/
theorem segmentationFields_eq (p : ProgramSegmentation) (pre post : List UInt8)
    (segmentEventId poDuration : ℕ) (hevent : segmentEventId = ofOctets p.event.segmentEventId)
    (hduration : poDuration = ofOctets p.segmentationDuration) :
    segmentationFields (pre ++ p.upid.upidType :: UInt8.ofNat p.upid.bytes.length ::
        (p.upid.bytes ++ p.segmentationTypeId :: p.segmentNum :: p.segmentsExpected :: post))
        pre.length segmentEventId poDuration =
      if p.upid.places p.segmentationTypeId.toNat ≤ Upid.maxSegments then
        some (p.findings, pre.length + (2 + p.upid.bytes.length + 3))
      else none := by
  have hlength : (UInt8.ofNat p.upid.bytes.length).toNat = p.upid.bytes.length := by
    rw [UInt8.toNat_ofNat', Nat.mod_eq_of_lt p.upid.length_bytes_lt]
  have hupid := upids_eq p.upid p.segmentationTypeId.toNat
    (pre ++ [p.upid.upidType, UInt8.ofNat p.upid.bytes.length])
    (p.segmentationTypeId :: p.segmentNum :: p.segmentsExpected :: post) pre.length
    (.ofFields poDuration segmentEventId p.segmentationTypeId.toNat p.segmentNum.toNat
      p.segmentsExpected.toNat) (by simp) rfl
  rw [List.append_assoc, List.cons_append, List.cons_append, List.nil_append] at hupid
  have hfield : ∀ (i : ℕ) (b : UInt8), octet (p.segmentationTypeId :: p.segmentNum ::
      p.segmentsExpected :: post) i = some b.toNat →
      octet (pre ++ p.upid.upidType :: UInt8.ofNat p.upid.bytes.length ::
        (p.upid.bytes ++ p.segmentationTypeId :: p.segmentNum :: p.segmentsExpected :: post))
        (pre.length + 2 + p.upid.bytes.length + i) = some b.toNat := by
    intro i b hb
    rw [octet_behind (i := p.upid.bytes.length + i + 1 + 1) (by omega), octet_cons_succ,
      octet_cons_succ, octet_append_right, hb]
  rw [segmentationFields, octet_behind (Nat.add_zero _).symm, octet_cons_zero,
    octet_behind (i := 1) rfl, octet_cons_succ, octet_cons_zero]
  simp only [Option.bind_eq_bind, Option.bind_some, hlength]
  have hfirst := hfield 0 p.segmentationTypeId rfl
  rw [Nat.add_zero] at hfirst
  simp only [hfirst, hfield 1 p.segmentNum rfl, hfield 2 p.segmentsExpected rfl, Option.bind_some]
  rw [hupid, hevent, hduration, ProgramSegmentation.findings]
  split_ifs <;> rfl

/-- The same, from the duration on. -/
theorem programSegmentation_eq (p : ProgramSegmentation) (pre post : List UInt8) :
    programSegmentation (pre ++ (p.segmentationDuration ++ p.upid.upidType ::
        UInt8.ofNat p.upid.bytes.length :: (p.upid.bytes ++ p.segmentationTypeId ::
        p.segmentNum :: p.segmentsExpected :: post))) pre.length (ofOctets p.event.segmentEventId)
        (decide (p.flags.toNat >>> 6 &&& 1 = 1)) =
      if p.upid.places p.segmentationTypeId.toNat ≤ Upid.maxSegments then
        some (p.findings, pre.length +
          (p.segmentationDuration.length + (2 + p.upid.bytes.length + 3)))
      else none := by
  have hflag : p.flags.toNat >>> 6 &&& 1 = p.flags.toNat / 64 % 2 := by
    rw [Nat.shiftRight_eq_div_pow]
    exact and_low (p.flags.toNat / 2 ^ 6) 1
  have hlength := p.length_duration
  have hfields := segmentationFields_eq p (pre ++ p.segmentationDuration) post _ _ rfl rfl
  rw [List.append_assoc, List.length_append, Nat.add_assoc] at hfields
  rw [programSegmentation, hflag]
  by_cases h : p.flags.toNat / 64 % 2 = 1
  · rw [if_pos h] at hlength
    rw [if_pos (decide_eq_true h), number_behind (Nat.add_zero _).symm, number_front hlength,
      Option.bind_eq_bind, Option.bind_some, ← hfields, hlength]
  · rw [if_neg h] at hlength
    rw [if_neg (by rw [decide_eq_true_eq]; exact h), ← hfields, hlength,
      List.eq_nil_of_length_eq_zero hlength]
    rfl

/-- The highest bit of an octet. -/
theorem high_bit (b : UInt8) : b.toNat >>> 7 &&& 1 = if b.toNat < 128 then 0 else 1 := by
  have hlt := b.toNat_lt
  have hbit : b.toNat >>> 7 &&& 1 = b.toNat / 2 ^ 7 % 2 ^ 1 := by
    rw [Nat.shiftRight_eq_div_pow]
    exact and_low (b.toNat / 2 ^ 7) 1
  rw [hbit]
  split_ifs <;> omega

section Descriptor

variable (e : SegmentationEvent) (pre tail : List UInt8) (len : UInt8)

/-- The front of a segmentation descriptor is read up to its cancel indicator. -/
theorem segmentation_front (cancel : UInt8) :
    let packet := pre ++ 2 :: len :: (e.identifier ++ (e.segmentEventId ++ cancel :: tail))
    octet packet pre.length = some 2 ∧ octet packet (pre.length + 1) = some len.toNat ∧
      number packet (pre.length + 2) 4 = some (ofOctets e.identifier) ∧
      number packet (pre.length + 6) 4 = some (ofOctets e.segmentEventId) ∧
      octet packet (pre.length + 10) = some cancel.toNat ∧
      ∀ i, octet packet (pre.length + 11 + i) = octet tail i := by
  have h4 := e.length_identifier
  have h8 := e.length_segmentEventId
  refine ⟨?_, ?_, ?_, ?_, ?_, fun i => ?_⟩
  · rw [octet_behind (Nat.add_zero _).symm, octet_cons_zero]
    rfl
  · rw [octet_behind rfl, octet_cons_succ, octet_cons_zero]
  · rw [number_behind rfl, number_cons_succ, number_cons_succ, number_front h4]
  · rw [number_behind rfl, number_cons_succ, number_cons_succ, number_behind (i := 0) (by omega),
      number_front h8]
  · rw [octet_behind rfl, octet_cons_succ, octet_cons_succ, octet_behind (i := 4) (by omega),
      octet_behind (i := 0) (by omega), octet_cons_zero]
  · rw [octet_behind (Nat.add_assoc _ _ _), Nat.add_comm, octet_cons_succ, octet_cons_succ,
      octet_behind (i := i + 5) (by omega), octet_behind (i := i + 1) (by omega), octet_cons_succ]

end Descriptor

/-- **A round reads a descriptor from its own tag on**, but when it is a segmentation in program
mode the cursor is moved too far. -/
theorem descriptor_eq (d : SpliceDescriptor) (pre post : List UInt8) :
    descriptor (pre ++ (d.encode ++ post)) pre.length =
      if d.body.fits then
        some (d.body.reading, pre.length + d.body.skipped + (2 + d.body.content.length))
      else none := by
  have hlen : (UInt8.ofNat d.body.content.length).toNat = d.body.content.length := by
    rw [UInt8.toNat_ofNat', Nat.mod_eq_of_lt d.length_lt]
  obtain ⟨body, hlt⟩ := d
  rcases body with ⟨tag, content, htag⟩ | ⟨e, cancel, rest, hcancel⟩ |
    ⟨e, cancel, flags, rest, hcancel, hflags⟩ | p
  · have htag' : tag.toNat ≠ 2 := fun h => htag (UInt8.toNat_inj.mp h)
    rw [descriptor, SpliceDescriptor.encode, List.cons_append, List.cons_append,
      octet_behind (Nat.add_zero _).symm, octet_cons_zero, octet_behind rfl, octet_cons_succ,
      octet_cons_zero, hlen]
    simp only [Option.bind_eq_bind, Option.bind_some]
    rw [if_neg (show (SpliceBody.other tag content htag).tag.toNat ≠ 2 from htag')]
    rfl
  · obtain ⟨htag, hread, hid, hevent, hcancelled, -⟩ := segmentation_front e pre (rest ++ post)
      (UInt8.ofNat (SpliceBody.cancelled e cancel rest hcancel).content.length) cancel
    have hpacket : pre ++ (SpliceDescriptor.encode ⟨.cancelled e cancel rest hcancel, hlt⟩ ++ post) =
        pre ++ 2 :: UInt8.ofNat (SpliceBody.cancelled e cancel rest hcancel).content.length ::
          (e.identifier ++ (e.segmentEventId ++ cancel :: (rest ++ post))) := by
      simp [SpliceDescriptor.encode, SpliceBody.content, SpliceBody.tag]
    rw [descriptor, hpacket, htag, hread, hid, hevent, hcancelled, hlen]
    simp only [Option.bind_eq_bind, Option.bind_some, if_true]
    rw [high_bit, if_neg (Nat.not_lt_of_le hcancel), if_neg Nat.one_ne_zero]
    rfl
  · obtain ⟨htag, hread, hid, hevent, hcancelled, hnext⟩ := segmentation_front e pre
      (flags :: (rest ++ post))
      (UInt8.ofNat (SpliceBody.component e cancel flags rest hcancel hflags).content.length) cancel
    have hpacket : pre ++
        (SpliceDescriptor.encode ⟨.component e cancel flags rest hcancel hflags, hlt⟩ ++ post) =
        pre ++ 2 ::
          UInt8.ofNat (SpliceBody.component e cancel flags rest hcancel hflags).content.length ::
          (e.identifier ++ (e.segmentEventId ++ cancel :: flags :: (rest ++ post))) := by
      simp [SpliceDescriptor.encode, SpliceBody.content, SpliceBody.tag]
    have hflag := hnext 0
    rw [Nat.add_zero, octet_cons_zero] at hflag
    rw [descriptor, hpacket, htag, hread, hid, hevent, hcancelled, hlen]
    simp only [Option.bind_eq_bind, Option.bind_some, if_true]
    rw [high_bit, if_pos hcancel, if_pos rfl, hflag, Option.bind_some, high_bit, if_pos hflags,
      if_neg Nat.zero_ne_one]
    rfl
  · obtain ⟨htag, hread, hid, hevent, hcancelled, hnext⟩ := segmentation_front p.event pre
      (p.flags :: (p.segmentationDuration ++ p.upid.upidType ::
        UInt8.ofNat p.upid.bytes.length :: (p.upid.bytes ++ p.segmentationTypeId ::
        p.segmentNum :: p.segmentsExpected :: (p.rest ++ post))))
      (UInt8.ofNat (SpliceBody.program p).content.length) p.cancel
    have hfields := programSegmentation_eq p (pre ++ 2 ::
      UInt8.ofNat (SpliceBody.program p).content.length ::
      (p.event.identifier ++ (p.event.segmentEventId ++ [p.cancel, p.flags]))) (p.rest ++ post)
    have hpacket : pre ++ (SpliceDescriptor.encode ⟨.program p, hlt⟩ ++ post) =
        pre ++ 2 :: UInt8.ofNat (SpliceBody.program p).content.length ::
          (p.event.identifier ++ (p.event.segmentEventId ++ p.cancel :: p.flags ::
          (p.segmentationDuration ++ p.upid.upidType ::
          UInt8.ofNat p.upid.bytes.length :: (p.upid.bytes ++ p.segmentationTypeId ::
          p.segmentNum :: p.segmentsExpected :: (p.rest ++ post))))) := by
      simp [SpliceDescriptor.encode, SpliceBody.content, SpliceBody.tag]
    have hflag := hnext 0
    rw [Nat.add_zero, octet_cons_zero] at hflag
    have h4 := p.event.length_identifier
    have h8 := p.event.length_segmentEventId
    simp only [List.append_assoc, List.cons_append, List.nil_append, List.length_append,
      List.length_cons, List.length_nil, h4, h8] at hfields
    rw [descriptor, hpacket, htag, hread, hid, hevent, hcancelled, hlen]
    simp only [Option.bind_eq_bind, Option.bind_some, if_true]
    rw [high_bit, if_pos p.cancel_lt, if_pos rfl, hflag, Option.bind_some, high_bit,
      if_neg (Nat.not_lt_of_le p.le_flags), if_pos rfl, hfields]
    by_cases hfits : p.upid.places p.segmentationTypeId.toNat ≤ Upid.maxSegments
    · rw [if_pos hfits, if_pos (show (SpliceBody.program p).fits = true from decide_eq_true hfits)]
      refine congrArg some (Prod.ext rfl ?_)
      dsimp only [SpliceBody.skipped]
      omega
    · rw [if_neg hfits, if_neg fun h : (SpliceBody.program p).fits = true =>
        hfits (of_decide_eq_true h)]
      rfl

theorem length_encode (d : SpliceDescriptor) :
    d.encode.length = 2 + d.body.content.length := by
  rw [SpliceDescriptor.encode, List.length_cons, List.length_cons]
  omega

/-! ## Which loops are interpreted as they are -/

/-- A loop in which the cursor goes from one descriptor to the next. -/
def walkable : List SpliceDescriptor → Bool
  | [] => true
  | [d] => d.body.fits && decide (d.body.content ≠ [])
  | d :: ds => !d.body.inProgramMode && walkable ds

theorem skipped_eq_zero : ∀ {b : SpliceBody}, b.inProgramMode = false →
    b.fits = true ∧ b.skipped = 0
  | .other .., _ => ⟨rfl, rfl⟩
  | .cancelled .., _ => ⟨rfl, rfl⟩
  | .component .., _ => ⟨rfl, rfl⟩

theorem skipped_pos : ∀ {b : SpliceBody}, b.inProgramMode = true → 0 < b.skipped
  | .program p, _ => by
    rw [SpliceBody.skipped]
    omega

/-- The first descriptor that the loop looks for is where it begins. -/
theorem head_descriptors {packet : List UInt8} {descriptorEndOffset fuel offset : ℕ}
    {rs : List (ℕ × Reading)} (h : descriptors packet descriptorEndOffset fuel offset = some rs) :
    ∀ r ∈ rs.head?, r.1 = offset := by
  intro r hr
  rcases fuel with _ | fuel
  · cases h
  · rw [descriptors] at h
    split_ifs at h with hlt
    · obtain ⟨⟨reading, next⟩, -, h⟩ := Option.bind_eq_some_iff.mp h
      obtain ⟨rest, -, h⟩ := Option.bind_eq_some_iff.mp h
      cases h
      cases hr
      rfl
    · cases h
      cases hr

/-- **The walk.** It finds exactly the descriptors of a loop, when it ends two bytes early. -/
theorem descriptors_iff (post : List UInt8) (descriptorEndOffset : ℕ) :
    ∀ (ds : List SpliceDescriptor) (pre : List UInt8) (fuel : ℕ),
      descriptorEndOffset + 2 = pre.length + (ds.flatMap SpliceDescriptor.encode).length →
      ds.length < fuel →
      (descriptors (pre ++ (ds.flatMap SpliceDescriptor.encode ++ post)) descriptorEndOffset fuel
        pre.length = some (readings pre.length ds) ↔ walkable ds = true) := by
  intro ds
  induction ds with
  | nil =>
    intro pre fuel hend hfuel
    obtain ⟨fuel, rfl⟩ : ∃ k, fuel = k + 1 := ⟨fuel - 1, by simp at hfuel; omega⟩
    rw [List.flatMap_nil, List.length_nil] at hend
    rw [descriptors, if_neg (by omega)]
    exact iff_of_true rfl rfl
  | cons d ds ih =>
    intro pre fuel hend hfuel
    obtain ⟨fuel, rfl⟩ : ∃ k, fuel = k + 1 := ⟨fuel - 1, by simp at hfuel; omega⟩
    have hround := descriptor_eq d pre (ds.flatMap SpliceDescriptor.encode ++ post)
    have hlen := length_encode d
    rw [List.flatMap_cons, List.length_append] at hend
    rw [List.length_cons] at hfuel
    rw [List.flatMap_cons, List.append_assoc, descriptors, hround, readings]
    rcases ds with _ | ⟨d', ds⟩
    · rw [List.flatMap_nil, List.length_nil] at hend
      by_cases hempty : d.body.content = []
      · rw [hempty, List.length_nil] at hlen
        rw [if_neg (by omega)]
        simp [walkable, hempty]
      · have hpos := List.length_pos_iff.mpr hempty
        rw [if_pos (by omega)]
        rcases hfits : d.body.fits with _ | _
        · simp [walkable, hfits]
        · obtain ⟨fuel, rfl⟩ : ∃ k, fuel = k + 1 := ⟨fuel - 1, by simp at hfuel; omega⟩
          rw [if_pos rfl, Option.bind_eq_bind, Option.bind_some]
          dsimp only
          rw [descriptors, if_neg (by omega)]
          simp [walkable, hfits, hempty, readings]
    · have hlen' := length_encode d'
      rw [List.flatMap_cons, List.length_append] at hend
      rw [if_pos (by omega), walkable.eq_3 d _ (List.cons_ne_nil d' ds)]
      rcases hmode : d.body.inProgramMode with _ | _
      · obtain ⟨hfits, hskipped⟩ := skipped_eq_zero hmode
        have hrest := ih (pre ++ d.encode) fuel
          (by rw [List.flatMap_cons, List.length_append, List.length_append]; omega) (by omega)
        rw [List.append_assoc, List.length_append, hlen] at hrest
        rw [hfits, if_pos rfl, hskipped, Option.bind_eq_bind, Option.bind_some]
        dsimp only
        rw [Nat.add_zero, Bool.not_false, Bool.true_and, ← hrest]
        constructor
        · intro h
          obtain ⟨rest, hrest, heq⟩ := Option.bind_eq_some_iff.mp h
          rw [hrest, (List.cons.inj (Option.some.inj heq)).2]
        · intro h
          rw [h]
          rfl
      · have hpos := skipped_pos hmode
        refine iff_of_false ?_ (by simp)
        intro h
        obtain ⟨⟨reading, next⟩, hread, h⟩ := Option.bind_eq_some_iff.mp h
        obtain ⟨rest, hrest, heq⟩ := Option.bind_eq_some_iff.mp h
        have hnext : next = pre.length + d.body.skipped + (2 + d.body.content.length) := by
          split_ifs at hread
          exact (congrArg Prod.snd (Option.some.inj hread)).symm
        have hhead := head_descriptors hrest (pre.length + (2 + d.body.content.length), d'.body.reading)
          (by rw [(List.cons.inj (Option.some.inj heq)).2, readings, List.head?_cons]; rfl)
        omega

theorem length_le_flatMap_encode (ds : List SpliceDescriptor) :
    ds.length ≤ (ds.flatMap SpliceDescriptor.encode).length := by
  induction ds with
  | nil => exact Nat.zero_le _
  | cons d ds ih =>
    rw [List.flatMap_cons, List.length_append, length_encode, List.length_cons]
    omega

/-- **Descriptors are interpreted as they are**: each from its own tag on, and nothing else,
whatever follows the loop, also if nothing does. -/
def Interprets (l : SpliceLoop) : Prop :=
  ∀ (before behind : List UInt8) (c : SpliceContext) (o : Opportunities),
    (processSCTEDescriptors (before ++ (l.encode ++ behind)) c before.length
      ((UInt8.ofNat (l.bytes.length / 256)).toNat <<< 8) o).map Prod.fst =
      some (readings (before.length + 2) l.descriptors)

/-- What is interpreted of a loop is what the walk finds from behind its length on. -/
theorem processSCTEDescriptors_iff (l : SpliceLoop) (before behind : List UInt8)
    (c : SpliceContext) (o : Opportunities) :
    (processSCTEDescriptors (before ++ (l.encode ++ behind)) c before.length
      ((UInt8.ofNat (l.bytes.length / 256)).toNat <<< 8) o).map Prod.fst =
      some (readings (before.length + 2) l.descriptors) ↔ walkable l.descriptors = true := by
  have hlt : l.bytes.length < 2 ^ 16 := l.length_lt
  have hlow : octet (before ++ (l.encode ++ behind)) (before.length + 1) =
      some (l.bytes.length % 256) := by
    rw [octet_behind rfl, SpliceLoop.encode, List.cons_append, List.cons_append, octet_cons_succ,
      octet_cons_zero, UInt8.toNat_ofNat', Nat.mod_eq_of_lt (by omega)]
  have hlength : (UInt8.ofNat (l.bytes.length / 256)).toNat <<< 8 ||| l.bytes.length % 256 =
      l.bytes.length := by
    rw [UInt8.toNat_ofNat', Nat.shiftLeft_eq, @or_eq_add 8 _ _ (by omega) (by omega)]
    omega
  have hwalk := descriptors_iff behind (before.length + l.bytes.length) l.descriptors
    (before ++ [UInt8.ofNat (l.bytes.length / 256), UInt8.ofNat (l.bytes.length % 256)])
    (l.bytes.length + 1)
    (by rw [List.length_append, ← SpliceLoop.bytes]; simp only [List.length_cons, List.length_nil];
        omega)
    (Nat.lt_succ_of_le (length_le_flatMap_encode l.descriptors))
  rw [List.length_append] at hwalk
  rw [← hwalk, processSCTEDescriptors, hlow, Option.bind_eq_bind, Option.bind_some]
  rw [hlength]
  have hpacket : before ++ (l.encode ++ behind) =
      before ++ [UInt8.ofNat (l.bytes.length / 256), UInt8.ofNat (l.bytes.length % 256)] ++
        (l.descriptors.flatMap SpliceDescriptor.encode ++ behind) := by
    rw [List.append_assoc, SpliceLoop.encode]
    rfl
  rw [hpacket]
  have hfst : ∀ (readings : Option (List (ℕ × Reading))) (f : List (ℕ × Reading) → Opportunities),
      (readings.bind fun rs => pure (rs, f rs)).map Prod.fst = readings := by
    intro readings f
    rcases readings with _ | rs <;> rfl
  exact iff_of_eq (congrArg (· = some _) (hfst _ _))

/-- **Which loops are interpreted as they are**: those in which no segmentation in program mode is
in front of another descriptor, and whose last descriptor has some content and no more UPIDs than
there are places. -/
theorem interprets_iff (l : SpliceLoop) : Interprets l ↔ walkable l.descriptors = true := by
  constructor
  · intro h
    exact (processSCTEDescriptors_iff l [] [] ⟨0, 0, false, none, fun _ => false⟩
      ⟨none, false, false, []⟩).mp (h _ _ _ _)
  · intro h before behind c o
    exact (processSCTEDescriptors_iff l before behind c o).mpr h

/-- A program segmentation without duration and UPID. -/
def plainSegmentation : SpliceDescriptor where
  body := .program
    { event := ⟨[0, 0, 0, 0], [0, 0, 0, 1], rfl, rfl⟩
      cancel := 0
      flags := 0xA0
      segmentationDuration := []
      upid := .one 0 [] (by decide) UpidField.length_nil_lt
      segmentationTypeId := 0x36
      segmentNum := 0
      segmentsExpected := 0
      rest := []
      cancel_lt := by decide
      le_flags := by decide
      length_duration := by decide }
  length_lt := by decide

/-- Two of them. -/
def twoSegmentations : SpliceLoop where
  descriptors := [plainSegmentation, plainSegmentation]
  length_lt := by decide

/-- The second of two segmentations is not found. -/
theorem not_interprets_twoSegmentations : ¬ Interprets twoSegmentations := by
  intro h
  have := (processSCTEDescriptors_iff twoSegmentations [] [] ⟨0, 0, false, none, fun _ => false⟩
    ⟨none, false, false, []⟩).mp (h _ _ _ _)
  revert this
  decide

end SpliceDescriptors

end MediaFramework
