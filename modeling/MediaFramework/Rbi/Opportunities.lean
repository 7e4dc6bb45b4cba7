import MediaFramework.Lib.Bits
import MediaFramework.Lib.CString
import Mathlib.Data.Int.Order.Basic

/-!
# Placement opportunities

What the UPIDs of a segmentation descriptor say about a placement opportunity, and the trigger that
it leads to (the inner part of `RBIStreamProcessor::processSCTEDescriptors`). A UPID that means
nothing else is kept as text, in one of ten places.
-/

namespace MediaFramework

/-- `PlacementOpportunityData`, with its `SegmentUpidElement`. -/
structure PlacementOpportunityData where
  signalId : CString
  poDuration : ℕ
  poType : ℕ
  streamId : CString
  /-- bytes that are not terminated -/
  contentId : List UInt8
  serviceSource : CString
  zone : CString
  windowStart : ℤ
  elementId : CString
  elementBreakId : CString
  /-- the UPIDs of `segments`: types and texts -/
  segments : List (ℕ × List UInt8)
  eventId : ℕ
  typeId : ℕ
  segmentNum : ℕ
  segmentsExpected : ℕ
  deriving DecidableEq

/-- A UPID: its type and its bytes. -/
structure Upid where
  upidType : ℕ
  bytes : List UInt8
  deriving DecidableEq

/-- What the UPIDs so far have said. -/
structure UpidFindings where
  poData : PlacementOpportunityData
  validRequest : Bool
  deriving DecidableEq

/-- `RBI_MAX_DATA` -/
def Upid.maxData : ℕ := 257

/-- What a segmentation descriptor has said when its UPIDs are still to be read. -/
def UpidFindings.ofFields
    (poDuration segmentEventId segmentationTypeId segmentNum segmentsExpected : ℕ) :
    UpidFindings where
  validRequest := false
  poData :=
    { signalId := .ofBuffer []
      poDuration := poDuration
      poType := segmentationTypeId
      streamId := .ofBuffer []
      contentId := List.replicate Upid.maxData 0
      serviceSource := .ofBuffer []
      zone := .ofBuffer []
      windowStart := 0
      elementId := .ofBuffer []
      elementBreakId := .ofBuffer []
      segments := []
      eventId := segmentEventId
      typeId := segmentationTypeId
      segmentNum := segmentNum
      segmentsExpected := segmentsExpected }

namespace Upid

/-! ## Text -/

/-- A digit of `hexmap`. -/
def hexDigit (n : ℕ) : UInt8 := UInt8.ofNat (if n < 10 then 0x30 + n else 0x37 + n)

/-- The text of `segmentationPOUpid`, as far as it is copied. -/
def hexText (bytes : List UInt8) : List UInt8 :=
  (bytes.flatMap fun b =>
    [hexDigit ((b.toNat &&& 0xF0) >>> 4), hexDigit (b.toNat &&& 0x0F)]).take maxData

/-- The value of a digit, in bases up to 36. -/
def digit (b : UInt8) : ℕ :=
  let n := b.toNat
  if 0x30 ≤ n ∧ n ≤ 0x39 then n - 0x30
  else if 0x41 ≤ n ∧ n ≤ 0x5A then n - 0x37
  else if 0x61 ≤ n ∧ n ≤ 0x7A then n - 0x57
  else 36

/-- The digits at the front of a text as a number. -/
def digits (base : ℕ) (text : List UInt8) : ℕ :=
  (text.takeWhile fun b => decide (digit b < base)).foldl (fun n b => n * base + digit b) 0

/-- `strtoll(text, 0, 0)` -/
def strtoll (text : List UInt8) : ℤ :=
  let text := text.dropWhile fun b => decide (b = 0x20 ∨ 0x09 ≤ b ∧ b ≤ 0x0D)
  let negative := text.head? = some 0x2D
  let text := if text.head? = some 0x2D ∨ text.head? = some 0x2B then text.tail else text
  let value := match text with
    | 0x30 :: x :: c :: text =>
      if (x = 0x58 ∨ x = 0x78) ∧ digit c < 16 then digits 16 (c :: text)
      else digits 8 (x :: c :: text)
    | 0x30 :: text => digits 8 text
    | text => digits 10 text
  if negative then max (-(value : ℤ)) (-2 ^ 63) else min value (2 ^ 63 - 1)

/-! ## UPIDs -/

/-- The segmentation types of a provider's opportunity. -/
def provider (segmentationTypeId : ℕ) : Bool :=
  decide (segmentationTypeId = 0x30 ∨ segmentationTypeId = 0x44 ∨ segmentationTypeId = 0x34)

/-- The segmentation type of a distributor's opportunity. -/
def distributor (segmentationTypeId : ℕ) : Bool := decide (segmentationTypeId = 0x36)

/-- A UPID in ADI form (`case 9` and the default one). -/
def adiUpid (segmentationTypeId : ℕ) (u : Upid) (f : UpidFindings) : UpidFindings :=
  let text := CString.ofBuffer u.bytes
  if text.contains (ascii "SIGNAL:") then
    ⟨{ f.poData with signalId := text }, f.validRequest || distributor segmentationTypeId⟩
  else f

/-- What a UPID of a list is found to be, and whether it has been used. -/
def midUse (segmentationTypeId : ℕ) (u : Upid) (f : UpidFindings) : UpidFindings × Bool :=
  let text := CString.ofBuffer u.bytes
  let provider := provider segmentationTypeId
  let distributor := distributor segmentationTypeId
  if u.upidType = 9 then
    if text.contains (ascii "SIGNAL:") then
      (⟨{ f.poData with signalId := text }, f.validRequest || distributor⟩, false)
    else if provider && text.startsWith (ascii "PO:") then
      (⟨{ f.poData with elementId := text }, f.validRequest⟩, true)
    else if provider && text.startsWith (ascii "BREAK:") then
      (⟨{ f.poData with elementBreakId := text }, f.validRequest⟩, true)
    else (f, false)
  else if u.upidType = 0xF ∧ (distributor || provider) = true then
    let asked := provider && text.contains (ascii "urn:comcast:altcon:addressable")
    let valid := f.validRequest || asked
    if text.contains (ascii "urn:merlin:linear:stream:") then
      (⟨{ f.poData with streamId := text }, valid⟩, true)
    else if text.contains (ascii "private:comcast_qam_gateway:") then
      (⟨{ f.poData with serviceSource := text }, valid⟩, true)
    else if text.contains (ascii "urn:comcast:location:vde-adzone:") then
      (⟨{ f.poData with zone := text }, valid⟩, true)
    else if distributor && text.contains (ascii "urn:comcast:altcon:airdate:") then
      match text.strtok (ascii "urn:comcast:altcon:airdate:") with
      | some token => (⟨{ f.poData with windowStart := strtoll token }, valid⟩, true)
      | none => (⟨f.poData, valid⟩, asked)
    else (⟨f.poData, valid⟩, asked)
  else (f, false)

/-- A UPID of a list (`case 13`). -/
def midUpid (segmentationTypeId : ℕ) (u : Upid) (f : UpidFindings) : UpidFindings :=
  let (f, segmentationUsed) := midUse segmentationTypeId u f
  if segmentationUsed then f
  else
    let text := hexText u.bytes
    if u.upidType = 8 then
      ⟨{ f.poData with contentId := text ++ f.poData.contentId.drop text.length },
        f.validRequest⟩
    else
      ⟨{ f.poData with segments := f.poData.segments ++ [(u.upidType, text)] }, f.validRequest⟩

/-- `sizeof(segments) / sizeof(Segments)` -/
def maxSegments : ℕ := 10

/-- A UPID of a list takes one of the places of `segments`. -/
def takesSegment (segmentationTypeId : ℕ) (u : Upid) : Bool :=
  !(midUse segmentationTypeId u (.ofFields 0 0 0 0 0)).2 && decide (u.upidType ≠ 8)

theorem segments_midUse (segmentationTypeId : ℕ) (u : Upid) (f : UpidFindings) :
    (midUse segmentationTypeId u f).1.poData.segments = f.poData.segments := by
  rw [midUse]
  split_ifs <;> try rfl
  split <;> rfl

/-- Whether a UPID is used does not depend on the ones in front of it. -/
theorem used_midUse (segmentationTypeId : ℕ) (u : Upid) (f g : UpidFindings) :
    (midUse segmentationTypeId u f).2 = (midUse segmentationTypeId u g).2 := by
  rw [midUse, midUse]
  split_ifs <;> try rfl
  split <;> rfl

theorem length_segments_midUpid (segmentationTypeId : ℕ) (u : Upid) (f : UpidFindings) :
    (midUpid segmentationTypeId u f).poData.segments.length =
      f.poData.segments.length + if takesSegment segmentationTypeId u then 1 else 0 := by
  have hsegments := congrArg List.length (segments_midUse segmentationTypeId u f)
  rw [midUpid, takesSegment, used_midUse segmentationTypeId u _ f]
  dsimp only
  rcases (midUse segmentationTypeId u f).2 with _ | _
  · by_cases h8 : u.upidType = 8
    · simp [h8, hsegments]
    · simp [h8, hsegments]
  · simp [hsegments]

end Upid

/-! ## Triggers -/

/-- `RBITrigger`, as a segmentation descriptor makes it. -/
structure RBITrigger where
  id : ℕ
  splicePTS : ℤ
  leadTime : ℤ
  poData : PlacementOpportunityData
  deriving DecidableEq

/-- What a splice command comes with, and what it finds. -/
structure SpliceContext where
  cmd : ℕ
  spliceTime : ℤ
  /-- `RBIManager::getInstance()->isSTTAcquired()` -/
  isSTTAcquired : Bool
  /-- `m_currentPCR`, unless it is -1 -/
  m_currentPCR : Option ℤ
  /-- the answer of `m_events->triggerDetected` -/
  triggerDetected : RBITrigger → Bool

/-- What the descriptors lead to. -/
structure Opportunities where
  /-- `getTriggerDetectedForOpportunity` of `m_events`, if there is one -/
  m_events : Option Bool
  m_scanForFrameType : Bool
  triggerEmitted : Bool
  /-- the triggers given to `m_events` -/
  triggers : List RBITrigger

/-- A program segmentation asks for a trigger. -/
def SpliceContext.opportunity (c : SpliceContext) (segmentEventId : ℕ) (f : UpidFindings)
    (o : Opportunities) : Opportunities :=
  if c.cmd = 5 ∨ c.cmd = 6 ∧ f.validRequest = true then
    if c.isSTTAcquired then
      match o.m_events with
      | some false =>
        if f.validRequest then
          let leadTime := match c.m_currentPCR with
            | some pcr => (c.spliceTime - pcr) % 2 ^ 33
            | none => 0
          let trigger := ⟨segmentEventId, c.spliceTime, leadTime, f.poData⟩
          { m_events := some (c.triggerDetected trigger)
            m_scanForFrameType := true
            triggerEmitted := true
            triggers := o.triggers ++ [trigger] }
        else o
      | _ => o
    else o
  else o

end MediaFramework
