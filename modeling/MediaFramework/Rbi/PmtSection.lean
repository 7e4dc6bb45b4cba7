import MediaFramework.Lib.Search
import MediaFramework.Rbi.TsPacket

/-!
# PMT sections (`RBIStreamProcessor::processPMTSection`)

A PMT section lists the elementary streams of a programme. `processPMTSection` puts
each of them into one of four tables of the local frame: video, audio with its
language, the data that carries triggers, and the private data that is monitored. A
stream is private data when it meets one of the specs of the
`RBIPrivateDataMonitor`; to find out, the descriptors of the stream are looked
through once for each spec that asks for one.

The counts, the lengths of the descriptor loops and the lengths of the descriptors
all come from the section. Beside what is found, `Components` keeps how far the
section has been read and how many bytes have been put into `work`.

The section begins with its pointer field: byte `i` of it is `pmt i`, and its
`section_length` is counted from byte 4 on.
-/

namespace MediaFramework

namespace ProgramMap

/-- `RBIPrivateDataStreamSpec`; the bytes from `descrData` on. -/
structure StreamSpec where
  streamType : ℤ
  matchTag : Bool
  descrTag : UInt8
  descrDataLen : ℤ
  descrData : ℕ → UInt8

/-- An elementary stream: where its entry begins, and the fields in front of its
descriptors. -/
structure StreamEntry where
  place : ℕ
  streamType : ℕ
  pid : ℕ
  len : ℕ
  deriving DecidableEq

/-- `MAX_PIDS` -/
def maxPids : ℕ := 8

/-- `sizeof(work)` -/
def sizeofWork : ℕ := 32

/-- What `processPMTSection` has found. -/
structure Components where
  pcrPid : ℕ
  isH264 : Bool
  triggerEnable : Bool
  video : List StreamEntry
  audio : List (StreamEntry × Option (List UInt8))
  data : List StreamEntry
  privateData : List StreamEntry
  /-- one more than the last place of the section that has been read -/
  reach : ℕ
  /-- the most bytes that have been put into `work` -/
  work : ℕ

/-- When the fixed fields of the section have been read. -/
def Components.start (pcrPid : ℕ) (isH264 triggerEnable : Bool) : Components where
  pcrPid := pcrPid
  isH264 := isH264
  triggerEnable := triggerEnable
  video := []
  audio := []
  data := []
  privateData := []
  reach := 13
  work := 0

/-- MPEG-2, ATSC and H.264 video. -/
def isVideo (streamType : ℕ) : Bool := streamType ∈ [0x02, 0x80, 0x1B]

/-- The stream types of audio. -/
def isAudio (streamType : ℕ) : Bool :=
  streamType ∈ [0x03, 0x04, 0x0F, 0x11, 0x81, 0x82, 0x83, 0x84, 0x87, 0x8A, 0x91, 0x94]

/-- SCTE-35. -/
def isData (streamType : ℕ) : Bool := streamType = 0x86

section Memory

variable (pmt : ℕ → UInt8)

/-- The entry of an elementary stream. -/
def entryAt (programInfo : ℕ) : StreamEntry where
  place := programInfo
  streamType := (pmt programInfo).toNat
  pid := ((pmt (programInfo + 1)).toNat &&& 0x1F) <<< 8 + (pmt (programInfo + 2)).toNat
  len := ((pmt (programInfo + 3)).toNat &&& 0x0F) <<< 8 + (pmt (programInfo + 4)).toNat

/-! ## Languages -/

/-- What the loop over the descriptors of an audio stream has found. -/
structure Languages where
  language : Option (List UInt8)
  reach : ℕ
  work : ℕ

/-- A descriptor of an audio stream. -/
def languageDescriptor (programInfo descIdx : ℕ) (l : Languages) : Languages :=
  let descrTag := pmt (programInfo + descIdx)
  let descrLen := (pmt (programInfo + descIdx + 1)).toNat
  -- ISO_639_language_descriptor
  if descrTag = 0x0A then
    { language := some (load pmt (programInfo + descIdx + 2) descrLen)
      reach := max l.reach (programInfo + descIdx + 2 + descrLen)
      work := max l.work (descrLen + 1) }
  else { l with reach := max l.reach (programInfo + descIdx + 2) }

/-- The loop over the descriptors of an audio stream. -/
def languageLoop (programInfo maxIdx descIdx : ℕ) (l : Languages) : Languages :=
  if descIdx < maxIdx then
    let descrLen := (pmt (programInfo + descIdx + 1)).toNat
    languageLoop programInfo maxIdx (descIdx + (2 + descrLen))
      (languageDescriptor pmt programInfo descIdx l)
  else l
termination_by maxIdx - descIdx
decreasing_by
  omega

/-! ## Private data -/

/-- The descriptor has the tag and the length of the spec, and its data is compared. -/
def compares (spec : StreamSpec) (programInfo descIdx : ℕ) : Bool :=
  decide (pmt (programInfo + descIdx) = spec.descrTag) && decide (spec.descrDataLen > 0) &&
    decide ((pmt (programInfo + descIdx + 1)).toNat = spec.descrDataLen)

/-- A descriptor matches a spec. The data is compared with what is behind the head of
the stream's first descriptor. -/
def descriptorMatches (spec : StreamSpec) (programInfo descIdx : ℕ) : Bool :=
  let descrTag := pmt (programInfo + descIdx)
  let descrLen := (pmt (programInfo + descIdx + 1)).toNat
  if descrTag = spec.descrTag then
    if spec.descrDataLen > 0 then
      if descrLen = spec.descrDataLen then
        decide (load pmt (programInfo + 7) descrLen = load spec.descrData 0 descrLen)
      else false
    else true
  else false

/-- How far the head of a descriptor, and what its data is compared with, reach. -/
def matchReach (spec : StreamSpec) (programInfo descIdx : ℕ) : ℕ :=
  if compares pmt spec programInfo descIdx then
    max (programInfo + descIdx + 2) (programInfo + 7 + (pmt (programInfo + descIdx + 1)).toNat)
  else programInfo + descIdx + 2

/-- The loop over the descriptors of a stream, up to one that matches. -/
def matchDescriptors (spec : StreamSpec) (programInfo maxIdx descIdx reach : ℕ) : Bool × ℕ :=
  if descIdx < maxIdx then
    let descrLen := (pmt (programInfo + descIdx + 1)).toNat
    let reach := max reach (matchReach pmt spec programInfo descIdx)
    if descriptorMatches pmt spec programInfo descIdx then (true, reach)
    else matchDescriptors spec programInfo maxIdx (descIdx + (2 + descrLen)) reach
  else (false, reach)
termination_by maxIdx - descIdx
decreasing_by
  omega

/-- A stream meets a spec. -/
def matchSpec (e : StreamEntry) (spec : StreamSpec) (reach : ℕ) : Bool × ℕ :=
  if e.streamType = spec.streamType then
    if spec.matchTag then
      if e.len > 2 then matchDescriptors pmt spec e.place (5 + e.len) 5 reach
      else (false, reach)
    else (true, reach)
  else (false, reach)

/-- The loop over the specs, up to one that is met. -/
def matchSpecs (e : StreamEntry) : List StreamSpec → ℕ → Bool × ℕ
  | [], reach => (false, reach)
  | spec :: specs, reach =>
    match matchSpec pmt e spec reach with
    | (true, reach) => (true, reach)
    | (false, reach) => matchSpecs e specs reach

/-! ## Streams -/

section Streams

variable (h264Enabled : Bool) (specs : List StreamSpec)

/-- The `switch` over the stream type. -/
def sortStream (e : StreamEntry) (c : Components) : Components :=
  if isVideo e.streamType then
    let c := { c with video := c.video ++ [e] }
    if e.streamType = 0x1B then
      { c with isH264 := true, triggerEnable := c.triggerEnable && h264Enabled }
    else c
  else if isAudio e.streamType then
    let l : Languages :=
      if e.len > 2 then languageLoop pmt e.place (5 + e.len) 5 ⟨none, c.reach, c.work⟩
      else ⟨none, c.reach, c.work⟩
    { c with audio := c.audio ++ [(e, l.language)], reach := l.reach, work := l.work }
  else if isData e.streamType then { c with data := c.data ++ [e] }
  else c

/-- A stream that is monitored. -/
def registerPrivate (e : StreamEntry) (c : Components) : Components :=
  let (isMatch, reach) := matchSpecs pmt e specs c.reach
  { c with privateData := if isMatch then c.privateData ++ [e] else c.privateData, reach := reach }

/-- One elementary stream. -/
def processStream (c : Components) (e : StreamEntry) : Components :=
  registerPrivate pmt specs e
    (sortStream pmt h264Enabled e { c with reach := max c.reach (e.place + 5) })

/-- The loop over the elementary streams. -/
def processStreams (programInfoEnd programInfo : ℕ) (c : Components) : Components :=
  if programInfo < programInfoEnd then
    let e := entryAt pmt programInfo
    processStreams programInfoEnd (programInfo + (5 + e.len)) (processStream pmt h264Enabled specs c e)
  else c
termination_by programInfoEnd - programInfo
decreasing_by
  omega

/-- Where the elementary streams begin. -/
def streamsBegin : ℕ := ((pmt 11).toNat &&& 0x0F) <<< 8 + (pmt 12).toNat + 13

/-- `pcrPid` -/
def pcrPidOf : ℕ := ((pmt 9).toNat &&& 0x1F) <<< 8 + (pmt 10).toNat

/-- `processPMTSection`, up to the call of `setComponentInfo`. -/
def processPMTSection (isH264 triggerEnable : Bool) (sectionLength : ℕ) : Components :=
  let programInfoEnd := 4 + sectionLength - 4
  processStreams pmt h264Enabled specs programInfoEnd (streamsBegin pmt)
    (.start (pcrPidOf pmt) isH264 triggerEnable)

end Streams

/-! ## Streams and descriptors of a section -/

/-- The elementary streams from `programInfo` on. -/
def entries (programInfoEnd programInfo : ℕ) : List StreamEntry :=
  if programInfo < programInfoEnd then
    let e := entryAt pmt programInfo
    e :: entries programInfoEnd (programInfo + (5 + e.len))
  else []
termination_by programInfoEnd - programInfo
decreasing_by
  omega

/-- The elementary streams of a section. -/
def streams (sectionLength : ℕ) : List StreamEntry := entries pmt sectionLength (streamsBegin pmt)

/-- Where the descriptors of a stream begin, from `descIdx` on. -/
def descriptorsFrom (programInfo maxIdx descIdx : ℕ) : List ℕ :=
  if descIdx < maxIdx then
    let descrLen := (pmt (programInfo + descIdx + 1)).toNat
    descIdx :: descriptorsFrom programInfo maxIdx (descIdx + (2 + descrLen))
  else []
termination_by maxIdx - descIdx
decreasing_by
  omega

/-- Where the descriptors of a stream begin. -/
def StreamEntry.descriptors (e : StreamEntry) : List ℕ :=
  descriptorsFrom pmt e.place (5 + e.len) 5

/-- A stream meets a spec. -/
def meets (e : StreamEntry) (spec : StreamSpec) : Bool :=
  decide (e.streamType = spec.streamType) && (!spec.matchTag ||
    decide (e.len > 2) && (e.descriptors pmt).any (descriptorMatches pmt spec e.place))

variable {pmt}

theorem entries_cons {programInfoEnd programInfo : ℕ} (h : programInfo < programInfoEnd) :
    entries pmt programInfoEnd programInfo = entryAt pmt programInfo ::
      entries pmt programInfoEnd (programInfo + (5 + (entryAt pmt programInfo).len)) := by
  rw [entries, if_pos h]

theorem entries_nil {programInfoEnd programInfo : ℕ} (h : ¬programInfo < programInfoEnd) :
    entries pmt programInfoEnd programInfo = [] := by
  rw [entries, if_neg h]

theorem descriptorsFrom_cons {programInfo maxIdx descIdx : ℕ} (h : descIdx < maxIdx) :
    descriptorsFrom pmt programInfo maxIdx descIdx = descIdx ::
      descriptorsFrom pmt programInfo maxIdx
        (descIdx + (2 + (pmt (programInfo + descIdx + 1)).toNat)) := by
  rw [descriptorsFrom, if_pos h]

theorem descriptorsFrom_nil {programInfo maxIdx descIdx : ℕ} (h : ¬descIdx < maxIdx) :
    descriptorsFrom pmt programInfo maxIdx descIdx = [] := by
  rw [descriptorsFrom, if_neg h]

/-- The loop takes one stream after another. -/
theorem processStreams_eq (h264Enabled : Bool) (specs : List StreamSpec) (programInfoEnd : ℕ)
    (programInfo : ℕ) (c : Components) :
    processStreams pmt h264Enabled specs programInfoEnd programInfo c =
      (entries pmt programInfoEnd programInfo).foldl (processStream pmt h264Enabled specs) c := by
  induction programInfo, c using processStreams.induct pmt h264Enabled specs programInfoEnd with
  | case1 programInfo c hlt e ih =>
    rw [processStreams, if_pos hlt, entries_cons hlt, List.foldl_cons]
    exact ih
  | case2 programInfo c hlt =>
    rw [processStreams, if_neg hlt, entries_nil hlt, List.foldl_nil]

/-- The loop over the descriptors is a search for one that matches. -/
theorem matchDescriptors_eq (spec : StreamSpec) (programInfo maxIdx descIdx reach : ℕ) :
    matchDescriptors pmt spec programInfo maxIdx descIdx reach =
      ((descriptorsFrom pmt programInfo maxIdx descIdx).any
          (descriptorMatches pmt spec programInfo),
        (upTo (descriptorMatches pmt spec programInfo)
          (descriptorsFrom pmt programInfo maxIdx descIdx)).foldl
            (fun reach d => max reach (matchReach pmt spec programInfo d)) reach) := by
  induction descIdx, reach using matchDescriptors.induct pmt spec programInfo maxIdx with
  | case1 descIdx reach hlt hmatch =>
    rw [matchDescriptors, if_pos hlt, descriptorsFrom_cons hlt]
    rw [if_pos hmatch, List.any_cons, hmatch, Bool.true_or, upTo_cons_of_true hmatch]
    rfl
  | case2 descIdx reach hlt descrLen r' hmatch ih =>
    have hfalse := Bool.eq_false_iff.mpr hmatch
    rw [matchDescriptors, if_pos hlt, descriptorsFrom_cons hlt]
    rw [if_neg hmatch, ih, List.any_cons, hfalse, Bool.false_or, upTo_cons_of_false hfalse,
      List.foldl_cons]
  | case3 descIdx reach hlt =>
    rw [matchDescriptors, if_neg hlt, descriptorsFrom_nil hlt]
    rfl

/-- Whether a stream meets a spec does not depend on what has been read. -/
theorem fst_matchSpec (e : StreamEntry) (spec : StreamSpec) (reach : ℕ) :
    (matchSpec pmt e spec reach).1 = meets pmt e spec := by
  rw [matchSpec, meets, StreamEntry.descriptors, matchDescriptors_eq]
  by_cases htype : (e.streamType : ℤ) = spec.streamType
  · rw [if_pos htype, decide_eq_true htype, Bool.true_and]
    rcases spec.matchTag with _ | _
    · rfl
    · by_cases hlen : e.len > 2
      · simp [hlen]
      · simp [hlen]
  · rw [if_neg htype, decide_eq_false htype, Bool.false_and]

/-- The loop over the specs is a search for one that is met. -/
theorem fst_matchSpecs (e : StreamEntry) (specs : List StreamSpec) (reach : ℕ) :
    (matchSpecs pmt e specs reach).1 = specs.any (meets pmt e) := by
  induction specs generalizing reach with
  | nil => rfl
  | cons spec specs ih =>
    have hspec := @fst_matchSpec pmt e spec reach
    rw [matchSpecs, List.any_cons, ← hspec]
    rcases matchSpec pmt e spec reach with ⟨_ | _, reach'⟩
    · exact ih reach'
    · rfl

/-- The streams that are registered as private data. -/
theorem privateData_foldl (h264Enabled : Bool) (specs : List StreamSpec) (es : List StreamEntry)
    (c : Components) :
    (es.foldl (processStream pmt h264Enabled specs) c).privateData =
      c.privateData ++ es.filter fun e => specs.any (meets pmt e) := by
  have hsort : ∀ (e : StreamEntry) (c : Components),
      (sortStream pmt h264Enabled e c).privateData = c.privateData := fun e c => by
    rw [sortStream]
    split_ifs <;> rfl
  induction es generalizing c with
  | nil => exact (List.append_nil _).symm
  | cons e es ih =>
    rw [List.foldl_cons, ih, List.filter_cons, processStream, registerPrivate]
    dsimp only
    rw [hsort, fst_matchSpecs]
    by_cases hmeets : specs.any (meets pmt e) = true
    · rw [if_pos hmeets, if_pos hmeets, List.append_assoc, List.singleton_append]
    · rw [if_neg hmeets, if_neg hmeets]

/-- `processPMTSection` registers the streams that meet a spec. -/
theorem privateData_processPMTSection (h264Enabled isH264 triggerEnable : Bool)
    (specs : List StreamSpec) (sectionLength : ℕ) :
    (processPMTSection pmt h264Enabled specs isH264 triggerEnable sectionLength).privateData =
      (streams pmt sectionLength).filter fun e => specs.any (meets pmt e) := by
  rw [processPMTSection, processStreams_eq, privateData_foldl, Components.start, List.nil_append,
    streams, show 4 + sectionLength - 4 = sectionLength by omega]

end Memory

end ProgramMap

end MediaFramework
