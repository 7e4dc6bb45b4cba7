import MediaFramework.Inb.PsiSection
import MediaFramework.Lib.Loop

/-!
# The program map table

`parse_and_update_PMT` in the build without the in-band SI cache. After the header a first pass goes
over the elementary streams and their descriptors and looks for errors; when it has found none, and
the version or the CRC is new and nobody is using the descriptors, the lists are emptied and filled
again: the outer descriptors by a loop of their own, the streams by a second pass.

What the first pass looks at it looks at closely, with three exceptions. It takes the length of the
CRC off an unsigned length, so that a section whose descriptors reach into the CRC is read beyond its
end. It does not step over the one byte of a stream whose `es_info_length` is one. And it does not
look at the outer descriptors at all.

The passes are one loop in two modes: at the head of the loop over the streams, and within a stream
at the head of the loop over its descriptors.
-/

namespace MediaFramework

/-! ## What is stored -/

/-- `rmf_SiMpeg2DescriptorList`: an element of it. -/
structure PmtDescriptor where
  tag : ℕ
  content : List UInt8
  deriving DecidableEq

/-- `rmf_SiLangSpecificStringList`: an element of it. -/
structure LangString where
  language : List UInt8
  string : List UInt8
  deriving DecidableEq

/-- `rmf_SiElementaryStreamList`: an element of it. -/
structure ElementaryStream where
  elementary_stream_type : ℕ
  elementary_PID : ℕ
  es_info_length : ℕ
  descriptors : List PmtDescriptor
  associated_language : List UInt8
  service_component_names : List LangString
  deriving DecidableEq

/-- The fields of `rmf_InbSiMgr` the PMT is kept in. -/
structure PmtMgr where
  outer_descriptors : List PmtDescriptor
  elementary_streams : List ElementaryStream
  /-- between `GetDescriptors` and `ReleaseDescriptors` -/
  descriptors_in_use : Bool
  pcrPid : ℕ
  pmtVersionNumber : ℕ
  pmtCRC : ℕ
  deriving DecidableEq

/-! ## The header -/

/-- What the header says. -/
structure PmtHeader where
  version_number : ℕ
  pcr_pid : ℕ
  program_info_length : ℕ
  /-- bytes after the outer descriptors -/
  section_length : ℕ

/-- `NO_PCR_PID` -/
def noPcrPid : ℕ := 0x1FFF

/-- The header, down to the outer descriptors. -/
def pmtHeader (s : PsiSection) : Except PsiStop PmtHeader := do
  let table_id ← s.octet 1
  if table_id ≠ 0x02 then .error (.error 2) else
  let octet2 ← s.octet 2
  if getBits octet2 8 8 = 0 then .error (.error 3) else
  let octet3 ← s.octet 3
  let section_length := getBits octet2 4 1 <<< 8 ||| octet3
  if 1021 < section_length ∨ section_length < 9 then .error (.error 6) else
  if minus s.size 3 ≠ section_length then .error (.error 7) else
  let octet6 ← s.octet 6
  let section_number ← s.octet 7
  if section_number ≠ 0 then .error (.error 10) else
  let last_section_number ← s.octet 8
  if last_section_number ≠ 0 then .error (.error 11) else
  let octet9 ← s.octet 9
  let octet10 ← s.octet 10
  let pcr_pid := (octet9 &&& 0x1F) <<< 8 ||| octet10
  if 1 < pcr_pid ∧ pcr_pid < 0x0010 then .error (.error 13) else
  let octet11 ← s.octet 11
  let octet12 ← s.octet 12
  let program_info_length := (octet11 &&& 0x0F) <<< 8 ||| octet12
  if 1023 < program_info_length then .error (.error 15) else
  let section_length := section_length - 9
  if section_length = 0 ∨ section_length < program_info_length then .error (.error 16) else
  return ⟨getBits octet6 6 2, pcr_pid, program_info_length, section_length - program_info_length⟩

/-! ## The names in a component name descriptor -/

/-- The segments of a string. `strncat` goes up to a zero byte or the number of bytes; the pointer
is left where the segment begins. -/
def appendSegment (s : PsiSection) : ℕ → ℕ → List UInt8 → Except PsiStop (List UInt8)
  | 0, _, string => .ok string
  | numBytes + 1, pos, string =>
    match s.bytes[pos]? with
    | none => .error .outside
    | some b => if b = 0 then .ok string else appendSegment s numBytes (pos + 1) (string ++ [b])

/-- The segments of a string, and where they end: `mssString` has 1024 bytes. -/
def nameSegments (s : PsiSection) : ℕ → ℕ → List UInt8 → Except PsiStop (ℕ × List UInt8)
  | 0, pos, string => .ok (pos, string)
  | numSegments + 1, pos, string => do
    let compressionType ← s.byte pos
    let mode ← s.byte (pos + 1)
    if compressionType ≠ 0 ∨ mode ≠ 0 then .ok (pos + 2, string) else
    let numBytes ← s.byte (pos + 2)
    let string ← appendSegment s numBytes (pos + 3) string
    if 1024 ≤ string.length then .error .outside else
    nameSegments s numSegments (pos + 3) string

/-- The language of a string, three bytes copied by `strncpy`: up to a zero byte. -/
def languageAt (s : PsiSection) (pos : ℕ) : List UInt8 :=
  ((s.bytes.drop pos).take 3).takeWhile (· ≠ 0)

/-- The strings: each is put in front of those before it. -/
def nameStrings (s : PsiSection) : ℕ → ℕ → List LangString → Except PsiStop (List LangString)
  | 0, _, names => .ok names
  | numStrings + 1, pos, names => do
    let _ ← s.byte pos
    let _ ← s.byte (pos + 1)
    let _ ← s.byte (pos + 2)
    let numSegments ← s.byte (pos + 3)
    let (end_, string) ← nameSegments s numSegments (pos + 4) []
    nameStrings s numStrings end_
      (if string = [] then names else ⟨languageAt s pos, string⟩ :: names)

/-- The names in the descriptor whose content is at `pos`. -/
def componentNames (s : PsiSection) (pos : ℕ) : Except PsiStop (List LangString) := do
  let numStrings ← s.byte pos
  nameStrings s numStrings (pos + 1) []

/-! ## The lists -/

/-- Some bytes, copied by `memcpy`. -/
def PsiSection.copy (s : PsiSection) (pos n : ℕ) : Except PsiStop (List UInt8) :=
  if pos + n ≤ s.size then .ok ((s.bytes.drop pos).take n) else .error .outside

/-- `SetElementaryStream`: a stream is appended, unless its PID is zero. -/
def setElementaryStream (stream_type elem_pid : ℕ) (streams : List ElementaryStream) :
    List ElementaryStream :=
  if elem_pid = 0 then streams else streams ++ [⟨stream_type, elem_pid, 0, [], [0, 0, 0, 0], []⟩]

/-- The list element a PID and a stream type are looked up by. -/
def ElementaryStream.isFor (e : ElementaryStream) (elem_pid stream_type : ℕ) : Bool :=
  e.elementary_PID == elem_pid && e.elementary_stream_type == stream_type

/-- `SetESInfoLength`: of the first stream with the PID and the type. -/
def setESInfoLength (elem_pid stream_type es_info_length : ℕ) :
    List ElementaryStream → List ElementaryStream
  | [] => []
  | e :: streams =>
    if e.isFor elem_pid stream_type then { e with es_info_length := es_info_length } :: streams
    else e :: setESInfoLength elem_pid stream_type es_info_length streams

/-- `associated_language` after a descriptor: an ISO 639 language descriptor has one. -/
def ElementaryStream.languageAfter (s : PsiSection) (e : ElementaryStream) (tag length pos : ℕ) :
    Except PsiStop (List UInt8) :=
  if tag = 0x0A ∧ 0 < length then s.copy pos 4 else .ok e.associated_language

/-- `service_component_names` after a descriptor: a component name descriptor has them. -/
def ElementaryStream.namesAfter (s : PsiSection) (e : ElementaryStream) (tag pos : ℕ) :
    Except PsiStop (List LangString) :=
  if tag = 0xA3 then componentNames s pos else .ok e.service_component_names

/-- What a descriptor does to the stream it is for. -/
def ElementaryStream.describe (s : PsiSection) (e : ElementaryStream) (tag length pos : ℕ) :
    Except PsiStop ElementaryStream := do
  let language ← e.languageAfter s tag length pos
  let names ← e.namesAfter s tag pos
  let content ← s.copy pos length
  return { e with
    associated_language := language
    service_component_names := names
    descriptors := e.descriptors ++ [⟨tag, content⟩] }

/-- `SetDescriptor`: for the first stream with the PID and the type. -/
def setDescriptor (s : PsiSection) (elem_pid stream_type tag length pos : ℕ) :
    List ElementaryStream → Except PsiStop (List ElementaryStream)
  | [] => .ok []
  | e :: streams =>
    if e.isFor elem_pid stream_type then do
      let e ← e.describe s tag length pos
      return e :: streams
    else do
      let streams ← setDescriptor s elem_pid stream_type tag length pos streams
      return e :: streams

/-! ## The passes over the streams -/

/-- Within a stream. -/
structure EsInfo where
  stream_type : ℕ
  elementary_pid : ℕ
  /-- bytes left of its descriptors -/
  es_info_length : ℕ

/-- Between two rounds of the passes. -/
structure PmtWalk where
  /-- bytes left, the CRC among them -/
  section_length : ℕ
  /-- where `ptr_input_buffer` points -/
  pos : ℕ
  inner : Option EsInfo
  /-- filled by the second pass -/
  elementary_streams : List ElementaryStream

/-- The next round, or the end. -/
def goOn {α : Type} : Except PsiStop α → Except PsiStop α ⊕ α
  | .error stop => .inl (.error stop)
  | .ok w => .inr w

/-- A stream type that is not private: with one there must be a PCR. -/
def nonPrivate (stream_type : ℕ) : Bool := decide (0x01 ≤ stream_type ∧ stream_type ≤ 0x87)

/-- The head of a stream. Only the first pass looks for errors, and only the second one stores. -/
def pmtStream (first : Bool) (pcr_pid : ℕ) (s : PsiSection) (w : PmtWalk) :
    Except PsiStop PmtWalk := do
  let stream_type ← s.byte w.pos
  if first = true ∧ pcr_pid = noPcrPid ∧ nonPrivate stream_type then .error (.error 20) else
  let octet2 ← s.byte (w.pos + 1)
  let octet3 ← s.byte (w.pos + 2)
  let elementary_pid := (octet2 &&& 0x1F) <<< 8 ||| octet3
  let octet4 ← s.byte (w.pos + 3)
  let octet5 ← s.byte (w.pos + 4)
  let es_info_length := (octet4 &&& 0x0F) <<< 8 ||| octet5
  let es_info_length := if 1023 < es_info_length then es_info_length &&& 0x03FF else es_info_length
  let section_length := minus w.section_length 5
  if first = true ∧ section_length < es_info_length then .error (.error 24) else
  return { section_length := section_length
           pos := w.pos + 5
           inner := some ⟨stream_type, elementary_pid, es_info_length⟩
           elementary_streams :=
             if first then w.elementary_streams
             else setESInfoLength elementary_pid stream_type es_info_length
               (setElementaryStream stream_type elementary_pid w.elementary_streams) }

/-- A descriptor of a stream. The second pass breaks off where the first one fails. -/
def pmtDescriptor (first : Bool) (s : PsiSection) (w : PmtWalk) (i : EsInfo) :
    Except PsiStop PmtWalk := do
  let descriptor_tag ← s.byte w.pos
  let descriptor_length ← s.byte (w.pos + 1)
  let section_length := minus w.section_length 2
  let es_info_length := i.es_info_length - 2
  if es_info_length < descriptor_length then
    if first then .error (.error 25)
    else return { w with section_length := section_length, pos := w.pos + 2, inner := none }
  else
  let streams ←
    if first then .ok w.elementary_streams
    else
      setDescriptor s i.elementary_pid i.stream_type descriptor_tag descriptor_length (w.pos + 2)
        w.elementary_streams
  let left := es_info_length - descriptor_length
  if first = true ∧ left = 1 then .error (.error 26) else
  return { section_length := minus section_length descriptor_length
           pos := w.pos + 2 + descriptor_length
           inner := if left = 1 then none else some { i with es_info_length := left }
           elementary_streams := streams }

/-- The body of the passes. -/
def pmtBody (first : Bool) (pcr_pid : ℕ) (s : PsiSection) (w : PmtWalk) :
    Except PsiStop PmtWalk ⊕ PmtWalk :=
  match w.inner with
  | none => if 5 ≤ minus w.section_length 4 then goOn (pmtStream first pcr_pid s w) else .inl (.ok w)
  | some i =>
    if 2 ≤ i.es_info_length then goOn (pmtDescriptor first s w i)
    else .inr { w with inner := none }

/-! ## The outer descriptors -/

/-- Between two rounds of the loop over the outer descriptors. -/
structure OuterWalk where
  outer_desc_len : ℕ
  pos : ℕ
  outer_descriptors : List PmtDescriptor

/-- Subtraction of `uint16_t`s. -/
def minus16 (n k : ℕ) : ℕ := if k ≤ n then n - k else n + 2 ^ 16 - k

/-- An outer descriptor is stored, `SetOuterDescriptor`, and gone past. -/
def outerDescriptor (s : PsiSection) (w : OuterWalk) : Except PsiStop OuterWalk := do
  let descriptor_tag ← s.byte w.pos
  let descriptor_length ← s.byte (w.pos + 1)
  let content ← s.copy (w.pos + 2) descriptor_length
  return ⟨minus16 (minus16 w.outer_desc_len 2) descriptor_length, w.pos + 2 + descriptor_length,
    w.outer_descriptors ++ [⟨descriptor_tag, content⟩]⟩

/-- The body of the loop over the outer descriptors. -/
def outerBody (s : PsiSection) (w : OuterWalk) : Except PsiStop (List PmtDescriptor) ⊕ OuterWalk :=
  if w.outer_desc_len = 0 then .inl (.ok w.outer_descriptors)
  else
    match outerDescriptor s w with
    | .error stop => .inl (.error stop)
    | .ok w => .inr w

/-! ## The call -/

/-- How a call ends. -/
inductive PmtEnding where
  /-- with memory used that is neither the section's nor a local buffer's -/
  | outside
  /-- `notified` is the event that is sent: of a table that is new, or of another one -/
  | returned (code : ℕ) (m : PmtMgr) (notified : Option Bool)
  deriving DecidableEq

/-- `PARSING_DONE`, reached with an error. -/
def PsiStop.pmtEnding (m : PmtMgr) : PsiStop → PmtEnding
  | .outside => .outside
  | .error code => .returned code m none

/-- The version or the CRC is not the one that is stored. -/
def PmtMgr.isNew (m : PmtMgr) (version_number crc : ℕ) : Bool :=
  m.pmtVersionNumber == 32 || m.pmtVersionNumber != version_number || m.pmtCRC != crc

/-- Where the passes begin. -/
def PmtHeader.walk (h : PmtHeader) : PmtWalk :=
  ⟨h.section_length, 12 + h.program_info_length, none, []⟩

/-- The lists are replaced. -/
def PmtMgr.store (fuel : ℕ) (m : PmtMgr) (s : PsiSection) (h : PmtHeader) (crc : ℕ) :
    Option PmtEnding :=
  (iterate (outerBody s) fuel ⟨h.program_info_length, 12, []⟩).bind fun
    | .error stop => some (stop.pmtEnding m)
    | .ok outer => (iterate (pmtBody false h.pcr_pid s) fuel h.walk).map fun
      | .error stop => stop.pmtEnding m
      | .ok w => .returned 0 { m with
          outer_descriptors := outer
          elementary_streams := w.elementary_streams
          pcrPid := h.pcr_pid
          pmtVersionNumber := h.version_number
          pmtCRC := crc } (some (m.pmtVersionNumber == 32))

/-- The end of the first pass: the CRC, and nothing but it, should be left. -/
def pmtCrc (s : PsiSection) : Except PsiStop PmtWalk → Except PsiStop ℕ
  | .error stop => .error stop
  | .ok w => if 4 < w.section_length then .error (.error 27) else s.crc w.pos

/-- After the first pass. -/
def PmtMgr.finish (fuel : ℕ) (m : PmtMgr) (s : PsiSection) (h : PmtHeader)
    (pass : Except PsiStop PmtWalk) : Option PmtEnding :=
  match pmtCrc s pass with
  | .error stop => some (stop.pmtEnding m)
  | .ok crc =>
    if m.isNew h.version_number crc = true ∧ m.descriptors_in_use = false then m.store fuel s h crc
    else some (.returned 0 m none)

/-- `rmf_InbSiMgr::parse_and_update_PMT`, with at most `fuel` rounds of each of its loops. -/
def PmtMgr.parseAndUpdatePMT (fuel : ℕ) (m : PmtMgr) (s : PsiSection) : Option PmtEnding :=
  match pmtHeader s with
  | .error stop => some (stop.pmtEnding m)
  | .ok h => (iterate (pmtBody true h.pcr_pid s) fuel h.walk).bind (m.finish fuel s h)

end MediaFramework
