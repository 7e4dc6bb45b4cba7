import MediaFramework.Inb.PsiSection
import MediaFramework.Lib.Cells
import MediaFramework.Lib.Loop

/-!
# The program association table

`parse_and_update_PAT` in the build without the in-band SI cache. The header is checked field by
field; a loop over the programs collects them in a local array; and the array replaces the list of
programs when the version or the CRC is new.

The loop goes on while more than a CRC is left, but moves on only when a whole entry *and* a CRC are
left. With one to three bytes too many it therefore stays at the entry it is at. The array has room
for `PMT_LIST_MAX_LEN` programs; further ones are counted, though not stored, and the copy goes by
the count. And the length of the header is taken off an unsigned length without a look.

`PatMgr.serves_iff` says for which sections none of this shows.
-/

namespace MediaFramework

/-! ## What is stored -/

/-- `rmf_pmtInfo_t` -/
structure PmtInfo where
  program_no : ℕ
  pmt_pid : ℕ
  deriving DecidableEq

/-- The fields of `rmf_InbSiMgr` the PAT is kept in. -/
structure PatMgr where
  /-- sections still expected -/
  num_sections : ℕ
  m_bIsPATAvailable : Bool
  /-- the memory the list is in: what has been written to it -/
  m_pmtInfoList : List PmtInfo
  m_pmtListLen : ℕ
  m_pmtListMaxSize : ℕ
  patVersionNumber : ℕ
  patCRC : ℕ
  ts_id : ℕ
  deriving DecidableEq

/-- `INIT_TABLE_VERSION` -/
def initTableVersion : ℕ := 32

/-- As the constructor leaves them. -/
def PatMgr.created : PatMgr where
  num_sections := 0
  m_bIsPATAvailable := false
  m_pmtInfoList := []
  m_pmtListLen := 0
  m_pmtListMaxSize := 16
  patVersionNumber := initTableVersion
  patCRC := 0
  ts_id := 0

/-- The programs as they are looked up. -/
def PatMgr.programs (m : PatMgr) : List PmtInfo := m.m_pmtInfoList.take m.m_pmtListLen

/-- What a call tells others of. -/
inductive PatEvent where
  /-- `m_bIsPATAvailable` is set, and `g_inbsi_pat_cond` -/
  | available
  /-- `notifySIDB`: the table is new, or another one -/
  | notified (new : Bool)
  deriving DecidableEq

/-- How a call ends. -/
inductive PatEnding where
  /-- with a read outside the section -/
  | overread
  /-- with a copy of more entries than the local array has -/
  | overrun
  | returned (code : ℕ) (m : PatMgr) (events : List PatEvent)
  deriving DecidableEq

/-- `PARSING_DONE`, reached with an error. -/
def PsiStop.patEnding (m : PatMgr) : PsiStop → PatEnding
  | .outside => .overread
  | .error code => .returned code m []

/-! ## The header -/

/-- The checks of the table id, the section syntax indicator and the section length. -/
def patSectionLength (s : PsiSection) : Except PsiStop ℕ := do
  let table_id ← s.octet 1
  if table_id ≠ 0x00 then .error (.error 1) else
  let octet2 ← s.octet 2
  if getBits octet2 8 8 = 0 then .error (.error 3) else
  let octet3 ← s.octet 3
  let section_length := getBits octet2 4 1 <<< 8 ||| octet3
  if 1021 < section_length then .error (.error 2) else
  if minus s.size 3 ≠ section_length then .error (.error 3) else
  return section_length

/-- The count of sections is loaded when none is expected any more. -/
def PatMgr.expect (m : PatMgr) (s : PsiSection) : Except PsiStop PatMgr :=
  if m.num_sections = 0 then do
    let last_section_number ← s.octet 8
    return { m with num_sections := last_section_number + 1 }
  else .ok m

/-- The rest of the header. -/
structure PatHeader where
  transport_stream_id : ℕ
  version_number : ℕ
  /-- bytes after the header -/
  section_length : ℕ

/-- Octets four to six, and the room for a CRC. -/
def patHeader (s : PsiSection) (section_length : ℕ) : Except PsiStop PatHeader := do
  let octet4 ← s.octet 4
  let octet5 ← s.octet 5
  let octet6 ← s.octet 6
  let section_length := minus section_length 5
  if section_length < 4 then .error (.error 5) else
  return ⟨octet4 <<< 8 ||| octet5, getBits octet6 6 2, section_length⟩

/-! ## The program loop -/

/-- `pmtInfo` and `number_of_PMTs` -/
structure PatPrograms where
  number_of_PMTs : ℕ
  pmtInfo : ℕ → PmtInfo

/-- A program is counted, and stored while there is room. Of the array nothing is read that has not
been written. -/
def PatPrograms.take (c : PatPrograms) (program_number pid : ℕ) : PatPrograms where
  number_of_PMTs := (c.number_of_PMTs + 1) % 2 ^ 32
  pmtInfo :=
    if c.number_of_PMTs < 128 then Function.update c.pmtInfo c.number_of_PMTs ⟨program_number, pid⟩
    else c.pmtInfo

/-- Between two rounds of the loop. -/
structure PatLoop where
  /-- bytes left, the CRC among them -/
  section_length : ℕ
  /-- where `ptr_input_buffer` points -/
  pos : ℕ
  found : PatPrograms

/-- A PID that is neither reserved nor that of the null packets. -/
def validPid (pid : ℕ) : Bool := decide (0x0010 ≤ pid ∧ pid ≤ 0x1FFE)

/-- A round over an entry that has been read. -/
def patRound (l : PatLoop) (program_number unknown_pid : ℕ) : Except PsiStop PatLoop ⊕ PatLoop :=
  if validPid unknown_pid then
    let found := if program_number ≠ 0 then l.found.take program_number unknown_pid else l.found
    if 4 + 4 ≤ l.section_length then .inr ⟨minus l.section_length 4, l.pos + 4, found⟩
    else .inr ⟨l.section_length, l.pos, found⟩
  else .inl (.error (.error 7))

/-- The body of the loop. -/
def patBody (s : PsiSection) (l : PatLoop) : Except PsiStop PatLoop ⊕ PatLoop :=
  if 4 < l.section_length then
    match s.word l.pos, s.word (l.pos + 2) with
    | .ok program_number, .ok pid => patRound l program_number (pid &&& 0x1FFF)
    | _, _ => .inl (.error .outside)
  else .inl (.ok l)

/-! ## The update -/

/-- What has been parsed. -/
structure PatParse where
  header : PatHeader
  found : PatPrograms
  crc : ℕ

/-- The section is not one of the table that is stored. -/
def PatMgr.isNew (m : PatMgr) (version_number crc : ℕ) : Bool :=
  m.patVersionNumber == initTableVersion || m.patVersionNumber != version_number || m.patCRC != crc

/-- The list is replaced, and others are told when no more section is expected. -/
def PatMgr.replace (m : PatMgr) (p : PatParse) : PatEnding :=
  let n := p.found.number_of_PMTs
  if n ≤ 128 then
    let stored := { m with
      m_pmtInfoList := load p.found.pmtInfo 0 n ++ m.m_pmtInfoList.drop n
      m_pmtListLen := n
      m_pmtListMaxSize := max m.m_pmtListMaxSize n
      ts_id := p.header.transport_stream_id
      patVersionNumber := p.header.version_number
      patCRC := p.crc }
    if m.num_sections = 0 then
      .returned 0 { stored with m_bIsPATAvailable := true }
        ((if m.m_bIsPATAvailable then [] else [.available]) ++
          [.notified (m.patVersionNumber == initTableVersion)])
    else .returned 0 stored []
  else .overrun

/-- A section that has been parsed is one less to come. -/
def PatMgr.counted (m : PatMgr) : PatMgr := { m with num_sections := minus m.num_sections 1 }

/-- After `PARSING_DONE`, without an error. `memory` is what `rmf_osal_memReallocP` says, should it
be asked. -/
def PatMgr.update (m : PatMgr) (memory : Bool) (p : PatParse) : PatEnding :=
  let m := m.counted
  if m.isNew p.header.version_number p.crc then
    if m.m_pmtListMaxSize < p.found.number_of_PMTs ∧ memory = false then .returned 25 m []
    else m.replace p
  else if m.num_sections = 0 ∧ m.m_bIsPATAvailable = false then
    .returned 0 { m with m_bIsPATAvailable := true } [.available]
  else .returned 0 m []

/-! ## The call -/

/-- A section that is delivered, and whether there is memory for a longer list. -/
structure PatCall where
  sect : PsiSection
  memory : Bool

/-- The end of the loop. -/
def patParsed (s : PsiSection) (header : PatHeader) (l : PatLoop) : Except PsiStop PatParse :=
  if l.section_length ≠ 4 then .error (.error 13)
  else do
    let crc ← s.crc l.pos
    return ⟨header, l.found, crc⟩

/-- How the call ends when the loop has left. -/
def PatMgr.finish (m : PatMgr) (call : PatCall) (header : PatHeader) :
    Except PsiStop PatLoop → PatEnding
  | .error stop => stop.patEnding m
  | .ok l =>
    match patParsed call.sect header l with
    | .error stop => stop.patEnding m
    | .ok p => m.update call.memory p

/-- The loop begins after the header, with no program found. -/
def PatHeader.loop (h : PatHeader) : PatLoop :=
  ⟨h.section_length, 8, ⟨0, fun _ => ⟨0, 0⟩⟩⟩

/-- `rmf_InbSiMgr::parse_and_update_PAT`, with at most `fuel` rounds of its loop. -/
def PatMgr.parseAndUpdatePAT (fuel : ℕ) (m : PatMgr) (call : PatCall) : Option PatEnding :=
  match patSectionLength call.sect with
  | .error stop => some (stop.patEnding m)
  | .ok section_length =>
    match m.expect call.sect with
    | .error stop => some (stop.patEnding m)
    | .ok m =>
      match patHeader call.sect section_length with
      | .error stop => some (stop.patEnding m)
      | .ok header => (iterate (patBody call.sect) fuel header.loop).map (m.finish call header)

end MediaFramework
