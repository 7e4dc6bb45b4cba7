import MediaFramework.Lib.Run
import MediaFramework.Rbi.TsPacket

/-!
# Aggregating tables (`RBIStreamProcessor::processPacketsAligned`)

The PMT and the SCTE-35 messages of a programme come as sections, each in one
packet or over several. `processPacketsAligned` goes through the packets of a
buffer: a short section is parsed where it lies in its packet, and the payloads
of a longer one are collected in the table's buffer until it is whole.

The loop's local `payloadOffset` is shared by the packets of all PIDs. Each
branch sets it for its own packet, with one exception: a continuation packet of
an SCTE-35 section is cut at the offset some earlier packet has left.

`TableInfo.feed` is what the two tables share, and `Tables.step` is one packet
of the loop.
-/

namespace MediaFramework

/-- The two tables that are aggregated. -/
inductive Table : Type where
  | pmt
  | scte35
  deriving DecidableEq

/-- A call of `processPMTSection` or `processSCTE35Section`. -/
structure SectionCall where
  sectionLength : ℕ
  /-- the pointer field, and the section's `sectionLength + 3` bytes -/
  bytes : List UInt8
  deriving DecidableEq

/-- `tableInfo_t` -/
structure TableInfo where
  /-- `m_section` up to `m_sectionWriteOffset` -/
  collected : List UInt8
  sectionLength : ℕ
  packets : List Packet
  nextContinuity : ℕ
  /-- the sections parsed so far -/
  calls : List SectionCall
  /-- a copy of a negative length has been made -/
  overrun : Bool

/-- `section_length` of a section that begins behind the pointer field. -/
def Packet.sectionLength (p : Packet) (payloadOffset : ℕ) : ℕ :=
  ((p (payloadOffset + 2)).toNat &&& 0x0F) <<< 8 + (p (payloadOffset + 3)).toNat

namespace TableInfo

/-- `MAX_PMT_SECTION_SIZE` and `MAX_SCTE35_SECTION_SIZE` -/
def maxSectionSize : ℕ := 1021

/-- The section fits one packet, as the code sees it:
`TS_HEADER_SIZE + POINTER_FIELD_SIZE + PSI_TABLE_HEADER_SIZE` less than 188. -/
def maxShortLength : ℕ := 188 - 4 - 1 - 3

/-- `m_sectionWriteOffset` -/
def sectionWriteOffset (t : TableInfo) : ℕ := t.collected.length

/-- Before any packet. -/
def empty : TableInfo where
  collected := []
  sectionLength := 0
  packets := []
  nextContinuity := 0
  calls := []
  overrun := false

/-- What the loop does with a packet of a table's PID. -/
inductive Input : Type where
  /-- a payload-start packet with the table's section -/
  | start (p : Packet) (payloadOffset : ℕ)
  /-- any packet without payload start -/
  | next (p : Packet) (payloadOffset : ℕ)

/-- A payload-start packet: parse the section, or begin to collect it. -/
def start (t : TableInfo) (p : Packet) (payloadOffset : ℕ) : TableInfo :=
  let sectionLength := p.sectionLength payloadOffset
  let t := { t with packets := [p] }
  if sectionLength ≤ maxShortLength then
    { t with calls := t.calls ++ [⟨sectionLength, load p payloadOffset (sectionLength + 4)⟩] }
  else
    let dataLength : ℤ := 188 - payloadOffset
    if dataLength < 0 then { t with overrun := true }
    else { t with
      collected := load p payloadOffset dataLength.toNat
      sectionLength := sectionLength
      nextContinuity := (p.continuity + 1) % 16 }

/-- The counter expected, once a counter that has not moved is allowed for. -/
def expected (t : TableInfo) (p : Packet) : ℕ :=
  if (p.continuity + 1) % 16 = t.nextContinuity then p.continuity else t.nextContinuity

/-- How much of a packet is copied: its payload or what is missing of the
section, as far as there is space. -/
def copyLength (t : TableInfo) (payloadOffset : ℕ) : ℤ :=
  let sectionRemaining : ℤ := t.sectionLength + 4 - t.sectionWriteOffset
  let payloadSize : ℤ := 188 - payloadOffset
  min (min sectionRemaining payloadSize) (maxSectionSize - t.sectionWriteOffset)

/-- Copy from the packet, and parse the section if it is whole. -/
def append (t : TableInfo) (p : Packet) (payloadOffset : ℕ) : TableInfo :=
  -- seven packets fill `MAX_PMT_PACKET_BUFFER_SIZE`
  let packets := if t.packets.length < 7 then t.packets ++ [p] else t.packets
  if t.copyLength payloadOffset < 0 then { t with packets := packets, overrun := true }
  else
    let collected := t.collected ++ load p payloadOffset (t.copyLength payloadOffset).toNat
    if collected.length = t.sectionLength + 4 then
      { t with
        packets := packets
        nextContinuity := t.expected p
        calls := t.calls ++ [⟨t.sectionLength, collected⟩]
        collected := [] }
    else
      { t with
        packets := packets
        nextContinuity := (p.continuity + 1) % 16
        collected := collected }

/-- A packet without payload start: it counts if a section is being collected,
and breaks that section off if it is not the next one. -/
def next (t : TableInfo) (p : Packet) (payloadOffset : ℕ) : TableInfo :=
  if t.sectionWriteOffset = 0 then t
  else if p.continuity = t.expected p then t.append p payloadOffset
  else { t with collected := [] }

/-- What the loop does with a packet of a table's PID. -/
def feed (t : TableInfo) : Input → TableInfo
  | .start p payloadOffset => t.start p payloadOffset
  | .next p payloadOffset => t.next p payloadOffset

/-! ## One continuation packet

What it does depends on its counter, and on whether a section is being collected.
-/

/-- The packet is taken as the next one of the section being collected. -/
def Accepts (t : TableInfo) (p : Packet) : Prop :=
  t.collected ≠ [] ∧ p.continuity = t.expected p

instance (t : TableInfo) (p : Packet) : Decidable (t.Accepts p) :=
  inferInstanceAs (Decidable (_ ∧ _))

section Next

variable {t : TableInfo} {p : Packet} {o : ℕ}

theorem sectionWriteOffset_eq_zero : t.sectionWriteOffset = 0 ↔ t.collected = [] :=
  List.length_eq_zero_iff

theorem next_of_free (h : t.collected = []) : t.next p o = t :=
  if_pos (sectionWriteOffset_eq_zero.mpr h)

theorem next_of_accepts (h : t.Accepts p) : t.next p o = t.append p o := by
  rw [next, if_neg fun hfree => h.1 (sectionWriteOffset_eq_zero.mp hfree), if_pos h.2]

theorem next_of_not_accepts (h : ¬ t.Accepts p) : (t.next p o).collected = [] ∧
    (t.next p o).calls = t.calls ∧ (t.next p o).overrun = t.overrun := by
  by_cases hfree : t.collected = []
  · rw [next_of_free hfree]
    exact ⟨hfree, rfl, rfl⟩
  · rw [next, if_neg fun hlen => hfree (sectionWriteOffset_eq_zero.mp hlen),
      if_neg fun hc => h ⟨hfree, hc⟩]
    exact ⟨rfl, rfl, rfl⟩

theorem next_overrun (h : t.overrun = true) : (t.next p o).overrun = true := by
  by_cases hacc : t.Accepts p
  · rw [next_of_accepts hacc, append]
    dsimp only
    split_ifs <;> first | rfl | exact h
  · exact (next_of_not_accepts hacc).2.2.trans h

/-- What a packet that is taken can do: run over, complete the section, or add
to it. -/
theorem append_cases (t : TableInfo) (p : Packet) (o : ℕ) :
    (t.copyLength o < 0 ∧ (t.append p o).overrun = true ∧ (t.append p o).calls = t.calls) ∨
    (0 ≤ t.copyLength o ∧
      (t.append p o).overrun = t.overrun ∧
      (t.collected ++ load p o (t.copyLength o).toNat).length = t.sectionLength + 4 ∧
      (t.append p o).calls = t.calls ++
        [⟨t.sectionLength, t.collected ++ load p o (t.copyLength o).toNat⟩] ∧
      (t.append p o).collected = []) ∨
    (0 ≤ t.copyLength o ∧
      (t.append p o).overrun = t.overrun ∧
      (t.collected ++ load p o (t.copyLength o).toNat).length ≠ t.sectionLength + 4 ∧
      (t.append p o).calls = t.calls ∧
      (t.append p o).collected = t.collected ++ load p o (t.copyLength o).toNat ∧
      (t.append p o).sectionLength = t.sectionLength ∧
      (t.append p o).nextContinuity = (p.continuity + 1) % 16) := by
  by_cases hneg : t.copyLength o < 0
  · left
    rw [append, if_pos hneg]
    exact ⟨hneg, rfl, rfl⟩
  · by_cases hwhole :
      (t.collected ++ load p o (t.copyLength o).toNat).length = t.sectionLength + 4
    · right; left
      rw [append, if_neg hneg, if_pos hwhole]
      exact ⟨Int.not_lt.mp hneg, rfl, hwhole, rfl, rfl⟩
    · right; right
      rw [append, if_neg hneg, if_neg hwhole]
      exact ⟨Int.not_lt.mp hneg, rfl, hwhole, rfl, rfl, rfl, rfl⟩

theorem next_calls_le : t.calls.length ≤ (t.next p o).calls.length := by
  by_cases hacc : t.Accepts p
  · rw [next_of_accepts hacc]
    rcases append_cases t p o with ⟨-, -, h⟩ | ⟨-, -, -, h, -⟩ | ⟨-, -, -, h, -⟩ <;> simp [h]
  · rw [(next_of_not_accepts hacc).2.1]

/-- The next packet in order is accepted. -/
theorem accepts_of_eq (hne : t.collected ≠ []) (h : p.continuity = t.nextContinuity) :
    t.Accepts p := by
  refine ⟨hne, ?_⟩
  rw [expected, if_neg (by omega)]
  exact h

end Next

end TableInfo

/-- The fields of `RBIStreamProcessor` the tables are read with, and the local
`payloadOffset` of `processPacketsAligned`. -/
structure Tables where
  havePAT : Bool
  versionPAT : ℕ
  program : ℤ
  pmtPid : ℤ
  havePMT : Bool
  versionPMT : ℕ
  pmt : TableInfo
  scte35 : TableInfo
  payloadOffset : ℕ

/-- What the loop reads of the processor and the rest of the code sets. -/
structure Mode where
  triggerEnable : Bool
  triggerPids : ℕ → Bool
  videoPid : ℤ
  audioPid : ℤ
  frameDetectEnable : Bool
  /-- `m_filterAudio || m_mapStartArmed || m_transitioningToAd` -/
  filteringAudio : Bool
  determineNetAC3FrameSizeDuration : Bool

/-- What `processPacketsAligned` goes through. -/
inductive TsEvent : Type where
  /-- a call begins; the packets are those the scan for splice points looks at,
  which are none when it is not due -/
  | call (videoPid : ℤ) (prescanned : List Packet)
  /-- a packet of the main loop -/
  | packet (m : Mode) (p : Packet)

namespace Tables

/-- A processor before its first packet. -/
def initial : Tables where
  havePAT := false
  versionPAT := 0
  program := -1
  pmtPid := -1
  havePMT := false
  versionPMT := 0
  pmt := TableInfo.empty
  scte35 := TableInfo.empty
  payloadOffset := 0

/-! ## Offsets left by other packets

`payloadOffset` is a local of the loop over all PIDs. A packet that does not set it is read at the
offset of one before it.
-/

/-- Where the data of a PES packet begins. -/
def pesData (p : Packet) : ℕ := p.payload + 9 + (p (p.payload + 8)).toNat

/-- The offset after a packet of the scan for splice points. -/
def prescanOffset (videoPid : ℤ) (payloadOffset : ℕ) (p : Packet) : ℕ :=
  if (p.pid : ℤ) = videoPid then
    let streamid := (p (p.payload + 3)).toNat
    if p.hasPayload && p.pesStart && decide (0xE0 ≤ streamid ∧ streamid ≤ 0xEF) then pesData p
    else p.payload
  else payloadOffset

/-- The offset after a video packet of the main loop. -/
def videoOffset (m : Mode) (p : Packet) : ℕ :=
  if m.frameDetectEnable then if p.hasPayload && p.pesStart then pesData p else p.payload
  else 4

/-- The offset after an audio packet of the main loop. -/
def audioOffset (m : Mode) (payloadOffset : ℕ) (p : Packet) : ℕ :=
  if m.determineNetAC3FrameSizeDuration then
    if p.hasPayload && p.pesStart then pesData p else p.payload
  else payloadOffset

/-! ## One packet of the loop -/

/-- A packet of PID 0. -/
def processPAT (s : Tables) (p : Packet) : Tables :=
  if p.payloadStart && p.hasPayload then
    let off := p.payload
    let s := { s with payloadOffset := off }
    if p (off + 1) = 0x00 then
      let current := (p (off + 6)).toNat &&& 0x01
      let version := (p (off + 6)).toNat >>> 1 &&& 0x1F
      if !s.havePAT || (current != 0 && version != s.versionPAT) then
        if p.sectionLength off = 13 then
          let program := (p (off + 9)).toNat <<< 8 + (p (off + 10)).toNat
          let pmtPid := ((p (off + 11)).toNat &&& 0x1F) <<< 8 + (p (off + 12)).toNat
          if program ≠ 0 ∧ pmtPid ≠ 0 then
            { s with
              versionPAT := version, program := program, pmtPid := pmtPid
              havePMT := false, havePAT := true }
          else { s with versionPAT := version, program := -1, pmtPid := -1 }
        else s
      else s
    else s
  else s

/-- A payload-start packet of the PMT's PID is one whose section is taken: the
table and the program are right, and the version is new. -/
def takesPMT (s : Tables) (p : Packet) : Bool :=
  let off := p.payload
  let program := (p (off + 4)).toNat <<< 8 + (p (off + 5)).toNat
  let current := (p (off + 6)).toNat &&& 0x01
  let version := (p (off + 6)).toNat >>> 1 &&& 0x1F
  p (off + 1) == 0x02 && decide ((program : ℤ) = s.program) &&
    (!s.havePMT || (current != 0 && version != s.versionPMT))

/-- A packet of the PMT's PID. -/
def processPMT (s : Tables) (p : Packet) : Tables :=
  if p.hasPayload then
    let off := p.payload
    let s := { s with payloadOffset := off }
    if p.payloadStart then
      if s.takesPMT p then
        { s with
          versionPMT := (p (off + 6)).toNat >>> 1 &&& 0x1F
          pmt := s.pmt.feed (.start p off)
          havePMT := decide (p.sectionLength off ≤ TableInfo.maxShortLength) }
      else s
    else
      let pmt := s.pmt.feed (.next p off)
      { s with pmt := pmt, havePMT := s.havePMT || pmt.calls.length != s.pmt.calls.length }
  else s

/-- A packet of a PID that carries triggers. -/
def processTriggers (s : Tables) (p : Packet) : Tables :=
  if p.payloadStart then
    if p.hasPayload then
      let off := p.payload
      let s := { s with payloadOffset := off }
      if p (off + 1) = 0xFC then { s with scte35 := s.scte35.feed (.start p off) } else s
    else s
  -- the offset is the one that is there
  else { s with scte35 := s.scte35.feed (.next p s.payloadOffset) }

/-- One packet of the main loop, or the beginning of a call. -/
def step (s : Tables) : TsEvent → Tables
  | .call videoPid prescanned =>
    { s with payloadOffset := prescanned.foldl (prescanOffset videoPid) 0 }
  | .packet m p =>
    let pid : ℤ := p.pid
    if pid = 0 then s.processPAT p
    else if pid = s.pmtPid then s.processPMT p
    else if m.triggerEnable && m.triggerPids p.pid then s.processTriggers p
    else if pid = m.videoPid then { s with payloadOffset := videoOffset m p }
    else if m.filteringAudio && decide (pid = m.audioPid) then
      { s with payloadOffset := audioOffset m s.payloadOffset p }
    else s

/-! ## What a table gets

A packet of the loop is an input of at most one aggregator, and the others stay as they are.
-/

/-- The aggregator of a table. -/
def table (s : Tables) : Table → TableInfo
  | .pmt => s.pmt
  | .scte35 => s.scte35

/-- What a packet is to a table: nothing, or an input of its aggregator. -/
def input (s : Tables) (T : Table) : TsEvent → Option TableInfo.Input
  | .call _ _ => none
  | .packet m p =>
    let pid : ℤ := p.pid
    match T with
    | .pmt =>
      if pid ≠ 0 ∧ pid = s.pmtPid ∧ p.hasPayload = true then
        if p.payloadStart then if s.takesPMT p then some (.start p p.payload) else none
        else some (.next p p.payload)
      else none
    | .scte35 =>
      if pid ≠ 0 ∧ pid ≠ s.pmtPid ∧ (m.triggerEnable && m.triggerPids p.pid) = true then
        if p.payloadStart then
          if p.hasPayload && p (p.payload + 1) == 0xFC then some (.start p p.payload) else none
        else some (.next p s.payloadOffset)
      else none

@[simp] theorem processPAT_table (s : Tables) (p : Packet) (T : Table) :
    (s.processPAT p).table T = s.table T := by
  cases T <;> simp only [processPAT, table] <;> split_ifs <;> rfl

@[simp] theorem processPMT_scte35 (s : Tables) (p : Packet) :
    (s.processPMT p).scte35 = s.scte35 := by
  simp only [processPMT]
  split_ifs <;> rfl

theorem processPMT_pmt (s : Tables) (p : Packet) :
    (s.processPMT p).pmt =
      if p.hasPayload then
        if p.payloadStart then
          if s.takesPMT p then s.pmt.feed (.start p p.payload) else s.pmt
        else s.pmt.feed (.next p p.payload)
      else s.pmt := by
  have htakes : { s with payloadOffset := p.payload }.takesPMT p = s.takesPMT p := rfl
  simp only [processPMT, htakes]
  split_ifs <;> rfl

@[simp] theorem processTriggers_pmt (s : Tables) (p : Packet) :
    (s.processTriggers p).pmt = s.pmt := by
  simp only [processTriggers]
  split_ifs <;> rfl

theorem processTriggers_scte35 (s : Tables) (p : Packet) :
    (s.processTriggers p).scte35 =
      if p.payloadStart then
        if p.hasPayload && p (p.payload + 1) == 0xFC then s.scte35.feed (.start p p.payload)
        else s.scte35
      else s.scte35.feed (.next p s.payloadOffset) := by
  simp only [processTriggers, Bool.and_eq_true, beq_iff_eq]
  split_ifs <;> simp_all

/-- **A packet reaches an aggregator as its input and in no other way.** -/
theorem step_table (s : Tables) (T : Table) (e : TsEvent) :
    (s.step e).table T = (s.input T e).elim (s.table T) (s.table T).feed := by
  cases e with
  | call videoPid prescanned => cases T <;> rfl
  | packet m p =>
    by_cases hpat : (p.pid : ℤ) = 0
    · cases T <;> simp [step, input, hpat]
    · by_cases hpmt : (p.pid : ℤ) = s.pmtPid
      · cases T with
        | pmt =>
          simp only [step, input, table, if_neg hpat, if_pos hpmt, processPMT_pmt]
          split_ifs <;> simp_all
        | scte35 =>
          simp only [step, input, table, if_neg hpat, if_pos hpmt, processPMT_scte35]
          split_ifs <;> simp_all
      · cases T with
        | pmt =>
          simp only [step, input, table, if_neg hpat, if_neg hpmt]
          split_ifs <;> simp_all
        | scte35 =>
          simp only [step, input, table, if_neg hpat, if_neg hpmt]
          split_ifs <;> simp_all [processTriggers_scte35]

/-- The state after a run. -/
def run (s : Tables) (events : List TsEvent) : Tables := events.foldl step s

/-- The inputs of a table's aggregator along a run. -/
def inputs (T : Table) : Tables → List TsEvent → List TableInfo.Input
  | _, [] => []
  | s, e :: events => (s.input T e).toList ++ inputs T (s.step e) events

section Input

variable {s : Tables} {T : Table} {m : Mode} {p q : Packet} {off : ℕ}

/-- A table gets the packet itself, and a payload-start packet at its payload. -/
theorem input_start (h : s.input T (.packet m p) = some (.start q off)) :
    q = p ∧ off = p.payload ∧ p.hasPayload = true ∧ p.payloadStart = true := by
  cases T with
  | pmt =>
    simp only [input] at h
    split_ifs at h with hroute hstart
    · cases h
      exact ⟨rfl, rfl, hroute.2.2, hstart⟩
    · cases h
  | scte35 =>
    simp only [input] at h
    split_ifs at h with _ hstart htable
    · cases h
      exact ⟨rfl, rfl, (Bool.and_eq_true_iff.mp htable).1, hstart⟩
    · cases h

theorem input_next (h : s.input T (.packet m p) = some (.next q off)) :
    q = p ∧ p.payloadStart = false := by
  cases T with
  | pmt | scte35 =>
    simp only [input] at h
    split_ifs at h with _ hstart
    · cases h
    · cases h
      exact ⟨rfl, Bool.not_eq_true _ ▸ hstart⟩

/-- A PMT is cut at its own packets' payload. -/
theorem input_pmt_offset (h : s.input .pmt (.packet m p) = some (.next q off)) :
    off = q.payload := by
  simp only [input] at h
  split_ifs at h
  · cases h
  · cases h
    rfl

end Input

theorem inputs_pmt_offset {events : List TsEvent} : ∀ {s : Tables} {p : Packet} {off : ℕ},
    .next p off ∈ s.inputs .pmt events → off = p.payload := by
  induction events with
  | nil =>
    intro s p off h
    cases h
  | cons e events ih =>
    intro s p off h
    rcases List.mem_append.mp h with hnow | hlater
    · cases e with
      | call videoPid prescanned => cases hnow
      | packet m q => exact input_pmt_offset (Option.mem_toList.mp hnow)
    · exact ih hlater

end Tables

end MediaFramework
