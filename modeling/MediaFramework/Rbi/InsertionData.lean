import Mathlib.Logic.Function.Basic
import MediaFramework.Lib.Run
import MediaFramework.Rbi.AdTrim
import MediaFramework.Rbi.InsertDefinitions

/-!
# The packets of a spot (`RBIStreamProcessor::getInsertionData`)

While a replace spot is on, `getInsertionData` fills the caller's buffer. Each
packet it puts there comes from one of four places, tried in this order: the audio
packet that is being replicated to further PIDs; the audio that the previous ad of
a back-to-back pair has left; the rest of the PMT; and the ad itself, whose PAT and
PMT are replaced by the programme's, whose PIDs are mapped to the programme's, and
whose null packets make room for what the previous ad has left.

When an ad followed by another one is cut off, `saveAudio` reads on and puts the
audio that is still to be played into a buffer of 300 packets. While that buffer
holds something, the audio of the next ad goes into it as well.

`insertPacket` is one pass through the loop of `getInsertionData`, and `step` is the
component: a call, a pass through its loop, and what happens between two calls.
-/

namespace MediaFramework

namespace Packet

variable (p : Packet)

/-- `packet[1]= ((packet[1] & 0xE0) | ((pid>>8) & 0x1F)); packet[2]= (pid & 0xFF);` -/
def withPid (pid : ℕ) : Packet :=
  store p 1 [UInt8.ofNat ((p 1).toNat &&& 0xE0 ||| pid >>> 8 &&& 0x1F), UInt8.ofNat (pid &&& 0xFF)]

/-- `packet[3]= ((byte3 & 0xF0)|(counter & 0x0F));` -/
def withContinuity (counter : UInt8) : Packet :=
  store p 3 [UInt8.ofNat ((p 3).toNat &&& 0xF0 ||| counter.toNat &&& 0x0F)]

end Packet

/-- The PID of null packets. -/
def nullPid : ℕ := 0x1FFF

/-- The programme's PAT and PMT, as `startInsertion` copies them: both tables are
collected from packets of their PID that have a payload. -/
structure ReplacementTables where
  /-- the PID the PMT was collected from -/
  pmtPid : ℕ
  replacementPAT : Packet
  replacementPMT : ℕ → Packet
  /-- in packets, as all offsets into the PMT are here -/
  replacementPMTLength : ℕ
  pmtPid_lt : pmtPid < 0x2000
  pat_pid : replacementPAT.pid = 0
  pat_payload : replacementPAT.hasPayload = true
  pmt_pid : ∀ i < replacementPMTLength, (replacementPMT i).pid = pmtPid
  pmt_payload : ∀ i < replacementPMTLength, (replacementPMT i).hasPayload = true
  pmt_ne_empty : 0 < replacementPMTLength

/-- `RBIPidMap`, apart from the tables. -/
structure RbiPidMap where
  /-- the ad's -/
  pmtPid : ℕ
  pidMap : ℕ → ℕ
  needPayloadStart : ℕ → Bool
  /-- the values are PIDs of the programme -/
  pidMap_lt : ∀ pid, pidMap pid < 0x2000

/-- A packet as it is put into the caller's buffer. -/
structure Emission where
  packet : Packet
  /-- the ad's PID whose `m_needPayloadStart` has been cleared with this packet, which
  forces a discontinuity; a replica has what its original has -/
  forced : Option ℕ
  replica : Bool

/-- Replicating an audio stream to further PIDs. -/
structure Replication where
  audioReplicationEnabled : Bool
  replicatingAudio : Bool
  /-- of the ad, or -1 -/
  replicateAudioSrcPid : ℤ
  replicateAudioTargetPids : List ℕ
  replicateAudioIndex : ℕ
  /-- `m_replicateAudioPacket`, as it has been put into the buffer -/
  replicateAudioPacket : Emission

/-- A pointer into one of the buffers for audio: the buffer, and the packet in it. -/
structure B2bPointer where
  block : ℕ
  index : ℕ
  deriving DecidableEq

/-- The audio the previous ad has left. -/
structure B2bAudio where
  /-- the packets in the buffers that have been allocated -/
  heap : ℕ → ℕ → Packet
  /-- the number of buffers allocated -/
  blocks : ℕ
  /-- how often a buffer has been freed -/
  frees : ℕ → ℕ
  prevAdAudioData : Option B2bPointer
  /-- the beginning of the buffer -/
  prevAdAudioDataCopy : Option ℕ
  savedAudioPacketsCnt : ℕ
  backedAdAudioPacketsCnt : ℕ

/-- What has gone through the buffer since it was filled last. Nothing in the code
keeps this. -/
structure B2bLedger where
  saved : List Packet
  diverted : List Packet
  emitted : List Packet
  /-- what has been left in buffers that were given up -/
  lost : List Packet
  /-- one behind the last packet of the buffer written to -/
  reach : ℕ

/-- What `getInsertionData` reads and does not write. -/
structure Surroundings where
  /-- `m_insertSrc->startPTS()` -/
  startPTS : ℤ
  /-- `m_insertSrc->startPCR()` -/
  startPCR : ℤ
  firstAdPacketAfterTransitionTTSValue : ℤ
  currentPCR : ℤ
  currentPTS : ℤ
  mapSpliceOutPTS : ℤ
  totalRetryCount : ℕ
  avail : ℤ
  bufferSize : ℤ
  /-- since the insertion started -/
  elapsed : ℤ
  /-- `m_insertSrc->getAdVideoExitFrameInfo()` -/
  exitFrames : List UInt32
  insertBitRate : ℕ
  /-- how many frames the ad is behind the clock, with so many packets to go -/
  timeDeltaFrames : ℕ → ℤ
  /-- what lies in the caller's buffer -/
  scratch : Packet

/-- The fields of `RBIStreamProcessor` that `getInsertionData` uses, and its local
variables. -/
structure AdInsertion where
  clock : AdClock
  trim : AdTrim
  /-- `m_pmtPid`, which each new version of the programme's PAT sets again, as its 32
  bits: for the -1 of an unfit PAT the counter lies outside of the array -/
  pmtPid : ℕ
  tables : ReplacementTables
  map : RbiPidMap
  replacementPMTReadOffset : ℕ
  psiInsertionIncomplete : Bool
  continuityCounters : ℕ → UInt8
  replication : Replication
  b2b : B2bAudio
  ledger : B2bLedger
  videoPid : ℤ
  audioPid : ℤ
  pcrPid : ℤ
  ttsSize : ℕ
  ttsInsert : UInt32
  lastMappedPCRTTSValue : UInt32
  skipNullPktsInAd : Bool
  /-- `m_insertSrc && m_mapping` -/
  mapping : Bool
  mapEndPending : Bool
  backToBack : Bool
  backToBackPrev : Bool
  mapSpliceInPTS : ℤ
  /-- the calls of `insertionStatusUpdate` -/
  reports : List DetailCode
  /-- the packets put into the caller's buffers in this spot -/
  inserted : List Emission
  /-- stuffing has overwritten what lies in front of a packet in the caller's buffer -/
  damaged : Bool
  around : Surroundings
  /-- what the ad has to read in this call; then it comes to its end -/
  reads : List Packet
  /-- how many packets there is still room for in this call -/
  room : ℕ
  backedupAudFramePktCnt : ℤ

namespace AdInsertion

variable (s : AdInsertion)

/-- `m_packetSize` -/
def packetSize : ℕ := 188 + s.ttsSize

/-- What `reTimestamp` reads. -/
def adPacket (p : Packet) : AdPacket where
  packet := p
  startPTS := s.around.startPTS
  startPCR := s.around.startPCR
  ttsInsert := s.ttsInsert
  lastMappedPCRTTSValue := s.lastMappedPCRTTSValue
  firstAdPacketAfterTransitionTTSValue := s.around.firstAdPacketAfterTransitionTTSValue
  currentPCR := s.around.currentPCR
  b2bSavedAudioPacketsCnt := s.b2b.savedAudioPacketsCnt
  pcrPid := s.pcrPid
  videoPid := s.videoPid
  audioPid := s.audioPid
  adVideoFrameCount := s.trim.adVideoFrameCount
  netReplaceableVideoFramesCnt := s.trim.netReplaceableVideoFramesCnt
  timeDeltaFrames := s.around.timeDeltaFrames s.room

/-- `ttsInc`, the time a packet takes, where there are time stamps in front of the
packets. -/
def ttsInc : UInt32 :=
  if s.ttsSize = 0 then 0
  else if s.clock.adVideoPktsDelayed || s.clock.adAudioPktsDelayed ||
      s.clock.adVideoPktsDelayedPCRBased then UInt32.ofNat (8 * 192 * 27 / 40)
  else if s.clock.adVideoPktsTooFast then
    UInt32.ofNat (8 * 192 * 2 * 27000000 / s.around.insertBitRate)
  else UInt32.ofNat (8 * 192 * 27000000 / s.around.insertBitRate)

/-- The continuity counter of a PID, which is stepped first if `advance`, and the time
stamps. -/
def stamp (mapPid : ℕ) (advance : Bool) (p : Packet) : AdInsertion × Packet :=
  let counter :=
    if advance then s.continuityCounters mapPid + 1 else s.continuityCounters mapPid
  let (clock, p) := s.clock.reTimestamp (s.adPacket (p.withContinuity counter))
  ({ s with
    continuityCounters := Function.update s.continuityCounters mapPid counter
    clock := clock }, p)

/-- The packet is to be replicated. -/
def replicate (em : Emission) : AdInsertion :=
  { s with
    replication :=
      { s.replication with
        replicatingAudio := true
        replicateAudioIndex := 0
        replicateAudioPacket := em } }

/-! ## Replicas and the rest of the PMT -/

/-- A copy of the packet being replicated, for the next of the PIDs. It takes no
time. -/
def insertReplica : AdInsertion × Emission :=
  let r := s.replication
  let mapPid := r.replicateAudioTargetPids.getD r.replicateAudioIndex 0
  let index := r.replicateAudioIndex + 1
  ({ s with
    ttsInsert := s.ttsInsert - s.ttsInc
    replication :=
      { r with
        replicateAudioIndex := index
        replicatingAudio := decide (index < r.replicateAudioTargetPids.length) } },
    { packet := r.replicateAudioPacket.packet.withPid mapPid
      forced := r.replicateAudioPacket.forced
      replica := true })

/-- The next packet of a PMT that takes several. -/
def insertPmtRest : AdInsertion × Emission :=
  let packet := s.tables.replacementPMT s.replacementPMTReadOffset
  let offset := s.replacementPMTReadOffset + 1
  let s :=
    { s with
      replacementPMTReadOffset := offset
      psiInsertionIncomplete := decide (offset < s.tables.replacementPMTLength) }
  let (s, packet) := s.stamp s.pmtPid true packet
  (s, { packet := packet, forced := none, replica := false })

end AdInsertion

/-! ## The buffer for audio -/

namespace B2bAudio

variable (b : B2bAudio)

/-- The packet a pointer points to. -/
def packetAt (ptr : B2bPointer) : Packet := b.heap ptr.block ptr.index

/-- `m_b2bPrevAdAudioData= m_b2bPrevAdAudioDataCopy` -/
def rewind : B2bAudio :=
  { b with prevAdAudioData := b.prevAdAudioDataCopy.map fun block => ⟨block, 0⟩ }

/-- `m_b2bPrevAdAudioData += 188` -/
def advance : B2bAudio :=
  { b with prevAdAudioData := b.prevAdAudioData.map fun ptr => ⟨ptr.block, ptr.index + 1⟩ }

/-- The buffer is freed once both counters are 0. -/
def release : B2bAudio :=
  if b.savedAudioPacketsCnt = 0 ∧ b.backedAdAudioPacketsCnt = 0 then
    match b.prevAdAudioDataCopy with
    | some block => { b with frees := Function.update b.frees block (b.frees block + 1) }
    | none => b
  else b

/-- `m_b2bPrevAdAudioData - m_b2bPrevAdAudioDataCopy`, in packets -/
def readIndex : ℕ := (b.prevAdAudioData.map B2bPointer.index).getD 0

/-- The pointers and the counters after a packet has been taken for output. -/
def drain : B2bAudio :=
  let b :=
    if 0 < b.savedAudioPacketsCnt then
      let b := { b with savedAudioPacketsCnt := b.savedAudioPacketsCnt - 1 }
      if b.savedAudioPacketsCnt = 0 then b.rewind else b.advance
    else
      let b := b.advance
      if b.readIndex = b.backedAdAudioPacketsCnt then { b with backedAdAudioPacketsCnt := 0 }
      else b
  b.release

/-- The pointers and the counters after a saved packet has taken the place of a null
packet. -/
def fillNull : B2bAudio :=
  let b := { b with savedAudioPacketsCnt := b.savedAudioPacketsCnt - 1 }
  let b :=
    if b.savedAudioPacketsCnt = 0 ∧ 0 < b.backedAdAudioPacketsCnt then b.rewind
    else if 0 < b.savedAudioPacketsCnt then b.advance
    else b
  b.release

/-- An audio packet of the new ad goes into the buffer. -/
def divert (p : Packet) : B2bAudio :=
  let slot := b.backedAdAudioPacketsCnt
  { b with
    backedAdAudioPacketsCnt := slot + 1
    heap :=
      match b.prevAdAudioDataCopy with
      | some block => Function.update b.heap block (Function.update (b.heap block) slot p)
      | none => b.heap }

/-- The buffer holds something. -/
def holding : Bool :=
  decide (0 < b.savedAudioPacketsCnt) || decide (0 < b.backedAdAudioPacketsCnt)

/-- What is still to be taken out of the buffer: the saved packets from the reading
pointer on and then all of the diverted ones, or the rest of these. -/
def unread : List Packet :=
  match b.prevAdAudioData with
  | none => []
  | some ptr =>
    if 0 < b.savedAudioPacketsCnt then
      load (b.heap ptr.block) ptr.index b.savedAudioPacketsCnt ++
        load (b.heap ptr.block) 0 b.backedAdAudioPacketsCnt
    else load (b.heap ptr.block) ptr.index (b.backedAdAudioPacketsCnt - ptr.index)

end B2bAudio

namespace AdInsertion

variable (s : AdInsertion)

/-- The next packet out of the buffer, in a pass of its own. -/
def insertStored (ptr : B2bPointer) : AdInsertion × Emission :=
  let packet := s.b2b.packetAt ptr
  let mapPid := packet.pid
  let s :=
    { s with
      b2b := s.b2b.drain
      ledger := { s.ledger with emitted := s.ledger.emitted ++ [packet] }
      backedupAudFramePktCnt := s.backedupAudFramePktCnt - 1 }
  let (s, packet) := s.stamp mapPid packet.hasPayload packet
  let em : Emission := { packet := packet, forced := none, replica := false }
  if s.replication.audioReplicationEnabled ∧ s.replication.replicateAudioSrcPid ≠ -1 then
    (s.replicate em, em)
  else (s, em)

/-- The null packet that was read is to be replaced by this packet of the buffer. -/
def nullFiller (insertPid : ℕ) : Option B2bPointer :=
  if insertPid = nullPid ∧ s.backToBackPrev ∧ 0 < s.b2b.savedAudioPacketsCnt then
    match s.b2b.prevAdAudioData with
    | some ptr => if s.b2b.packetAt ptr 0 = 0x47 then some ptr else none
    | none => none
  else none

/-! ## The ad's own packets -/

/-- A packet of the ad on its way to the output. -/
structure Mapped where
  s : AdInsertion
  packet : Packet
  mapPid : ℕ
  /-- see `Emission.forced` -/
  forced : Option ℕ

/-- Trimming and diverting a packet of the ad that has been mapped. -/
def trimMapped (packet : Packet) (mapPid : ℕ) : Mapped :=
  if (mapPid : ℤ) = s.videoPid then
    let (trim, clock) := s.trim.trimVideo s.clock packet s.around.exitFrames
    let mapPid :=
      if trim.maxAdVideoFrameCountReached ∧ ¬ trim.lastAdVideoFrameDetected then nullPid
      else mapPid
    ⟨{ s with trim := trim, clock := clock }, packet, mapPid, none⟩
  else if (mapPid : ℤ) = s.audioPid then
    if s.trim.maxAdVideoFrameCountReached then
      if s.trim.maxAdAudioFrameCountReached then ⟨s, packet, nullPid, none⟩
      else
        let (trim, packet) :=
          s.trim.trimAudio packet s.packetSize s.clock.lastAdVideoFramePTS
        let overrun := trim.maxAdAudioFrameCountReached && decide (188 < trim.adAC3FrameInfo.byteCnt)
        ⟨{ s with trim := trim, damaged := s.damaged || overrun }, packet, mapPid, none⟩
    else if s.backToBackPrev ∧ s.b2b.holding then
      let packet := packet.withPid mapPid
      ⟨{ s with
        b2b := s.b2b.divert packet
        ledger :=
          { s.ledger with
            diverted := s.ledger.diverted ++ [packet]
            reach := max s.ledger.reach (s.b2b.backedAdAudioPacketsCnt + 1) }
        backedupAudFramePktCnt := s.trim.adAC3FrameInfo.size.tdiv 184 }, packet, nullPid, none⟩
    else ⟨s, packet, mapPid, none⟩
  else ⟨s, packet, mapPid, none⟩

/-- A stream begins with a packet in which a payload begins; the packets before are
dropped. -/
def Mapped.awaitPayloadStart (m : Mapped) (insertPid : ℕ) : Mapped :=
  if m.s.map.needPayloadStart insertPid then
    if m.packet.payloadStart then
      { m with
        s :=
          { m.s with
            map :=
              { m.s.map with
                needPayloadStart := Function.update m.s.map.needPayloadStart insertPid false }
            -- force a discontinuity
            continuityCounters :=
              Function.update m.s.continuityCounters m.mapPid
                (m.s.continuityCounters m.mapPid + 1) }
        forced := some insertPid }
    else { m with mapPid := nullPid }
  else m

/-- A packet of one of the ad's streams. -/
def mapAd (packet : Packet) (insertPid : ℕ) : Mapped :=
  let mapPid := s.map.pidMap insertPid
  let m : Mapped :=
    if mapPid = 0 then ⟨s, packet, nullPid, none⟩
    else (s.trimMapped packet mapPid).awaitPayloadStart insertPid
  { m with packet := m.packet.withPid m.mapPid }

/-- What becomes of a packet that was read, or of the saved packet in the place of
one (`fromPrev`). -/
def mapPacket (packet : Packet) (insertPid : ℕ) (fromPrev : Bool) : Mapped :=
  if insertPid = 0 then ⟨s, s.tables.replacementPAT, 0, none⟩
  else if insertPid = s.map.pmtPid then
    ⟨{ s with
      replacementPMTReadOffset := 1
      psiInsertionIncomplete := decide (1 < s.tables.replacementPMTLength) },
      s.tables.replacementPMT 0, s.pmtPid, none⟩
  else if fromPrev then
    ⟨{ s with ledger := { s.ledger with emitted := s.ledger.emitted ++ [packet] } },
      packet, insertPid, none⟩
  else if insertPid = nullPid then ⟨s, packet, insertPid, none⟩
  else s.mapAd packet insertPid

/-- The packet goes to the output. -/
def Mapped.send (m : Mapped) (insertPid : ℕ) (replicatePrev : Bool) : AdInsertion × Emission :=
  let (s, packet) :=
    if m.mapPid = nullPid then (m.s, m.packet)
    else m.s.stamp m.mapPid m.packet.hasPayload m.packet
  let em : Emission :=
    { packet := packet
      forced := if m.mapPid = nullPid then none else m.forced
      replica := false }
  if !s.trim.maxAdAudioFrameCountReached && s.replication.audioReplicationEnabled &&
      decide ((insertPid : ℤ) = s.replication.replicateAudioSrcPid) &&
      decide (m.mapPid ≠ nullPid) || replicatePrev then
    (s.replicate em, em)
  else (s, em)

/-- A packet has been read; a null packet may be skipped. -/
def insertRead (packet : Packet) : AdInsertion × Option Emission :=
  match s.nullFiller packet.pid with
  | some ptr =>
    let saved := s.b2b.packetAt ptr
    let s := { s with b2b := s.b2b.fillNull }
    if saved.pid = nullPid ∧ s.skipNullPktsInAd then (s, none)
    else
      let replicatePrev :=
        s.replication.audioReplicationEnabled && decide (s.replication.replicateAudioSrcPid ≠ -1)
      let (s, em) := (s.mapPacket saved saved.pid true).send saved.pid replicatePrev
      (s, some em)
  | none =>
    if packet.pid = nullPid ∧ s.skipNullPktsInAd then (s, none)
    else
      let (s, em) := (s.mapPacket packet packet.pid false).send packet.pid false
      (s, some em)

/-- `MAX_TOTAL_READ_RETRY_COUNT` -/
def maxTotalReadRetryCount : ℕ := 500

/-- The ad has come to its end: a null packet. -/
def insertEnd : AdInsertion × Emission :=
  let media := mask90k (s.mapSpliceInPTS - s.around.mapSpliceOutPTS) / 90
  let s :=
    if s.mapEndPending then s
    else if s.around.totalRetryCount ≥ maxTotalReadRetryCount then
      { s with
        reports := s.reports ++ [.abnormalTermination]
        mapSpliceInPTS := s.around.currentPTS }
    else if s.around.elapsed < media - 500 ∧ ¬ s.trim.maxAdAudioFrameCountReached ∧
        ¬ s.trim.maxAdVideoFrameCountReached then
      { s with
        reports := s.reports ++ [.assetDurationInadequate]
        mapSpliceInPTS := s.around.currentPTS }
    else s
  ({ s with mapEndPending := true },
    { packet := store (s.around.scratch.withPid nullPid) 0 [0x47], forced := none, replica := false })

/-! ## The loop -/

/-- The next packet is the PMT's or the ad's. -/
def insertOwn : AdInsertion × Option Emission :=
  if s.psiInsertionIncomplete then
    let (s, em) := s.insertPmtRest
    (s, some em)
  else
    match s.reads with
    | packet :: reads => { s with reads := reads }.insertRead packet
    | [] =>
      let (s, em) := s.insertEnd
      (s, some em)

/-- The buffer's next packet is due. -/
def storedDue : Option B2bPointer :=
  if 0 < s.backedupAudFramePktCnt ∧ s.backToBackPrev ∧ s.b2b.holding then s.b2b.prevAdAudioData
  else none

/-- Where the next packet comes from. -/
def insertOne : AdInsertion × Option Emission :=
  if s.replication.audioReplicationEnabled ∧ s.replication.replicatingAudio then
    let (s, em) := s.insertReplica
    (s, some em)
  else
    match s.storedDue with
    | some ptr =>
      let (s, em) := s.insertStored ptr
      (s, some em)
    | none => s.insertOwn

/-- `PTS_IN_RANGE` -/
def ptsInRange (p s e : ℤ) : Prop := s < e ∧ s ≤ p ∧ p < e ∨ e < s ∧ (s ≤ p ∨ p < e)

instance (p s e : ℤ) : Decidable (ptsInRange p s e) := inferInstanceAs (Decidable (_ ∨ _))

/-- The spot is over and the ad is not. -/
def checkDuration : AdInsertion :=
  let start := mask90k (s.around.mapSpliceOutPTS - 500 * 90)
  if ¬ ptsInRange s.around.currentPTS start s.mapSpliceInPTS ∧
      s.around.totalRetryCount < maxTotalReadRetryCount ∧ ¬ s.backToBackPrev ∧
      s.around.avail > s.around.bufferSize then
    { s with reports := s.reports ++ [.assetDurationExceeded], mapEndPending := true }
  else s

/-- The packet stays in the caller's buffer. The tag of a PCR is taken off where there
are time stamps in front of the packets. -/
def put (ttsInc : UInt32) (em : Emission) : AdInsertion :=
  let tagged := decide (s.ttsSize ≠ 0) && em.packet 0 == 0x48
  { s with
    lastMappedPCRTTSValue := if tagged then s.ttsInsert else s.lastMappedPCRTTSValue
    ttsInsert := s.ttsInsert + ttsInc
    inserted :=
      s.inserted ++ [if tagged then { em with packet := store em.packet 0 [0x47] } else em]
    room := s.room - 1 }

/-- The end of the spot leaves the loop. -/
def checkEnd : AdInsertion := if s.mapEndPending then { s with room := 0 } else s

/-- One pass through the loop. -/
def insertPacket : AdInsertion :=
  let ttsInc := s.ttsInc
  match s.insertOne with
  | (s, some em) => (s.checkDuration.put ttsInc em).checkEnd
  | (s, none) => s.checkDuration.checkEnd

/-! ## A call -/

/-- One packet of the ad that is being cut off: its audio goes into the buffer. (With more than 188
bytes to cut, the code writes in front of the packet; such damage is not told here.) -/
def savePacket (block : ℕ) (packet : Packet) : AdInsertion :=
  let pid := s.map.pidMap packet.pid
  if (pid : ℤ) = s.audioPid then
    let (trim, packet) := s.trim.trimAudio packet s.packetSize s.clock.lastAdVideoFramePTS
    let packet := packet.withPid pid
    let slot := s.b2b.savedAudioPacketsCnt
    { s with
      trim := trim
      b2b :=
        { s.b2b with
          heap := Function.update s.b2b.heap block (Function.update (s.b2b.heap block) slot packet)
          savedAudioPacketsCnt := slot + 1 }
      ledger :=
        { s.ledger with
          saved := s.ledger.saved ++ [packet]
          reach := max s.ledger.reach (slot + 1) } }
  else s

/-- The packets of the buffer: `maxNumOfAudPacketsToBeSaved` -/
def maxAudPackets : ℕ := 300

/-- Read on until the audio is cut off, the buffer is full or the ad at its end. -/
def savePackets (block : ℕ) : AdInsertion → List Packet → AdInsertion
  | s, [] => s
  | s, packet :: packets =>
    if s.b2b.savedAudioPacketsCnt < maxAudPackets then
      let s := s.savePacket block packet
      if s.trim.maxAdAudioFrameCountReached then s else savePackets block s packets
    else s

/-- What is left of the ad's audio is saved for the next ad. -/
def saveAudio (allocated : Bool) (packets : List Packet) : AdInsertion :=
  let s :=
    { s with
      b2b := { s.b2b with savedAudioPacketsCnt := 0, backedAdAudioPacketsCnt := 0 }
      ledger :=
        { saved := [], diverted := [], emitted := [], reach := 0
          lost := s.ledger.lost ++ s.b2b.unread } }
  if s.trim.maxAdAudioFrameCountReached then s
  else if allocated then
    let block := s.b2b.blocks
    let s :=
      { s with
        b2b :=
          { s.b2b with
            heap := Function.update s.b2b.heap block fun _ => packetOf (List.replicate 188 0)
            blocks := block + 1
            prevAdAudioData := some ⟨block, 0⟩
            prevAdAudioDataCopy := some block } }
    savePackets block s packets
  else { s with b2b := { s.b2b with prevAdAudioData := none, prevAdAudioDataCopy := none } }

/-- `stopInsertion` -/
def stopInsertion : AdInsertion :=
  { s with
    mapping := false
    mapEndPending := false
    backToBackPrev := s.backToBack
    replication :=
      { s.replication with
        replicatingAudio := false, replicateAudioSrcPid := -1, replicateAudioTargetPids := [] }
    trim :=
      { s.trim with
        adVideoFrameCount := 0
        currentAdAudioPTS := 0
        determineAdAC3FrameSizeDuration := true }
    clock :=
      { s.clock with
        haveBaseTime := false
        mapStartPCR := -1
        lastAdPCR := -1
        haveSegmentBasePCRAfterTransitionToAd := false
        adVideoPktsDelayed := false
        adVideoPktsTooFast := false
        adAudioPktsDelayed := false }
    ttsInsert := if s.backToBack then s.ttsInsert else 0xFFFFFFFF }

/-- A call of `getInsertionData`. -/
structure Call where
  around : Surroundings
  /-- what there is of the ad to read -/
  reads : List Packet
  /-- the size of the caller's buffer, in packets -/
  size : ℕ
  /-- `calloc` finds memory -/
  allocated : Bool

/-- The ad is cut off, and another one follows. -/
def cutOff : Bool :=
  (s.trim.maxAdVideoFrameCountReached || s.mapEndPending) && s.backToBack

/-- `getInsertionData` up to its loop. -/
def enter (c : Call) : AdInsertion :=
  let s := { s with around := c.around }
  if s.cutOff then (s.saveAudio c.allocated c.reads).stopInsertion
  else if s.mapping then
    { s with reads := c.reads, room := c.size, backedupAudFramePktCnt := 0 }
  else s

/-- What the component does. -/
inductive Event : Type where
  /-- `getInsertionData` is called -/
  | call (c : Call)
  /-- one pass through its loop -/
  | pass
  /-- the programme's own packets are processed -/
  | elsewhere (t : AdInsertion)
  /-- a spot begins -/
  | start (t : AdInsertion)

/-- What processing the programme's packets leaves alone while a spot is on. A new
version of the PAT changes `m_pmtPid`, not the tables of the spot. -/
def elsewhere (t : AdInsertion) : AdInsertion :=
  { t with
    tables := s.tables
    map := s.map
    replacementPMTReadOffset := s.replacementPMTReadOffset
    psiInsertionIncomplete := s.psiInsertionIncomplete
    continuityCounters := s.continuityCounters
    replication := s.replication
    b2b := s.b2b
    ledger := s.ledger
    trim := { t.trim with maxAdAudioFrameCountReached := s.trim.maxAdAudioFrameCountReached }
    inserted := s.inserted
    damaged := s.damaged
    mapping := s.mapping && t.mapping
    room := 0 }

/-- What the beginning of a spot leaves alone. -/
def start (t : AdInsertion) : AdInsertion :=
  { t with
    b2b := s.b2b
    ledger := s.ledger
    psiInsertionIncomplete := false
    replication := { t.replication with replicatingAudio := false }
    inserted := []
    damaged := false
    room := 0 }

/-- One step. A pass needs room; everything else happens outside of the loop. -/
def step (s : AdInsertion) : Event → Option AdInsertion
  | .call c => if s.room = 0 then some (s.enter c) else none
  | .pass => if 0 < s.room then some s.insertPacket else none
  | .elsewhere t => if s.room = 0 then some (s.elsewhere t) else none
  | .start t => if s.room = 0 then some (s.start t) else none

variable {s} {s' : AdInsertion}

theorem step_call {c : Call} : s.step (.call c) = some s' ↔ s.room = 0 ∧ s.enter c = s' := by
  simp [step]

theorem step_pass : s.step .pass = some s' ↔ 0 < s.room ∧ s.insertPacket = s' := by
  simp [step]

theorem step_elsewhere {t : AdInsertion} :
    s.step (.elsewhere t) = some s' ↔ s.room = 0 ∧ s.elsewhere t = s' := by
  simp [step]

theorem step_start {t : AdInsertion} :
    s.step (.start t) = some s' ↔ s.room = 0 ∧ s.start t = s' := by
  simp [step]

/-! ## What a pass is about to do -/

/-- The packet a pass reads from the ad, if it gets that far. -/
def nextRead (s : AdInsertion) : Option Packet :=
  if s.replication.audioReplicationEnabled ∧ s.replication.replicatingAudio then none
  else if s.storedDue.isSome then none
  else if s.psiInsertionIncomplete then none
  else s.reads.head?

/-- A packet of the ad's that goes to the programme's audio. -/
def MapsToAudio (s : AdInsertion) (packet : Packet) : Prop :=
  packet.pid ≠ 0 ∧ packet.pid ≠ s.map.pmtPid ∧ packet.pid ≠ nullPid ∧
    s.map.pidMap packet.pid ≠ 0 ∧ (s.map.pidMap packet.pid : ℤ) ≠ s.videoPid ∧
    (s.map.pidMap packet.pid : ℤ) = s.audioPid

instance (s : AdInsertion) (packet : Packet) : Decidable (s.MapsToAudio packet) :=
  inferInstanceAs (Decidable (_ ∧ _))

/-- The PID a packet that is read is taken by: that of the saved one in its place. -/
def insertPid (s : AdInsertion) (packet : Packet) : ℕ :=
  match s.nullFiller packet.pid with
  | some ptr => (s.b2b.packetAt ptr).pid
  | none => packet.pid

/-- A packet of the programme's PMT is next: its rest, or its beginning for the ad's. -/
def InsertsPmt (s : AdInsertion) : Prop :=
  ¬(s.replication.audioReplicationEnabled ∧ s.replication.replicatingAudio) ∧
    s.storedDue = none ∧ (s.psiInsertionIncomplete = true ∨
      ∃ packet ∈ s.nextRead, s.insertPid packet = s.map.pmtPid)

instance (s : AdInsertion) : Decidable s.InsertsPmt := inferInstanceAs (Decidable (_ ∧ _))

/-- A saved packet is recognised as one: its PID is neither that of the PAT, nor that
of the ad's PMT, nor that of null packets. -/
def TellsSaved (s : AdInsertion) (saved : Packet) : Prop :=
  saved.pid ≠ 0 ∧ saved.pid ≠ s.map.pmtPid ∧ saved.pid ≠ nullPid

instance (s : AdInsertion) (saved : Packet) : Decidable (s.TellsSaved saved) :=
  inferInstanceAs (Decidable (_ ∧ _))

/-! ## A whole call -/

/-- The passes of a call. -/
def passes : ℕ → AdInsertion → AdInsertion
  | 0, s => s
  | fuel + 1, s => if 0 < s.room then passes fuel s.insertPacket else s

/-- `getInsertionData` -/
def getInsertionData (s : AdInsertion) (c : Call) : AdInsertion :=
  passes ((s.enter c).room + (s.enter c).reads.length) (s.enter c)

/-! ## A pair of ads -/

/-- A packet with a payload, told from others by its first byte. -/
def payloadPacket (pid : UInt8) (mark : UInt8) : Packet := packetOf [0x47, 0x00, pid, 0x10, mark]

/-- A null packet. -/
def nullPacket : Packet := packetOf [0x47, 0x1F, 0xFF, 0x10]

/-- A programme with its PMT on 0x30, whose PMT fits one packet. -/
def programmeTables : ReplacementTables where
  pmtPid := 0x30
  replacementPAT := packetOf [0x47, 0x40, 0x00, 0x10]
  replacementPMT := fun _ => packetOf [0x47, 0x40, 0x30, 0x10]
  replacementPMTLength := 1
  pmtPid_lt := by decide
  pat_pid := by decide
  pat_payload := by decide
  pmt_pid := fun _ _ => by decide
  pmt_payload := fun _ _ => by decide
  pmt_ne_empty := Nat.one_pos

/-- The ad's video and audio on 0x51 to 0x53 for the programme's on 0x31 to 0x33. -/
def shiftedPids : RbiPidMap where
  pmtPid := 0x50
  pidMap := fun pid => if 0x51 ≤ pid ∧ pid ≤ 0x53 then pid - 0x20 else 0
  needPayloadStart := fun _ => false
  pidMap_lt := fun pid => by
    split <;> omega

/-- The programme while an ad is on: video on 0x31, audio on 0x32. -/
def quietSurroundings : Surroundings where
  startPTS := 900000
  startPCR := 850000
  firstAdPacketAfterTransitionTTSValue := 0
  currentPCR := 0
  currentPTS := 900000
  mapSpliceOutPTS := 890000
  totalRetryCount := 0
  avail := 0
  bufferSize := 0
  elapsed := 0
  exitFrames := []
  insertBitRate := 0
  timeDeltaFrames := fun _ => 0
  scratch := fun _ => 0

/-- An ad whose video has come to its end and whose audio has not. Another ad follows. -/
def cuttingOff : AdInsertion where
  clock :=
    { haveBaseTime := true, baseTime := 0, segmentBaseTime := 0, prevAdBaseTime := 0
      prevAdSegmentBaseTime := 0, haveSegmentBasePCRAfterTransitionToAd := true, basePCR := 0
      segmentBasePCR := 0, currentMappedPTS := 0, currentMappedPCR := 0, currentInsertPCR := 0
      lastAdPCR := 0, mapStartPCR := 0, prevCurrentPCR := 0, lastAdVideoFramePTS := 900000
      adVideoPktsDelayed := false, adAudioPktsDelayed := false, adVideoPktsTooFast := false
      adVideoPktsDelayedPCRBased := false }
  trim :=
    { maxAdVideoFrameCountReached := true, maxAdAudioFrameCountReached := false
      lastAdVideoFrameDetected := false, determineAdAC3FrameSizeDuration := false
      adVideoFrameCount := 900, netReplaceableVideoFramesCnt := 900, currentAdAudioPTS := 890000
      adAC3FrameInfo := ⟨2880, 1536, 0, false, 0, 0, 0⟩ }
  pmtPid := 0x30
  tables := programmeTables
  map := shiftedPids
  replacementPMTReadOffset := 0
  psiInsertionIncomplete := false
  continuityCounters := fun _ => 0
  replication := ⟨false, false, -1, [], 0, ⟨nullPacket, none, false⟩⟩
  b2b := ⟨fun _ _ => nullPacket, 0, fun _ => 0, none, none, 0, 0⟩
  ledger := ⟨[], [], [], [], 0⟩
  videoPid := 0x31
  audioPid := 0x32
  pcrPid := 0x31
  ttsSize := 0
  ttsInsert := 0
  lastMappedPCRTTSValue := 0
  skipNullPktsInAd := false
  mapping := true
  mapEndPending := false
  backToBack := true
  backToBackPrev := false
  mapSpliceInPTS := 1000000
  reports := []
  inserted := []
  damaged := false
  around := quietSurroundings
  reads := []
  room := 0
  backedupAudFramePktCnt := 0

/-- The spot of the ad that follows. -/
def nextSpot : AdInsertion :=
  { cuttingOff with
    trim := { cuttingOff.trim with maxAdVideoFrameCountReached := false, adVideoFrameCount := 0 }
    backToBack := false
    backToBackPrev := true }

/-- A call of `getInsertionData`. -/
def callWith (reads : List Packet) (size : ℕ) : Event :=
  .call ⟨quietSurroundings, reads, size, true⟩

end AdInsertion

end MediaFramework
