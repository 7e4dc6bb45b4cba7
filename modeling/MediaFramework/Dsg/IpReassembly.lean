import MediaFramework.Dsg.BcastReassembly
import MediaFramework.Dsg.Checksums
import MediaFramework.Lib.Covering

/-!
# Reassembling IP datagrams of a DSG tunnel

A datagram comes in fragments, in any order. The callback of the tunnel parses the headers of a
frame and drops a packet that is not of version 4, or whose header has more than 32 bytes or a wrong
checksum. A fragment is then offered to the accumulators in order: one that is idle, or whose
reassembly has timed out, begins anew with whatever fragment it is offered, and one that is
collecting takes the fragments with the header of its datagram.

Whether a datagram is complete is told by the number of bytes that were captured, so that a
fragment that comes twice may stand for one that is missing. And an idle accumulator that stands
before the one that is collecting a datagram takes its next fragment.

The callback also hands every packet to the clients as it came. They discard it if it is a fragment,
and this is left out here.
-/

namespace MediaFramework

open BufStream OnesComplement TunnelPacket

/-! ## Datagrams and fragments -/

/-- What tells datagrams apart: the fields of the headers that an accumulator keeps. -/
structure DatagramId where
  dstMacAddress : ℕ := 0
  eTypeCode : ℕ := 0
  version : ℕ := 0
  nIdentification : ℕ := 0
  eProtocol : ℕ := 0
  srcIpAddress : ℕ := 0
  dstIpAddress : ℕ := 0
  deriving DecidableEq

/-- `vlDsgDispatchIpPayload`, for a payload that was assembled: what goes to the clients, if the
checksum holds. -/
def dispatchIpPayload (m : DataModel) (ip : DsgIpHeader) (payload : List UInt8) :
    Option (Option (List UInt8)) :=
  if ip.eProtocol = 0x06 then do
    let (tcpHeader, _) ← vlParseDsgTcpHeader m payload (BufStream.inst payload)
    let valid ← vlDsgIsValidTcpChecksum ip tcpHeader payload
    return if valid then some payload else none
  else if ip.eProtocol = 0x11 then do
    let (udpHeader, _) ← vlParseDsgUdpHeader payload (BufStream.inst payload)
    let valid ← vlDsgIsValidUdpChecksum ip udpHeader payload
    return if valid then some payload else none
  else return none

/-- A datagram as it was sent. -/
structure Datagram where
  id : DatagramId
  payload : List UInt8
  /-- datagrams with the same header may be sent one after another -/
  serial : ℕ := 0
  deriving DecidableEq

/-- A fragment of a datagram in its frame, and when it comes. -/
structure IpFragment where
  datagram : Datagram
  /-- where in the datagram its bytes belong -/
  fragOffset : ℕ
  /-- how many bytes of the datagram it carries -/
  length : ℕ
  /-- the Ethernet header -/
  eth : List UInt8
  /-- the IP header, with its options -/
  header : List UInt8
  /-- what stands behind the packet in its frame -/
  trailer : List UInt8 := []
  /-- what `time` returns -/
  now : ℕ := 0
  /-- there is memory, should the buffer have to grow -/
  memory : Bool := true
  /-- what the memory holds -/
  heap : ℕ → UInt8 := fun _ => 0

namespace IpFragment

variable (p : IpFragment)

/-- What follows the headers. -/
def data : List UInt8 := (p.datagram.payload.drop p.fragOffset).take p.length ++ p.trailer

/-- The frame. -/
def pData : List UInt8 := p.eth ++ (p.header ++ p.data)

/-- The fields of the headers where they stand, the addresses before the options. -/
def headerId : DatagramId where
  dstMacAddress := field p.eth 0 6
  eTypeCode := field p.eth 12 2
  version := field p.header 0 1 >>> 4
  nIdentification := field p.header 4 2
  eProtocol := field p.header 9 1
  srcIpAddress := field p.header 12 4
  dstIpAddress := field p.header 16 4

/-- No more fragments follow in the datagram. -/
def IsLast : Prop := p.fragOffset + p.length = p.datagram.payload.length

instance : Decidable p.IsLast := inferInstanceAs (Decidable (_ = _))

/-- Where the bytes of the fragment belong. -/
def span : ℕ × ℕ := (p.fragOffset, p.length)

/-- The frame is one of an IPv4 fragment of the datagram, as it may be sent. -/
structure IsFragment : Prop where
  size : p.datagram.payload.length ≤ 65535
  pos : 0 < p.length
  le : p.fragOffset + p.length ≤ p.datagram.payload.length
  /-- it is not the whole datagram -/
  fragmented : p.length ≠ p.datagram.payload.length
  eth : p.eth.length = 14
  type : field p.eth 12 2 = 0x0800
  header : p.header.length % 4 = 0 ∧ 20 ≤ p.header.length ∧ p.header.length ≤ 60
  version : field p.header 0 1 = 0x40 + p.header.length / 4
  id : p.headerId = p.datagram.id
  offset : 8 * (field p.header 6 2 &&& 0x1FFF) = p.fragOffset
  more : field p.header 6 2 >>> 13 &&& 0x1 = if p.IsLast then 0 else 1
  frame : p.pData.length < 2 ^ 31

theorem isFragment_iff {p : IpFragment} : p.IsFragment ↔
    (p.datagram.payload.length ≤ 65535 ∧ 0 < p.length ∧
      p.fragOffset + p.length ≤ p.datagram.payload.length ∧
        p.length ≠ p.datagram.payload.length) ∧
    (p.eth.length = 14 ∧ field p.eth 12 2 = 0x0800) ∧
    ((p.header.length % 4 = 0 ∧ 20 ≤ p.header.length ∧ p.header.length ≤ 60) ∧
      field p.header 0 1 = 0x40 + p.header.length / 4 ∧ p.headerId = p.datagram.id ∧
        8 * (field p.header 6 2 &&& 0x1FFF) = p.fragOffset ∧
          field p.header 6 2 >>> 13 &&& 0x1 = if p.IsLast then 0 else 1) ∧
    p.pData.length < 2 ^ 31 :=
  ⟨fun h => ⟨⟨h.size, h.pos, h.le, h.fragmented⟩, ⟨h.eth, h.type⟩,
      ⟨h.header, h.version, h.id, h.offset, h.more⟩, h.frame⟩,
    fun ⟨⟨size, pos, le, fragmented⟩, ⟨eth, type⟩, ⟨header, version, id, offset, more⟩, frame⟩ =>
      ⟨size, pos, le, fragmented, eth, type, header, version, id, offset, more, frame⟩⟩

instance : Decidable p.IsFragment := decidable_of_iff' _ isFragment_iff

/-- **The header passes the tests**: it has no more than 32 bytes, and its checksum holds. -/
def Passes : Prop := p.header.length ≤ 32 ∧ Verifies p.header

instance : Decidable p.Passes := inferInstanceAs (Decidable (_ ∧ _ = _))

variable {p}

/-- With nothing behind the packet, its bytes are those of the datagram. -/
theorem IsFragment.data_length (h : p.IsFragment) (htrailer : p.trailer = []) :
    p.data.length = p.length := by
  unfold data
  rw [htrailer, List.append_nil, List.length_take, List.length_drop]
  have := h.le
  omega

theorem data_getD (htrailer : p.trailer = []) {i : ℕ} (hin : InSpan i p.span) :
    p.data.getD (i - p.fragOffset) 0 = p.datagram.payload.getD i 0 := by
  have hle : p.fragOffset ≤ i := hin.1
  have hlt : i < p.fragOffset + p.length := hin.2
  have hoffset : i - p.fragOffset < p.length := by omega
  unfold data
  rw [htrailer, List.append_nil, List.getD_eq_getElem?_getD, List.getD_eq_getElem?_getD,
    List.getElem?_take_of_lt hoffset, List.getElem?_drop, Nat.add_sub_cancel' hle]

/-- The last fragment is not the first. -/
theorem IsFragment.offset_pos (h : p.IsFragment) (hlast : p.IsLast) : 0 < p.fragOffset := by
  have hend : p.fragOffset + p.length = p.datagram.payload.length := hlast
  have := h.fragmented
  omega

end IpFragment

/-- The fragments carry all bytes of the datagram. -/
def Datagram.CoveredBy (d : Datagram) (fragments : List IpFragment) : Prop :=
  Spanned d.payload.length (fragments.map IpFragment.span)

instance (d : Datagram) (fragments : List IpFragment) : Decidable (d.CoveredBy fragments) :=
  inferInstanceAs (Decidable (Spanned _ _))

/-- The first and the last fragment are there, and the bytes of all add up to the datagram. -/
def Datagram.CountedBy (d : Datagram) (fragments : List IpFragment) : Prop :=
  (∃ f ∈ fragments, f.fragOffset = 0) ∧ (∃ f ∈ fragments, f.IsLast) ∧
    d.payload.length ≤ (fragments.map IpFragment.length).sum

instance (d : Datagram) (fragments : List IpFragment) : Decidable (d.CountedBy fragments) :=
  inferInstanceAs (Decidable (_ ∧ _ ∧ _))

/-- Fragments that carry all bytes add up. -/
theorem Datagram.CoveredBy.counted {d : Datagram} {fragments : List IpFragment}
    (h : d.CoveredBy fragments) (hof : ∀ f ∈ fragments, f.datagram = d ∧ f.IsFragment)
    (hpos : 0 < d.payload.length) : d.CountedBy fragments := by
  refine ⟨?_, ?_, ?_⟩
  · obtain ⟨span, hspan, hfirst⟩ := h.exists_first hpos
    obtain ⟨f, hf, rfl⟩ := List.mem_map.mp hspan
    exact ⟨f, hf, hfirst⟩
  · obtain ⟨span, hspan, hlast⟩ := h.exists_last hpos
    obtain ⟨f, hf, rfl⟩ := List.mem_map.mp hspan
    obtain ⟨rfl, hfragment⟩ := hof f hf
    exact ⟨f, hf, Nat.le_antisymm hfragment.le hlast⟩
  · have hsum := h.le_sum
    rw [List.map_map] at hsum
    exact hsum

/-! ## The packet that is parsed -/

/-- A packet as it is offered to the accumulators. -/
structure IpPacket where
  pEthHeader : DsgEthHeader
  pIpHeader : DsgIpHeader
  /-- what follows the headers in the frame -/
  data : List UInt8
  /-- ghost: what came. Also the time, and the memory that there is. -/
  fragment : IpFragment

namespace IpPacket

/-- What an accumulator compares. -/
def id (q : IpPacket) : DatagramId where
  dstMacAddress := q.pEthHeader.dstMacAddress
  eTypeCode := q.pEthHeader.eTypeCode
  version := q.pIpHeader.version
  nIdentification := q.pIpHeader.nIdentification
  eProtocol := q.pIpHeader.eProtocol
  srcIpAddress := q.pIpHeader.srcIpAddress
  dstIpAddress := q.pIpHeader.dstIpAddress

/-- The packet tells the fragment that came, with nothing behind it in its frame. -/
structure Tells (q : IpPacket) : Prop where
  of : q.fragment.IsFragment
  trailer : q.fragment.trailer = []
  fragOffset : q.pIpHeader.fragOffset = q.fragment.fragOffset
  more : q.pIpHeader.bMoreFragments = 0 ↔ q.fragment.IsLast
  data : q.data = q.fragment.data

end IpPacket

/-- `vlIsIpPacketFragmented` -/
def vlIsIpPacketFragmented (pIpPacket : DsgIpHeader) : Bool :=
  pIpPacket.bMoreFragments ≠ 0 || 0 < pIpPacket.fragOffset

namespace IpFragment

variable (m : DataModel) (p : IpFragment)

/-- The first part of `vl_dsg_unprotected_tunnel_callback`: the packet, unless it is dropped or not
a fragment. A header that reaches beyond the frame leaves the stream without a remainder. -/
def parse : Option (Option IpPacket) := do
  let (pEthHeader, s) ← vlParseDsgEthHeader p.pData (BufStream.inst p.pData)
  if pEthHeader.eTypeCode ≠ 0x0800 then return none
  let pIpData := p.pData.drop s.currentBuf.toNat
  let (pIpHeader, s) ← vlParseDsgIpHeader m p.pData s
  if 4 ≠ pIpHeader.version then return none
  let valid ← vlDsgIsValidIpHeaderChecksum pIpHeader pIpData
  if !valid || !vlIsIpPacketFragmented pIpHeader then return none
  let data ← if 0 ≤ s.remainder then bytesAt p.pData s.currentBuf s.remainder.toNat else none
  return some ⟨pEthHeader, pIpHeader, data, p⟩

/-- The packet of a fragment whose header passes the tests. -/
def packet : IpPacket where
  pEthHeader := ⟨field p.eth 0 6, field p.eth 6 6, field p.eth 12 2⟩
  pIpHeader := parsedIpHeader m p.header
  data := p.data
  fragment := p

variable {m p}

theorem IsFragment.tells (h : p.IsFragment) (htrailer : p.trailer = []) : (p.packet m).Tells where
  of := h
  trailer := htrailer
  fragOffset := h.offset
  more := by
    have hmore : (p.packet m).pIpHeader.bMoreFragments = if p.IsLast then 0 else 1 := h.more
    rw [hmore]
    split_ifs with hlast
    · exact iff_of_true rfl hlast
    · exact iff_of_false not_false hlast
  data := rfl


theorem IsFragment.checksum_eq (h : p.IsFragment) (hpasses : p.Passes) :
    vlDsgIsValidIpHeaderChecksum (parsedIpHeader m p.header) (p.header ++ p.data) = some true := by
  obtain ⟨hwords, hlow, -⟩ := h.header
  have hlong := hpasses.1
  have hsize : 4 * (p.header.length / 4) = p.header.length := by omega
  obtain ⟨b, rest, hcons⟩ : ∃ b rest, p.header = b :: rest :=
    List.exists_cons_of_length_pos (by omega)
  have hfield : ofOctets (((p.header ++ p.data).drop 10).take 2) = field p.header 10 2 := by
    rw [List.drop_append_of_le_length (by omega), List.take_append_of_le_length, field]
    rw [List.length_drop]
    omega
  have hversion := h.version
  have hnonzero : b ≠ 0 := by
    rintro rfl
    rw [hcons] at hversion
    have hzero : field (0 :: rest) 0 1 = 0 := rfl
    omega
  have htake : (p.header ++ p.data).take (4 * (parsedIpHeader m p.header).headerLength) =
      p.header := by
    rw [show 4 * (parsedIpHeader m p.header).headerLength = p.header.length from hsize,
      List.take_left]
  have hrange : 5 ≤ (parsedIpHeader m p.header).headerLength ∧
      (parsedIpHeader m p.header).headerLength ≤ 8 := by
    dsimp only [parsedIpHeader]
    omega
  have hinside : 4 * (parsedIpHeader m p.header).headerLength ≤ (p.header ++ p.data).length := by
    rw [List.length_append]
    dsimp only [parsedIpHeader]
    omega
  have hfirst : (p.header ++ p.data)[0]? = some b := by
    rw [hcons]
    rfl
  rw [vlDsgIsValidIpHeaderChecksum_eq hrange hinside hfield hfirst hnonzero, htake]
  exact congrArg some (decide_eq_true hpasses.2)

theorem IsFragment.fragmented_eq (h : p.IsFragment) :
    vlIsIpPacketFragmented (parsedIpHeader m p.header) = true := by
  by_cases hlast : p.IsLast
  · have hoffset : 0 < 8 * (field p.header 6 2 &&& 0x1FFF) := h.offset.symm ▸ h.offset_pos hlast
    exact Bool.or_eq_true_iff.mpr (.inr (decide_eq_true hoffset))
  · have hmore : field p.header 6 2 >>> 13 &&& 0x1 ≠ 0 := by
      rw [h.more, if_neg hlast]
      exact Nat.one_ne_zero
    exact Bool.or_eq_true_iff.mpr (.inl (decide_eq_true hmore))

/-- **A fragment whose header passes the tests** is parsed. -/
theorem IsFragment.parse_eq (h : p.IsFragment) (hpasses : p.Passes) :
    p.parse m = some (some (p.packet m)) := by
  have hframe := h.frame
  have hahead : (BufStream.inst p.pData).Ahead p.pData (p.eth ++ (p.header ++ p.data)) :=
    ahead_inst (by rw [pData] at hframe; rw [pData]; omega)
  have hip := (hahead.append p.eth).2
  have hrest := (hip.append p.header).2
  have hwords : 4 * (p.header.length / 4) = p.header.length := by
    have := h.header
    omega
  have heth := vlParseDsgEthHeader_header hahead h.eth
  have hparse := vlParseDsgIpHeader_header (m := m) hip h.version
    (by have := h.header; omega) hwords.symm
  rw [hwords] at hparse
  have hstart := hahead.iPosition_advanceBuf (n := p.eth.length)
    (by rw [List.length_append]; omega)
  have hend := hip.iPosition_advanceBuf (n := p.header.length)
    (by rw [List.length_append]; omega)
  have hplace : ((inst p.pData).advanceBuf p.eth.length).currentBuf = p.eth.length := by
    rw [currentBuf, hstart]
    exact (Int.zero_add _).trans (Int.zero_add _)
  have hremainder : (((inst p.pData).advanceBuf p.eth.length).advanceBuf
      p.header.length).remainder = p.data.length := by
    have hcapacity : (((inst p.pData).advanceBuf p.eth.length).advanceBuf
        p.header.length).nCapacity = p.pData.length := rfl
    have hzero : (inst p.pData).iPosition = 0 := rfl
    have hlength : p.pData.length = p.eth.length + (p.header.length + p.data.length) := by
      rw [pData, List.length_append, List.length_append]
    rw [remainder, hcapacity, hend, hstart, hzero, int32_of_range (by omega) (by omega)]
    omega
  have hpIpData : p.pData.drop p.eth.length = p.header ++ p.data := List.drop_left
  have hvalid := h.checksum_eq (m := m) hpasses
  have hdata := hrest.bytesAt
  rw [← h.eth] at heth
  unfold parse
  simp only [heth, Option.bind_eq_bind, Option.bind_some]
  rw [if_neg (not_not.mpr h.type), hparse, hplace, Int.toNat_natCast, hpIpData]
  simp only [Option.bind_some]
  rw [if_neg (by exact fun hne => hne rfl), hvalid]
  simp only [Option.bind_some]
  rw [h.fragmented_eq, if_neg (by decide), hremainder, if_pos (Int.natCast_nonneg _),
    Int.toNat_natCast, hdata]
  rfl

end IpFragment

/-! ## Accumulators -/

/-- `VL_DSG_IP_REASSEMBLY_TIMEOUT`, in seconds. -/
abbrev ipReassemblyTimeout : ℕ := 10

/-- `VL_DSG_IP_PAYLOAD_GROWTH_SIZE`. -/
abbrev ipPayloadGrowthSize : ℕ := 0x600

/-- `VL_DSG_IP_ACCUMULATOR`. -/
structure IpAccumulator where
  id : DatagramId := {}
  bStartedAccumulation : Bool := false
  iOffsetBegin : ℕ := 65536
  iOffsetEnd : ℕ := 0
  nPayloadLength : ℕ := 0
  nBytesCaptured : ℕ := 0
  nBytesCapacity : ℕ := 0
  pPayload : ℕ → UInt8 := fun _ => 0
  startTime : ℕ
  /-- ghost: the fragments that were captured -/
  fragments : List IpFragment := []

namespace IpAccumulator

variable (a : IpAccumulator) (q : IpPacket)

/-- The accumulator may begin anew. -/
def Free (now : ℕ) : Prop :=
  a.bStartedAccumulation = false ∨ TimedOut ipReassemblyTimeout a.startTime now

instance (now : ℕ) : Decidable (a.Free now) := inferInstanceAs (Decidable (_ ∨ _))

/-- The accumulator takes the fragment: it is free, or collecting a datagram with its header. -/
def Takes : Prop := a.Free q.fragment.now ∨ q.id = a.id

instance : Decidable (a.Takes q) := inferInstanceAs (Decidable (_ ∨ _))

/-- Whether the accumulator takes the fragment. -/
def takes : Bool := decide (a.Takes q)

/-- The accumulator is collecting the datagram of the fragment. -/
def Collects (p : IpFragment) : Prop :=
  ¬ a.Free p.now ∧ p.datagram ∈ a.fragments.map IpFragment.datagram

instance (p : IpFragment) : Decidable (a.Collects p) := inferInstanceAs (Decidable (_ ∧ _))

/-- The accumulator begins anew with a datagram. -/
def begin : IpAccumulator :=
  { a with
    id := q.id, bStartedAccumulation := true, iOffsetBegin := 65536, iOffsetEnd := 0
    nPayloadLength := 0, nBytesCaptured := 0, startTime := q.fragment.now, fragments := [] }

/-- The buffer grows for so many bytes, if there is memory. -/
def grow (bytes : ℕ) : Option IpAccumulator :=
  if a.nBytesCapacity < bytes then
    if q.fragment.memory then
      some { a with
        pPayload := fun i => if i < a.iOffsetEnd then a.pPayload i else q.fragment.heap i
        nBytesCapacity := growCapacity ipPayloadGrowthSize bytes bytes a.nBytesCapacity }
    else none
  else some a

/-- The bytes of the fragment are put in their place. -/
def capture : IpAccumulator :=
  let fragOffset := q.pIpHeader.fragOffset
  let nLength := q.data.length
  { a with
    pPayload := fun i =>
      if InSpan i (fragOffset, nLength) then q.data.getD (i - fragOffset) 0 else a.pPayload i
    nBytesCaptured := a.nBytesCaptured + nLength
    iOffsetBegin := if fragOffset < a.iOffsetBegin then fragOffset else a.iOffsetBegin
    iOffsetEnd := if a.iOffsetEnd < fragOffset + nLength then fragOffset + nLength else a.iOffsetEnd
    nPayloadLength :=
      if q.pIpHeader.bMoreFragments = 0 ∧ 0 < fragOffset then fragOffset + nLength
      else a.nPayloadLength
    fragments := a.fragments ++ [q.fragment] }

/-- The payload is dispatched. -/
def Complete : Prop :=
  a.nPayloadLength ≠ 0 ∧ a.iOffsetBegin = 0 ∧ a.nPayloadLength = a.iOffsetEnd ∧
    a.nPayloadLength ≤ a.nBytesCaptured

instance : Decidable a.Complete := inferInstanceAs (Decidable (_ ∧ _ ∧ _ ∧ _))

/-- `vlDsgAddToIpAccumulator`, for an accumulator that takes the packet. In the last place the
payload that goes to `vlDsgDispatchIpPayload`, with the header of this packet. -/
def accumulate : AccResult × IpAccumulator × Option (List UInt8) :=
  let nEnd := q.pIpHeader.fragOffset + q.data.length
  if 65536 < nEnd then (.error, { a with iOffsetEnd := 0 }, none)
  else
    match a.grow q nEnd with
    | none => (.error, a, none)
    | some a =>
      let a := a.capture q
      if a.nBytesCapacity < a.iOffsetEnd then (.error, a, none)
      else if a.Complete then (.dispatched, a, some ((List.range a.nPayloadLength).map a.pPayload))
      else (.added, a, none)

/-- `vlDsgAddToIpAccumulator`. -/
def add : AccResult × IpAccumulator × Option (List UInt8) :=
  if a.Free q.fragment.now then (a.begin q).accumulate q
  else if q.id ≠ a.id then (.noMatch, a, none)
  else a.accumulate q

/-- The accumulator becomes idle. -/
def reset (now : ℕ) : IpAccumulator :=
  { a with
    bStartedAccumulation := false, iOffsetBegin := 65536, iOffsetEnd := 0
    nPayloadLength := 0, nBytesCaptured := 0, startTime := now }

/-- The accumulator as it is when it looks at the packet. -/
def ready : IpAccumulator := if a.Free q.fragment.now then a.begin q else a

/-- What becomes of an accumulator that takes the packet, and the payload that is complete. -/
def act : IpAccumulator × Option (List UInt8) :=
  match a.add q with
  | (.added, a, out) => (a, out)
  | (_, a, out) => (a.reset q.fragment.now, out)

/-- A new accumulator that has looked at the packet. -/
def fresh : IpAccumulator × Option (List UInt8) :=
  (IpAccumulator.add { startTime := q.fragment.now } q).2

section Takes

variable {a : IpAccumulator} {q : IpPacket}

theorem takes_iff : a.takes q = true ↔ a.Takes q := decide_eq_true_iff

theorem ready_of_free (h : a.Free q.fragment.now) : a.ready q = a.begin q := if_pos h

theorem ready_of_not_free (h : ¬ a.Free q.fragment.now) : a.ready q = a := if_neg h

theorem started_of_not_free {now : ℕ} (h : ¬ a.Free now) : a.bStartedAccumulation = true := by
  rcases hstarted : a.bStartedAccumulation with _ | _
  · exact absurd (.inl hstarted) h
  · rfl

/-- An accumulator that takes the packet looks at it. -/
theorem add_of_takes (h : a.Takes q) : a.add q = (a.ready q).accumulate q := by
  unfold add ready
  by_cases hfree : a.Free q.fragment.now
  · rw [if_pos hfree, if_pos hfree]
  · rw [if_neg hfree, if_neg hfree, if_neg (not_not.mpr (h.resolve_left hfree))]

theorem add_of_not_takes (h : ¬ a.Takes q) : a.add q = (.noMatch, a, none) := by
  unfold add
  rw [if_neg fun hfree => h (.inl hfree), if_pos fun hid => h (.inr hid)]

theorem accumulate_ne_noMatch (a : IpAccumulator) (q : IpPacket) :
    (a.accumulate q).1 ≠ .noMatch := by
  unfold accumulate
  dsimp only
  repeat' split
  all_goals exact fun heq => AccResult.noConfusion heq

end Takes

/-- The accumulator holds the fragments that it captured. -/
structure Holding (d : Datagram) (a : IpAccumulator) : Prop where
  started : a.bStartedAccumulation = true
  of : ∀ f ∈ a.fragments, f.datagram = d ∧ f.IsFragment
  begins : a.iOffsetBegin = 0 ↔ ∃ f ∈ a.fragments, f.fragOffset = 0
  end_le : a.iOffsetEnd ≤ d.payload.length
  le_end : ∀ f ∈ a.fragments, f.fragOffset + f.length ≤ a.iOffsetEnd
  length_of_last : (∃ f ∈ a.fragments, f.IsLast) →
    a.nPayloadLength = d.payload.length
  length_of_more : (¬ ∃ f ∈ a.fragments, f.IsLast) → a.nPayloadLength = 0
  captured : a.nBytesCaptured = (a.fragments.map IpFragment.length).sum
  bytes : ∀ i, (∃ f ∈ a.fragments, InSpan i f.span) → a.pPayload i = d.payload.getD i 0
  fits : a.iOffsetEnd ≤ a.nBytesCapacity

section Accumulate

variable {a : IpAccumulator} {q : IpPacket} {d : Datagram}

/-- An accumulator that begins anew holds nothing. -/
theorem begin_holding (a : IpAccumulator) (q : IpPacket) (d : Datagram) :
    Holding d (a.begin q) where
  started := rfl
  of _ h := absurd h List.not_mem_nil
  begins := ⟨fun h => Nat.noConfusion h, fun ⟨_, h, _⟩ => absurd h List.not_mem_nil⟩
  end_le := Nat.zero_le _
  le_end _ h := absurd h List.not_mem_nil
  length_of_last := fun ⟨_, h, _⟩ => absurd h List.not_mem_nil
  length_of_more _ := rfl
  captured := rfl
  bytes := fun _ ⟨_, h, _⟩ => absurd h List.not_mem_nil
  fits := Nat.zero_le _

/-- With memory the buffer gets as large as it has to be, and keeps what it holds. -/
theorem Holding.grow (h : Holding d a) (hmemory : q.fragment.memory = true) (bytes : ℕ) :
    ∃ b, a.grow q bytes = some b ∧ Holding d b ∧ bytes ≤ b.nBytesCapacity ∧
      b.fragments = a.fragments ∧ b.startTime = a.startTime := by
  unfold IpAccumulator.grow
  by_cases hless : a.nBytesCapacity < bytes
  · rw [if_pos hless, if_pos hmemory]
    have hgrown : bytes ≤ growCapacity ipPayloadGrowthSize bytes bytes a.nBytesCapacity :=
      BcastAccumulator.le_growCapacity (by decide) _ _ (by omega)
    have hfits := Nat.le_trans h.fits (Nat.le_trans (Nat.le_of_lt hless) hgrown)
    refine ⟨_, rfl, ⟨h.started, h.of, h.begins, h.end_le, h.le_end, h.length_of_last,
      h.length_of_more, h.captured, fun i hi => ?_, hfits⟩, hgrown, rfl, rfl⟩
    obtain ⟨f, hf, hin⟩ := hi
    have hbelow : i < a.iOffsetEnd := Nat.lt_of_lt_of_le hin.2 (h.le_end f hf)
    exact (if_pos hbelow).trans (h.bytes i ⟨f, hf, hin⟩)
  · rw [if_neg hless]
    exact ⟨a, rfl, h, by omega, rfl, rfl⟩

/-- What one of the fragments with this one does. -/
theorem exists_append_singleton {P : IpFragment → Prop} {fragments : List IpFragment}
    {p : IpFragment} :
    (∃ f ∈ fragments ++ [p], P f) ↔ (∃ f ∈ fragments, P f) ∨ P p := by
  simp [or_and_right, exists_or]

/-- **A fragment is captured.** -/
theorem Holding.capture (h : Holding q.fragment.datagram a) (hq : q.Tells)
    (hroom : q.pIpHeader.fragOffset + q.data.length ≤ a.nBytesCapacity) :
    Holding q.fragment.datagram (a.capture q) := by
  have hlength := hq.of.data_length hq.trailer
  have hle := hq.of.le
  unfold IpAccumulator.capture
  rw [hq.data, hq.fragOffset, hlength] at hroom ⊢
  obtain ⟨hfragment, htrailer, -, hmore, -⟩ := hq
  -- from here on only what came is looked at
  generalize q.pIpHeader = header at hmore ⊢
  generalize q.fragment = p at *
  constructor
  case started => exact h.started
  case of =>
    intro f hf
    rcases List.mem_append.mp hf with hf | hf
    · exact h.of f hf
    · obtain rfl := List.mem_singleton.mp hf
      exact ⟨rfl, hfragment⟩
  case begins =>
    have hmin : (if p.fragOffset < a.iOffsetBegin then p.fragOffset else a.iOffsetBegin) = 0 ↔
        a.iOffsetBegin = 0 ∨ p.fragOffset = 0 := by
      split <;> omega
    rw [exists_append_singleton, ← h.begins]
    exact hmin
  case end_le =>
    dsimp only
    split
    · exact hle
    · exact h.end_le
  case le_end =>
    intro f hf
    dsimp only
    rcases List.mem_append.mp hf with hf | hf
    · have := h.le_end f hf
      split <;> omega
    · obtain rfl := List.mem_singleton.mp hf
      split <;> omega
  case length_of_last =>
    intro hlast
    dsimp only
    split
    · rename_i hthis
      exact hmore.mp hthis.1
    · rename_i hnot
      refine h.length_of_last ((exists_append_singleton.mp hlast).resolve_right fun hthis => ?_)
      exact hnot ⟨hmore.mpr hthis, hfragment.offset_pos hthis⟩
  case length_of_more =>
    intro hnot
    rw [exists_append_singleton, not_or] at hnot
    dsimp only
    rw [if_neg fun hthis => hnot.2 (hmore.mp hthis.1)]
    exact h.length_of_more hnot.1
  case captured =>
    rw [h.captured, List.map_append, List.sum_append]
    rfl
  case bytes =>
    intro i hi
    by_cases hthis : InSpan i p.span
    · exact (if_pos hthis).trans (IpFragment.data_getD htrailer hthis)
    · have hbefore := (exists_append_singleton.mp hi).resolve_right hthis
      exact (if_neg hthis).trans (h.bytes i hbefore)
  case fits =>
    dsimp only
    split
    · exact hroom
    · exact h.fits

/-- **When the payload is dispatched**: when the bytes of the fragments add up. -/
theorem Holding.complete_iff (h : Holding d a) : a.Complete ↔ d.CountedBy a.fragments := by
  unfold Complete Datagram.CountedBy
  rw [← h.begins, ← h.captured]
  by_cases hlast : ∃ f ∈ a.fragments, f.IsLast
  · have hlength := h.length_of_last hlast
    obtain ⟨f, hf, hmore⟩ := hlast
    have hlast : ∃ f ∈ a.fragments, f.IsLast := ⟨f, hf, hmore⟩
    obtain ⟨rfl, hfragment⟩ := h.of f hf
    have hend : f.fragOffset + f.length = f.datagram.payload.length := hmore
    have := h.le_end f hf
    have := h.end_le
    have := hfragment.pos
    rw [hlength]
    refine ⟨fun ⟨_, hbegin, _, hbytes⟩ => ⟨hbegin, hlast, hbytes⟩,
      fun ⟨hbegin, _, hbytes⟩ => ⟨by omega, hbegin, by omega, hbytes⟩⟩
  · have hlength := h.length_of_more hlast
    exact ⟨fun hcomplete => absurd hlength hcomplete.1, fun hcounted => absurd hcounted.2.1 hlast⟩

/-- **What is dispatched** is the payload of the datagram, if its fragments carry all bytes. -/
theorem Holding.payload_eq (h : Holding d a) (hlength : a.nPayloadLength = d.payload.length)
    (hcovered : d.CoveredBy a.fragments) :
    (List.range a.nPayloadLength).map a.pPayload = d.payload := by
  rw [hlength]
  refine List.ext_getElem (by rw [List.length_map, List.length_range]) fun i hi hi' => ?_
  obtain ⟨span, hspan, hin⟩ := hcovered i hi'
  obtain ⟨f, hf, rfl⟩ := List.mem_map.mp hspan
  rw [List.getElem_map, List.getElem_range, h.bytes i ⟨f, hf, hin⟩,
    List.getD_eq_getElem?_getD, List.getElem?_eq_getElem hi', Option.getD_some]

/-- **What an accumulator does with a packet it takes.** -/
theorem act_cases (htakes : a.Takes q) (hq : q.Tells) (hmemory : q.fragment.memory = true)
    (h : Holding q.fragment.datagram (a.ready q)) :
    (¬ q.fragment.datagram.CountedBy ((a.ready q).fragments ++ [q.fragment]) ∧
        ∃ b, a.add q = (.added, b, none) ∧ Holding q.fragment.datagram b ∧
          b.fragments = (a.ready q).fragments ++ [q.fragment] ∧
            b.startTime = (a.ready q).startTime) ∨
      (q.fragment.datagram.CountedBy ((a.ready q).fragments ++ [q.fragment]) ∧
        ∃ b out, a.add q = (.dispatched, b, some out) ∧
          (q.fragment.datagram.CoveredBy ((a.ready q).fragments ++ [q.fragment]) →
            out = q.fragment.datagram.payload)) := by
  have hsize : ¬ 65536 < q.pIpHeader.fragOffset + q.data.length := by
    have := hq.of.data_length hq.trailer
    have := hq.of.le
    have := hq.of.size
    rw [hq.fragOffset, hq.data]
    omega
  obtain ⟨b, hgrow, hb, hroom, hsame, hstart⟩ :=
    h.grow hmemory (q.pIpHeader.fragOffset + q.data.length)
  have hcapture := hb.capture hq hroom
  have hfragments : (b.capture q).fragments = (a.ready q).fragments ++ [q.fragment] := by
    rw [← hsame]
    rfl
  rw [add_of_takes htakes]
  unfold accumulate
  dsimp only
  rw [if_neg hsize, hgrow, ← hfragments]
  dsimp only
  rw [if_neg (Nat.not_lt.mpr hcapture.fits)]
  by_cases hcomplete : (b.capture q).Complete
  · rw [if_pos hcomplete]
    have hcounted := hcapture.complete_iff.mp hcomplete
    refine .inr ⟨hcounted, _, _, rfl, fun hcovered => ?_⟩
    exact hcapture.payload_eq (hcapture.length_of_last hcounted.2.1) hcovered
  · rw [if_neg hcomplete]
    exact .inl ⟨fun hcounted => hcomplete (hcapture.complete_iff.mpr hcounted), _, rfl, hcapture,
      rfl, hstart⟩

/-- One fragment is never the whole datagram. -/
theorem not_counted_singleton {p : IpFragment} (hfragment : p.IsFragment) :
    ¬ p.datagram.CountedBy [p] := by
  rintro ⟨⟨f, hf, hfirst⟩, ⟨g, hg, hlast⟩, -⟩
  obtain rfl := List.mem_singleton.mp hf
  obtain rfl := List.mem_singleton.mp hg
  have := hfragment.offset_pos hlast
  omega

/-- A new accumulator does what an idle one does. -/
theorem fresh_eq (hq : q.Tells) (hmemory : q.fragment.memory = true) :
    fresh q = ({ startTime := q.fragment.now } : IpAccumulator).act q := by
  have hfree : ({ startTime := q.fragment.now } : IpAccumulator).Free q.fragment.now := .inl rfl
  have hready := ready_of_free hfree
  rcases act_cases (.inl hfree) hq hmemory (hready ▸ begin_holding _ q _) with
    ⟨-, b, hadd, -⟩ | ⟨hcounted, -⟩
  · unfold fresh act
    rw [hadd]
  · exact absurd hcounted (not_counted_singleton hq.of)

end Accumulate

end IpAccumulator

/-- `vlDsgDispatchFragmentedIpToHost`: the accumulators after a packet, and the payload that is
complete. -/
def dispatchFragmentedIp (q : IpPacket) :
    List IpAccumulator → List IpAccumulator × Option (List UInt8)
  | [] =>
    -- what comes of the packet is not looked at
    let (_, a, out) := IpAccumulator.add { startTime := q.fragment.now } q
    ([a], out)
  | a :: as =>
    match a.add q with
    | (.noMatch, a, _) =>
      let (as, out) := dispatchFragmentedIp q as
      (a :: as, out)
    | (.added, a, out) => (a :: as, out)
    | (_, a, out) => (a.reset q.fragment.now :: as, out)

/-- **A packet is offered** to the accumulators one after another. -/
theorem dispatchFragmentedIp_eq (q : IpPacket) (as : List IpAccumulator) :
    dispatchFragmentedIp q as =
      offer (fun a => a.takes q) (fun a => a.act q) (IpAccumulator.fresh q) as := by
  induction as with
  | nil => rfl
  | cons a as ih =>
    rw [dispatchFragmentedIp, offer]
    by_cases htakes : a.Takes q
    · have hne := IpAccumulator.accumulate_ne_noMatch (a.ready q) q
      rw [← IpAccumulator.add_of_takes htakes] at hne
      rw [if_pos (IpAccumulator.takes_iff.mpr htakes)]
      unfold IpAccumulator.act
      rcases hadd : a.add q with ⟨_ | _ | _ | _, b, out⟩
      · exact absurd (congrArg Prod.fst hadd) hne
      all_goals rfl
    · rw [if_neg fun h => htakes (IpAccumulator.takes_iff.mp h), ← ih,
        IpAccumulator.add_of_not_takes htakes]

/-! ## The tunnel -/

/-- What the host keeps of the fragments of a tunnel. -/
structure IpTunnel where
  accumulators : List IpAccumulator := []
  /-- the reassembled payloads that went to the clients, and the datagram that was completed -/
  dispatched : List (Datagram × List UInt8) := []
  /-- ghost: the fragments that came -/
  arrived : List IpFragment := []

namespace IpTunnel

variable (m : DataModel) (s : IpTunnel) (q : IpPacket) (p : IpFragment)

/-- The fragmented packet is handed on, and what it completes is dispatched. -/
def dispatchFragmented : Option IpTunnel := do
  let (as, complete) := dispatchFragmentedIp q s.accumulators
  let out ← complete.elim (some none) (dispatchIpPayload m q.pIpHeader)
  return { s with
    accumulators := as
    dispatched := s.dispatched ++ (out.map fun payload => (q.fragment.datagram, payload)).toList }

/-- `vl_dsg_unprotected_tunnel_callback`. -/
def tunnelCallback : Option IpTunnel := do
  let parsed ← p.parse m
  parsed.elim (some s) (s.dispatchFragmented m)

/-- Every frame is handled. -/
def step (s : IpTunnel) (p : IpFragment) : Option IpTunnel :=
  { s with arrived := s.arrived ++ [p] }.tunnelCallback m p

/-! ## What should be dispatched -/

/-- The fragments of the datagram. -/
def fragmentsOf (d : Datagram) (fragments : List IpFragment) : List IpFragment :=
  fragments.filter fun p => p.datagram = d

/-- What was dispatched for the datagram. -/
def payloads (d : Datagram) : List (Datagram × List UInt8) :=
  s.dispatched.filter fun out => out.1 = d

/-- The fragments come while the reassembly of the first of them goes on. -/
def InTime (fragments : List IpFragment) : Prop :=
  ∀ first ∈ fragments.head?, ∀ p ∈ fragments,
    ¬ TimedOut ipReassemblyTimeout first.now p.now

/-- **What the tunnel should do.** Every payload that is dispatched is that of the datagram, and
fragments of the datagram have brought all of its bytes; and a datagram whose fragments all come
in time is dispatched once. -/
structure Reassembles (fragments : List IpFragment) (s : IpTunnel) : Prop where
  whole : ∀ out ∈ s.dispatched, out.2 = out.1.payload ∧
    out.1.CoveredBy (fragmentsOf out.1 fragments)
  once : ∀ d front mid back, fragments = front ++ mid ++ back →
    (∀ p ∈ front, p.datagram ≠ d) → mid.head?.map IpFragment.datagram = some d → InTime mid →
      d.CoveredBy (fragmentsOf d mid) → s.payloads d = [(d, d.payload)]

/-- The accumulator that takes the packet: the first one that does, or a new one. -/
def taker : IpAccumulator :=
  MediaFramework.taker (fun a => a.takes q) { startTime := q.fragment.now } s.accumulators

/-- The fragments that are together once the packet is. -/
def together : List IpFragment :=
  (if (s.taker q).Free q.fragment.now then [] else (s.taker q).fragments) ++ [q.fragment]

/-- **The condition on a fragment.** Its header passes the tests, nothing stands behind the packet
in its frame, and there is memory for it. The accumulator that takes it has fragments of its
datagram only, and is not free while another one is collecting the datagram. If the bytes then add
up to the datagram, no byte of it is missing, it was not dispatched before, and it is a TCP or UDP
datagram whose checksum is zero or holds. -/
def Orderly : Prop :=
  (p.Passes ∧ p.trailer = [] ∧ p.memory = true) ∧
    (∀ f ∈ s.together (p.packet m), f.datagram = p.datagram) ∧
    ((s.taker (p.packet m)).Free p.now → ∀ b ∈ s.accumulators, ¬ b.Collects p) ∧
    (p.datagram.CountedBy (s.together (p.packet m)) →
      p.datagram.CoveredBy (s.together (p.packet m)) ∧ s.payloads p.datagram = [] ∧
        dispatchIpPayload m (parsedIpHeader m p.header) p.datagram.payload =
          some (some p.datagram.payload))

instance : Decidable (s.Orderly m p) := inferInstanceAs (Decidable (_ ∧ _ ∧ _ ∧ _))

/-! ## One fragment -/

/-- What an accumulator holds are fragments that came. -/
def Underway (fragments : List IpFragment) (a : IpAccumulator) : Prop :=
  a.bStartedAccumulation = true →
    a.fragments ≠ [] ∧ (∃ d, a.Holding d) ∧ ∀ f ∈ a.fragments, f ∈ fragments

/-- The payload is that of the datagram, and fragments have brought all of its bytes. -/
def Whole (fragments : List IpFragment) (out : Datagram × List UInt8) : Prop :=
  out.2 = out.1.payload ∧ out.1.CoveredBy (fragmentsOf out.1 fragments)

/-- What is underway came, and what was dispatched is whole. -/
structure Kept (s : IpTunnel) : Prop where
  underway : ∀ a ∈ s.accumulators, Underway s.arrived a
  whole : ∀ out ∈ s.dispatched, Whole s.arrived out

/-- A step as it has to be: a fragment, and the condition. -/
def Proper : Prop := s.Kept ∧ p.IsFragment ∧ s.Orderly m p

/-- The tunnel after a fragment: the accumulators, and a payload that is complete is dispatched. -/
def after : IpTunnel where
  arrived := s.arrived ++ [p]
  accumulators := (offer (fun a => a.takes (p.packet m)) (fun a => a.act (p.packet m))
    (({ startTime := p.now } : IpAccumulator).act (p.packet m)) s.accumulators).1
  dispatched := s.dispatched ++
    (((s.taker (p.packet m)).act (p.packet m)).2.map fun payload => (p.datagram, payload)).toList

section Step

variable {m : DataModel} {s : IpTunnel} {q : IpPacket} {p : IpFragment} {d : Datagram}

theorem Proper.tells (h : s.Proper m p) : (p.packet m).Tells := h.2.1.tells h.2.2.1.2.1

theorem taker_mem_or (s : IpTunnel) (q : IpPacket) :
    (s.taker q ∈ s.accumulators ∧ (s.taker q).Takes q) ∨
      (s.taker q = { startTime := q.fragment.now } ∧ ∀ a ∈ s.accumulators, ¬ a.Takes q) := by
  rcases taker_cases (fun a : IpAccumulator => a.takes q) { startTime := q.fragment.now }
    s.accumulators with ⟨hmem, htakes⟩ | ⟨heq, hnone⟩
  · exact .inl ⟨hmem, IpAccumulator.takes_iff.mp htakes⟩
  · exact .inr ⟨heq, fun a ha htakes => hnone a ha (IpAccumulator.takes_iff.mpr htakes)⟩

theorem taker_takes (s : IpTunnel) (q : IpPacket) : (s.taker q).Takes q := by
  rcases s.taker_mem_or q with ⟨-, htakes⟩ | ⟨heq, -⟩
  · exact htakes
  · rw [heq]
    exact .inl (.inl rfl)

/-- One that is not free is an accumulator that is there. -/
theorem taker_mem (h : ¬ (s.taker q).Free q.fragment.now) : s.taker q ∈ s.accumulators := by
  rcases s.taker_mem_or q with ⟨hmem, -⟩ | ⟨heq, -⟩
  · exact hmem
  · rw [heq] at h
    exact absurd (.inl rfl) h

theorem together_eq (s : IpTunnel) (q : IpPacket) :
    s.together q = ((s.taker q).ready q).fragments ++ [q.fragment] := by
  unfold together
  by_cases hfree : (s.taker q).Free q.fragment.now
  · rw [if_pos hfree, IpAccumulator.ready_of_free hfree]
    rfl
  · rw [if_neg hfree, IpAccumulator.ready_of_not_free hfree]

/-- The fragment comes to fragments of its own datagram. -/
theorem Proper.holding (h : s.Proper m p) :
    ((s.taker (p.packet m)).ready (p.packet m)).Holding p.datagram ∧
      ∀ f ∈ ((s.taker (p.packet m)).ready (p.packet m)).fragments, f ∈ s.arrived := by
  obtain ⟨hkept, -, -, hall, -⟩ := h
  by_cases hfree : (s.taker (p.packet m)).Free p.now
  · rw [IpAccumulator.ready_of_free hfree]
    exact ⟨IpAccumulator.begin_holding _ _ _, fun f hf => absurd hf List.not_mem_nil⟩
  · obtain ⟨hne, ⟨d, hholding⟩, harrived⟩ := hkept.underway _ (taker_mem hfree)
      (IpAccumulator.started_of_not_free hfree)
    rw [together_eq, IpAccumulator.ready_of_not_free hfree] at hall
    rw [IpAccumulator.ready_of_not_free hfree]
    obtain ⟨f, hf⟩ := List.exists_mem_of_ne_nil _ hne
    obtain rfl := (hholding.of f hf).1.symm.trans (hall f (List.mem_append_left _ hf))
    exact ⟨hholding, harrived⟩

/-- **What becomes of a fragment.** Either the bytes do not add up, and the fragment is held with
the others; or they do, and the datagram is dispatched. -/
theorem Proper.act_cases (h : s.Proper m p) :
    (¬ p.datagram.CountedBy (s.together (p.packet m)) ∧
        ∃ b, (s.taker (p.packet m)).act (p.packet m) = (b, none) ∧ b.Holding p.datagram ∧
          b.fragments = s.together (p.packet m) ∧
            b.startTime = ((s.taker (p.packet m)).ready (p.packet m)).startTime) ∨
      (p.datagram.CoveredBy (s.together (p.packet m)) ∧ s.payloads p.datagram = [] ∧
        ∃ b, (s.taker (p.packet m)).act (p.packet m) = (b, some p.datagram.payload) ∧
          b.bStartedAccumulation = false) := by
  have htogether := s.together_eq (p.packet m)
  have hcounted := h.2.2.2.2.2
  rw [htogether] at hcounted ⊢
  unfold IpAccumulator.act
  rcases IpAccumulator.act_cases (s.taker_takes (p.packet m)) h.tells h.2.2.1.2.2 h.holding.1 with
    ⟨hnot, b, hadd, hb⟩ | ⟨hcount, b, out, hadd, hout⟩
  · rw [hadd]
    exact .inl ⟨hnot, b, rfl, hb⟩
  · obtain ⟨hcovered, hnone, -⟩ := hcounted hcount
    rw [hadd, hout hcovered]
    exact .inr ⟨hcovered, hnone, _, rfl, rfl⟩

/-- A payload that is complete goes through to the clients. -/
theorem Proper.dispatchIpPayload_eq (h : s.Proper m p) :
    (((s.taker (p.packet m)).act (p.packet m)).2).elim (some none)
        (dispatchIpPayload m (parsedIpHeader m p.header)) =
      some ((s.taker (p.packet m)).act (p.packet m)).2 := by
  rcases h.act_cases with ⟨-, b, hact, -⟩ | ⟨hcovered, -, b, hact, -⟩
  · rw [hact]
    rfl
  · rw [hact]
    refine (h.2.2.2.2.2 (hcovered.counted (fun f hf => ⟨h.2.2.2.1 f hf, ?_⟩) ?_)).2.2
    · rw [together_eq] at hf
      rcases List.mem_append.mp hf with hf | hf
      · exact (h.holding.1.of f hf).2
      · obtain rfl := List.mem_singleton.mp hf
        exact h.2.1
    · have := h.2.1.pos
      have := h.2.1.le
      omega

/-- **A step.** -/
theorem Proper.step_eq (h : s.Proper m p) : step m s p = some (s.after m p) := by
  have hdispatch := h.dispatchIpPayload_eq
  have hsnd : (dispatchFragmentedIp (p.packet m) s.accumulators).2 =
      ((s.taker (p.packet m)).act (p.packet m)).2 := by
    rw [dispatchFragmentedIp_eq, IpAccumulator.fresh_eq h.tells h.2.2.1.2.2, offer_snd]
    rfl
  unfold step tunnelCallback dispatchFragmented
  rw [h.2.1.parse_eq h.2.2.1.1]
  dsimp only [Option.bind_eq_bind, Option.bind_some, Option.elim_some]
  rw [hsnd]
  rw [show (p.packet m).pIpHeader = parsedIpHeader m p.header from rfl, hdispatch,
    dispatchFragmentedIp_eq, IpAccumulator.fresh_eq h.tells h.2.2.1.2.2]
  rfl

theorem Proper.eq_after {u : IpTunnel} (h : s.Proper m p) (hs : step m s p = some u) :
    s.after m p = u := Option.some.inj (h.step_eq.symm.trans hs)

theorem Whole.mono {fragments more : List IpFragment} {out : Datagram × List UInt8}
    (h : Whole fragments out) : Whole (fragments ++ more) out := by
  refine ⟨h.1, Spanned.mono h.2 fun span hspan => ?_⟩
  obtain ⟨f, hf, rfl⟩ := List.mem_map.mp hspan
  obtain ⟨hf, hof⟩ := List.mem_filter.mp hf
  exact List.mem_map_of_mem (List.mem_filter.mpr ⟨List.mem_append_left more hf, hof⟩)

theorem Underway.mono {fragments more : List IpFragment} {a : IpAccumulator}
    (h : Underway fragments a) : Underway (fragments ++ more) a := by
  intro hstarted
  obtain ⟨hne, hholding, harrived⟩ := h hstarted
  exact ⟨hne, hholding, fun f hf => List.mem_append_left more (harrived f hf)⟩

/-- The fragments that are together came. -/
theorem Proper.together_arrived (h : s.Proper m p) :
    ∀ f ∈ s.together (p.packet m), f ∈ s.arrived ++ [p] := by
  rw [together_eq]
  intro f hf
  rcases List.mem_append.mp hf with hf | hf
  · exact List.mem_append_left [p] (h.holding.2 f hf)
  · exact List.mem_append_right s.arrived hf

theorem together_ne_nil (s : IpTunnel) (q : IpPacket) : s.together q ≠ [] :=
  List.append_ne_nil_of_right_ne_nil _ (List.cons_ne_nil q.fragment [])

theorem Proper.kept (h : s.Proper m p) : (s.after m p).Kept := by
  have harrived := h.together_arrived
  have hmono : ∀ a ∈ s.accumulators, Underway (s.arrived ++ [p]) a :=
    fun a ha => (h.1.underway a ha).mono
  rcases h.act_cases with
    ⟨-, b, hact, hb, hfragments, -⟩ | ⟨hcovered, -, b, hact, hidle⟩
  · refine ⟨offer_keeps hmono ?_, ?_⟩
    · change Underway (s.arrived ++ [p]) ((s.taker (p.packet m)).act (p.packet m)).1
      rw [hact]
      exact fun _ => ⟨hfragments ▸ s.together_ne_nil (p.packet m), ⟨_, hb⟩, hfragments ▸ harrived⟩
    · rw [after, hact]
      exact List.forall_mem_append.mpr
        ⟨fun out hout => (h.1.whole out hout).mono, fun _ hout => absurd hout List.not_mem_nil⟩
  · refine ⟨offer_keeps hmono ?_, ?_⟩
    · change Underway (s.arrived ++ [p]) ((s.taker (p.packet m)).act (p.packet m)).1
      rw [hact]
      exact fun hstarted => absurd (hidle.symm.trans hstarted) Bool.false_ne_true
    · rw [after, hact]
      refine List.forall_mem_append.mpr
        ⟨fun out hout => (h.1.whole out hout).mono, fun out hout => ?_⟩
      obtain rfl := List.mem_singleton.mp hout
      refine ⟨rfl, Spanned.mono hcovered fun span hspan => ?_⟩
      obtain ⟨f, hf, rfl⟩ := List.mem_map.mp hspan
      exact List.mem_map_of_mem (List.mem_filter.mpr
        ⟨harrived f hf, decide_eq_true (h.2.2.2.1 f hf)⟩)

end Step

/-! ## One datagram of many -/

/-- The accumulator has nothing of the datagram. -/
def Other (d : Datagram) (a : IpAccumulator) : Prop :=
  a.bStartedAccumulation = true → ∀ f ∈ a.fragments, f.datagram ≠ d

/-- Nothing of the datagram is in an accumulator. -/
def Absent (d : Datagram) : Prop := ∀ a ∈ s.accumulators, Other d a

/-- The fragments of the datagram are in one accumulator, which has begun at this time. -/
def Gathering (d : Datagram) (start : ℕ) (fragments : List IpFragment) : Prop :=
  fragments ≠ [] ∧ ¬ d.CountedBy fragments ∧
    ∃ a, Sole (Other d) a s.accumulators ∧ a.Holding d ∧ a.fragments = fragments ∧
      a.startTime = start

section Datagrams

variable {m : DataModel} {s : IpTunnel} {p : IpFragment} {d : Datagram} {start : ℕ}
  {fragments : List IpFragment} {a : IpAccumulator}

theorem filter_map_other (out : Option (List UInt8)) (hof : p.datagram ≠ d) :
    ((out.map fun payload => (p.datagram, payload)).toList.filter fun out => out.1 = d) = [] := by
  refine List.filter_eq_nil_iff.mpr fun out hout => ?_
  obtain ⟨payload, -, rfl⟩ := Option.map_eq_some_iff.mp (Option.mem_toList.mp hout)
  exact of_decide_eq_false (decide_eq_false hof) ∘ of_decide_eq_true

/-- A fragment of another datagram dispatches nothing of this one. -/
theorem payloads_other (hof : p.datagram ≠ d) :
    (s.after m p).payloads d = s.payloads d := by
  unfold payloads
  rw [after, List.filter_append, filter_map_other _ hof, List.append_nil]

/-- **A datagram that was dispatched** is not dispatched again. -/
theorem payloads_dispatched (hproper : s.Proper m p) (h : s.payloads d = [(d, d.payload)]) :
    (s.after m p).payloads d = [(d, d.payload)] := by
  by_cases hof : p.datagram = d
  · subst hof
    rcases hproper.act_cases with ⟨-, b, hact, -⟩ | ⟨-, hnone, -⟩
    · rw [after, hact]
      exact (congrArg _ (List.append_nil s.dispatched)).trans h
    · exact absurd (hnone.symm.trans h) (List.cons_ne_nil _ _).symm
  · exact (payloads_other hof).trans h

/-- An accumulator that is collecting and in time is not free. -/
theorem not_free (h : a.Holding d) (hstart : a.startTime = start)
    (htime : ¬ TimedOut ipReassemblyTimeout start p.now) : ¬ a.Free p.now := by
  rintro (hidle | hout)
  · exact Bool.false_ne_true (hidle.symm.trans h.started)
  · exact htime (hstart ▸ hout)

/-- An accumulator is not of a datagram whose fragments it holds. -/
theorem not_other (h : a.Holding d) (hne : a.fragments ≠ []) : ¬ Other d a := by
  intro hother
  obtain ⟨f, hf⟩ := List.exists_mem_of_ne_nil _ hne
  exact hother h.started f hf (h.of f hf).1

/-- What is done with a fragment of another datagram. -/
theorem Other.act (hproper : s.Proper m p) (hof : p.datagram ≠ d) :
    Other d ((s.taker (p.packet m)).act (p.packet m)).1 := by
  rcases hproper.act_cases with
    ⟨-, b, hact, hb, -⟩ | ⟨-, -, b, hact, hidle⟩
  · rw [hact]
    exact fun _ f hf => (hb.of f hf).1 ▸ hof
  · rw [hact]
    exact fun hstarted => absurd (hidle.symm.trans hstarted) Bool.false_ne_true

theorem Absent.other (h : s.Absent d) (hproper : s.Proper m p) (hof : p.datagram ≠ d) :
    (s.after m p).Absent d := by
  rw [after]
  exact offer_keeps h (Other.act hproper hof)

theorem Gathering.other (h : s.Gathering d start fragments) (hproper : s.Proper m p)
    (hof : p.datagram ≠ d) (htime : ¬ TimedOut ipReassemblyTimeout start p.now) :
    (s.after m p).Gathering d start fragments := by
  obtain ⟨hne, hcounted, a, hsole, hholding, rfl, hstart⟩ := h
  refine ⟨hne, hcounted, a, ?_, hholding, rfl, hstart⟩
  rw [after]
  refine hsole.offer_other (fun heq => ?_) (Other.act hproper hof)
  -- were it offered here, there would be fragments of two datagrams together
  have htaker : s.taker (p.packet m) = a := heq
  have hall := hproper.2.2.2.1
  rw [together_eq, htaker,
    IpAccumulator.ready_of_not_free (not_free hholding hstart htime)] at hall
  obtain ⟨f, hf⟩ := List.exists_mem_of_ne_nil _ hne
  exact hof ((hall f (List.mem_append_left [p] hf)).symm.trans (hholding.of f hf).1)

/-- **The first fragment of the datagram** begins to gather it. -/
theorem Absent.first (h : s.Absent p.datagram) (hproper : s.Proper m p) :
    (s.after m p).Gathering p.datagram p.now [p] := by
  have hfree : (s.taker (p.packet m)).Free p.now := by
    by_contra hfree
    have hstarted := IpAccumulator.started_of_not_free hfree
    have hholding := hproper.holding.1
    rw [IpAccumulator.ready_of_not_free hfree] at hholding
    exact not_other hholding (hproper.1.underway _ (taker_mem hfree) hstarted).1
      (h _ (taker_mem hfree))
  have htogether : s.together (p.packet m) = [p] := congrArg (· ++ [p]) (if_pos hfree)
  rcases hproper.act_cases with
    ⟨-, b, hact, hb, hfragments, hstart⟩ | ⟨hcovered, -⟩
  · have hsole : Sole (Other p.datagram) ((s.taker (p.packet m)).act (p.packet m)).1 (offer (fun a => a.takes (p.packet m))
        (fun a => a.act (p.packet m)) (({ startTime := p.now } : IpAccumulator).act (p.packet m)) s.accumulators).1 :=
      @offer_sole _ _ (fun a => a.takes (p.packet m)) (fun a => a.act (p.packet m)) _ s.accumulators _ h
    rw [hact] at hsole
    rw [htogether] at hfragments
    rw [IpAccumulator.ready_of_free hfree] at hstart
    rw [after]
    exact ⟨List.cons_ne_nil p [], IpAccumulator.not_counted_singleton hproper.2.1, b, hsole, hb,
      hfragments, hstart⟩
  · rw [htogether] at hcovered
    refine absurd (hcovered.counted (fun f hf => ?_) ?_)
      (IpAccumulator.not_counted_singleton hproper.2.1)
    · obtain rfl := List.mem_singleton.mp hf
      exact ⟨rfl, hproper.2.1⟩
    · have := hproper.2.1.pos
      have := hproper.2.1.le
      omega

/-- The fragment goes to where its datagram is gathered. -/
theorem taker_eq (hproper : s.Proper m p) (hsole : Sole (Other p.datagram) a s.accumulators)
    (hholding : a.Holding p.datagram) (hne : a.fragments ≠ []) (hbusy : ¬ a.Free p.now) :
    s.taker (p.packet m) = a := by
  obtain ⟨f, hf⟩ := List.exists_mem_of_ne_nil _ hne
  have hcollects : a.Collects p :=
    ⟨hbusy, (hholding.of f hf).1 ▸ List.mem_map_of_mem hf⟩
  have hnot : ¬ (s.taker (p.packet m)).Free p.now := fun hfree =>
    hproper.2.2.2.2.1 hfree a hsole.mem hcollects
  have hstarted := IpAccumulator.started_of_not_free hnot
  have hholding' := hproper.holding.1
  rw [IpAccumulator.ready_of_not_free hnot] at hholding'
  rcases hsole.eq_or _ (taker_mem hnot) with heq | hother
  · exact heq
  · exact absurd hother
      (not_other hholding' (hproper.1.underway _ (taker_mem hnot) hstarted).1)

/-- **The next fragment of the datagram** gets to where the datagram is gathered. -/
theorem Gathering.own (h : s.Gathering p.datagram start fragments) (hproper : s.Proper m p)
    (htime : ¬ TimedOut ipReassemblyTimeout start p.now) :
    (s.after m p).Gathering p.datagram start (fragments ++ [p]) ∨
      (s.after m p).payloads p.datagram = [(p.datagram, p.datagram.payload)] := by
  obtain ⟨hne, -, a, hsole, hholding, rfl, hstart⟩ := h
  have hbusy := not_free hholding hstart htime
  have htaker := taker_eq hproper hsole hholding hne hbusy
  have hready : a.ready (p.packet m) = a := IpAccumulator.ready_of_not_free hbusy
  have htogether : s.together (p.packet m) = a.fragments ++ [p] := by
    rw [together_eq, htaker, hready]
    rfl
  rcases hproper.act_cases with
    ⟨hcounted, b, hact, hb, hfragments, hstart'⟩ | ⟨-, hnone, b, hact, -⟩
  · have hsole' : Sole (Other p.datagram) (a.act (p.packet m)).1 (offer (fun a => a.takes (p.packet m))
        (fun a => a.act (p.packet m)) (({ startTime := p.now } : IpAccumulator).act (p.packet m)) s.accumulators).1 :=
      @Sole.offer_own _ _ (fun a : IpAccumulator => a.takes (p.packet m)) (fun a => a.act (p.packet m)) _ _ a _ hsole
        htaker (not_other hholding hne) (IpAccumulator.takes_iff.mpr (htaker ▸ s.taker_takes _))
    rw [htaker] at hact hstart'
    rw [hact] at hsole'
    rw [htogether] at hcounted hfragments
    rw [after]
    refine .inl ⟨List.append_ne_nil_of_left_ne_nil hne [p], hcounted, b, hsole', hb, hfragments,
      ?_⟩
    rw [hstart', hready, hstart]
  · unfold payloads at hnone ⊢
    rw [after, List.filter_append, hnone, hact]
    exact .inr (by simp)

end Datagrams

/-! ## Runs -/

section Runs

variable {m : DataModel} {s t : IpTunnel} {fragments gathered : List IpFragment} {d : Datagram} {start : ℕ}

theorem fragmentsOf_cons_own {p : IpFragment} (hof : p.datagram = d) :
    fragmentsOf d (p :: fragments) = p :: fragmentsOf d fragments :=
  List.filter_cons_of_pos (decide_eq_true hof)

theorem fragmentsOf_cons_other {p : IpFragment} (hof : p.datagram ≠ d) :
    fragmentsOf d (p :: fragments) = fragmentsOf d fragments :=
  List.filter_cons_of_neg fun h => hof (of_decide_eq_true h)

/-- Fragments of other datagrams do nothing to this one. -/
theorem Absent.run (h : s.Absent d) (hproper : EachStep (step m) (Proper m) s fragments)
    (hof : ∀ p ∈ fragments, p.datagram ≠ d) (hrun : runFrom (step m) s fragments = some t) :
    t.Absent d := by
  induction fragments generalizing s with
  | nil =>
    cases hrun
    exact h
  | cons p fragments ih =>
    obtain ⟨hp, hof⟩ := List.forall_mem_cons.mp hof
    rw [runFrom_cons, hproper.1.step_eq] at hrun
    exact ih (h.other hproper.1 hp) (hproper.2 _ hproper.1.step_eq) hof hrun

/-- **A datagram that was dispatched** is dispatched once. -/
theorem payloads_run (h : s.payloads d = [(d, d.payload)])
    (hproper : EachStep (step m) (Proper m) s fragments)
    (hrun : runFrom (step m) s fragments = some t) : t.payloads d = [(d, d.payload)] :=
  EachStep.invariant (I := fun u => u.payloads d = [(d, d.payload)]) (fun s p u h hp hs => by
    obtain rfl := hp.eq_after hs
    exact payloads_dispatched hp h) hproper h hrun

/-- **A datagram that is being gathered** is dispatched when its fragments have all come. -/
theorem Gathering.run (h : s.Gathering d start gathered)
    (hproper : EachStep (step m) (Proper m) s fragments)
    (htime : ∀ p ∈ fragments, ¬ TimedOut ipReassemblyTimeout start p.now)
    (hcovered : d.CoveredBy (gathered ++ fragmentsOf d fragments))
    (hrun : runFrom (step m) s fragments = some t) : t.payloads d = [(d, d.payload)] := by
  induction fragments generalizing s gathered with
  | nil =>
    obtain ⟨hne, hcounted, a, -, hholding, rfl, -⟩ := h
    rw [fragmentsOf, List.filter_nil, List.append_nil] at hcovered
    refine absurd (hcovered.counted hholding.of ?_) hcounted
    obtain ⟨f, hf⟩ := List.exists_mem_of_ne_nil _ hne
    obtain ⟨rfl, hfragment⟩ := hholding.of f hf
    have := hfragment.pos
    have := hfragment.le
    omega
  | cons p fragments ih =>
    obtain ⟨hp, htime⟩ := List.forall_mem_cons.mp htime
    have hrest := hproper.2 _ hproper.1.step_eq
    rw [runFrom_cons, hproper.1.step_eq] at hrun
    by_cases hof : p.datagram = d
    · subst hof
      rw [fragmentsOf_cons_own rfl, List.append_cons] at hcovered
      rcases h.own hproper.1 hp with hgathering | hdispatched
      · exact ih hgathering hrest htime hcovered hrun
      · exact payloads_run hdispatched hrest hrun
    · rw [fragmentsOf_cons_other hof] at hcovered
      exact ih (h.other hproper.1 hof hp) hrest htime hcovered hrun

theorem arrived_of_run (hproper : EachStep (step m) (Proper m) s fragments)
    (hrun : runFrom (step m) s fragments = some t) : t.arrived = s.arrived ++ fragments := by
  induction fragments generalizing s with
  | nil =>
    obtain rfl := Option.some.inj hrun
    exact (List.append_nil s.arrived).symm
  | cons p fragments ih =>
    rw [runFrom_cons, hproper.1.step_eq] at hrun
    rw [ih (hproper.2 _ hproper.1.step_eq) hrun]
    exact List.append_assoc s.arrived [p] fragments

/-- What the condition gives from the start on. -/
theorem proper_of_orderly (hfragments : ∀ p ∈ fragments, p.IsFragment)
    (horderly : EachStep (step m) (Orderly m) {} fragments) :
    EachStep (step m) (Proper m) {} fragments :=
  EachStep.and_invariant (fun s p u h hp hs => by
    have hproper : s.Proper m p := ⟨h, hp⟩
    exact hproper.eq_after hs ▸ hproper.kept) ((EachStep.of_forall hfragments).and horderly)
    ⟨fun a ha => absurd ha List.not_mem_nil, fun out hout => absurd hout List.not_mem_nil⟩

end Runs

/-- **Datagrams are reassembled.** A run of fragments that each meet the condition goes through.
Every payload that is dispatched is that of a datagram of which all bytes came, and every datagram
whose fragments come in time is dispatched once. -/
theorem datagrams_reassembled {m : DataModel} {fragments : List IpFragment}
    (hfragments : ∀ p ∈ fragments, p.IsFragment)
    (horderly : EachStep (step m) (Orderly m) {} fragments) :
    ∃ s, runFrom (step m) {} fragments = some s ∧ s.Reassembles fragments := by
  have hproper := proper_of_orderly hfragments horderly
  obtain ⟨s, hrun⟩ := EachStep.run_defined_iff.mpr
    (hproper.mono fun s p hp => ⟨s.after m p, hp.step_eq⟩)
  refine ⟨s, hrun, ?_, fun d front mid back hsplit hfront hhead htime hcovered => ?_⟩
  · have hkept : s.Kept := EachStep.invariant (fun s p u _ hp hs => by
      exact hp.eq_after hs ▸ hp.kept) hproper
      ⟨fun a ha => absurd ha List.not_mem_nil, fun out hout => absurd hout List.not_mem_nil⟩ hrun
    have harrived : s.arrived = fragments := arrived_of_run hproper hrun
    exact harrived ▸ hkept.whole
  · rw [hsplit, List.append_assoc] at hproper hrun
    rw [runFrom_append] at hrun
    obtain ⟨s₁, hrun₁, hrun⟩ := Option.bind_eq_some_iff.mp hrun
    rw [runFrom_append] at hrun
    obtain ⟨s₂, hrun₂, hrun₃⟩ := Option.bind_eq_some_iff.mp hrun
    have habsent : Absent {} d := fun a ha => absurd ha List.not_mem_nil
    have habsent₁ := habsent.run hproper.left hfront hrun₁
    have hproper₁ := hproper.right hrun₁
    refine payloads_run ?_ (hproper₁.right hrun₂) hrun₃
    -- the first of the datagram's fragments begins to gather it
    cases mid with
    | nil => cases hhead
    | cons p mid =>
      obtain rfl := Option.some.inj hhead
      have hfirst := hproper₁.left.1
      rw [fragmentsOf_cons_own rfl] at hcovered
      rw [runFrom_cons, hfirst.step_eq] at hrun₂
      exact (habsent₁.first hfirst).run (hproper₁.left.2 _ hfirst.step_eq)
        (fun q hq => htime p rfl q (List.mem_cons_of_mem p hq)) hcovered hrun₂

/-- A datagram of twenty-four bytes, without a checksum. -/
def exampleDatagram (nIdentification b : UInt8) : Datagram where
  id := ⟨0x01005E000001, 0x0800, 4, nIdentification.toNat, 0x11, 0x0A000001, 0xC0A80002⟩
  payload := [0, 1, 0, 2, 0, 24, 0, 0] ++ List.replicate 16 b

/-- The header of a fragment of eight bytes. -/
def exampleHeader (nIdentification offset : UInt8) : List UInt8 :=
  let front := [0x45, 0, 0, 28, 0, nIdentification, if offset = 2 then 0 else 0x20, offset, 64, 0x11]
  let back := [10, 0, 0, 1, 0xC0, 0xA8, 0, 2]
  front ++ toOctets 2 (0xFFFF - reduce (wordsOf (front ++ back)).sum) ++ back

/-- Eight bytes of the datagram. -/
def exampleFragment (nIdentification b offset : UInt8) : IpFragment where
  datagram := exampleDatagram nIdentification b
  fragOffset := 8 * offset.toNat
  length := 8
  eth := [1, 0, 0x5E, 0, 0, 1, 2, 0, 0, 0, 0, 1, 8, 0]
  header := exampleHeader nIdentification offset

/-- Fragments of two datagrams, some before others and one of them twice. -/
def twoDatagrams : List IpFragment :=
  [exampleFragment 1 0xAA 2, exampleFragment 2 0xBB 0, exampleFragment 1 0xAA 0,
    exampleFragment 2 0xBB 0, exampleFragment 2 0xBB 1, exampleFragment 2 0xBB 2,
    exampleFragment 1 0xAA 1]

theorem datagrams_reassembled_two :
    ∃ s, runFrom (step .lp64) {} twoDatagrams = some s ∧ s.Reassembles twoDatagrams :=
  datagrams_reassembled (by decide +kernel) (by decide +kernel)

/-- The first fragment of a datagram comes twice, and then its last one. -/
def firstTwice : List IpFragment :=
  [exampleFragment 1 0xAA 0, exampleFragment 1 0xAA 0, exampleFragment 1 0xAA 2]

/-- **A datagram is dispatched with a hole**: the bytes of its three fragments add up. -/
theorem datagram_dispatched_early : (∀ p ∈ firstTwice, p.IsFragment) ∧
    ∃ s, runFrom (step .lp64) {} firstTwice = some s ∧ ¬ s.Reassembles firstTwice := by
  have hrun : ((runFrom (step .lp64) {} firstTwice).map fun s =>
      decide (∀ out ∈ s.dispatched, out.2 = out.1.payload)) = some false := by decide +kernel
  obtain ⟨s, hs, hwrong⟩ := Option.map_eq_some_iff.mp hrun
  exact ⟨by decide +kernel, s, hs,
    fun h => of_decide_eq_false hwrong fun out hout => (h.whole out hout).1⟩

end IpTunnel

end MediaFramework
