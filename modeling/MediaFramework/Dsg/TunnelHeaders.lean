import MediaFramework.Pod.BufParse

/-!
# The headers of a packet from a DSG tunnel (`vlDsgTunnelParser.c`)

A packet is an Ethernet header, an IP header with options, a TCP or a UDP header and a payload. The
parser of the IP header reads the options before the addresses, while the addresses stand before the
options. So it takes the right number of bytes, but from a header with options the addresses are its
last eight bytes. An address is read as an `int`, which an `unsigned long` of 64 bits holds with its
sign.
-/

namespace MediaFramework

/-! ## The parsers -/

/-- `VL_DSG_ETH_HEADER` -/
structure DsgEthHeader where
  dstMacAddress : ℕ := 0
  srcMacAddress : ℕ := 0
  eTypeCode : ℕ := 0
  deriving DecidableEq

/-- `VL_DSG_IP_HEADER` -/
structure DsgIpHeader where
  version : ℕ := 0
  headerLength : ℕ := 0
  serviceType : ℕ := 0
  nTotalLength : ℕ := 0
  nIdentification : ℕ := 0
  bDontFragment : ℕ := 0
  bMoreFragments : ℕ := 0
  fragOffset : ℕ := 0
  timeToLive : ℕ := 0
  eProtocol : ℕ := 0
  headerCRC : ℕ := 0
  srcIpAddress : ℕ := 0
  dstIpAddress : ℕ := 0
  deriving DecidableEq

/-- `VL_DSG_TCP_HEADER` -/
structure DsgTcpHeader where
  nSrcPort : ℕ := 0
  nDstPort : ℕ := 0
  nSeqNum : ℕ := 0
  nAckNum : ℕ := 0
  nDataOffsetRsvd : ℕ := 0
  nFlags : ℕ := 0
  nWindowSize : ℕ := 0
  nChecksum : ℕ := 0
  nUrgent : ℕ := 0
  deriving DecidableEq

/-- `VL_DSG_UDP_HEADER` -/
structure DsgUdpHeader where
  nSrcPort : ℕ := 0
  nDstPort : ℕ := 0
  nLength : ℕ := 0
  nChecksum : ℕ := 0
  deriving DecidableEq

section Parsers

variable (m : DataModel) (mem : List UInt8) (s : BufStream)

/-- `vlParseDsgEthHeader` -/
def vlParseDsgEthHeader : Option (DsgEthHeader × BufStream) := do
  let (dstMacAddress, s) ← s.vlParse6ByteLong mem
  let (srcMacAddress, s) ← s.vlParse6ByteLong mem
  let (eTypeCode, s) ← s.vlParseShort mem
  return (⟨dstMacAddress, srcMacAddress, eTypeCode⟩, s)

/-- The options, which both headers read into `vlg_TcpOptions`. -/
def vlParseDsgOptions (nIHL : ℤ) : Option BufStream := do
  if 0 < nIHL then
    let (_, s) ← s.vlParseBuffer mem true nIHL 1024
    return s
  else return s

/-- `vlParseDsgIpHeader` -/
def vlParseDsgIpHeader : Option (DsgIpHeader × BufStream) := do
  let (b, s) ← s.vlParseByte mem
  let headerLength := b &&& 0xF
  let version := b >>> 4 &&& 0xF
  if version ≠ 4 then return ({ version := version, headerLength := headerLength }, s)
  let (serviceType, s) ← s.vlParseByte mem
  let (nTotalLength, s) ← s.vlParseShort mem
  let (nIdentification, s) ← s.vlParseShort mem
  let (fragOffset, s) ← s.vlParseShort mem
  let bDontFragment := fragOffset >>> 14 &&& 0x1
  let bMoreFragments := fragOffset >>> 13 &&& 0x1
  let (timeToLive, s) ← s.vlParseByte mem
  let (eProtocol, s) ← s.vlParseByte mem
  let (headerCRC, s) ← s.vlParseShort mem
  let s ← vlParseDsgOptions mem s (((headerLength : ℤ) - 5) * 4)
  let (srcIpAddress, s) ← s.vlParseLong mem m
  let (dstIpAddress, s) ← s.vlParseLong mem m
  return (⟨version, headerLength, serviceType, nTotalLength, nIdentification, bDontFragment,
    bMoreFragments, 8 * (fragOffset &&& 0x1FFF), timeToLive, eProtocol, headerCRC, srcIpAddress,
    dstIpAddress⟩, s)

/-- `vlParseDsgTcpHeader` -/
def vlParseDsgTcpHeader : Option (DsgTcpHeader × BufStream) := do
  let (nSrcPort, s) ← s.vlParseShort mem
  let (nDstPort, s) ← s.vlParseShort mem
  let (nSeqNum, s) ← s.vlParseLong mem m
  let (nAckNum, s) ← s.vlParseLong mem m
  let (nDataOffsetRsvd, s) ← s.vlParseByte mem
  let (nFlags, s) ← s.vlParseByte mem
  let (nWindowSize, s) ← s.vlParseShort mem
  let (nChecksum, s) ← s.vlParseShort mem
  let (nUrgent, s) ← s.vlParseShort mem
  let s ← vlParseDsgOptions mem s (((nDataOffsetRsvd >>> 4 &&& 0xF : ℕ) - 5) * 4)
  return (⟨nSrcPort, nDstPort, nSeqNum, nAckNum, nDataOffsetRsvd, nFlags, nWindowSize, nChecksum,
    nUrgent⟩, s)

/-- `vlParseDsgUdpHeader` -/
def vlParseDsgUdpHeader : Option (DsgUdpHeader × BufStream) := do
  let (nSrcPort, s) ← s.vlParseShort mem
  let (nDstPort, s) ← s.vlParseShort mem
  let (nLength, s) ← s.vlParseShort mem
  let (nChecksum, s) ← s.vlParseShort mem
  return (⟨nSrcPort, nDstPort, nLength, nChecksum⟩, s)

/-- The switch of `vlDsgDispatchIpPayload`: the ports. -/
def vlParseDsgPorts (eProtocol : ℕ) : Option ((ℕ × ℕ) × BufStream) :=
  if eProtocol = 0x06 then do
    let (tcp, s) ← vlParseDsgTcpHeader m mem s
    return ((tcp.nSrcPort, tcp.nDstPort), s)
  else if eProtocol = 0x11 then do
    let (udp, s) ← vlParseDsgUdpHeader mem s
    return ((udp.nSrcPort, udp.nDstPort), s)
  else none

/-- What is known of a packet when its payload is reached. -/
structure TunnelHeaders where
  srcIpAddress : ℕ
  dstIpAddress : ℕ
  nSrcPort : ℕ
  nDstPort : ℕ
  /-- where the payload begins -/
  payload : ℤ
  deriving DecidableEq

/-- The headers of a packet, one after another. The last one is read from a stream over what follows
the IP header. -/
def vlParseTunnelHeaders : Option TunnelHeaders := do
  let (_, s) ← vlParseDsgEthHeader mem (BufStream.inst mem)
  let (ip, s) ← vlParseDsgIpHeader m mem s
  let ((nSrcPort, nDstPort), s) ← vlParseDsgPorts m mem (s.child s.remainder) ip.eProtocol
  return ⟨ip.srcIpAddress, ip.dstIpAddress, nSrcPort, nDstPort, s.currentBuf⟩

end Parsers

/-! ## Packets -/

/-- An IPv4 packet with its Ethernet header, a size that an `int` holds. -/
structure TunnelPacket where
  eth : List UInt8
  /-- with the options -/
  ip : List UInt8
  transport : List UInt8
  payload : List UInt8
  headerLength : ℕ
  length_eth : eth.length = 14
  length_ip : ip.length = 4 * headerLength
  headerLength_spec : 5 ≤ headerLength ∧ headerLength ≤ 15
  version_spec : octet ip 0 = some (0x40 + headerLength)
  transport_spec :
    (octet ip 9 = some 0x11 ∧ transport.length = 8) ∨
    (octet ip 9 = some 0x06 ∧ ∃ offset b, 5 ≤ offset ∧ offset ≤ 15 ∧
      transport.length = 4 * offset ∧ octet transport 12 = some b ∧ b >>> 4 = offset)
  length_spec : eth.length + ip.length + transport.length + payload.length < 2 ^ 31

namespace TunnelPacket

variable (p : TunnelPacket)

/-- The bytes of the packet. -/
def bytes : List UInt8 := p.eth ++ p.ip ++ p.transport ++ p.payload

/-- A number in one of the headers. -/
def field (header : List UInt8) (i n : ℕ) : ℕ := ofOctets ((header.drop i).take n)

/-- **The headers are right**: the addresses are bytes 12 to 19 of the IP header, the ports the
first bytes behind that header, and the payload is reached. -/
def HeadersWell (m : DataModel) : Prop :=
  vlParseTunnelHeaders m p.bytes = some {
    srcIpAddress := field p.ip 12 4
    dstIpAddress := field p.ip 16 4
    nSrcPort := field p.transport 0 2
    nDstPort := field p.transport 2 2
    payload := (p.eth ++ p.ip ++ p.transport).length }

end TunnelPacket

/-! ## What the parsers read -/

section Reads

open BufStream TunnelPacket

variable {m : DataModel} {mem header rest : List UInt8} {s : BufStream} {i n : ℕ}

theorem field_of_octet {b : ℕ} (h : octet header i = some b) : field header i 1 = b := by
  obtain ⟨x, hx, rfl⟩ := Option.map_eq_some_iff.mp h
  obtain ⟨hlt, rfl⟩ := List.getElem?_eq_some_iff.mp hx
  rw [field, List.drop_eq_getElem_cons hlt]
  exact Nat.zero_or _

/-- Some bytes of a header. -/
theorem ahead_header (h : s.Ahead mem (header ++ rest)) (hin : i + n ≤ header.length) :
    (s.advanceBuf i).Ahead mem ((header.drop i).take n) := by
  have hsplit : header ++ rest = header.take i ++ ((header.drop i).take n ++
      ((header.drop i).drop n ++ rest)) := by
    rw [← List.append_assoc _ _ rest, List.take_append_drop, ← List.append_assoc,
      List.take_append_drop]
  rw [hsplit] at h
  have htake := (h.append (header.take i)).2
  rw [List.length_take_of_le (by omega)] at htake
  exact (htake.append ((header.drop i).take n)).1

/-- A read at a place of a header. -/
theorem readNByteLong_header (h : s.Ahead mem (header ++ rest)) (hin : i + n ≤ header.length) :
    (s.advanceBuf i).readNByteLong mem n =
      some (field header i n, s.advanceBuf (i + n : ℕ)) := by
  have hlength : ((header.drop i).take n).length = n :=
    List.length_take_of_le (by rw [List.length_drop]; omega)
  have hread := readNByteLong_of_ahead (ahead_header h hin)
  rw [hlength, advanceBuf_advanceBuf] at hread
  exact hread

/-- A read, and what is done with what was read. -/
theorem read_then {α : Type} {f : ℕ × BufStream → Option α} {r : Option α}
    (h : s.Ahead mem (header ++ rest)) (hin : i + n ≤ header.length)
    (hf : f (field header i n, s.advanceBuf (i + n : ℕ)) = r) :
    ((s.advanceBuf i).readNByteLong mem n >>= f) = r := by
  rw [readNByteLong_header h hin]
  exact hf

/-- A read of an `unsigned long`, and what is done with it. -/
theorem readLong_then {α : Type} {f : ℕ × BufStream → Option α} {r : Option α}
    (h : s.Ahead mem (header ++ rest)) (hin : i + 4 ≤ header.length)
    (hf : f (m.ofInt (field header i 4), s.advanceBuf (i + 4 : ℕ)) = r) :
    ((s.advanceBuf i).vlParseLong mem m >>= f) = r := by
  rw [vlParseLong, readNByteLong_header h hin]
  exact hf

/-- The options: four bytes for each word of the header beyond the fifth. -/
theorem vlParseDsgOptions_header (h : s.Ahead mem (header ++ rest)) {words : ℕ}
    (hwords : 5 ≤ words) (hin : i + 4 * (words - 5) ≤ header.length) :
    vlParseDsgOptions mem (s.advanceBuf i) (((words : ℤ) - 5) * 4) =
      some (s.advanceBuf (i + 4 * (words - 5) : ℕ)) := by
  have hsize : ((words : ℤ) - 5) * 4 = (4 * (words - 5) : ℕ) := by omega
  rw [vlParseDsgOptions, hsize]
  split_ifs with hoptions
  · have hlength : ((header.drop i).take (4 * (words - 5))).length = 4 * (words - 5) :=
      List.length_take_of_le (by rw [List.length_drop]; omega)
    have hread := vlParseBuffer_of_ahead (ahead_header h hin) true 1024
    rw [hlength] at hread
    dsimp only [Option.bind_eq_bind]
    rw [hread, Option.bind_some, advanceBuf_advanceBuf]
    rfl
  · have hnone : 4 * (words - 5) = 0 := by omega
    rw [hnone]
    rfl

theorem vlParseDsgEthHeader_header (h : s.Ahead mem (header ++ rest))
    (hlength : header.length = 14) :
    vlParseDsgEthHeader mem s =
      some (⟨field header 0 6, field header 6 6, field header 12 2⟩, s.advanceBuf (14 : ℕ)) := by
  nth_rewrite 1 [← h.advanceBuf_zero]
  iterate 3 refine read_then h (by omega) ?_
  rfl

theorem vlParseDsgUdpHeader_header (h : s.Ahead mem (header ++ rest))
    (hlength : header.length = 8) :
    vlParseDsgUdpHeader mem s =
      some (⟨field header 0 2, field header 2 2, field header 4 2, field header 6 2⟩,
        s.advanceBuf (8 : ℕ)) := by
  nth_rewrite 1 [← h.advanceBuf_zero]
  iterate 4 refine read_then h (by omega) ?_
  rfl

theorem vlParseDsgTcpHeader_header (h : s.Ahead mem (header ++ rest)) {offset : ℕ}
    (hoffset : field header 12 1 >>> 4 = offset) (hrange : 5 ≤ offset ∧ offset ≤ 15)
    (hlength : header.length = 4 * offset) :
    vlParseDsgTcpHeader m mem s =
      some (⟨field header 0 2, field header 2 2, m.ofInt (field header 4 4),
        m.ofInt (field header 8 4), field header 12 1, field header 13 1, field header 14 2, field header 16 2,
        field header 18 2⟩, s.advanceBuf (4 * offset : ℕ)) := by
  have hmask : ∀ n ≤ 15, n &&& 0xF = n := by decide
  have hoptions := vlParseDsgOptions_header (i := 20) h hrange.1 (by omega)
  have hend : 20 + 4 * (offset - 5) = 4 * offset := by omega
  nth_rewrite 1 [← h.advanceBuf_zero]
  iterate 2 refine read_then h (by omega) ?_
  iterate 2 refine readLong_then h (by omega) ?_
  iterate 5 refine read_then h (by omega) ?_
  dsimp only [Nat.zero_add, Nat.reduceAdd]
  rw [hoffset, hmask offset hrange.2, hoptions, hend]
  rfl

/-- The IP header as it is parsed. As the addresses its last eight bytes are taken. -/
def parsedIpHeader (m : DataModel) (header : List UInt8) : DsgIpHeader where
  version := 4
  headerLength := header.length / 4
  serviceType := field header 1 1
  nTotalLength := field header 2 2
  nIdentification := field header 4 2
  bDontFragment := field header 6 2 >>> 14 &&& 0x1
  bMoreFragments := field header 6 2 >>> 13 &&& 0x1
  fragOffset := 8 * (field header 6 2 &&& 0x1FFF)
  timeToLive := field header 8 1
  eProtocol := field header 9 1
  headerCRC := field header 10 2
  srcIpAddress := m.ofInt (field header (header.length - 8) 4)
  dstIpAddress := m.ofInt (field header (header.length - 4) 4)

/-- **The IP header** is passed. -/
theorem vlParseDsgIpHeader_header (h : s.Ahead mem (header ++ rest)) {words : ℕ}
    (hversion : field header 0 1 = 0x40 + words) (hrange : 5 ≤ words ∧ words ≤ 15)
    (hlength : header.length = 4 * words) :
    vlParseDsgIpHeader m mem s = some (parsedIpHeader m header, s.advanceBuf (4 * words : ℕ)) := by
  have hmask : ∀ n ≤ 15, 0x40 + n &&& 0xF = n ∧ (0x40 + n) >>> 4 &&& 0xF = 4 := by decide
  obtain ⟨hlow, hhigh⟩ := hmask words hrange.2
  have hoptions := vlParseDsgOptions_header (i := 12) h hrange.1 (by omega)
  have hsrc : 12 + 4 * (words - 5) = header.length - 8 := by omega
  have hdst : header.length - 8 + 4 = header.length - 4 := by omega
  have hend : header.length - 4 + 4 = 4 * words := by omega
  have hwords : header.length / 4 = words := by omega
  nth_rewrite 1 [← h.advanceBuf_zero]
  refine read_then h (by omega) ?_
  dsimp only
  rw [hversion, hlow, hhigh, if_neg (by decide)]
  iterate 7 refine read_then h (by omega) ?_
  rw [hoptions, hsrc]
  iterate 2 refine readLong_then h (by omega) ?_
  rw [hdst, hend, parsedIpHeader, hwords]
  rfl

/-- The chain, from what each parser does. -/
theorem vlParseTunnelHeaders_of {eth : DsgEthHeader} {ip : DsgIpHeader} {ports : ℕ × ℕ}
    {s₁ s₂ s₃ : BufStream} (heth : vlParseDsgEthHeader mem (inst mem) = some (eth, s₁))
    (hip : vlParseDsgIpHeader m mem s₁ = some (ip, s₂))
    (hports : vlParseDsgPorts m mem (s₂.child s₂.remainder) ip.eProtocol = some (ports, s₃)) :
    vlParseTunnelHeaders m mem =
      some ⟨ip.srcIpAddress, ip.dstIpAddress, ports.1, ports.2, s₃.currentBuf⟩ := by
  simp only [vlParseTunnelHeaders, heth, hip, hports, Option.bind_eq_bind, Option.bind_some]
  rfl

/-- Two adjacent fields of four bytes. -/
theorem field_field_eq_iff {j : ℕ} (hi : i + 8 ≤ header.length) (hj : j + 8 ≤ header.length) :
    field header i 4 = field header j 4 ∧ field header (i + 4) 4 = field header (j + 4) 4 ↔
      (header.drop i).take 8 = (header.drop j).take 8 := by
  have hlength : ∀ {k : ℕ}, k + 4 ≤ header.length → ((header.drop k).take 4).length = 4 :=
    fun hk => List.length_take_of_le (by rw [List.length_drop]; omega)
  have hsplit : ∀ k, (header.drop k).take 8 =
      (header.drop k).take 4 ++ (header.drop (k + 4)).take 4 := by
    intro k
    rw [← List.drop_drop, ← List.take_add]
  rw [hsplit, hsplit]
  constructor
  · rintro ⟨hfirst, hsecond⟩
    rw [eq_of_ofOctets_eq ((hlength (by omega)).trans (hlength (by omega)).symm) hfirst,
      eq_of_ofOctets_eq ((hlength (by omega)).trans (hlength (by omega)).symm) hsecond]
  · intro h
    obtain ⟨hfirst, hsecond⟩ :=
      List.append_inj h ((hlength (by omega)).trans (hlength (by omega)).symm)
    exact ⟨congrArg ofOctets hfirst, congrArg ofOctets hsecond⟩

end Reads

namespace TunnelPacket

variable (m : DataModel) (p : TunnelPacket)

/-- The ports. -/
theorem vlParseDsgPorts_transport {mem : List UInt8} {s : BufStream}
    (h : s.Ahead mem (p.transport ++ p.payload)) :
    vlParseDsgPorts m mem s (field p.ip 9 1) =
      some ((field p.transport 0 2, field p.transport 2 2), s.advanceBuf p.transport.length) := by
  rw [vlParseDsgPorts]
  rcases p.transport_spec with ⟨hudp, hlength⟩ |
    ⟨htcp, offset, b, hlow, hhigh, hlength, hb, hoffset⟩
  · rw [field_of_octet hudp, if_neg (by decide), if_pos rfl, vlParseDsgUdpHeader_header h hlength,
      hlength]
    rfl
  · rw [← field_of_octet hb] at hoffset
    rw [field_of_octet htcp, if_pos rfl, vlParseDsgTcpHeader_header h hoffset ⟨hlow, hhigh⟩ hlength,
      hlength]
    rfl

/-- **What the parsers make of a packet.** -/
theorem vlParseTunnelHeaders_bytes : vlParseTunnelHeaders m p.bytes = some {
    srcIpAddress := m.ofInt (field p.ip (4 * p.headerLength - 8) 4)
    dstIpAddress := m.ofInt (field p.ip (4 * p.headerLength - 4) 4)
    nSrcPort := field p.transport 0 2
    nDstPort := field p.transport 2 2
    payload := (p.eth ++ p.ip ++ p.transport).length } := by
  have hahead : (BufStream.inst p.bytes).Ahead p.bytes
      (p.eth ++ (p.ip ++ (p.transport ++ p.payload))) := by
    have hbytes : p.eth ++ (p.ip ++ (p.transport ++ p.payload)) = p.bytes := by
      simp only [bytes, List.append_assoc]
    rw [hbytes]
    refine BufStream.ahead_inst ?_
    have := p.length_spec
    simp only [bytes, List.length_append]
    omega
  have hip := (hahead.append p.eth).2
  have htransport := (hip.append p.ip).2
  have hparse :=
    vlParseDsgIpHeader_header (m := m) hip (field_of_octet p.version_spec) p.headerLength_spec p.length_ip
  rw [← p.length_ip] at hparse
  have heth := vlParseDsgEthHeader_header hahead p.length_eth
  rw [← p.length_eth] at heth
  have hplace := (htransport.child_remainder.currentBuf_advanceBuf (n := p.transport.length)
    (by rw [List.length_append]; omega))
  rw [BufStream.currentBuf_child, hip.currentBuf_advanceBuf (by rw [List.length_append]; omega),
    hahead.currentBuf_advanceBuf (by rw [List.length_append]; omega)] at hplace
  have hports := vlParseDsgPorts_transport m p htransport.child_remainder
  rw [vlParseTunnelHeaders_of heth hparse hports, hplace, ← p.length_ip, List.length_append,
    List.length_append, Int.natCast_add, Int.natCast_add,
    show (BufStream.inst p.bytes).currentBuf = 0 from rfl, Int.zero_add]
  rfl

theorem field_lt (header : List UInt8) (i : ℕ) : field header i 4 < 2 ^ 32 := by
  have hlength := List.length_take_le 4 (header.drop i)
  calc field header i 4 < 256 ^ ((header.drop i).take 4).length := ofOctets_lt _
    _ ≤ 256 ^ 4 := Nat.pow_le_pow_right (by decide) hlength
    _ = 2 ^ 32 := by decide

/-- **The headers are right** just if the last eight bytes of the IP header are its bytes 12 to 19,
as they are where there are no options, and an `unsigned long` has 32 bits or both addresses lie
below 128.0.0.0. -/
theorem headersWell_iff : p.HeadersWell m ↔
    (p.ip.drop (p.ip.length - 8)).take 8 = (p.ip.drop 12).take 8 ∧
      (m = .lp64 → field p.ip 12 4 < 2 ^ 31 ∧ field p.ip 16 4 < 2 ^ 31) := by
  have hlength := p.length_ip
  have hrange := p.headerLength_spec
  have hsrc := DataModel.ofInt_eq_iff (m := m) (field_lt p.ip (4 * p.headerLength - 8))
    (field_lt p.ip 12)
  have hdst := DataModel.ofInt_eq_iff (m := m) (field_lt p.ip (4 * p.headerLength - 4))
    (field_lt p.ip 16)
  rw [HeadersWell, vlParseTunnelHeaders_bytes, Option.some_inj, TunnelHeaders.mk.injEq, hsrc, hdst,
    hlength, ← field_field_eq_iff (by omega) (by omega),
    show 4 * p.headerLength - 8 + 4 = 4 * p.headerLength - 4 by omega, imp_and]
  exact ⟨fun ⟨⟨hs, hs'⟩, ⟨hd, hd'⟩, _⟩ => ⟨⟨hs, hd⟩, hs', hd'⟩,
    fun ⟨⟨hs, hd⟩, hs', hd'⟩ => ⟨⟨hs, hs'⟩, ⟨hd, hd'⟩, rfl, rfl, rfl⟩⟩

/-- A UDP packet with one word of options, which is taken for the destination address. -/
def withOptions : TunnelPacket where
  eth := List.replicate 12 0 ++ [0x08, 0x00]
  ip := [0x46, 0, 0, 32, 0, 0, 0, 0, 64, 0x11, 0, 0, 10, 0, 0, 1, 10, 0, 0, 2, 0x94, 4, 0, 0]
  transport := [0x12, 0x34, 0x56, 0x78, 0, 8, 0, 0]
  payload := []
  headerLength := 6
  length_eth := rfl
  length_ip := rfl
  headerLength_spec := by decide
  version_spec := rfl
  transport_spec := .inl ⟨rfl, rfl⟩
  length_spec := by decide

/-- The addresses of the packet are lost whatever an `unsigned long` is. -/
theorem not_headersWell_withOptions :
    ¬ withOptions.HeadersWell .ilp32 ∧ ¬ withOptions.HeadersWell .lp64 := by
  unfold HeadersWell
  decide

end TunnelPacket

end MediaFramework
