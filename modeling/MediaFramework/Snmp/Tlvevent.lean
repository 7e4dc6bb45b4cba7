import MediaFramework.Snmp.ByteStream
import MediaFramework.Snmp.TlvConfigObjs

/-!
# The parsers of TLV 217 (`Tlvevent.cpp`)

One parser for each type that is configured, and one for the TLVs of all types. A parser makes its
child stream first, so that its parent stands behind the TLV however the parser returns.
-/

namespace MediaFramework

open VlByteStream TlvConfig

/-! ## Values -/

/-- `MAX_TLV_217_SIZE` -/
def maxTlv217Size : ℕ := 256

/-- A number as an `int`. -/
def asInt (n : ℕ) : ℤ := (BitVec.ofNat 32 n).toInt

/-- `vlSnmpProcessTlv217Field` -/
def vlSnmpProcessTlv217Field (pParentStream : VlByteStream) (nParentLength : ℕ) :
    Option (List UInt8 × VlByteStream) := do
  let acollectBytes := List.replicate maxTlv217Size 0
  let (acollectBytes, _) ←
    vlParseBuffer (pParentStream.child nParentLength) acollectBytes nParentLength
  return (acollectBytes.take (min nParentLength maxTlv217Size),
    pParentStream.advanceBuf nParentLength)

/-- `VL_DUMP_BUFFER_CHAR` -/
def vlDumpBufferChar (ch : UInt8) : UInt8 := if 32 ≤ ch ∧ ch ≤ 127 then ch else 46

/-- `vlGetCharParseBuff` -/
def vlGetCharParseBuff (buffparse : List UInt8) (lenght : ℕ) : Option (List UInt8) :=
  (List.range lenght).mapM fun i => (buffparse[i]?).map vlDumpBufferChar

/-- `vlGetInt_typeParseBuff`, where it is made an `int`. -/
def vlGetIntTypeParseBuff (buffparse : List UInt8) : Option ℤ := do
  let (nValue, _) ← vlParseNByteLong (inst buffparse buffparse.length) buffparse.length
  return asInt nValue

/-- `vlGetTlvOid` -/
def vlGetTlvOid (t : TlvConfig) (pParentStream : VlByteStream) (nParentLength : ℕ) (eTlvType : ℤ) :
    Option (List ℕ × TlvConfig × VlByteStream) := do
  let pParseBuf := pParentStream.child nParentLength
  let pParentStream := pParentStream.advanceBuf nParentLength
  let (OIDsubtreeTag, pParseBuf) ← vlParseByte pParseBuf
  let (OIDlength, pParseBuf) ← vlParseByte pParseBuf
  if (OIDlength : ℤ) ≠ pParseBuf.remainder then
    return ([], t.edocsDevEventhandling .I401_2 eTlvType, pParentStream)
  else if OIDsubtreeTag = 6 then
    let (encodedOID, _) ← vlSnmpProcessTlv217Field pParseBuf OIDlength
    let decodedOID ← AsnOid.vlGetAsnEncodedOidParseBuff encodedOID encodedOID.length
    if 1 < decodedOID.length then
      if decodedOID[0]? = some 1 ∧ decodedOID[1]? = some 3 then
        return (decodedOID, t, pParentStream)
      else return (decodedOID, t.edocsDevEventhandling .I401_2 eTlvType, pParentStream)
    else return (decodedOID, t, pParentStream)
  else return ([], t.edocsDevEventhandling .I401_2 eTlvType, pParentStream)

/-! ## Notification receivers (38) -/

/-- `VL_TLV_217_NOTIFY_TRAP_V2C` -/
def notifyTrapV2c : ℤ := 2

/-- The local variables of `vlSNMPv3_NotificationReceiver_Parse`. -/
structure NotificationReceiverParse where
  objV3NotificationReceiver : V3NotificationReceiver := {}
  b_38_1_present : Bool := false
  b_38_2_present : Bool := false
  b_38_3_present : Bool := false
  b_38_4_present : Bool := false
  b_38_5_present : Bool := false
  b_38_6_present : Bool := false
  b_38_7_present : Bool := false
  b_38_8_present : Bool := false

/-- The cases of its loop. -/
def notificationReceiverCase (ulTag nLength : ℕ) (x : NotificationReceiverParse × TlvConfig)
    (pParseBuf : VlByteStream) :
    Option (TlvConfig ⊕ ((NotificationReceiverParse × TlvConfig) × VlByteStream)) :=
  let (p, t) := x
  match ulTag with
  | 1 => do
    let (valbuf, pParseBuf) ← vlSnmpProcessTlv217Field pParseBuf nLength
    if p.b_38_1_present then return .inr ((p, t), pParseBuf)
    else return .inr (({ p with
      objV3NotificationReceiver.v3ipV4address := valbuf
      b_38_1_present := true }, t), pParseBuf)
  | 2 => do
    let (valbuf, pParseBuf) ← vlSnmpProcessTlv217Field pParseBuf nLength
    if p.b_38_2_present then return .inr ((p, t), pParseBuf)
    else return .inr (({ p with
      objV3NotificationReceiver.nV3UdpPortNumber := ← vlGetIntTypeParseBuff valbuf
      b_38_2_present := true }, t), pParseBuf)
  | 3 => do
    let (valbuf, pParseBuf) ← vlSnmpProcessTlv217Field pParseBuf nLength
    let eV3TrapType ← vlGetIntTypeParseBuff valbuf
    let obj := p.objV3NotificationReceiver
    let obj :=
      if p.b_38_3_present then
        -- always prefer TRAP_V2C
        if eV3TrapType = notifyTrapV2c then { obj with eV3TrapType := notifyTrapV2c } else obj
      else { obj with eV3TrapType := eV3TrapType }
    return .inr (({ p with
      objV3NotificationReceiver :=
        { obj with anV3TrapTypes := obj.anV3TrapTypes ++ [eV3TrapType] }
      b_38_3_present := true }, t), pParseBuf)
  | 4 => do
    let (valbuf, pParseBuf) ← vlSnmpProcessTlv217Field pParseBuf nLength
    if p.b_38_4_present then return .inr ((p, t), pParseBuf)
    else return .inr (({ p with
      objV3NotificationReceiver.nV3Timeout := ← vlGetIntTypeParseBuff valbuf
      b_38_4_present := true }, t), pParseBuf)
  | 5 => do
    let (valbuf, pParseBuf) ← vlSnmpProcessTlv217Field pParseBuf nLength
    if p.b_38_5_present then return .inr ((p, t), pParseBuf)
    else return .inr (({ p with
      objV3NotificationReceiver.nV3Retries := ← vlGetIntTypeParseBuff valbuf
      b_38_5_present := true }, t), pParseBuf)
  | 6 => do
    let (v3subtreels, t, pParseBuf) ← vlGetTlvOid t pParseBuf nLength 38
    if p.b_38_6_present then return .inr ((p, t), pParseBuf)
    else if 1 < v3subtreels.length then return .inr (({ p with
      objV3NotificationReceiver.v3FilterOID := v3subtreels
      b_38_6_present := true }, t), pParseBuf)
    else return .inr ((p, t), pParseBuf)
  | 7 => do
    let (valbuf, pParseBuf) ← vlSnmpProcessTlv217Field pParseBuf nLength
    if p.b_38_7_present then return .inr ((p, t), pParseBuf)
    else return .inr (({ p with
      objV3NotificationReceiver.v3securityName := ← vlGetCharParseBuff valbuf nLength
      b_38_7_present := true }, t), pParseBuf)
  | 8 => do
    let (valbuf, pParseBuf) ← vlSnmpProcessTlv217Field pParseBuf nLength
    if p.b_38_8_present then return .inr ((p, t), pParseBuf)
    else return .inr (({ p with
      objV3NotificationReceiver.v3ipV6address := valbuf
      b_38_8_present := true }, t), pParseBuf)
  | _ => do
    let (_, pParseBuf) ← vlSnmpProcessTlv217Field pParseBuf nLength
    return .inr ((p, t.edocsDevEventhandling .I401_1 38), pParseBuf)

/-- What comes after its loop: the receiver with what was not said. -/
def NotificationReceiverParse.completed (p : NotificationReceiverParse) : V3NotificationReceiver :=
  if p.b_38_2_present then p.objV3NotificationReceiver
  else { p.objV3NotificationReceiver with nV3UdpPortNumber := 162 }

/-- And the rest. -/
def notificationReceiverEnd (x : NotificationReceiverParse × TlvConfig) : TlvConfig :=
  let (p, t) := x
  let obj := p.completed
  let t :=
    if p.b_38_1_present ∨ p.b_38_8_present then
      let (t, bDuplicateFound) :=
        t.checkForDuplicates (·.same obj) .I438_1 t.v3NotificationReceiver_list
      let t := if bDuplicateFound then t
        else { t with v3NotificationReceiver_list := t.v3NotificationReceiver_list ++ [obj] }
      if p.b_38_3_present ∧ notifyTrapV2c ∉ obj.anV3TrapTypes then
        t.edocsDevEventhandling .I438_3 (-1)
      else t
    else t.edocsDevEventhandling .I438_2 (-1)
  if p.b_38_3_present then t else t.edocsDevEventhandling .I438_3 (-1)

/-- `vlSNMPv3_NotificationReceiver_Parse` -/
def vlSNMPv3NotificationReceiverParse (t : TlvConfig) (pParentStream : VlByteStream)
    (nParentLength : ℕ) : Option (TlvConfig × VlByteStream) := do
  let t ← tlvLoop notificationReceiverCase notificationReceiverEnd (nParentLength + 1) ({}, t)
    (pParentStream.child nParentLength)
  return (t, pParentStream.advanceBuf nParentLength)

/-! ## Coexistence of SNMP versions (53) -/

/-- The local variables of `vlSNMPv1v2cTransportAddressAccessParse`. -/
structure TransportParse where
  TranpsortAddandMask : VlTlvTransportAddrAndMask := {}
  b_53_2_1_present : Bool := false
  b_53_2_2_present : Bool := false

/-- The cases of its loop. -/
def transportCase (ulTag nLength : ℕ) (x : TransportParse × TlvConfig) (pParseBuf : VlByteStream) :
    Option ((VlTlvTransportAddrAndMask × TlvConfig) ⊕
      ((TransportParse × TlvConfig) × VlByteStream)) :=
  let (p, t) := x
  match ulTag with
  | 1 => do
    let (TransportAddress, pParseBuf) ← vlSnmpProcessTlv217Field pParseBuf nLength
    if p.b_53_2_1_present then
      return .inr ((p, t.edocsDevEventhandling .I453_3 (-1)), pParseBuf)
    else
      let transport := { p.TranpsortAddandMask with TpAddress := TransportAddress }
      let transport :=
        if p.b_53_2_2_present then transport
        -- generate default mask
        else { transport with TpMask :=
          transport.TpMask ++ TransportAddress.map fun b => if b ≠ 0 then 255 else 0 }
      return .inr (({ p with
        TranpsortAddandMask := transport
        b_53_2_1_present := true }, t), pParseBuf)
  | 2 => do
    let (TportAddmask, pParseBuf) ← vlSnmpProcessTlv217Field pParseBuf nLength
    if p.b_53_2_2_present then
      return .inr ((p, t.edocsDevEventhandling .I453_3 (-1)), pParseBuf)
    else
      return .inr (({ p with
        TranpsortAddandMask.TpMask := TportAddmask
        b_53_2_2_present := true }, t), pParseBuf)
  | _ => do
    let (_, pParseBuf) ← vlSnmpProcessTlv217Field pParseBuf nLength
    return .inr ((p, t.edocsDevEventhandling .I401_1 53), pParseBuf)

/-- What comes after its loop. -/
def transportEnd (x : TransportParse × TlvConfig) : VlTlvTransportAddrAndMask × TlvConfig :=
  let (p, t) := x
  if p.b_53_2_1_present then (p.TranpsortAddandMask, t)
  else ({}, t.edocsDevEventhandling .I453_2 (-1))

/-- `vlSNMPv1v2cTransportAddressAccessParse` -/
def vlSNMPv1v2cTransportAddressAccessParse (t : TlvConfig) (pParentStream : VlByteStream)
    (nParentLength : ℕ) : Option (VlTlvTransportAddrAndMask × TlvConfig × VlByteStream) := do
  let (transport, t) ← tlvLoop transportCase transportEnd (nParentLength + 1) ({}, t)
    (pParentStream.child nParentLength)
  return (transport, t, pParentStream.advanceBuf nParentLength)

/-- The local variables of `vlSNMPv1v2cParse`. -/
structure V1v2cParse where
  objtvl217 : Tlv53V1V2Config := {}
  b_53_1_present : Bool := false
  b_53_2_present : Bool := false
  b_53_3_present : Bool := false
  b_53_4_present : Bool := false

/-- The cases of its loop. -/
def v1v2cCase (ulTag nLength : ℕ) (x : V1v2cParse × TlvConfig) (pParseBuf : VlByteStream) :
    Option (TlvConfig ⊕ ((V1v2cParse × TlvConfig) × VlByteStream)) :=
  let (p, t) := x
  match ulTag with
  | 1 => do
    let (communitystr, pParseBuf) ← vlSnmpProcessTlv217Field pParseBuf nLength
    let strCommunity ← vlGetCharParseBuff communitystr nLength
    if p.b_53_1_present then
      return .inr ((p, t.edocsDevEventhandling .I453_3 (-1)), pParseBuf)
    else return .inr (({ p with
      objtvl217.strCommunity := strCommunity
      b_53_1_present := true }, t), pParseBuf)
  | 2 => do
    let (v12Transport, t, pParseBuf) ← vlSNMPv1v2cTransportAddressAccessParse t pParseBuf nLength
    if 0 < v12Transport.TpAddress.length then
      let list := p.objtvl217.AVTransportAddressList
      let v12Transport := { v12Transport with
        iAccessViewTlv := t.Tlv217loopList.length
        iTlvSubEntry := list.length }
      return .inr (({ p with
        objtvl217.AVTransportAddressList := list ++ [v12Transport]
        b_53_2_present := true }, t), pParseBuf)
    else return .inr ((p, t), pParseBuf)
  | 3 => do
    let (AccessViewType, pParseBuf) ← vlSnmpProcessTlv217Field pParseBuf nLength
    if p.b_53_3_present then
      return .inr ((p, t.edocsDevEventhandling .I453_3 (-1)), pParseBuf)
    else
      let eAccessViewType ← vlGetIntTypeParseBuff AccessViewType
      if eAccessViewType = 1 ∨ eAccessViewType = 2 then
        return .inr (({ p with
          objtvl217.eAccessViewType := eAccessViewType
          b_53_3_present := true }, t), pParseBuf)
      -- reject the entire TLV
      else return .inl (t.edocsDevEventhandling .I453_4 (-1))
  | 4 => do
    let (AccessViewName, pParseBuf) ← vlSnmpProcessTlv217Field pParseBuf nLength
    let strAccessViewName ← vlGetCharParseBuff AccessViewName nLength
    if p.b_53_4_present then
      return .inr ((p, t.edocsDevEventhandling .I453_3 (-1)), pParseBuf)
    else return .inr (({ p with
      objtvl217.strAccessViewName := strAccessViewName
      b_53_4_present := true }, t), pParseBuf)
  | _ => do
    let (_, pParseBuf) ← vlSnmpProcessTlv217Field pParseBuf nLength
    return .inr ((p, t.edocsDevEventhandling .I401_1 53), pParseBuf)

/-- What comes after its loop: the entry with what was not said. -/
def V1v2cParse.completed (p : V1v2cParse) : Tlv53V1V2Config :=
  if p.b_53_3_present then p.objtvl217 else { p.objtvl217 with eAccessViewType := 1 }

/-- And the rest. -/
def v1v2cEnd (x : V1v2cParse × TlvConfig) : TlvConfig :=
  let (p, t) := x
  let t := if p.b_53_1_present then t else t.edocsDevEventhandling .I453_1 (-1)
  let t := if p.b_53_2_present then t else t.edocsDevEventhandling .I453_2 (-1)
  if p.b_53_1_present ∧ p.b_53_2_present then
    let (t, bDuplicateFound) := t.checkForDuplicates (·.same p.completed) .I453_6 t.Tlv217loopList
    if bDuplicateFound then t
    else { t with Tlv217loopList := t.Tlv217loopList ++ [p.completed] }
  else t

/-- `vlSNMPv1v2cParse` -/
def vlSNMPv1v2cParse (t : TlvConfig) (pParentStream : VlByteStream) (nParentLength : ℕ) :
    Option (TlvConfig × VlByteStream) := do
  let t ← tlvLoop v1v2cCase v1v2cEnd (nParentLength + 1) ({}, t)
    (pParentStream.child nParentLength)
  return (t, pParentStream.advanceBuf nParentLength)

/-! ## Access views (54) -/

/-- `API_CHRMAX` -/
def apiChrmax : ℕ := 256

/-- The local variables of `vlSNMPv3_AccessViewConfigParse`. -/
structure AccessViewParse where
  objV3accesitems : V3AccessviewList := {}
  b_54_1_present : Bool := false
  b_54_2_present : Bool := false
  b_54_3_present : Bool := false
  b_54_4_present : Bool := false

/-- The cases of its loop. -/
def accessViewCase (ulTag nLength : ℕ) (x : AccessViewParse × TlvConfig) (pParseBuf : VlByteStream) :
    Option (TlvConfig ⊕ ((AccessViewParse × TlvConfig) × VlByteStream)) :=
  let (p, t) := x
  match ulTag with
  | 1 => do
    let (v3AccessViewName, pParseBuf) ← vlSnmpProcessTlv217Field pParseBuf nLength
    if p.b_54_1_present then
      return .inr ((p, t.edocsDevEventhandling .I454_2 (-1)), pParseBuf)
    else return .inr (({ p with
      objV3accesitems.strAccessViewName := ← vlGetCharParseBuff v3AccessViewName nLength
      b_54_1_present := true }, t), pParseBuf)
  | 2 => do
    let (v3subtreels, t, pParseBuf) ← vlGetTlvOid t pParseBuf nLength 54
    if p.b_54_2_present then
      return .inr ((p, t.edocsDevEventhandling .I454_2 (-1)), pParseBuf)
    else if 1 < v3subtreels.length then
      return .inr (({ p with
        objV3accesitems.v3AccessViewSubtree := v3subtreels
        b_54_2_present := true }, t), pParseBuf)
    -- reject the entire TLV
    else return .inl t
  | 3 => do
    let (v3AccessViewMask, pParseBuf) ← vlSnmpProcessTlv217Field pParseBuf nLength
    if p.b_54_3_present then
      return .inr ((p, t.edocsDevEventhandling .I454_2 (-1)), pParseBuf)
    else
      let v3subtreels ← (List.range (min nLength apiChrmax)).mapM (octet v3AccessViewMask)
      return .inr (({ p with
        objV3accesitems.v3AccessViewMask := v3subtreels
        b_54_3_present := true }, t), pParseBuf)
  | 4 => do
    let (AccessViewType, pParseBuf) ← vlSnmpProcessTlv217Field pParseBuf nLength
    if p.b_54_4_present then
      return .inr ((p, t.edocsDevEventhandling .I454_2 (-1)), pParseBuf)
    else
      let AccVType ← vlGetIntTypeParseBuff AccessViewType
      if AccVType = 1 ∨ AccVType = 2 then
        return .inr (({ p with
          objV3accesitems.v3AccessViewType := AccVType
          b_54_4_present := true }, t), pParseBuf)
      -- reject the entire TLV
      else return .inl (t.edocsDevEventhandling .I454_3 (-1))
  | _ => do
    let (_, pParseBuf) ← vlSnmpProcessTlv217Field pParseBuf nLength
    return .inr ((p, t.edocsDevEventhandling .I401_1 54), pParseBuf)

/-- What comes after its loop: the entry with what was not said. -/
def AccessViewParse.completed (p : AccessViewParse) : V3AccessviewList :=
  let obj := p.objV3accesitems
  let obj := if p.b_54_2_present then obj else { obj with v3AccessViewSubtree := [1, 3, 6] }
  let obj := if p.b_54_3_present then obj else { obj with v3AccessViewMask := [] }
  if p.b_54_4_present then obj else { obj with v3AccessViewType := 1 }

/-- And the rest. -/
def accessViewEnd (x : AccessViewParse × TlvConfig) : TlvConfig :=
  let (p, t) := x
  let t := if p.b_54_1_present then t else t.edocsDevEventhandling .I454_1 (-1)
  if p.b_54_1_present then
    let (t, bDuplicateFound) := t.checkForDuplicates (·.same p.completed) .I454_5 t.V3AccviewLs
    if bDuplicateFound then t else { t with V3AccviewLs := t.V3AccviewLs ++ [p.completed] }
  else t

/-- `vlSNMPv3_AccessViewConfigParse` -/
def vlSNMPv3AccessViewConfigParse (t : TlvConfig) (pParentStream : VlByteStream)
    (nParentLength : ℕ) : Option (TlvConfig × VlByteStream) := do
  let t ← tlvLoop accessViewCase accessViewEnd (nParentLength + 1) ({}, t)
    (pParentStream.child nParentLength)
  return (t, pParentStream.advanceBuf nParentLength)

/-! ## Objects that are assigned (11) -/

variable (agent : SnmpAgent)

/-- `processTlv217SnmpSetRequest`, after the assignments so far. The agent is given the text of the
object identifier. -/
def processTlv217SnmpSetRequest (t : TlvConfig) (soFar : List VlTlvSnmpVarBind)
    (bind : VlTlvSnmpVarBind) : TlvConfig :=
  -- ASN_BOOLEAN, ASN_INTEGER, ASN_BIT_STR, ASN_OCTET_STR, ASN_OBJECT_ID, ASN_SEQUENCE, ASN_SET
  if bind.eVarBindType ∈ [0x01, 0x02, 0x03, 0x04, 0x06, 0x10, 0x11] then
    match agent.vlSnmpGetLocalLong soFar bind.OIDmib with
    | .success =>
      match agent.vlSnmpSetLocalAsnVar soFar bind with
      | .noSuchObject | .noSuchInstance | .endOfMibView | .invalidOid =>
        t.edocsDevEventhandling .I411_1 (-1)
      | .readOnly | .noAccess | .notWritable | .noCreation | .protocolError =>
        t.edocsDevEventhandling .I411_3 (-1)
      | .tooBig | .badValue | .wrongType | .wrongLength | .wrongEncoding | .wrongValue
      | .inconsistentValue => t.edocsDevEventhandling .I411_3 (-1)
      | _ => t
    | .noSuchObject | .noSuchInstance | .endOfMibView | .invalidOid | .getOnNode
    | .protocolError => t.edocsDevEventhandling .I411_1 (-1)
    | _ => t
  else t.edocsDevEventhandling .I411_3 (-1)

/-- `vlGetSnmpVarBind` -/
def vlGetSnmpVarBind (t : TlvConfig) (pParentStream : VlByteStream) (nParentLength : ℕ) :
    Option (VlTlvSnmpVarBind × TlvConfig) := do
  let pParseBuf := pParentStream.child nParentLength
  let (ulTag, pParseBuf) ← vlParseByte pParseBuf
  let (nLength, pParseBuf) ← vlParseByte pParseBuf
  if ulTag = 6 then
    let (encodedOID, pParseBuf) ← vlSnmpProcessTlv217Field pParseBuf nLength
    let decodedOID ← AsnOid.vlGetAsnEncodedOidParseBuff encodedOID encodedOID.length
    let (eVarBindType, pParseBuf) ← vlParseByte pParseBuf
    let (nVarBindLength, pParseBuf) ← vlParseByte pParseBuf
    let (mibOIDvalue, _) ← vlSnmpProcessTlv217Field pParseBuf nVarBindLength
    return (⟨eVarBindType, decodedOID, mibOIDvalue⟩, t)
  else
    let t := t.edocsDevEventhandling .I401_2 11
    let _ ← vlSnmpProcessTlv217Field pParseBuf nLength
    return ({}, t)

/-- `vlSNMPmibObjectParse` -/
def vlSNMPmibObjectParse (t : TlvConfig) (pParentStream : VlByteStream) (nParentLength : ℕ) :
    Option (TlvConfig × VlByteStream) := do
  let pParseBuf := pParentStream.child nParentLength
  let pParentStream := pParentStream.advanceBuf nParentLength
  let (ulTag, pParseBuf) ← vlParseByte pParseBuf
  let (nTlvLength, pParseBuf) ← vlParseByte pParseBuf
  -- TLV11OID_HEADER
  if ulTag = 0x30 then
    let (snmpVarBind, t) ← vlGetSnmpVarBind t pParseBuf nTlvLength
    if 0 < snmpVarBind.OIDmib.length then
      let list := t.SNMPmibObjectList
      let (t, bDuplicateFound) :=
        t.checkForDuplicates (·.OIDmib == snmpVarBind.OIDmib) .I411_2 list
      if bDuplicateFound then return (t, pParentStream)
      else
        let t := { t with SNMPmibObjectList := list ++ [snmpVarBind] }
        return (processTlv217SnmpSetRequest agent t list snmpVarBind, pParentStream)
    else return (t, pParentStream)
  else
    let t := t.edocsDevEventhandling .I401_2 11
    let _ ← vlSnmpProcessTlv217Field pParseBuf nTlvLength
    return (t, pParentStream)

/-! ## Other types -/

/-- `vlSNMPIpModeControlParse` -/
def vlSNMPIpModeControlParse (t : TlvConfig) (pParentStream : VlByteStream) (nParentLength : ℕ) :
    Option (TlvConfig × VlByteStream) := do
  let pParseBuf := pParentStream.child nParentLength
  let pParentStream := pParentStream.advanceBuf nParentLength
  let (IpModeControlvlaue, _) ← vlSnmpProcessTlv217Field pParseBuf nParentLength
  if nParentLength = 1 then
    if t.IpModeControlList.length = 0 then
      match IpModeControlvlaue with
      | [] => none
      | mode :: _ =>
        if mode = 0 ∨ mode = 1 then
          return ({ t with IpModeControlList := [mode] }, pParentStream)
        else return (t, pParentStream)
    else return (t.edocsDevEventhandling .I401_11 (-1), pParentStream)
  else return (t.edocsDevEventhandling .I401_2 1, pParentStream)

/-- `vlSNMPVendorIdParse` -/
def vlSNMPVendorIdParse (t : TlvConfig) (pParentStream : VlByteStream) (nParentLength : ℕ) :
    Option (TlvConfig × VlByteStream) := do
  let pParseBuf := pParentStream.child nParentLength
  let pParentStream := pParentStream.advanceBuf nParentLength
  let (VendorIdvlaue, _) ← vlSnmpProcessTlv217Field pParseBuf nParentLength
  if nParentLength = 3 then
    return ({ t with VendorIdList := t.VendorIdList ++ [VendorIdvlaue] }, pParentStream)
  else return (t.edocsDevEventhandling .I401_2 8, pParentStream)

/-- The cases of the loop of `vlSNMPVendorSpecificParse`, in a TLV of that length; `iTag` counts the
TLVs in it. -/
def vendorSpecificCase (nParentLength ulTag nLength : ℕ) (x : ℕ × TlvConfig)
    (pParseBuf : VlByteStream) : Option (TlvConfig ⊕ ((ℕ × TlvConfig) × VlByteStream)) :=
  let iTag := x.1 + 1
  match ulTag with
  | 8 => do
    let (t, pParseBuf) ← vlSNMPVendorIdParse x.2 pParseBuf nParentLength
    return .inr ((iTag, t), pParseBuf)
  | _ => do
    let t := if iTag = 1 then x.2.edocsDevEventhandling .I443_1 (-1) else x.2
    let (_, pParseBuf) ← vlSnmpProcessTlv217Field pParseBuf nLength
    return .inr ((iTag, t.edocsDevEventhandling .I401_1 43), pParseBuf)

/-- `vlSNMPVendorSpecificParse` -/
def vlSNMPVendorSpecificParse (t : TlvConfig) (pParentStream : VlByteStream) (nParentLength : ℕ) :
    Option (TlvConfig × VlByteStream) := do
  let t ← tlvLoop (vendorSpecificCase nParentLength) (·.2) (nParentLength + 1) (0, t)
    (pParentStream.child nParentLength)
  return (t, pParentStream.advanceBuf nParentLength)

/-! ## All of them -/

/-- A parser, as a case of the loop over all TLVs. -/
def tlv217Parsed (parse : Option (TlvConfig × VlByteStream)) :
    Option (TlvConfig ⊕ (TlvConfig × VlByteStream)) := parse.map .inr

/-- The cases of the loop of `vlSnmpParseTlv217Data`. -/
def tlv217Case (ulTag nLength : ℕ) (t : TlvConfig) (pParseBuf : VlByteStream) :
    Option (TlvConfig ⊕ (TlvConfig × VlByteStream)) :=
  match ulTag with
  | 53 => tlv217Parsed (vlSNMPv1v2cParse t pParseBuf nLength)
  | 54 => tlv217Parsed (vlSNMPv3AccessViewConfigParse t pParseBuf nLength)
  | 11 => tlv217Parsed (vlSNMPmibObjectParse agent t pParseBuf nLength)
  | 1 => tlv217Parsed (vlSNMPIpModeControlParse t pParseBuf nLength)
  | 8 => tlv217Parsed (vlSNMPVendorIdParse t pParseBuf nLength)
  | 43 => tlv217Parsed (vlSNMPVendorSpecificParse t pParseBuf nLength)
  | 38 => tlv217Parsed (vlSNMPv3NotificationReceiverParse t pParseBuf nLength)
  | _ => do
    let (_, pParseBuf) ← vlSnmpProcessTlv217Field pParseBuf nLength
    return .inr (t.edocsDevEventhandling .I401_1 ulTag, pParseBuf)

/-- `Generate_Events_v3NotificationReceiver`, all that `checkEventlistInTlv217list` still does to the
object itself. -/
def checkEventlistInTlv217list (t : TlvConfig) : TlvConfig :=
  match t.IpModeControlList with
  | [] => t
  | ipMode :: _ => t.v3NotificationReceiver_list.foldl (fun t receiver =>
      if (ipMode = 0 ∧ receiver.v3ipV6address ≠ []) ∨ (ipMode = 1 ∧ receiver.v3ipV4address ≠ []) then
        t.edocsDevEventhandling .I438_4 (-1)
      else t) t

/-- `vlSnmpParseTlv217Data` -/
def vlSnmpParseTlv217Data (t : TlvConfig) (pParentStream : VlByteStream) (nParentLength : ℕ) :
    Option (TlvConfig × VlByteStream) := do
  let t ← tlvLoop (tlv217Case agent) checkEventlistInTlv217list (nParentLength + 1) t
    (pParentStream.child nParentLength)
  return (t, pParentStream.advanceBuf nParentLength)

end MediaFramework
