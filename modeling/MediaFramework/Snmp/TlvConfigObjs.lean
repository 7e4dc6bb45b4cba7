import MediaFramework.Snmp.AsnOid
import Mathlib.Data.Int.Notation

/-!
# What TLV 217 configures (`TlvConfigObjs.h`)

The objects that the parsers of TLV 217 build, with the comparisons they find duplicates by, and the
lists of them. Strings are kept as their octets, and numbers of object identifiers as their 32 bits.
-/

namespace MediaFramework

/-- `VL_TLV_SNMP_VAR_BIND` -/
structure VlTlvSnmpVarBind where
  eVarBindType : ℕ := 0
  OIDmib : List ℕ := []
  OIDvalue : List UInt8 := []
  deriving DecidableEq

/-- `VL_TLV_TRANSPORT_ADDR_AND_MASK` -/
structure VlTlvTransportAddrAndMask where
  TpAddress : List UInt8 := []
  TpMask : List UInt8 := []
  iAccessViewTlv : ℕ := 0
  iTlvSubEntry : ℕ := 0
  deriving DecidableEq

/-- `VL_TLV_TRANSPORT_ADDR_AND_MASK::operator ==` -/
def VlTlvTransportAddrAndMask.same (l r : VlTlvTransportAddrAndMask) : Bool :=
  l.TpAddress == r.TpAddress && l.TpMask == r.TpMask

/-- `TLV53_V1V2_CONFIG` -/
structure Tlv53V1V2Config where
  strCommunity : List UInt8 := []
  AVTransportAddressList : List VlTlvTransportAddrAndMask := []
  strAccessViewName : List UInt8 := []
  /-- `VL_TLV_217_ACCESS_READ_ONLY` if nothing is said -/
  eAccessViewType : ℤ := 1
  deriving DecidableEq

/-- `TLV53_V1V2_CONFIG::operator ==` -/
def Tlv53V1V2Config.same (l r : Tlv53V1V2Config) : Bool :=
  l.strCommunity == r.strCommunity && l.strAccessViewName == r.strAccessViewName &&
    l.eAccessViewType == r.eAccessViewType &&
    l.AVTransportAddressList.isEqv r.AVTransportAddressList VlTlvTransportAddrAndMask.same

/-- `v3AccessviewList_t` -/
structure V3AccessviewList where
  strAccessViewName : List UInt8 := []
  v3AccessViewSubtree : List ℕ := []
  v3AccessViewMask : List ℕ := []
  /-- `VL_TLV_217_ACCESS_INCLUDED` if nothing is said -/
  v3AccessViewType : ℤ := 1
  deriving DecidableEq

/-- `v3AccessviewList_t::operator ==` -/
def V3AccessviewList.same (l r : V3AccessviewList) : Bool :=
  l.strAccessViewName == r.strAccessViewName && l.v3AccessViewSubtree == r.v3AccessViewSubtree &&
    l.v3AccessViewMask == r.v3AccessViewMask && l.v3AccessViewType == r.v3AccessViewType

/-- `v3NotificationReceiver_t` -/
structure V3NotificationReceiver where
  v3ipV4address : List UInt8 := []
  nV3UdpPortNumber : ℤ := 162
  eV3TrapType : ℤ := 0
  anV3TrapTypes : List ℤ := []
  nV3Timeout : ℤ := 1500
  nV3Retries : ℤ := 3
  v3FilterOID : List ℕ := []
  v3securityName : List UInt8 := []
  v3ipV6address : List UInt8 := []
  deriving DecidableEq

/-- `v3NotificationReceiver_t::operator ==` -/
def V3NotificationReceiver.same (l r : V3NotificationReceiver) : Bool :=
  l.v3ipV4address == r.v3ipV4address && l.nV3UdpPortNumber == r.nV3UdpPortNumber &&
    l.eV3TrapType == r.eV3TrapType && l.anV3TrapTypes == r.anV3TrapTypes &&
    l.nV3Timeout == r.nV3Timeout && l.nV3Retries == r.nV3Retries &&
    l.v3FilterOID == r.v3FilterOID && l.v3securityName == r.v3securityName &&
    l.v3ipV6address == r.v3ipV6address

/-- The lists of what is configured. -/
structure Tlv217Lists where
  Tlv217loopList : List Tlv53V1V2Config := []
  V3AccviewLs : List V3AccessviewList := []
  v3NotificationReceiver_list : List V3NotificationReceiver := []
  SNMPmibObjectList : List VlTlvSnmpVarBind := []
  deriving DecidableEq

/-- The events that the parsers report. -/
inductive ErrorCode where
  | I401_1 | I401_2 | I401_11
  | I411_1 | I411_2 | I411_3
  | I438_1 | I438_2 | I438_3 | I438_4
  | I443_1
  | I453_1 | I453_2 | I453_3 | I453_4 | I453_6
  | I454_1 | I454_2 | I454_3 | I454_5
  deriving DecidableEq

/-- `TlvConfig`: the lists, the other ones that are filled, and the events reported so far. -/
structure TlvConfig extends Tlv217Lists where
  IpModeControlList : List UInt8 := []
  VendorIdList : List (List UInt8) := []
  events : List (ErrorCode × ℤ) := []
  deriving DecidableEq

namespace TlvConfig

/-- `EdocsDevEventhandling` -/
def edocsDevEventhandling (t : TlvConfig) (nEventId : ErrorCode) (eType : ℤ) : TlvConfig :=
  { t with events := t.events ++ [(nEventId, eType)] }

/-- The loop over a list that reports each duplicate, and says if there was one. -/
def checkForDuplicates {α : Type} (t : TlvConfig) (same : α → Bool) (nEventId : ErrorCode)
    (list : List α) : TlvConfig × Bool :=
  list.foldl (fun (t, bDuplicateFound) x =>
    if same x then (t.edocsDevEventhandling nEventId (-1), true) else (t, bDuplicateFound))
    (t, false)

end TlvConfig

/-- `VL_SNMP_API_RESULT`: those that are told apart. -/
inductive VlSnmpApiResult where
  | success
  | noSuchObject | noSuchInstance | endOfMibView | invalidOid | getOnNode | protocolError
  | readOnly | noAccess | notWritable | noCreation
  | tooBig | badValue | wrongType | wrongLength | wrongEncoding | wrongValue | inconsistentValue
  | other
  deriving DecidableEq

/-- The agent, as it answers after the assignments so far. -/
structure SnmpAgent where
  vlSnmpGetLocalLong : List VlTlvSnmpVarBind → List ℕ → VlSnmpApiResult
  vlSnmpSetLocalAsnVar : List VlTlvSnmpVarBind → VlTlvSnmpVarBind → VlSnmpApiResult

end MediaFramework
