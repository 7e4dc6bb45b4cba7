import MediaFramework.Snmp.Tlvevent

/-!
# The entries that TLVs stand for

What each TLV of a configuration adds to the lists, read off its nested TLVs and not off the way it
is parsed: of a type that is repeated the first value counts, an entry needs some of the types, some
values are illegal, and an entry that is there already is not added again.

A few of these rules can be read in two ways (`Tlv217Rules`). The code has a reading of its own of
each of them.
-/

namespace MediaFramework

open Tlv

/-- How the rules are read. -/
structure Tlv217Rules where
  /-- all trap types count, and the one that is preferred need not be the first one -/
  allTrapTypes : Bool
  /-- all transports count, not the first one only -/
  allTransports : Bool
  /-- the first legal filter counts, not the first one only if it is legal -/
  anyFilter : Bool
  /-- assignments to the same object are duplicates, not only those of the same value -/
  byObject : Bool

namespace Tlv217Rules

/-- The first value of each type, and duplicates of whole entries. -/
def asClaimed : Tlv217Rules := ⟨false, false, false, false⟩

/-- The reading of the code. -/
def asBuilt : Tlv217Rules := ⟨true, true, true, true⟩

/-- The values that count. -/
def count {α : Type} (all : Bool) (values : List α) : List α := if all then values else values.take 1

end Tlv217Rules

namespace Tlv217

open Tlv217Rules

/-! ## Values -/

/-- A text, with dots for what cannot be printed. -/
def text (value : List UInt8) : List UInt8 := value.map vlDumpBufferChar

/-- A number, the highest octet first. -/
def intValue (value : List UInt8) : ℤ := asInt (ofOctets value)

/-- What is decoded of the octets of an object identifier. -/
def arcs (encoded : List UInt8) : List ℕ :=
  (AsnOid.vlGetAsnEncodedOidParseBuff encoded encoded.length).getD []

/-- A legal object identifier, in a TLV of its own, begins with 1.3. -/
def objectId (value : List UInt8) : Option (List ℕ) :=
  match value with
  | tag :: length :: encoded =>
    if tag = 6 ∧ length.toNat = encoded.length ∧ [1, 3] <+: arcs encoded then some (arcs encoded)
    else none
  | _ => none

/-- A legal type of access. -/
def accessType (value : List UInt8) : Option ℤ :=
  if intValue value = 1 ∨ intValue value = 2 then some (intValue value) else none

/-! ## Entries -/

/-- The mask of an address that comes without one. -/
def defaultMask (address : List UInt8) : List UInt8 := address.map fun b => if b ≠ 0 then 255 else 0

/-- A transport has an address. -/
def transport (value : List UInt8) : Option VlTlvTransportAddrAndMask := do
  let subs ← split value
  let address ← first 1 subs
  if address = [] then none
  else return { TpAddress := address, TpMask := (first 2 subs).getD (defaultMask address) }

variable (R : Tlv217Rules) (t : Tlv)

/-- The entry of a TLV of type 53, with a community and a transport. -/
def coexistence : Option Tlv53V1V2Config :=
  if t.tag = 53 then do
    let subs ← split t.value
    let community ← first 1 subs
    let type ← ((first 3 subs).map accessType).getD (some 1)
    let transports := (count R.allTransports ((values 2 subs).map transport)).reduceOption
    if transports = [] then none
    else return {
      strCommunity := text community
      AVTransportAddressList := transports
      strAccessViewName := ((first 4 subs).map text).getD []
      eAccessViewType := type }
  else none

/-- The entry of a TLV of type 54, with a name. -/
def accessView : Option V3AccessviewList :=
  if t.tag = 54 then do
    let subs ← split t.value
    let name ← first 1 subs
    let subtree ← ((first 2 subs).map objectId).getD (some [1, 3, 6])
    let type ← ((first 4 subs).map accessType).getD (some 1)
    return {
      strAccessViewName := text name
      v3AccessViewSubtree := subtree
      v3AccessViewMask := ((first 3 subs).getD []).map UInt8.toNat
      v3AccessViewType := type }
  else none

/-- The trap type of a receiver of several: the first one, but of the others 2 is preferred. -/
def preferred : List ℤ → ℤ
  | [] => 0
  | type :: others => if notifyTrapV2c ∈ others then notifyTrapV2c else type

/-- The entry of a TLV of type 38, with an address. -/
def receiver : Option V3NotificationReceiver :=
  if t.tag = 38 then do
    let subs ← split t.value
    let types := count R.allTrapTypes ((values 3 subs).map intValue)
    let filters := (count R.anyFilter ((values 6 subs).map objectId)).reduceOption
    if first 1 subs = none ∧ first 8 subs = none then none
    else return {
      v3ipV4address := (first 1 subs).getD []
      nV3UdpPortNumber := ((first 2 subs).map intValue).getD 162
      eV3TrapType := preferred types
      anV3TrapTypes := types
      nV3Timeout := ((first 4 subs).map intValue).getD 1500
      nV3Retries := ((first 5 subs).map intValue).getD 3
      v3FilterOID := filters.head?.getD []
      v3securityName := ((first 7 subs).map text).getD []
      v3ipV6address := (first 8 subs).getD [] }
  else none

/-- An object and its value. -/
def objectValue : List Tlv → Option VlTlvSnmpVarBind
  | oid :: value :: _ =>
    if oid.tag = 6 ∧ arcs oid.value ≠ [] then
      some ⟨value.tag.toNat, arcs oid.value, value.value⟩
    else none
  | _ => none

/-- The entry of a TLV of type 11: a sequence of an object and its value. -/
def assignment : Option VlTlvSnmpVarBind :=
  if t.tag = 11 then do
    let seq ← (← split t.value).head?
    if seq.tag = 0x30 then objectValue (← split seq.value) else none
  else none

/-! ## Lists -/

/-- An entry is added, unless one is there that is the same. -/
def addNew {α : Type} (same : α → α → Bool) (list : List α) (x : α) : List α :=
  if list.any (same · x) then list else list ++ [x]

/-- The transports of an entry know its place and theirs. -/
def placed (x : Tlv53V1V2Config) (place : ℕ) : Tlv53V1V2Config :=
  { x with AVTransportAddressList := x.AVTransportAddressList.mapIdx fun i transport =>
      { transport with iAccessViewTlv := place, iTlvSubEntry := i } }

/-- Assignments that are the same. -/
def sameAssignment (l r : VlTlvSnmpVarBind) : Bool :=
  if R.byObject then l.OIDmib == r.OIDmib else l == r

/-- **The lists after a configuration.** -/
def lists (config : List Tlv) (before : Tlv217Lists) : Tlv217Lists where
  Tlv217loopList := (config.filterMap (coexistence R)).foldl
    (fun list x => addNew Tlv53V1V2Config.same list (placed x list.length)) before.Tlv217loopList
  V3AccviewLs := (config.filterMap accessView).foldl (addNew V3AccessviewList.same)
    before.V3AccviewLs
  v3NotificationReceiver_list := (config.filterMap (receiver R)).foldl
    (addNew V3NotificationReceiver.same) before.v3NotificationReceiver_list
  SNMPmibObjectList := (config.filterMap assignment).foldl (addNew (sameAssignment R))
    before.SNMPmibObjectList

/-! ## Well-formed TLVs -/

/-- A nested TLV of an object identifier: there is one, and if the identifier is decoded to more than
one number it is legal. -/
def OidFormed (value : List UInt8) : Prop :=
  ∃ tag length encoded, value = tag :: length :: encoded ∧
    (tag = 6 → length.toNat = encoded.length → 1 < (arcs encoded).length →
      [1, 3] <+: arcs encoded)

/-- A TLV of a type that has nested TLVs is made of such. The types 1, 8 and 43, of other things than
the lists, do not occur. -/
def WellFormed : Prop :=
  match t.tag.toNat with
  | 38 => ∃ subs, t.value = encodeAll subs ∧ ∀ value ∈ values 6 subs, OidFormed value
  | 53 => ∃ subs, t.value = encodeAll subs ∧
      ∀ value ∈ values 2 subs, ∃ inner, value = encodeAll inner
  | 54 => ∃ subs, t.value = encodeAll subs ∧ ∀ value ∈ values 2 subs, OidFormed value
  | 11 => ∃ seq rest, t.value = encodeAll (seq :: rest) ∧
      (seq.tag = 0x30 → ∃ oid inner, seq.value = encodeAll (oid :: inner) ∧
        (oid.tag = 6 → inner ≠ []))
  | 1 | 8 | 43 => False
  | _ => True

end Tlv217

end MediaFramework
