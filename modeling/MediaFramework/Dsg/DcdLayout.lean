import MediaFramework.Dsg.DcdParts

/-!
# Well-formed DCDs, and what they say

A DCD is classifiers, rules and configurations, in any order and number, among TLVs of other types.
What it says is said without a parser: the last number of a type, and the entries of a list in their
order. A structure holds what was said if each of its fields is the number that was given, whatever
the width of the field, and each of its lists holds the first 32 entries.
-/

namespace MediaFramework

/-! ## TLVs -/

/-- A TLV with nothing nested in it. -/
structure DsgTlv where
  tag : UInt8
  /-- how the length is written -/
  size : Option ℕ
  value : List UInt8
  fits : LengthFits size value.length

namespace DsgTlv

variable (lPrefix : ℕ) (t : DsgTlv)

def bytes : List UInt8 := tlvBytes t.tag t.size t.value

/-- `VL_DSG_TLV_TYPE` -/
def lTag : ℕ := lPrefix <<< 8 ||| t.tag.toNat

def number : ℕ := ofOctets t.value

/-- Where a number is expected there are one to eight bytes. -/
def NumberFits (numeric : List ℕ) : Prop :=
  t.lTag lPrefix ∈ numeric → 1 ≤ t.value.length ∧ t.value.length ≤ 8

instance (numeric : List ℕ) : Decidable (t.NumberFits lPrefix numeric) :=
  inferInstanceAs (Decidable (_ → _))

end DsgTlv

/-- The numbers of a type. -/
def numbers (lPrefix lTag : ℕ) (ts : List DsgTlv) : List ℕ :=
  ts.filterMap fun t => if t.lTag lPrefix = lTag then some t.number else none

/-- The last number of a type. -/
def lastNumber (lPrefix lTag : ℕ) (ts : List DsgTlv) : ℕ := (numbers lPrefix lTag ts).getLastD 0

/-- A client id. -/
structure DcdClient where
  eEncodingType : UInt8
  encodedId : List UInt8
  length_encodedId : encodedId.length ≤ 8

namespace DcdClient

variable (c : DcdClient)

def bytes : List UInt8 := c.eEncodingType :: UInt8.ofNat c.encodedId.length :: c.encodedId

/-- What a client id says. -/
def value : DsgClientId :=
  ⟨c.eEncodingType.toNat, c.encodedId.length, ofOctets c.encodedId, 0⟩

end DcdClient

/-- What a classifier is made of. -/
inductive ClassifierItem
  | plain (t : DsgTlv)
  | ipCpe (size : Option ℕ) (ts : List DsgTlv)

/-- What a rule is made of. -/
inductive RuleItem
  | plain (t : DsgTlv)
  | clients (size : Option ℕ) (cs : List DcdClient)

/-- What a DCD is made of. -/
inductive DcdItem
  | plain (t : DsgTlv)
  | classifier (size : Option ℕ) (items : List ClassifierItem)
  | rule (size : Option ℕ) (items : List RuleItem)
  | config (size : Option ℕ) (ts : List DsgTlv)

namespace ClassifierItem

/-- The value of a list of them. -/
def valueOf (items : List ClassifierItem) : List UInt8 := items.flatMap fun
  | plain t => t.bytes
  | ipCpe size ts => tlvBytes 0x09 size (ts.flatMap DsgTlv.bytes)

def tlv? : ClassifierItem → Option DsgTlv
  | plain t => some t
  | ipCpe .. => none

def ipCpe? : ClassifierItem → Option (List DsgTlv)
  | plain _ => none
  | ipCpe _ ts => some ts

def WellFormed : ClassifierItem → Prop
  | plain t => t.lTag 0x17 ≠ 0x1709 ∧ t.NumberFits 0x17 [0x1702, 0x1705]
  | ipCpe size ts => LengthFits size (ts.flatMap DsgTlv.bytes).length ∧
      ∀ t ∈ ts, t.NumberFits 0x1709 [0x170903, 0x170904, 0x170905, 0x170909, 0x17090A]

instance : ∀ it : ClassifierItem, Decidable it.WellFormed
  | plain _ => inferInstanceAs (Decidable (_ ∧ _))
  | ipCpe _ _ => inferInstanceAs (Decidable (_ ∧ _))

end ClassifierItem

namespace RuleItem

/-- The value of a list of them. -/
def valueOf (items : List RuleItem) : List UInt8 := items.flatMap fun
  | plain t => t.bytes
  | clients size cs => tlvBytes 0x04 size (cs.flatMap DcdClient.bytes)

def tlv? : RuleItem → Option DsgTlv
  | plain t => some t
  | clients .. => none

def clientsOf : RuleItem → List DcdClient
  | plain _ => []
  | clients _ cs => cs

/-- The UCIDs of a list of them. -/
def ucids? : RuleItem → Option (List UInt8)
  | plain t => if t.lTag 0x32 = 0x3203 then some t.value else none
  | clients .. => none

def WellFormed : RuleItem → Prop
  | plain t => t.lTag 0x32 ≠ 0x3204 ∧ t.NumberFits 0x32 [0x3201, 0x3202, 0x3205, 0x3206]
  | clients size cs => LengthFits size (cs.flatMap DcdClient.bytes).length

instance : ∀ it : RuleItem, Decidable it.WellFormed
  | plain _ => inferInstanceAs (Decidable (_ ∧ _))
  | clients size cs => inferInstanceAs (Decidable (LengthFits size (cs.flatMap DcdClient.bytes).length))

end RuleItem

namespace DcdItem

/-- The bytes of a list of them. -/
def valueOf (items : List DcdItem) : List UInt8 := items.flatMap fun
  | plain t => t.bytes
  | classifier size items => tlvBytes 0x17 size (ClassifierItem.valueOf items)
  | rule size items => tlvBytes 0x32 size (RuleItem.valueOf items)
  | config size ts => tlvBytes 0x33 size (ts.flatMap DsgTlv.bytes)

def classifier? : DcdItem → Option (List ClassifierItem)
  | classifier _ items => some items
  | _ => none

def rule? : DcdItem → Option (List RuleItem)
  | rule _ items => some items
  | _ => none

def config? : DcdItem → Option (List DsgTlv)
  | config _ ts => some ts
  | _ => none

def WellFormed : DcdItem → Prop
  | plain t => t.lTag 0 ∉ [0x17, 0x32, 0x33]
  | classifier size items => LengthFits size (ClassifierItem.valueOf items).length ∧
      ∀ it ∈ items, it.WellFormed
  | rule size items => LengthFits size (RuleItem.valueOf items).length ∧
      ∀ it ∈ items, it.WellFormed
  | config size ts => LengthFits size (ts.flatMap DsgTlv.bytes).length ∧
      ∀ t ∈ ts, t.NumberFits 0x33 [0x3301, 0x3302, 0x3303, 0x3304, 0x3305]

instance : ∀ it : DcdItem, Decidable it.WellFormed
  | plain t => inferInstanceAs (Decidable (t.lTag 0 ∉ [0x17, 0x32, 0x33]))
  | classifier _ _ => inferInstanceAs (Decidable (_ ∧ _))
  | rule _ _ => inferInstanceAs (Decidable (_ ∧ _))
  | config _ _ => inferInstanceAs (Decidable (_ ∧ _))

end DcdItem

/-- **A well-formed DCD.** -/
structure Dcd where
  items : List DcdItem
  wellFormed : ∀ it ∈ items, it.WellFormed

namespace Dcd

variable (dcd : Dcd)

def bytes : List UInt8 := DcdItem.valueOf dcd.items

def classifiers : List (List ClassifierItem) := dcd.items.filterMap DcdItem.classifier?

def rules : List (List RuleItem) := dcd.items.filterMap DcdItem.rule?

def configs : List (List DsgTlv) := dcd.items.filterMap DcdItem.config?

end Dcd

/-! ## What the structures hold -/

/-- An array holds the first of some entries, and the count says so. -/
def Entries {α β : Type} (R : α → β → Prop) (n : ℤ) (a : DsgArray α) (xs : List β) : Prop :=
  n = (min xs.length maxDsgEntries : ℕ) ∧
    ∀ (i : Fin maxDsgEntries) (y : β), xs[i.val]? = some y → R (a i) y

/-- The channels of a configuration. -/
def channels (ts : List DsgTlv) : List ℕ := numbers 0x33 0x3301 ts

def DsgIpCpe.Holds (c : DsgIpCpe) (ts : List DsgTlv) : Prop :=
  c.srcIpAddress = lastNumber 0x1709 0x170903 ts ∧
  c.srcIpMask = lastNumber 0x1709 0x170904 ts ∧
  c.destIpAddress = lastNumber 0x1709 0x170905 ts ∧
  c.nPortStart = lastNumber 0x1709 0x170909 ts ∧
  c.nPortEnd = lastNumber 0x1709 0x17090A ts

def DsgClassifier.Holds (c : DsgClassifier) (items : List ClassifierItem) : Prop :=
  c.nId = lastNumber 0x17 0x1702 (items.filterMap ClassifierItem.tlv?) ∧
  c.nPriority = lastNumber 0x17 0x1705 (items.filterMap ClassifierItem.tlv?) ∧
  c.ipCpe.Holds (items.filterMap ClassifierItem.ipCpe?).flatten

def DsgRule.Holds (r : DsgRule) (items : List RuleItem) : Prop :=
  r.nId = lastNumber 0x32 0x3201 (items.filterMap RuleItem.tlv?) ∧
  r.nPriority = lastNumber 0x32 0x3202 (items.filterMap RuleItem.tlv?) ∧
  Entries (· = ·) r.nUCIDs r.aUCIDs (items.filterMap RuleItem.ucids?).flatten ∧
  Entries (fun id c => id = c.value) r.nClients r.aClients (items.flatMap RuleItem.clientsOf) ∧
  r.dsgMacAddress = lastNumber 0x32 0x3205 (items.filterMap RuleItem.tlv?) ∧
  r.nClassifierId = lastNumber 0x32 0x3206 (items.filterMap RuleItem.tlv?)

def DsgConfig.Holds (c : DsgConfig) (ts : List DsgTlv) : Prop :=
  Entries (· = ·) c.nRxFrequencies c.aRxFrequency (channels ts) ∧
  c.nInitTimeout = lastNumber 0x33 0x3302 ts ∧
  c.nOperTimeout = lastNumber 0x33 0x3303 ts ∧
  c.nTwoWayTimeout = lastNumber 0x33 0x3304 ts ∧
  c.nOneWayTimeout = lastNumber 0x33 0x3305 ts

/-- **A structure holds a DCD**: the last number that was given for each field, uncut and whatever else
it came with, and the first entries of each list. -/
def DsgDcd.Holds (d : DsgDcd) (dcd : Dcd) : Prop :=
  Entries DsgClassifier.Holds d.nClassifiers d.aClassifiers dcd.classifiers ∧
  Entries DsgRule.Holds d.nRules d.aRules dcd.rules ∧
  d.Config.Holds dcd.configs.flatten

end MediaFramework
