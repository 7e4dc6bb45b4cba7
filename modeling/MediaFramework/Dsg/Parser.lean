import MediaFramework.Pod.BufParse

/-!
# The parser of a DCD (`vlDsgParser.c`)

A DCD is a list of TLVs, and some of them have TLVs for a value. All lists are arrays of 32 entries:
an entry beyond them is written over the last one, and the count goes on.

The loops over TLVs share one stream, and each stops by the difference of two pointers into it. None
looks at what is left in the buffer, so nothing says that they stop: they are run with fuel.

A number is read as an `unsigned long long` and cut to the type of its field. The addresses and the
channels are of type `unsigned long`, so their width is that of the data model.
-/

namespace MediaFramework

open BufStream

/-- `VL_MAX_DSG_ENTRIES`, and the size of every other array of the DSG structures. -/
abbrev maxDsgEntries : ℕ := 32

/-- An array of the DSG structures. -/
abbrev DsgArray (α : Type) := Fin maxDsgEntries → α

/-- `VL_SAFE_ARRAY_INDEX` -/
def safeArrayIndex (ix : ℕ) : Fin maxDsgEntries :=
  ⟨min ix (maxDsgEntries - 1), Nat.lt_of_le_of_lt (Nat.min_le_right _ _) (by decide)⟩

/-! ## Structures -/

/-- `VL_DSG_CLIENT_ID` -/
structure DsgClientId where
  eEncodingType : ℕ := 0
  nEncodingLength : ℕ := 0
  nEncodedId : ℕ := 0
  /-- is not parsed but set later -/
  bClientDisabled : ℕ := 0
  deriving DecidableEq

/-- `VL_DSG_IP_CPE` -/
structure DsgIpCpe where
  srcIpAddress : ℕ := 0
  srcIpMask : ℕ := 0
  destIpAddress : ℕ := 0
  nPortStart : ℕ := 0
  nPortEnd : ℕ := 0
  deriving DecidableEq

/-- `VL_DSG_CLASSIFIER` -/
structure DsgClassifier where
  nId : ℕ := 0
  nPriority : ℕ := 0
  ipCpe : DsgIpCpe := {}
  deriving DecidableEq

/-- `VL_DSG_RULE` -/
structure DsgRule where
  nId : ℕ := 0
  nPriority : ℕ := 0
  nUCIDs : ℤ := 0
  aUCIDs : DsgArray UInt8 := fun _ => 0
  nClients : ℕ := 0
  aClients : DsgArray DsgClientId := fun _ => {}
  dsgMacAddress : ℕ := 0
  nClassifierId : ℕ := 0

/-- `VL_DSG_CONFIG` -/
structure DsgConfig where
  nRxFrequencies : ℕ := 0
  aRxFrequency : DsgArray ℕ := fun _ => 0
  nInitTimeout : ℕ := 0
  nOperTimeout : ℕ := 0
  nTwoWayTimeout : ℕ := 0
  nOneWayTimeout : ℕ := 0

/-- `VL_DSG_DCD` -/
structure DsgDcd where
  nClassifiers : ℕ := 0
  aClassifiers : DsgArray DsgClassifier := fun _ => {}
  nRules : ℕ := 0
  aRules : DsgArray DsgRule := fun _ => {}
  Config : DsgConfig := {}

section Parsers

variable (mem : List UInt8)

/-- `vlParseDsgClientId` -/
def vlParseDsgClientId (s : BufStream) : Option (DsgClientId × BufStream) := do
  let (eEncodingType, s) ← s.vlParseByte mem
  let (nEncodingLength, s) ← s.vlParseByte mem
  let (nEncodedId, s) ← s.vlParseNByteLong mem nEncodingLength
  return (⟨eEncodingType, nEncodingLength, nEncodedId, 0⟩, s)

/-! ## Loops over TLVs -/

/-- Ghost: where a TLV begins, and where the stream stands once it is parsed. -/
abbrev DsgSpans := List (ℤ × ℤ)

/-- What a round of a loop makes of a structure and the stream. -/
abbrev DsgRound (β : Type) := β → BufStream → Option (β × BufStream × DsgSpans)

variable {β : Type}

/-- A loop that goes on until the stream has come so far from where it began. -/
def dsgLoop (round : DsgRound β) (nOrgLength pOrgBuf : ℤ) : ℕ → DsgRound β
  | 0, _, _ => none
  | fuel + 1, x, s =>
    if s.currentBuf - pOrgBuf < nOrgLength then do
      let (x, s', inner) ← round x s
      let (x, s'', spans) ← dsgLoop round nOrgLength pOrgBuf fuel x s'
      return (x, s'', inner ++ (s.currentBuf, s'.currentBuf) :: spans)
    else some (x, s, [])

/-- The tag and the length that each TLV begins with. -/
def parseTag (lPrefix : ℕ) (s : BufStream) : Option (ℕ × ℤ × BufStream) := do
  let (b, s) ← s.vlParseByte mem
  let (nLength, s) ← s.vlParseCcApduLengthField mem
  return (lPrefix <<< 8 ||| b, int32 nLength, s)

/-- A round over a TLV, by what the switch does for its tag. -/
def dsgTlvRound (lPrefix : ℕ) (onTag : ℕ → ℤ → DsgRound β) : DsgRound β := fun x s => do
  let (lTag, nLength, s) ← parseTag mem lPrefix s
  onTag lTag nLength x s

/-- A number of so many bytes is put somewhere. -/
def parseNumber (nLength : ℤ) (set : ℕ → β) (s : BufStream) :
    Option (β × BufStream × DsgSpans) := do
  let (v, s) ← s.vlParseNByteLong mem nLength
  return (set v, s, [])

/-- Superfluous or vendor data is passed over. -/
def discard (nLength : ℤ) (x : β) (s : BufStream) : Option (β × BufStream × DsgSpans) := do
  let (_, s) ← s.vlParseBuffer mem false nLength 0
  return (x, s, [])

section Numbers

variable (m : DataModel)

/-- The switch of `vlParseDsgIpCpe`. -/
def ipCpeOnTag (lTag : ℕ) (nLength : ℤ) : DsgRound DsgIpCpe := fun c s =>
  if lTag = 0x170903 then
    parseNumber mem nLength (fun v => { c with srcIpAddress := v % 2 ^ m.longBits }) s
  else if lTag = 0x170904 then
    parseNumber mem nLength (fun v => { c with srcIpMask := v % 2 ^ m.longBits }) s
  else if lTag = 0x170905 then
    parseNumber mem nLength (fun v => { c with destIpAddress := v % 2 ^ m.longBits }) s
  else if lTag = 0x170909 then
    parseNumber mem nLength (fun v => { c with nPortStart := v % 2 ^ 16 }) s
  else if lTag = 0x17090A then
    parseNumber mem nLength (fun v => { c with nPortEnd := v % 2 ^ 16 }) s
  else discard mem nLength c s

/-- `vlParseDsgIpCpe` -/
def vlParseDsgIpCpe (fuel lPrefix : ℕ) (nOrgLength pOrgBuf : ℤ) (s : BufStream) :
    Option (DsgIpCpe × BufStream × DsgSpans) :=
  dsgLoop (dsgTlvRound mem lPrefix (ipCpeOnTag mem m)) nOrgLength pOrgBuf fuel {} s

/-- The switch of `vlParseDsgConfig`. -/
def configOnTag (lTag : ℕ) (nLength : ℤ) : DsgRound DsgConfig := fun c s =>
  if lTag = 0x3301 then
    parseNumber mem nLength (fun v => { c with
      nRxFrequencies := c.nRxFrequencies + 1
      aRxFrequency :=
        Function.update c.aRxFrequency (safeArrayIndex c.nRxFrequencies) (v % 2 ^ m.longBits) }) s
  else if lTag = 0x3302 then
    parseNumber mem nLength (fun v => { c with nInitTimeout := v % 2 ^ 16 }) s
  else if lTag = 0x3303 then
    parseNumber mem nLength (fun v => { c with nOperTimeout := v % 2 ^ 16 }) s
  else if lTag = 0x3304 then
    parseNumber mem nLength (fun v => { c with nTwoWayTimeout := v % 2 ^ 16 }) s
  else if lTag = 0x3305 then
    parseNumber mem nLength (fun v => { c with nOneWayTimeout := v % 2 ^ 16 }) s
  else discard mem nLength c s

/-- `vlParseDsgConfig` -/
def vlParseDsgConfig (fuel lPrefix : ℕ) (nOrgLength pOrgBuf : ℤ) (s : BufStream) :
    Option (DsgConfig × BufStream × DsgSpans) :=
  dsgLoop (dsgTlvRound mem lPrefix (configOnTag mem m)) nOrgLength pOrgBuf fuel {} s

end Numbers

/-- A round of `vlParseDsgClientIdList`. -/
def clientRound : DsgRound DsgRule := fun r s => do
  let (id, s) ← vlParseDsgClientId mem s
  return ({ r with
    nClients := r.nClients + 1
    aClients := Function.update r.aClients (safeArrayIndex r.nClients) id }, s, [])

/-- `vlParseDsgClientIdList` -/
def vlParseDsgClientIdList (fuel : ℕ) (nOrgLength pOrgBuf : ℤ) : DsgRound DsgRule :=
  dsgLoop (clientRound mem) nOrgLength pOrgBuf fuel

/-- A list of UCIDs. It is copied whole, and undefined if the array has no room for it. -/
def parseUcids (nLength : ℤ) : DsgRound DsgRule := fun r s => do
  let (bytes, s) ← s.vlParseBuffer mem true nLength maxDsgEntries
  if bytes.length ≤ maxDsgEntries then
    return ({ r with nUCIDs := nLength, aUCIDs := fun i => bytes.getD i (r.aUCIDs i) }, s, [])
  else none

/-- The switch of `vlParseDsgRule`. -/
def ruleOnTag (fuel lTag : ℕ) (nLength : ℤ) : DsgRound DsgRule := fun r s =>
  if lTag = 0x3201 then parseNumber mem nLength (fun v => { r with nId := v % 2 ^ 8 }) s
  else if lTag = 0x3202 then
    parseNumber mem nLength (fun v => { r with nPriority := v % 2 ^ 8 }) s
  else if lTag = 0x3203 then parseUcids mem nLength r s
  else if lTag = 0x3204 then vlParseDsgClientIdList mem fuel nLength s.currentBuf r s
  else if lTag = 0x3205 then
    parseNumber mem nLength (fun v => { r with dsgMacAddress := v }) s
  else if lTag = 0x3206 then
    parseNumber mem nLength (fun v => { r with nClassifierId := v % 2 ^ 16 }) s
  else discard mem nLength r s

/-- `vlParseDsgRule` -/
def vlParseDsgRule (fuel lPrefix : ℕ) (nOrgLength pOrgBuf : ℤ) (s : BufStream) :
    Option (DsgRule × BufStream × DsgSpans) :=
  dsgLoop (dsgTlvRound mem lPrefix (ruleOnTag mem fuel)) nOrgLength pOrgBuf fuel {} s

variable (m : DataModel)

/-- The switch of `vlParseDsgClassifier`. For the id and the priority the length is not looked at. -/
def classifierOnTag (fuel lTag : ℕ) (nLength : ℤ) : DsgRound DsgClassifier := fun c s =>
  if lTag = 0x1702 then do
    let (nId, s) ← s.vlParseShort mem
    return ({ c with nId := nId }, s, [])
  else if lTag = 0x1705 then do
    let (nPriority, s) ← s.vlParseByte mem
    return ({ c with nPriority := nPriority }, s, [])
  else if lTag = 0x1709 then do
    let (ipCpe, s, spans) ← vlParseDsgIpCpe mem m fuel lTag nLength s.currentBuf s
    return ({ c with ipCpe := ipCpe }, s, spans)
  else discard mem nLength c s

/-- `vlParseDsgClassifier` -/
def vlParseDsgClassifier (fuel lPrefix : ℕ) (nOrgLength pOrgBuf : ℤ) (s : BufStream) :
    Option (DsgClassifier × BufStream × DsgSpans) :=
  dsgLoop (dsgTlvRound mem lPrefix (classifierOnTag mem m fuel)) nOrgLength pOrgBuf fuel {} s

/-- The switch of `vlParseDsgDCD`. -/
def dcdOnTag (fuel lTag : ℕ) (nLength : ℤ) : DsgRound DsgDcd := fun d s =>
  if lTag = 0x17 then do
    let (c, s, spans) ← vlParseDsgClassifier mem m fuel lTag nLength s.currentBuf s
    return ({ d with
      nClassifiers := d.nClassifiers + 1
      aClassifiers := Function.update d.aClassifiers (safeArrayIndex d.nClassifiers) c }, s, spans)
  else if lTag = 0x32 then do
    let (r, s, spans) ← vlParseDsgRule mem fuel lTag nLength s.currentBuf s
    return ({ d with
      nRules := d.nRules + 1
      aRules := Function.update d.aRules (safeArrayIndex d.nRules) r }, s, spans)
  else if lTag = 0x33 then do
    let (c, s, spans) ← vlParseDsgConfig mem m fuel lTag nLength s.currentBuf s
    return ({ d with Config := c }, s, spans)
  else discard mem nLength d s

/-- `vlParseDsgDCD` -/
def vlParseDsgDCD (fuel : ℕ) (nOrgLength pOrgBuf : ℤ) (s : BufStream) :
    Option (DsgDcd × BufStream × DsgSpans) :=
  dsgLoop (dsgTlvRound mem 0 (dcdOnTag mem m fuel)) nOrgLength pOrgBuf fuel {} s

end Parsers

end MediaFramework
