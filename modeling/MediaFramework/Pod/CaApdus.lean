import MediaFramework.Lib.Loop
import MediaFramework.Pod.DecryptSessions

/-!
# The CA APDUs of the CableCARD

The card answers a CA_PMT with a CA_PMT_REPLY, and tells of a change with a CA_PMT_UPDATE. Both
carry the index and the transaction id of a row of the program index table, a `ca_enable` for the
program and one for each elementary stream.

The `ca_enable`s of the streams are put into the row one after the other, each with its PID, no
matter which streams the row has. A reply is valid only for a row that waits for one; an update
is valid for any other row, and so for one that is not in use.
-/

namespace MediaFramework

/-! ## Reading an APDU -/

/-- `RMF_PODMGR_CA_PMT_REPLY_TAG`. -/
abbrev caPmtReplyTag : BitVec 24 := 0x9F8033

/-- `RMF_PODMGR_CA_PMT_UPDATE_TAG`. -/
abbrev caPmtUpdateTag : BitVec 24 := 0x9F8034

/-- `RMF_PODMGR_CA_ENABLE_SET` is set. -/
def caEnableSet (b : BitVec 8) : Bool := b &&& 0x80 != 0

/-- The bytes of an APDU; what is behind them has no defined value. -/
abbrev Apdu := List (BitVec 8)

namespace Apdu

/-- `getApduTag`. -/
def tag (apdu : Apdu) : Option (BitVec 24) := do
  let a ← apdu[0]?
  let b ← apdu[1]?
  let c ← apdu[2]?
  some (a ++ b ++ c)

/-- `getApduDataOffset`. -/
def dataOffset (apdu : Apdu) : Option ℕ := do
  let size ← apdu[3]?
  some (if caEnableSet size then 4 + (size &&& 0x7F).toNat else 4)

/-- `getApduDataLen`, as the `uint16_t` it is assigned to. A length field of less than two bytes
is shifted by a negative number, which is not defined. -/
def dataLen (apdu : Apdu) : Option ℕ := do
  let size ← apdu[3]?
  let fieldSize := (size &&& 0x7F).toNat
  if !caEnableSet size then some fieldSize
  else if fieldSize > 2 then some 0xFFFF
  else if fieldSize = 2 then do
    let high ← apdu[4]?
    let low ← apdu[5]?
    some (high ++ low).toNat
  else none

/-- `getProgramIdxFromCaReply` and `getProgramIdxFromCaUpdate`. -/
def programIdx (apdu : Apdu) : Option (BitVec 8) := do
  let offset ← apdu.dataOffset
  apdu[offset]?

/-- `getTransactionIdFromCaReply` and `getTransactionIdFromCaUpdate`. -/
def transactionId (apdu : Apdu) : Option (BitVec 8) := do
  let offset ← apdu.dataOffset
  apdu[offset + 1]?

/-- `getOuterCaEnableFromCaReply` and `getOuterCaEnableFromCaUpdate`. -/
def outerCaEnable (apdu : Apdu) : Option (BitVec 8) := do
  let offset ← apdu.dataOffset
  apdu[offset + 7]?

/-- A round of the loop of `getInnerCaEnablesFromCaReply` and `getInnerCaEnablesFromCaUpdate`, for
arrays of 512. The index is a `uint16_t`, and an entry may be cut by its wrapping. -/
def innerRound (apdu : Apdu) (apduSize : ℕ) : ℕ × List StreamDecryptInfo →
    Option (List StreamDecryptInfo) ⊕ (ℕ × List StreamDecryptInfo)
  | (apduIdx, streams) =>
    if apduIdx < apduSize then
      match apdu[apduIdx]?, apdu[(apduIdx + 1) % 2 ^ 16]?, apdu[(apduIdx + 2) % 2 ^ 16]? with
      | some high, some low, some enable =>
        if !caEnableSet enable then .inr ((apduIdx + 3) % 2 ^ 16, streams)
        else if streams.length < 512 then
          .inr ((apduIdx + 3) % 2 ^ 16,
            streams ++ [⟨high ++ low, (enable &&& 0x7F).setWidth 16⟩])
        else .inl none
      | _, _, _ => .inl none
    else .inl (some streams)

/-- `getInnerCaEnablesFromCaReply` and `getInnerCaEnablesFromCaUpdate`: the streams that have a
`ca_enable`. The loop leaves within as many rounds as the index has values. -/
def innerCaEnables (apdu : Apdu) : Option (List StreamDecryptInfo) := do
  let dataOffset ← apdu.dataOffset
  let dataSize ← apdu.dataLen
  let apduSize := (dataOffset + dataSize) % 2 ^ 16
  (iterate (apdu.innerRound apduSize) 65536 (dataOffset + 8, [])).join

end Apdu

/-! ## What an APDU does -/

/-- `caEnableArray[i] & 0x7F`, of a status. -/
abbrev CaEnable := BitVec 16

/-- The streams of a row, with as many as there are overwritten from the first on. -/
def overwrite : List StreamDecryptInfo → List StreamDecryptInfo → List StreamDecryptInfo
  | _ :: pids, stream :: streams => stream :: overwrite pids streams
  | pids, [] => pids
  | [], _ => []

/-- The `ca_enable` that is handled for those of the streams: the first that fails, or else the
last that needs a dialog, or else one that is descrambled. -/
def strongest : List CaEnable → Option CaEnable → Option CaEnable → Option CaEnable
  | [], mmi, success => mmi.or success
  | e :: es, mmi, success =>
    if e = 0x71 ∨ e = 0x73 then some e
    else if e = 2 ∨ e = 3 then strongest es (some e) success
    else if e = 1 then strongest es mmi (some e)
    else strongest es mmi success

namespace DecryptSessions

/-- The first session of a row, and its copy of the descriptor, are read to make a CA_PMT. -/
def firstSession (sessions : List RequestTableRow) : Option RequestTableRow := do
  let request ← sessions.head?
  let _ ← request.pServiceHandle
  some request

/-- The row after a CA_PMT with `ok_descramble` was sent for it. -/
def okDescramble (s : DecryptSessions) (i : ℕ) (row : ProgramIndexTableRow)
    (request : RequestTableRow) (transactionId : BitVec 8) : DecryptSessions :=
  (s.setRow i { row with caPmtCmdId := .okDescramble, transactionId := transactionId }).setRequest
    request.handle fun r => { r with caPmtCmdId := .okDescramble }

/-- The state of a row is set, and its sessions are told. -/
def setState (s : DecryptSessions) (programIdx : BitVec 8) (state : DecryptState)
    (event : DecryptSessionEvent) : Option DecryptSessions := do
  let row ← s.rowList[programIdx.toNat]?
  (s.setRow programIdx.toNat { row with state := state }).sendEventImpl event programIdx

/-- `RMF_PODMGR_CA_ENABLE_DESCRAMBLING_NO_CONDITIONS`. -/
def handleDescrambling (s : DecryptSessions) (programIdx : BitVec 8)
    (row : ProgramIndexTableRow) (sessions : List RequestTableRow) (sent : CaPmtResult) :
    Option DecryptSessions :=
  if row.state = .descrambling then some s
  else do
    let s ← if row.caPmtCmdId = .okDescramble then some s
      else do
        let transactionId ← s.nextTransactionId programIdx.toNat
        let request ← firstSession sessions
        some (if sent = .success then s.okDescramble programIdx.toNat row request transactionId
          else s)
    s.setState programIdx .descrambling .fullyAuthorized

/-- `RMF_PODMGR_CA_ENABLE_DESCRAMBLING_WITH_PAYMENT` and `_WITH_TECH`. -/
def handleMmi (s : DecryptSessions) (programIdx : BitVec 8) (row : ProgramIndexTableRow)
    (sessions : List RequestTableRow) (sent : CaPmtResult) (event : DecryptSessionEvent) :
    Option DecryptSessions := do
  let transactionId ← s.nextTransactionId programIdx.toNat
  let request ← firstSession sessions
  if sent = .success then
    (s.okDescramble programIdx.toNat row request transactionId).setState programIdx .issuedMmi event
  else some s

/-- `RMF_PODMGR_CA_ENABLE_DESCRAMBLING_PAYMENT_FAIL` and `_TECH_FAIL`. -/
def handleFailure (s : DecryptSessions) (programIdx : BitVec 8) (row : ProgramIndexTableRow)
    (event : DecryptSessionEvent) : Option DecryptSessions :=
  (s.setRow programIdx.toNat { row with caPmtCmdId := .unset }).setState programIdx
    .failedDescrambling event

/-- `handleCaEnable`. -/
def handleCaEnable (s : DecryptSessions) (enable : CaEnable) (programIdx : BitVec 8)
    (sent : CaPmtResult) : Option DecryptSessions := do
  let row ← s.rowList[programIdx.toNat]?
  let sessions ← s.sessionsFor programIdx
  if enable = 1 then s.handleDescrambling programIdx row sessions sent
  else if enable = 2 then s.handleMmi programIdx row sessions sent .mmiPurchaseDialog
  else if enable = 3 then s.handleMmi programIdx row sessions sent .mmiTechnicalDialog
  else if enable = 0x71 then s.handleFailure programIdx row .cannotDescrambleEntitlement
  else if enable = 0x73 then s.handleFailure programIdx row .cannotDescrambleResources
  else some s

/-- `setPidArrayForProgramIndex`: `llist_first` reads the list of the row. -/
def setPidArray (s : DecryptSessions) (i : ℕ)
    (f : List StreamDecryptInfo → List StreamDecryptInfo) : Option DecryptSessions := do
  let row ← s.rowList[i]?
  let pids ← row.authorizedPids
  some (s.setRow i { row with authorizedPids := some (f pids) })

/-- `updatePODDecryptRequestAndResource`, for the `ca_enable` of the program. -/
def updateProgram (s : DecryptSessions) (programIdx : BitVec 8) (enable : BitVec 8)
    (sent : CaPmtResult) : Option DecryptSessions := do
  let status : CaEnable := (enable &&& 0x7F).setWidth 16
  let s ← s.setPidArray programIdx.toNat fun pids => pids.map fun p => { p with status := status }
  s.handleCaEnable status programIdx sent

/-- `updatePODDecryptRequestAndResource`, for the `ca_enable`s of the streams. -/
def updateStreams (s : DecryptSessions) (programIdx : BitVec 8)
    (streams : List StreamDecryptInfo) (sent : CaPmtResult) : Option DecryptSessions := do
  let s ← s.setPidArray programIdx.toNat fun pids => overwrite pids streams
  match strongest (streams.map StreamDecryptInfo.status) none none with
  | none => some s
  | some enable => s.handleCaEnable enable programIdx sent

/-- The `ca_enable`s of a valid APDU: that of the program, then those of the streams. -/
def processCaEnables (s : DecryptSessions) (programIdx : BitVec 8) (apdu : Apdu)
    (outerSent innerSent : CaPmtResult) : Option DecryptSessions := do
  let outer ← apdu.outerCaEnable
  let s ← if caEnableSet outer then s.updateProgram programIdx outer outerSent else some s
  let streams ← apdu.innerCaEnables
  if streams = [] then some s else s.updateStreams programIdx streams innerSent

/-- `isValidReply` and `isValidUpdate`: only the row of the index is looked at. -/
def isValid (s : DecryptSessions) (programIdx transactionId : BitVec 8)
    (isState : DecryptState → Bool) : Option Bool :=
  if programIdx.toNat < s.numRows then
    (s.rowList[programIdx.toNat]?).map fun row =>
      row.transactionId == transactionId && isState row.state
  else some false

/-- The states of the rows that an APDU with the tag is valid for. -/
def statesFor (tag : BitVec 24) : Option (DecryptState → Bool) :=
  if tag = caPmtReplyTag then some (· == .issuedQuery)
  else if tag = caPmtUpdateTag then some (· != .issuedQuery)
  else none

/-- `podProcessApduInt`. -/
def podProcessApdu (s : DecryptSessions) (sessionId : BitVec 32) (apdu : Apdu)
    (outerSent innerSent : CaPmtResult) : Option DecryptSessions :=
  if sessionId ≠ s.casSessionId ∨ s.caEnable = false then some s
  else do
    let tag ← apdu.tag
    match statesFor tag with
    | none => some s
    | some isState => do
      let programIdx ← apdu.programIdx
      let transactionId ← apdu.transactionId
      let valid ← s.isValid programIdx transactionId isState
      if valid then s.processCaEnables programIdx apdu outerSent innerSent else some s

end DecryptSessions

end MediaFramework
