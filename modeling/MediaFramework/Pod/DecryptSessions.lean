import Mathlib.Data.BitVec
import MediaFramework.Lib.Run
import MediaFramework.Lib.Table

/-!
# The decrypt sessions of the CableCARD

The decrypt session manager keeps two tables. A request is a session that was started; a row of
the program index table is a program that the card is asked to descramble, and the request that
it is for has its index. Beside the rows there are counts of the programs, elementary streams and
transport streams that are used, which are held against the limits of the card.

A call holds `table_mutex`, and the loop that activates the suspended sessions holds it from its
first row to its last. A call that finds it taken has to wait: it has not been made yet. A start
takes it twice, to look at the resources and to commit them; it is one call here, so nothing comes
between the two.
-/

namespace MediaFramework

/-! ## Descriptors -/

/-- `rmf_PodmgrStreamDecryptInfo`: an elementary stream, and the `ca_enable` the card gave. -/
structure StreamDecryptInfo where
  pid : BitVec 16
  status : BitVec 16
  deriving DecidableEq

/-- `parsedDescriptors`: what a CA_PMT is made of. -/
structure ParsedDescriptors where
  prgNo : BitVec 32
  srcId : BitVec 32
  caDescFound : BitVec 8
  noES : ℕ
  pESInfo : Option (List StreamDecryptInfo)
  length_pESInfo : ∀ l ∈ pESInfo, l.length = noES

namespace ParsedDescriptors

/-- `numStreams`, a `uint8_t`. -/
def numStreams (d : ParsedDescriptors) : ℕ := d.noES % 256

/-- The streams that are copied until the memory for one is not there. -/
def copyStreams (d : ParsedDescriptors) (pidInfos : ℕ) : Option (List StreamDecryptInfo) :=
  match d.pESInfo with
  | some streams => some (streams.take (min d.numStreams pidInfos))
  | none => if min d.numStreams pidInfos = 0 then some [] else none

/-- `pESInfo` is freed. -/
def freeStreams (d : ParsedDescriptors) : ParsedDescriptors :=
  { d with pESInfo := none, length_pESInfo := fun l hl => absurd hl (Option.not_mem_none l) }

end ParsedDescriptors

/-! ## The tables -/

/-- `RMF_PODMGRDecryptState`. -/
inductive DecryptState
  | notSelected
  | issuedQuery
  | issuedMmi
  | descrambling
  | failedDescrambling
  deriving DecidableEq

/-- `RMF_PODMGRDecryptRequestState`. -/
inductive DecryptRequestState
  | unknown
  | active
  | waitingForResources
  deriving DecidableEq

/-- `ca_pmt_cmd_id`. -/
inductive CaPmtCommand
  | unset
  | okDescramble
  | okMmi
  | query
  | notSelected
  deriving DecidableEq

/-- `rmf_PODSRVDecryptSessionEvent`, those that are sent to sessions. -/
inductive DecryptSessionEvent
  | fullyAuthorized
  | mmiPurchaseDialog
  | mmiTechnicalDialog
  | cannotDescrambleEntitlement
  | cannotDescrambleResources
  | resourceLost
  | sessionShutdown
  deriving DecidableEq

/-- `podImpl_ProgramIndexTableRow`; the row after `memset`. -/
structure ProgramIndexTableRow where
  transactionId : BitVec 8 := 0
  ltsid : BitVec 8 := 0
  programNum : BitVec 16 := 0
  sourceId : BitVec 16 := 0
  caPmtCmdId : CaPmtCommand := .unset
  state : DecryptState := .notSelected
  authorizedPids : Option (List StreamDecryptInfo) := none
  tunerId : BitVec 8 := 0
  /-- ghost: the tuner of the program that the row is for -/
  tuner : BitVec 8 := 0
  deriving DecidableEq

namespace ProgramIndexTableRow

/-- `ACTIVE_DECRYPT_STATE`. -/
def inUse (r : ProgramIndexTableRow) : Bool :=
  match r.state with
  | .notSelected => false
  | .issuedQuery | .issuedMmi | .descrambling | .failedDescrambling => true

/-- `llist_cnt( rowPtr->authorizedPids )`. -/
def pidCount (r : ProgramIndexTableRow) : ℕ := (r.authorizedPids.getD []).length

end ProgramIndexTableRow

/-- `podImpl_RequestTableRow`. Each has a copy of its own of the descriptor. -/
structure RequestTableRow where
  /-- the address: the how-manieth request it is -/
  handle : ℕ
  programIdx : BitVec 8
  pServiceHandle : Option ParsedDescriptors
  tunerId : BitVec 8
  priority : BitVec 8
  sourceId : BitVec 16
  state : DecryptRequestState
  caPmtCmdId : CaPmtCommand := .unset
  ltsId : BitVec 8 := 0

/-- Where the event handler thread is. -/
inductive PodWorker
  | idle
  /-- the CA session is opened, `table_mutex` is not taken yet -/
  | connected
  /-- in the loop of `activateSuspendedCASessions`, with `table_mutex` -/
  | activating (row : ℕ)
  deriving DecidableEq

/-- The decrypt session manager, and the limits of the card. -/
structure DecryptSessions where
  /-- `g_podImpl_ca_enable` -/
  caEnable : Bool := true
  /-- `MPE_MPOD_CA_QUERY_DISABLED` is not set, or set to `TRUE` -/
  queryDisabled : Bool := false
  /-- `pod_isReady` -/
  ready : Bool := false
  casSessionId : BitVec 32 := 0
  maxElemStreams : ℕ := 0
  maxPrograms : ℕ := 0
  maxTransportStreams : ℕ := 0
  transportStreamsUsed : ℕ := 0
  programsUsed : ℕ := 0
  elementaryStreamsUsed : ℕ := 0
  numRows : ℕ := 0
  rows : Option (List ProgramIndexTableRow) := none
  /-- `requestTable` -/
  requests : List RequestTableRow := []
  worker : PodWorker := .idle
  /-- ghost: how many requests have been allocated -/
  allocated : ℕ := 0
  /-- ghost: the events that were sent, and the sessions they were sent to -/
  posted : List (ℕ × DecryptSessionEvent) := []

/-- What becomes of a CA_PMT: `createAndSendCaPMTApdu`. -/
inductive CaPmtResult
  | success
  | noData
  | error
  deriving DecidableEq

namespace DecryptSessions

/-- The rows that are allocated. -/
def rowList (s : DecryptSessions) : List ProgramIndexTableRow := s.rows.getD []

/-- A row is replaced. -/
def setRow (s : DecryptSessions) (i : ℕ) (r : ProgramIndexTableRow) : DecryptSessions :=
  { s with rows := s.rows.map fun rows => rows.set i r }

/-- A request is changed. -/
def setRequest (s : DecryptSessions) (h : ℕ) (f : RequestTableRow → RequestTableRow) :
    DecryptSessions :=
  { s with requests := s.requests.map fun r => if r.handle = h then f r else r }

/-- `addRequestToTable`. -/
def addRequest (s : DecryptSessions) (r : RequestTableRow) : DecryptSessions :=
  { s with requests := s.requests ++ [r] }

/-- `removeRequestFromTable`, and what `releaseDecryptRequest` does to the table. -/
def removeRequest (s : DecryptSessions) (h : ℕ) : DecryptSessions :=
  { s with requests := s.requests.filter fun r => r.handle ≠ h }

/-- `sendDecryptSessionEvent`, for each of the sessions. -/
def post (s : DecryptSessions) (event : DecryptSessionEvent) (sessions : List RequestTableRow) :
    DecryptSessions :=
  { s with posted := s.posted ++ sessions.map fun r => (r.handle, event) }

/-- `getDecryptSessionsForProgramIndex`, with the array of ten that it writes to. -/
def sessionsFor (s : DecryptSessions) (programIdx : BitVec 8) : Option (List RequestTableRow) :=
  let sessions := s.requests.filter fun r => r.programIdx = programIdx
  if sessions.length ≤ 10 then some sessions else none

/-- `sendEventImpl`. -/
def sendEventImpl (s : DecryptSessions) (event : DecryptSessionEvent) (programIdx : BitVec 8) :
    Option DecryptSessions :=
  match s.rows with
  | none => some s
  | some _ => (s.sessionsFor programIdx).map fun sessions => s.post event sessions

/-! ## Resources -/

/-- `tunerInUse`: it finds a row by its `tunerId` only if that is zero. -/
def tunerInUse (s : DecryptSessions) (tunerId : BitVec 8) : Option Bool :=
  (scan (fun r => r.tunerId == 0 && r.tunerId == tunerId) s.numRows s.rowList).map Option.isSome

/-- What `checkAvailableResources` compares. -/
def available (s : DecryptSessions) (numStreams : ℕ) : Bool :=
  s.programsUsed + 1 ≤ s.maxPrograms && s.elementaryStreamsUsed + numStreams ≤ s.maxElemStreams

/-- `checkAvailableResources`. -/
def checkAvailableResources (s : DecryptSessions) (tunerId : BitVec 8) (numStreams : ℕ) :
    Option (Bool × DecryptSessions) :=
  match s.rows with
  | none => some (false, s)
  | some _ =>
    if s.transportStreamsUsed = 0 then some (s.available numStreams, s)
    else do
      let inUse ← s.tunerInUse tunerId
      -- `tunersNeeded` is `transportStreamsUsed++`
      some (s.available numStreams,
        if inUse then s else { s with transportStreamsUsed := s.transportStreamsUsed + 1 })

/-- `getNextAvailableProgramIndexTableRow`: `none` is -1. -/
def getNextAvailableRow (s : DecryptSessions) : Option (Option ℕ) :=
  scan (fun r => r.state == .notSelected) s.numRows s.rowList

/-- `getNextTransactionIdForProgramIndex`. -/
def nextTransactionId (s : DecryptSessions) (i : ℕ) : Option (BitVec 8) :=
  match s.rows with
  | none => some 1
  | some rows => (rows[i]?).map fun r => (r.transactionId + 1) % 255

/-- The row for a program that was asked for. -/
def committedRow (row : ProgramIndexTableRow) (caPmtCmdId : CaPmtCommand) (d : ParsedDescriptors)
    (transactionId tunerId ltsId : BitVec 8) (state : DecryptState)
    (streams : List StreamDecryptInfo) : ProgramIndexTableRow :=
  -- `tunerId` is not written
  { row with
    caPmtCmdId := caPmtCmdId
    programNum := d.prgNo.setWidth 16
    transactionId := transactionId
    ltsid := ltsId
    sourceId := d.srcId.setWidth 16
    state := state
    authorizedPids := some streams
    tuner := tunerId }

/-- `commitProgramIndexTableRow`; there is memory for `pidInfos` streams. -/
def commitRow (s : DecryptSessions) (i : ℕ) (caPmtCmdId : CaPmtCommand) (d : ParsedDescriptors)
    (transactionId tunerId ltsId : BitVec 8) (state : DecryptState) (pidInfos : ℕ) :
    Option DecryptSessions :=
  match s.rows with
  | none => some s
  | some rows => do
    let inUse ← s.tunerInUse tunerId
    let row ← rows[i]?
    let streams ← d.copyStreams pidInfos
    some { s with
      transportStreamsUsed :=
        if inUse then s.transportStreamsUsed else s.transportStreamsUsed + 1
      programsUsed := s.programsUsed + 1
      elementaryStreamsUsed := s.elementaryStreamsUsed + d.numStreams
      rows := some (rows.set i
        (committedRow row caPmtCmdId d transactionId tunerId ltsId state streams)) }

/-- `releaseProgramIndexRow`: no count goes below zero, and the row keeps its transaction id. -/
def releaseRow (s : DecryptSessions) (i : ℕ) : Option DecryptSessions :=
  match s.rows with
  | none => some s
  | some rows => do
    let row ← rows[i]?
    some { s with
      programsUsed := s.programsUsed - 1
      elementaryStreamsUsed := s.elementaryStreamsUsed - row.pidCount
      transportStreamsUsed := s.transportStreamsUsed - 1
      rows := some (rows.set i { transactionId := row.transactionId }) }

/-- `rowPtr->transactionId` is written. -/
def setTransactionId (s : DecryptSessions) (i : ℕ) (transactionId : BitVec 8) :
    Option DecryptSessions :=
  (s.rowList[i]?).map fun row => s.setRow i { row with transactionId := transactionId }

end DecryptSessions

/-- `decryptRequestParams`. -/
structure DecryptRequestParams where
  tunerId : BitVec 32
  ltsId : BitVec 8
  priority : BitVec 32
  pDescriptor : ParsedDescriptors

/-- What a start meets with. -/
structure StartOutcome where
  requestMemory : Bool := true
  pidsMemory : Bool := true
  /-- the descriptor can be copied -/
  dupMemory : Bool := true
  /-- how many streams there is memory for -/
  pidInfos : ℕ := 255
  sent : CaPmtResult := .success

/-- What `podmgrStartDecrypt` returns: an error, or `*sessionHandlePtr`. -/
inductive StartResult
  | failed
  | started (handle : Option ℕ)
  deriving DecidableEq

namespace DecryptRequestParams

/-- `isClear`. -/
def isClear (p : DecryptRequestParams) : Bool := p.pDescriptor.caDescFound != 1

/-- `skip_ca_query_flag`: a request is never for a recording, as `isRecording` is not set. -/
def skipCaQuery (p : DecryptRequestParams) (queryDisabled : Bool) : Bool :=
  p.isClear || (queryDisabled && p.priority != 31)

/-- The request as it is filled in at first. -/
def newRequest (p : DecryptRequestParams) (handle : ℕ) (dupMemory : Bool) : RequestTableRow where
  handle := handle
  programIdx := 0
  pServiceHandle := if dupMemory then some p.pDescriptor else none
  tunerId := p.tunerId.setWidth 8
  priority := p.priority.setWidth 8
  sourceId := p.pDescriptor.srcId.setWidth 16
  state := .unknown

end DecryptRequestParams

namespace DecryptSessions

/-- The end of a start whose CA_PMT was sent. -/
def committed (s : DecryptSessions) (p : DecryptRequestParams) (h : ℕ) (i : BitVec 8)
    (transactionId : BitVec 8) (pidInfos : ℕ) : Option DecryptSessions := do
  let skip := p.skipCaQuery s.queryDisabled
  let caPmtCmdId := if skip then CaPmtCommand.okDescramble else .query
  let s ← s.commitRow i.toNat caPmtCmdId p.pDescriptor transactionId (p.tunerId.setWidth 8)
    p.ltsId (if skip then .descrambling else .issuedQuery) pidInfos
  let s := s.setRequest h fun r => { r with state := .active, caPmtCmdId := caPmtCmdId }
  if !p.isClear && skip then s.sendEventImpl .fullyAuthorized i else some s

/-- `podmgrStartDecrypt` with the card ready. -/
def startReady (s : DecryptSessions) (p : DecryptRequestParams) (o : StartOutcome)
    (request : RequestTableRow) : Option (StartResult × DecryptSessions) := do
  let row ← s.getNextAvailableRow
  -- -1 is 255 as a `uint8_t`
  let i := BitVec.ofNat 8 (row.getD 255)
  let s := s.addRequest { request with programIdx := i, ltsId := p.ltsId }
  let transactionId ← s.nextTransactionId i.toNat
  match o.sent with
  | .success =>
    let s ← s.committed p request.handle i transactionId o.pidInfos
    some (.started (some request.handle), s)
  | .noData => some (.started none, s.removeRequest request.handle)
  | .error => some (.failed, s.removeRequest request.handle)

/-- `podmgrStartDecrypt`. -/
def podmgrStartDecrypt (s : DecryptSessions) (p : DecryptRequestParams) (o : StartOutcome) :
    Option (StartResult × DecryptSessions) :=
  if !s.caEnable then some (.started none, s)
  else do
    let (available, s) ← s.checkAvailableResources (p.tunerId.setWidth 8) p.pDescriptor.numStreams
    if !available || !o.requestMemory || !o.pidsMemory then some (.failed, s)
    else
      let request := p.newRequest s.allocated o.dupMemory
      let s := { s with allocated := s.allocated + 1 }
      if !s.ready then
        let request := { request with programIdx := 255, state := .waitingForResources }
        some (.started (some request.handle), (s.addRequest request).post .resourceLost [request])
      else s.startReady p o request

/-- `VALID_PROGRAM_INDEX`. -/
def validProgramIndex (s : DecryptSessions) (i : ℕ) : Bool := i ≤ s.numRows && 0 < s.numRows

/-- `podmgrStopDecrypt`, with the request that was found. -/
def stopRequest (s : DecryptSessions) (r : RequestTableRow) (sent : CaPmtResult) :
    Option DecryptSessions :=
  let s := (s.post .sessionShutdown [r]).removeRequest r.handle
  let i := r.programIdx.toNat
  if !s.validProgramIndex i then some s
  else match s.rows with
  | none => some s
  | some _ => do
    let transactionId ← s.nextTransactionId i
    -- the CA_PMT is made of the descriptor
    let _ ← r.pServiceHandle
    if sent = .success then do
      let s ← s.setTransactionId i transactionId
      s.releaseRow i
    else some s

/-- `podmgrStopDecrypt`. -/
def podmgrStopDecrypt (s : DecryptSessions) (handle : ℕ) (sent : CaPmtResult) :
    Option DecryptSessions :=
  if !s.caEnable then some s
  else match s.requests.find? fun r => r.handle = handle with
  | none => some s
  | some r => s.stopRequest r sent

/-! ## The card is removed -/

/-- The request of a session that is suspended. -/
def suspendRequest (r : RequestTableRow) : RequestTableRow :=
  { r with state := .waitingForResources, programIdx := 255, caPmtCmdId := .query }

/-- The requests of a row are suspended. -/
def suspendRequests (s : DecryptSessions) (programIdx : BitVec 8) : DecryptSessions :=
  { s with requests := s.requests.map fun r =>
      if r.programIdx = programIdx then suspendRequest r else r }

/-- The body of the loop of `suspendActiveCASessions`: whether the CA_PMT is sent does not
matter. -/
def suspendRow (s : DecryptSessions) (i : ℕ) : Option DecryptSessions := do
  let row ← s.rowList[i]?
  if row.inUse then do
    let programIdx := BitVec.ofNat 8 i
    let sessions ← s.sessionsFor programIdx
    let s ← ((s.suspendRequests programIdx).post .resourceLost sessions).releaseRow programIdx.toNat
    s.setTransactionId i 0
  else some s

/-- `suspendActiveCASessions`. -/
def suspendActiveCASessions (s : DecryptSessions) : Option DecryptSessions :=
  (List.range s.numRows).foldlM suspendRow s

/-- `removeUnusedRequestFromRequestTable`. -/
def removeUnusedRequests (s : DecryptSessions) : DecryptSessions :=
  { s with requests := s.requests.filter fun r => r.programIdx ≠ 255 }

/-- The rows are freed, if there are any. -/
def freeRows (s : DecryptSessions) : DecryptSessions :=
  match s.rows with
  | none => s
  | some _ => { s with
      rows := none
      numRows := 0
      elementaryStreamsUsed := 0
      programsUsed := 0
      transportStreamsUsed := 0 }

/-- `RMF_PODSRV_EVENT_REMOVED`. -/
def cardRemoved (s : DecryptSessions) : Option DecryptSessions := do
  let s ← s.suspendActiveCASessions
  some { s.removeUnusedRequests.freeRows with
    ready := false
    maxElemStreams := 0
    maxPrograms := 0
    maxTransportStreams := 0
    casSessionId := 0 }

end DecryptSessions

/-! ## The card is ready -/

/-- What `RMF_PODSRV_EVENT_CA_SYSTEM_READY` meets with. -/
structure CaSystemReady where
  /-- the limits that the card reports -/
  maxNumEs : Option (BitVec 16)
  maxNumPrograms : Option (BitVec 16)
  maxNumTs : Option (BitVec 16)
  rowMemory : Bool := true
  /-- the session that `rmf_podmgrCASConnect` opens -/
  casSessionId : Option (BitVec 32) := some 1

namespace DecryptSessions

/-- The limits that are reported are taken over. -/
def reportLimits (s : DecryptSessions) (e : CaSystemReady) : DecryptSessions :=
  { s with
    maxElemStreams := (e.maxNumEs.map BitVec.toNat).getD s.maxElemStreams
    maxPrograms := (e.maxNumPrograms.map BitVec.toNat).getD s.maxPrograms
    maxTransportStreams := (e.maxNumTs.map BitVec.toNat).getD s.maxTransportStreams }

/-- `initProgramIndexTable`: the rows are allocated only if there are none. -/
def initProgramIndexTable (s : DecryptSessions) (rowMemory : Bool) : DecryptSessions :=
  { s with
    numRows := s.maxPrograms
    rows := match s.rows with
      | some rows => some rows
      | none => if rowMemory then some (List.replicate s.maxPrograms {}) else none }

/-- `RMF_PODSRV_EVENT_CA_SYSTEM_READY`, until the suspended sessions are activated. -/
def caSystemReady (s : DecryptSessions) (e : CaSystemReady) : DecryptSessions :=
  { (s.reportLimits e).initProgramIndexTable e.rowMemory with
    casSessionId := e.casSessionId.getD 0
    worker := match e.casSessionId with
      | some _ => .connected
      | none => .idle }

/-- The requests that `findNextSuspendedRequest` asks for resources for: each that waits with a
priority above those before. -/
def askedAbout (saved : BitVec 8) : List RequestTableRow → List RequestTableRow
  | [] => []
  | r :: rs =>
    if r.state = .waitingForResources ∧ saved < r.priority then r :: askedAbout r.priority rs
    else askedAbout saved rs

/-- One request is asked about. -/
def askFor (found : Bool × DecryptSessions) (r : RequestTableRow) :
    Option (Bool × DecryptSessions) := do
  let d ← r.pServiceHandle
  let (available, s) ← found.2.checkAvailableResources r.tunerId d.numStreams
  some (found.1 || available, s)

/-- `findNextSuspendedRequest`: if there are resources for one of them, the last is taken. -/
def findNextSuspendedRequest (s : DecryptSessions) :
    Option (Option RequestTableRow × DecryptSessions) := do
  let asked := askedAbout 0 s.requests
  let (found, s) ← asked.foldlM askFor (false, s)
  some (if found then asked.getLast? else none, s)

/-- `caCommandToState`. -/
def caCommandToState : CaPmtCommand → DecryptState
  | .okDescramble => .descrambling
  | .okMmi => .issuedMmi
  | .query => .issuedQuery
  | .notSelected | .unset => .notSelected

/-- All streams of the row are authorized. -/
def authorizeAll (s : DecryptSessions) (i : ℕ) : Option DecryptSessions := do
  let row ← s.rowList[i]?
  let streams ← row.authorizedPids
  some (s.setRow i { row with
    authorizedPids := some (streams.map fun p => { p with status := 1 }) })

/-- The CA_PMT for a suspended request was sent. -/
def activateRow (s : DecryptSessions) (i : BitVec 8) (d : ParsedDescriptors)
    (caPmtCmdId : CaPmtCommand) (transactionId tunerId : BitVec 8) (pidInfos : ℕ) :
    Option DecryptSessions := do
  let s ← s.commitRow i.toNat caPmtCmdId d transactionId tunerId 255
    (caCommandToState caPmtCmdId) pidInfos
  if caPmtCmdId = .okDescramble then do
    let s ← s.authorizeAll i.toNat
    s.sendEventImpl .fullyAuthorized i
  else some s

/-- `activateSuspendedRequests`, with the request that was found. `LTSID_UNDEFINED` is 255. -/
def activateRequest (s : DecryptSessions) (i : BitVec 8) (r : RequestTableRow)
    (sent : CaPmtResult) (pidInfos : ℕ) : Option (Bool × DecryptSessions) := do
  let d ← r.pServiceHandle
  let s := s.setRequest r.handle fun r => { r with programIdx := i, state := .active, ltsId := 255 }
  if d.caDescFound ≠ 1 then some (false, s)
  else do
    let transactionId ← s.nextTransactionId i.toNat
    let caPmtCmdId := if r.caPmtCmdId = .unset then .query else r.caPmtCmdId
    let s ← if sent = .success then
        s.activateRow i d caPmtCmdId transactionId r.tunerId pidInfos
      else some s
    some (sent = .success,
      s.setRequest r.handle fun r => { r with pServiceHandle := some d.freeStreams })

/-- `activateSuspendedRequests`: whether it returns success. -/
def activateSuspendedRequests (s : DecryptSessions) (i : ℕ) (sent : CaPmtResult)
    (pidInfos : ℕ) : Option (Bool × DecryptSessions) := do
  let (request, s) ← s.findNextSuspendedRequest
  match request with
  | none => some (false, s)
  | some r => s.activateRequest (BitVec.ofNat 8 i) r sent pidInfos

/-- The event handler thread goes on with `activateSuspendedCASessions`: one round of the loop,
which ends at the first error. -/
def activate (s : DecryptSessions) (sent : CaPmtResult) (pidInfos : ℕ) :
    Option DecryptSessions :=
  match s.worker with
  | .idle => some s
  | .connected => some { s with worker := .activating 0 }
  | .activating i =>
    if i < s.numRows then do
      let (success, s) ← s.activateSuspendedRequests i sent pidInfos
      some { s with worker := if success then .activating (i + 1) else .idle }
    else some { s with worker := .idle }

end DecryptSessions

end MediaFramework
