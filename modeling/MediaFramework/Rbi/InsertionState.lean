import MediaFramework.Rbi.InsertContext

/-!
# `RBIContext::updateInsertionState` and the calls around it

`updateInsertionState` is written as its stages, in the order of the source. The
nested call, from `insertionStopped`, is a parameter `again` of the stages; it
is tied to `updateInsertionState` itself by a bound on the nesting.

`InsertSession.call` are the calls the stream thread makes, and `InsertSession.step` adds to
them the handler's critical sections that fall between two calls.
-/

namespace MediaFramework

/-- `PTS_IN_RANGE( p, s, e )` -/
def ptsInRange (p s e : ℤ) : Bool :=
  (decide (s < e) && decide (s ≤ p) && decide (p < e)) ||
    (decide (s > e) && (decide (s ≤ p) || decide (p < e)))

namespace InsertSession

section Nested

-- the nested `updateInsertionState`
variable (again : ℤ → InsertSession → Except Fault InsertSession)

/-! ## Ending a spot

The end of a spot may begin the next one: `again` is the call of `updateInsertionState` nested in it.
-/

/-- The status event of a spot that has stopped. -/
def reportStopped (s : InsertSession) : Except Fault InsertSession :=
  if s.detailCode.endsSpot = false ∨ s.detailCode = .invalidSpot then
    if s.insertionStartedEmitted then
      sendInsertionStatusEvent { s with insertionStartedEmitted := false }
    else .ok s
  else s.sendInsertionStatusEvent

/-- The source is released, and the context is neither inserting nor pending. -/
def clearInsertion (s : InsertSession) : InsertSession :=
  let abandoned := s.insertPending && s.dfnSet.isNone && s.insertDefinitions.isSome
  mark (.stopped abandoned)
    { s with insertSrc := false, inserting := false, insertPending := false,
             detailCode := .noError }

/-- The set's spots are done: both references are dropped. -/
def dropDfnSet (s : InsertSession) : Except Fault InsertSession := do
  let s ← s.asserted ManagerEntries.releaseInsertDefinitionSet
  let s ← s.asserted ManagerEntries.unregisterInsertDefinitionSet
  sendInsertionStatusEvent { s with triggerDetectedForOpportunity := false, dfnSet := none }

/-- The next spot of the set, or the end of the set. -/
def nextSpot (s : InsertSession) : Except Fault InsertSession :=
  if s.dfnSet.isSome then
    let s := { s with spotIndex := s.spotIndex + 1, dfnCurrent := none }
    if s.spotIndex < s.spotCount then
      let (tick, s) := consult { s with insertPending := true }
      again tick.spliceUpdatedOutPTS s
    else s.dropDfnSet
  else .ok s

/-- The log line of a spot that has stopped. -/
def logStopped (s : InsertSession) : Except Fault Unit :=
  if s.dfnSet.isSome then s.readHeldSpot else .ok ()

/-- `RBIContext::insertionStopped`. -/
def insertionStopped (s : InsertSession) : Except Fault InsertSession := do
  s.logStopped
  let s ← s.reportStopped
  s.clearInsertion.nextSpot again

/-- `RBIStreamProcessor::stopInsertion`, as the context sees it. -/
def stopInsertion (s : InsertSession) : Except Fault InsertSession := s.insertionStopped again

/-- `RBIContext::termInsertionSpot`. -/
def termInsertionSpot (s : InsertSession) : Except Fault InsertSession :=
  if s.inserting then s.stopInsertion again
  else if s.insertPending then s.insertionStopped again
  else .ok s

/-- A spot with an error that ends it is ended. -/
def endBadSpot (s : InsertSession) : Except Fault InsertSession :=
  if s.detailCode.endsSpot then s.termInsertionSpot again else .ok s

/-! ## The stages of `updateInsertionState`

The function is cut where one stage of an opportunity follows another, in the order of the code.
-/

/-- An opportunity that got no answer in time is given up. -/
def ageOpportunity (s : InsertSession) : Except Fault InsertSession := do
  let (tick, s) := s.consult
  let (numPending, m) := s.ageInsertOpportunities tick.utcTimeCurrent
  let s := { s with toManagerEntries := m }
  if numPending = 0 ∧ s.dfnSet = none then
    let s ← sendInsertionStatusEvent
      { s with insertPending := false, detailCode := .responseTimeout }
    -- Discard any existing definition set (DELIA-18339)
    let s ← s.asserted ManagerEntries.unregisterInsertDefinitionSet
    .ok { s with triggerDetectedForOpportunity := false }
  else .ok s

/-- The context takes the set it got, and the opportunity is answered. -/
def takeDfnSet (e : RegisteredSet) (s : InsertSession) : InsertSession :=
  let s := mark (.adopted e.set.origin s.pendingTrigger)
    { s with dfnSet := some e.node, heldFor := some e.set.origin }
  let s := s.managed ManagerEntries.unregisterInsertOpportunity
  { s with spotIndex := 0, spotCount := e.set.spots.length }

/-- The set that answers the opportunity, where there is one. -/
def adoptDfnSet (s : InsertSession) : InsertSession :=
  if s.dfnSet = none then
    let (_, s) := s.consult
    match s.getInsertDefinitionSet with
    | (none, m) => { s with toManagerEntries := m }
    | (some e, m) => takeDfnSet e { s with toManagerEntries := m }
  else s

/-- The times of the spot `m_dfnCurrent` points to. -/
def loadTimes (startPTS : ℤ) (s : InsertSession) : Except Fault InsertSession :=
  match s.dfnCurrent with
  | none => .ok s
  | some p => do
    let ti ← s.getSpotTime s.spotIndex
    let spot ← s.spotAt p
    let startPTS := if startPTS ≠ -1 then startPTS else ti.startPTS
    .ok { s with
      utcTimeSpot := ti.utcTimeStart
      startPTS := startPTS
      prefetchPTS := mask90k (startPTS - 4000 * 90)
      endPTS := mask90k (startPTS + spot.duration * 90)
      spotIsReplace := spot.replace }

/-- The spot after the current one, and the time to prefetch it. -/
def loadNext (s : InsertSession) : Except Fault InsertSession :=
  if s.spotIndex + 1 < s.spotCount then do
    let dfnNext ← s.getSpot (s.spotIndex + 1)
    let s := { s with dfnNext := dfnNext }
    match dfnNext with
    | none => .ok s
    | some p =>
      let spot ← s.spotAt p
      if spot.validSpot then
        let tiNext ← s.getSpotTime (s.spotIndex + 1)
        if spot.replace then
          .ok { s with startPTSNext := tiNext.startPTS,
                       prefetchPTSNext := mask90k (tiNext.startPTS - 4000 * 90) }
        else .ok { s with prefetchPTSNext := -1 }
      else .ok s
  else .ok s

/-- The spot at `m_spotIndex` becomes the current one. -/
def loadSpot (startPTS : ℤ) (s : InsertSession) : Except Fault InsertSession :=
  if s.dfnCurrent = none then do
    let s := { s with dfnNext := none, prefetchPTSNext := -1 }
    let dfnCurrent ← s.getSpot s.spotIndex
    let s ← loadTimes startPTS { s with dfnCurrent := dfnCurrent }
    s.loadNext
  else .ok s

/-- The errors that came with the definition of the spot. -/
def reportSpot (spot : InsertDefinition) (s : InsertSession) : Except Fault InsertSession :=
  if spot.validSpot = false then
    .ok (if spot.spotDetailCode ≠ .noError then s.insertionError spot.spotDetailCode else s)
  else if spot.spotDetailCode = .prspAudioAssetNotFound then
    if s.insertionStatusUpdateEmitted ≠ true then s.insertionStatusUpdate spot.spotDetailCode
    else .ok s
  else .ok s

/-- The source of the replacement is opened, or is the one prefetched. -/
def openSource (spot : InsertDefinition) (s : InsertSession) : Except Fault InsertSession :=
  let s :=
    if s.insertSrcNext then
      { s with insertSrc := true, insertSrcNext := false,
               detailCode := s.detailCodeNext, detailCodeNext := .noError }
    else
      let (tick, s) := s.consult
      { s with insertSrc := spot.replace && tick.opens }
  s.endBadSpot again

/-- The replacement is not started now: it may be too late for it. -/
def missPrefetch (spot : InsertDefinition) (s : InsertSession) : Except Fault InsertSession :=
  if spot.validSpot = false then
    .ok (if spot.spotDetailCode ≠ .noError then s.insertionError spot.spotDetailCode else s)
  else
    let (tick, s) := s.consult
    let abortPTS := mask90k (s.startPTS + 10000 * 90)
    if ptsInRange tick.currentPTS s.startPTS abortPTS then
      (s.insertionError .missedPrefetchWindow).stopInsertion again
    else .ok s

/-- A replacement without a source: get one when it is time. -/
def fetchSource (s : InsertSession) : Except Fault InsertSession :=
  match s.dfnCurrent with
  | none => .ok s
  | some p =>
    if s.spotIsReplace && !s.insertSrc then do
      let (tick, s) := s.consult
      let start := s.insertSrcNext || ptsInRange tick.currentPTS s.prefetchPTS s.startPTS
      let spot ← s.spotAt p
      let s ← s.reportSpot spot
      if start && spot.validSpot then s.openSource again spot
      else s.missPrefetch again spot
    else .ok s

/-- `startInsertion` of the replacement, and what it may report. -/
def startReplacement (s : InsertSession) : Except Fault InsertSession := do
  let (tick, s) := s.consult
  let s ← (if tick.audioUnmatched then s.insertionStatusUpdate .matchingAudioAssetNotFound
    else .ok s)
  if tick.starts then .ok (mark (.started s.heldFor s.trigger) { s with inserting := true })
  else .ok (mark (.notStarted s.inserting) { s with insertSrc := false })

/-- The spot is started, once its source has data. -/
def startSpot (s : InsertSession) : Except Fault InsertSession :=
  if s.insertSrc then
    let (tick, s) := s.consult
    if tick.dataReady then startReplacement { s with insertPending := false } else .ok s
  else
    match s.dfnCurrent with
    | none => .ok s
    | some p =>
      if s.spotIsReplace then .ok s
      else do
        let spot ← s.spotAt p
        if spot.validSpot = false then
          .ok (if spot.spotDetailCode ≠ .noError then s.insertionError spot.spotDetailCode else s)
        else
          -- a fixed spot always starts
          .ok (mark (.started s.heldFor s.trigger)
            { s with insertPending := false, inserting := true })

/-- The source of the next replacement is opened when its prefetch time has come. -/
def prefetchNext (s : InsertSession) : Except Fault InsertSession :=
  if s.prefetchPTSNext ≠ -1 then
    let (tick, s) := s.consult
    if ptsInRange tick.currentPTS s.prefetchPTSNext s.startPTSNext then
      match s.dfnNext with
      | none => .error .nullPointer
      | some p => do
        let spot ← s.spotAt p
        let src := spot.validSpot && spot.replace && tick.opens
        .ok { s with insertSrcNext := s.insertSrcNext || src, prefetchPTSNext := -1 }
    else .ok s
  else .ok s

/-- What a pending context does. -/
def updatePending (startPTS : ℤ) (s : InsertSession) : Except Fault InsertSession := do
  let s ← s.ageOpportunity
  if s.insertPending then
    let s := s.adoptDfnSet
    let s ← (if s.dfnSet.isSome then do
        let s ← s.loadSpot startPTS
        s.fetchSource again
      else .ok s)
    s.startSpot
  else .ok s

/-- The body of `RBIContext::updateInsertionState`. -/
def updateWith (startPTS : ℤ) (s : InsertSession) : Except Fault InsertSession := do
  let s ← (if s.insertPending then s.updatePending again startPTS else .ok s)
  let s ← s.endBadSpot again
  s.prefetchNext

end Nested

/-- `updateInsertionState`, with at most `n` calls nested in it. -/
def updateWithin : ℕ → ℤ → InsertSession → Except Fault InsertSession
  | 0, _, _ => .error .outOfFuel
  | n + 1, startPTS, s => s.updateWith (updateWithin n) startPTS

/-- `RBIContext::updateInsertionState`: each nested call is for a later spot. -/
def updateInsertionState : ℤ → InsertSession → Except Fault InsertSession :=
  updateWithin (maxSpots + 1)

/-! ## The calls -/

/-- `RBIContext::triggerDetected`: whether an opportunity was registered. -/
def triggerDetected (t : PendingOpportunity) (s : InsertSession) :
    Except Fault (Bool × InsertSession) :=
  if s.inserting = false ∧ s.insertPending = false then
    let (_, s) := s.consult
    match s.registerInsertOpportunity t with
    | (.ok, m) =>
      .ok (true,
        { s with toManagerEntries := m, insertPending := true, trigger := some t.origin })
    | (.spliceTimeout, m) => do
      let s ← insertionStatusUpdate .insertionTimeDeltaExceeded { s with toManagerEntries := m }
      .ok (false, s)
    | (.alreadyExists, m) => .ok (false, { s with toManagerEntries := m })
  else .ok (false, s)

/-- A trigger from a time signal, which is let through only one at a time. -/
def signalDetected (t : PendingOpportunity) (s : InsertSession) : Except Fault InsertSession :=
  if s.triggerDetectedForOpportunity then .ok s
  else do
    let (detected, s) ← triggerDetected t { s with triggerDetectedForOpportunity := true }
    .ok (if detected then s else { s with triggerDetectedForOpportunity := false })

/-- `RBIContext::sendTuneOutEvent`. -/
def sendTuneOutEvent (s : InsertSession) : Except Fault InsertSession := do
  let s := s.managed ManagerEntries.unregisterInsertOpportunity
  let s ← s.asserted ManagerEntries.unregisterInsertDefinitionSet
  .ok { s with triggerDetectedForOpportunity := false }

/-- `RBIContext::setSourceURI`. -/
def setSourceURI (s : InsertSession) : Except Fault InsertSession := do
  let s ← (if s.tuneInEmitted then s.sendTuneOutEvent else .ok s)
  .ok { s with tuneInEmitted := false }

/-- `RBIContext::termInsertionAll`. -/
def termInsertionAll (s : InsertSession) : Except Fault InsertSession := do
  let s ← termInsertionSpot updateInsertionState { s with spotCount := 0 }
  .ok { s with insertSrc := false, insertSrcNext := false, prefetchPTSNext := -1,
               dfnCurrent := none, dfnNext := none, dfnSet := none }

/-- `RBIContext::term`. -/
def term (s : InsertSession) : Except Fault InsertSession := do
  let s ← s.termInsertionAll
  if s.tuneInEmitted then s.sendTuneOutEvent else .ok s

/-- `RBIManager::releaseContext`, of the last reference. -/
def releaseContext (s : InsertSession) : Except Fault InsertSession :=
  term { s with isOpen := false }

/-- `RBIContext::processPackets`, up to the stream processor's part; the calls
that this makes come after it. -/
def processPackets (s : InsertSession) : Except Fault InsertSession :=
  updateInsertionState (-1) { s with tuneInEmitted := true }

/-- A call of the stream thread on the context. -/
inductive Call : Type where
  | processPackets
  /-- `triggerDetected`, from a section that makes a trigger of its own -/
  | triggerDetected (t : PendingOpportunity)
  /-- `triggerDetected`, from a time signal -/
  | signalDetected (t : PendingOpportunity)
  | insertionStarted
  | insertionStatusUpdate (detailCode : DetailCode)
  | insertionError (detailCode : DetailCode)
  /-- the stream processor ends the insertion -/
  | stopInsertion
  | httpTimeoutError (current : Bool)
  | tsFormatError (current : Bool)
  | sourceError (current : Bool)
  | setSourceURI
  | releaseContext

/-- What a call does. -/
def call (s : InsertSession) : Call → Except Fault InsertSession
  | .processPackets => s.processPackets
  | .triggerDetected t => do
    let (_, s) ← s.triggerDetected t
    .ok s
  | .signalDetected t => s.signalDetected t
  | .insertionStarted => s.insertionStarted
  | .insertionStatusUpdate detailCode => s.insertionStatusUpdate detailCode
  | .insertionError detailCode => .ok (s.insertionError detailCode)
  | .stopInsertion => s.stopInsertion updateInsertionState
  | .httpTimeoutError current => .ok (s.httpTimeoutError current)
  | .tsFormatError current => .ok (s.tsFormatError current)
  | .sourceError current => .ok (s.sourceError current)
  | .setSourceURI => s.setSourceURI
  | .releaseContext => s.releaseContext

/-- What happens next to a session. -/
inductive Event : Type where
  /-- a call, and what it meets on its way -/
  | call (c : Call) (schedule : ℕ → Tick)
  /-- a critical section of the handler between two calls -/
  | handler (h : HandlerStep)

/-- A call on a session that is open, from the first point of its schedule. -/
def enter (s : InsertSession) (schedule : ℕ → Tick) : InsertSession :=
  { s with schedule := schedule, clock := 0 }

/-- One step of a session; after `releaseContext` there are no calls. -/
def step (s : InsertSession) : Event → Option InsertSession
  | .call c schedule => if s.isOpen then ((s.enter schedule).call c).toOption else none
  | .handler h => some (s.handlerStep h)

/-- A run of a session from its beginning. -/
def run (definitionRequestTimeout spliceTimeout : ℤ) (es : List Event) : Option InsertSession :=
  runFrom step (.new definitionRequestTimeout spliceTimeout) es

end InsertSession

end MediaFramework
