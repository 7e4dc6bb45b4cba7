import Mathlib.Tactic.SplitIfs
import MediaFramework.Lib.Run
import MediaFramework.Rbi.InsertDefinitions

/-!
# The insertions of a session (`RBIContext`)

The context of a session goes from a trigger through the spots of the set that
answers it. Its state is changed by the stream thread, in calls that nest:
`updateInsertionState` starts a spot or ends it, ending a spot is
`insertionStopped`, and that calls `updateInsertionState` for the next one.

The `DefineSpots` handler runs in another thread. The two meet only under the
manager's lock, so the handler is cut at its two critical sections, and whatever
it does between two of the stream thread's is done where the later one begins.
What the stream thread finds there, and what it is answered by the stream
processor, the sources and the clock, is a `Tick` of the call's schedule.
-/

namespace MediaFramework

/-- One critical section of `rbiDefineSpotsHandler`, with what it does up to the
next one. -/
inductive HandlerStep : Type where
  /-- the call, with the session number it looked up and the time it reads -/
  | find (sessionNumber : ℤ) (args : DefineSpotsArgs) (utcCurrentTime : ℤ)
  /-- the registration of the `i`-th call that has found its opportunity -/
  | register (i : ℕ)

/-- What the stream thread meets at one point of a call. -/
structure Tick where
  /-- the critical sections of the handler since the last point -/
  handler : List HandlerStep
  /-- `gettimeofday`, in milliseconds -/
  utcTimeCurrent : ℤ
  /-- `m_primaryStreamProcessor->getCurrentPTS()` -/
  currentPTS : ℤ
  /-- `m_primaryStreamProcessor->getSpliceUpdatedOutPTS()` -/
  spliceUpdatedOutPTS : ℤ
  /-- `httpsrc->open()` -/
  opens : Bool
  /-- `m_insertSrc->dataReady()` -/
  dataReady : Bool
  /-- `startInsertion` of a replacement -/
  starts : Bool
  /-- `startInsertion` reports that no audio of the replacement matches -/
  audioUnmatched : Bool

/-- Nothing happens, and nothing is ready. -/
def Tick.quiet : Tick where
  handler := []
  utcTimeCurrent := 0
  currentPTS := -1
  spliceUpdatedOutPTS := -1
  opens := false
  dataReady := false
  starts := false
  audioUnmatched := false

/-- A pointer to a spot, into the set of a map node. -/
structure SpotPointer where
  node : ℕ
  index : ℕ
  deriving DecidableEq

/-- `RBIContext`: the fields its insertions are driven by. -/
structure InsertContext where
  insertPending : Bool
  inserting : Bool
  tuneInEmitted : Bool
  insertionStartedEmitted : Bool
  insertionStatusUpdateEmitted : Bool
  triggerDetectedForOpportunity : Bool
  /-- `m_dfnSet`: the map node it points into -/
  dfnSet : Option ℕ
  dfnCurrent : Option SpotPointer
  dfnNext : Option SpotPointer
  spotIndex : ℕ
  spotCount : ℕ
  spotIsReplace : Bool
  utcTimeSpot : ℤ
  prefetchPTS : ℤ
  startPTS : ℤ
  endPTS : ℤ
  prefetchPTSNext : ℤ
  startPTSNext : ℤ
  detailCode : DetailCode
  detailCodeNext : DetailCode
  /-- `m_insertSrc` is not null -/
  insertSrc : Bool
  /-- `m_insertSrcNext` is not null -/
  insertSrcNext : Bool

/-- The constructor. -/
def InsertContext.new : InsertContext where
  insertPending := false
  inserting := false
  tuneInEmitted := false
  insertionStartedEmitted := false
  insertionStatusUpdateEmitted := false
  triggerDetectedForOpportunity := false
  dfnSet := none
  dfnCurrent := none
  dfnNext := none
  spotIndex := 0
  spotCount := 0
  spotIsReplace := false
  utcTimeSpot := 0
  prefetchPTS := -1
  startPTS := -1
  endPTS := -1
  prefetchPTSNext := -1
  startPTSNext := -1
  detailCode := .noError
  detailCodeNext := .noError
  insertSrc := false
  insertSrcNext := false

/-- What is recorded of a run, to speak about it. No step reads it. -/
inductive Mark : Type where
  /-- a set was put in the manager's map; the opportunity it was built from, and
  the one of the trigger that was pending then -/
  | registered (built : Origin) (pending : Option Origin)
  /-- the context took a set; the same two -/
  | adopted (built : Origin) (pending : Option Origin)
  /-- a spot was started; the opportunity of the set it is of, and the one of the
  last trigger -/
  | started (built trigger : Option Origin)
  /-- a replacement could not be started, while another one was or was not -/
  | notStarted (inserting : Bool)
  /-- `insertionStopped` ran; `abandoned` where the trigger was pending, its set
  registered and not taken -/
  | stopped (abandoned : Bool)
  deriving DecidableEq

/-- A session: its context, its entries at the manager, the calls of the handler
that are under way, and the schedule of the call that runs. -/
structure InsertSession extends InsertContext, ManagerEntries where
  /-- the session is in `m_sessionIdMap` -/
  isOpen : Bool
  /-- the handler's calls between their two critical sections -/
  found : List FoundOpportunity
  schedule : ℕ → Tick
  /-- the points of the schedule passed -/
  clock : ℕ
  /-- the opportunity the last trigger registered -/
  trigger : Option Origin
  /-- the opportunity the set was built from that `m_dfnSet` was last set to -/
  heldFor : Option Origin
  trace : List Mark

/-- `RBIManager::getContext`: a new session. -/
def InsertSession.new (definitionRequestTimeout spliceTimeout : ℤ) : InsertSession where
  toInsertContext := .new
  definitionRequestTimeout := definitionRequestTimeout
  spliceTimeout := spliceTimeout
  pendingOpportunity := none
  insertDefinitions := none
  nextNode := 0
  isOpen := true
  found := []
  schedule := fun _ => .quiet
  clock := 0
  trigger := none
  heldFor := none
  trace := []

namespace InsertSession

/-- Record a mark. -/
def mark (m : Mark) (s : InsertSession) : InsertSession := { s with trace := m :: s.trace }

/-- The opportunity of the trigger that is pending. -/
def pendingTrigger (s : InsertSession) : Option Origin :=
  if s.insertPending then s.trigger else none

/-! ## The handler's thread -/

/-- `rbiDefineSpotsHandler` up to `registerInsertDefinitionSet`. -/
def rbiDefineSpotsFind (sessionNumber : ℤ) (args : DefineSpotsArgs) (utcCurrentTime : ℤ)
    (s : InsertSession) : InsertSession :=
  if sessionNumber > 0 then
    if h : args.spots ≠ [] then
      match s.findInsertOpportunity with
      | none => s
      | some opportunity =>
        if utcCurrentTime > opportunity.utcTrigger + s.definitionRequestTimeout then s
        else { s with found := s.found ++ [⟨opportunity, args, h⟩] }
    else { s with toManagerEntries := s.unregisterInsertOpportunity }
  else { s with toManagerEntries := s.unregisterInsertOpportunity }

/-- The rest of the `i`-th call. -/
def rbiDefineSpotsRegister (i : ℕ) (s : InsertSession) : InsertSession :=
  match s.found[i]? with
  | none => s
  | some f =>
    let s := { s with found := s.found.eraseIdx i }
    match s.registerInsertDefinitionSet f.definitionSet with
    | (.ok, m) =>
      mark (.registered f.opportunity.origin s.pendingTrigger) { s with toManagerEntries := m }
    | (_, m) => { s with toManagerEntries := m }

/-- One critical section of the handler. -/
def handlerStep (s : InsertSession) : HandlerStep → InsertSession
  | .find sessionNumber args utcCurrentTime =>
    s.rbiDefineSpotsFind sessionNumber args utcCurrentTime
  | .register i => s.rbiDefineSpotsRegister i

/-- The next point of the schedule: the handler has run, and the tick's answers
are there. -/
def consult (s : InsertSession) : Tick × InsertSession :=
  let tick := s.schedule s.clock
  (tick, { tick.handler.foldl handlerStep s with clock := s.clock + 1 })

/-- The set of a call is put in the map. -/
def putSet (f : FoundOpportunity) (s : InsertSession) : InsertSession :=
  mark (.registered f.opportunity.origin s.pendingTrigger)
    { s with
      insertDefinitions := some { node := s.nextNode, set := f.definitionSet }
      nextNode := s.nextNode + 1 }

/-- **What the handler does.** A critical section changes the opportunity and the
handler's own calls, and it may put a set where there is none. -/
theorem handlerStep_cases (s : InsertSession) (h : HandlerStep) :
    ∃ pendingOpportunity found,
      let t := { s with pendingOpportunity := pendingOpportunity, found := found }
      s.handlerStep h = t ∨ ∃ f, t.insertDefinitions = none ∧ s.handlerStep h = t.putSet f := by
  cases h with
  | find sessionNumber args utcCurrentTime =>
    simp only [handlerStep, rbiDefineSpotsFind]
    split_ifs
    · rcases s.findInsertOpportunity with _ | opportunity
      · exact ⟨_, _, .inl rfl⟩
      · dsimp only
        split_ifs
        · exact ⟨_, _, .inl rfl⟩
        · exact ⟨_, _, .inl rfl⟩
    · exact ⟨_, _, .inl rfl⟩
    · exact ⟨_, _, .inl rfl⟩
  | register i =>
    simp only [handlerStep, rbiDefineSpotsRegister]
    rcases s.found[i]? with _ | f
    · exact ⟨_, _, .inl rfl⟩
    · refine ⟨s.pendingOpportunity, s.found.eraseIdx i, ?_⟩
      rcases he : s.insertDefinitions with _ | e
      · refine .inr ⟨f, rfl, ?_⟩
        simp only [ManagerEntries.registerInsertDefinitionSet, he]
        rfl
      · refine .inl ?_
        simp only [ManagerEntries.registerInsertDefinitionSet, he]
        rw [← he]

/-- What the handler's two moves keep, a critical section keeps. -/
theorem handlerStep_induction {I : InsertSession → Prop}
    (hfind : ∀ s pendingOpportunity found, I s →
      I { s with pendingOpportunity := pendingOpportunity, found := found })
    (hput : ∀ s f, I s → s.insertDefinitions = none → I (s.putSet f)) {s : InsertSession}
    (hs : I s) (h : HandlerStep) : I (s.handlerStep h) := by
  obtain ⟨opportunity, found, heq | ⟨f, hnone, heq⟩⟩ := handlerStep_cases s h
  · rw [heq]
    exact hfind s _ _ hs
  · rw [heq]
    exact hput _ f (hfind s _ _ hs) hnone

/-- **The interference rule.** What the handler's moves keep holds at the next
point of the stream thread, if it held at the last. -/
theorem consult_induction {I : InsertSession → Prop}
    (hfind : ∀ s pendingOpportunity found, I s →
      I { s with pendingOpportunity := pendingOpportunity, found := found })
    (hput : ∀ s f, I s → s.insertDefinitions = none → I (s.putSet f))
    (hclock : ∀ s clock, I s → I { s with clock := clock }) {s : InsertSession} (hs : I s) :
    I s.consult.2 := by
  have hsteps : ∀ (hs : List HandlerStep) t, I t → I (hs.foldl handlerStep t) := by
    intro hs
    induction hs with
    | nil =>
      intro t ht
      exact ht
    | cons h hs ih =>
      intro t ht
      exact ih _ (handlerStep_induction hfind hput ht h)
  exact hclock _ _ (hsteps _ s hs)

/-- The handler leaves the context alone. -/
@[simp] theorem consult_context (s : InsertSession) :
    s.consult.2.toInsertContext = s.toInsertContext :=
  consult_induction (I := fun t => t.toInsertContext = s.toInsertContext)
    (fun _ _ _ h => h) (fun _ _ h _ => h) (fun _ _ h => h) rfl

/-! ## The manager's operations, from the stream thread -/

/-- A critical section of the stream thread that cannot go wrong. -/
def managed (f : ManagerEntries → ManagerEntries) (s : InsertSession) : InsertSession :=
  let (_, s) := s.consult
  { s with toManagerEntries := f s.toManagerEntries }

/-- A critical section of the stream thread with an assertion. -/
def asserted (f : ManagerEntries → Except Fault ManagerEntries) (s : InsertSession) :
    Except Fault InsertSession := do
  let (_, s) := s.consult
  let m ← f s.toManagerEntries
  .ok { s with toManagerEntries := m }

/-- A reference is dropped from what the handler left. -/
theorem asserted_ends (s : InsertSession) :
    Ends (s.asserted ManagerEntries.dropReference)
      (fun s' => s' = { s.consult.2 with
        insertDefinitions := s.consult.2.insertDefinitions.bind RegisteredSet.dropped })
      (fun _ => ∃ e, s.consult.2.insertDefinitions = some e ∧ e.set.refCount = 0) := by
  refine .bind (s.consult.2.dropReference_ends) ?_
  rintro _ rfl
  exact .pure rfl

/-! ## Reading through the pointers -/

/-- The set `m_dfnSet` points to. -/
def heldSet (s : InsertSession) : Except Fault InsertDefinitionSet :=
  match s.dfnSet, s.insertDefinitions with
  | none, _ => .error .nullPointer
  | some _, none => .error .danglingSet
  | some node, some e => if e.node = node then .ok e.set else .error .danglingSet

/-- The spot a pointer points to. -/
def spotAt (p : SpotPointer) (s : InsertSession) : Except Fault InsertDefinition :=
  match s.insertDefinitions with
  | none => .error .danglingSet
  | some e =>
    if e.node = p.node then
      match e.set.spots[p.index]? with
      | some spot => .ok spot
      | none => .error .nullPointer
    else .error .danglingSet

/-- A pointer that may be null, read for the tracking and asset ids of an event. -/
def readSpot (p : Option SpotPointer) (s : InsertSession) : Except Fault Unit :=
  match p with
  | none => .ok ()
  | some p => do
    let _ ← s.spotAt p
    .ok ()

/-- `m_dfnSet->getSpot( index )` -/
def getSpot (index : ℕ) (s : InsertSession) : Except Fault (Option SpotPointer) := do
  let set ← s.heldSet
  .ok (if index < set.spots.length then s.dfnSet.map (⟨·, index⟩) else none)

/-- `m_dfnSet->getSpotTime( index )`, read through. -/
def getSpotTime (index : ℕ) (s : InsertSession) : Except Fault SpotTimeInfo := do
  let set ← s.heldSet
  match set.spotTimes[index]? with
  | some time => .ok time
  | none => .error .nullPointer

/-! ## Events and errors -/

/-- `RBIContext::sendInsertionStatusEvent`: after the broadcast, the code is
cleared. -/
def sendInsertionStatusEvent (s : InsertSession) : Except Fault InsertSession := do
  s.readSpot s.dfnCurrent
  .ok { s with detailCode := .noError, insertionStatusUpdateEmitted := false }

/-- `RBIContext::insertionStatusUpdate`. -/
def insertionStatusUpdate (detailCode : DetailCode) (s : InsertSession) :
    Except Fault InsertSession := do
  let s := { s with detailCode := detailCode }
  if detailCode ≠ .assetDurationInadequate ∧ detailCode ≠ .abnormalTermination ∧
      detailCode ≠ .assetDurationExceeded then
    let s ← s.sendInsertionStatusEvent
    .ok { s with insertionStatusUpdateEmitted := true }
  else .ok s

/-- `RBIContext::insertionError`. -/
def insertionError (detailCode : DetailCode) (s : InsertSession) : InsertSession :=
  { s with detailCode := detailCode }

/-- `m_dfnSet->getSpot( m_spotIndex )->getUri()`, for the log. -/
def readHeldSpot (s : InsertSession) : Except Fault Unit := do
  let set ← s.heldSet
  if s.spotIndex < set.spots.length then .ok () else .error .nullPointer

/-- `RBIContext::insertionStarted`. -/
def insertionStarted (s : InsertSession) : Except Fault InsertSession := do
  s.readHeldSpot
  let s ← s.sendInsertionStatusEvent
  .ok { s with insertionStartedEmitted := true }

/-- What an error of a source does: `current` says whether the source is
`m_insertSrc`. -/
def sourceFailed (detailCode : DetailCode) (current : Bool) (s : InsertSession) :
    InsertSession :=
  if s.inserting || s.insertPending then
    if current && s.insertSrc then { s with detailCode := detailCode }
    else { s with detailCodeNext := detailCode }
  else s

/-- `RBIContext::httpTimeoutError`. -/
def httpTimeoutError : Bool → InsertSession → InsertSession := sourceFailed .httpResponseTimeout

/-- `RBIContext::tsFormatError`. -/
def tsFormatError : Bool → InsertSession → InsertSession := sourceFailed .assetCorrupted

/-- `RBIContext::sourceError`. -/
def sourceError : Bool → InsertSession → InsertSession := sourceFailed .assetUnreachable

end InsertSession

end MediaFramework
