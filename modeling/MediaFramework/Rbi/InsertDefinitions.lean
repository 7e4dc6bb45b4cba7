import Mathlib.Tactic.SplitIfs
import MediaFramework.Lib.Ends
import MediaFramework.Rbi.TsPacket

/-!
# Opportunities and definition sets (`RBIManager`)

A trigger makes the session register an *opportunity* with the manager; the
placement service answers it with `DefineSpots`, from which a *definition set*
is built and registered under the session. The session's context takes a
counted reference to the set and drops it when its spots are done.

The manager's maps are keyed by the session, and every call reads and writes the
key of one session only: here are the two entries of one session.
-/

namespace MediaFramework

/-- How a call goes wrong. -/
inductive Fault : Type where
  /-- a set is read through a pointer after the manager erased it -/
  | danglingSet
  /-- `assert( set->m_refCount > 0 )` fails -/
  | assertion
  /-- a null pointer is read through -/
  | nullPointer
  /-- nested calls deeper than the model follows -/
  | outOfFuel
  deriving DecidableEq

/-- `RBI_DetailCode`. -/
inductive DetailCode : Type where
  | noError | missedPrefetchWindow | missedSpotWindow | invalidVersion
  | invalidXMLInformation | missingContent | placementResponseError
  | assetDurationInadequate | assetDurationExceeded | httpResponseTimeout
  | missingContentLocation | assetUnreachable | matchingAssetNotFound
  | matchingAudioAssetNotFound | missingMediaType | messageRefMismatch
  | badMessageRefFormat | prspAudioAssetNotFound | responseTimeout
  | insertionTimeDeltaExceeded | assetCorrupted | invalidSpot | abnormalTermination
  | messageMalformed | patPmtChanged
  deriving DecidableEq

/-- The code ends the spot: it is an error, and not one of the three that are
only reported. -/
def DetailCode.endsSpot : DetailCode → Bool
  | .noError | .assetDurationInadequate | .abnormalTermination | .assetDurationExceeded => false
  | _ => true

/-! ## Definition sets -/

/-- `RBIInsertDefinition`: the fields that decide what is done with the spot. -/
structure InsertDefinition where
  /-- `m_replace`: play a replacement, or else leave the broadcast ad -/
  replace : Bool
  /-- `m_validSpot` -/
  validSpot : Bool
  /-- `m_duration`, in milliseconds -/
  duration : ℤ
  /-- `m_spotDetailCode` -/
  spotDetailCode : DetailCode

/-- `SpotTimeInfo`. -/
structure SpotTimeInfo where
  utcTimeStart : ℤ
  startPTS : ℤ

/-- What tells one opportunity from another: its trigger's time and its splice. -/
structure Origin where
  utcTrigger : ℤ
  splicePTS : ℤ
  deriving DecidableEq

/-- `RBIInsertDefinitionSet`. -/
structure InsertDefinitionSet where
  refCount : ℕ
  utcTimeTrigger : ℤ
  utcTimeSplice : ℤ
  splicePTS : ℤ
  spots : List InsertDefinition
  spotTimes : List SpotTimeInfo
  /-- `assert( m_spots.size() == m_spotTimes.size() )` -/
  paired : spots.length = spotTimes.length

namespace InsertDefinitionSet

/-- The opportunity the set was built from. -/
def origin (d : InsertDefinitionSet) : Origin := ⟨d.utcTimeTrigger, d.splicePTS⟩

/-- The constructor. -/
def new (utcTrigger utcSplice splicePTS : ℤ) : InsertDefinitionSet where
  refCount := 1
  utcTimeTrigger := utcTrigger
  utcTimeSplice := utcSplice
  splicePTS := splicePTS
  spots := []
  spotTimes := []
  paired := rfl

/-- The time after the spots listed so far. -/
def nextTime (d : InsertDefinitionSet) : SpotTimeInfo :=
  d.spots.foldl
    (fun t spot =>
      { utcTimeStart := t.utcTimeStart + spot.duration
        startPTS := mask90k (t.startPTS + spot.duration * 90) })
    { utcTimeStart := d.utcTimeSplice, startPTS := d.splicePTS }

/-- `addSpot`. -/
def addSpot (d : InsertDefinitionSet) (spot : InsertDefinition) : InsertDefinitionSet :=
  { d with
    spots := d.spots ++ [spot]
    spotTimes := d.spotTimes ++ [d.nextTime]
    paired := by rw [List.length_append, List.length_append, d.paired]; rfl }

/-- What one spot leaves as it is, all of them do. -/
theorem foldl_addSpot_congr {α : Type} (f : InsertDefinitionSet → α)
    (h : ∀ d spot, f (addSpot d spot) = f d) (spots : List InsertDefinition) :
    ∀ d : InsertDefinitionSet, f (spots.foldl addSpot d) = f d := by
  induction spots with
  | nil =>
    intro d
    rfl
  | cons spot spots ih =>
    intro d
    exact (ih (d.addSpot spot)).trans (h d spot)

theorem foldl_addSpot_spots (spots : List InsertDefinition) :
    ∀ d : InsertDefinitionSet, (spots.foldl addSpot d).spots = d.spots ++ spots := by
  induction spots with
  | nil =>
    intro d
    rw [List.append_nil]
    rfl
  | cons spot spots ih =>
    intro d
    have h := ih (d.addSpot spot)
    rw [addSpot, List.append_assoc] at h
    exact h

end InsertDefinitionSet

/-! ## The manager's entries of one session -/

/-- `RBIManager::PendingOpportunity`. -/
structure PendingOpportunity where
  utcTrigger : ℤ
  utcSplice : ℤ
  splicePTS : ℤ
  deriving DecidableEq

/-- The trigger's time and splice of an opportunity. -/
def PendingOpportunity.origin (o : PendingOpportunity) : Origin := ⟨o.utcTrigger, o.splicePTS⟩

/-- An entry of `m_insertDefinitions`: the set, and the map node that holds it. A
pointer to the set is a pointer into this node. -/
structure RegisteredSet where
  node : ℕ
  set : InsertDefinitionSet

/-- What is left of an entry when a reference to it is dropped. -/
def RegisteredSet.dropped (e : RegisteredSet) : Option RegisteredSet :=
  if e.set.refCount - 1 = 0 then none
  else some { e with set := { e.set with refCount := e.set.refCount - 1 } }

/-- `RBIResult`, as the two registrations give it. -/
inductive RBIResult : Type where
  | ok | alreadyExists | spliceTimeout
  deriving DecidableEq

/-- What the manager keeps of one session. -/
structure ManagerEntries where
  /-- `m_definitionRequestTimeout`, in milliseconds -/
  definitionRequestTimeout : ℤ
  /-- `m_spliceTimeout`, in milliseconds -/
  spliceTimeout : ℤ
  /-- the session's entry of `m_pendingOpportunities` -/
  pendingOpportunity : Option PendingOpportunity
  /-- the session's entry of `m_insertDefinitions` -/
  insertDefinitions : Option RegisteredSet
  /-- the node the next registered set is put in -/
  nextNode : ℕ

namespace ManagerEntries

/-- `RBIManager::registerInsertOpportunity`. -/
def registerInsertOpportunity (m : ManagerEntries) (o : PendingOpportunity) :
    RBIResult × ManagerEntries :=
  match m.pendingOpportunity with
  | none =>
    if o.utcSplice - o.utcTrigger < m.spliceTimeout then
      (.ok, { m with pendingOpportunity := some o })
    else (.spliceTimeout, m)
  | some _ => (.alreadyExists, m)

/-- `RBIManager::unregisterInsertOpportunity`. -/
def unregisterInsertOpportunity (m : ManagerEntries) : ManagerEntries :=
  { m with pendingOpportunity := none }

/-- `RBIManager::findInsertOpportunity`. -/
def findInsertOpportunity (m : ManagerEntries) : Option PendingOpportunity :=
  m.pendingOpportunity

/-- `RBIManager::ageInsertOpportunities`: the number of opportunities left. -/
def ageInsertOpportunities (m : ManagerEntries) (utcTimeCurrent : ℤ) : ℕ × ManagerEntries :=
  match m.pendingOpportunity with
  | none => (0, m)
  | some pending =>
    if utcTimeCurrent ≥ pending.utcTrigger + m.definitionRequestTimeout then
      (0, { m with pendingOpportunity := none })
    else (1, m)

/-- `RBIManager::registerInsertDefinitionSet`. -/
def registerInsertDefinitionSet (m : ManagerEntries) (set : InsertDefinitionSet) :
    RBIResult × ManagerEntries :=
  match m.insertDefinitions with
  | none =>
    (.ok, { m with
      insertDefinitions := some { node := m.nextNode, set := set }
      nextNode := m.nextNode + 1 })
  | some _ => (.alreadyExists, m)

/-- `RBIManager::getInsertDefinitionSet`: the pointer is to the node. -/
def getInsertDefinitionSet (m : ManagerEntries) : Option RegisteredSet × ManagerEntries :=
  match m.insertDefinitions with
  | none => (none, m)
  | some e =>
    let e := { e with set := { e.set with refCount := e.set.refCount + 1 } }
    (some e, { m with insertDefinitions := some e })

/-- The reference of `--m_refCount`, and the erasure at 0. -/
def dropReference (m : ManagerEntries) : Except Fault ManagerEntries :=
  match m.insertDefinitions with
  | none => .ok m
  | some e =>
    if e.set.refCount = 0 then .error .assertion
    else if e.set.refCount - 1 = 0 then .ok { m with insertDefinitions := none }
    else
      let e := { e with set := { e.set with refCount := e.set.refCount - 1 } }
      .ok { m with insertDefinitions := some e }

/-- `RBIManager::releaseInsertDefinitionSet`. -/
def releaseInsertDefinitionSet (m : ManagerEntries) : Except Fault ManagerEntries :=
  m.dropReference

/-- `RBIManager::unregisterInsertDefinitionSet`. -/
def unregisterInsertDefinitionSet (m : ManagerEntries) : Except Fault ManagerEntries :=
  m.dropReference

/-- Ageing takes an opportunity from the manager, and no set. -/
theorem ageInsertOpportunities_insertDefinitions (m : ManagerEntries) (utcTimeCurrent : ℤ) :
    (m.ageInsertOpportunities utcTimeCurrent).2.insertDefinitions = m.insertDefinitions := by
  unfold ageInsertOpportunities
  rcases m.pendingOpportunity with _ | pending
  · rfl
  · dsimp only
    split_ifs
    · rfl
    · rfl

/-- Only the entry is changed, and the assertion is what can fail. -/
theorem dropReference_ends (m : ManagerEntries) :
    Ends m.dropReference
      (fun m' =>
        m' = { m with insertDefinitions := m.insertDefinitions.bind RegisteredSet.dropped })
      (fun _ => ∃ e, m.insertDefinitions = some e ∧ e.set.refCount = 0) := by
  unfold dropReference
  rcases he : m.insertDefinitions with _ | e
  · refine .pure ?_
    rw [Option.bind_none, ← he]
  · refine .ite (fun h => .error ⟨e, rfl, h⟩) fun _ => .ite (fun h => .pure ?_) fun h => .pure ?_
    · rw [Option.bind_some, RegisteredSet.dropped, if_pos h]
    · rw [Option.bind_some, RegisteredSet.dropped, if_neg h]

end ManagerEntries

/-! ## `rbiDefineSpotsHandler` -/

/-- `RBI_MAX_SPOTS`. -/
def maxSpots : ℕ := 10

/-- `RBI_DefineSpots_Args`: the spots are the first `numSpots` of the array. -/
structure DefineSpotsArgs where
  utcTimeStart : ℤ
  spots : List InsertDefinition
  /-- `spots[RBI_MAX_SPOTS]` -/
  fits : spots.length ≤ maxSpots

/-- A call of the handler between its two critical sections: it has found an
opportunity, and `registerInsertDefinitionSet` is next. -/
structure FoundOpportunity where
  opportunity : PendingOpportunity
  args : DefineSpotsArgs
  /-- `args->numSpots > 0` -/
  nonempty : args.spots ≠ []

/-- The set the handler builds from the opportunity it found. -/
def FoundOpportunity.definitionSet (f : FoundOpportunity) : InsertDefinitionSet :=
  let utcSplice :=
    if f.args.utcTimeStart > f.opportunity.utcSplice then f.args.utcTimeStart
    else f.opportunity.utcSplice
  f.args.spots.foldl .addSpot (.new f.opportunity.utcTrigger utcSplice f.opportunity.splicePTS)

namespace FoundOpportunity

variable (f : FoundOpportunity)

@[simp] theorem refCount_definitionSet : f.definitionSet.refCount = 1 := by
  rw [definitionSet, InsertDefinitionSet.foldl_addSpot_congr (·.refCount) fun _ _ => rfl]
  rfl

@[simp] theorem origin_definitionSet : f.definitionSet.origin = f.opportunity.origin := by
  rw [definitionSet, InsertDefinitionSet.foldl_addSpot_congr (·.origin) fun _ _ => rfl]
  rfl

@[simp] theorem spots_definitionSet : f.definitionSet.spots = f.args.spots := by
  rw [definitionSet, InsertDefinitionSet.foldl_addSpot_spots]
  rfl

/-- A set that is registered has a spot, and at most as many as the call brings. -/
theorem length_definitionSet :
    0 < f.definitionSet.spots.length ∧ f.definitionSet.spots.length ≤ maxSpots := by
  rw [spots_definitionSet]
  exact ⟨List.length_pos_iff.mpr f.nonempty, f.args.fits⟩

end FoundOpportunity

end MediaFramework
