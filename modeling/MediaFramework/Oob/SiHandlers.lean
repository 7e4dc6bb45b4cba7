import MediaFramework.Lib.Run
import MediaFramework.Oob.SiTable

/-!
# The handlers of a table

A table is a state machine. In `WAIT_TABLE_REVISION` a filter looks for a section that is
new; in `WAIT_TABLE_COMPLETE` the sections of a new table are collected. Each section that
the filter finds goes to the handler of the state (`sitp_si_state_wait_table_revision_handler`,
`sitp_si_state_wait_table_complete_handler`), which reads its revision data and goes on in one
of two ways: with a revision detection descriptor (RDD) the table has a version and numbered
sections, without one (CRC) sections are told apart by their CRC.

The events that `sitp_si_get_table` handles itself, and what the worker thread does between
two events, are here as far as they change a table. What the parser, the section filter and
the clock answer comes with the event.
-/

namespace MediaFramework

/-! ## What comes from outside -/

/-- The fields of a revision detection descriptor. -/
structure Rdd where
  version : ℕ
  sectionNumber : ℕ
  lastSectionNumber : ℕ
  /-- the code takes five bits of the octet -/
  version_lt : version < 32
  sectionNumber_lt : sectionNumber < 256
  lastSectionNumber_lt : lastSectionNumber < 256
  deriving DecidableEq

/-- What `get_revision_data` reports: `rdd` is empty if the version is `NO_VERSION`. -/
structure RevisionData where
  rdd : Option Rdd
  crc : ℕ
  deriving DecidableEq

/-- What `parseAndUpdateTable` does: its return code, and the version and section numbers it
has written, if the section has a descriptor. -/
structure ParseOutcome where
  ok : Bool
  rdd : Option Rdd
  deriving DecidableEq

/-- What the section filter answers when a filter is set: a filter that is left is released
first. -/
structure Activation where
  releasesLeft : Bool
  /-- the id of the new filter, if it could be set -/
  uniqueId : Option ℕ
  startTime : ℕ
  deriving DecidableEq

/-- A section, as the handlers get to know it. -/
structure Delivery where
  /-- `get_table_section` gets a handle -/
  fetched : Bool
  /-- empty if `get_revision_data` fails -/
  revision : Option RevisionData
  parse : ParseOutcome
  /-- `ReleaseFilter` succeeds -/
  releases : Bool
  filter : Activation
  currentTime : ℕ
  /-- the DCM is acquired and `IsVCMComplete` -/
  vcmComplete : Bool
  deriving DecidableEq

/-- The section number once the section is parsed. -/
def ParseOutcome.sectionNumber (p : ParseOutcome) (r : Rdd) : ℕ := (p.rdd.getD r).sectionNumber

inductive SiEvent
  /-- `RMF_SF_EVENT_SECTION_FOUND` or, in `last`, `RMF_SF_EVENT_LAST_SECTION_FOUND` -/
  | section (last : Bool) (uniqueId : ℕ) (d : Delivery)
  /-- the start, or a timeout: filters are set for the tables without one -/
  | timeout (filter : Activation)
  /-- `RMF_SF_EVENT_SOURCE_CLOSED` -/
  | sourceClosed (releases : Bool)
  /-- `RMF_PODSRV_EVENT_RESET_PENDING` -/
  | resetPending (releases : Bool)
  /-- `OOB_VCTID_CHANGE_EVENT` -/
  | vctIdChange (releases : Bool) (filter : Activation)
  /-- `rmf_si_purge_RDD_tables` -/
  | purgeRdd
  /-- `checkForTableAcquisitionTimeouts` finds that the time for this table is over; the
  section array it resets is that of the table handled last -/
  | tableTimeout (handledLast : Bool) (releases : Bool)
  /-- the same for another table, while this one was handled last -/
  | otherTimeout

namespace SiTable

variable (t : SiTable)

/-! ## Filters -/

/-- `release_filter`. -/
def releaseFilter (releases : Bool) : SiTable :=
  if releases then { t with tableUniqueId := 0, filterStartTime := 0 } else t

/-- `activate_filter`. -/
def activateFilter (a : Activation) : SiTable :=
  let t := if t.tableUniqueId ≠ 0 then t.releaseFilter a.releasesLeft else t
  match a.uniqueId with
  | some id => { t with tableUniqueId := id, filterStartTime := a.startTime }
  | none => { t with tableUniqueId := 0 }

/-! ## Pieces of the handlers -/

def goto (s : SiState) : SiTable := { t with tableState := s }

/-- The reset with which the handlers give up: back to `WAIT_TABLE_REVISION`. -/
def giveUp : Option SiTable :=
  (t.resetSectionArray t.revType).map (·.goto .waitTableRevision)

/-- The version and the number of sections are taken from the revision data. -/
def adopt (r : Rdd) : SiTable :=
  { t with
    versionNumber := r.version
    numberSections := (r.lastSectionNumber + 1) % 256
    ledger := { t.ledger with adopted := some ⟨r.version, r.lastSectionNumber, []⟩ } }

/-- `parseAndUpdateTable`, which writes to the table's version. -/
def parseAndUpdate (p : ParseOutcome) : SiTable :=
  { t with versionNumber := (p.rdd.map Rdd.version).getD t.versionNumber }

/-- The section is marked acquired. -/
def markAcquired (n : ℕ) : Option SiTable := do
  let s ← t.readSection n
  let t ← t.writeSection n { s with sectionAcquired := true }
  some { t with ledger := { t.ledger with
    adopted := t.ledger.adopted.map fun a => { a with parsed := n :: a.parsed } } }

/-- `set_tablesAcquired`. -/
def setTablesAcquired : SiTable :=
  { t with ledger := { t.ledger with announced := t.ledger.announced ++ [t.ledger.adopted] } }

/-- A section with a CRC that is not recorded has been parsed. -/
def recordParsed (cfg : SiConfig) (d : Delivery) (crc : ℕ) : Option SiTable :=
  let t := t.parseAndUpdate d.parse
  { t with ledger := { t.ledger with
    parsedCrcs := t.ledger.parsedCrcs ++ [crc] } }.recordSection cfg crc d.currentTime

/-! ## `sitp_si_state_wait_table_revision_handler` -/

/-- The case of a revision descriptor. -/
def revisionRdd (d : Delivery) (r : Rdd) : Option SiTable :=
  let t := t.releaseFilter d.releases
  if r.version = t.versionNumber then some (t.goto .waitTableRevision)
  else
    let t := (t.adopt r).parseAndUpdate d.parse
    if d.parse.ok then do
      let t ← t.markAcquired (d.parse.sectionNumber r)
      let ((acquired, _), t) ← t.isTableAcquired d.vcmComplete
      let t := { t with tableAcquired := acquired }
      if acquired then t.setTablesAcquired.resetSectionArray t.revType
      else
        let t := t.activateFilter d.filter
        if d.filter.uniqueId = none then
          (t.resetSectionArray t.revType).map (·.goto .waitTableComplete)
        else some (t.goto .waitTableComplete)
    else t.giveUp

/-- A new section without a descriptor; in second place, whether the filter has been released. -/
def revisionCrcNew (cfg : SiConfig) (d : Delivery) (crc : ℕ) : Option (SiTable × Bool) := do
  let t ← t.recordParsed cfg d crc
  let ((acquired, all), t) ← t.isTableAcquired d.vcmComplete
  let t := { t with tableAcquired := acquired }
  let t := if acquired then t.setTablesAcquired else t
  if all then
    let t ← t.giveUp
    some (t, false)
  else
    let released : Bool := t.tableUniqueId != 0
    let t := if released then t.releaseFilter d.releases else t
    some ((t.activateFilter d.filter).goto .waitTableComplete, released)

/-- What is left to do after the last section of a filter. -/
def revisionCrcLast (cfg : SiConfig) (last : Bool) (d : Delivery) (a : SiTable × Bool) :
    Option SiTable :=
  if last then do
    let t ← a.1.purgeSectionsNotMatchedByFilter cfg
    if a.2 then some t else some { t.releaseFilter d.releases with revSampleCount := 0 }
  else some a.1

/-- The case without a revision descriptor. -/
def revisionCrc (cfg : SiConfig) (last : Bool) (d : Delivery) (crc : ℕ) : Option SiTable := do
  let t := { t with revSampleCount := (t.revSampleCount + 1) % 2 ^ 32 }
  match ← t.matchedCRC32 crc with
  | some i =>
    let s ← t.readSection i
    let t ← t.writeSection i { s with lastSeenTime := d.currentTime, seen := s.seen + 1 }
    revisionCrcLast cfg last d (t.goto .waitTableRevision, false)
  | none =>
    if d.parse.ok then do
      let a ← t.revisionCrcNew cfg d crc
      revisionCrcLast cfg last d a
    -- the `break` leaves the purge out
    else (t.parseAndUpdate d.parse).giveUp

/-! ## `sitp_si_state_wait_table_complete_handler` -/

/-- The case of a revision descriptor, once the version is the table's. -/
def collectRdd (last : Bool) (d : Delivery) (r : Rdd) : Option SiTable := do
  let s ← t.readSection r.sectionNumber
  if s.sectionAcquired then
    -- a duplicate
    let t := t.goto .waitTableComplete
    if last then do
      let ((acquired, _), t) ← t.isTableAcquired d.vcmComplete
      let t := { t with tableAcquired := acquired }
      if acquired then some t
      else some ({ t with tableUniqueId := 0 }.activateFilter d.filter)
    else some t
  else
    let t := t.parseAndUpdate d.parse
    if d.parse.ok then do
      let t ← t.markAcquired (d.parse.sectionNumber r)
      let ((acquired, _), t) ← t.isTableAcquired d.vcmComplete
      let t := { t with tableAcquired := acquired }
      if acquired then (t.setTablesAcquired.releaseFilter d.releases).giveUp
      else
        let t := t.goto .waitTableComplete
        if last then some ({ t with tableUniqueId := 0 }.activateFilter d.filter) else some t
    else t.giveUp

/-- The case of a revision descriptor. -/
def completeRdd (last : Bool) (d : Delivery) (r : Rdd) : Option SiTable :=
  if r.version = t.versionNumber then t.collectRdd last d r
  else do
    let t ← t.resetSectionArray t.revType
    (t.adopt r).collectRdd last d r

/-- The section is compared with the recorded ones: whether it is a new one that was parsed,
and the table; in `none` a new one could not be parsed. -/
def completeCrcMatch (cfg : SiConfig) (d : Delivery) (crc : ℕ) :
    Option (Option Bool × SiTable) := do
  match ← t.matchedCRC32 crc with
  | some i =>
    let s ← t.readSection i
    let s := { s with
      crcSectionMatchCount := (s.crcSectionMatchCount + 1) % 256
      lastSeenTime := d.currentTime, seen := s.seen + 1 }
    let s := if t.checkCRCMatchCount cfg s then { s with sectionAcquired := true } else s
    let t ← t.writeSection i s
    some (some false, t)
  | none =>
    if d.parse.ok then do
      let t ← t.recordParsed cfg d crc
      some (some true, t)
    else do
      let t ← (t.parseAndUpdate d.parse).giveUp
      some (none, t)

/-- The rest of the case without a revision descriptor. -/
def completeCrcRest (cfg : SiConfig) (last : Bool) (d : Delivery) (newSectionParsed : Bool) :
    Option SiTable := do
  let ((acquired, all), t) ← t.isTableAcquired d.vcmComplete
  let t := { t with tableAcquired := acquired }
  let t := if newSectionParsed && acquired || all then t.setTablesAcquired else t
  if all then do
    let t ← t.purgeSectionsNotMatchedByFilter cfg
    (t.releaseFilter d.releases).giveUp
  else
    let t := t.goto .waitTableComplete
    if last then do
      let t ← t.purgeSectionsNotMatchedByFilter cfg
      some ((t.releaseFilter d.releases).activateFilter d.filter)
    else some t

/-- The case without a revision descriptor. -/
def completeCrc (cfg : SiConfig) (last : Bool) (d : Delivery) (crc : ℕ) : Option SiTable := do
  let t ← t.purgeOldSectionMatches cfg d.currentTime
  match ← t.completeCrcMatch cfg d crc with
  | (some newSectionParsed, t) => t.completeCrcRest cfg last d newSectionParsed
  | (none, t) => some t

/-! ## Steps -/

/-- What the two handlers have in common: the section is fetched, its revision data read, and
the type of the revisioning set. -/
def handle (d : Delivery) (rdd : SiTable → Rdd → Option SiTable)
    (crc : SiTable → ℕ → Option SiTable) : Option SiTable :=
  if d.fetched then
    match d.revision with
    | none => t.giveUp
    | some ⟨some r, _⟩ => rdd { t with revType := .rdd } r
    | some ⟨none, c⟩ => crc { t with revType := .crc } c
  else (t.releaseFilter d.releases).giveUp

/-- The handler of the state the table is in. -/
def sectionFound (cfg : SiConfig) (last : Bool) (d : Delivery) : Option SiTable :=
  match t.tableState with
  | .none => some t
  | .waitTableRevision =>
    t.handle d (fun t r => t.revisionRdd d r) fun t c => t.revisionCrc cfg last d c
  | .waitTableComplete =>
    t.handle d (fun t r => t.completeRdd last d r) fun t c => t.completeCrc cfg last d c

/-- The initial values of a table. -/
def cleared : SiTable :=
  { t with
    tableState := .none, revType := .unknown, revSampleCount := 0, tableAcquired := false
    versionNumber := initVersion, numberSections := 0
    sections := fun i => if i < maxSectionNumber then {} else t.sections i
    ledger := { t.ledger with adopted := none } }

/-- The part of `sitp_si_get_table` that sets filters. -/
def setFilter (a : Activation) : SiTable :=
  if t.tableState = .none then (t.activateFilter a).goto .waitTableComplete
  else if t.tableUniqueId = 0 then (t.activateFilter a).goto .waitTableRevision
  else t

/-- `rmf_si_purge_RDD_tables`. -/
def purgeRddTable : SiTable :=
  if t.revType = .rdd then
    { t with
      versionNumber := noVersion
      sections := fun i =>
        if i < maxSectionNumber then
          { t.sections i with
            sectionAcquired := false, crc32 := 0, crcSectionMatchCount := 0, seen := 0 }
        else t.sections i
      ledger := { t.ledger with adopted := none } }
  else t

/-- The part of `checkForTableAcquisitionTimeouts` for a table whose time is over. -/
def timedOut (handledLast releases : Bool) : Option SiTable :=
  if t.tableUniqueId = 0 ∨ t.revType = .rdd then some t
  else
    let t := t.setTablesAcquired.releaseFilter releases
    if handledLast then t.giveUp else some (t.goto .waitTableRevision)

def step (cfg : SiConfig) (t : SiTable) : SiEvent → Option SiTable
  | .section last uniqueId d =>
    if uniqueId = t.tableUniqueId then t.sectionFound cfg last d else some t
  | .timeout a => some (t.setFilter a)
  | .sourceClosed releases => some ((t.releaseFilter releases).goto .waitTableRevision)
  | .resetPending releases =>
    let t := if t.tableUniqueId ≠ 0 then t.releaseFilter releases else t
    some { t.cleared with tableUniqueId := 0 }
  | .vctIdChange releases a =>
    let t := if t.tableUniqueId ≠ 0 then t.releaseFilter releases else t
    some (t.cleared.setFilter a)
  | .purgeRdd => some t.purgeRddTable
  | .tableTimeout handledLast releases => t.timedOut handledLast releases
  | .otherTimeout => t.resetSectionArray .crc

/-- A table as `createAndSetTableDataArray` makes it. -/
def initial (subtable : SiSubtable) : SiTable where
  subtable := subtable

end SiTable

end MediaFramework
