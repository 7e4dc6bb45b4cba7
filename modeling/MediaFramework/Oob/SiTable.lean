import Mathlib.Algebra.GroupWithZero.Nat
import Mathlib.Logic.Function.Basic
import Mathlib.Tactic.SplitIfs

/-!
# A table of the out-of-band SI manager

`rmf_OobSiMgr` acquires five tables. For each of them it keeps an `rmf_si_table_t`: the
state of the acquisition, the version on air, and an array of `MAX_SECTION_NUMBER` section
records of which the first `number_sections` are in use.

An access to the array behind its end is undefined behaviour, which is `none` here: every
function that indexes the array is an `Option`.

Three things are kept along that the code does not have: how often a recorded section was
seen since it was recorded or reset (`seen`), which sections were parsed since a version was
adopted, and what was reported (`Ledger`).
-/

namespace MediaFramework

/-- `MAX_SECTION_NUMBER`. -/
def maxSectionNumber : ℕ := 64

/-- `SITP_SI_INIT_CRC_32`. -/
def initCrc32 : ℕ := 0xFFFFFFFF

/-- `SITP_SI_INIT_VERSION`: versions on air are in 0..31. -/
def initVersion : ℕ := 32

/-- `NO_VERSION`. -/
def noVersion : ℕ := 0xFF

/-! ## Data -/

/-- The tables of `createAndSetTableDataArray`, each a `table_id` with its `subtype`. -/
inductive SiSubtable
  | nitCds
  | nitMms
  | svctVcm
  | svctDcm
  | nttSns
  deriving DecidableEq

/-- `rmf_si_state_e`. -/
inductive SiState
  | none
  | waitTableRevision
  | waitTableComplete
  deriving DecidableEq

/-- `rmf_si_revisioning_type_e`. -/
inductive RevisioningType
  | unknown
  | rdd
  | crc
  deriving DecidableEq

/-- `rmf_si_table_section_t`. -/
structure SiTableSection where
  sectionAcquired : Bool := false
  crc32 : ℕ := initCrc32
  /-- an 8-bit counter -/
  crcSectionMatchCount : ℕ := 0
  lastSeenTime : ℕ := 0
  /-- how often the section came since it was recorded or since the last reset -/
  seen : ℕ := 0

/-- A version on air, and which of its sections have been parsed since it was adopted. -/
structure Adoption where
  version : ℕ
  lastSectionNumber : ℕ
  parsed : List ℕ := []
  deriving DecidableEq

/-- Every section of the version has been parsed. -/
def Adoption.Complete (a : Adoption) : Prop := ∀ n ≤ a.lastSectionNumber, n ∈ a.parsed

instance (a : Adoption) : Decidable a.Complete := inferInstanceAs (Decidable (∀ n ≤ _, _))

/-- What has happened to a table, which the code does not keep. -/
structure Ledger where
  /-- the version whose number the table has taken last -/
  adopted : Option Adoption := .none
  /-- for each call of `set_tablesAcquired`, what was adopted then -/
  announced : List (Option Adoption) := []
  /-- the CRCs of the sections that were parsed -/
  parsedCrcs : List ℕ := []
  /-- for each time that all sections were reported acquired, how often each had been seen -/
  reports : List (List ℕ) := []

/-- `rmf_si_table_t`. -/
structure SiTable where
  subtable : SiSubtable
  tableState : SiState := .none
  revType : RevisioningType := .unknown
  revSampleCount : ℕ := 0
  tableAcquired : Bool := false
  tableUniqueId : ℕ := 0
  versionNumber : ℕ := initVersion
  /-- an 8-bit number -/
  numberSections : ℕ := 0
  filterStartTime : ℕ := 0
  sections : ℕ → SiTableSection := fun _ => {}
  ledger : Ledger := {}

/-- The settings of the section counts and of the purging. -/
structure SiConfig where
  maxNitSectionSeenCount : ℕ
  maxVcmSectionSeenCount : ℕ
  maxDcmSectionSeenCount : ℕ
  maxNttSectionSeenCount : ℕ
  /-- 0 if purging is disabled -/
  sectionRetentionTime : ℕ

/-- The `section_seen_count` of `checkCRCMatchCount`. -/
def SiConfig.sectionSeenCount (cfg : SiConfig) : SiSubtable → ℕ
  | .nitCds | .nitMms => cfg.maxNitSectionSeenCount
  | .svctVcm => cfg.maxVcmSectionSeenCount
  | .svctDcm => cfg.maxDcmSectionSeenCount
  | .nttSns => cfg.maxNttSectionSeenCount

/-- The values that are taken where nothing is configured. -/
def SiConfig.defaults : SiConfig where
  maxNitSectionSeenCount := 2
  maxVcmSectionSeenCount := 4
  maxDcmSectionSeenCount := 2
  maxNttSectionSeenCount := 3
  sectionRetentionTime := 150000

namespace SiTable

variable (t : SiTable)

/-! ## The section array -/

/-- A read of `section[i]`. -/
def readSection (i : ℕ) : Option SiTableSection :=
  if i < maxSectionNumber then some (t.sections i) else .none

/-- A write to `section[i]`. -/
def writeSection (i : ℕ) (s : SiTableSection) : Option SiTable :=
  if i < maxSectionNumber then some { t with sections := Function.update t.sections i s } else .none

/-- `reset_section_array`. The first branch goes through the recorded sections, the second
through the whole array. -/
def resetSectionArray (revType : RevisioningType) : Option SiTable :=
  if revType = .rdd then
    if t.numberSections ≤ maxSectionNumber then
      some { t with
        sections := fun i =>
          if i < t.numberSections then
            { t.sections i with
              sectionAcquired := false, crc32 := 0, crcSectionMatchCount := 0, seen := 0 }
          else t.sections i
        tableAcquired := false
        numberSections := 0 }
    else .none
  else
    some { t with
      sections := fun i =>
        if i < maxSectionNumber then
          { t.sections i with sectionAcquired := false, crcSectionMatchCount := 0, seen := 0 }
        else t.sections i
      tableAcquired := false }

/-- Every recorded section is marked acquired. -/
def allMarked : Bool := (List.range t.numberSections).all fun i => (t.sections i).sectionAcquired

/-- `isTable_acquired`: whether the table is acquired and, in second place,
`all_sections_acquired`. The loop goes through all recorded sections. In
RDD mode that is all; else a VCM is acquired too if the DCM has been and all of its defined
channels are mapped, `vcmComplete`. -/
def isTableAcquired (vcmComplete : Bool) : Option ((Bool × Bool) × SiTable) :=
  if t.numberSections ≤ maxSectionNumber then
    if t.allMarked then
      some ((true, true), { t with ledger := { t.ledger with
        reports := t.ledger.reports ++
          [(List.range t.numberSections).map fun i => (t.sections i).seen] } })
    else if t.revType = .rdd then some ((false, false), t)
    else some ((t.subtable = .svctVcm && vcmComplete, false), t)
  else .none

/-- The loop of `matchedCRC32` from section `i` on, with `n` sections to go. -/
def matchFrom (crc : ℕ) : ℕ → ℕ → Option (Option ℕ)
  | 0, _ => some .none
  | n + 1, i =>
    if i < maxSectionNumber then
      if (t.sections i).crc32 = crc then some (some i) else matchFrom crc n (i + 1)
    else .none

/-- `matchedCRC32`. -/
def matchedCRC32 (crc : ℕ) : Option (Option ℕ) := t.matchFrom crc t.numberSections 0

/-- `checkCRCMatchCount`, an equality test on the counter of a section. -/
def checkCRCMatchCount (cfg : SiConfig) (s : SiTableSection) : Bool :=
  s.crcSectionMatchCount = cfg.sectionSeenCount t.subtable

/-- The sections behind `i` moved down by one; the last of them stays where it was, too. -/
def shiftDown (sections : ℕ → SiTableSection) (i n : ℕ) : ℕ → SiTableSection :=
  fun j => if i ≤ j ∧ j < n then sections (j + 1) else sections j

/-- The loop of the two purges, with `k` sections to go, on the array and
`number_sections`. A section that is old is dropped, and the index is looked at again. -/
def purgeFrom (old : SiTableSection → Bool) :
    ℕ → (ℕ → SiTableSection) × ℕ → (ℕ → SiTableSection) × ℕ
  | 0, a => a
  | k + 1, (sections, n) =>
    if old (sections (n - (k + 1))) then
      purgeFrom old k (shiftDown sections (n - (k + 1)) (n - 1), n - 1)
    else purgeFrom old k (sections, n)

/-- The purge of the sections that are old. -/
def purge (cfg : SiConfig) (old : SiTableSection → Bool) : Option SiTable :=
  if cfg.sectionRetentionTime = 0 then some t
  else if t.numberSections ≤ maxSectionNumber then
    let a := purgeFrom old t.numberSections (t.sections, t.numberSections)
    some { t with sections := a.1, numberSections := a.2 }
  else .none

/-- `purgeSectionsNotMatchedByFilter`. -/
def purgeSectionsNotMatchedByFilter (cfg : SiConfig) : Option SiTable :=
  t.purge cfg fun s => s.lastSeenTime ≤ t.filterStartTime

/-- `purgeOldSectionMatches`. The difference of the times is signed, so that nothing is
purged where the clock has been set back. -/
def purgeOldSectionMatches (cfg : SiConfig) (currentTime : ℕ) : Option SiTable :=
  t.purge cfg fun s => (cfg.sectionRetentionTime : ℤ) < currentTime - s.lastSeenTime

/-- A new section is recorded, unless the array is full. The mark of the slot is set if the
first sighting is enough; it is not cleared otherwise. -/
def recordSection (cfg : SiConfig) (crc currentTime : ℕ) : Option SiTable :=
  if t.numberSections = maxSectionNumber then some t
  else do
    let slot ← t.readSection t.numberSections
    let s := { slot with
      crc32 := crc, crcSectionMatchCount := 1, lastSeenTime := currentTime, seen := 1 }
    let s := if t.checkCRCMatchCount cfg s then { s with sectionAcquired := true } else s
    let t ← t.writeSection t.numberSections s
    some { t with numberSections := t.numberSections + 1 }

end SiTable

end MediaFramework
