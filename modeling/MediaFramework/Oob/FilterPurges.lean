import MediaFramework.Oob.CrcRules
import Mathlib.Data.List.Basic

/-!
# The purge of the sections a filter has not matched (`purgeSectionsNotMatchedByFilter`)

A purge looks at the sections in place: where one has been dropped, the next one has moved to the
same index, which is looked at again. What is left are the sections that are not old, in their
order. Both handlers of a section are split here where they call the purge: `toPurge` is what
they do before, `finish` the purge and what comes after it.
-/

namespace MediaFramework

/-- What a reset of the sections leaves of a section. -/
def SiTableSection.unmarked (s : SiTableSection) : SiTableSection :=
  { s with sectionAcquired := false, crcSectionMatchCount := 0, seen := 0 }

namespace SiTable

variable {t : SiTable} {cfg : SiConfig}

/-! ## The loop -/

/-- The sections in an array of which the first ones are in use. -/
def contents (a : (ℕ → SiTableSection) × ℕ) : List SiTableSection := (List.range a.2).map a.1

/-- The recorded sections, in order. -/
def recorded (t : SiTable) : List SiTableSection := contents (t.sections, t.numberSections)

@[simp] theorem length_contents (a : (ℕ → SiTableSection) × ℕ) : (contents a).length = a.2 := by
  simp [contents]

theorem getElem_contents {a : (ℕ → SiTableSection) × ℕ} {i : ℕ} (h : i < (contents a).length) :
    (contents a)[i] = a.1 i := by
  simp [contents]

/-- The removal of one section. -/
theorem contents_shiftDown {sections : ℕ → SiTableSection} {i n : ℕ} (hi : i < n) :
    contents (shiftDown sections i (n - 1), n - 1) = (contents (sections, n)).eraseIdx i := by
  have hlength : (contents (sections, n)).length = n := length_contents _
  refine List.ext_getElem ?_ fun j h₁ h₂ => ?_
  · rw [length_contents, List.length_eraseIdx_of_lt (hlength.symm ▸ hi), hlength]
  · have hj : j < n - 1 := by rwa [length_contents] at h₁
    rw [getElem_contents, List.getElem_eraseIdx]
    by_cases hij : j < i
    · rw [dif_pos hij, getElem_contents]
      exact if_neg fun h => Nat.not_lt.mpr h.1 hij
    · rw [dif_neg hij, getElem_contents]
      exact if_pos ⟨Nat.not_lt.mp hij, hj⟩

/-- **The loop of a purge**, which looks at an index again when a section has been dropped from
there. -/
theorem contents_purgeFrom (old : SiTableSection → Bool) :
    ∀ (k : ℕ) (a : (ℕ → SiTableSection) × ℕ), k ≤ a.2 →
      contents (purgeFrom old k a) =
        (contents a).take (a.2 - k) ++ ((contents a).drop (a.2 - k)).filter fun s => !old s := by
  intro k
  induction k with
  | zero =>
    rintro ⟨sections, n⟩ _
    have hlength : (contents (sections, n)).length = n := length_contents _
    rw [purgeFrom, Nat.sub_zero, List.take_of_length_le (Nat.le_of_eq hlength),
      List.drop_of_length_le (Nat.le_of_eq hlength), List.filter_nil, List.append_nil]
  | succ k ih =>
    rintro ⟨sections, n⟩ hk
    generalize hi : n - (k + 1) = i
    have hin : i < n := by omega
    have hlength : i < (contents (sections, n)).length := by rwa [length_contents]
    have hhead : (contents (sections, n)).drop i =
        sections i :: (contents (sections, n)).drop (i + 1) := by
      rw [List.drop_eq_getElem_cons hlength, getElem_contents]
    rw [purgeFrom, hi]
    by_cases hold : old (sections i)
    · have hrest : n - 1 - k = i := by omega
      have htake : ((contents (sections, n)).take i).length = i := by
        rw [List.length_take, Nat.min_eq_left (Nat.le_of_lt hlength)]
      rw [if_pos hold, ih _ (by show k ≤ n - 1; omega)]
      rw [hrest, contents_shiftDown hin, List.eraseIdx_eq_take_drop_succ, List.take_left' htake,
        List.drop_left' htake, hhead, List.filter_cons_of_neg (by simpa using hold)]
    · have hrest : n - k = i + 1 := by omega
      rw [if_neg hold, ih _ (by show k ≤ n; omega)]
      rw [hrest, hhead, List.filter_cons_of_pos (by simpa using hold), List.take_add_one,
        List.getElem?_eq_getElem hlength, getElem_contents]
      exact List.append_assoc _ [sections i] _

/-- **A purge** leaves the sections that are not old, in their order. -/
theorem recorded_purge (old : SiTableSection → Bool) (h : cfg.sectionRetentionTime ≠ 0)
    (hbound : t.numberSections ≤ maxSectionNumber) :
    ∃ n ≤ t.numberSections, ∃ sections,
      t.purge cfg old = some { t with sections := sections, numberSections := n } ∧
        contents (sections, n) = t.recorded.filter fun s => !old s := by
  have hcontents := contents_purgeFrom old t.numberSections (t.sections, t.numberSections)
    (Nat.le_refl _)
  rw [Nat.sub_self, List.take_zero, List.nil_append, List.drop_zero] at hcontents
  refine ⟨_, ?_, _, (if_neg h).trans (if_pos hbound), hcontents⟩
  have hlength := congrArg List.length hcontents
  rw [length_contents] at hlength
  rw [hlength]
  exact Nat.le_trans (List.length_filter_le _ _) (Nat.le_of_eq (length_contents _))

end SiTable

/-- The calls of the purge. -/
inductive PurgeCall
  /-- waiting for a revision, the filter has been released before -/
  | filterReleased
  /-- waiting for a revision, the filter is released after the purge -/
  | lastSection
  /-- all sections are acquired -/
  | allAcquired
  /-- the last section, with sections still to come -/
  | incomplete
  deriving DecidableEq

namespace SiTable

variable (t : SiTable) (cfg : SiConfig) (last : Bool) (d : Delivery)

/-- What comes after the purge. -/
def afterPurge (t : SiTable) : PurgeCall → Option SiTable
  | .filterReleased => some t
  | .lastSection => some { t.releaseFilter d.releases with revSampleCount := 0 }
  | .allAcquired => (t.releaseFilter d.releases).giveUp
  | .incomplete => some ((t.releaseFilter d.releases).activateFilter d.filter)

/-- The rest of a handler, from where it purges or else is done. -/
def finish : SiTable × Option PurgeCall → Option SiTable
  | (t, none) => some t
  | (t, some call) => do
    let t ← t.purgeSectionsNotMatchedByFilter cfg
    t.afterPurge d call

/-- The handler that waits for a revision, up to the purge. -/
def revisionToPurge (crc : ℕ) : Option (SiTable × Option PurgeCall) := do
  let t := { t with revSampleCount := (t.revSampleCount + 1) % 2 ^ 32 }
  match ← t.matchedCRC32 crc with
  | some i =>
    let s ← t.readSection i
    let t ← t.writeSection i { s with lastSeenTime := d.currentTime, seen := s.seen + 1 }
    some (t.goto .waitTableRevision, if last then some .lastSection else none)
  | none =>
    if d.parse.ok then do
      let a ← t.revisionCrcNew cfg d crc
      some (a.1, if last then some (if a.2 then .filterReleased else .lastSection) else none)
    else (t.parseAndUpdate d.parse).giveUp.map (·, none)

/-- The same for what the handler that collects sections does when it has counted one. -/
def restToPurge (newSectionParsed : Bool) : Option (SiTable × Option PurgeCall) := do
  let ((acquired, all), t) ← t.isTableAcquired d.vcmComplete
  let t := { t with tableAcquired := acquired }
  let t := if newSectionParsed && acquired || all then t.setTablesAcquired else t
  some (if all then (t, some .allAcquired)
    else (t.goto .waitTableComplete, if last then some .incomplete else none))

/-- The handler that collects sections, up to the purge. -/
def completeToPurge (crc : ℕ) : Option (SiTable × Option PurgeCall) := do
  let t ← t.purgeOldSectionMatches cfg d.currentTime
  match ← t.completeCrcMatch cfg d crc with
  | (some newSectionParsed, t) => t.restToPurge last d newSectionParsed
  | (none, t) => some (t, none)

/-- A section without a revision descriptor, up to the purge. -/
def toPurge (crc : ℕ) : Option (SiTable × Option PurgeCall) :=
  let t := { t with revType := .crc }
  if t.tableState = .waitTableRevision then t.revisionToPurge cfg last d crc
  else t.completeToPurge cfg last d crc

variable {t cfg last d}

theorem revisionCrcLast_eq (a : SiTable × Bool) :
    revisionCrcLast cfg last d a = finish cfg d
      (a.1, if last then some (if a.2 then .filterReleased else .lastSection) else none) := by
  cases last with
  | false => rfl
  | true =>
    rcases a with ⟨t, _ | _⟩
    · rfl
    · rfl

theorem revisionCrc_eq (crc : ℕ) :
    t.revisionCrc cfg last d crc = t.revisionToPurge cfg last d crc >>= finish cfg d := by
  rw [revisionCrc, revisionToPurge, bind_assoc]
  refine bind_congr fun found => ?_
  cases found with
  | some i =>
    rw [bind_assoc]
    refine bind_congr fun s => ?_
    rw [bind_assoc]
    refine bind_congr fun u => ?_
    rw [revisionCrcLast_eq]
    rfl
  | none =>
    by_cases hok : d.parse.ok = true
    · rw [if_pos hok, if_pos hok, bind_assoc]
      refine bind_congr fun a => ?_
      rw [revisionCrcLast_eq]
      rfl
    · rw [if_neg hok, if_neg hok]
      cases SiTable.giveUp _ <;> rfl

theorem completeCrcRest_eq (newSectionParsed : Bool) :
    t.completeCrcRest cfg last d newSectionParsed =
      t.restToPurge last d newSectionParsed >>= finish cfg d := by
  rw [completeCrcRest, restToPurge, bind_assoc]
  refine bind_congr fun ⟨⟨acquired, all⟩, u⟩ => ?_
  cases all with
  | true => rfl
  | false => cases last <;> rfl

theorem completeCrc_eq (crc : ℕ) :
    t.completeCrc cfg last d crc = t.completeToPurge cfg last d crc >>= finish cfg d := by
  rw [completeCrc, completeToPurge, bind_assoc]
  refine bind_congr fun u => ?_
  rw [bind_assoc]
  refine bind_congr fun ⟨newSectionParsed, u⟩ => ?_
  cases newSectionParsed with
  | none => rfl
  | some newSectionParsed => exact completeCrcRest_eq newSectionParsed

theorem handle_of_crc {rdd : SiTable → Rdd → Option SiTable} {f : SiTable → ℕ → Option SiTable}
    {crc : ℕ} (hfetched : d.fetched = true) (hrevision : d.revision = some ⟨none, crc⟩) :
    t.handle d rdd f = f { t with revType := .crc } crc := by
  rw [handle, if_pos hfetched, hrevision]

/-- **What a handler does with a section without a revision descriptor.** -/
theorem sectionFound_eq {crc : ℕ} (hstate : t.tableState ≠ .none) (hfetched : d.fetched = true)
    (hrevision : d.revision = some ⟨none, crc⟩) :
    t.sectionFound cfg last d = t.toPurge cfg last d crc >>= finish cfg d := by
  rcases hs : t.tableState with _ | _ | _
  · exact absurd hs hstate
  · have hhandler : t.sectionFound cfg last d =
        t.handle d (fun t r => t.revisionRdd d r) fun t c => t.revisionCrc cfg last d c := by
      rw [sectionFound, hs]
    rw [hhandler, handle_of_crc hfetched hrevision, toPurge, if_pos hs]
    exact revisionCrc_eq crc
  · have hhandler : t.sectionFound cfg last d =
        t.handle d (fun t r => t.completeRdd last d r) fun t c => t.completeCrc cfg last d c := by
      rw [sectionFound, hs]
    have hne : t.tableState ≠ .waitTableRevision := fun h => nomatch hs.symm.trans h
    rw [hhandler, handle_of_crc hfetched hrevision, toPurge, if_neg hne]
    exact completeCrc_eq crc

end SiTable

end MediaFramework
