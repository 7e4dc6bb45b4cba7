import MediaFramework.Oob.SectionIndices

/-!
# What is acquired in RDD mode

A table with revision descriptors takes the version of the first section of a new version, and
then waits for the others. From then on sections of that version are dismissed wherever the
table waits for a revision. So it may go back to waiting only with all sections of the version
parsed: the steps that do otherwise, or that make the sections look complete when they are
not, are those that `StepOrderly` leaves out.
-/

namespace MediaFramework

namespace SiTable

variable {t : SiTable} {cfg : SiConfig}

/-- **What is asked of a table.** Where it waits for a revision with the number of the version
it adopted, every section of that version has been parsed since; and it is acquired, or was
announced as acquired, only in that case. -/
structure AcquiredInFull (t : SiTable) : Prop where
  revision : t.tableState = .waitTableRevision → ∀ a ∈ t.ledger.adopted,
    t.versionNumber = a.version → a.Complete
  acquired : t.tableAcquired = true → ∃ a ∈ t.ledger.adopted, a.Complete
  announced : ∀ b ∈ t.ledger.announced, ∃ a ∈ b, a.Complete

/-! ## The invariant -/

/-- No section is marked. -/
def Unmarked (t : SiTable) : Prop := ∀ i, (t.sections i).sectionAcquired = false

/-- A table that has adopted a version waits for another one, or collects what is missing. -/
inductive Phase (t : SiTable) (a : Adoption) : Prop
  | waits (state : t.tableState = .waitTableRevision) (complete : a.Complete)
    (unmarked : t.Unmarked)
  | collects (state : t.tableState = .waitTableComplete)
    (number : t.numberSections = a.lastSectionNumber + 1)
    (parsed : ∀ i, (t.sections i).sectionAcquired = true → i ∈ a.parsed)
    (missing : ∃ i < t.numberSections, (t.sections i).sectionAcquired = false)

/-- The invariant of a table in RDD mode. -/
structure Collected (t : SiTable) : Prop where
  bounded : t.Bounded
  free : ∀ i, t.numberSections ≤ i → (t.sections i).sectionAcquired = false
  acquired : t.tableAcquired = false
  announced : ∀ b ∈ t.ledger.announced, ∃ a ∈ b, a.Complete
  /-- the number is then not one of a version on air -/
  unadopted : t.ledger.adopted = none → 32 ≤ t.versionNumber ∧ t.Unmarked
  adopted : ∀ a ∈ t.ledger.adopted, t.versionNumber = a.version ∧ t.Phase a

theorem Collected.acquiredInFull (h : t.Collected) : t.AcquiredInFull where
  revision hstate a ha _ := by
    obtain ⟨-, hphase⟩ := h.adopted a ha
    cases hphase with
    | waits _ complete _ => exact complete
    | collects state _ _ _ => exact nomatch hstate.symm.trans state
  acquired hacquired := absurd (h.acquired.symm.trans hacquired) Bool.false_ne_true
  announced := h.announced

/-- The sections of a version are being collected. -/
def Collecting (t : SiTable) : Prop :=
  t.tableState = .waitTableComplete ∧ t.ledger.adopted ≠ none

instance : DecidablePred Collecting := fun _ => inferInstanceAs (Decidable (_ ∧ _))

theorem Collected.unmarked (h : t.Collected) (hidle : ¬t.Collecting) : t.Unmarked := by
  rcases hadopted : t.ledger.adopted with _ | a
  · exact (h.unadopted hadopted).2
  · obtain ⟨-, hphase⟩ := h.adopted a hadopted
    cases hphase with
    | waits _ _ unmarked => exact unmarked
    | collects state _ _ _ =>
      exact absurd ⟨state, fun hnone => nomatch hadopted.symm.trans hnone⟩ hidle

/-! ## Filters and resets -/

theorem releaseFilter_eq (releases : Bool) : ∃ id time,
    t.releaseFilter releases = { t with tableUniqueId := id, filterStartTime := time } := by
  unfold releaseFilter
  split_ifs
  · exact ⟨_, _, rfl⟩
  · exact ⟨t.tableUniqueId, t.filterStartTime, rfl⟩

theorem activateFilter_eq (a : Activation) : ∃ id time,
    t.activateFilter a = { t with tableUniqueId := id, filterStartTime := time } := by
  have hleft : ∃ id time, (if t.tableUniqueId ≠ 0 then t.releaseFilter a.releasesLeft else t) =
      { t with tableUniqueId := id, filterStartTime := time } := by
    split_ifs
    · exact releaseFilter_eq _
    · exact ⟨t.tableUniqueId, t.filterStartTime, rfl⟩
  obtain ⟨id, time, hleft⟩ := hleft
  unfold activateFilter
  rw [hleft]
  rcases a.uniqueId with _ | new
  · exact ⟨_, _, rfl⟩
  · exact ⟨_, _, rfl⟩

variable {a : Adoption}

/-- What a filter changes does not matter. -/
theorem Phase.filter (h : t.Phase a) (id time : ℕ) :
    Phase { t with tableUniqueId := id, filterStartTime := time } a := by
  cases h with
  | waits state complete unmarked => exact .waits state complete unmarked
  | collects state number parsed missing => exact .collects state number parsed missing

theorem Collected.filter (h : t.Collected) (id time : ℕ) :
    Collected { t with tableUniqueId := id, filterStartTime := time } :=
  ⟨h.bounded, h.free, h.acquired, h.announced, h.unadopted, fun a ha =>
    ⟨(h.adopted a ha).1, (h.adopted a ha).2.filter id time⟩⟩

theorem Collected.releaseFilter (h : t.Collected) (releases : Bool) :
    (t.releaseFilter releases).Collected := by
  obtain ⟨id, time, heq⟩ := releaseFilter_eq (t := t) releases
  rw [heq]
  exact h.filter id time

theorem Collected.activateFilter (h : t.Collected) (a : Activation) :
    (t.activateFilter a).Collected := by
  obtain ⟨id, time, heq⟩ := activateFilter_eq (t := t) a
  rw [heq]
  exact h.filter id time

/-- The table, waiting again with nothing marked. -/
theorem Collected.waiting (h : t.Collected) (hidle : ¬t.Collecting) :
    (t.goto .waitTableRevision).Collected := by
  refine ⟨h.bounded, h.free, h.acquired, h.announced, h.unadopted, fun a ha => ?_⟩
  obtain ⟨hversion, hphase⟩ := h.adopted a ha
  refine ⟨hversion, ?_⟩
  cases hphase with
  | waits _ complete unmarked => exact .waits rfl complete unmarked
  | collects state _ _ _ =>
    exact absurd ⟨state, fun hnone => nomatch ha.symm.trans hnone⟩ hidle

/-- What is left of a table after a reset. -/
structure Reset (t u : SiTable) : Prop where
  tableState : u.tableState = t.tableState
  revType : u.revType = t.revType
  versionNumber : u.versionNumber = t.versionNumber
  ledger : u.ledger = t.ledger
  bounded : u.Bounded
  acquired : u.tableAcquired = false
  unmarked : u.Unmarked

theorem reset_spec (hbounded : t.Bounded)
    (hfree : ∀ i, t.numberSections ≤ i → (t.sections i).sectionAcquired = false)
    (r : RevisioningType) : Reaches (t.resetSectionArray r) (Reset t) := by
  have hbound : t.numberSections ≤ maxSectionNumber := hbounded
  unfold resetSectionArray
  split_ifs with hmode
  · refine .pure ⟨rfl, rfl, rfl, rfl, Nat.zero_le _, rfl, fun i => ?_⟩
    dsimp only
    split_ifs with hi
    · rfl
    · exact hfree i (Nat.le_of_not_lt hi)
  · refine .pure ⟨rfl, rfl, rfl, rfl, hbound, rfl, fun i => ?_⟩
    dsimp only
    split_ifs with hi
    · rfl
    · exact hfree i (Nat.le_trans hbound (Nat.le_of_not_lt hi))

/-- A table that gives up has no version it collects. -/
theorem Collected.giveUp (h : t.Collected) (hidle : ¬t.Collecting) :
    Reaches t.giveUp Collected := by
  refine (reset_spec h.bounded h.free t.revType).map fun u hu => ?_
  refine ⟨hu.bounded, fun i _ => hu.unmarked i, hu.acquired, ?_, fun hnone => ⟨?_, hu.unmarked⟩,
    fun a ha => ?_⟩
  · show ∀ b ∈ u.ledger.announced, _
    rw [hu.ledger]
    exact h.announced
  · show 32 ≤ u.versionNumber
    rw [hu.versionNumber]
    exact (h.unadopted (hu.ledger ▸ hnone)).1
  · have ha : a ∈ t.ledger.adopted := hu.ledger ▸ ha
    obtain ⟨hversion, hphase⟩ := h.adopted a ha
    refine ⟨hu.versionNumber.trans hversion, ?_⟩
    cases hphase with
    | waits _ complete _ => exact .waits rfl complete hu.unmarked
    | collects state _ _ _ =>
      exact absurd ⟨state, fun hnone => nomatch ha.symm.trans hnone⟩ hidle

/-! ## Collecting a version -/

/-- Sections of the version `a` are being parsed; whether one is missing is not known. -/
structure Gathering (t : SiTable) (a : Adoption) : Prop where
  bounded : t.Bounded
  free : ∀ i, t.numberSections ≤ i → (t.sections i).sectionAcquired = false
  announced : ∀ b ∈ t.ledger.announced, ∃ a ∈ b, a.Complete
  adopted : t.ledger.adopted = some a
  version : t.versionNumber = a.version
  number : t.numberSections = a.lastSectionNumber + 1
  parsed : ∀ i, (t.sections i).sectionAcquired = true → i ∈ a.parsed

/-- A table all of whose sections are marked has parsed them all. -/
theorem Gathering.complete (h : t.Gathering a) (hall : t.allMarked = true) :
    a.Complete := by
  intro n hn
  have hn : n < t.numberSections := h.number ▸ Nat.lt_succ_of_le hn
  exact h.parsed n (List.all_eq_true.mp hall n (List.mem_range.mpr hn))

/-- A table with a section that is not marked goes on collecting. -/
theorem Gathering.missing (h : t.Gathering a)
    (hstate : t.tableState = .waitTableComplete) (hacquired : t.tableAcquired = false)
    (hall : t.allMarked = false) : t.Collected := by
  refine ⟨h.bounded, h.free, hacquired, h.announced, fun hnone => ?_, fun b hb => ?_⟩
  · exact nomatch h.adopted.symm.trans hnone
  · obtain rfl : a = b := Option.some.inj (h.adopted.symm.trans hb)
    obtain ⟨i, hi, hmark⟩ := List.all_eq_false.mp hall
    exact ⟨h.version, .collects hstate h.number h.parsed
      ⟨i, List.mem_range.mp hi, Bool.not_eq_true _ ▸ hmark⟩⟩

/-- A table that has parsed all sections announces it and waits for another version. -/
theorem Gathering.acquired (h : t.Gathering a) (hcomplete : a.Complete)
    (r : RevisioningType) :
    Reaches (t.setTablesAcquired.resetSectionArray r) fun u =>
      u.tableState = t.tableState ∧ (u.goto .waitTableRevision).Collected := by
  refine (reset_spec (t := t.setTablesAcquired) h.bounded h.free r).mono fun u hu => ?_
  have hannounced : u.ledger.announced = t.ledger.announced ++ [t.ledger.adopted] :=
    congrArg Ledger.announced hu.ledger
  have hadopted : u.ledger.adopted = some a :=
    (congrArg Ledger.adopted hu.ledger).trans h.adopted
  refine ⟨hu.tableState, hu.bounded, fun i _ => hu.unmarked i, hu.acquired, fun b hb => ?_,
    fun hnone => ?_, fun b hb => ?_⟩
  · rcases List.mem_append.mp (hannounced ▸ (show b ∈ u.ledger.announced from hb)) with hb | hb
    · exact h.announced b hb
    · obtain rfl := List.mem_singleton.mp hb
      exact ⟨a, h.adopted, hcomplete⟩
  · exact nomatch hadopted.symm.trans hnone
  · obtain rfl : a = b := Option.some.inj (hadopted.symm.trans hb)
    exact ⟨hu.versionNumber.trans h.version, .waits rfl hcomplete hu.unmarked⟩

/-- The version of the section is taken by a table that has nothing marked. -/
theorem gathering_adopt {r : Rdd} (hr : r.lastSectionNumber < maxSectionNumber)
    (hunmarked : t.Unmarked) (hannounced : ∀ b ∈ t.ledger.announced, ∃ a ∈ b, a.Complete) :
    (t.adopt r).Gathering ⟨r.version, r.lastSectionNumber, []⟩ := by
  have hnumber : (r.lastSectionNumber + 1) % 256 = r.lastSectionNumber + 1 :=
    Nat.mod_eq_of_lt (Nat.lt_of_le_of_lt hr (by decide))
  refine ⟨?_, fun i _ => hunmarked i, hannounced, rfl, rfl, hnumber, fun i hi => ?_⟩
  · show (r.lastSectionNumber + 1) % 256 ≤ maxSectionNumber
    rw [hnumber]
    exact hr
  · exact absurd ((hunmarked i).symm.trans hi) Bool.false_ne_true

/-- A section of the version is marked when it has been parsed. -/
theorem Gathering.marked {n : ℕ} (h : t.Gathering a) (hn : n < t.numberSections) :
    (t.marked n).Gathering { a with parsed := n :: a.parsed } := by
  refine ⟨h.bounded, fun i hi => ?_, h.announced, ?_, h.version, h.number, fun i hi => ?_⟩
  · have hne : i ≠ n := Nat.ne_of_gt (Nat.lt_of_lt_of_le hn hi)
    show (Function.update t.sections n _ i).sectionAcquired = false
    rw [Function.update_of_ne hne]
    exact h.free i hi
  · show t.ledger.adopted.map _ = _
    rw [h.adopted]
    rfl
  · by_cases heq : i = n
    · exact heq ▸ List.mem_cons_self
    · have hi : (Function.update t.sections n { t.sections n with sectionAcquired := true }
          i).sectionAcquired = true := hi
      rw [Function.update_of_ne heq] at hi
      exact List.mem_cons_of_mem n (h.parsed i hi)

theorem isTableAcquired_of_missing {vcmComplete : Bool} (hbounded : t.Bounded)
    (hmode : t.revType = .rdd) (hall : t.allMarked = false) :
    t.isTableAcquired vcmComplete = some ((false, false), t) := by
  unfold isTableAcquired
  rw [if_pos (show t.numberSections ≤ maxSectionNumber from hbounded), hall,
    if_neg Bool.false_ne_true, if_pos hmode]

/-- **A section is parsed.** It is marked, and then it is looked whether it was the last that
was missing. -/
theorem Gathering.parse {n : ℕ} {vcmComplete : Bool}
    {f : (Bool × Bool) × SiTable → Option SiTable} {Q : SiTable → Prop} (h : t.Gathering a)
    (hmode : t.revType = .rdd) (hn : n < t.numberSections)
    (hall : ∀ u b c, Gathering u b → b.Complete → u.tableState = t.tableState →
      Reaches (f ((true, c), u)) Q)
    (hmissing : ∀ b, (t.marked n).Gathering b → (t.marked n).allMarked = false →
      Reaches (f ((false, false), t.marked n)) Q) :
    Reaches (t.markAcquired n >>= fun u => u.isTableAcquired vcmComplete >>= f) Q := by
  rw [markAcquired_of_lt (Nat.lt_of_lt_of_le hn h.bounded)]
  have hmarked := h.marked hn
  show Reaches ((t.marked n).isTableAcquired vcmComplete >>= f) Q
  rcases hlooked : (t.marked n).allMarked with _ | _
  · rw [isTableAcquired_of_missing hmarked.bounded hmode hlooked]
    exact hmissing _ hmarked hlooked
  · unfold isTableAcquired
    rw [if_pos (show (t.marked n).numberSections ≤ maxSectionNumber from h.bounded), hlooked,
      if_pos rfl]
    exact hall _ _ _ ⟨hmarked.bounded, hmarked.free, hmarked.announced, hmarked.adopted,
      hmarked.version, hmarked.number, hmarked.parsed⟩ (hmarked.complete hlooked) rfl

/-- A version of one section is complete with the first. -/
theorem allMarked_one {n : ℕ} (hone : t.numberSections = 1) (hn : n < t.numberSections) :
    (t.marked n).allMarked = true := by
  refine List.all_eq_true.mpr fun i hi => ?_
  have hi : i < t.numberSections := List.mem_range.mp hi
  obtain rfl : i = n := by omega
  show (Function.update t.sections i _ i).sectionAcquired = true
  rw [Function.update_self]

/-- The same table, with another outcome, filter or state. -/
theorem Gathering.goto (h : t.Gathering a) (acquired : Bool) (id time : ℕ)
    (s : SiState) :
    Gathering { t with tableAcquired := acquired, tableUniqueId := id, filterStartTime := time,
                       tableState := s } a :=
  ⟨h.bounded, h.free, h.announced, h.adopted, h.version, h.number, h.parsed⟩

/-- A table that is collecting has a section to parse. -/
theorem Collected.gathering (h : t.Collected) (ha : t.ledger.adopted = some a)
    (hstate : t.tableState = .waitTableComplete) : t.Gathering a ∧ t.allMarked = false := by
  obtain ⟨hversion, hphase⟩ := h.adopted a ha
  cases hphase with
  | waits state _ _ => exact nomatch hstate.symm.trans state
  | collects _ number parsed missing =>
    obtain ⟨i, hi, hmark⟩ := missing
    refine ⟨⟨h.bounded, h.free, h.announced, ha, hversion, number, parsed⟩, ?_⟩
    refine List.all_eq_false.mpr ⟨i, List.mem_range.mpr hi, ?_⟩
    rw [hmark]
    exact Bool.false_ne_true

/-! ## What is asked of the steps -/

/-- The section is parsed, as one of `n` sections of the version that was announced. -/
def ParsedWithin (n : ℕ) (d : Delivery) (r : Rdd) : Prop :=
  d.parse.ok = true ∧ d.parse.sectionNumber r < n ∧ ∀ p ∈ d.parse.rdd, p.version = r.version

instance (n : ℕ) (d : Delivery) (r : Rdd) : Decidable (ParsedWithin n d r) :=
  inferInstanceAs (Decidable (_ ∧ _ ∧ ∀ p ∈ _, _))

/-- A new version has sections that fit the array, and the filter for the others is set; a
section that is used is parsed. -/
def RddOrderly (t : SiTable) (d : Delivery) (r : Rdd) : Prop :=
  (r.version ≠ t.versionNumber →
    r.lastSectionNumber < maxSectionNumber ∧ ParsedWithin (r.lastSectionNumber + 1) d r) ∧
  (r.version ≠ t.versionNumber → t.tableState = .waitTableRevision →
    r.lastSectionNumber = 0 ∨ d.filter.uniqueId ≠ none) ∧
  (t.tableState = .waitTableComplete → r.sectionNumber < maxSectionNumber) ∧
  (t.tableState = .waitTableComplete → r.version = t.versionNumber →
    (t.sections r.sectionNumber).sectionAcquired = false → ParsedWithin t.numberSections d r)

instance (t : SiTable) (d : Delivery) (r : Rdd) : Decidable (t.RddOrderly d r) :=
  inferInstanceAs (Decidable (_ ∧ _ ∧ _ ∧ _))

/-- **What is asked of a step.** Sections come with revision descriptors and are orderly;
while a version is collected none fails to come, the source stays open and the table is not
without a filter at a timeout. A table is announced by a timeout only before its first
section, so none of these comes with a filter set. -/
def StepOrderly (t : SiTable) : SiEvent → Prop
  | .section _ uniqueId d =>
    uniqueId = t.tableUniqueId → t.tableState ≠ .none →
      (t.Collecting → d.fetched = true ∧ d.revision ≠ none) ∧
      (d.fetched = true → ∀ v ∈ d.revision, v.rdd ≠ none ∧ ∀ r ∈ v.rdd, t.RddOrderly d r)
  | .timeout _ => ¬(t.Collecting ∧ t.tableUniqueId = 0)
  | .sourceClosed _ => ¬t.Collecting
  | .tableTimeout _ _ => t.tableUniqueId = 0 ∨ t.revType = .rdd
  | .resetPending _ | .vctIdChange _ _ | .purgeRdd | .otherTimeout => True

instance (t : SiTable) (e : SiEvent) : Decidable (t.StepOrderly e) :=
  match e with
  | .section _ _ _ => inferInstanceAs (Decidable (_ → _ → _ ∧ (_ → ∀ v ∈ _, _ ∧ ∀ r ∈ _, _)))
  | .timeout _ => inferInstanceAs (Decidable (¬_))
  | .sourceClosed _ => inferInstanceAs (Decidable (¬_))
  | .tableTimeout _ _ => inferInstanceAs (Decidable (_ ∨ _))
  | .resetPending _ | .vctIdChange _ _ | .purgeRdd | .otherTimeout => isTrue trivial

/-! ## The handlers -/

theorem parseAndUpdate_eq {p : ParseOutcome} (hp : ∀ q ∈ p.rdd, q.version = t.versionNumber) :
    t.parseAndUpdate p = t := by
  unfold parseAndUpdate
  rcases hrdd : p.rdd with _ | q
  · rfl
  · have hversion : q.version = t.versionNumber := hp q hrdd
    rw [Option.map_some, Option.getD_some, hversion]

/-- All sections of a version have been parsed: in `WAIT_TABLE_REVISION` the state stays. -/
theorem Gathering.done (h : t.Gathering a) (hcomplete : a.Complete)
    (hstate : t.tableState = .waitTableRevision) (r : RevisioningType) :
    Reaches (t.setTablesAcquired.resetSectionArray r) Collected := by
  refine (h.acquired hcomplete r).mono fun u hu => ?_
  have hgoto : u.goto .waitTableRevision = u := by
    rw [← hstate, ← hu.1]
    rfl
  exact hgoto ▸ hu.2

theorem Collected.revisionRdd {d : Delivery} {r : Rdd} (h : t.Collected)
    (hstate : t.tableState = .waitTableRevision) (hmode : t.revType = .rdd)
    (horderly : t.RddOrderly d r) : Reaches (t.revisionRdd d r) Collected := by
  have hidle : ¬t.Collecting := fun hc => nomatch hstate.symm.trans hc.1
  obtain ⟨hnew, hfilter, -, -⟩ := horderly
  obtain ⟨id, time, hreleased⟩ := releaseFilter_eq (t := t) d.releases
  unfold SiTable.revisionRdd
  rw [hreleased]
  refine .ite (fun _ => .pure ((h.filter id time).waiting hidle)) fun hversion => ?_
  obtain ⟨hlast, hok, hn, hagree⟩ := hnew hversion
  have hgathering := gathering_adopt (r := r) hlast ((h.filter id time).unmarked hidle) h.announced
  dsimp only
  rw [parseAndUpdate_eq hagree, if_pos hok]
  refine hgathering.parse hmode ?_ ?_ ?_
  · rw [hgathering.number]
    exact hn
  · intro u b c hu hcomplete hu_state
    exact (hu.goto true u.tableUniqueId u.filterStartTime u.tableState).done hcomplete
      (hu_state.trans hstate) _
  · intro b hu hall
    -- with one section nothing is missing, so the filter for the others could be set
    have hmore : r.lastSectionNumber ≠ 0 := by
      intro hzero
      have hone := hgathering.number.trans (congrArg (· + 1) hzero)
      exact Bool.false_ne_true (hall.symm.trans (allMarked_one hone (hgathering.number ▸ hn)))
    rw [if_neg Bool.false_ne_true, if_neg ((hfilter hversion hstate).resolve_left hmore)]
    obtain ⟨id, time, hactivated⟩ :=
      activateFilter_eq (t := { SiTable.marked _ _ with tableAcquired := false }) d.filter
    rw [hactivated]
    exact .pure ((hu.goto false id time .waitTableComplete).missing rfl rfl hall)

/-- The filter runs out before all sections have come, and is set again. -/
theorem Gathering.refilter (h : t.Gathering a) (hall : t.allMarked = false)
    (filter : Activation) :
    (SiTable.activateFilter { t with
      tableState := .waitTableComplete, tableAcquired := false, tableUniqueId := 0 }
      filter).Collected := by
  obtain ⟨id, time, hactivated⟩ := activateFilter_eq (t := { t with
    tableState := .waitTableComplete, tableAcquired := false, tableUniqueId := 0 }) filter
  rw [hactivated]
  exact (h.goto false id time .waitTableComplete).missing rfl rfl hall

theorem Gathering.collectRdd {last : Bool} {d : Delivery} {r : Rdd}
    (h : t.Gathering a) (hmode : t.revType = .rdd) (hr : r.sectionNumber < maxSectionNumber)
    (hduplicate : (t.sections r.sectionNumber).sectionAcquired = true →
      t.tableAcquired = false ∧ t.allMarked = false)
    (hversion : t.versionNumber = r.version)
    (hparse : (t.sections r.sectionNumber).sectionAcquired = false →
      ParsedWithin t.numberSections d r) :
    Reaches (t.collectRdd last d r) Collected := by
  unfold SiTable.collectRdd
  rw [readSection, if_pos hr]
  refine .ite (fun hmarked => ?_) fun hmarked => ?_
  · obtain ⟨hacquired, hall⟩ := hduplicate hmarked
    refine .ite (fun _ => ?_) fun _ => ?_
    · rw [isTableAcquired_of_missing (t := t.goto .waitTableComplete) h.bounded hmode hall]
      exact .pure (h.refilter hall d.filter)
    · exact .pure ((h.goto t.tableAcquired t.tableUniqueId t.filterStartTime
        .waitTableComplete).missing rfl hacquired hall)
  · obtain ⟨hok, hn, hagree⟩ := hparse (Bool.not_eq_true _ ▸ hmarked)
    rw [parseAndUpdate_eq fun q hq => (hagree q hq).trans hversion.symm, if_pos hok]
    refine h.parse hmode hn ?_ ?_
    · intro u b c hu hcomplete hu_state
      obtain ⟨id, time, hreleased⟩ := releaseFilter_eq
        (t := SiTable.setTablesAcquired { u with tableAcquired := true }) d.releases
      dsimp only
      rw [if_pos rfl, hreleased]
      exact ((hu.goto true id time u.tableState).acquired hcomplete u.revType).map fun v hv => hv.2
    · intro b hu hall
      generalize t.marked (d.parse.sectionNumber r) = u at hu hall ⊢
      dsimp only
      rw [if_neg Bool.false_ne_true]
      refine .ite (fun _ => .pure (hu.refilter hall d.filter)) fun _ => .pure ?_
      exact (hu.goto false u.tableUniqueId u.filterStartTime .waitTableComplete).missing rfl rfl hall

theorem Collected.completeRdd {last : Bool} {d : Delivery} {r : Rdd} (h : t.Collected)
    (hstate : t.tableState = .waitTableComplete) (hmode : t.revType = .rdd)
    (horderly : t.RddOrderly d r) : Reaches (t.completeRdd last d r) Collected := by
  obtain ⟨hnew, -, hsection, hold⟩ := horderly
  refine .ite (fun hversion => ?_) fun hversion => ?_
  · -- a version on air is one that was adopted
    have hadopted : t.ledger.adopted ≠ none := by
      intro hnone
      have hair := (h.unadopted hnone).1
      exact absurd (hversion ▸ r.version_lt) (Nat.not_lt.mpr hair)
    obtain ⟨a, ha⟩ := Option.ne_none_iff_exists'.mp hadopted
    obtain ⟨hgathering, hall⟩ := h.gathering ha hstate
    exact hgathering.collectRdd hmode (hsection hstate) (fun _ => ⟨h.acquired, hall⟩) hversion.symm
      (hold hstate hversion)
  · refine (reset_spec h.bounded h.free t.revType).bind fun u hu => ?_
    obtain ⟨hlast, hparse⟩ := hnew hversion
    have hannounced : ∀ b ∈ u.ledger.announced, ∃ a ∈ b, a.Complete := by
      rw [hu.ledger]
      exact h.announced
    have hgathering := gathering_adopt (r := r) hlast hu.unmarked hannounced
    refine hgathering.collectRdd (hu.revType.trans hmode) (hsection hstate) (fun hmarked => ?_) rfl
      fun _ => ?_
    · exact absurd ((hu.unmarked _).symm.trans hmarked) Bool.false_ne_true
    · exact hgathering.number ▸ hparse

theorem Collected.setMode (h : t.Collected) (mode : RevisioningType) :
    Collected { t with revType := mode } := by
  refine ⟨h.bounded, h.free, h.acquired, h.announced, h.unadopted, fun a ha => ?_⟩
  obtain ⟨hversion, hphase⟩ := h.adopted a ha
  refine ⟨hversion, ?_⟩
  cases hphase with
  | waits state complete unmarked => exact .waits state complete unmarked
  | collects state number parsed missing => exact .collects state number parsed missing

/-- What both handlers do with a section that is orderly. -/
theorem Collected.handle {d : Delivery} {rdd : SiTable → Rdd → Option SiTable}
    {crc : SiTable → ℕ → Option SiTable} (h : t.Collected)
    (hcomes : t.Collecting → d.fetched = true ∧ d.revision ≠ none)
    (horderly : d.fetched = true → ∀ v ∈ d.revision, v.rdd ≠ none ∧ ∀ r ∈ v.rdd, t.RddOrderly d r)
    (hrdd : ∀ r, t.RddOrderly d r → Reaches (rdd { t with revType := .rdd } r) Collected) :
    Reaches (t.handle d rdd crc) Collected := by
  refine .ite (fun hfetched => ?_) fun hfetched => ?_
  · rcases hrevision : d.revision with _ | ⟨_ | r, c⟩
    · exact h.giveUp fun hc => (hcomes hc).2 hrevision
    · exact absurd rfl (horderly hfetched _ hrevision).1
    · exact hrdd r ((horderly hfetched _ hrevision).2 r rfl)
  · refine (h.releaseFilter d.releases).giveUp fun hc => hfetched (hcomes ?_).1
    obtain ⟨id, time, hreleased⟩ := releaseFilter_eq (t := t) d.releases
    rw [hreleased] at hc
    exact hc

/-- A table that starts anew. -/
theorem Collected.cleared (h : t.Collected) : t.cleared.Collected := by
  have hunmarked : t.cleared.Unmarked := by
    intro i
    show (if i < maxSectionNumber then ({} : SiTableSection) else t.sections i).sectionAcquired = _
    split_ifs with hi
    · rfl
    · exact h.free i (Nat.le_trans h.bounded (Nat.le_of_not_lt hi))
  exact ⟨Nat.zero_le _, fun i _ => hunmarked i, rfl, h.announced,
    fun _ => ⟨Nat.le_refl _, hunmarked⟩, fun _ ha => nomatch ha⟩

/-- A table without a version may change its state. -/
theorem Collected.start (h : t.Collected) (hnone : t.ledger.adopted = none) (s : SiState) :
    (t.goto s).Collected :=
  ⟨h.bounded, h.free, h.acquired, h.announced, h.unadopted,
    fun _ ha => nomatch hnone.symm.trans ha⟩

theorem Collected.purgeRddTable (h : t.Collected) : t.purgeRddTable.Collected := by
  unfold SiTable.purgeRddTable
  split_ifs
  · have hunmarked : ∀ i, (if i < maxSectionNumber then { t.sections i with
        sectionAcquired := false, crc32 := 0, crcSectionMatchCount := 0, seen := 0 }
        else t.sections i).sectionAcquired = false := by
      intro i
      split_ifs with hi
      · rfl
      · exact h.free i (Nat.le_trans h.bounded (Nat.le_of_not_lt hi))
    exact ⟨h.bounded, fun i _ => hunmarked i, h.acquired, h.announced,
      fun _ => ⟨show 32 ≤ noVersion by decide, hunmarked⟩, fun _ ha => nomatch ha⟩
  · exact h

/-- The marks of a table that collects are lost when another table's time is over. -/
theorem Collected.otherTimeout (h : t.Collected) :
    Reaches (t.resetSectionArray .crc) Collected := by
  unfold resetSectionArray
  rw [if_neg (by decide)]
  have hunmarked : ∀ i, (if i < maxSectionNumber then { t.sections i with
      sectionAcquired := false, crcSectionMatchCount := 0, seen := 0 }
      else t.sections i).sectionAcquired = false := by
    intro i
    split_ifs with hi
    · rfl
    · exact h.free i (Nat.le_trans h.bounded (Nat.le_of_not_lt hi))
  refine .pure ⟨h.bounded, fun i _ => hunmarked i, rfl, h.announced,
    fun hnone => ⟨(h.unadopted hnone).1, hunmarked⟩, fun a ha => ?_⟩
  obtain ⟨hversion, hphase⟩ := h.adopted a ha
  refine ⟨hversion, ?_⟩
  cases hphase with
  | waits state complete _ => exact .waits state complete hunmarked
  | collects state number _ _ =>
    have hone : 0 < t.numberSections := number ▸ Nat.succ_pos _
    exact .collects state number
      (fun i hi => absurd ((hunmarked i).symm.trans hi) Bool.false_ne_true)
      ⟨0, hone, hunmarked 0⟩

/-! ## Runs -/

theorem Collected.setFilter {a : Activation} (h : t.Collected)
    (hidle : ¬(t.Collecting ∧ t.tableUniqueId = 0))
    (hnone : t.tableState = .none → t.ledger.adopted = none) : (t.setFilter a).Collected := by
  obtain ⟨id, time, hactivated⟩ := activateFilter_eq (t := t) a
  unfold SiTable.setFilter
  split_ifs with hstate hfilter
  · refine (h.activateFilter a).start ?_ _
    rw [hactivated]
    exact hnone hstate
  · refine (h.activateFilter a).waiting fun hc => ?_
    rw [hactivated] at hc
    exact hidle ⟨hc, hfilter⟩
  · exact h

/-- A table that has not been started has no version. -/
theorem Collected.not_started (h : t.Collected) (hstate : t.tableState = .none) :
    t.ledger.adopted = none := by
  rcases hadopted : t.ledger.adopted with _ | a
  · rfl
  · obtain ⟨-, hphase⟩ := h.adopted a hadopted
    cases hphase with
    | waits state _ _ => exact nomatch hstate.symm.trans state
    | collects state _ _ _ => exact nomatch hstate.symm.trans state

/-- **One step.** -/
theorem Collected.step {e : SiEvent} (h : t.Collected) (horderly : t.StepOrderly e) :
    Reaches (SiTable.step cfg t e) Collected := by
  have hleft : ∀ releases,
      (if t.tableUniqueId ≠ 0 then t.releaseFilter releases else t).Collected := by
    intro releases
    split_ifs
    · exact h.releaseFilter releases
    · exact h
  cases e with
  | «section» last uniqueId d =>
    refine .ite (fun hid => ?_) fun _ => .pure h
    unfold sectionFound
    rcases hstate : t.tableState with _ | _ | _
    · exact .pure h
    · obtain ⟨hcomes, hdata⟩ := horderly hid fun hnone => nomatch hstate.symm.trans hnone
      exact h.handle hcomes hdata fun r hr => (h.setMode .rdd).revisionRdd hstate rfl hr
    · obtain ⟨hcomes, hdata⟩ := horderly hid fun hnone => nomatch hstate.symm.trans hnone
      exact h.handle hcomes hdata fun r hr => (h.setMode .rdd).completeRdd hstate rfl hr
  | timeout a => exact .pure (h.setFilter horderly h.not_started)
  | sourceClosed releases =>
    refine .pure ((h.releaseFilter releases).waiting fun hc => horderly ?_)
    obtain ⟨id, time, hreleased⟩ := releaseFilter_eq (t := t) releases
    rw [hreleased] at hc
    exact hc
  | resetPending releases =>
    generalize hu : (if t.tableUniqueId ≠ 0 then t.releaseFilter releases else t) = u
    have hcleared := (hu ▸ hleft releases : u.Collected).cleared
    show Reaches (some { SiTable.cleared (if t.tableUniqueId ≠ 0 then t.releaseFilter releases
      else t) with tableUniqueId := 0 }) Collected
    rw [hu]
    exact .pure (hcleared.filter 0 u.cleared.filterStartTime)
  | vctIdChange releases a =>
    have hcleared := (hleft releases).cleared
    exact .pure (hcleared.setFilter (fun hc => hc.1.2 rfl) fun _ => rfl)
  | purgeRdd => exact .pure h.purgeRddTable
  | tableTimeout handledLast releases =>
    show Reaches (t.timedOut handledLast releases) Collected
    unfold timedOut
    rw [if_pos (show t.tableUniqueId = 0 ∨ t.revType = .rdd from horderly)]
    exact .pure h
  | otherTimeout => exact h.otherTimeout

theorem collected_initial (subtable : SiSubtable) : (initial subtable).Collected :=
  ⟨Nat.zero_le _, fun _ _ => rfl, rfl, fun _ hb => (nomatch hb),
    fun _ => ⟨Nat.le_refl _, fun _ => rfl⟩, fun _ ha => nomatch ha⟩

/-- **The sections of a version.** In a run in RDD mode in which every section that a version
needs comes and is parsed, a table that waits for a revision has parsed all sections of the
version whose number it has, and it was announced as acquired only then. -/
theorem version_inFull {subtable : SiSubtable} {es : List SiEvent}
    (horderly : EachStep (step cfg) StepOrderly (initial subtable) es) :
    Reaches (runFrom (step cfg) (initial subtable) es) AcquiredInFull := by
  obtain ⟨t, hrun, h⟩ := EachStep.total (I := Collected)
    (fun _ _ h horderly => h.step horderly) horderly (collected_initial subtable)
  exact ⟨t, hrun, h.acquiredInFull⟩

/-! ### A section that is not parsed -/

/-- A section of version 2, of which there are two. -/
def sectionOfTwo (n : ℕ) (hn : n < 256) (ok : Bool) : SiEvent :=
  .section false 7
    { fetched := true
      revision := some ⟨some ⟨2, n, 1, by decide, hn, by decide⟩, 0xAAAA⟩
      parse := ⟨ok, none⟩
      releases := true
      filter := ⟨true, some 7, 1000⟩
      currentTime := 2000
      vcmComplete := false }

/-- Two sections that are parsed. -/
theorem version_inFull_two :
    Reaches (runFrom (step .defaults) (initial .nitCds)
      [.timeout ⟨true, some 7, 1000⟩, sectionOfTwo 1 (by decide) true,
        sectionOfTwo 0 (by decide) true]) AcquiredInFull :=
  version_inFull (by decide +kernel)

/-- After one section that is parsed and one that is not, the table waits for a revision with
the number of the version, and dismisses the section when it comes again. -/
theorem unparsedSection_dismissed :
    Reaches (runFrom (step .defaults) (initial .nitCds)
      [.timeout ⟨true, some 7, 1000⟩, sectionOfTwo 0 (by decide) true,
        sectionOfTwo 1 (by decide) false, sectionOfTwo 1 (by decide) true])
      fun t => t.ledger.adopted = some ⟨2, 1, [0]⟩ ∧ ¬t.AcquiredInFull := by
  have h : (runFrom (step .defaults) (initial .nitCds)
      [.timeout ⟨true, some 7, 1000⟩, sectionOfTwo 0 (by decide) true,
        sectionOfTwo 1 (by decide) false, sectionOfTwo 1 (by decide) true]).any fun t =>
      decide (t.ledger.adopted = some ⟨2, 1, [0]⟩ ∧ t.tableState = .waitTableRevision ∧
        t.versionNumber = 2) := by
    decide +kernel
  obtain ⟨t, hrun, ht⟩ := (Option.any_eq_true _ _).mp h
  obtain ⟨hadopted, hstate, hversion⟩ := of_decide_eq_true ht
  refine ⟨t, hrun, hadopted, fun hfull => ?_⟩
  have hcomplete := hfull.revision hstate _ hadopted hversion
  exact absurd (hcomplete 1 (Nat.le_refl 1)) (by decide)

end SiTable

end MediaFramework
