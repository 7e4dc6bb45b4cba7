import MediaFramework.Oob.CrcRules

/-!
# The section array is not overrun

In CRC mode a section is recorded only if there is room. In RDD mode the section numbers of
the stream are used as they are: the array is indexed with `section_number` and searched up to
`last_section_number`, both of which go up to 255, while it has 64 entries. A run stays inside
the array exactly if every section whose numbers are used has numbers that fit.
-/

namespace MediaFramework

/-- The number of sections fits the array. After 255 it is 0 in its eight bits. -/
def Rdd.Fits (r : Rdd) : Prop := (r.lastSectionNumber + 1) % 256 ≤ maxSectionNumber

instance (r : Rdd) : Decidable r.Fits := inferInstanceAs (Decidable (_ ≤ _))

namespace SiTable

variable {t : SiTable} {cfg : SiConfig}

/-- The number of recorded sections is one the array has room for. -/
def Bounded (t : SiTable) : Prop := t.numberSections ≤ maxSectionNumber

/-! ## CRC mode -/

theorem purgeFrom_le (old : SiTableSection → Bool) :
    ∀ (k : ℕ) (a : (ℕ → SiTableSection) × ℕ), (purgeFrom old k a).2 ≤ a.2 := by
  intro k
  induction k with
  | zero =>
    intro a
    exact Nat.le_refl _
  | succ k ih =>
    rintro ⟨sections, n⟩
    rw [purgeFrom]
    split_ifs
    · exact Nat.le_trans (ih _) (Nat.sub_le n 1)
    · exact ih _

/-- In CRC mode the number of sections stays in bounds whatever is recorded. -/
theorem bounded_crcRules :
    CrcRules cfg (fun _ => True) fun c => c.numberSections ≤ maxSectionNumber where
  bounded h := h
  reset h := h
  purge h _ := Nat.le_trans (purgeFrom_le _ _ _) h
  seenAgain h _ _ := h
  counted h _ _ := h
  report h _ := h
  full h _ := h
  append _ _ hlt _ _ := hlt

/-! ## The pieces of RDD mode -/

theorem Bounded.resetSectionArray (h : t.Bounded) (r : RevisioningType) :
    Reaches (t.resetSectionArray r) Bounded := by
  unfold SiTable.resetSectionArray
  rw [if_pos (show t.numberSections ≤ maxSectionNumber from h)]
  split_ifs
  · exact .pure (Nat.zero_le _)
  · exact .pure h

theorem Bounded.giveUp (h : t.Bounded) : Reaches t.giveUp Bounded :=
  (h.resetSectionArray _).map fun _ h => h

/-- A table in RDD mode can be reset only if its sections are all in the array. -/
theorem giveUp_bounded_iff (hmode : t.revType = .rdd) : Reaches t.giveUp Bounded ↔ t.Bounded := by
  refine ⟨fun h => ?_, Bounded.giveUp⟩
  by_contra hbound
  unfold SiTable.giveUp SiTable.resetSectionArray at h
  rw [if_pos hmode, if_neg (show ¬t.numberSections ≤ maxSectionNumber from hbound)] at h
  exact Reaches.not_none h

@[simp] theorem numberSections_releaseFilter (releases : Bool) :
    (t.releaseFilter releases).numberSections = t.numberSections :=
  congrArg CrcRecord.numberSections (crcRecord_releaseFilter releases)

@[simp] theorem numberSections_activateFilter (a : Activation) :
    (t.activateFilter a).numberSections = t.numberSections :=
  congrArg CrcRecord.numberSections (crcRecord_activateFilter a)

@[simp] theorem versionNumber_releaseFilter (releases : Bool) :
    (t.releaseFilter releases).versionNumber = t.versionNumber := by
  unfold releaseFilter
  split_ifs <;> rfl

@[simp] theorem bounded_activateFilter {a : Activation} :
    (t.activateFilter a).Bounded ↔ t.Bounded := by
  unfold Bounded
  rw [numberSections_activateFilter]

@[simp] theorem bounded_releaseFilter {releases : Bool} :
    (t.releaseFilter releases).Bounded ↔ t.Bounded := by
  unfold Bounded
  rw [numberSections_releaseFilter]

/-- What the table is after a section was marked. -/
def marked (t : SiTable) (n : ℕ) : SiTable :=
  { t with
    sections := Function.update t.sections n { t.sections n with sectionAcquired := true }
    ledger := { t.ledger with
      adopted := t.ledger.adopted.map fun a => { a with parsed := n :: a.parsed } } }

theorem markAcquired_of_lt {n : ℕ} (hn : n < maxSectionNumber) :
    t.markAcquired n = some (t.marked n) := by
  unfold markAcquired readSection writeSection
  rw [if_pos hn]
  dsimp only [bind, Option.bind]
  rw [if_pos hn]
  rfl

theorem markAcquired_of_not_lt {n : ℕ} (hn : ¬n < maxSectionNumber) :
    t.markAcquired n = none := by
  unfold markAcquired readSection
  rw [if_neg hn]
  rfl

/-- Looking whether all sections are marked stays in the array exactly if the number of
sections does, whatever follows. -/
theorem isTableAcquired_iff {vcmComplete : Bool} {f : (Bool × Bool) × SiTable → Option SiTable}
    (hf : ∀ a, a.2.Bounded → a.2.revType = t.revType → Reaches (f a) Bounded) :
    Reaches (t.isTableAcquired vcmComplete >>= f) Bounded ↔ t.Bounded := by
  unfold isTableAcquired
  by_cases hbound : t.numberSections ≤ maxSectionNumber
  · rw [if_pos hbound]
    refine ⟨fun _ => hbound, fun _ => ?_⟩
    split_ifs
    · exact hf _ hbound rfl
    · exact hf _ hbound rfl
    · exact hf _ hbound rfl
  · rw [if_neg hbound]
    exact ⟨fun h => absurd h Reaches.not_none, fun h => absurd h hbound⟩

/-- The same after marking a section, which has to be in the array itself. -/
theorem markAcquired_iff {n : ℕ} {vcmComplete : Bool}
    {f : (Bool × Bool) × SiTable → Option SiTable}
    (hf : ∀ a, a.2.Bounded → a.2.revType = t.revType → Reaches (f a) Bounded) :
    Reaches (t.markAcquired n >>= fun u => u.isTableAcquired vcmComplete >>= f) Bounded ↔
      n < maxSectionNumber ∧ t.Bounded := by
  by_cases hn : n < maxSectionNumber
  · rw [markAcquired_of_lt hn]
    exact (isTableAcquired_iff (t := t.marked n) hf).trans (and_iff_right hn).symm
  · rw [markAcquired_of_not_lt hn]
    exact ⟨fun h => absurd h Reaches.not_none, fun h => absurd h.1 hn⟩

/-! ## The handlers in RDD mode -/

theorem revisionRdd_bounded_iff (h : t.Bounded) (hmode : t.revType = .rdd) (d : Delivery)
    (r : Rdd) :
    Reaches (t.revisionRdd d r) Bounded ↔
      (r.version ≠ t.versionNumber →
        r.Fits ∧ (d.parse.ok = true → d.parse.sectionNumber r < maxSectionNumber)) := by
  unfold revisionRdd
  dsimp only
  rw [versionNumber_releaseFilter]
  by_cases hversion : r.version = t.versionNumber
  · rw [if_pos hversion, Reaches.some_iff]
    exact ⟨fun _ hne => absurd hversion hne, fun _ => bounded_releaseFilter.mpr h⟩
  · rw [if_neg hversion]
    generalize hu : (((t.releaseFilter d.releases).adopt r).parseAndUpdate d.parse) = u
    have hfits : u.Bounded ↔ r.Fits := by
      rw [← hu]
      exact Iff.rfl
    have hmode : u.revType = .rdd := by
      rw [← hu]
      exact (revType_releaseFilter d.releases).trans hmode
    by_cases hok : d.parse.ok = true
    · rw [if_pos hok, markAcquired_iff, hfits]
      · exact ⟨fun h _ => ⟨h.2, fun _ => h.1⟩, fun h => ⟨(h hversion).2 hok, (h hversion).1⟩⟩
      · rintro ⟨⟨acquired, all⟩, v⟩ hv -
        refine .ite (fun _ => Bounded.resetSectionArray (t := SiTable.setTablesAcquired _) hv _)
          fun _ => ?_
        have hfilter := (bounded_activateFilter (t := { v with tableAcquired := acquired })
          (a := d.filter)).mpr hv
        exact .ite (fun _ => (hfilter.resetSectionArray _).map fun _ h => h) fun _ => .pure hfilter
    · rw [if_neg hok, giveUp_bounded_iff hmode, hfits]
      exact ⟨fun h _ => ⟨h, fun h' => absurd h' hok⟩, fun h => (h hversion).1⟩

theorem collectRdd_bounded_iff (hmode : t.revType = .rdd) (last : Bool) (d : Delivery) (r : Rdd) :
    Reaches (t.collectRdd last d r) Bounded ↔
      t.Bounded ∧ r.sectionNumber < maxSectionNumber ∧
        ((t.sections r.sectionNumber).sectionAcquired = false → d.parse.ok = true →
          d.parse.sectionNumber r < maxSectionNumber) := by
  unfold collectRdd
  by_cases hsection : r.sectionNumber < maxSectionNumber
  · rw [readSection_of_lt hsection]
    show Reaches (if (t.sections r.sectionNumber).sectionAcquired = true then _ else _) Bounded ↔ _
    by_cases hmarked : (t.sections r.sectionNumber).sectionAcquired = true
    · rw [if_pos hmarked, hmarked]
      refine Iff.trans ?_ (and_iff_left ⟨hsection, fun h => nomatch h⟩).symm
      split_ifs
      · refine isTableAcquired_iff (t := t.goto .waitTableComplete) ?_
        rintro ⟨⟨acquired, all⟩, v⟩ hv -
        exact .ite (fun _ => .pure hv) fun _ => .pure (bounded_activateFilter.mpr hv)
      · exact Reaches.some_iff
    · have hfree : (t.sections r.sectionNumber).sectionAcquired = false :=
        Bool.eq_false_iff.mpr hmarked
      rw [if_neg hmarked]
      by_cases hok : d.parse.ok = true
      · rw [if_pos hok, markAcquired_iff]
        · exact ⟨fun h => ⟨h.2, hsection, fun _ _ => h.1⟩, fun h => ⟨h.2.2 hfree hok, h.1⟩⟩
        · rintro ⟨⟨acquired, all⟩, v⟩ hv -
          refine .ite (fun _ => Bounded.giveUp (bounded_releaseFilter.mpr hv)) fun _ => ?_
          refine .ite (fun _ => .pure ?_) fun _ => .pure hv
          exact bounded_activateFilter.mpr hv
      · rw [if_neg hok]
        refine (giveUp_bounded_iff (t := t.parseAndUpdate d.parse) hmode).trans ?_
        exact ⟨fun h => ⟨h, hsection, fun _ h' => absurd h' hok⟩, fun h => h.1⟩
  · unfold readSection
    rw [if_neg hsection]
    exact ⟨fun h => absurd h Reaches.not_none, fun h => absurd h.2.1 hsection⟩

/-- The section is parsed: it is not marked, or its mark is cleared for a new version. -/
def Parses (t : SiTable) (r : Rdd) : Prop :=
  (t.sections r.sectionNumber).sectionAcquired = false ∨
    (r.version ≠ t.versionNumber ∧ r.sectionNumber < t.numberSections)

instance (t : SiTable) (r : Rdd) : Decidable (t.Parses r) := inferInstanceAs (Decidable (_ ∨ _))

theorem completeRdd_bounded_iff (h : t.Bounded) (hmode : t.revType = .rdd) (last : Bool)
    (d : Delivery) (r : Rdd) :
    Reaches (t.completeRdd last d r) Bounded ↔
      (r.version ≠ t.versionNumber → r.Fits) ∧ r.sectionNumber < maxSectionNumber ∧
        (t.Parses r → d.parse.ok = true → d.parse.sectionNumber r < maxSectionNumber) := by
  unfold completeRdd
  by_cases hversion : r.version = t.versionNumber
  · rw [if_pos hversion, collectRdd_bounded_iff hmode]
    have hparses : t.Parses r ↔ (t.sections r.sectionNumber).sectionAcquired = false :=
      or_iff_left fun h => h.1 hversion
    rw [hparses]
    exact ⟨fun h => ⟨fun hne => absurd hversion hne, h.2⟩, fun h' => ⟨h, h'.2⟩⟩
  · rw [if_neg hversion]
    have hbound : t.numberSections ≤ maxSectionNumber := h
    unfold resetSectionArray
    rw [if_pos hmode, if_pos hbound, Reaches.iff_bind, Reaches.some_iff,
      collectRdd_bounded_iff (by exact hmode)]
    refine and_congr ⟨fun h _ => h, fun h => h hversion⟩ (and_congr_right fun _ => ?_)
    refine imp_congr_left ?_
    show (if r.sectionNumber < t.numberSections then _ else _ : SiTableSection).sectionAcquired =
      false ↔ _
    split_ifs with hlt
    · exact ⟨fun _ => Or.inr ⟨hversion, hlt⟩, fun _ => rfl⟩
    · exact (or_iff_left fun h => hlt h.2).symm

/-! ## Steps and runs -/

/-- The section numbers that a step uses as they are in the stream fit the array: of a new
version, the number of its sections; of every section that is looked up or parsed, its own. -/
def SectionFits (t : SiTable) (d : Delivery) (r : Rdd) : Prop :=
  match t.tableState with
  | .none => True
  | .waitTableRevision =>
    r.version ≠ t.versionNumber →
      r.Fits ∧ (d.parse.ok = true → d.parse.sectionNumber r < maxSectionNumber)
  | .waitTableComplete =>
    (r.version ≠ t.versionNumber → r.Fits) ∧ r.sectionNumber < maxSectionNumber ∧
      (t.Parses r → d.parse.ok = true → d.parse.sectionNumber r < maxSectionNumber)

/-- Every section with a revision descriptor has numbers that fit. -/
def StepFits (t : SiTable) : SiEvent → Prop
  | .section _ uniqueId d =>
    uniqueId = t.tableUniqueId → d.fetched = true →
      ∀ v ∈ d.revision, ∀ r ∈ v.rdd, t.SectionFits d r
  | _ => True

theorem crcKept_of_bounded (h : t.Bounded) :
    CrcKept (fun c => c.numberSections ≤ maxSectionNumber) { t with revType := .crc } :=
  ⟨h, fun h => nomatch h⟩

theorem handle_bounded_iff (h : t.Bounded) (d : Delivery)
    {rdd : SiTable → Rdd → Option SiTable} {crc : SiTable → ℕ → Option SiTable} {P : Rdd → Prop}
    (hrdd : ∀ r, Reaches (rdd { t with revType := .rdd } r) Bounded ↔ P r)
    (hcrc : ∀ c, Reaches (crc { t with revType := .crc } c) Bounded) :
    Reaches (t.handle d rdd crc) Bounded ↔
      (d.fetched = true → ∀ v ∈ d.revision, ∀ r ∈ v.rdd, P r) := by
  unfold handle
  by_cases hfetched : d.fetched = true
  · rw [if_pos hfetched]
    rcases hrevision : d.revision with _ | ⟨_ | r, c⟩
    · exact ⟨fun _ _ _ hv => (nomatch hv), fun _ => h.giveUp⟩
    · refine ⟨fun _ _ v hv r hr => ?_, fun _ => hcrc c⟩
      cases hv
      exact nomatch hr
    · refine (hrdd r).trans ⟨fun hP _ v hv r' hr => ?_, fun h => h hfetched _ rfl r rfl⟩
      cases hv
      cases hr
      exact hP
  · rw [if_neg hfetched]
    exact ⟨fun _ h => absurd h hfetched, fun _ => Bounded.giveUp (bounded_releaseFilter.mpr h)⟩

theorem sectionFound_bounded_iff (h : t.Bounded) (last : Bool) (d : Delivery) :
    Reaches (t.sectionFound cfg last d) Bounded ↔
      (d.fetched = true → ∀ v ∈ d.revision, ∀ r ∈ v.rdd, t.SectionFits d r) := by
  unfold sectionFound SectionFits
  rcases hstate : t.tableState with _ | _ | _
  · exact Reaches.some_iff.trans ⟨fun _ _ _ _ _ _ => trivial, fun _ => h⟩
  · refine handle_bounded_iff h d (fun r => ?_) fun c => ?_
    · exact revisionRdd_bounded_iff (t := { t with revType := .rdd }) h rfl d r
    · exact (CrcKept.revisionCrc bounded_crcRules (crcKept_of_bounded h) last
        fun _ _ _ => trivial).mono fun _ h => h.1
  · refine handle_bounded_iff h d (fun r => ?_) fun c => ?_
    · exact completeRdd_bounded_iff (t := { t with revType := .rdd }) h rfl last d r
    · exact (CrcKept.completeCrc bounded_crcRules (crcKept_of_bounded h) last
        fun _ _ _ _ _ => trivial).mono fun _ h => h.1

theorem bounded_setFilter (h : t.Bounded) (a : Activation) : (t.setFilter a).Bounded := by
  unfold setFilter
  split_ifs
  · exact bounded_activateFilter.mpr h
  · exact bounded_activateFilter.mpr h
  · exact h

/-- **One step.** The array is not overrun exactly if the numbers fit. -/
theorem step_bounded_iff (e : SiEvent) (h : t.Bounded) :
    Reaches (step cfg t e) Bounded ↔ t.StepFits e := by
  cases e with
  | «section» last uniqueId d =>
    show Reaches (if uniqueId = t.tableUniqueId then _ else _) Bounded ↔ (_ → _)
    split_ifs with hid
    · rw [sectionFound_bounded_iff h]
      exact ⟨fun h _ => h, fun h => h hid⟩
    · exact Reaches.some_iff.trans ⟨fun _ h => absurd h hid, fun _ => h⟩
  | timeout a => exact iff_of_true (.pure (bounded_setFilter h a)) trivial
  | sourceClosed releases => exact iff_of_true (.pure (bounded_releaseFilter.mpr h)) trivial
  | resetPending releases => exact iff_of_true (.pure (Nat.zero_le _)) trivial
  | vctIdChange releases a =>
    exact iff_of_true (.pure (bounded_setFilter (Nat.zero_le _) a)) trivial
  | purgeRdd =>
    refine iff_of_true (.pure ?_) trivial
    unfold purgeRddTable
    split_ifs <;> exact h
  | tableTimeout handledLast releases =>
    refine iff_of_true ?_ trivial
    show Reaches (t.timedOut handledLast releases) Bounded
    refine .ite (fun _ => .pure h) fun _ => ?_
    have hrest : (t.setTablesAcquired.releaseFilter releases).Bounded :=
      bounded_releaseFilter.mpr h
    exact .ite (fun _ => hrest.giveUp) fun _ => .pure hrest
  | otherTimeout => exact iff_of_true (h.resetSectionArray _) trivial

/-- **The array is not overrun.** Along a run of a table, every index into its section array is
below `maxSectionNumber`, and so is the number of recorded sections or equal to it, exactly if
the section numbers that are used fit. -/
theorem indices_in_bounds {subtable : SiSubtable} {es : List SiEvent} :
    Throughout (step cfg) Bounded (initial subtable) es ↔
      EachStep (step cfg) StepFits (initial subtable) es :=
  Throughout.iff_eachStep (fun _ e h => step_bounded_iff e h) (Nat.zero_le _)

/-! ### A table of 65 sections -/

/-- Filter 7 is set. -/
def filterSeven : Activation where
  releasesLeft := true
  uniqueId := some 7
  startTime := 1000

/-- The first section of version 1 of a table of 65 sections. -/
def firstOf65 : Rdd where
  version := 1
  sectionNumber := 0
  lastSectionNumber := 64
  version_lt := by decide
  sectionNumber_lt := by decide
  lastSectionNumber_lt := by decide

/-- A section with a descriptor that is fetched and parsed. -/
def deliveryOf (r : Rdd) (ok : Bool) : Delivery where
  fetched := true
  revision := some ⟨some r, 0x12345678⟩
  parse := ⟨ok, some r⟩
  releases := true
  filter := filterSeven
  currentTime := 2000
  vcmComplete := false

/-- The search for a section that is missing reads `section[64]`. -/
theorem firstOf65_overruns :
    runFrom (step .defaults) (initial .svctVcm)
      [.timeout filterSeven, .section false 7 (deliveryOf firstOf65 true)] = none :=
  rfl

end SiTable

end MediaFramework
