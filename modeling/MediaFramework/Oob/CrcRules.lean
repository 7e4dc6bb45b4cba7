import MediaFramework.Lib.Reaches
import MediaFramework.Oob.SiHandlers

/-!
# The case without a revision descriptor

What the handlers do with a table in CRC mode touches its record of sections, `CrcRecord`, in
a few ways only: it is reset, purged, a section is seen again, a new one is recorded, and all
sections are reported acquired. `CrcRules` says of a property of the record that each of
these keeps it; then both handlers keep it, and are defined.
-/

namespace MediaFramework

/-- The part of a table that the CRC case works on. -/
structure CrcRecord where
  subtable : SiSubtable
  numberSections : ℕ
  sections : ℕ → SiTableSection
  parsedCrcs : List ℕ
  reports : List (List ℕ)

namespace CrcRecord

variable (c : CrcRecord)

/-- `reset_section_array` of a table that is not in RDD mode. -/
def reset : CrcRecord :=
  { c with sections := fun i =>
      if i < maxSectionNumber then
        { c.sections i with sectionAcquired := false, crcSectionMatchCount := 0, seen := 0 }
      else c.sections i }

/-- Another sighting of section `i`, which becomes `s`. -/
def see (i : ℕ) (s : SiTableSection) : CrcRecord :=
  { c with sections := Function.update c.sections i s }

/-- A purge. -/
def purge (old : SiTableSection → Bool) : CrcRecord :=
  let a := SiTable.purgeFrom old c.numberSections (c.sections, c.numberSections)
  { c with sections := a.1, numberSections := a.2 }

/-- All sections are reported acquired. -/
def report : CrcRecord :=
  { c with reports := c.reports ++
      [(List.range c.numberSections).map fun i => (c.sections i).seen] }

/-- A section with a new CRC has been parsed. -/
def parsed (crc : ℕ) : CrcRecord := { c with parsedCrcs := c.parsedCrcs ++ [crc] }

/-- The new section is recorded as `s`. -/
def append (s : SiTableSection) : CrcRecord :=
  { c with
    sections := Function.update c.sections c.numberSections s
    numberSections := c.numberSections + 1 }

/-- The section that comes again, at a time. -/
def seenAgain (s : SiTableSection) (currentTime : ℕ) : SiTableSection :=
  { s with lastSeenTime := currentTime, seen := s.seen + 1 }

/-- `checkCRCMatchCount`. -/
def matched (cfg : SiConfig) (s : SiTableSection) : Bool :=
  s.crcSectionMatchCount = cfg.sectionSeenCount c.subtable

/-- The section that comes again and is counted. -/
def counted (cfg : SiConfig) (s : SiTableSection) (currentTime : ℕ) : SiTableSection :=
  let s := { seenAgain s currentTime with
    crcSectionMatchCount := (s.crcSectionMatchCount + 1) % 256 }
  if c.matched cfg s then { s with sectionAcquired := true } else s

/-- What a new section is recorded as. -/
def fresh (cfg : SiConfig) (crc currentTime : ℕ) : SiTableSection :=
  let s := { c.sections c.numberSections with
    crc32 := crc, crcSectionMatchCount := 1, lastSeenTime := currentTime, seen := 1 }
  if c.matched cfg s then { s with sectionAcquired := true } else s

end CrcRecord

/-- A property of the record that the CRC case keeps, as long as a section that is recorded
finds the record with `A`. -/
structure CrcRules (cfg : SiConfig) (A I : CrcRecord → Prop) : Prop where
  bounded : ∀ {c}, I c → c.numberSections ≤ maxSectionNumber
  reset : ∀ {c}, I c → I c.reset
  purge : ∀ {c}, I c → ∀ old, I (c.purge old)
  seenAgain : ∀ {c i}, I c → i < c.numberSections → ∀ currentTime,
    I (c.see i (CrcRecord.seenAgain (c.sections i) currentTime))
  counted : ∀ {c i}, I c → i < c.numberSections → ∀ currentTime,
    I (c.see i (c.counted cfg (c.sections i) currentTime))
  report : ∀ {c}, I c → (∀ i < c.numberSections, (c.sections i).sectionAcquired = true) → I c.report
  full : ∀ {c}, I c → ∀ crc, I (c.parsed crc)
  append : ∀ {c crc}, I c → A c → c.numberSections < maxSectionNumber →
    (∀ i < c.numberSections, (c.sections i).crc32 ≠ crc) → ∀ currentTime,
    I ((c.parsed crc).append (c.fresh cfg crc currentTime))

namespace SiTable

variable {t : SiTable} {cfg : SiConfig} {A I : CrcRecord → Prop}

/-- What the CRC case works on. -/
def crcRecord (t : SiTable) : CrcRecord :=
  ⟨t.subtable, t.numberSections, t.sections, t.ledger.parsedCrcs, t.ledger.reports⟩

/-! ## What leaves the record alone -/

@[simp] theorem crcRecord_goto (s : SiState) : (t.goto s).crcRecord = t.crcRecord := rfl

@[simp] theorem crcRecord_releaseFilter (releases : Bool) :
    (t.releaseFilter releases).crcRecord = t.crcRecord := by
  unfold releaseFilter
  split_ifs <;> rfl

@[simp] theorem revType_releaseFilter (releases : Bool) :
    (t.releaseFilter releases).revType = t.revType := by
  unfold releaseFilter
  split_ifs <;> rfl

@[simp] theorem crcRecord_activateFilter (a : Activation) :
    (t.activateFilter a).crcRecord = t.crcRecord := by
  have h : (if t.tableUniqueId ≠ 0 then t.releaseFilter a.releasesLeft else t).crcRecord =
      t.crcRecord := by
    split_ifs
    · exact crcRecord_releaseFilter _
    · rfl
  unfold activateFilter
  rcases a.uniqueId with _ | id
  · exact h
  · exact h

/-! ## The pieces -/

theorem reset_reaches (hrules : CrcRules cfg A I) (h : I t.crcRecord) {r : RevisioningType}
    (hmode : r ≠ .rdd) :
    Reaches (t.resetSectionArray r) fun t' =>
      I t'.crcRecord ∧ t'.revType = t.revType ∧ t'.tableState = t.tableState := by
  rw [resetSectionArray, if_neg hmode]
  exact .pure ⟨hrules.reset h, rfl, rfl⟩

theorem giveUp_reaches (hrules : CrcRules cfg A I) (h : I t.crcRecord) (hmode : t.revType ≠ .rdd) :
    Reaches t.giveUp fun t' => I t'.crcRecord ∧ t'.revType = t.revType :=
  (reset_reaches hrules h hmode).map fun _ h => ⟨h.1, h.2.1⟩

theorem purge_reaches (hrules : CrcRules cfg A I) (h : I t.crcRecord)
    (old : SiTableSection → Bool) :
    Reaches (t.purge cfg old) fun t' => I t'.crcRecord ∧ t'.revType = t.revType := by
  unfold purge
  split_ifs with hoff hbound
  · exact .pure ⟨h, rfl⟩
  · exact .pure ⟨hrules.purge h old, rfl⟩
  · exact absurd (hrules.bounded h) hbound

theorem isTableAcquired_reaches (hrules : CrcRules cfg A I) (h : I t.crcRecord)
    (vcmComplete : Bool) :
    Reaches (t.isTableAcquired vcmComplete) fun a =>
      I a.2.crcRecord ∧ a.2.revType = t.revType := by
  unfold isTableAcquired
  split_ifs with hbound hall hrdd
  · refine .pure ⟨hrules.report h fun i hi => ?_, rfl⟩
    exact List.all_eq_true.mp hall i (List.mem_range.mpr hi)
  · exact .pure ⟨h, rfl⟩
  · exact .pure ⟨h, rfl⟩
  · exact absurd (hrules.bounded h) hbound

/-- The search finds the section or none of the recorded ones has the CRC. -/
theorem matchFrom_reaches {crc : ℕ} : ∀ {n i : ℕ}, i + n ≤ maxSectionNumber →
    Reaches (t.matchFrom crc n i) fun found =>
      match found with
      | some j => i ≤ j ∧ j < i + n ∧ (t.sections j).crc32 = crc
      | none => ∀ j, i ≤ j → j < i + n → (t.sections j).crc32 ≠ crc := by
  intro n
  induction n with
  | zero =>
    intro i _
    exact .pure fun j h₁ h₂ => absurd (Nat.lt_of_lt_of_le h₂ h₁) (Nat.lt_irrefl _)
  | succ n ih =>
    intro i hbound
    have hi : i < maxSectionNumber := by omega
    rw [matchFrom, if_pos hi]
    split_ifs with hcrc
    · exact .pure ⟨Nat.le_refl i, by omega, hcrc⟩
    · refine (ih (by omega)).mono fun found hfound => ?_
      cases found with
      | some j =>
        obtain ⟨h₁, h₂, hmatch⟩ := hfound
        exact ⟨by omega, by omega, hmatch⟩
      | none =>
        intro j h₁ h₂
        rcases Nat.eq_or_lt_of_le h₁ with rfl | hlt
        · exact hcrc
        · exact hfound j hlt (by omega)

theorem matchedCRC32_reaches (hbound : t.numberSections ≤ maxSectionNumber) (crc : ℕ) :
    Reaches (t.matchedCRC32 crc) fun found =>
      match found with
      | some j => j < t.numberSections ∧ (t.sections j).crc32 = crc
      | none => ∀ j < t.numberSections, (t.sections j).crc32 ≠ crc := by
  refine (matchFrom_reaches (t := t) (by omega)).mono fun found hfound => ?_
  cases found with
  | some j => exact ⟨by omega, hfound.2.2⟩
  | none => exact fun j hj => hfound j (Nat.zero_le j) (by omega)

theorem readSection_of_lt {i : ℕ} (hi : i < maxSectionNumber) :
    t.readSection i = some (t.sections i) := if_pos hi

theorem writeSection_of_lt {i : ℕ} (hi : i < maxSectionNumber) (s : SiTableSection) :
    t.writeSection i s = some { t with sections := Function.update t.sections i s } := if_pos hi

/-- A section that is new has been parsed, and is recorded if there is room. -/
theorem recordParsed_reaches (hrules : CrcRules cfg A I) (h : I t.crcRecord) (d : Delivery)
    {crc : ℕ} (happends : t.numberSections < maxSectionNumber → A t.crcRecord)
    (hnew : ∀ i < t.numberSections, (t.sections i).crc32 ≠ crc) :
    Reaches (t.recordParsed cfg d crc) fun t' => I t'.crcRecord ∧ t'.revType = t.revType := by
  unfold recordParsed recordSection
  dsimp only
  split_ifs with hfull
  · exact .pure ⟨hrules.full h crc, rfl⟩
  · have hlt : t.numberSections < maxSectionNumber :=
      Nat.lt_of_le_of_ne (hrules.bounded h) hfull
    have hread := readSection_of_lt (t := { t.parseAndUpdate d.parse with ledger :=
      { t.ledger with parsedCrcs := t.ledger.parsedCrcs ++ [crc] } }) hlt
    have happend := hrules.append h (happends hlt) hlt hnew d.currentTime
    refine .bind ⟨_, hread, rfl⟩ ?_
    rintro _ rfl
    exact .bind ⟨_, writeSection_of_lt hlt _, rfl⟩ fun t' ht' => .pure (ht' ▸ ⟨happend, rfl⟩)

/-! ## The handlers -/

/-- The CRC mode and the property of the record. -/
def CrcKept (I : CrcRecord → Prop) (t : SiTable) : Prop := I t.crcRecord ∧ t.revType ≠ .rdd

/-- A section without a descriptor that is new, parsed and has room meets the record with `A`. -/
def AppendsWith (A : CrcRecord → Prop) (t : SiTable) (d : Delivery) (crc : ℕ) : Prop :=
  d.parse.ok = true → t.numberSections < maxSectionNumber →
    (∀ i < t.numberSections, (t.sections i).crc32 ≠ crc) → A t.crcRecord

theorem CrcKept.giveUp (hrules : CrcRules cfg A I) (h : t.CrcKept I) :
    Reaches t.giveUp (CrcKept I) :=
  (giveUp_reaches hrules h.1 h.2).mono fun _ h' => ⟨h'.1, by rw [h'.2]; exact h.2⟩

theorem CrcKept.purge (hrules : CrcRules cfg A I) (h : t.CrcKept I)
    (old : SiTableSection → Bool) : Reaches (t.purge cfg old) (CrcKept I) :=
  (purge_reaches hrules h.1 old).mono fun _ h' => ⟨h'.1, by rw [h'.2]; exact h.2⟩

theorem CrcKept.isTableAcquired (hrules : CrcRules cfg A I) (h : t.CrcKept I)
    (vcmComplete : Bool) : Reaches (t.isTableAcquired vcmComplete) fun a => a.2.CrcKept I :=
  (isTableAcquired_reaches hrules h.1 vcmComplete).mono fun _ h' =>
    ⟨h'.1, by rw [h'.2]; exact h.2⟩

theorem CrcKept.recordParsed (hrules : CrcRules cfg A I) (h : t.CrcKept I) {d : Delivery}
    {crc : ℕ} (happends : t.AppendsWith A d crc) (hok : d.parse.ok = true)
    (hnew : ∀ i < t.numberSections, (t.sections i).crc32 ≠ crc) :
    Reaches (t.recordParsed cfg d crc) (CrcKept I) :=
  (recordParsed_reaches hrules h.1 d (fun hlt => happends hok hlt hnew) hnew).mono
    fun _ h' => ⟨h'.1, by rw [h'.2]; exact h.2⟩

theorem CrcKept.releaseFilter (h : t.CrcKept I) (releases : Bool) :
    (t.releaseFilter releases).CrcKept I := by
  unfold CrcKept
  rw [crcRecord_releaseFilter, revType_releaseFilter]
  exact h

theorem CrcKept.activateFilter (h : t.CrcKept I) (a : Activation) :
    (t.activateFilter a).CrcKept I := by
  refine ⟨by rw [crcRecord_activateFilter]; exact h.1, ?_⟩
  have hleft : (if t.tableUniqueId ≠ 0 then t.releaseFilter a.releasesLeft else t).revType ≠
      .rdd := by
    split_ifs
    · rw [revType_releaseFilter]
      exact h.2
    · exact h.2
  unfold SiTable.activateFilter
  rcases a.uniqueId with _ | id
  · exact hleft
  · exact hleft

theorem CrcKept.revisionCrcNew (hrules : CrcRules cfg A I) (h : t.CrcKept I) {d : Delivery}
    {crc : ℕ} (happends : t.AppendsWith A d crc) (hok : d.parse.ok = true)
    (hnew : ∀ i < t.numberSections, (t.sections i).crc32 ≠ crc) :
    Reaches (t.revisionCrcNew cfg d crc) fun a => a.1.CrcKept I := by
  refine (h.recordParsed hrules happends hok hnew).bind fun t h => ?_
  refine (h.isTableAcquired hrules d.vcmComplete).bind ?_
  rintro ⟨⟨acquired, all⟩, t⟩ h
  dsimp only at h ⊢
  generalize hu : (if acquired then SiTable.setTablesAcquired _ else _ : SiTable) = u
  have h : u.CrcKept I := by
    rw [← hu]
    split_ifs <;> exact h
  refine .ite (fun _ => (h.giveUp hrules).bind fun t h => .pure h) fun _ => .pure ?_
  have h' : (if (u.tableUniqueId != 0) = true then u.releaseFilter d.releases
      else u).CrcKept I := by
    split_ifs
    · exact h.releaseFilter _
    · exact h
  exact h'.activateFilter d.filter

theorem CrcKept.revisionCrcLast (hrules : CrcRules cfg A I) {a : SiTable × Bool}
    (h : a.1.CrcKept I) (last : Bool) (d : Delivery) :
    Reaches (revisionCrcLast cfg last d a) (CrcKept I) := by
  refine .ite (fun _ => (h.purge hrules _).bind fun t h => ?_) fun _ => .pure h
  exact .ite (fun _ => .pure h) fun _ => .pure (h.releaseFilter d.releases)

/-- **The handler that waits for a revision.** -/
theorem CrcKept.revisionCrc (hrules : CrcRules cfg A I) (h : t.CrcKept I) (last : Bool)
    {d : Delivery} {crc : ℕ} (happends : t.AppendsWith A d crc) :
    Reaches (t.revisionCrc cfg last d crc) (CrcKept I) := by
  unfold SiTable.revisionCrc
  generalize hu : ({ t with revSampleCount := (t.revSampleCount + 1) % 2 ^ 32 } : SiTable) = u
  replace h : u.CrcKept I := hu ▸ h
  replace happends : u.AppendsWith A d crc := hu ▸ happends
  have hbound := hrules.bounded h.1
  refine (matchedCRC32_reaches hbound crc).bind ?_
  intro found hfound
  cases found with
  | some i =>
    have hlt : i < maxSectionNumber := Nat.lt_of_lt_of_le hfound.1 hbound
    refine .bind ⟨_, readSection_of_lt hlt, rfl⟩ ?_
    rintro _ rfl
    refine .bind ⟨_, writeSection_of_lt hlt _, rfl⟩ ?_
    rintro _ rfl
    refine CrcKept.revisionCrcLast hrules ?_ last d
    exact ⟨hrules.seenAgain h.1 hfound.1 d.currentTime, h.2⟩
  | none =>
    refine .ite (fun hok => ?_) fun _ =>
      CrcKept.giveUp (t := u.parseAndUpdate d.parse) hrules h
    refine (h.revisionCrcNew hrules happends hok hfound).bind fun a h => ?_
    exact CrcKept.revisionCrcLast hrules h last d

theorem CrcKept.completeCrcMatch (hrules : CrcRules cfg A I) (h : t.CrcKept I) {d : Delivery}
    {crc : ℕ} (happends : t.AppendsWith A d crc) :
    Reaches (t.completeCrcMatch cfg d crc) fun a => a.2.CrcKept I := by
  have hbound := hrules.bounded h.1
  refine (matchedCRC32_reaches hbound crc).bind ?_
  intro found hfound
  cases found with
  | some i =>
    have hlt : i < maxSectionNumber := Nat.lt_of_lt_of_le hfound.1 hbound
    refine .bind ⟨_, readSection_of_lt hlt, rfl⟩ ?_
    rintro _ rfl
    refine .bind ⟨_, writeSection_of_lt hlt _, rfl⟩ ?_
    rintro _ rfl
    exact .pure ⟨hrules.counted h.1 hfound.1 d.currentTime, h.2⟩
  | none =>
    refine .ite (fun hok => ?_) fun _ =>
      (CrcKept.giveUp (t := t.parseAndUpdate d.parse) hrules h).bind fun t h => .pure h
    exact (h.recordParsed hrules happends hok hfound).bind fun t h => .pure h

theorem CrcKept.completeCrcRest (hrules : CrcRules cfg A I) (h : t.CrcKept I) (last : Bool)
    (d : Delivery) (newSectionParsed : Bool) :
    Reaches (t.completeCrcRest cfg last d newSectionParsed) (CrcKept I) := by
  refine (h.isTableAcquired hrules d.vcmComplete).bind ?_
  rintro ⟨⟨acquired, all⟩, t⟩ h
  dsimp only at h ⊢
  generalize hu : (if (newSectionParsed && acquired || all) = true then
    SiTable.setTablesAcquired _ else _ : SiTable) = u
  have h : u.CrcKept I := by
    rw [← hu]
    split_ifs <;> exact h
  refine .ite (fun _ => (h.purge hrules _).bind fun t h => ?_) fun _ => ?_
  · exact (h.releaseFilter d.releases).giveUp hrules
  · refine .ite (fun _ => ?_) fun _ => .pure h
    refine (CrcKept.purge hrules (t := u.goto .waitTableComplete) h _).bind fun t h => ?_
    exact .pure ((h.releaseFilter d.releases).activateFilter d.filter)

/-- **The handler that collects sections.** -/
theorem CrcKept.completeCrc (hrules : CrcRules cfg A I) (h : t.CrcKept I) (last : Bool)
    {d : Delivery} {crc : ℕ}
    (happends : ∀ u, t.purgeOldSectionMatches cfg d.currentTime = some u →
      u.AppendsWith A d crc) :
    Reaches (t.completeCrc cfg last d crc) (CrcKept I) := by
  obtain ⟨u, hu, h⟩ := h.purge hrules fun s =>
    (cfg.sectionRetentionTime : ℤ) < d.currentTime - s.lastSeenTime
  refine .bind ⟨u, hu, rfl⟩ ?_
  rintro _ rfl
  refine (h.completeCrcMatch hrules (happends _ hu)).bind ?_
  rintro ⟨_ | newSectionParsed, t⟩ h
  · exact .pure h
  · exact CrcKept.completeCrcRest hrules h last d newSectionParsed

end SiTable

end MediaFramework
