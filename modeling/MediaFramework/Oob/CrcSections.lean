import MediaFramework.Oob.CrcRules

/-!
# What is recorded in CRC mode

A table without revision descriptors records the CRCs of its sections, and takes the table to
be complete when each of them has been seen often enough. A purge moves the records behind a
purged one down and leaves the last slot as it is; a new record takes over the mark of its
slot. So the sections that are reported acquired have been seen often enough as long as no new
section is recorded in a slot whose mark is left from a section that was there before.
-/

namespace MediaFramework

namespace CrcRecord

variable {c : CrcRecord} {cfg : SiConfig}

/-- The slot for the next section is not marked, or one sighting is enough anyway. -/
def ClearSlot (cfg : SiConfig) (c : CrcRecord) : Prop :=
  (c.sections c.numberSections).sectionAcquired = false ∨ cfg.sectionSeenCount c.subtable ≤ 1

instance : DecidablePred (ClearSlot cfg) := fun _ => inferInstanceAs (Decidable (_ ∨ _))

/-- The record of a table in CRC mode. -/
structure Sound (cfg : SiConfig) (c : CrcRecord) : Prop where
  bounded : c.numberSections ≤ maxSectionNumber
  distinct : ∀ i < c.numberSections, ∀ j < c.numberSections,
    (c.sections i).crc32 = (c.sections j).crc32 → i = j
  parsed : ∀ i < c.numberSections, (c.sections i).crc32 ∈ c.parsedCrcs
  /-- the 8-bit counter falls behind when it wraps -/
  counted : ∀ i < c.numberSections, (c.sections i).crcSectionMatchCount ≤ (c.sections i).seen
  marked : ∀ i < c.numberSections, (c.sections i).sectionAcquired = true →
    cfg.sectionSeenCount c.subtable ≤ (c.sections i).seen
  reported : ∀ report ∈ c.reports, ∀ seen ∈ report, cfg.sectionSeenCount c.subtable ≤ seen

namespace Sound

/-! ## The purge -/

/-- **The purge rule.** What the removal of one section keeps, a purge keeps. -/
theorem purgeFrom_induction {old : SiTableSection → Bool}
    {Q : (ℕ → SiTableSection) × ℕ → Prop}
    (hremove : ∀ sections i n, i < n → Q (sections, n) →
      Q (SiTable.shiftDown sections i (n - 1), n - 1)) :
    ∀ (k : ℕ) (a : (ℕ → SiTableSection) × ℕ), k ≤ a.2 → Q a → Q (SiTable.purgeFrom old k a) := by
  intro k
  induction k with
  | zero =>
    intro a _ hQ
    exact hQ
  | succ k ih =>
    rintro ⟨sections, n⟩ hk hQ
    rw [SiTable.purgeFrom]
    split_ifs
    · exact ih _ (by show k ≤ n - 1; omega) (hremove sections _ n (by omega) hQ)
    · exact ih _ (by show k ≤ n; omega) hQ

/-- Where a section comes from that is at `j` after `i` was removed. -/
def source (i j : ℕ) : ℕ := if i ≤ j then j + 1 else j

theorem shiftDown_source {sections : ℕ → SiTableSection} {i j n : ℕ} (hj : j < n - 1) :
    SiTable.shiftDown sections i (n - 1) j = sections (source i j) := by
  unfold SiTable.shiftDown source
  split_ifs with h₁ h₂ h₂
  · rfl
  · exact absurd h₁.1 h₂
  · exact absurd ⟨h₂, hj⟩ h₁
  · rfl

theorem source_lt {i j n : ℕ} (hj : j < n - 1) : source i j < n := by
  unfold source
  split_ifs <;> omega

theorem source_injective {i j k : ℕ} (h : source i j = source i k) : j = k := by
  unfold source at h
  split_ifs at h <;> omega

/-- One section is removed. -/
theorem remove {sections : ℕ → SiTableSection} {i n : ℕ}
    (h : Sound cfg { c with sections := sections, numberSections := n }) :
    Sound cfg { c with
      sections := SiTable.shiftDown sections i (n - 1), numberSections := n - 1 } where
  bounded := Nat.le_trans (Nat.sub_le n 1) h.bounded
  distinct j hj k hk hcrc := by
    have hcrc : (SiTable.shiftDown sections i (n - 1) j).crc32 =
        (SiTable.shiftDown sections i (n - 1) k).crc32 := hcrc
    rw [shiftDown_source hj, shiftDown_source hk] at hcrc
    exact source_injective (h.distinct _ (source_lt hj) _ (source_lt hk) hcrc)
  parsed j hj := by
    show (SiTable.shiftDown sections i (n - 1) j).crc32 ∈ c.parsedCrcs
    rw [shiftDown_source hj]
    exact h.parsed _ (source_lt hj)
  counted j hj := by
    show (SiTable.shiftDown sections i (n - 1) j).crcSectionMatchCount ≤
      (SiTable.shiftDown sections i (n - 1) j).seen
    rw [shiftDown_source hj]
    exact h.counted _ (source_lt hj)
  marked j hj := by
    show (SiTable.shiftDown sections i (n - 1) j).sectionAcquired = true →
      _ ≤ (SiTable.shiftDown sections i (n - 1) j).seen
    rw [shiftDown_source hj]
    exact h.marked _ (source_lt hj)
  reported := h.reported

theorem purge (h : Sound cfg c) (old : SiTableSection → Bool) : Sound cfg (c.purge old) :=
  purgeFrom_induction
    (Q := fun a => Sound cfg { c with sections := a.1, numberSections := a.2 })
    (fun _ _ _ _ h => h.remove) c.numberSections (c.sections, c.numberSections)
    (Nat.le_refl _) h

/-! ## The other ways to change the record -/

theorem reset (h : Sound cfg c) : Sound cfg c.reset := by
  have hslot : ∀ i < c.numberSections, c.reset.sections i =
      { c.sections i with sectionAcquired := false, crcSectionMatchCount := 0, seen := 0 } :=
    fun i hi => if_pos (Nat.lt_of_lt_of_le hi h.bounded)
  refine ⟨h.bounded, fun i hi j hj hcrc => ?_, fun i hi => ?_, fun i hi => ?_,
    fun i hi hmark => ?_, h.reported⟩
  · rw [hslot i hi, hslot j hj] at hcrc
    exact h.distinct i hi j hj hcrc
  · rw [hslot i hi]
    exact h.parsed i hi
  · exact (hslot i hi).symm ▸ Nat.le_refl 0
  · rw [hslot i hi] at hmark
    cases hmark

/-- A recorded section is replaced by one with the same CRC, seen once more. -/
theorem see (h : Sound cfg c) {i : ℕ} (hi : i < c.numberSections) {s : SiTableSection}
    (hcrc : s.crc32 = (c.sections i).crc32) (hcount : s.crcSectionMatchCount ≤ s.seen)
    (hmark : s.sectionAcquired = true → cfg.sectionSeenCount c.subtable ≤ s.seen) :
    Sound cfg (c.see i s) := by
  have hsame : ∀ j, ((c.see i s).sections j).crc32 = (c.sections j).crc32 := by
    intro j
    by_cases hj : j = i
    · subst hj
      exact (congrArg _ (Function.update_self _ _ _)).trans hcrc
    · exact congrArg _ (Function.update_of_ne hj _ _)
  refine ⟨h.bounded, fun j hj k hk hjk => ?_, fun j hj => ?_, fun j hj => ?_,
    fun j hj hmarked => ?_, h.reported⟩
  · rw [hsame, hsame] at hjk
    exact h.distinct j hj k hk hjk
  · rw [hsame]
    exact h.parsed j hj
  · by_cases hji : j = i
    · subst hji
      rw [show (c.see j s).sections j = s from Function.update_self _ _ _]
      exact hcount
    · rw [show (c.see i s).sections j = c.sections j from Function.update_of_ne hji _ _]
      exact h.counted j hj
  · by_cases hji : j = i
    · subst hji
      rw [show (c.see j s).sections j = s from Function.update_self _ _ _] at hmarked ⊢
      exact hmark hmarked
    · rw [show (c.see i s).sections j = c.sections j from Function.update_of_ne hji _ _]
        at hmarked ⊢
      exact h.marked j hj hmarked

theorem seenAgain (h : Sound cfg c) {i : ℕ} (hi : i < c.numberSections) (currentTime : ℕ) :
    Sound cfg (c.see i (CrcRecord.seenAgain (c.sections i) currentTime)) :=
  h.see hi rfl (Nat.le_succ_of_le (h.counted i hi)) fun hmark =>
    Nat.le_succ_of_le (h.marked i hi hmark)

theorem count (h : Sound cfg c) {i : ℕ} (hi : i < c.numberSections) (currentTime : ℕ) :
    Sound cfg (c.see i (c.counted cfg (c.sections i) currentTime)) := by
  have hcount : ((c.sections i).crcSectionMatchCount + 1) % 256 ≤ (c.sections i).seen + 1 :=
    Nat.le_trans (Nat.mod_le _ _) (Nat.succ_le_succ (h.counted i hi))
  unfold CrcRecord.counted
  dsimp only
  split_ifs with hmatch
  · refine h.see hi rfl hcount fun _ => ?_
    rw [← of_decide_eq_true hmatch]
    exact hcount
  · exact h.see hi rfl hcount fun hmark => Nat.le_succ_of_le (h.marked i hi hmark)

/-- **The report.** Each section that is marked has been seen often enough. -/
theorem report (h : Sound cfg c)
    (hall : ∀ i < c.numberSections, (c.sections i).sectionAcquired = true) :
    Sound cfg c.report := by
  refine ⟨h.bounded, h.distinct, h.parsed, h.counted, h.marked, fun report hreport => ?_⟩
  rcases List.mem_append.mp hreport with hreport | hreport
  · exact h.reported report hreport
  · obtain rfl := List.mem_singleton.mp hreport
    intro seen hseen
    obtain ⟨i, hi, rfl⟩ := List.mem_map.mp hseen
    have hi : i < c.numberSections := List.mem_range.mp hi
    exact h.marked i hi (hall i hi)

theorem parse (h : Sound cfg c) (crc : ℕ) : Sound cfg (c.parsed crc) :=
  ⟨h.bounded, h.distinct, fun i hi => List.mem_append_left _ (h.parsed i hi), h.counted, h.marked,
    h.reported⟩

/-- A new section is recorded in a clear slot. -/
theorem append (h : Sound cfg c) (hclear : c.ClearSlot cfg)
    (hroom : c.numberSections < maxSectionNumber) {crc : ℕ}
    (hnew : ∀ i < c.numberSections, (c.sections i).crc32 ≠ crc) (currentTime : ℕ) :
    Sound cfg ((c.parsed crc).append (c.fresh cfg crc currentTime)) := by
  generalize hs : c.fresh cfg crc currentTime = s
  have hcrc : s.crc32 = crc := by
    rw [← hs, fresh]
    split_ifs <;> rfl
  have hcount : s.crcSectionMatchCount ≤ s.seen := by
    rw [← hs, fresh]
    split_ifs <;> exact Nat.le_refl 1
  have hmark : s.sectionAcquired = true → cfg.sectionSeenCount c.subtable ≤ s.seen := by
    rw [← hs, fresh]
    split_ifs with hmatch
    · exact fun _ => Nat.le_of_eq (of_decide_eq_true hmatch).symm
    · intro hinherited
      rcases hclear with hfree | hone
      · exact absurd (hfree.symm.trans hinherited) Bool.false_ne_true
      · exact hone
  -- the new section is the last one; the others are as before
  have hold : ∀ i < c.numberSections,
      ((c.parsed crc).append s).sections i = c.sections i :=
    fun i hi => Function.update_of_ne (Nat.ne_of_lt hi) _ _
  have hlast : ((c.parsed crc).append s).sections c.numberSections = s :=
    Function.update_self _ _ _
  have hcases : ∀ i < c.numberSections + 1, i < c.numberSections ∨ i = c.numberSections :=
    fun i hi => Nat.lt_or_eq_of_le (Nat.le_of_lt_succ hi)
  refine ⟨hroom, fun i hi j hj hij => ?_, fun i hi => ?_, fun i hi => ?_, fun i hi => ?_,
    h.reported⟩
  · rcases hcases i hi with hi | rfl <;> rcases hcases j hj with hj | rfl
    · rw [hold i hi, hold j hj] at hij
      exact h.distinct i hi j hj hij
    · rw [hold i hi, hlast, hcrc] at hij
      exact absurd hij (hnew i hi)
    · rw [hold j hj, hlast, hcrc] at hij
      exact absurd hij.symm (hnew j hj)
    · rfl
  · rcases hcases i hi with hi | rfl
    · rw [hold i hi]
      exact List.mem_append_left _ (h.parsed i hi)
    · rw [hlast, hcrc]
      exact List.mem_append_right _ (List.mem_singleton_self crc)
  · rcases hcases i hi with hi | rfl
    · rw [hold i hi]
      exact h.counted i hi
    · rw [hlast]
      exact hcount
  · rcases hcases i hi with hi | rfl
    · rw [hold i hi]
      exact h.marked i hi
    · rw [hlast]
      exact hmark

theorem crcRules : CrcRules cfg (ClearSlot cfg) (Sound cfg) where
  bounded h := h.bounded
  reset h := h.reset
  purge h old := h.purge old
  seenAgain h hi currentTime := h.seenAgain hi currentTime
  counted h hi currentTime := h.count hi currentTime
  report h hall := h.report hall
  full h crc := h.parse crc
  append h hclear hroom hnew currentTime := h.append hclear hroom hnew currentTime

end Sound

end CrcRecord

namespace SiTable

open CrcRecord (ClearSlot)

variable {t : SiTable} {cfg : SiConfig}

/-! ## Steps -/

/-- A section comes without a revision descriptor, and if it is recorded, the slot is clear.
The handler that collects sections purges old ones first. -/
def RecordsClear (cfg : SiConfig) (t : SiTable) (d : Delivery) (v : RevisionData) : Prop :=
  v.rdd = none ∧
    (t.tableState = .waitTableRevision → t.AppendsWith (ClearSlot cfg) d v.crc) ∧
    (t.tableState = .waitTableComplete →
      ∀ u ∈ { t with revType := .crc }.purgeOldSectionMatches cfg d.currentTime,
        u.AppendsWith (ClearSlot cfg) d v.crc)

instance (d : Delivery) (crc : ℕ) : Decidable (t.AppendsWith (ClearSlot cfg) d crc) :=
  inferInstanceAs (Decidable (_ → _ → (∀ i < _, _) → _))

instance (d : Delivery) (v : RevisionData) : Decidable (t.RecordsClear cfg d v) :=
  inferInstanceAs (Decidable (_ ∧ _ ∧ _))

/-- No step records a section in a slot that is still marked. -/
def StepClear (cfg : SiConfig) (t : SiTable) : SiEvent → Prop
  | .section _ uniqueId d =>
    uniqueId = t.tableUniqueId → d.fetched = true → ∀ v ∈ d.revision, t.RecordsClear cfg d v
  | _ => True

instance (e : SiEvent) : Decidable (t.StepClear cfg e) := by
  cases e <;> unfold StepClear <;> infer_instance

/-- The record of a table in CRC mode is sound. -/
abbrev CrcSound (cfg : SiConfig) : SiTable → Prop := CrcKept (CrcRecord.Sound cfg)

theorem CrcSound.sectionFound (h : t.CrcSound cfg) {last : Bool} {d : Delivery}
    (hclear : d.fetched = true → ∀ v ∈ d.revision, t.RecordsClear cfg d v) :
    Reaches (t.sectionFound cfg last d) (CrcSound cfg) := by
  have hrules := @CrcRecord.Sound.crcRules cfg
  have hcrc : CrcSound cfg { t with revType := .crc } := ⟨h.1, fun h => nomatch h⟩
  unfold SiTable.sectionFound
  rcases hstate : t.tableState with _ | _ | _
  · exact .pure h
  · refine .ite (fun hfetched => ?_) fun _ => (h.releaseFilter d.releases).giveUp hrules
    rcases hrevision : d.revision with _ | ⟨rdd, crc⟩
    · exact h.giveUp hrules
    · obtain ⟨hrdd, hrevised, hcollected⟩ := hclear hfetched _ hrevision
      obtain rfl : rdd = none := hrdd
      exact CrcKept.revisionCrc hrules hcrc last (hrevised hstate)
  · refine .ite (fun hfetched => ?_) fun _ => (h.releaseFilter d.releases).giveUp hrules
    rcases hrevision : d.revision with _ | ⟨rdd, crc⟩
    · exact h.giveUp hrules
    · obtain ⟨hrdd, hrevised, hcollected⟩ := hclear hfetched _ hrevision
      obtain rfl : rdd = none := hrdd
      exact CrcKept.completeCrc hrules hcrc last (hcollected hstate)

theorem CrcSound.setFilter (h : t.CrcSound cfg) (a : Activation) :
    (t.setFilter a).CrcSound cfg := by
  unfold SiTable.setFilter
  split_ifs
  · exact h.activateFilter a
  · exact h.activateFilter a
  · exact h

/-- A table that starts anew. -/
theorem CrcSound.cleared (h : t.CrcSound cfg) : t.cleared.CrcSound cfg := by
  refine ⟨⟨Nat.zero_le _, ?_, ?_, ?_, ?_, h.1.reported⟩, fun h => nomatch h⟩
  all_goals
    intro i hi
    exact absurd hi (Nat.not_lt_zero i)

/-- **One step.** -/
theorem CrcSound.step {e : SiEvent} (h : t.CrcSound cfg) (hclear : t.StepClear cfg e) :
    Reaches (SiTable.step cfg t e) (CrcSound cfg) := by
  have hrules := @CrcRecord.Sound.crcRules cfg
  cases e with
  | «section» last uniqueId d =>
    exact .ite (fun hid => h.sectionFound (hclear hid)) fun _ => .pure h
  | timeout a => exact .pure (h.setFilter a)
  | sourceClosed releases => exact .pure (h.releaseFilter releases)
  | resetPending releases =>
    have hleft : (if t.tableUniqueId ≠ 0 then t.releaseFilter releases else t).CrcSound cfg := by
      split_ifs
      · exact h.releaseFilter releases
      · exact h
    exact .pure hleft.cleared
  | vctIdChange releases a =>
    have hleft : (if t.tableUniqueId ≠ 0 then t.releaseFilter releases else t).CrcSound cfg := by
      split_ifs
      · exact h.releaseFilter releases
      · exact h
    exact .pure (hleft.cleared.setFilter a)
  | purgeRdd =>
    show Reaches (some t.purgeRddTable) (CrcSound cfg)
    rw [purgeRddTable, if_neg h.2]
    exact .pure h
  | tableTimeout handledLast releases =>
    refine .ite (fun _ => .pure h) fun _ => ?_
    have hrest : (t.setTablesAcquired.releaseFilter releases).CrcSound cfg :=
      CrcKept.releaseFilter (t := t.setTablesAcquired) h releases
    exact .ite (fun _ => hrest.giveUp hrules) fun _ => .pure hrest
  | otherTimeout =>
    refine (reset_reaches (r := .crc) hrules h.1 fun h => nomatch h).mono fun u hu => ⟨hu.1, ?_⟩
    rw [hu.2.1]
    exact h.2

theorem crcSound_initial (subtable : SiSubtable) : (initial subtable).CrcSound cfg := by
  refine ⟨⟨Nat.zero_le _, ?_, ?_, ?_, ?_, ?_⟩, fun h => nomatch h⟩
  iterate 4
    intro i hi
    exact absurd hi (Nat.not_lt_zero i)
  · intro report hreport
    exact nomatch hreport

/-- **The CRCs of a table.** In a run in CRC mode in which no section is recorded in a slot
that is still marked, the recorded CRCs are distinct, each is that of a section that was
parsed, there are at most `maxSectionNumber`, and whenever all sections were reported acquired,
each had been seen often enough. -/
theorem crcs_sound {subtable : SiSubtable} {es : List SiEvent}
    (hclear : EachStep (step cfg) (StepClear cfg) (initial subtable) es) :
    Reaches (runFrom (step cfg) (initial subtable) es) fun t => t.crcRecord.Sound cfg := by
  obtain ⟨t, hrun, h⟩ := EachStep.total (I := CrcSound cfg)
    (fun _ _ h hclear => h.step hclear) hclear (crcSound_initial subtable)
  exact ⟨t, hrun, h.1⟩

/-! ### A section in a slot that is still marked -/

/-- A section without a descriptor that is fetched and parsed. -/
def sectionWithCrc (crc currentTime : ℕ) : SiEvent :=
  .section false 7
    { fetched := true
      revision := some ⟨none, crc⟩
      parse := ⟨true, none⟩
      releases := true
      filter := ⟨true, some 7, currentTime⟩
      currentTime := currentTime
      vcmComplete := false }

/-- Section 0xAAAA gets too old before it is seen twice; 0xBBBB is moved down, 0xCCCC is recorded
in the slot it has left, and both are seen again. -/
def purgedRun : List SiEvent :=
  [.timeout ⟨true, some 7, 1000⟩, sectionWithCrc 0xAAAA 2000, sectionWithCrc 0xBBBB 100000,
    sectionWithCrc 0xCCCC 160000, sectionWithCrc 0xBBBB 170000, sectionWithCrc 0xCCCC 180000]

theorem crcs_sound_purgedRun :
    Reaches (runFrom (step .defaults) (initial .nitCds) purgedRun) fun t =>
      t.crcRecord.Sound .defaults ∧ t.ledger.reports = [[2, 2]] := by
  have hreports : (runFrom (step .defaults) (initial .nitCds) purgedRun).any fun t =>
      decide (t.ledger.reports = [[2, 2]]) := by decide +kernel
  obtain ⟨t, hrun, ht⟩ := (Option.any_eq_true _ _).mp hreports
  obtain ⟨u, hrun', hsound⟩ : Reaches (runFrom (step .defaults) (initial .nitCds) purgedRun)
      fun t => t.crcRecord.Sound .defaults := crcs_sound (by decide +kernel)
  obtain rfl := Option.some.inj (hrun.symm.trans hrun')
  exact ⟨t, hrun, hsound, of_decide_eq_true ht⟩

/-- Section 0xAAAA gets too old while 0xBBBB has been seen twice; 0xCCCC is then recorded in
the slot that 0xBBBB has left, and reported acquired after one sighting. -/
theorem vacatedSlot_reported :
    Reaches (runFrom (step .defaults) (initial .nitCds)
      [.timeout ⟨true, some 7, 1000⟩, sectionWithCrc 0xAAAA 2000, sectionWithCrc 0xBBBB 100000,
        sectionWithCrc 0xBBBB 110000, sectionWithCrc 0xCCCC 160000])
      fun t => t.ledger.reports = [[2, 1]] ∧ ¬t.crcRecord.Sound .defaults := by
  have h : (runFrom (step .defaults) (initial .nitCds)
      [.timeout ⟨true, some 7, 1000⟩, sectionWithCrc 0xAAAA 2000, sectionWithCrc 0xBBBB 100000,
        sectionWithCrc 0xBBBB 110000, sectionWithCrc 0xCCCC 160000]).any fun t =>
      decide (t.ledger.reports = [[2, 1]] ∧ t.subtable = .nitCds) := by
    decide +kernel
  obtain ⟨t, hrun, ht⟩ := (Option.any_eq_true _ _).mp h
  obtain ⟨hreports, hsubtable⟩ := of_decide_eq_true ht
  refine ⟨t, hrun, hreports, fun hsound => ?_⟩
  have hmem : [2, 1] ∈ t.crcRecord.reports := by
    show [2, 1] ∈ t.ledger.reports
    rw [hreports]
    exact List.mem_singleton_self _
  have htwice := hsound.reported [2, 1] hmem 1 (by decide)
  rw [show t.crcRecord.subtable = .nitCds from hsubtable] at htwice
  exact absurd htwice (by decide)

end SiTable

end MediaFramework
