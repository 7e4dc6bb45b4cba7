import Mathlib.Data.List.Nodup
import MediaFramework.Oob.FilterPurges

/-!
# Which sections are left when a filter is done

A filter that has returned its last section, or with which a table is complete, is about to be
released, and the sections that have not been seen since it was set are purged. The purge goes by
`filter_start_time`, which is overwritten when a filter is released or set. One handler does both
before the purge: when the last section of a filter is a new one, the purge goes by the filter that
comes next, and no section has been seen since that one was set.
-/

namespace MediaFramework

/-! ## What has been seen -/

/-- A section without a revision descriptor that a filter has delivered. -/
structure Sighting where
  uniqueId : ℕ
  crc : ℕ
  time : ℕ
  deriving DecidableEq

/-- The filters are known by their ids; `started` tells when each of them was set. -/
def Activation.Known (started : ℕ → ℕ) (a : Activation) : Prop :=
  ∀ id ∈ a.uniqueId, id ≠ 0 ∧ a.startTime = started id

namespace SiTable

variable {S : List Sighting} {x : Sighting} {started : ℕ → ℕ} {t : SiTable} {cfg : SiConfig}
  {last : Bool} {d : Delivery}

/-- Sections are recorded once, and with the time they were seen last. -/
structure Remembers (S : List Sighting) (sections : List SiTableSection) : Prop where
  nodup : (sections.map SiTableSection.crc32).Nodup
  seen : ∀ s ∈ sections, ∀ x ∈ S, x.crc = s.crc32 → x.time ≤ s.lastSeenTime

/-- A table in CRC mode that has got these sections. -/
structure Follows (started : ℕ → ℕ) (S : List Sighting) (t : SiTable) : Prop where
  mode : t.revType ≠ .rdd
  known : t.tableUniqueId ≠ 0 → t.filterStartTime = started t.tableUniqueId
  bounded : t.numberSections ≤ maxSectionNumber
  remembers : Remembers S t.recorded

namespace Remembers

variable {sections : List SiTableSection}

theorem filter (h : Remembers S sections) (p : SiTableSection → Bool) :
    Remembers S (sections.filter p) where
  nodup := h.nodup.sublist (List.filter_sublist.map _)
  seen s hs := h.seen s (List.mem_of_mem_filter hs)

/-- What is remembered does not depend on the marks and counts. -/
theorem of_map_unmarked {sections' : List SiTableSection} (h : Remembers S sections)
    (heq : sections'.map SiTableSection.unmarked = sections.map SiTableSection.unmarked) :
    Remembers S sections' where
  nodup := by
    have hcrcs := congrArg (List.map SiTableSection.crc32) heq
    rw [List.map_map, List.map_map] at hcrcs
    exact hcrcs ▸ h.nodup
  seen s hs x hx hcrc := by
    have hmem : s.unmarked ∈ sections.map SiTableSection.unmarked :=
      heq ▸ List.mem_map_of_mem hs
    obtain ⟨s', hs', hunmarked⟩ := List.mem_map.mp hmem
    have hcrc' : s'.unmarked.crc32 = s.unmarked.crc32 := by rw [hunmarked]
    have htime : s'.unmarked.lastSeenTime = s.unmarked.lastSeenTime := by rw [hunmarked]
    exact Nat.le_trans (h.seen s' hs' x hx (hcrc.trans hcrc'.symm)) (Nat.le_of_eq htime)

/-- A section that is not recorded has been delivered. -/
theorem cons_of_new (h : Remembers S sections) (hnew : ∀ s ∈ sections, s.crc32 ≠ x.crc) :
    Remembers (x :: S) sections where
  nodup := h.nodup
  seen s hs y hy hcrc := by
    rcases List.mem_cons.mp hy with rfl | hy
    · exact absurd hcrc.symm (hnew s hs)
    · exact h.seen s hs y hy hcrc

/-- A new section is recorded. -/
theorem append (h : Remembers S sections) (hnew : ∀ s ∈ sections, s.crc32 ≠ x.crc)
    (hlate : ∀ y ∈ S, y.time ≤ x.time) {s : SiTableSection} (hcrc : s.crc32 = x.crc)
    (htime : s.lastSeenTime = x.time) : Remembers (x :: S) (sections ++ [s]) where
  nodup := by
    rw [List.map_append, List.map_singleton]
    refine List.Nodup.append h.nodup (List.nodup_singleton _) fun c hc hc' => ?_
    obtain ⟨s', hs', rfl⟩ := List.mem_map.mp hc
    exact hnew s' hs' ((List.mem_singleton.mp hc').trans hcrc)
  seen s' hs' := by
    rcases List.mem_append.mp hs' with hs' | hs'
    · exact (h.cons_of_new hnew).seen s' hs'
    · obtain rfl := List.mem_singleton.mp hs'
      intro y hy _
      rw [htime]
      rcases List.mem_cons.mp hy with rfl | hy
      · exact Nat.le_refl _
      · exact hlate y hy

/-- A recorded section is seen again. -/
theorem set (h : Remembers S sections) (hlate : ∀ y ∈ S, y.time ≤ x.time) {i : ℕ}
    (hi : i < sections.length) {s : SiTableSection} (hold : sections[i].crc32 = x.crc)
    (hcrc : s.crc32 = x.crc) (htime : s.lastSeenTime = x.time) :
    Remembers (x :: S) (sections.set i s) := by
  have hmap : i < (sections.map SiTableSection.crc32).length := by rwa [List.length_map]
  have hcrcs : (sections.set i s).map SiTableSection.crc32 =
      sections.map SiTableSection.crc32 := by
    have hsame : s.crc32 = (sections.map SiTableSection.crc32)[i] := by
      rw [List.getElem_map, hcrc, hold]
    rw [List.map_set, hsame, List.set_getElem_self]
  refine ⟨hcrcs ▸ h.nodup, fun s' hs' y hy hy' => ?_⟩
  obtain ⟨j, hj, rfl⟩ := List.getElem_of_mem hs'
  rw [List.length_set] at hj
  rw [List.getElem_set] at hy' ⊢
  split_ifs at hy' ⊢ with hij
  · rw [htime]
    rcases List.mem_cons.mp hy with rfl | hy
    · exact Nat.le_refl _
    · exact hlate y hy
  · rcases List.mem_cons.mp hy with rfl | hy
    · -- it would be recorded twice
      have hj' : j < (sections.map SiTableSection.crc32).length := by rwa [List.length_map]
      have hsame : (sections.map SiTableSection.crc32)[i] =
          (sections.map SiTableSection.crc32)[j] := by
        rw [List.getElem_map, List.getElem_map, hold, hy']
      exact absurd ((List.Nodup.getElem_inj_iff h.nodup).mp hsame) hij
    · exact h.seen _ (List.getElem_mem hj) y hy hy'

end Remembers

/-! ## The pieces of the handlers -/

theorem recorded_of_eq {t t' : SiTable} (hn : t'.numberSections = t.numberSections)
    (hs : t'.sections = t.sections) : t'.recorded = t.recorded := by
  rw [recorded, recorded, hn, hs]

theorem recorded_of_crcRecord {t t' : SiTable} (h : t'.crcRecord = t.crcRecord) :
    t'.recorded = t.recorded :=
  recorded_of_eq (congrArg CrcRecord.numberSections h) (congrArg CrcRecord.sections h)

theorem getElem_recorded {i : ℕ} (h : i < t.recorded.length) : t.recorded[i] = t.sections i :=
  getElem_contents h

/-- The records a reset leaves. -/
theorem recorded_reset (hbound : t.numberSections ≤ maxSectionNumber) {t' : SiTable}
    {r : RevisioningType} (hreset : t.resetSectionArray r = some t') (hmode : r ≠ .rdd) :
    t'.recorded.map SiTableSection.unmarked = t.recorded.map SiTableSection.unmarked := by
  rw [resetSectionArray, if_neg hmode] at hreset
  cases hreset
  rw [recorded, recorded, contents, contents, List.map_map, List.map_map]
  refine List.map_congr_left fun i hi => ?_
  have hi : i < maxSectionNumber := Nat.lt_of_lt_of_le (List.mem_range.mp hi) hbound
  show SiTableSection.unmarked (if i < maxSectionNumber then _ else _) = _
  rw [if_pos hi]
  rfl

namespace Follows

theorem of_eq (h : t.Follows started S) {t' : SiTable} (hmode : t'.revType = t.revType)
    (hid : t'.tableUniqueId = t.tableUniqueId) (hstart : t'.filterStartTime = t.filterStartTime)
    (hn : t'.numberSections = t.numberSections) (hs : t'.sections = t.sections) :
    t'.Follows started S where
  mode := hmode ▸ h.mode
  known := hid ▸ hstart ▸ h.known
  bounded := hn ▸ h.bounded
  remembers := recorded_of_eq hn hs ▸ h.remembers

theorem releaseFilter (h : t.Follows started S) (releases : Bool) :
    (t.releaseFilter releases).Follows started S := by
  unfold SiTable.releaseFilter
  split_ifs
  · exact ⟨h.mode, fun hid => absurd rfl hid, h.bounded, h.remembers⟩
  · exact h

theorem activateFilter (h : t.Follows started S) {a : Activation} (ha : a.Known started) :
    (t.activateFilter a).Follows started S := by
  have hleft : (if t.tableUniqueId ≠ 0 then t.releaseFilter a.releasesLeft
      else t).Follows started S := by
    split_ifs
    · exact h.releaseFilter _
    · exact h
  unfold SiTable.activateFilter
  rcases hid : a.uniqueId with _ | id
  · exact ⟨hleft.mode, fun hid => absurd rfl hid, hleft.bounded, hleft.remembers⟩
  · exact ⟨hleft.mode, fun _ => (ha id hid).2, hleft.bounded, hleft.remembers⟩

theorem reset (h : t.Follows started S) {r : RevisioningType} (hmode : r ≠ .rdd) :
    Reaches (t.resetSectionArray r) fun t' => t'.Follows started S ∧
      t'.filterStartTime = t.filterStartTime ∧
      t'.recorded.map SiTableSection.unmarked = t.recorded.map SiTableSection.unmarked := by
  have hreset : t.resetSectionArray r = some _ := if_neg hmode
  have hsame := recorded_reset h.bounded hreset hmode
  refine ⟨_, hreset, ⟨h.mode, h.known, h.bounded, ?_⟩, rfl, hsame⟩
  exact h.remembers.of_map_unmarked hsame

theorem giveUp (h : t.Follows started S) :
    Reaches t.giveUp fun t' => t'.Follows started S ∧
      t'.filterStartTime = t.filterStartTime ∧
      t'.recorded.map SiTableSection.unmarked = t.recorded.map SiTableSection.unmarked :=
  (h.reset h.mode).map fun _ h => ⟨h.1.of_eq rfl rfl rfl rfl rfl, h.2⟩

theorem isTableAcquired (h : t.Follows started S) (vcmComplete : Bool) :
    Reaches (t.isTableAcquired vcmComplete) fun a =>
      a.2.Follows started S ∧ a.2.filterStartTime = t.filterStartTime ∧
        a.2.tableUniqueId = t.tableUniqueId ∧ a.1.2 = t.allMarked := by
  rw [SiTable.isTableAcquired, if_pos h.bounded]
  by_cases hall : t.allMarked = true
  · rw [if_pos hall]
    exact .pure ⟨h.of_eq rfl rfl rfl rfl rfl, rfl, rfl, hall.symm⟩
  · rw [if_neg hall, if_neg h.mode]
    exact .pure ⟨h, rfl, rfl, ((Bool.not_eq_true _).mp hall).symm⟩

theorem purge (cfg : SiConfig) (h : t.Follows started S) (old : SiTableSection → Bool) :
    Reaches (t.purge cfg old) fun t' =>
      t'.Follows started S ∧ t'.filterStartTime = t.filterStartTime ∧
        t'.tableUniqueId = t.tableUniqueId ∧ t'.tableState = t.tableState ∧
        (cfg.sectionRetentionTime ≠ 0 → t'.recorded = t.recorded.filter fun s => !old s) := by
  by_cases hoff : cfg.sectionRetentionTime = 0
  · exact ⟨t, if_pos hoff, h, rfl, rfl, rfl, fun hon => absurd hoff hon⟩
  · obtain ⟨n, hn, sections, hpurge, hcontents⟩ := recorded_purge old hoff h.bounded
    refine ⟨_, hpurge, ⟨h.mode, h.known, Nat.le_trans hn h.bounded, ?_⟩, rfl, rfl, rfl,
      fun _ => hcontents⟩
    show Remembers S (contents (sections, n))
    rw [hcontents]
    exact h.remembers.filter _

/-- A recorded section is seen again. -/
theorem see (h : t.Follows started S) (hlate : ∀ y ∈ S, y.time ≤ x.time) {i : ℕ}
    (hi : i < t.numberSections) {s : SiTableSection} (hold : (t.sections i).crc32 = x.crc)
    (hcrc : s.crc32 = x.crc) (htime : s.lastSeenTime = x.time) :
    { t with sections := Function.update t.sections i s }.Follows started (x :: S) := by
  refine ⟨h.mode, h.known, h.bounded, ?_⟩
  have hlength : i < t.recorded.length := by rwa [recorded, length_contents]
  have hset : { t with sections := Function.update t.sections i s }.recorded =
      t.recorded.set i s := by
    refine List.ext_getElem ?_ fun j h₁ h₂ => ?_
    · rw [List.length_set, recorded, recorded, length_contents, length_contents]
    · rw [List.getElem_set]
      refine (getElem_contents h₁).trans ?_
      split_ifs with hij
      · exact hij ▸ Function.update_self _ _ _
      · exact (Function.update_of_ne (Ne.symm hij) _ _).trans (getElem_recorded _).symm
  exact hset ▸ h.remembers.set hlate hlength ((getElem_recorded hlength).symm ▸ hold) hcrc htime

/-- A section that is not recorded has been delivered. -/
theorem cons_of_new (h : t.Follows started S)
    (hnew : ∀ i < t.numberSections, (t.sections i).crc32 ≠ x.crc) :
    t.Follows started (x :: S) := by
  refine ⟨h.mode, h.known, h.bounded, h.remembers.cons_of_new fun s hs => ?_⟩
  obtain ⟨i, hi, rfl⟩ := List.mem_map.mp hs
  exact hnew i (List.mem_range.mp hi)

/-- A new section is recorded if there is room. -/
theorem recordSection (h : t.Follows started S) (hlate : ∀ y ∈ S, y.time ≤ x.time)
    (hnew : ∀ i < t.numberSections, (t.sections i).crc32 ≠ x.crc) :
    Reaches (t.recordSection cfg x.crc x.time) fun t' =>
      t'.Follows started (x :: S) ∧ t'.filterStartTime = t.filterStartTime ∧
        t'.tableUniqueId = t.tableUniqueId := by
  rw [SiTable.recordSection]
  by_cases hfull : t.numberSections = maxSectionNumber
  · rw [if_pos hfull]
    exact .pure ⟨h.cons_of_new hnew, rfl, rfl⟩
  · have hlt : t.numberSections < maxSectionNumber := Nat.lt_of_le_of_ne h.bounded hfull
    rw [if_neg hfull]
    refine .bind ⟨_, readSection_of_lt hlt, rfl⟩ ?_
    rintro _ rfl
    refine .bind ⟨_, writeSection_of_lt hlt _, rfl⟩ ?_
    rintro _ rfl
    refine .pure ⟨⟨h.mode, h.known, hlt, ?_⟩, rfl, rfl⟩
    show Remembers (x :: S) ((List.range (t.numberSections + 1)).map (Function.update t.sections
      t.numberSections (t.crcRecord.fresh cfg x.crc x.time)))
    have hs : (t.crcRecord.fresh cfg x.crc x.time).crc32 = x.crc ∧
        (t.crcRecord.fresh cfg x.crc x.time).lastSeenTime = x.time := by
      rw [CrcRecord.fresh]
      split_ifs
      · exact ⟨rfl, rfl⟩
      · exact ⟨rfl, rfl⟩
    generalize t.crcRecord.fresh cfg x.crc x.time = s at hs ⊢
    have hold : (List.range t.numberSections).map
        (Function.update t.sections t.numberSections s) = t.recorded :=
      List.map_congr_left fun i hi =>
        Function.update_of_ne (Nat.ne_of_lt (List.mem_range.mp hi)) _ _
    rw [List.range_succ, List.map_append, List.map_singleton, hold, Function.update_self]
    refine h.remembers.append (fun s' hs' => ?_) hlate hs.1 hs.2
    obtain ⟨i, hi, rfl⟩ := List.mem_map.mp hs'
    exact hnew i (List.mem_range.mp hi)

theorem recordParsed (cfg : SiConfig) (h : t.Follows started S) (hlate : ∀ y ∈ S, y.time ≤ x.time)
    (hnew : ∀ i < t.numberSections, (t.sections i).crc32 ≠ x.crc) (hd : d.currentTime = x.time) :
    Reaches (t.recordParsed cfg d x.crc) fun t' =>
      t'.Follows started (x :: S) ∧ t'.filterStartTime = t.filterStartTime ∧
        t'.tableUniqueId = t.tableUniqueId := by
  unfold SiTable.recordParsed
  rw [hd]
  exact recordSection (t := { t.parseAndUpdate d.parse with ledger :=
    { t.ledger with parsedCrcs := t.ledger.parsedCrcs ++ [x.crc] } })
    (h.of_eq rfl rfl rfl rfl rfl) hlate hnew

end Follows

/-! ## The handlers -/

/-- Some section is not acquired yet when the new one has been recorded, and the filter, which can
be released or followed by another one, is replaced. -/
def ReplacesFilter (cfg : SiConfig) (t : SiTable) (d : Delivery) (crc : ℕ) : Prop :=
  t.tableState = .waitTableRevision ∧ d.parse.ok = true ∧
    (∀ i < t.numberSections, (t.sections i).crc32 ≠ crc) ∧
    (t.recordParsed cfg d crc).map allMarked = some false ∧
    (d.releases = true ∨ d.filter.releasesLeft = true ∨ d.filter.uniqueId ≠ none)

instance (crc : ℕ) : Decidable (t.ReplacesFilter cfg d crc) :=
  inferInstanceAs (Decidable (_ ∧ _ ∧ (∀ i < _, _) ∧ _ ∧ _))

/-- What is marked when the section has been recorded depends on the record alone. -/
theorem map_allMarked_recordParsed {t' : SiTable} (h : t'.crcRecord = t.crcRecord) (crc : ℕ) :
    (t'.recordParsed cfg d crc).map allMarked = (t.recordParsed cfg d crc).map allMarked := by
  have hsubtable : t'.subtable = t.subtable := congrArg CrcRecord.subtable h
  have hn : t'.numberSections = t.numberSections := congrArg CrcRecord.numberSections h
  have hsections : t'.sections = t.sections := congrArg CrcRecord.sections h
  unfold recordParsed recordSection readSection writeSection checkCRCMatchCount
  dsimp only [parseAndUpdate]
  rw [hsubtable, hn, hsections]
  split_ifs <;> rfl

theorem filterStartTime_replaced (h₁ : d.releases = false) (h₂ : d.filter.releasesLeft = false)
    (h₃ : d.filter.uniqueId = none) :
    ((t.releaseFilter d.releases).activateFilter d.filter).filterStartTime = t.filterStartTime := by
  rw [h₁, SiTable.activateFilter, h₂, h₃]
  split_ifs <;> rfl

namespace Follows

/-- A new section, while a revision is waited for. -/
theorem revisionCrcNew (h : t.Follows started S) (hlate : ∀ y ∈ S, y.time ≤ x.time)
    (hid : t.tableUniqueId ≠ 0) (hfilter : d.filter.Known started)
    (hnew : ∀ i < t.numberSections, (t.sections i).crc32 ≠ x.crc) (hd : d.currentTime = x.time) :
    Reaches (t.revisionCrcNew cfg d x.crc) fun a => a.1.Follows started (x :: S) ∧
      (a.1.filterStartTime ≠ t.filterStartTime →
        (t.recordParsed cfg d x.crc).map allMarked = some false ∧
        (d.releases = true ∨ d.filter.releasesLeft = true ∨ d.filter.uniqueId ≠ none)) := by
  unfold SiTable.revisionCrcNew
  obtain ⟨u, hrecord, hu, hstart, hkept⟩ := h.recordParsed cfg hlate hnew hd
  rw [hrecord]
  refine (hu.isTableAcquired d.vcmComplete).bind ?_
  rintro ⟨⟨acquired, all⟩, v⟩ ⟨hv, hvstart, hvid, hall⟩
  dsimp only at hv hvstart hvid hall ⊢
  generalize hw : (if acquired then SiTable.setTablesAcquired _ else _ : SiTable) = w
  have hw : w.Follows started (x :: S) ∧ w.filterStartTime = t.filterStartTime ∧
      w.tableUniqueId ≠ 0 := by
    rw [← hw]
    split_ifs
    · exact ⟨hv.of_eq rfl rfl rfl rfl rfl, hvstart.trans hstart, hvid.trans hkept ▸ hid⟩
    · exact ⟨hv.of_eq rfl rfl rfl rfl rfl, hvstart.trans hstart, hvid.trans hkept ▸ hid⟩
  obtain ⟨hw, hwstart, hwid⟩ := hw
  refine .ite (fun _ => hw.giveUp.bind fun t' ht' => .pure ⟨ht'.1, fun hne => ?_⟩) fun hnot => ?_
  · exact absurd (ht'.2.1.trans hwstart) hne
  · have hreleased : (w.tableUniqueId != 0) = true := bne_iff_ne.mpr hwid
    rw [hreleased]
    refine .pure ⟨((hw.releaseFilter d.releases).activateFilter hfilter).of_eq rfl rfl rfl rfl rfl,
      fun hne => ⟨?_, ?_⟩⟩
    · rw [Option.map_some, ← hall, Bool.not_eq_true _ |>.mp hnot]
    · by_contra hkeeps
      rw [not_or, not_or, not_not, Bool.not_eq_true, Bool.not_eq_true] at hkeeps
      exact hne ((filterStartTime_replaced hkeeps.1 hkeeps.2.1 hkeeps.2.2).trans hwstart)

/-- The handler that waits for a revision, up to the purge. -/
theorem revisionToPurge (h : t.Follows started S) (hlate : ∀ y ∈ S, y.time ≤ x.time)
    (hid : t.tableUniqueId ≠ 0) (hfilter : d.filter.Known started) (hd : d.currentTime = x.time)
    (hstate : t.tableState = .waitTableRevision) :
    Reaches (t.revisionToPurge cfg last d x.crc) fun a => a.1.Follows started (x :: S) ∧
      (a.2 ≠ none → a.1.filterStartTime ≠ t.filterStartTime →
        last = true ∧ t.ReplacesFilter cfg d x.crc) := by
  unfold SiTable.revisionToPurge
  generalize hu : ({ t with revSampleCount := _ } : SiTable) = u
  have hfollows : u.Follows started S := hu ▸ h.of_eq rfl rfl rfl rfl rfl
  have hrecord : u.crcRecord = t.crcRecord := hu ▸ rfl
  have hstart : u.filterStartTime = t.filterStartTime := hu ▸ rfl
  have huid : u.tableUniqueId ≠ 0 := hu ▸ hid
  refine (matchedCRC32_reaches hfollows.bounded x.crc).bind ?_
  intro found hfound
  cases found with
  | some i =>
    have hlt : i < maxSectionNumber := Nat.lt_of_lt_of_le hfound.1 hfollows.bounded
    refine .bind ⟨_, readSection_of_lt hlt, rfl⟩ ?_
    rintro _ rfl
    refine .bind ⟨_, writeSection_of_lt hlt _, rfl⟩ ?_
    rintro _ rfl
    have hsee := hfollows.see hlate hfound.1
      (s := { u.sections i with lastSeenTime := d.currentTime, seen := (u.sections i).seen + 1 })
      hfound.2 hfound.2 hd
    exact .pure ⟨hsee.of_eq rfl rfl rfl rfl rfl, fun _ hne => absurd hstart hne⟩
  | none =>
    refine .ite (fun hok => ?_) fun _ => ?_
    · refine (hfollows.revisionCrcNew hlate huid hfilter hfound hd).bind fun a ha => .pure ?_
      refine ⟨ha.1, fun hcall hne => ?_⟩
      obtain ⟨hmarks, hreplaced⟩ := ha.2 (hstart ▸ hne)
      rw [map_allMarked_recordParsed hrecord] at hmarks
      refine ⟨?_, hstate, hok, ?_, hmarks, hreplaced⟩
      · by_contra hlast
        exact hcall (if_neg hlast)
      · have hn : u.numberSections = t.numberSections := congrArg CrcRecord.numberSections hrecord
        have hsections : u.sections = t.sections := congrArg CrcRecord.sections hrecord
        rw [hn, hsections] at hfound
        exact hfound
    · have hparsed : (u.parseAndUpdate d.parse).Follows started (x :: S) :=
        (hfollows.cons_of_new hfound).of_eq rfl rfl rfl rfl rfl
      exact hparsed.giveUp.map fun v hv => ⟨hv.1, fun hcall => absurd rfl hcall⟩

theorem completeCrcMatch (h : t.Follows started S) (hlate : ∀ y ∈ S, y.time ≤ x.time)
    (hd : d.currentTime = x.time) :
    Reaches (t.completeCrcMatch cfg d x.crc) fun a => a.2.Follows started (x :: S) ∧
      (a.1 ≠ none → a.2.filterStartTime = t.filterStartTime) := by
  refine (matchedCRC32_reaches h.bounded x.crc).bind ?_
  intro found hfound
  cases found with
  | some i =>
    have hlt : i < maxSectionNumber := Nat.lt_of_lt_of_le hfound.1 h.bounded
    refine .bind ⟨_, readSection_of_lt hlt, rfl⟩ ?_
    rintro _ rfl
    refine .bind ⟨_, writeSection_of_lt hlt _, rfl⟩ ?_
    rintro _ rfl
    have hs : (t.crcRecord.counted cfg (t.sections i) d.currentTime).crc32 = x.crc ∧
        (t.crcRecord.counted cfg (t.sections i) d.currentTime).lastSeenTime = x.time := by
      rw [CrcRecord.counted]
      split_ifs
      · exact ⟨hfound.2, hd⟩
      · exact ⟨hfound.2, hd⟩
    exact .pure ⟨h.see hlate hfound.1 hfound.2 hs.1 hs.2, fun _ => rfl⟩
  | none =>
    refine .ite (fun hok => ?_) fun _ => ?_
    · exact (h.recordParsed cfg hlate hfound hd).bind fun u hu => .pure ⟨hu.1, fun _ => hu.2.1⟩
    · have hparsed : (t.parseAndUpdate d.parse).Follows started (x :: S) :=
        (h.cons_of_new hfound).of_eq rfl rfl rfl rfl rfl
      exact hparsed.giveUp.bind fun v hv => .pure ⟨hv.1, fun hne => absurd rfl hne⟩

theorem restToPurge (h : t.Follows started S) (newSectionParsed : Bool) :
    Reaches (t.restToPurge last d newSectionParsed) fun a =>
      a.1.Follows started S ∧ a.1.filterStartTime = t.filterStartTime := by
  refine (h.isTableAcquired d.vcmComplete).bind ?_
  rintro ⟨⟨acquired, all⟩, u⟩ ⟨hu, hstart, -⟩
  cases all with
  | true | false =>
    exact .pure ⟨by split_ifs <;> exact hu.of_eq rfl rfl rfl rfl rfl, by
      split_ifs <;> exact hstart⟩

/-- **A section without a revision descriptor, up to the purge.** -/
theorem toPurge (cfg : SiConfig) (last : Bool) (h : t.Follows started S)
    (hlate : ∀ y ∈ S, y.time ≤ x.time) (hid : t.tableUniqueId ≠ 0)
    (hfilter : d.filter.Known started) (hd : d.currentTime = x.time) :
    Reaches (t.toPurge cfg last d x.crc) fun a => a.1.Follows started (x :: S) ∧
      (a.2 ≠ none → a.1.filterStartTime ≠ t.filterStartTime →
        last = true ∧ t.ReplacesFilter cfg d x.crc) := by
  have hcrc : { t with revType := .crc }.Follows started S :=
    ⟨nofun, h.known, h.bounded, h.remembers⟩
  refine .ite (fun hstate => ?_) fun hstate => ?_
  · refine (hcrc.revisionToPurge hlate hid hfilter hd hstate).mono fun a ha => ⟨ha.1, ?_⟩
    intro hcall hne
    obtain ⟨hlast, hstate, hok, hnew, hmarks, hreplaced⟩ := ha.2 hcall hne
    have hsame : { t with revType := .crc }.crcRecord = t.crcRecord := rfl
    rw [map_allMarked_recordParsed hsame] at hmarks
    exact ⟨hlast, hstate, hok, hnew, hmarks, hreplaced⟩
  · refine (hcrc.purge cfg _).bind fun u hu => ?_
    refine (hu.1.completeCrcMatch hlate hd).bind ?_
    rintro ⟨_ | newSectionParsed, v⟩ ⟨hv, hstart⟩
    · exact .pure ⟨hv, fun hcall => absurd rfl hcall⟩
    · refine (hv.restToPurge newSectionParsed).mono fun a ha => ⟨ha.1, fun _ hne => ?_⟩
      exact absurd (ha.2.trans ((hstart nofun).trans hu.2.1)) hne

/-- What comes after the purge leaves the sections as they are, but for their marks. -/
theorem afterPurge (h : t.Follows started S) (hfilter : d.filter.Known started) (call : PurgeCall) :
    Reaches (t.afterPurge d call) fun t' => t'.Follows started S ∧
      t'.recorded.map SiTableSection.unmarked = t.recorded.map SiTableSection.unmarked := by
  have hreleased := h.releaseFilter d.releases
  have hsame : (t.releaseFilter d.releases).recorded = t.recorded :=
    recorded_of_crcRecord (crcRecord_releaseFilter d.releases)
  cases call with
  | filterReleased => exact .pure ⟨h, rfl⟩
  | lastSection => exact .pure ⟨hreleased.of_eq rfl rfl rfl rfl rfl, congrArg _ hsame⟩
  | allAcquired => exact hreleased.giveUp.mono fun t' ht' => ⟨ht'.1, hsame ▸ ht'.2.2⟩
  | incomplete =>
    refine .pure ⟨hreleased.activateFilter hfilter, congrArg _ ?_⟩
    exact (recorded_of_crcRecord (crcRecord_activateFilter d.filter)).trans hsame

/-- **From the purge on.** -/
theorem finish (h : t.Follows started S) (hfilter : d.filter.Known started)
    (call : Option PurgeCall) :
    Reaches (SiTable.finish cfg d (t, call)) (Follows started S) := by
  cases call with
  | none => exact .pure h
  | some call =>
    exact (h.purge cfg _).bind fun u hu => (hu.1.afterPurge hfilter call).mono fun _ h => h.1

/-! ## Runs -/

theorem setFilter (h : t.Follows started S) {a : Activation} (ha : a.Known started) :
    (t.setFilter a).Follows started S := by
  unfold SiTable.setFilter
  split_ifs
  · exact (h.activateFilter ha).of_eq rfl rfl rfl rfl rfl
  · exact (h.activateFilter ha).of_eq rfl rfl rfl rfl rfl
  · exact h

theorem cleared (h : t.Follows started S) : t.cleared.Follows started S :=
  ⟨nofun, h.known, Nat.zero_le _, ⟨List.nodup_nil, fun _ hs => absurd hs List.not_mem_nil⟩⟩

theorem releaseLeft (h : t.Follows started S) (releases : Bool) :
    (if t.tableUniqueId ≠ 0 then t.releaseFilter releases else t).Follows started S := by
  split_ifs
  · exact h.releaseFilter releases
  · exact h

theorem timedOut (h : t.Follows started S) (handledLast releases : Bool) :
    Reaches (t.timedOut handledLast releases) (Follows started S) := by
  have hannounced : t.setTablesAcquired.Follows started S := h.of_eq rfl rfl rfl rfl rfl
  have hreleased := hannounced.releaseFilter releases
  refine .ite (fun _ => .pure h) fun _ => .ite (fun _ => ?_) fun _ => ?_
  · exact hreleased.giveUp.mono fun _ h => h.1
  · exact .pure (hreleased.of_eq rfl rfl rfl rfl rfl)

/-- A section that cannot be fetched or read is given up. -/
theorem handle (h : t.Follows started S) (hnot : d.fetched = true → d.revision = none)
    (rdd : SiTable → Rdd → Option SiTable) (crc : SiTable → ℕ → Option SiTable) :
    Reaches (t.handle d rdd crc) (Follows started S) := by
  refine .ite (fun hfetched => ?_) fun _ => (h.releaseFilter d.releases).giveUp.mono fun _ h => h.1
  rw [hnot hfetched]
  exact h.giveUp.mono fun _ h => h.1

end Follows

/-- The section that an event brings to the handlers of the table. -/
def sighting (t : SiTable) : SiEvent → Option Sighting
  | .section _ uniqueId d =>
    if uniqueId = t.tableUniqueId ∧ t.tableState ≠ .none ∧ d.fetched = true then
      d.revision.map fun v => ⟨uniqueId, v.crc, d.currentTime⟩
    else none
  | _ => none

theorem sighting_of_handled (last : Bool) {uniqueId : ℕ} (hid : uniqueId = t.tableUniqueId)
    (hstate : t.tableState ≠ .none) (hfetched : d.fetched = true) :
    t.sighting (.section last uniqueId d) =
      d.revision.map fun v => ⟨uniqueId, v.crc, d.currentTime⟩ :=
  if_pos ⟨hid, hstate, hfetched⟩

end SiTable

/-- A table, and the sections that its filters have delivered. -/
structure WatchedTable where
  table : SiTable
  sightings : List Sighting

namespace WatchedTable

variable (cfg : SiConfig) (started : ℕ → ℕ) (w : WatchedTable)

def step (e : SiEvent) : Option WatchedTable :=
  (w.table.step cfg e).map fun t => ⟨t, (w.table.sighting e).toList ++ w.sightings⟩

/-- A table in CRC mode whose sections come one after the other, from filters that are known. -/
def Regular : SiEvent → Prop
  | .section _ uniqueId d =>
    uniqueId ≠ 0 ∧ (∀ y ∈ w.sightings, y.time ≤ d.currentTime) ∧
      (∀ v ∈ d.revision, v.rdd = none) ∧ d.filter.Known started
  | .timeout a => a.Known started
  | .vctIdChange _ a => a.Known started
  | _ => True

/-- **What the purge is for.** When a section triggers a purge, the sections that are left are those
last seen after the start of the filter that has delivered it, in their order and as they were; in
particular none is purged that this filter has delivered. What then becomes of the table is a
matter of marks. -/
def PurgesWell : SiEvent → Prop
  | .section last uniqueId d =>
    uniqueId = w.table.tableUniqueId → w.table.tableState ≠ .none → d.fetched = true →
      ∀ v ∈ d.revision, ∀ p call, w.table.toPurge cfg last d v.crc = some (p, some call) →
      ∃ p', p.purgeSectionsNotMatchedByFilter cfg = some p' ∧
        p'.recorded = p.recorded.filter (fun s => started uniqueId < s.lastSeenTime) ∧
        (∀ s ∈ p.recorded, ∀ x ∈ ⟨uniqueId, v.crc, d.currentTime⟩ :: w.sightings,
          x.uniqueId = uniqueId → x.crc = s.crc32 → s ∈ p'.recorded) ∧
        ∃ t', w.table.step cfg (.section last uniqueId d) = some t' ∧
          t'.recorded.map SiTableSection.unmarked = p'.recorded.map SiTableSection.unmarked
  | _ => True

/-- **When it does that.** No section is handled in the very millisecond in which its filter was
set, and the last section of a filter is not one for which the filter is replaced. -/
def Orderly : SiEvent → Prop
  | .section last uniqueId d =>
    uniqueId = w.table.tableUniqueId → w.table.tableState ≠ .none → d.fetched = true →
      ∀ v ∈ d.revision, started uniqueId < d.currentTime ∧
        ¬ (last = true ∧ w.table.ReplacesFilter cfg d v.crc)
  | _ => True

variable {cfg started w}

instance (a : Activation) : Decidable (a.Known started) :=
  inferInstanceAs (Decidable (∀ id ∈ a.uniqueId, _))

instance : DecidablePred (w.Regular started)
  | .section .. => inferInstanceAs (Decidable (_ ∧ _))
  | .timeout _ | .vctIdChange _ _ => inferInstanceAs (Decidable (Activation.Known _ _))
  | .sourceClosed _ | .resetPending _ | .purgeRdd | .tableTimeout _ _ | .otherTimeout =>
    isTrue trivial

instance : DecidablePred (w.Orderly cfg started)
  | .section .. => inferInstanceAs (Decidable (_ → _))
  | .timeout _ | .vctIdChange _ _ | .sourceClosed _ | .resetPending _ | .purgeRdd
  | .tableTimeout _ _ | .otherTimeout => isTrue trivial

/-- What a run keeps: the record, and that each section came after its filter was set. -/
structure Sound (started : ℕ → ℕ) (w : WatchedTable) : Prop where
  follows : w.table.Follows started w.sightings
  late : ∀ x ∈ w.sightings, started x.uniqueId < x.time

/-- A section is handled. -/
theorem Sound.handled (cfg : SiConfig) (last : Bool) (h : w.Sound started) {uniqueId : ℕ}
    {d : Delivery}
    (hregular : w.Regular started (.section last uniqueId d))
    (hid : uniqueId = w.table.tableUniqueId) (hstate : w.table.tableState ≠ .none)
    (hfetched : d.fetched = true) {v : RevisionData} (hv : v ∈ d.revision) :
    w.table.sectionFound cfg last d = w.table.toPurge cfg last d v.crc >>= SiTable.finish cfg d ∧
      Reaches (w.table.toPurge cfg last d v.crc) fun a =>
        a.1.Follows started (⟨uniqueId, v.crc, d.currentTime⟩ :: w.sightings) ∧
          (a.2 ≠ none → a.1.filterStartTime ≠ started uniqueId →
            last = true ∧ w.table.ReplacesFilter cfg d v.crc) := by
  obtain ⟨hne, hlate, hmode, hfilter⟩ := hregular
  obtain ⟨_ | rdd, crc⟩ := v
  · refine ⟨SiTable.sectionFound_eq hstate hfetched hv, ?_⟩
    have hstart := h.follows.known (hid ▸ hne)
    have hpurge := h.follows.toPurge (x := ⟨uniqueId, crc, d.currentTime⟩) cfg last hlate
      (hid ▸ hne) hfilter rfl
    rw [hstart, ← hid] at hpurge
    exact hpurge
  · exact absurd (hmode _ hv) nofun

/-- **One step.** -/
theorem Sound.step (h : w.Sound started) {e : SiEvent} (hregular : w.Regular started e)
    (horderly : w.Orderly cfg started e) : Reaches (w.step cfg e) (Sound started) := by
  have hkeep (hnone : w.table.sighting e = none)
      (hx : Reaches (w.table.step cfg e) (SiTable.Follows started w.sightings)) :
      Reaches (w.step cfg e) (Sound started) := by
    unfold WatchedTable.step
    rw [hnone]
    exact hx.map fun t ht => ⟨ht, h.late⟩
  have hf := h.follows
  cases e with
  | «section» last uniqueId d =>
    by_cases hid : uniqueId = w.table.tableUniqueId
    · have hstep : w.table.step cfg (.section last uniqueId d) = w.table.sectionFound cfg last d :=
        if_pos hid
      rw [hstep] at hkeep
      by_cases hstate : w.table.tableState = .none
      · refine hkeep (if_neg fun h => h.2.1 hstate) ?_
        rw [SiTable.sectionFound, hstate]
        exact .pure hf
      · by_cases hv : ∃ v, d.fetched = true ∧ d.revision = some v
        · obtain ⟨v, hfetched, hrevision⟩ := hv
          obtain ⟨hfound, hreaches⟩ := h.handled cfg last hregular hid hstate
            hfetched hrevision
          have hsighting := SiTable.sighting_of_handled last hid hstate hfetched
          unfold WatchedTable.step
          rw [hstep, hfound, hsighting, hrevision]
          refine Reaches.map (hreaches.bind fun a ha => ha.1.finish hregular.2.2.2 a.2) ?_
          refine fun t ht => ⟨ht, fun y hy => ?_⟩
          rcases List.mem_cons.mp hy with rfl | hy
          · exact (horderly hid hstate hfetched v hrevision).1
          · exact h.late y hy
        · have hnone : d.fetched = true → d.revision = none := fun hfetched =>
            Option.eq_none_iff_forall_ne_some.mpr fun v hrevision => hv ⟨v, hfetched, hrevision⟩
          refine hkeep ?_ ?_
          · by_cases hfetched : d.fetched = true
            · rw [SiTable.sighting_of_handled last hid hstate hfetched, hnone hfetched]
              rfl
            · exact if_neg fun h => hfetched h.2.2
          · unfold SiTable.sectionFound
            rcases w.table.tableState
            · exact .pure hf
            · exact hf.handle hnone _ _
            · exact hf.handle hnone _ _
    · exact hkeep (if_neg fun h => hid h.1) ⟨_, if_neg hid, hf⟩
  | timeout a => exact hkeep rfl (.pure (hf.setFilter hregular))
  | sourceClosed releases =>
    exact hkeep rfl (.pure ((hf.releaseFilter releases).of_eq rfl rfl rfl rfl rfl))
  | resetPending releases =>
    have hcleared := (hf.releaseLeft releases).cleared
    exact hkeep rfl (.pure ⟨hcleared.mode, fun h => absurd rfl h, hcleared.bounded,
      hcleared.remembers⟩)
  | vctIdChange releases a =>
    exact hkeep rfl (.pure ((hf.releaseLeft releases).cleared.setFilter hregular))
  | purgeRdd => exact hkeep rfl ⟨_, congrArg some (if_neg hf.mode), hf⟩
  | tableTimeout handledLast releases => exact hkeep rfl (hf.timedOut handledLast releases)
  | otherTimeout =>
    have hmode : RevisioningType.crc ≠ .rdd := by decide
    exact hkeep rfl ((hf.reset hmode).mono fun _ h => h.1)

/-- A step whose section is handled in time purges what it should. -/
theorem Sound.purgesWell (h : w.Sound started) (hon : cfg.sectionRetentionTime ≠ 0) {e : SiEvent}
    (hregular : w.Regular started e) (horderly : w.Orderly cfg started e) :
    w.PurgesWell cfg started e := by
  cases e with
  | «section» last uniqueId d =>
    intro hid hstate hfetched v hv p call hpurged
    obtain ⟨htime, hkept⟩ := horderly hid hstate hfetched v hv
    obtain ⟨hfound, a, ha, hp, hstart⟩ :=
      h.handled cfg last hregular hid hstate hfetched hv
    obtain rfl := Option.some.inj (hpurged.symm.trans ha)
    have hstart : p.filterStartTime = started uniqueId := by
      by_contra hne
      exact hkept (hstart nofun hne)
    obtain ⟨p', hp', hfollows, -, -, -, hleft⟩ :=
      hp.purge cfg fun s => s.lastSeenTime ≤ p.filterStartTime
    obtain ⟨t', ht', -, hmarks⟩ := hfollows.afterPurge hregular.2.2.2 call
    have hfilter : p'.recorded = p.recorded.filter fun s => started uniqueId < s.lastSeenTime := by
      rw [hleft hon]
      refine List.filter_congr fun s _ => ?_
      rw [hstart, ← decide_not]
      exact decide_eq_decide.mpr Nat.not_le
    refine ⟨p', hp', hfilter, fun s hs x hx hfrom hcrc => ?_, t', ?_, hmarks⟩
    · rw [hfilter]
      refine List.mem_filter.mpr ⟨hs, decide_eq_true ?_⟩
      have hlate : started x.uniqueId < x.time := by
        rcases List.mem_cons.mp hx with rfl | hx
        · exact htime
        · exact h.late x hx
      exact Nat.lt_of_lt_of_le (hfrom ▸ hlate) (hp.remembers.seen s hs x hx hcrc)
    · rw [SiTable.step, if_pos hid, hfound, hpurged]
      show (p.purgeSectionsNotMatchedByFilter cfg >>= fun t => t.afterPurge d call) = some t'
      have hp' : p.purgeSectionsNotMatchedByFilter cfg = some p' := hp'
      rw [hp']
      exact ht'
  | timeout | sourceClosed | resetPending | vctIdChange | purgeRdd | tableTimeout | otherTimeout =>
    trivial

/-- **The purges of a table in CRC mode.** If the sections come after their filters are set, and
no filter is replaced before its purge, each purge of a run leaves the sections that have been seen
since the filter was set, and no others. -/
theorem purges_well (cfg : SiConfig) (started : ℕ → ℕ) (hon : cfg.sectionRetentionTime ≠ 0)
    (subtable : SiSubtable) (es : List SiEvent)
    (hregular : EachStep (step cfg) (Regular started) ⟨.initial subtable, []⟩ es)
    (horderly : EachStep (step cfg) (Orderly cfg started) ⟨.initial subtable, []⟩ es) :
    EachStep (step cfg) (PurgesWell cfg started) ⟨.initial subtable, []⟩ es := by
  have hsound : Sound started ⟨.initial subtable, []⟩ :=
    ⟨⟨nofun, fun h => absurd rfl h, Nat.zero_le _, List.nodup_nil, fun _ _ _ hx => nomatch hx⟩,
      fun _ hx => nomatch hx⟩
  refine ((hregular.and horderly).and_invariant (fun w e w' hw he hstep => ?_) hsound).mono ?_
  · obtain ⟨w'', hw'', hsound⟩ := hw.step he.1 he.2
    exact Option.some.inj (hw''.symm.trans hstep) ▸ hsound
  · exact fun w e h => h.1.purgesWell hon h.2.1 h.2.2

/-- Filters 7, 8 and 9 are set after one, four and six seconds. -/
def setTimes (id : ℕ) : ℕ := if id = 7 then 1000 else if id = 8 then 4000 else 6000

/-- A section that can be parsed, and the filter that may follow. -/
def deliveryOf (crc currentTime next : ℕ) : Delivery where
  fetched := true
  revision := some ⟨none, crc⟩
  parse := ⟨true, none⟩
  releases := true
  filter := ⟨true, some next, setTimes next⟩
  currentTime := currentTime
  vcmComplete := false

def sectionFrom (last : Bool) (uniqueId crc currentTime next : ℕ) : SiEvent :=
  .section last uniqueId (deliveryOf crc currentTime next)

/-- Two sections come twice, the second time from another filter. -/
theorem purges_well_twoSections :
    EachStep (step .defaults) (PurgesWell .defaults setTimes) ⟨.initial .nitCds, []⟩
      [.timeout ⟨true, some 7, 1000⟩, sectionFrom false 7 0xAAAA 2000 8,
        sectionFrom true 7 0xBBBB 3000 8, sectionFrom false 8 0xAAAA 5000 9,
        sectionFrom false 8 0xBBBB 5500 9] :=
  purges_well .defaults setTimes (by decide) .nitCds _ (by decide +kernel) (by decide +kernel)

/-- A table is acquired, and then a filter set for the next revision. -/
def acquiredThenSet : List SiEvent :=
  [.timeout ⟨true, some 7, 1000⟩, sectionFrom false 7 0xAAAA 2000 8,
    sectionFrom false 7 0xAAAA 3000 8, .timeout ⟨true, some 8, 4000⟩]

/-- The only section of the second filter is a new one, and it is purged. -/
theorem newSection_purged :
    EachStep (step .defaults) (Regular setTimes) ⟨.initial .nitCds, []⟩
        (acquiredThenSet ++ [sectionFrom true 8 0xBBBB 5000 9]) ∧
      ¬ EachStep (step .defaults) (PurgesWell .defaults setTimes) ⟨.initial .nitCds, []⟩
        (acquiredThenSet ++ [sectionFrom true 8 0xBBBB 5000 9]) := by
  refine ⟨by decide +kernel, fun h => ?_⟩
  have hrun : (runFrom (step .defaults) ⟨.initial .nitCds, []⟩ acquiredThenSet).any (fun w =>
      decide (8 = w.table.tableUniqueId ∧ w.table.tableState ≠ .none) &&
        (w.table.toPurge .defaults true (deliveryOf 0xBBBB 5000 9) 0xBBBB).any fun a =>
          a.2.isSome && (a.1.recorded.any fun s => 0xBBBB = s.crc32) &&
            (a.1.purgeSectionsNotMatchedByFilter .defaults).all fun t => t.recorded.isEmpty) := by
    decide +kernel
  obtain ⟨w, hw, htable⟩ := (Option.any_eq_true _ _).mp hrun
  obtain ⟨htable, hpurge⟩ := (Bool.and_eq_true _ _).mp htable
  obtain ⟨hid, hstate⟩ := of_decide_eq_true htable
  obtain ⟨⟨p, call⟩, hp, hleft⟩ := (Option.any_eq_true _ _).mp hpurge
  obtain ⟨hmem, hempty⟩ := (Bool.and_eq_true _ _).mp hleft
  obtain ⟨hcall, hmem⟩ := (Bool.and_eq_true _ _).mp hmem
  obtain ⟨call, rfl⟩ := Option.isSome_iff_exists.mp hcall
  obtain ⟨s, hs, hcrc⟩ := List.any_eq_true.mp hmem
  have hwell := (h.right hw).1 hid hstate rfl _ rfl p call hp
  obtain ⟨p', hp', -, hkept, -⟩ := hwell
  have hnone := Option.all_eq_true _ _ |>.mp hempty p' hp'
  have hs' := hkept s hs _ List.mem_cons_self rfl (of_decide_eq_true hcrc)
  rw [List.isEmpty_iff.mp hnone] at hs'
  exact List.not_mem_nil hs'

end WatchedTable

end MediaFramework
