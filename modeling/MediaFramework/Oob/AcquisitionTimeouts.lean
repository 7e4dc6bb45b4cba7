import Mathlib.Order.Fin.Basic
import MediaFramework.Oob.SiHandlers

/-!
# Tables that take too long (`checkForTableAcquisitionTimeouts`)

For a table without revision descriptors it is not known how many sections there are, and so a
filter for it has a time limit. After each event all the tables are looked at, and one whose time is
over loses its filter and starts again. What starts again, however, are the sections of the table
that `g_table` points to, the one handled last, as it is this one that `reset_section_array` works
on.
-/

namespace MediaFramework

/-- The time limits, in milliseconds. -/
structure WaitTimes where
  maxNitCdsWaitTime : ℕ
  maxNitMmsWaitTime : ℕ
  maxSvctVcmWaitTime : ℕ
  maxSvctDcmWaitTime : ℕ
  maxNttWaitTime : ℕ

/-- The time limit of a table. -/
def WaitTimes.waitTime (w : WaitTimes) : SiSubtable → ℕ
  | .nitCds => w.maxNitCdsWaitTime
  | .nitMms => w.maxNitMmsWaitTime
  | .svctVcm => w.maxSvctVcmWaitTime
  | .svctDcm => w.maxSvctDcmWaitTime
  | .nttSns => w.maxNttWaitTime

/-! ## One table -/

namespace SiTable

variable (t : SiTable)

/-- What the second branch of `reset_section_array` leaves. -/
def clearRecords : SiTable :=
  { t with
    sections := fun i =>
      if i < maxSectionNumber then
        { t.sections i with sectionAcquired := false, crcSectionMatchCount := 0, seen := 0 }
      else t.sections i
    tableAcquired := false }

/-- The filter is released, and the table waits for a revision again. -/
def lapse (releases : Bool) : SiTable :=
  (t.setTablesAcquired.releaseFilter releases).goto .waitTableRevision

/-- What becomes of a table whose time is over: it has no filter, its own sections are reset, and it
waits for a revision. -/
def expired : SiTable :=
  { t with
    tableUniqueId := 0
    filterStartTime := 0
    tableState := .waitTableRevision
    sections := fun i =>
      if i < maxSectionNumber then
        { t.sections i with sectionAcquired := false, crcSectionMatchCount := 0 }
      else t.sections i
    tableAcquired := false }

/-- What the code keeps of a table. -/
def kept : SiTable :=
  { t with sections := fun i => { t.sections i with seen := 0 }, ledger := {} }

/-- There is nothing to reset. -/
def Clear : Prop :=
  t.tableAcquired = false ∧ ∀ i < maxSectionNumber,
    (t.sections i).sectionAcquired = false ∧ (t.sections i).crcSectionMatchCount = 0

/-- The table has a filter with a time limit, and the time is over. -/
def TimedOut (w : WaitTimes) (currentTime : ℕ) : Prop :=
  t.tableUniqueId ≠ 0 ∧ t.revType ≠ .rdd ∧
    (w.waitTime t.subtable : ℤ) ≤ currentTime - t.filterStartTime

instance (w : WaitTimes) (currentTime : ℕ) : Decidable (t.TimedOut w currentTime) :=
  inferInstanceAs (Decidable (_ ∧ _ ∧ _))

variable {t}

theorem resetSectionArray_of_ne {r : RevisioningType} (h : r ≠ .rdd) :
    t.resetSectionArray r = some t.clearRecords := if_neg h

theorem clearRecords_clearRecords : t.clearRecords.clearRecords = t.clearRecords := by
  simp only [clearRecords, SiTable.mk.injEq, true_and, and_true]
  funext i
  split_ifs <;> rfl

theorem clearRecords_lapse (releases : Bool) :
    (t.lapse releases).clearRecords = t.clearRecords.lapse releases := by
  cases releases <;> rfl

/-- A reset shows in what it finds. -/
theorem kept_clearRecords_iff : t.clearRecords.kept = t.kept ↔ t.Clear := by
  constructor
  · intro h
    refine ⟨(congrArg tableAcquired h).symm, fun i hi => ?_⟩
    have hsection := congrFun (congrArg sections h) i
    simp only [kept, clearRecords, if_pos hi, SiTableSection.mk.injEq] at hsection
    exact ⟨hsection.1.symm, hsection.2.2.1.symm⟩
  · rintro ⟨hacquired, hclear⟩
    simp only [kept, clearRecords, SiTable.mk.injEq, hacquired, true_and, and_true]
    funext i
    by_cases hi : i < maxSectionNumber
    · obtain ⟨h₁, h₂⟩ := hclear i hi
      rw [if_pos hi, h₁, h₂]
    · rw [if_neg hi]

theorem kept_expired : t.expired.kept = (t.clearRecords.lapse true).kept := by
  simp only [kept, expired, clearRecords, lapse, setTablesAcquired, releaseFilter, goto, if_true,
    SiTable.mk.injEq, true_and, and_true]
  funext i
  split_ifs <;> rfl

/-- A reset shows in a table without its filter, too. -/
theorem kept_lapse_inj : (t.lapse true).kept = (t.clearRecords.lapse true).kept ↔
    t.clearRecords.kept = t.kept := by
  simp only [kept, clearRecords, lapse, setTablesAcquired, releaseFilter, goto, if_true,
    SiTable.mk.injEq, true_and, and_true]
  exact and_congr eq_comm eq_comm

/-- A table whose time is over is left as it should be if its filter can be released and its
sections are reset, or need not be. -/
theorem kept_lapse_eq_expired_iff {releases : Bool} (h : t.tableUniqueId ≠ 0) :
    (t.lapse releases).kept = t.expired.kept ↔ releases = true ∧ t.Clear := by
  cases releases with
  | false =>
    refine iff_of_false (fun heq => h (congrArg tableUniqueId heq)) fun hc => ?_
    cases hc.1
  | true =>
    rw [kept_expired, kept_lapse_inj, kept_clearRecords_iff]
    exact (and_iff_right rfl).symm

theorem kept_lapse_clearRecords_iff {releases : Bool} (h : t.tableUniqueId ≠ 0) :
    (t.lapse releases).clearRecords.kept = t.expired.kept ↔ releases = true := by
  cases releases with
  | false => exact iff_of_false (fun heq => h (congrArg tableUniqueId heq)) Bool.false_ne_true
  | true =>
    rw [clearRecords_lapse, kept_expired]
    exact iff_of_true rfl rfl

end SiTable

/-! ## All tables -/

/-- `g_table_array`, and the table that `g_table` points to. -/
structure SiTables (n : ℕ) where
  tables : Fin n → SiTable
  gTable : Fin n

namespace SiTables

variable {n : ℕ} (w : WaitTimes) (currentTime : ℕ) (releases : Fin n → Bool) (s : SiTables n)

/-- A write to a table. -/
def set (i : Fin n) (t : SiTable) : SiTables n :=
  { s with tables := Function.update s.tables i t }

/-- A pass through the loop. -/
def visit (i : Fin n) : Option (SiTables n) :=
  let table := s.tables i
  if table.tableUniqueId = 0 ∨ table.revType = .rdd then some s
  else if (currentTime : ℤ) - table.filterStartTime < w.waitTime table.subtable then some s
  else do
    let s := s.set i (table.setTablesAcquired.releaseFilter (releases i))
    let g ← (s.tables s.gTable).resetSectionArray table.revType
    let s := s.set s.gTable g
    some (s.set i ((s.tables i).goto .waitTableRevision))

/-- `checkForTableAcquisitionTimeouts`. Which filters can be released comes from outside. -/
def checkForTableAcquisitionTimeouts : Option (SiTables n) :=
  (List.finRange n).foldlM (visit w currentTime releases) s

/-- **What the check is for.** Each table whose time is over, and no other one, is left as such a
table should be. -/
def Behaves : Prop :=
  ∃ s', s.checkForTableAcquisitionTimeouts w currentTime releases = some s' ∧
    ∀ i, (s'.tables i).kept =
      if (s.tables i).TimedOut w currentTime then (s.tables i).expired.kept else (s.tables i).kept

/-- **When it does that.** If there are tables whose time is over, then their filters can be
released, and only the sections of the table that `g_table` points to have to be reset: the others
are clear, and if its own time is not over, it is clear as well. -/
def Orderly : Prop :=
  (∀ i, (s.tables i).TimedOut w currentTime →
    releases i = true ∧ (i ≠ s.gTable → (s.tables i).Clear)) ∧
  ((∃ i, (s.tables i).TimedOut w currentTime) →
    ¬ (s.tables s.gTable).TimedOut w currentTime → (s.tables s.gTable).Clear)

/-! ## The loop -/

variable {w currentTime releases s}

/-- The tables after those of a list have been looked at. -/
def after (w : WaitTimes) (currentTime : ℕ) (releases : Fin n → Bool) (s : SiTables n)
    (l : List (Fin n)) (i : Fin n) : SiTable :=
  let t := if i ∈ l ∧ (s.tables i).TimedOut w currentTime then (s.tables i).lapse (releases i)
    else s.tables i
  if i = s.gTable ∧ ∃ j ∈ l, (s.tables j).TimedOut w currentTime then t.clearRecords else t

theorem visit_of_not_timedOut {i : Fin n} (h : ¬ (s.tables i).TimedOut w currentTime) :
    s.visit w currentTime releases i = some s := by
  rw [visit]
  split_ifs with hfilter htime
  · rfl
  · rfl
  · rw [not_or] at hfilter
    exact absurd ⟨hfilter.1, hfilter.2, Int.not_lt.mp htime⟩ h

/-- A table whose time is over is done with, but its sections are not reset unless `g_table` points
to it. -/
theorem visit_of_timedOut (releases : Fin n → Bool) {i : Fin n}
    (h : (s.tables i).TimedOut w currentTime) :
    ∃ s', s.visit w currentTime releases i = some s' ∧ s'.gTable = s.gTable ∧ ∀ j, s'.tables j =
      let t := if j = i then (s.tables j).lapse (releases i) else s.tables j
      if j = s.gTable then t.clearRecords else t := by
  obtain ⟨hfilter, hmode, htime⟩ := h
  let s₁ := s.set i ((s.tables i).setTablesAcquired.releaseFilter (releases i))
  let s₂ := s₁.set s.gTable (s₁.tables s.gTable).clearRecords
  refine ⟨s₂.set i ((s₂.tables i).goto .waitTableRevision), ?_, rfl, fun j => ?_⟩
  · rw [visit]
    dsimp only
    rw [if_neg (not_or.mpr ⟨hfilter, hmode⟩), if_neg (Int.not_lt.mpr htime),
      SiTable.resetSectionArray_of_ne hmode]
    rfl
  · dsimp only [set, s₁, s₂]
    rcases eq_or_ne j i with rfl | hji
    · rw [Function.update_self, if_pos rfl]
      rcases eq_or_ne j s.gTable with hg | hg
      · rw [if_pos hg, ← hg, Function.update_self, Function.update_self]
        rfl
      · rw [if_neg hg, Function.update_of_ne hg, Function.update_self]
        rfl
    · rw [Function.update_of_ne hji, if_neg hji]
      rcases eq_or_ne j s.gTable with hg | hg
      · rw [if_pos hg, ← hg, Function.update_self, Function.update_of_ne hji]
      · rw [if_neg hg, Function.update_of_ne hg, Function.update_of_ne hji]

/-- A table whose time is not over makes no difference. -/
theorem after_cons_of_not_timedOut {a : Fin n} {l : List (Fin n)}
    (h : ¬ (s.tables a).TimedOut w currentTime) (i : Fin n) :
    after w currentTime releases s (a :: l) i = after w currentTime releases s l i := by
  have hmem : i ∈ a :: l ∧ (s.tables i).TimedOut w currentTime ↔
      i ∈ l ∧ (s.tables i).TimedOut w currentTime := by
    refine and_congr_left fun htime => ?_
    rw [List.mem_cons]
    exact or_iff_right fun hi => h (hi ▸ htime)
  have hsome : (i = s.gTable ∧ ∃ j ∈ a :: l, (s.tables j).TimedOut w currentTime) ↔
      i = s.gTable ∧ ∃ j ∈ l, (s.tables j).TimedOut w currentTime := by
    refine and_congr_right fun _ => ⟨?_, fun ⟨j, hj, hjt⟩ => ⟨j, List.mem_cons_of_mem a hj, hjt⟩⟩
    rintro ⟨j, hj, hjt⟩
    rcases List.mem_cons.mp hj with rfl | hj
    · exact absurd hjt h
    · exact ⟨j, hj, hjt⟩
  rw [after, after, if_congr hmem rfl rfl, if_congr hsome rfl rfl]

theorem after_of_ne {l : List (Fin n)} {i : Fin n} (h : i ≠ s.gTable) :
    after w currentTime releases s l i =
      if i ∈ l ∧ (s.tables i).TimedOut w currentTime then (s.tables i).lapse (releases i)
      else s.tables i :=
  if_neg fun h' => h h'.1

theorem after_of_eq {l : List (Fin n)} {i j : Fin n} (h : i = s.gTable) (hj : j ∈ l)
    (htime : (s.tables j).TimedOut w currentTime) :
    after w currentTime releases s l i =
      (if i ∈ l ∧ (s.tables i).TimedOut w currentTime then (s.tables i).lapse (releases i)
      else s.tables i).clearRecords :=
  if_pos ⟨h, j, hj, htime⟩

/-- If the sections of a table are reset already, to reset them once more does nothing. -/
theorem after_of_clearRecords {l : List (Fin n)} {i : Fin n} {t : SiTable}
    (h : s.tables i = t.clearRecords) :
    after w currentTime releases s l i =
      if i ∈ l ∧ t.TimedOut w currentTime then (t.lapse (releases i)).clearRecords
      else t.clearRecords := by
  have htime : t.clearRecords.TimedOut w currentTime ↔ t.TimedOut w currentTime := Iff.rfl
  rw [after, h, if_congr (and_congr_right fun _ => htime) rfl rfl]
  by_cases hdone : i ∈ l ∧ t.TimedOut w currentTime
  · rw [if_pos hdone, if_pos hdone, ← SiTable.clearRecords_lapse, SiTable.clearRecords_clearRecords]
    exact ite_self _
  · rw [if_neg hdone, if_neg hdone, SiTable.clearRecords_clearRecords]
    exact ite_self _

/-- The first of the tables has been looked at, and its time is over. -/
theorem after_cons_of_timedOut {a : Fin n} {l : List (Fin n)} {s₁ : SiTables n} (ha : a ∉ l)
    (h : (s.tables a).TimedOut w currentTime) (hg : s₁.gTable = s.gTable)
    (htables : ∀ j, s₁.tables j =
      let t := if j = a then (s.tables j).lapse (releases a) else s.tables j
      if j = s.gTable then t.clearRecords else t) (i : Fin n) :
    after w currentTime releases s₁ l i = after w currentTime releases s (a :: l) i := by
  have hti := htables i
  rcases eq_or_ne i a with rfl | hia
  · -- it is not looked at again
    have hmem : i ∈ i :: l ∧ (s.tables i).TimedOut w currentTime := ⟨List.mem_cons_self, h⟩
    rw [if_pos rfl] at hti
    rcases eq_or_ne i s.gTable with hi | hi
    · rw [if_pos hi] at hti
      rw [after_of_eq hi List.mem_cons_self h, if_pos hmem, after_of_clearRecords hti,
        if_neg fun h => ha h.1]
    · rw [if_neg hi] at hti
      rw [after_of_ne hi, after_of_ne (hg ▸ hi), if_pos hmem, if_neg fun h => ha h.1, hti]
  · rw [if_neg hia] at hti
    have hmem : i ∈ l ∧ (s.tables i).TimedOut w currentTime ↔
        i ∈ a :: l ∧ (s.tables i).TimedOut w currentTime := by
      rw [List.mem_cons, or_iff_right hia]
    rcases eq_or_ne i s.gTable with hi | hi
    · rw [if_pos hi] at hti
      rw [after_of_eq hi List.mem_cons_self h, after_of_clearRecords hti, if_congr hmem rfl rfl]
      split_ifs <;> rfl
    · rw [if_neg hi] at hti
      rw [after_of_ne hi, after_of_ne (hg ▸ hi), hti, if_congr hmem rfl rfl]

/-- **The run of the loop.** Each table is looked at once. -/
theorem foldlM_visit (w : WaitTimes) (currentTime : ℕ) (releases : Fin n → Bool) :
    ∀ (l : List (Fin n)) (s : SiTables n), l.Nodup →
    ∃ s', l.foldlM (visit w currentTime releases) s = some s' ∧
      ∀ i, s'.tables i = after w currentTime releases s l i := by
  intro l
  induction l with
  | nil =>
    intro s _
    refine ⟨s, rfl, fun i => ?_⟩
    have hnone : ¬ (i = s.gTable ∧ ∃ j ∈ [], (s.tables j).TimedOut w currentTime) :=
      fun ⟨_, _, hj, _⟩ => List.not_mem_nil hj
    rw [after, if_neg hnone, if_neg fun h => List.not_mem_nil h.1]
  | cons a l ih =>
    intro s hl
    obtain ⟨ha, hl⟩ := List.nodup_cons.mp hl
    by_cases htime : (s.tables a).TimedOut w currentTime
    · obtain ⟨s₁, hs₁, hg, htables⟩ := visit_of_timedOut releases htime
      obtain ⟨s', hs', hafter⟩ := ih s₁ hl
      refine ⟨s', ?_, fun i => ?_⟩
      · rw [List.foldlM_cons, hs₁]
        exact hs'
      · rw [hafter]
        exact after_cons_of_timedOut ha htime hg htables i
    · obtain ⟨s', hs', hafter⟩ := ih s hl
      refine ⟨s', ?_, fun i => ?_⟩
      · rw [List.foldlM_cons, visit_of_not_timedOut htime]
        exact hs'
      · rw [hafter, after_cons_of_not_timedOut htime]

/-! ## The check -/

/-- A table is left as it should be, in the four cases. -/
theorem kept_after_iff (i : Fin n) :
    (after w currentTime releases s (List.finRange n) i).kept =
        (if (s.tables i).TimedOut w currentTime then (s.tables i).expired.kept
          else (s.tables i).kept) ↔
      ((s.tables i).TimedOut w currentTime →
        releases i = true ∧ (i ≠ s.gTable → (s.tables i).Clear)) ∧
      (¬ (s.tables i).TimedOut w currentTime → i = s.gTable →
        (∃ j, (s.tables j).TimedOut w currentTime) → (s.tables i).Clear) := by
  have hmem : ∀ j, j ∈ List.finRange n := List.mem_finRange
  by_cases htime : (s.tables i).TimedOut w currentTime
  · have hfilter := htime.1
    rw [if_pos htime]
    rcases eq_or_ne i s.gTable with hi | hi
    · rw [after_of_eq hi (hmem i) htime, if_pos ⟨hmem i, htime⟩,
        SiTable.kept_lapse_clearRecords_iff hfilter]
      exact ⟨fun h => ⟨fun _ => ⟨h, fun hne => absurd hi hne⟩, fun hnot => absurd htime hnot⟩,
        fun h => (h.1 htime).1⟩
    · rw [after_of_ne hi, if_pos ⟨hmem i, htime⟩, SiTable.kept_lapse_eq_expired_iff hfilter]
      exact ⟨fun h => ⟨fun _ => ⟨h.1, fun _ => h.2⟩, fun hnot => absurd htime hnot⟩,
        fun h => ⟨(h.1 htime).1, (h.1 htime).2 hi⟩⟩
  · have hdone : ¬ (i ∈ List.finRange n ∧ (s.tables i).TimedOut w currentTime) := fun h => htime h.2
    rw [if_neg htime]
    by_cases hreset : i = s.gTable ∧ ∃ j, (s.tables j).TimedOut w currentTime
    · obtain ⟨hi, j, hj⟩ := hreset
      rw [after_of_eq hi (hmem j) hj, if_neg hdone, SiTable.kept_clearRecords_iff]
      exact ⟨fun h => ⟨fun h' => absurd h' htime, fun _ _ _ => h⟩, fun h => h.2 htime hi ⟨j, hj⟩⟩
    · have hnone : ¬ (i = s.gTable ∧ ∃ j ∈ List.finRange n, (s.tables j).TimedOut w currentTime) :=
        fun ⟨hi, j, _, hj⟩ => hreset ⟨hi, j, hj⟩
      rw [after, if_neg hnone, if_neg hdone]
      exact iff_of_true rfl ⟨fun h' => absurd h' htime, fun _ hi hsome => absurd ⟨hi, hsome⟩ hreset⟩

/-- **The check does what it is for exactly if `g_table` points to the table in question.** -/
theorem deadlines_kept_iff (w : WaitTimes) (currentTime : ℕ) (releases : Fin n → Bool)
    (s : SiTables n) :
    s.Behaves w currentTime releases ↔ s.Orderly w currentTime releases := by
  obtain ⟨s', hs', hafter⟩ :=
    foldlM_visit w currentTime releases (List.finRange n) s (List.nodup_finRange n)
  have hall : s.Behaves w currentTime releases ↔ ∀ i, (s'.tables i).kept =
      if (s.tables i).TimedOut w currentTime then (s.tables i).expired.kept
      else (s.tables i).kept := by
    constructor
    · rintro ⟨s'', hs'', h⟩
      obtain rfl := Option.some.inj (hs'.symm.trans hs'')
      exact h
    · exact fun h => ⟨s', hs', h⟩
  rw [hall, Orderly]
  simp only [hafter, kept_after_iff]
  constructor
  · exact fun h => ⟨fun i => (h i).1, fun hsome hnot => (h s.gTable).2 hnot rfl hsome⟩
  · rintro ⟨htimed, hg⟩ i
    exact ⟨htimed i, fun hnot hi hsome => hi ▸ hg hsome (hi ▸ hnot)⟩

/-- A second each. -/
def oneSecond : WaitTimes := ⟨1000, 1000, 1000, 1000, 1000⟩

/-- The carrier definitions have been waited for for an hour, with a section seen often enough, and
the modulation modes were handled last. -/
def carriersOverdue : SiTables 5 where
  tables i :=
    let t := SiTable.initial
      (match i with | 0 => .nitCds | 1 => .nitMms | 2 => .svctVcm | 3 => .svctDcm | 4 => .nttSns)
    if i = 0 then
      { t with
        tableUniqueId := 7, revType := .crc, tableState := .waitTableComplete, numberSections := 1
        sections := fun _ => { sectionAcquired := true, crcSectionMatchCount := 2 } }
    else t
  gTable := 1

/-- The filter is released, and the section is still marked as acquired. -/
theorem carriersOverdue_not_reset :
    ¬ carriersOverdue.Behaves oneSecond 3600000 fun _ => true := by
  rintro ⟨s', hs', htables⟩
  have hmark : (carriersOverdue.checkForTableAcquisitionTimeouts oneSecond 3600000
      fun _ => true).map (fun s => ((s.tables 0).sections 0).sectionAcquired) = some true := by
    decide
  rw [hs'] at hmark
  have htable := htables 0
  rw [if_pos (by decide)] at htable
  have hsection := congrFun (congrArg SiTable.sections htable) 0
  have hfalse : ((s'.tables 0).sections 0).sectionAcquired = false :=
    congrArg SiTableSection.sectionAcquired hsection
  rw [Option.map_some, hfalse] at hmark
  cases hmark

end SiTables

end MediaFramework
