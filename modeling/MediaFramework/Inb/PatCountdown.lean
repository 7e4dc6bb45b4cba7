import Mathlib.Data.List.Sort
import MediaFramework.Inb.PatCalls
import MediaFramework.Lib.Run

/-!
# The countdown of the PAT sections

A table may come in several sections. `parse_and_update_PAT` keeps the number of sections still to
come, loads it from `last_section_number` when it is zero and counts it down with every section that
it parses; at zero the PAT is available. It does not look at `section_number`, and every section
replaces the list of programs.

So a section that is repeated, that stands in for a lost one or that belongs to the next version is
counted like any other, and of several sections with programs the last one alone is in the list.
Beside the manager this module keeps the sections counted since the count was loaded, and the section
whose programs are in the list. `PatRun.behaves_of_orderly` says when the list is right nevertheless.
-/

namespace MediaFramework

/-! ## The run of sections -/

/-- The manager, and what it has been given. -/
structure PatRun where
  mgr : PatMgr
  /-- the sections parsed since the count was loaded -/
  counted : List PsiSection
  /-- the section whose programs are in the list -/
  stored : Option PsiSection
  deriving DecidableEq

namespace PatRun

/-- Before the first section. -/
def start : PatRun := ⟨.created, [], none⟩

/-- The sections counted, this one included. -/
def round (r : PatRun) (s : PsiSection) : List PsiSection :=
  (if r.mgr.num_sections = 0 then [] else r.counted) ++ [s]

/-- The section whose programs are in the list when this one has been parsed. -/
def keeps (r : PatRun) (s : PsiSection) : Option PsiSection :=
  if r.mgr.isNew s.version s.crc32 then some s else r.stored

/-- What is answered to a section. Its size is fuel enough. -/
def answer (r : PatRun) (call : PatCall) : Option PatEnding :=
  r.mgr.parseAndUpdatePAT (call.sect.size + 1) call

/-- A section is handled. -/
def receive (r : PatRun) (call : PatCall) : Option PatRun :=
  match r.answer call with
  | some (.returned code m _) => some
      { mgr := m
        counted :=
          if code = 0 then r.round call.sect else if r.mgr.num_sections = 0 then [] else r.counted
        stored := if code = 0 then r.keeps call.sect else r.stored }
  | _ => none

/-! ## What is expected -/

/-- The sections of one table, in the order of their numbers: `s` is one of them. -/
structure IsTable (table : List PsiSection) (s : PsiSection) : Prop where
  numbers : table.map PsiSection.sectionNumber = List.range (s.lastSectionNumber + 1)
  version : ∀ t ∈ table, t.version = s.version
  last : ∀ t ∈ table, t.lastSectionNumber = s.lastSectionNumber

instance (table : List PsiSection) (s : PsiSection) : Decidable (IsTable table s) :=
  decidable_of_iff (table.map PsiSection.sectionNumber = List.range (s.lastSectionNumber + 1) ∧
      (∀ t ∈ table, t.version = s.version) ∧
      ∀ t ∈ table, t.lastSectionNumber = s.lastSectionNumber)
    ⟨fun ⟨h₁, h₂, h₃⟩ => ⟨h₁, h₂, h₃⟩, fun ⟨h₁, h₂, h₃⟩ => ⟨h₁, h₂, h₃⟩⟩

/-- The programs of the sections of a table. -/
def tablePrograms (table : List PsiSection) : List PmtInfo :=
  table.flatMap fun t => patPrograms t.entries

/-- The sections counted are those of one table, each parsed once, and the list is of their programs
and as long. -/
def Complete (r : PatRun) (s : PsiSection) (m : PatMgr) : Prop :=
  ∃ table, table.Perm (r.round s) ∧ IsTable table s ∧ m.programs = tablePrograms table ∧
    m.m_pmtListLen = (tablePrograms table).length

/-- A section that is refused changes nothing. -/
structure Unchanged (m m' : PatMgr) : Prop where
  list : m'.m_pmtInfoList = m.m_pmtInfoList
  length : m'.m_pmtListLen = m.m_pmtListLen
  version : m'.patVersionNumber = m.patVersionNumber
  crc : m'.patCRC = m.patCRC
  count : m'.num_sections = m.num_sections

/-- The answers that are expected to a section. -/
def Expected (r : PatRun) (s : PsiSection) : PatEnding → Prop
  | .overread => True
  | .overrun => False
  | .returned code m events =>
    (events ≠ [] → r.Complete s m) ∧ (code ≠ 0 → Unchanged r.mgr m)

/-- **What is expected of a call.** If the PAT is marked available, or notified, then the table is
complete; and a section that is refused changes nothing. -/
def Behaves (r : PatRun) (call : PatCall) : Prop :=
  ∀ ending ∈ r.answer call, r.Expected call.sect ending

/-! ## The condition -/

/-- The last section that is waited for, of a table that is new or not available yet. -/
def Publishes (r : PatRun) (s : PsiSection) : Prop :=
  (r.mgr.expected s).num_sections = 1 ∧
    (r.mgr.isNew s.version s.crc32 = true ∨ r.mgr.m_bIsPATAvailable = false)

instance (r : PatRun) (s : PsiSection) : Decidable (r.Publishes s) :=
  inferInstanceAs (Decidable (_ ∧ _))

/-- The sections counted, in the order of their numbers. -/
def sorted (r : PatRun) (s : PsiSection) : List PsiSection :=
  (r.round s).insertionSort fun t u => t.sectionNumber ≤ u.sectionNumber

/-- All the programs are in the section that is kept. -/
def OneLists (r : PatRun) (s : PsiSection) : Prop :=
  ∀ t ∈ r.round s, r.keeps s ≠ some t → patPrograms t.entries = []

instance (r : PatRun) (s : PsiSection) : Decidable (r.OneLists s) :=
  inferInstanceAs (Decidable (∀ t ∈ r.round s, _))

/-- **The condition.** A section whose programs are refused comes while sections are waited for. There
is room for the programs of the others. And when the last section that is waited for is parsed, those
that were counted are one table, and all the programs are in the one that is kept. -/
def Orderly (r : PatRun) (call : PatCall) : Prop :=
  if call.sect.IsAssociation then
    r.mgr.HasRoom call ∧
      (r.Publishes call.sect → IsTable (r.sorted call.sect) call.sect ∧ r.OneLists call.sect)
  else call.sect.headerRefused = true ∨ r.mgr.num_sections ≠ 0

instance (r : PatRun) (call : PatCall) : Decidable (r.Orderly call) :=
  inferInstanceAs (Decidable (ite _ _ _))

/-! ## Tables whose programs are in one section -/

/-- Of a list without repetition, all but one of whose elements stand for nothing. -/
theorem flatMap_eq_of_others {α β : Type} {f : α → List β} {a : α} : ∀ {l : List α}, l.Nodup →
    a ∈ l → (∀ b ∈ l, b ≠ a → f b = []) → l.flatMap f = f a := by
  intro l
  induction l with
  | nil =>
    intro _ ha
    cases ha
  | cons b l ih =>
    intro hnd ha hothers
    rw [List.nodup_cons] at hnd
    rw [List.flatMap_cons]
    by_cases hb : b = a
    · subst hb
      have htail : l.flatMap f = [] := by
        refine List.flatMap_eq_nil_iff.mpr fun c hc => ?_
        refine hothers c (List.mem_cons_of_mem b hc) ?_
        rintro rfl
        exact hnd.1 hc
      rw [htail, List.append_nil]
    · rw [hothers b List.mem_cons_self hb, List.nil_append]
      exact ih hnd.2 ((List.mem_cons.mp ha).resolve_left fun h => hb h.symm)
        fun c hc => hothers c (List.mem_cons_of_mem b hc)

variable {r : PatRun} {s t : PsiSection}

theorem perm_sorted (r : PatRun) (s : PsiSection) : (r.sorted s).Perm (r.round s) :=
  List.perm_insertionSort _ _

/-- The programs of the table are those of the section that is kept. -/
theorem tablePrograms_sorted (htable : IsTable (r.sorted s) s) (hone : r.OneLists s)
    (hkept : r.keeps s = some t) (ht : t ∈ r.round s) :
    tablePrograms (r.sorted s) = patPrograms t.entries := by
  have hnd : (r.sorted s).Nodup := by
    refine List.Nodup.of_map PsiSection.sectionNumber ?_
    rw [htable.numbers]
    exact List.nodup_range
  refine flatMap_eq_of_others (f := fun u : PsiSection => patPrograms u.entries) hnd
    ((perm_sorted r s).mem_iff.mpr ht) fun u hu hne => ?_
  refine hone u ((perm_sorted r s).mem_iff.mp hu) ?_
  rw [hkept]
  exact fun h => hne (Option.some.inj h).symm

/-! ## The invariant -/

/-- The list has the programs of the section that is kept, and as long as the PAT is not available
that section is among those counted. -/
structure Inv (r : PatRun) : Prop where
  programs : r.mgr.programs = (r.stored.map fun t => patPrograms t.entries).getD []
  length : r.mgr.m_pmtListLen = r.mgr.programs.length
  fresh : r.stored = none → r.mgr.patVersionNumber = initTableVersion
  awaited : r.mgr.m_bIsPATAvailable = false → ∀ t ∈ r.stored, t ∈ r.counted ∧ r.mgr.num_sections ≠ 0

theorem inv_start : start.Inv where
  programs := rfl
  length := rfl
  fresh := fun _ => rfl
  awaited := fun _ _ ht => nomatch ht

/-- A table that is not new has a section that is kept. -/
theorem Inv.exists_stored (hI : r.Inv) (hnew : r.mgr.isNew s.version s.crc32 = false) :
    ∃ t, r.stored = some t := by
  refine Option.ne_none_iff_exists'.mp fun hnone => ?_
  rw [PatMgr.isNew, hI.fresh hnone] at hnew
  cases hnew

/-- What is counted down to. -/
theorem count_eq_one {m : PatMgr} (h : minus (m.expected s).num_sections 1 = 0) :
    (m.expected s).num_sections = 1 := by
  have hpos : 0 < (m.expected s).num_sections := by
    rw [PatMgr.expected]
    split_ifs with h0
    · exact Nat.succ_pos _
    · exact Nat.pos_of_ne_zero h0
  rw [minus_of_le hpos] at h
  omega

/-- **The table.** When the last section is counted, the list has the programs of all that were. -/
theorem complete_of_kept {call : PatCall} {m' : PatMgr} (h : r.Orderly call)
    (hassoc : call.sect.IsAssociation) (hpub : r.Publishes call.sect)
    (hkept : r.keeps call.sect = some t) (ht : t ∈ r.round call.sect)
    (hprograms : m'.programs = patPrograms t.entries)
    (hlength : m'.m_pmtListLen = m'.programs.length) : r.Complete call.sect m' := by
  rw [Orderly, if_pos hassoc] at h
  obtain ⟨htable, hone⟩ := h.2 hpub
  have hall := tablePrograms_sorted htable hone hkept ht
  exact ⟨r.sorted call.sect, perm_sorted r _, htable, by rw [hprograms, hall],
    by rw [hlength, hprograms, hall]⟩

/-- **A section of a table.** The list is complete when others are told, and the invariant is kept. -/
theorem Inv.parsed {call : PatCall} {m' : PatMgr} {events : List PatEvent} (hI : r.Inv)
    (h : r.Orderly call) (hassoc : call.sect.IsAssociation)
    (hup : PatMgr.Updated (r.mgr.expected call.sect) m' (call.sect.patParse call.sect.entries)
      (patPrograms call.sect.entries) events) :
    (events ≠ [] → r.Complete call.sect m') ∧
      Inv ⟨m', r.round call.sect, r.keeps call.sect⟩ := by
  have hlast : events ≠ [] → r.Publishes call.sect := by
    intro hevents
    obtain ⟨h0, hwhy⟩ := hup.events hevents
    obtain ⟨n, hn⟩ := PatMgr.expected_eq r.mgr call.sect
    refine ⟨count_eq_one (hup.count.symm.trans h0), ?_⟩
    rw [hn] at hwhy
    exact hwhy
  obtain ⟨n, hn⟩ := PatMgr.expected_eq r.mgr call.sect
  rw [hn] at hup
  rcases hnew : r.mgr.isNew call.sect.version call.sect.crc32 with _ | _
  · -- the list stays
    obtain ⟨t, hstored⟩ := hI.exists_stored hnew
    have hkept : r.keeps call.sect = some t := by
      rw [keeps, hnew]
      exact hstored
    have hprograms : m'.programs = r.mgr.programs := hup.programs.trans (if_neg (by
      exact Bool.eq_false_iff.mp hnew))
    have hlength : m'.m_pmtListLen = r.mgr.m_pmtListLen := hup.length.trans (if_neg (by
      exact Bool.eq_false_iff.mp hnew))
    have hlist : r.mgr.programs = patPrograms t.entries := by
      rw [hI.programs, hstored]
      rfl
    have hlen : m'.m_pmtListLen = m'.programs.length := by rw [hlength, hI.length, hprograms]
    -- as long as the PAT is not available the section that is kept is counted
    have hmem : r.mgr.m_bIsPATAvailable = false → t ∈ r.round call.sect := by
      intro hunavailable
      obtain ⟨ht, hcount⟩ := hI.awaited hunavailable t hstored
      rw [round, if_neg hcount]
      exact List.mem_append_left _ ht
    refine ⟨fun hevents => ?_, ⟨?_, hlen, ?_, ?_⟩⟩
    · have hpub := hlast hevents
      refine complete_of_kept h hassoc hpub hkept (hmem ?_) (hprograms.trans hlist) hlen
      rcases hpub.2 with hisNew | hunavailable
      · rw [hnew] at hisNew
        cases hisNew
      · exact hunavailable
    · rw [hkept]
      exact hprograms.trans hlist
    · intro hnone
      rw [hkept] at hnone
      cases hnone
    · intro hunavailable u hu
      rw [hkept] at hu
      cases hu
      refine ⟨hmem (eq_false_of_ne_true fun havail => ?_), fun h0 => ?_⟩
      · exact Bool.false_ne_true (hunavailable.symm.trans (hup.stays havail))
      · exact Bool.false_ne_true (hunavailable.symm.trans (hup.available h0))
  · -- the list is replaced
    have hkept : r.keeps call.sect = some call.sect := if_pos hnew
    have hprograms : m'.programs = patPrograms call.sect.entries := hup.programs.trans (if_pos hnew)
    have hlength : m'.m_pmtListLen = (patPrograms call.sect.entries).length :=
      hup.length.trans (if_pos hnew)
    have hlen : m'.m_pmtListLen = m'.programs.length := by rw [hlength, hprograms]
    have hmem : call.sect ∈ r.round call.sect :=
      List.mem_append_right _ (List.mem_singleton.mpr rfl)
    refine ⟨fun hevents => complete_of_kept h hassoc (hlast hevents) hkept hmem hprograms hlen,
      ⟨?_, hlen, ?_, ?_⟩⟩
    · rw [hkept]
      exact hprograms
    · intro hnone
      rw [hkept] at hnone
      cases hnone
    · intro hunavailable u hu
      rw [hkept] at hu
      cases hu
      exact ⟨hmem, fun h0 => Bool.false_ne_true (hunavailable.symm.trans (hup.available h0))⟩

/-- A section that is refused. -/
theorem Inv.refused (hI : r.Inv) :
    Inv { r with counted := if r.mgr.num_sections = 0 then [] else r.counted } where
  programs := hI.programs
  length := hI.length
  fresh := hI.fresh
  awaited := by
    intro hunavailable t ht
    obtain ⟨hmem, hne⟩ := hI.awaited hunavailable t ht
    exact ⟨by rw [if_neg hne]; exact hmem, hne⟩

/-- **One section.** An orderly call behaves, and keeps the invariant. -/
theorem Inv.call {call : PatCall} (hI : r.Inv) (h : r.Orderly call) :
    r.Behaves call ∧ ∀ r' ∈ r.receive call, r'.Inv := by
  by_cases hassoc : call.sect.IsAssociation
  · -- an association table, with room for its programs
    have hroom : r.mgr.HasRoom call := by
      rw [Orderly, if_pos hassoc] at h
      exact h.1
    obtain ⟨hnumber, hload⟩ := PatMgr.found_isPat hassoc.isPat
    obtain ⟨n, hn⟩ := PatMgr.expected_eq r.mgr call.sect
    obtain ⟨m', events, hup, hupdated⟩ := PatMgr.update_updated (m := { r.mgr with num_sections := n })
      call.memory hnumber hload hroom
    rw [← hn] at hup hupdated
    have hanswer : r.answer call = some (.returned 0 m' events) := by
      have hfuel : 0 + 1 + call.sect.entries.length ≤ call.sect.size + 1 := by
        have := hassoc.isPat.size_eq
        omega
      exact PatMgr.parse_of_le ((PatMgr.parse_isPat 0 hassoc.isPat).trans (congrArg some hup)) hfuel
    obtain ⟨hcomplete, hinv⟩ := hI.parsed h hassoc hupdated
    refine ⟨fun ending hending => ?_, fun r' hr' => ?_⟩
    · obtain rfl := Option.some.inj (hanswer.symm.trans hending)
      exact ⟨hcomplete, fun h0 => absurd rfl h0⟩
    · rw [receive, hanswer] at hr'
      cases hr'
      exact hinv
  · rw [Orderly, if_neg hassoc] at h
    have hending : ∀ ending, r.answer call = some ending →
        ending = .overread ∨ ∃ code, code ≠ 0 ∧ ending = .returned code r.mgr [] := by
      intro ending hanswer
      rcases PatMgr.parse_cases hanswer with rfl | ⟨code, hcode, -, rfl⟩ |
        ⟨code, hcode, hfine, -, rfl⟩ | ⟨hpat, -⟩
      · exact .inl rfl
      · exact .inr ⟨code, hcode, rfl⟩
      · refine .inr ⟨code, hcode, ?_⟩
        rw [PatMgr.expected, if_neg (h.resolve_left hfine)]
      · exact absurd hpat hassoc
    refine ⟨fun ending hanswer => ?_, fun r' hr' => ?_⟩
    · rcases hending ending hanswer with rfl | ⟨code, -, rfl⟩
      · exact trivial
      · exact ⟨fun h0 => absurd rfl h0, fun _ => ⟨rfl, rfl, rfl, rfl, rfl⟩⟩
    · rw [receive] at hr'
      rcases hanswer : r.answer call with _ | ending
      · rw [hanswer] at hr'
        cases hr'
      · rw [hanswer] at hr'
        rcases hending ending hanswer with rfl | ⟨code, hcode, rfl⟩
        · cases hr'
        · cases hr'
          have hrefused := hI.refused
          simpa only [if_neg hcode] using hrefused

/-- **The countdown.** In a run of sections that all meet the condition, whenever the PAT is marked
available or notified the list has exactly the programs of one table, each of its sections parsed
once; and sections that are refused change nothing. -/
theorem behaves_of_orderly {calls : List PatCall} (h : EachStep receive Orderly start calls) :
    EachStep receive Behaves start calls := by
  have hboth := EachStep.and_invariant (I := Inv) (fun r call r' hI horderly hr' =>
    (hI.call horderly).2 r' hr') h inv_start
  exact EachStep.mono (fun r call hstep => (hstep.1.call hstep.2).1) hboth

/-- A section of a table with one program in it. -/
def onePat (number last version program : UInt8) : PsiSection where
  bytes := [0x00, 0xB0, 0x0D, 0x00, 0x01, version, number, last, 0x00, program, 0xE0, 0x20,
    version, number, program, 0x00]
  size_lt := by simp

/-- The second of two sections, without programs. -/
def emptyPat : PsiSection where
  bytes := [0x00, 0xB0, 0x09, 0x00, 0x01, 0xC1, 0x01, 0x01, 0xC1, 0x01, 0x77, 0x00]
  size_lt := by simp

/-- A table of two sections, the one without programs first; then a table of one section in the
next version. -/
theorem behaves_of_orderly_twoSections : EachStep receive Behaves start
    [⟨emptyPat, true⟩, ⟨onePat 0 1 0xC1 1, true⟩, ⟨onePat 0 0 0xC3 2, true⟩] :=
  behaves_of_orderly (by decide +kernel)

/-- A table of two sections: the list has the programs of the second alone. -/
theorem not_behaves_twoSections :
    ¬ ∀ calls : List PatCall, EachStep receive Behaves start calls := by
  intro h
  obtain ⟨-, hnext⟩ := h [⟨onePat 0 1 0xC1 1, true⟩, ⟨onePat 1 1 0xC1 2, true⟩]
  obtain ⟨hbehaves, -⟩ := hnext _ rfl
  obtain ⟨hcomplete, -⟩ := hbehaves _ rfl
  obtain ⟨table, hperm, -, hprograms, -⟩ := hcomplete (by decide +kernel)
  have hlen := congrArg List.length hprograms
  rw [tablePrograms, (hperm.flatMap_right _).length_eq] at hlen
  revert hlen
  decide +kernel

end PatRun

end MediaFramework
