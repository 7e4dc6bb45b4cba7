import MediaFramework.Inb.PatEntries

/-!
# The calls of the PAT parser

What a call of `parse_and_update_PAT` comes to, for every section: the header is refused; or the
section is too short for its header; or the programs are refused, or looked at for ever; or it is an
association table, and the update is made with its programs.

`PatMgr.serves_iff` is the exact condition on the section, and on what is stored before, under which
the call ends, reads and copies no more than there is, and succeeds for the association tables.
-/

namespace MediaFramework

/-! ## The header of a section -/

namespace PsiSection

variable {s : PsiSection}

/-- The entries the loop looks at. -/
def entries (s : PsiSection) : List PatEntry := patLooked (s.bytes.drop 8)

/-- The header of the section, once parsed. -/
def patHead (s : PsiSection) : PatHeader :=
  ⟨s.value 3 <<< 8 ||| s.value 4, s.version, s.size - 8⟩

/-- What the parser has of an association table. -/
def patParse (s : PsiSection) (entries : List PatEntry) : PatParse :=
  ⟨s.patHead, entries.foldl PatPrograms.enter ⟨0, fun _ => ⟨0, 0⟩⟩, s.crc32⟩

/-- The checks of the header, of a section that has the bytes they look at. -/
theorem patSectionLength_eq (h : 3 ≤ s.size) : patSectionLength s =
    if s.value 0 ≠ 0 then .error (.error 1)
    else if getBits (s.value 1) 8 8 = 0 then .error (.error 3)
    else if 1021 < getBits (s.value 1) 4 1 <<< 8 ||| s.value 2 then .error (.error 2)
    else if minus s.size 3 ≠ getBits (s.value 1) 4 1 <<< 8 ||| s.value 2 then .error (.error 3)
    else .ok (getBits (s.value 1) 4 1 <<< 8 ||| s.value 2) := by
  rw [patSectionLength, octet_eq_value (by omega), octet_eq_value (by omega),
    octet_eq_value (by omega)]
  rfl

/-- A section of less than three bytes has no section length. -/
theorem patSectionLength_short (h : s.size < 3) (n : ℕ) : patSectionLength s ≠ .ok n := by
  have h₃ : s.octet 3 = .error .outside := octet_overread (by omega)
  intro hn
  rw [patSectionLength] at hn
  rcases h₁ : s.octet 1 with stop | b₁
  · rw [h₁] at hn
    cases hn
  · rcases h₂ : s.octet 2 with stop | b₂
    · simp only [h₁, h₂, bind, Except.bind] at hn
      split_ifs at hn
    · simp only [h₁, h₂, h₃, bind, Except.bind] at hn
      split_ifs at hn

/-- **The header.** The checks pass for the headers that fit, and for no others. -/
theorem patSectionLength_iff {n : ℕ} :
    patSectionLength s = .ok n ↔ s.PatFits ∧ n = s.size - 3 := by
  by_cases h : 3 ≤ s.size
  · rw [patSectionLength_eq h, minus_of_le h]
    constructor
    · intro hn
      split_ifs at hn with h₁ h₂ h₃ h₄
      have hn := Except.ok.inj hn
      exact ⟨⟨h, Decidable.not_not.mp h₁, h₂, by omega, (Decidable.not_not.mp h₄).symm⟩,
        by rw [← hn, ← Decidable.not_not.mp h₄]⟩
    · rintro ⟨⟨-, h₁, h₂, h₃, h₄⟩, rfl⟩
      rw [if_neg (not_not.mpr h₁), if_neg h₂, if_neg (by omega), if_neg (by omega), h₄]
  · exact ⟨fun hn => absurd hn (patSectionLength_short (by omega) n),
      fun hn => absurd hn.1.three_le h⟩

/-- The checks of the header end the call with an error, and within the section. -/
def headerRefused (s : PsiSection) : Bool :=
  match patSectionLength s with
  | .error (.error _) => true
  | _ => false

/-- The errors of the header have codes. -/
theorem raises_patSectionLength (s : PsiSection) : Raises (· ≠ 0) (patSectionLength s) := by
  refine (raises_byte s 0).bind fun _ => Raises.ite (raises_error (by decide)) ?_
  refine (raises_byte s 1).bind fun _ => Raises.ite (raises_error (by decide)) ?_
  refine (raises_byte s 2).bind fun _ => Raises.ite (raises_error (by decide)) ?_
  exact Raises.ite (raises_error (by decide)) (raises_ok _)

/-! ## Association tables and their entries -/

/-- What follows the header is entries, and four to seven bytes more. -/
theorem exists_layout (h : 12 ≤ s.size) : ∃ (entries : List PatEntry) (tail : List UInt8),
    s.bytes.drop 8 = entries.flatMap PatEntry.octets ++ tail ∧ 4 ≤ tail.length ∧
      tail.length < 8 := by
  refine exists_patEntries (s.bytes.drop 8).length (Nat.le_refl _) ?_
  rw [List.length_drop]
  exact Nat.le_sub_of_add_le h

theorem length_patEntries (entries : List PatEntry) :
    (entries.flatMap PatEntry.octets).length = 4 * entries.length := by
  induction entries with
  | nil => rfl
  | cons e entries ih =>
    rw [List.flatMap_cons, List.length_append, ih, PatEntry.length_octets, List.length_cons]
    omega

variable {entries : List PatEntry} {tail : List UInt8}

/-- The size of the section, by its parts. -/
theorem size_eq (hat : s.bytes.drop 8 = entries.flatMap PatEntry.octets ++ tail)
    (htail : 4 ≤ tail.length) : s.size = 8 + (4 * entries.length + tail.length) := by
  have h := congrArg List.length hat
  rw [List.length_drop, List.length_append, length_patEntries] at h
  rw [size]
  omega

theorem entries_eq (hat : s.bytes.drop 8 = entries.flatMap PatEntry.octets ++ tail)
    (htail : 4 ≤ tail.length) : s.entries = entries ++ patLooked tail := by
  rw [PsiSection.entries, hat, patLooked_entries]
  rintro rfl
  cases htail

/-- Behind a CRC there is nothing more to look at. -/
theorem patLooked_crc (h : tail.length = 4) : patLooked tail = [] := by
  rcases tail with _ | ⟨_, _ | ⟨_, _ | ⟨_, _ | ⟨_, _ | ⟨_, _⟩⟩⟩⟩⟩
  · rfl
  · rfl
  · rfl
  · rfl
  · rfl
  · simp only [List.length_cons] at h
    omega

namespace IsPat

theorem drop_eq (h : s.IsPat entries) : ∃ crc, crc.length = 4 ∧
    s.bytes.drop 8 = entries.flatMap PatEntry.octets ++ crc := by
  obtain ⟨head, crc, hhead, hcrc, hbytes⟩ := h.layout
  refine ⟨crc, hcrc, ?_⟩
  rw [hbytes, ← hhead, List.drop_left]

/-- The entries of an association table are those the loop looks at. -/
theorem entries_eq (h : s.IsPat entries) : s.entries = entries := by
  obtain ⟨crc, hcrc, hat⟩ := h.drop_eq
  rw [PsiSection.entries_eq hat (by omega), patLooked_crc hcrc, List.append_nil]

theorem size_eq (h : s.IsPat entries) : s.size = 12 + 4 * entries.length := by
  obtain ⟨crc, hcrc, hat⟩ := h.drop_eq
  have := PsiSection.size_eq hat (by omega)
  omega

/-- Entries with valid PIDs, and just a CRC behind them. -/
theorem of_drop (hfits : s.PatFits)
    (hat : s.bytes.drop 8 = entries.flatMap PatEntry.octets ++ tail) (htail : tail.length = 4)
    (hpids : ∀ e ∈ entries, validPid e.pid = true) : s.IsPat entries where
  fits := hfits
  layout := by
    have hsize := PsiSection.size_eq hat (by omega)
    rw [PsiSection.size] at hsize
    refine ⟨s.bytes.take 8, tail, ?_, htail, ?_⟩
    · rw [List.length_take]
      omega
    · rw [← hat, List.take_append_drop]
  pids := hpids

end IsPat

/-- **Association tables.** Of the sections whose header fits, they are those that hold a CRC, a whole
number of entries before it and valid PIDs in them. -/
theorem exists_isPat_iff (hfits : s.PatFits) : (∃ entries, s.IsPat entries) ↔
    12 ≤ s.size ∧ (s.size - 12) % 4 = 0 ∧ ∀ e ∈ s.entries, validPid e.pid = true := by
  constructor
  · rintro ⟨entries, h⟩
    have hsize := h.size_eq
    exact ⟨by omega, by omega, by rw [h.entries_eq]; exact h.pids⟩
  · rintro ⟨h12, hmod, hpids⟩
    obtain ⟨entries, tail, hat, h4, h8⟩ := exists_layout h12
    have hsize := size_eq hat h4
    have htail : tail.length = 4 := by omega
    rw [PsiSection.entries_eq hat h4, patLooked_crc htail, List.append_nil] at hpids
    exact ⟨entries, IsPat.of_drop hfits hat htail hpids⟩

/-- The section is an association table. -/
def IsAssociation (s : PsiSection) : Prop :=
  s.PatFits ∧ 12 ≤ s.size ∧ (s.size - 12) % 4 = 0 ∧ ∀ e ∈ s.entries, validPid e.pid = true

instance (s : PsiSection) : Decidable s.IsAssociation :=
  inferInstanceAs (Decidable (_ ∧ _))

/-- Of the entries the loop looks at. -/
theorem IsAssociation.isPat (h : s.IsAssociation) : s.IsPat s.entries := by
  obtain ⟨entries, hpat⟩ := (exists_isPat_iff h.1).mpr h.2
  rw [hpat.entries_eq]
  exact hpat

end PsiSection

/-! ## The parts of a call -/

/-- The count of sections, loaded if none was expected. -/
def PatMgr.expected (m : PatMgr) (s : PsiSection) : PatMgr :=
  if m.num_sections = 0 then { m with num_sections := s.lastSectionNumber + 1 } else m

section Parts

open PsiSection

variable {m : PatMgr} {s : PsiSection}

theorem expect_eq (h : 8 ≤ s.size) : m.expect s = .ok (m.expected s) := by
  rw [PatMgr.expect, PatMgr.expected, octet_eq_value (by omega)]
  split_ifs <;> rfl

theorem patHeader_eq (h : 6 ≤ s.size) (n : ℕ) : patHeader s n =
    if minus n 5 < 4 then .error (.error 5)
    else .ok ⟨s.value 3 <<< 8 ||| s.value 4, s.version, minus n 5⟩ := by
  rw [patHeader, octet_eq_value (by omega), octet_eq_value (by omega), octet_eq_value (by omega)]
  rw [ok_bind, ok_bind, ok_bind, PsiSection.version]
  rfl

theorem patHeader_overread (h : s.size < 6) (n : ℕ) : patHeader s n = .error .outside := by
  have h₆ : s.octet 6 = .error .outside := octet_overread (by omega)
  rw [patHeader]
  rcases byte_cases s 3 with ⟨-, n₄, h₄⟩ | ⟨-, h₄⟩
  · rcases byte_cases s 4 with ⟨-, n₅, h₅⟩ | ⟨-, h₅⟩
    · rw [octet, h₄, octet, h₅, h₆]
      rfl
    · rw [octet, h₄, octet, h₅]
      rfl
  · rw [octet, h₄]
    rfl

/-- The loop looks beyond the section at once. -/
theorem patBody_overread {l : PatLoop} (hlen : 4 < l.section_length) (h : s.size ≤ l.pos) :
    patBody s l = .inl (.error .outside) := by
  rw [patBody, if_pos hlen, word_overread h]

end Parts

namespace PatMgr

open PsiSection

variable {m : PatMgr} {call : PatCall} (fuel : ℕ) {entries : List PatEntry} {tail : List UInt8}

/-- The header is refused. -/
theorem parse_refused {stop : PsiStop} (h : patSectionLength call.sect = .error stop) :
    m.parseAndUpdatePAT fuel call = some (stop.patEnding m) := by
  rw [parseAndUpdatePAT, h]

/-- **No room for the header.** The length of the header is taken off a shorter length, or a field is
read that is not there. -/
theorem parse_headless (hfits : call.sect.PatFits) (h : call.sect.size < 8) :
    m.parseAndUpdatePAT (fuel + 1) call = some .overread := by
  rw [parseAndUpdatePAT, patSectionLength_iff.mpr ⟨hfits, rfl⟩]
  by_cases hn : m.num_sections = 0
  · have hexpect : m.expect call.sect = .error .outside := by
      rw [expect, if_pos hn, octet_overread (by omega)]
      rfl
    simp only [hexpect, PsiStop.patEnding]
  · have hexpect : m.expect call.sect = .ok m := by rw [expect, if_neg hn]
    simp only [hexpect]
    by_cases h6 : call.sect.size < 6
    · rw [patHeader_overread h6]
      rfl
    · have hlen : 4 < minus (call.sect.size - 3) 5 := by
        rw [minus_of_lt (by omega)]
        omega
      rw [patHeader_eq (by omega), if_neg (by omega)]
      dsimp only
      have hpos : call.sect.size ≤ 8 := by omega
      rw [iterate_leave (patBody_overread hlen hpos)]
      rfl

/-- No room for the CRC. -/
theorem parse_noCrc (hfits : call.sect.PatFits) (h8 : 8 ≤ call.sect.size)
    (h : call.sect.size < 12) :
    m.parseAndUpdatePAT fuel call = some (.returned 5 (m.expected call.sect) []) := by
  rw [parseAndUpdatePAT, patSectionLength_iff.mpr ⟨hfits, rfl⟩]
  simp only [expect_eq h8]
  rw [patHeader_eq (by omega), if_pos (by rw [minus_of_le (by omega)]; omega)]
  rfl

/-- The call comes to the loop. -/
theorem parse_loop (hfits : call.sect.PatFits) (h : 12 ≤ call.sect.size) :
    m.parseAndUpdatePAT fuel call = (iterate (patBody call.sect) fuel call.sect.patHead.loop).map
      ((m.expected call.sect).finish call call.sect.patHead) := by
  have hlt := call.sect.size_lt
  have hlen : minus (call.sect.size - 3) 5 = call.sect.size - 8 := by
    rw [minus_of_le (by omega)]
    omega
  rw [parseAndUpdatePAT, patSectionLength_iff.mpr ⟨hfits, rfl⟩]
  simp only [expect_eq (show 8 ≤ call.sect.size by omega)]
  rw [patHeader_eq (by omega), hlen, if_neg (by omega)]
  rfl

section Laid

variable (hfits : call.sect.PatFits)
  (hat : call.sect.bytes.drop 8 = entries.flatMap PatEntry.octets ++ tail)
  (h4 : 4 ≤ tail.length) (h8 : tail.length < 8)

theorem loop_lt : call.sect.patHead.loop.section_length < 2 ^ 32 :=
  Nat.lt_of_le_of_lt (Nat.sub_le _ _) call.sect.size_lt

include hat

theorem loop_length : call.sect.patHead.loop.section_length =
    (entries.flatMap PatEntry.octets ++ tail).length := by
  rw [← hat, List.length_drop]
  rfl

/-- Where the loop is when it has gone past the entries. -/
theorem drop_entries : call.sect.bytes.drop (call.sect.patHead.loop.pos + 4 * entries.length) =
    tail := by
  rw [← List.drop_drop]
  refine (congrArg (List.drop _) hat).trans ?_
  rw [← length_patEntries, List.drop_left]

include h4

theorem twelve_le : 12 ≤ call.sect.size := by
  have := PsiSection.size_eq hat h4
  omega

include hfits h8

/-- **A PID is refused.** -/
theorem parse_badPid (hbad : ∃ e ∈ call.sect.entries, validPid e.pid = false) :
    m.parseAndUpdatePAT (fuel + entries.length + 1) call =
      some (.returned 7 (m.expected call.sect) []) := by
  rw [PsiSection.entries_eq hat h4] at hbad
  rw [parse_loop _ hfits (twelve_le hat h4), iterate_patInvalid h4 fuel entries (loop_length hat)
    loop_lt hat hbad h8]
  rfl

/-- **The programs never end.** -/
theorem parse_endless (hragged : 4 < tail.length)
    (hpids : ∀ e ∈ call.sect.entries, validPid e.pid = true) :
    m.parseAndUpdatePAT (fuel + entries.length) call = none := by
  rw [PsiSection.entries_eq hat h4] at hpids
  rw [parse_loop _ hfits (twelve_le hat h4), iterate_patEntries h4 fuel entries (loop_length hat)
    loop_lt hat fun e he => hpids e (List.mem_append_left _ he),
    iterate_patRagged hragged h8 rfl ?_ fun e he => hpids e (List.mem_append_right _ he)]
  · rfl
  · exact drop_entries hat

end Laid

/-- The CRC is read where the loop leaves. -/
theorem patParsed_eq {l : PatLoop} (hlen : l.section_length = 4)
    (hpos : call.sect.size = l.pos + 4) (header : PatHeader) :
    patParsed call.sect header l = .ok ⟨header, l.found, call.sect.crc32⟩ := by
  rw [patParsed, if_neg (not_not.mpr hlen), PsiSection.crc_eq hpos]
  rfl

/-- **An association table.** Its programs are found, and the update is made. -/
theorem parse_isPat (h : call.sect.IsPat entries) :
    m.parseAndUpdatePAT (fuel + 1 + entries.length) call =
      some ((m.expected call.sect).update call.memory (call.sect.patParse entries)) := by
  obtain ⟨crc, hcrc, hat⟩ := h.drop_eq
  have h4 : 4 ≤ crc.length := by omega
  have hsize : call.sect.size = 8 + 4 * entries.length + 4 := by
    have := h.size_eq
    omega
  have hleave : ∀ l : PatLoop, l.section_length = crc.length →
      patBody call.sect l = .inl (.ok l) := by
    intro l hl
    rw [patBody, if_neg (by omega)]
  rw [parse_loop _ h.fits (twelve_le hat h4), iterate_patEntries h4 (fuel + 1) entries
    (loop_length hat) loop_lt hat h.pids, iterate_leave (hleave _ rfl), Option.map_some, finish,
    patParsed_eq hcrc hsize]
  rfl

variable {fuel}

/-- More fuel changes nothing. -/
theorem parse_of_le {fuel' : ℕ} {e : PatEnding} (h : m.parseAndUpdatePAT fuel call = some e)
    (hle : fuel ≤ fuel') : m.parseAndUpdatePAT fuel' call = some e := by
  rw [parseAndUpdatePAT] at h ⊢
  rcases hn : patSectionLength call.sect with stop | n
  · simpa only [hn] using h
  · rcases hm : m.expect call.sect with stop | m₁
    · simpa only [hn, hm] using h
    · rcases hh : patHeader call.sect n with stop | header
      · simpa only [hn, hm, hh] using h
      · simp only [hn, hm, hh] at h ⊢
        obtain ⟨x, hx, he⟩ := Option.map_eq_some_iff.mp h
        rw [iterate_of_le hx hle, Option.map_some, he]

/-- Two answers are the same one. -/
theorem parse_unique {fuel' : ℕ} {e e' : PatEnding}
    (h : m.parseAndUpdatePAT fuel call = some e) (h' : m.parseAndUpdatePAT fuel' call = some e') :
    e = e' := by
  have h₁ := parse_of_le h (Nat.le_max_left fuel fuel')
  have h₂ := parse_of_le h' (Nat.le_max_right fuel fuel')
  exact Option.some.inj (h₁.symm.trans h₂)

/-- **What a call comes to.** It reads outside the section; or the header is refused and nothing
changes; or the section is refused after the count of sections was loaded; or it is an association
table. -/
theorem parse_cases {e : PatEnding} (h : m.parseAndUpdatePAT fuel call = some e) :
    e = .overread ∨
    (∃ code, code ≠ 0 ∧ call.sect.headerRefused = true ∧ e = .returned code m []) ∨
    (∃ code, code ≠ 0 ∧ ¬ call.sect.headerRefused = true ∧ ¬ call.sect.IsAssociation ∧
      e = .returned code (m.expected call.sect) []) ∨
    (call.sect.IsAssociation ∧
      e = (m.expected call.sect).update call.memory (call.sect.patParse call.sect.entries)) := by
  rcases hlen : patSectionLength call.sect with stop | n
  · have hend := parse_unique h (parse_refused fuel hlen)
    cases stop with
    | outside => exact .inl hend
    | error code =>
      exact .inr (.inl ⟨code, raises_patSectionLength _ code hlen, by rw [headerRefused, hlen], hend⟩)
  · obtain ⟨hfits, -⟩ := patSectionLength_iff.mp hlen
    have hfine : ¬ call.sect.headerRefused = true := by
      rw [headerRefused, hlen]
      exact Bool.false_ne_true
    by_cases h8 : 8 ≤ call.sect.size
    · by_cases h12 : call.sect.size < 12
      · have hend := parse_unique h (parse_noCrc fuel hfits h8 h12)
        exact .inr (.inr (.inl ⟨5, by decide, hfine, fun hpat => absurd hpat.2.1
          (Nat.not_le_of_lt h12), hend⟩))
      · obtain ⟨entries, tail, hat, hle, hlt⟩ := exists_layout (Nat.le_of_not_lt h12)
        have hsize := PsiSection.size_eq hat hle
        by_cases hbad : ∃ e ∈ call.sect.entries, validPid e.pid = false
        · have hend := parse_unique h (parse_badPid fuel hfits hat hle hlt hbad)
          refine .inr (.inr (.inl ⟨7, by decide, hfine, fun hpat => ?_, hend⟩))
          obtain ⟨e, he, hpid⟩ := hbad
          rw [hpat.2.2.2 e he] at hpid
          cases hpid
        · have hpids : ∀ e ∈ call.sect.entries, validPid e.pid = true := by
            intro e he
            exact eq_true_of_ne_false fun hpid => hbad ⟨e, he, hpid⟩
          by_cases hmod : (call.sect.size - 12) % 4 = 0
          · have hassoc : call.sect.IsAssociation :=
              ⟨hfits, Nat.le_of_not_lt h12, hmod, hpids⟩
            exact .inr (.inr (.inr ⟨hassoc, parse_unique h (parse_isPat fuel hassoc.isPat)⟩))
          · have hmore := parse_of_le h (Nat.le_add_right fuel entries.length)
            rw [parse_endless fuel hfits hat hle hlt (by omega) hpids] at hmore
            cases hmore
    · exact .inl (parse_unique h (parse_headless fuel hfits (Nat.lt_of_not_le h8)))

/-! ## The update -/

section Update

variable {memory : Bool} {p : PatParse}

/-- No memory for a longer list. -/
theorem update_refused (h : m.isNew p.header.version_number p.crc = true)
    (hmax : m.m_pmtListMaxSize < p.found.number_of_PMTs) (hmem : memory = false) :
    m.update memory p = .returned 25 m.counted [] := by
  have hnew : m.counted.isNew p.header.version_number p.crc = true := h
  rw [update, if_pos hnew]
  exact if_pos ⟨hmax, hmem⟩

/-- Another table is copied. -/
theorem update_new (h : m.isNew p.header.version_number p.crc = true)
    (hmem : memory = true ∨ p.found.number_of_PMTs ≤ m.m_pmtListMaxSize) :
    m.update memory p = m.counted.replace p := by
  have hnew : m.counted.isNew p.header.version_number p.crc = true := h
  rw [update, if_pos hnew]
  refine if_neg ?_
  rintro ⟨hmax, rfl⟩
  rcases hmem with hmem | hmem
  · cases hmem
  · exact absurd hmem (Nat.not_le_of_lt hmax)

theorem replace_overrun (h : 128 < p.found.number_of_PMTs) : m.replace p = .overrun := by
  rw [replace, if_neg (by omega)]

/-- What an update that succeeds makes of the manager. -/
structure Updated (m m' : PatMgr) (p : PatParse) (listed : List PmtInfo) (events : List PatEvent) :
    Prop where
  programs : m'.programs = if m.isNew p.header.version_number p.crc then listed else m.programs
  length : m'.m_pmtListLen =
    if m.isNew p.header.version_number p.crc then listed.length else m.m_pmtListLen
  version : m'.patVersionNumber =
    if m.isNew p.header.version_number p.crc then p.header.version_number else m.patVersionNumber
  count : m'.num_sections = minus m.num_sections 1
  /-- when no section is waited for any more the PAT is available -/
  available : m'.num_sections = 0 → m'.m_bIsPATAvailable = true
  stays : m.m_bIsPATAvailable = true → m'.m_bIsPATAvailable = true
  /-- only then others are told, of a table that is new or was not available -/
  events : events ≠ [] → m'.num_sections = 0 ∧
    (m.isNew p.header.version_number p.crc = true ∨ m.m_bIsPATAvailable = false)

/-- **The update.** With room for the programs it succeeds. -/
theorem update_updated (memory : Bool) {listed : List PmtInfo}
    (hnumber : p.found.number_of_PMTs = listed.length)
    (hload : listed.length ≤ 128 → load p.found.pmtInfo 0 listed.length = listed)
    (hroom : m.isNew p.header.version_number p.crc = true →
      listed.length ≤ 128 ∧ (memory = true ∨ listed.length ≤ m.m_pmtListMaxSize)) :
    ∃ m' events, m.update memory p = .returned 0 m' events ∧ Updated m m' p listed events := by
  rcases hnew : m.isNew p.header.version_number p.crc with _ | _
  · have hknown : ¬ m.counted.isNew p.header.version_number p.crc = true := Bool.eq_false_iff.mp hnew
    rw [update, if_neg hknown]
    by_cases hlast : m.counted.num_sections = 0 ∧ m.counted.m_bIsPATAvailable = false
    · refine ⟨_, _, if_pos hlast, ?_⟩
      exact ⟨by rw [hnew]; rfl, by rw [hnew]; rfl, by rw [hnew]; rfl, rfl, fun _ => rfl,
        fun _ => rfl, fun _ => ⟨hlast.1, .inr hlast.2⟩⟩
    · refine ⟨_, _, if_neg hlast, ?_⟩
      refine ⟨by rw [hnew]; rfl, by rw [hnew]; rfl, by rw [hnew]; rfl, rfl, fun h0 => ?_,
        fun h => h, fun h => absurd rfl h⟩
      exact eq_true_of_ne_false fun h => hlast ⟨h0, h⟩
  · obtain ⟨h128, hmem⟩ := hroom hnew
    have htake : ∀ rest : List PmtInfo, (load p.found.pmtInfo 0 p.found.number_of_PMTs ++ rest).take
        p.found.number_of_PMTs = listed := by
      intro rest
      rw [List.take_left' length_load, hnumber, hload h128]
    rw [update_new hnew (by rw [hnumber]; exact hmem), replace, if_pos (by rw [hnumber]; exact h128)]
    by_cases h0 : m.counted.num_sections = 0
    · refine ⟨_, _, if_pos h0, ?_⟩
      exact ⟨by rw [hnew]; exact htake _, by rw [hnew]; exact hnumber, by rw [hnew]; rfl, rfl,
        fun _ => rfl, fun _ => rfl, fun _ => ⟨h0, .inl hnew⟩⟩
    · refine ⟨_, _, if_neg h0, ?_⟩
      exact ⟨by rw [hnew]; exact htake _, by rw [hnew]; exact hnumber, by rw [hnew]; rfl, rfl,
        fun h => absurd h h0, fun h => h, fun h => absurd rfl h⟩

end Update

/-! ## What a call should do, and when it does -/

/-- **What is expected of a call.** It ends, within the section and the local array; it succeeds for
the association tables and for no other section; and a table that is stored is stored with just its
programs, in order. -/
def Serves (m : PatMgr) (call : PatCall) : Prop :=
  ∃ fuel code m' events, m.parseAndUpdatePAT fuel call = some (.returned code m' events) ∧
    (code = 0 ↔ ∃ entries, call.sect.IsPat entries) ∧
    ∀ entries, code = 0 → call.sect.IsPat entries → m'.programs =
      if m.isNew call.sect.version call.sect.crc32 then patPrograms entries else m.programs

/-- There is room for the programs of a new table: in the local array, and in the list or in
memory. -/
def HasRoom (m : PatMgr) (call : PatCall) : Prop :=
  m.isNew call.sect.version call.sect.crc32 = true →
    (patPrograms call.sect.entries).length ≤ 128 ∧
      (call.memory = true ∨ (patPrograms call.sect.entries).length ≤ m.m_pmtListMaxSize)

instance (m : PatMgr) (call : PatCall) : Decidable (m.HasRoom call) :=
  inferInstanceAs (Decidable (_ → _))

/-- **The condition.** The header is refused, and within the section; or it is whole, and then there
is no room for a CRC, or a PID the loop looks at is invalid, or the programs are a whole number of
entries and there is room for them. -/
def Manages (m : PatMgr) (call : PatCall) : Prop :=
  call.sect.headerRefused = true ∨ call.sect.PatFits ∧ 8 ≤ call.sect.size ∧
    (call.sect.size < 12 ∨ (∃ e ∈ call.sect.entries, validPid e.pid = false) ∨
      (call.sect.size - 12) % 4 = 0 ∧ m.HasRoom call)

/-- A call that answers otherwise does not serve. -/
theorem not_serves {e : PatEnding} (h : m.parseAndUpdatePAT fuel call = some e)
    (he : ∀ code m' events, e ≠ .returned code m' events) : ¬ m.Serves call := by
  rintro ⟨fuel', code, m', events, h', -⟩
  exact he code m' events (parse_unique h h')

/-- A call that refuses serves the sections that are no association table. -/
theorem serves_refused {code : ℕ} {m' : PatMgr} {events : List PatEvent}
    (h : m.parseAndUpdatePAT fuel call = some (.returned code m' events)) (hcode : code ≠ 0)
    (hnot : ¬ ∃ entries, call.sect.IsPat entries) : m.Serves call :=
  ⟨fuel, code, m', events, h, iff_of_false hcode hnot, fun _ h0 _ => absurd h0 hcode⟩

/-- What the count of sections is loaded with is all that `expected` changes. -/
theorem expected_eq (m : PatMgr) (s : PsiSection) :
    ∃ n, m.expected s = { m with num_sections := n } := by
  rw [expected]
  split_ifs
  · exact ⟨_, rfl⟩
  · exact ⟨m.num_sections, rfl⟩

/-- The programs of an association table, as they were found. -/
theorem found_isPat (h : call.sect.IsPat entries) :
    (call.sect.patParse entries).found.number_of_PMTs = (patPrograms entries).length ∧
    ((patPrograms entries).length ≤ 128 →
      load (call.sect.patParse entries).found.pmtInfo 0 (patPrograms entries).length =
        patPrograms entries) := by
  refine found_patEntries ?_ fun _ => ⟨0, 0⟩
  have h₁ := h.size_eq
  have h₂ := call.sect.size_lt
  rw [← PsiSection.size] at h₂
  omega

/-- For an association table everything depends on the room there is. -/
theorem serves_isPat (h : call.sect.IsPat entries) : m.Serves call ↔ m.HasRoom call := by
  have hparse := parse_isPat (m := m) 0 h
  obtain ⟨hnumber, hload⟩ := found_isPat h
  obtain ⟨n, hexpected⟩ := expected_eq m call.sect
  rw [hexpected] at hparse
  rw [HasRoom, h.entries_eq]
  by_cases hroom : m.isNew call.sect.version call.sect.crc32 = true →
      (patPrograms entries).length ≤ 128 ∧
        (call.memory = true ∨ (patPrograms entries).length ≤ m.m_pmtListMaxSize)
  · obtain ⟨m', events, hup, hupdated⟩ := update_updated (m := { m with num_sections := n })
      call.memory hnumber hload hroom
    refine iff_of_true ⟨_, 0, m', events, hparse.trans (congrArg some hup),
      iff_of_true rfl ⟨entries, h⟩, fun entries' _ h' => ?_⟩ hroom
    obtain rfl := h'.entries_eq.symm.trans h.entries_eq
    exact hupdated.programs
  · refine iff_of_false ?_ hroom
    obtain ⟨hnew, hsmall⟩ := Classical.not_imp.mp hroom
    by_cases hmem : call.memory = true ∨ (patPrograms entries).length ≤ m.m_pmtListMaxSize
    · -- the copy is of more entries than the array has
      have h128 : 128 < (patPrograms entries).length :=
        Nat.lt_of_not_le fun h128 => hsmall ⟨h128, hmem⟩
      rw [update_new hnew (by rw [hnumber]; exact hmem),
        replace_overrun (by rw [hnumber]; exact h128)] at hparse
      exact not_serves hparse (by simp)
    · obtain ⟨hmemory, hlong⟩ := not_or.mp hmem
      rw [update_refused hnew (by rw [hnumber]; exact Nat.lt_of_not_le hlong)
        (Bool.eq_false_iff.mpr hmemory)] at hparse
      rintro ⟨fuel', code, m', events, hanswer, hcode, -⟩
      have hend := parse_unique hanswer hparse
      injection hend with hend
      have := hcode.mpr ⟨entries, h⟩
      omega

/-- **The PAT parser.** A call does what is expected of it exactly under the condition. -/
theorem serves_iff (m : PatMgr) (call : PatCall) : m.Serves call ↔ m.Manages call := by
  rcases hlen : patSectionLength call.sect with stop | n
  · have hunfit : ¬ call.sect.PatFits := by
      intro hfits
      have := hlen.symm.trans (patSectionLength_iff.mpr ⟨hfits, rfl⟩)
      cases this
    have hanswer := parse_refused (m := m) 0 hlen
    cases stop with
    | outside =>
      refine iff_of_false (not_serves hanswer (by simp [PsiStop.patEnding])) ?_
      rintro (hrefused | ⟨hfits, -⟩)
      · rw [headerRefused, hlen] at hrefused
        cases hrefused
      · exact hunfit hfits
    | error code =>
      refine iff_of_true (serves_refused hanswer (raises_patSectionLength _ code hlen) ?_) (.inl ?_)
      · rintro ⟨entries, hpat⟩
        exact hunfit hpat.fits
      · rw [headerRefused, hlen]
  · obtain ⟨hfits, -⟩ := patSectionLength_iff.mp hlen
    have hrefused : ¬ call.sect.headerRefused = true := by
      rw [headerRefused, hlen]
      exact Bool.false_ne_true
    rw [Manages, or_iff_right hrefused, and_iff_right hfits]
    by_cases h8 : 8 ≤ call.sect.size
    · rw [and_iff_right h8]
      by_cases h12 : call.sect.size < 12
      · refine iff_of_true (serves_refused (parse_noCrc 0 hfits h8 h12) (by decide) ?_)
          (.inl h12)
        intro hpat
        exact absurd ((exists_isPat_iff hfits).mp hpat).1 (Nat.not_le_of_lt h12)
      · rw [or_iff_right h12]
        have h12' : 12 ≤ call.sect.size := Nat.le_of_not_lt h12
        obtain ⟨entries, tail, hat, hle, hlt⟩ := exists_layout h12'
        have hsize := PsiSection.size_eq hat hle
        by_cases hbad : ∃ e ∈ call.sect.entries, validPid e.pid = false
        · refine iff_of_true (serves_refused (parse_badPid 0 hfits hat hle hlt hbad)
            (by decide) ?_) (.inl hbad)
          intro hpat
          obtain ⟨e, he, hpid⟩ := hbad
          rw [((exists_isPat_iff hfits).mp hpat).2.2 e he] at hpid
          cases hpid
        · rw [or_iff_right hbad]
          have hpids : ∀ e ∈ call.sect.entries, validPid e.pid = true := by
            intro e he
            exact eq_true_of_ne_false fun hpid => hbad ⟨e, he, hpid⟩
          by_cases hmod : (call.sect.size - 12) % 4 = 0
          · rw [and_iff_right hmod]
            obtain ⟨entries, hpat⟩ := (exists_isPat_iff hfits).mpr ⟨h12', hmod, hpids⟩
            exact serves_isPat hpat
          · -- bytes are left over: no fuel is enough
            refine iff_of_false ?_ fun h => hmod h.1
            rintro ⟨fuel, code, m', events, hanswer, -⟩
            have hmore := parse_of_le hanswer (Nat.le_add_right fuel entries.length)
            rw [parse_endless fuel hfits hat hle hlt (by omega) hpids] at hmore
            cases hmore
    · refine iff_of_false (not_serves (parse_headless 0 hfits (by omega)) (by simp)) ?_
      exact fun h => h8 h.1

/-- A table with one program, and a byte too many. -/
def raggedPat : PsiSection where
  bytes := [0x00, 0xB0, 0x0A, 0x00, 0x01, 0xC1, 0x00, 0x00, 0x00, 0x01, 0xE0, 0x20, 0x55]
  size_lt := by decide

/-- The call for such a section does not end. -/
theorem not_serves_raggedPat : ¬ ∀ (m : PatMgr) (call : PatCall), m.Serves call := by
  intro h
  obtain ⟨fuel, code, m', events, hanswer, -⟩ := h .created ⟨raggedPat, true⟩
  have hmore := @parse_endless .created ⟨raggedPat, true⟩ fuel [] [0x00, 0x01, 0xE0, 0x20, 0x55]
    (by decide +kernel) rfl (by decide) (by decide) (by decide) (by decide +kernel)
  have := hanswer.symm.trans hmore
  cases this

end PatMgr

end MediaFramework
