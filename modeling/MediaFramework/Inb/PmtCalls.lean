import MediaFramework.Inb.PmtStored

/-!
# The calls of the PMT parser

What a call of `parse_and_update_PMT` comes to, for every section: the header is refused; or the
streams are; or they run out without leaving a CRC, and the call reads on behind the section; or the
table is accepted, and stored if it is new and nobody is using the descriptors.

`PmtMgr.serves_iff_manages` is the exact condition on the section, and on what is stored before, under which
the call ends within the section, changes nothing unless it succeeds, and stores a new table as it
is.
-/

namespace MediaFramework

/-! ## The header of a section -/

namespace PsiSection

/-- `pcr_pid` -/
def pcrPid (s : PsiSection) : ℕ := (s.value 8 &&& 0x1F) <<< 8 ||| s.value 9

/-- `program_info_length` -/
def programInfoLength (s : PsiSection) : ℕ := (s.value 10 &&& 0x0F) <<< 8 ||| s.value 11

/-- The bytes for the outer descriptors. -/
def programInfo (s : PsiSection) : List UInt8 := (s.bytes.drop 12).take s.programInfoLength

/-- The bytes for the streams, and the CRC. -/
def pmtBytes (s : PsiSection) : List UInt8 := s.bytes.drop (12 + s.programInfoLength)

/-- The header is one of a program map table, and goes with the size. -/
structure PmtFits (s : PsiSection) : Prop where
  /-- a header, and something behind it -/
  size_gt : 12 < s.size
  size_le : s.size ≤ 1024
  table_id : s.value 0 = 0x02
  section_syntax_indicator : getBits (s.value 1) 8 8 ≠ 0
  section_length : getBits (s.value 1) 4 1 <<< 8 ||| s.value 2 = s.size - 3
  section_number : s.value 6 = 0
  last_section_number : s.value 7 = 0
  pcr_pid : ¬ (1 < s.pcrPid ∧ s.pcrPid < 0x0010)
  program_info_length : 12 + s.programInfoLength ≤ s.size

/-- The header of the section, once parsed. -/
def pmtHead (s : PsiSection) : PmtHeader :=
  ⟨s.version, s.pcrPid, s.programInfoLength, s.size - 12 - s.programInfoLength⟩

variable {s : PsiSection}

/-- The checks of the header, of a section that has the bytes they look at. -/
theorem pmtHeader_eq (h : 12 ≤ s.size) : pmtHeader s =
    if s.value 0 ≠ 0x02 then .error (.error 2)
    else if getBits (s.value 1) 8 8 = 0 then .error (.error 3)
    else if 1021 < getBits (s.value 1) 4 1 <<< 8 ||| s.value 2 ∨
      getBits (s.value 1) 4 1 <<< 8 ||| s.value 2 < 9 then .error (.error 6)
    else if minus s.size 3 ≠ getBits (s.value 1) 4 1 <<< 8 ||| s.value 2 then .error (.error 7)
    else if s.value 6 ≠ 0 then .error (.error 10)
    else if s.value 7 ≠ 0 then .error (.error 11)
    else if 1 < s.pcrPid ∧ s.pcrPid < 0x0010 then .error (.error 13)
    else if 1023 < s.programInfoLength then .error (.error 15)
    else if (getBits (s.value 1) 4 1 <<< 8 ||| s.value 2) - 9 = 0 ∨
      (getBits (s.value 1) 4 1 <<< 8 ||| s.value 2) - 9 < s.programInfoLength then .error (.error 16)
    else .ok ⟨s.version, s.pcrPid, s.programInfoLength,
      (getBits (s.value 1) 4 1 <<< 8 ||| s.value 2) - 9 - s.programInfoLength⟩ := by
  rw [pmtHeader, octet_eq_value (by omega), octet_eq_value (by omega), octet_eq_value (by omega),
    octet_eq_value (by omega), octet_eq_value (by omega), octet_eq_value (by omega),
    octet_eq_value (by omega), octet_eq_value (by omega), octet_eq_value (by omega),
    octet_eq_value (by omega)]
  rfl

/-- A part of a parser that comes to its end has passed its check. -/
theorem check_eq_ok {α : Type} {c : Prop} [Decidable c] {stop : PsiStop} {x : Except PsiStop α}
    {a : α} (h : (if c then .error stop else x) = .ok a) : x = .ok a := by
  by_cases hc : c
  · rw [if_pos hc] at h
    cases h
  · rw [if_neg hc] at h
    exact h

/-- A header that passes is whole. -/
theorem twelve_le_of_pmtHeader {h : PmtHeader} (hok : pmtHeader s = .ok h) : 12 ≤ s.size := by
  obtain ⟨_, -, hok⟩ := bind_eq_ok hok
  obtain ⟨_, -, hok⟩ := bind_eq_ok (check_eq_ok hok)
  obtain ⟨_, -, hok⟩ := bind_eq_ok (check_eq_ok hok)
  obtain ⟨_, -, hok⟩ := bind_eq_ok (check_eq_ok (check_eq_ok hok))
  obtain ⟨_, -, hok⟩ := bind_eq_ok hok
  obtain ⟨_, -, hok⟩ := bind_eq_ok (check_eq_ok hok)
  obtain ⟨_, -, hok⟩ := bind_eq_ok (check_eq_ok hok)
  obtain ⟨_, -, hok⟩ := bind_eq_ok hok
  obtain ⟨_, -, hok⟩ := bind_eq_ok (check_eq_ok hok)
  obtain ⟨_, hoctet, -⟩ := bind_eq_ok hok
  exact (byte_eq_ok hoctet).1

/-- **The header.** The checks pass for the headers that fit, and for no others. -/
theorem pmtHeader_iff {h : PmtHeader} : pmtHeader s = .ok h ↔ s.PmtFits ∧ h = s.pmtHead := by
  constructor
  · intro hok
    have h12 := twelve_le_of_pmtHeader hok
    rw [pmtHeader_eq h12, minus_of_le (by omega)] at hok
    split_ifs at hok with h₁ h₂ h₃ h₄ h₅ h₆ h₇ h₈ h₉
    have hlen := (Decidable.not_not.mp h₄).symm
    rw [hlen] at h₃ h₉ hok
    exact ⟨⟨by omega, by omega, Decidable.not_not.mp h₁, h₂, hlen, Decidable.not_not.mp h₅,
      Decidable.not_not.mp h₆, h₇, by omega⟩, (Except.ok.inj hok).symm.trans (by rw [pmtHead]; rfl)⟩
  · rintro ⟨hfits, rfl⟩
    have h₁ := hfits.size_gt
    have h₂ := hfits.size_le
    have h₃ := hfits.program_info_length
    rw [pmtHeader_eq (by omega), minus_of_le (by omega), hfits.section_length,
      if_neg (not_not.mpr hfits.table_id), if_neg hfits.section_syntax_indicator,
      if_neg (by omega), if_neg (not_not.mpr rfl), if_neg (not_not.mpr hfits.section_number),
      if_neg (not_not.mpr hfits.last_section_number), if_neg hfits.pcr_pid, if_neg (by omega),
      if_neg (by omega)]
    rfl

/-- The checks of the header end the call with an error, and within the section. -/
def pmtRefused (s : PsiSection) : Bool :=
  match pmtHeader s with
  | .error (.error _) => true
  | _ => false

/-- The errors of the header have codes. -/
theorem raises_pmtHeader (s : PsiSection) : Raises (· ≠ 0) (pmtHeader s) := by
  refine (raises_byte s 0).bind fun _ => Raises.ite (raises_error (by decide)) ?_
  refine (raises_byte s 1).bind fun _ => Raises.ite (raises_error (by decide)) ?_
  refine (raises_byte s 2).bind fun _ => Raises.ite (raises_error (by decide)) ?_
  refine Raises.ite (raises_error (by decide)) ?_
  refine (raises_byte s 5).bind fun _ => ?_
  refine (raises_byte s 6).bind fun _ => Raises.ite (raises_error (by decide)) ?_
  refine (raises_byte s 7).bind fun _ => Raises.ite (raises_error (by decide)) ?_
  refine (raises_byte s 8).bind fun _ => ?_
  refine (raises_byte s 9).bind fun _ => Raises.ite (raises_error (by decide)) ?_
  refine (raises_byte s 10).bind fun _ => ?_
  refine (raises_byte s 11).bind fun _ => Raises.ite (raises_error (by decide)) ?_
  exact Raises.ite (raises_error (by decide)) (raises_ok _)

end PsiSection

/-! ## The loop over the outer descriptors -/

section Outer

variable {s : PsiSection} {w : OuterWalk} {rest : List UInt8}

/-- A descriptor is gone past, and its length taken off. The loop does not look whether there is so
much to take it off. -/
theorem outerDescriptor_cases (s : PsiSection) (w : OuterWalk) :
    outerDescriptor s w = .error .outside ∨ ∃ tag length content,
      s.byte (w.pos + 1) = .ok length ∧ w.pos + 2 + length ≤ s.size ∧
      outerDescriptor s w = .ok ⟨minus16 (minus16 w.outer_desc_len 2) length, w.pos + 2 + length,
        w.outer_descriptors ++ [⟨tag, content⟩]⟩ := by
  rw [outerDescriptor]
  rcases s.byte_cases w.pos with ⟨-, tag, htag⟩ | ⟨-, htag⟩
  · rcases s.byte_cases (w.pos + 1) with ⟨-, length, hlength⟩ | ⟨-, hlength⟩
    · rw [htag, hlength]
      by_cases hfits : w.pos + 2 + length ≤ s.size
      · have hcopy : s.copy (w.pos + 2) length = .ok ((s.bytes.drop (w.pos + 2)).take length) :=
          if_pos hfits
        refine .inr ⟨tag, length, (s.bytes.drop (w.pos + 2)).take length, rfl, hfits, ?_⟩
        rw [PsiSection.ok_bind, PsiSection.ok_bind, hcopy]
        rfl
      · have hcopy : s.copy (w.pos + 2) length = .error .outside := if_neg hfits
        rw [PsiSection.ok_bind, PsiSection.ok_bind, hcopy]
        exact .inl rfl
    · rw [htag, hlength]
      exact .inl rfl
  · rw [htag]
    exact .inl rfl

theorem le_minus16 (n k : ℕ) : n ≤ minus16 n k + k := by
  rw [minus16]
  split_ifs <;> omega

/-- **Past the section.** Once more is to go past than there is, the loop goes on to the end of the
section and reads there. -/
theorem outer_overshoot (h0 : w.outer_desc_len ≠ 0) (h : s.size < w.pos + w.outer_desc_len) :
    Leaves (outerBody s) w (.error .outside) := by
  have hround : ∀ w, w.outer_desc_len ≠ 0 ∧ s.size < w.pos + w.outer_desc_len →
      (∃ r, outerBody s w = .inl r ∧ r = .error .outside) ∨
        ∃ w', outerBody s w = .inr w' ∧
          (w'.outer_desc_len ≠ 0 ∧ s.size < w'.pos + w'.outer_desc_len) ∧
          s.size + 2 - w'.pos < s.size + 2 - w.pos := by
    rintro w ⟨h0, h⟩
    rw [outerBody, if_neg h0]
    rcases outerDescriptor_cases s w with hout | ⟨tag, length, content, -, hfits, hok⟩
    · rw [hout]
      exact .inl ⟨_, rfl, rfl⟩
    · have h₁ := le_minus16 w.outer_desc_len 2
      have h₂ := le_minus16 (minus16 w.outer_desc_len 2) length
      rw [hok]
      exact .inr ⟨_, rfl, ⟨by dsimp only; omega, by dsimp only; omega⟩, by dsimp only; omega⟩
  obtain ⟨r, hr, rfl⟩ := exists_iterate _ hround ⟨h0, h⟩ (Nat.lt_succ_self _)
  exact ⟨_, hr⟩

/-- **Descriptors of the length that is said.** They are stored. -/
theorem outer_stored (hrest : rest ≠ []) : ∀ (ds : List DescriptorBytes) {w : OuterWalk},
    w.outer_desc_len = (descriptorOctets ds).length →
    s.bytes.drop w.pos = descriptorOctets ds ++ rest →
    Leaves (outerBody s) w (.ok (w.outer_descriptors ++ ds.map DescriptorBytes.info)) := by
  intro ds
  induction ds with
  | nil =>
    intro w hlen _
    rw [List.map_nil, List.append_nil]
    exact Leaves.of_leave (if_pos hlen)
  | cons d ds ih =>
    intro w hlen hat
    rw [descriptorOctets_cons, List.length_append, d.length_octets] at hlen
    rw [descriptorOctets_cons, List.append_assoc] at hat
    have htag : s.byte w.pos = .ok d.tag.toNat := PsiSection.byte_of_drop (k := 0) hat rfl
    have hlength : s.byte (w.pos + 1) = .ok d.content.length := by
      rw [PsiSection.byte_of_drop (k := 1) hat rfl, d.toNat_length]
    have hcontent := copy_content hat (List.append_ne_nil_of_right_ne_nil _ hrest)
    have hleft : minus16 (minus16 w.outer_desc_len 2) d.content.length =
        (descriptorOctets ds).length := by
      rw [minus16, minus16, if_pos (show 2 ≤ w.outer_desc_len by omega), if_pos (by omega)]
      omega
    have hround : outerBody s w = .inr ⟨(descriptorOctets ds).length, w.pos + 2 + d.content.length,
        w.outer_descriptors ++ [d.info]⟩ := by
      rw [outerBody, if_neg (by omega), outerDescriptor, htag, hlength, PsiSection.ok_bind,
        PsiSection.ok_bind, hcontent, hleft]
      rfl
    have hnext := ih (w := ⟨(descriptorOctets ds).length, w.pos + 2 + d.content.length,
      w.outer_descriptors ++ [d.info]⟩) rfl (drop_octets hat)
    rw [List.append_assoc] at hnext
    exact (Rounds.one hround).leaves hnext

/-- **Other bytes.** The loop goes past the section. -/
theorem outer_outside (hsize : s.size < 2 ^ 15) : ∀ (n : ℕ) {l : List UInt8} {w : OuterWalk},
    l.length ≤ n → w.outer_desc_len = l.length → s.bytes.drop w.pos = l ++ rest →
    (∀ ds, l ≠ descriptorOctets ds) → Leaves (outerBody s) w (.error .outside) := by
  intro n
  induction n with
  | zero =>
    intro l w hn _ _ hbad
    exact absurd (List.length_eq_zero_iff.mp (Nat.le_zero.mp hn)) (hbad [])
  | succ n ih =>
    intro l w hn hlen hat hbad
    have h0 : w.outer_desc_len ≠ 0 := by
      intro h0
      exact hbad [] (List.length_eq_zero_iff.mp (hlen.symm.trans h0))
    have hne : l ≠ [] := by
      rintro rfl
      exact hbad [] rfl
    have hend := PsiSection.size_of_drop hat (List.append_ne_nil_of_left_ne_nil hne rest)
    rcases outerDescriptor_cases s w with hout | ⟨t, length, content, hlength, -, hok⟩
    · refine Leaves.of_leave ?_
      rw [outerBody, if_neg h0, hout]
    · have hoctet := PsiSection.byte_lt hlength
      have hround : outerBody s w = .inr ⟨minus16 (minus16 w.outer_desc_len 2) length,
          w.pos + 2 + length, w.outer_descriptors ++ [⟨t, content⟩]⟩ := by
        rw [outerBody, if_neg h0, hok]
      refine (Rounds.one hround).leaves ?_
      by_cases hover : w.outer_desc_len < 2 + length
      · -- more is taken off than there is
        have hwrap : minus16 (minus16 w.outer_desc_len 2) length =
            w.outer_desc_len + 2 ^ 16 - 2 - length := by
          rw [minus16, minus16]
          split_ifs <;> omega
        refine outer_overshoot ?_ ?_
        · dsimp only
          omega
        · dsimp only
          omega
      · rcases l with _ | ⟨tag, _ | ⟨b, l⟩⟩
        · exact absurd rfl hne
        · rw [List.length_singleton] at hlen
          omega
        · obtain rfl : length = b.toNat := by
            rw [PsiSection.byte_of_drop (k := 1) hat rfl] at hlength
            exact (Except.ok.inj hlength).symm
          rw [List.length_cons, List.length_cons] at hlen hn
          have hcut := @DescriptorBytes.octets_ofOctets tag b l (by omega)
          have hcontent : (DescriptorBytes.ofOctets tag b l).content.length = b.toNat := by
            rw [DescriptorBytes.ofOctets, List.length_take, Nat.min_eq_left (by omega)]
          have hrest : (l.drop b.toNat).length = l.length - b.toNat := List.length_drop
          have hleft : minus16 (minus16 w.outer_desc_len 2) b.toNat = (l.drop b.toNat).length := by
            rw [minus16, minus16, if_pos (show 2 ≤ w.outer_desc_len by omega), if_pos (by omega)]
            omega
          rw [← hcut, List.append_assoc] at hat
          refine ih (by omega) hleft ?_ ?_
          · rw [← hcontent]
            exact (drop_octets hat).trans (by rw [hcontent])
          · intro ds hds
            refine hbad (DescriptorBytes.ofOctets tag b l :: ds) ?_
            rw [descriptorOctets_cons, ← hds, hcut]

end Outer

/-! ## Sections by their parts -/

/-- Descriptors are told from their bytes. -/
theorem descriptorOctets_injective : ∀ {ds ds' : List DescriptorBytes},
    descriptorOctets ds = descriptorOctets ds' → ds = ds' := by
  intro ds
  induction ds with
  | nil =>
    intro ds' h
    rcases ds' with _ | ⟨d', ds'⟩
    · rfl
    · cases h
  | cons d ds ih =>
    intro ds' h
    rcases ds' with _ | ⟨d', ds'⟩
    · cases h
    · rw [descriptorOctets_cons, descriptorOctets_cons, DescriptorBytes.octets,
        DescriptorBytes.octets, List.cons_append, List.cons_append, List.cons_append,
        List.cons_append] at h
      injection h with htag h
      injection h with hlength h
      have hlen : d.content.length = d'.content.length := by
        rw [← d.toNat_length, hlength, d'.toNat_length]
      obtain ⟨hcontent, hrest⟩ := List.append_inj h hlen
      obtain ⟨tag, content, _⟩ := d
      obtain ⟨tag', content', _⟩ := d'
      obtain rfl : tag = tag' := htag
      obtain rfl : content = content' := hcontent
      rw [ih hrest]

/-- A stream is told from its bytes, among those the first pass lets pass. -/
theorem stream_unique {noPcr : Bool} {x y : StreamBytes} {rest rest' : List UInt8}
    (hx : x.Passed noPcr) (hy : y.Fits) (h : x.octets ++ rest = y.octets ++ rest') :
    x = y ∧ rest = rest' := by
  rw [StreamBytes.octets, StreamBytes.octets, List.append_assoc, List.append_assoc] at h
  obtain ⟨hhead, h⟩ := List.append_inj h rfl
  obtain ⟨x₁, x₂, x₃, x₄, x₅, ds⟩ := x
  obtain ⟨y₁, y₂, y₃, y₄, y₅, ds'⟩ := y
  injection hhead with h₁ hhead
  injection hhead with h₂ hhead
  injection hhead with h₃ hhead
  injection hhead with h₄ hhead
  injection hhead with h₅ hhead
  subst h₁ h₂ h₃ h₄ h₅
  have hne := length_descriptorOctets_ne_one ds'
  have hfits : (descriptorOctets ds).length = (descriptorOctets ds').length := by
    rcases hx.1 with hx | ⟨hx, -⟩
    · exact hx.symm.trans hy
    · exact absurd (hy.symm.trans hx) hne
  obtain ⟨hds, hrest⟩ := List.append_inj h hfits
  obtain rfl := descriptorOctets_injective hds
  exact ⟨rfl, hrest⟩

/-- The streams of a table are the ones the first pass goes over. -/
theorem streams_unique {noPcr : Bool} {crc crc' : List UInt8} (hlen : crc.length = crc'.length) :
    ∀ {xs ys : List StreamBytes}, Walked noPcr xs crc → (∀ y ∈ ys, y.Fits) →
      streamOctets xs ++ crc = streamOctets ys ++ crc' → xs = ys := by
  intro xs
  induction xs with
  | nil =>
    intro ys _ _ h
    rcases ys with _ | ⟨y, ys⟩
    · rfl
    · have := congrArg List.length h
      rw [streamOctets_cons, List.length_append, List.length_append, List.length_append,
        y.length_octets, streamOctets_nil, List.length_nil] at this
      omega
  | cons x xs ih =>
    intro ys hwalked hfits h
    rcases ys with _ | ⟨y, ys⟩
    · have := congrArg List.length h
      rw [streamOctets_cons, List.length_append, List.length_append, List.length_append,
        x.length_octets, streamOctets_nil, List.length_nil] at this
      omega
    · rw [streamOctets_cons, streamOctets_cons, List.append_assoc, List.append_assoc] at h
      obtain ⟨rfl, hrest⟩ := stream_unique hwalked.2.1 (hfits y List.mem_cons_self) h
      rw [ih hwalked.2.2 (fun z hz => hfits z (List.mem_cons_of_mem x hz)) hrest]

namespace PsiSection

variable {s : PsiSection} {outer : List DescriptorBytes} {xs : List StreamBytes}

theorem length_pmtBytes (s : PsiSection) :
    s.pmtBytes.length = s.size - 12 - s.programInfoLength := by
  rw [pmtBytes, List.length_drop, Nat.sub_add_eq]
  rfl

theorem PmtFits.length_programInfo (hfits : s.PmtFits) :
    s.programInfo.length = s.programInfoLength := by
  have h := hfits.program_info_length
  rw [size] at h
  rw [programInfo, List.length_take, List.length_drop]
  omega

theorem drop_header (s : PsiSection) : s.bytes.drop 12 = s.programInfo ++ s.pmtBytes := by
  rw [programInfo, pmtBytes, ← List.drop_drop, List.take_append_drop]

/-- A table, by the parts of the section. -/
theorem isPmt_iff (hfits : s.PmtFits) : s.IsPmt outer xs ↔
    s.programInfo = descriptorOctets outer ∧ (∀ x ∈ xs, x.Fits) ∧
      ∃ crc, crc.length = 4 ∧ s.pmtBytes = streamOctets xs ++ crc := by
  constructor
  · rintro ⟨⟨head, crc, hhead, hcrc, hbytes⟩, hinfo, hes⟩
    have hdrop : s.bytes.drop 12 = descriptorOctets outer ++ (streamOctets xs ++ crc) := by
      rw [hbytes, ← hhead, List.drop_left]
    rw [drop_header] at hdrop
    obtain ⟨h₁, h₂⟩ := List.append_inj hdrop (hfits.length_programInfo.trans hinfo.symm)
    exact ⟨h₁, hes, crc, hcrc, h₂⟩
  · rintro ⟨hinfo, hes, crc, hcrc, hpmt⟩
    have hlen := hfits.length_programInfo
    refine ⟨⟨s.bytes.take 12, crc, ?_, hcrc, ?_⟩, by rw [← hinfo]; exact hlen, hes⟩
    · have := hfits.size_gt
      rw [size] at this
      rw [List.length_take]
      omega
    · rw [← hinfo, ← hpmt, ← drop_header, List.take_append_drop]

/-- The streams go on so far into the CRC that none is left. -/
def RunsOut (s : PsiSection) : Prop :=
  ∃ xs rest, s.pmtBytes = streamOctets xs ++ rest ∧ Walked (decide (s.pcrPid = noPcrPid)) xs rest ∧
    rest.length < 4 ∧ refusedHead (decide (s.pcrPid = noPcrPid)) rest = false

/-- The streams the first pass goes over in a section it has no objection to. -/
def Accepts (s : PsiSection) (xs : List StreamBytes) : Prop :=
  ∃ crc, crc.length = 4 ∧ s.pmtBytes = streamOctets xs ++ crc ∧
    Walked (decide (s.pcrPid = noPcrPid)) xs crc

/-- What the second pass relies on, beyond what the first one has found. -/
structure Storable (s : PsiSection) (xs : List StreamBytes) : Prop where
  /-- the outer descriptors are as long as it is said -/
  outer : ∃ ds, s.programInfo = descriptorOctets ds
  /-- the one byte of a stream with a length of one is not stepped over -/
  not_one : ∀ x ∈ xs, x.esInfoLength ≠ 1
  /-- streams of PID zero are not stored -/
  pid : ∀ x ∈ xs, x.pid ≠ 0
  /-- streams of the same PID and type are mistaken for one another -/
  apart : xs.Pairwise StreamBytes.Apart
  /-- the names are read with no regard to where the descriptor ends -/
  names : s.StreamNamesRead (12 + s.programInfoLength) xs

theorem Walked.passed {noPcr : Bool} {rest : List UInt8} : ∀ {xs : List StreamBytes},
    Walked noPcr xs rest → ∀ x ∈ xs, x.Passed noPcr := by
  intro xs
  induction xs with
  | nil =>
    intro _ x hx
    cases hx
  | cons y xs ih =>
    rintro ⟨-, hy, hxs⟩ x hx
    rcases List.mem_cons.mp hx with rfl | hx
    · exact hy
    · exact ih hxs x hx

theorem Accepts.fits (h : s.Accepts xs) (hone : ∀ x ∈ xs, x.esInfoLength ≠ 1) :
    ∀ x ∈ xs, x.Fits := by
  obtain ⟨crc, -, -, hwalked⟩ := h
  intro x hx
  rcases (Walked.passed hwalked x hx).1 with h | ⟨h, -⟩
  · exact h
  · exact absurd h (hone x hx)

/-- The streams of a table that is accepted are the ones that are gone over. -/
theorem Accepts.eq_of_isPmt (hfits : s.PmtFits) (h : s.Accepts xs) {ys : List StreamBytes}
    (hpmt : s.IsPmt outer ys) : ys = xs := by
  obtain ⟨crc, hcrc, hxs, hwalked⟩ := h
  obtain ⟨-, hes, crc', hcrc', hys⟩ := (isPmt_iff hfits).mp hpmt
  exact (streams_unique (hcrc.trans hcrc'.symm) hwalked hes (hxs.symm.trans hys)).symm

end PsiSection

/-! ## The second pass has no error codes -/

section Raises

open PsiSection (Raises raises_ok raises_error raises_byte)

variable {P : ℕ → Prop} {s : PsiSection}

theorem raises_outside {α : Type} : Raises P (.error .outside : Except PsiStop α) := by
  intro code h
  cases h

theorem raises_copy (s : PsiSection) (pos n : ℕ) : Raises P (s.copy pos n) :=
  Raises.ite (raises_ok _) raises_outside

theorem raises_appendSegment : ∀ (n pos : ℕ) (string : List UInt8),
    Raises P (appendSegment s n pos string) := by
  intro n
  induction n with
  | zero => exact fun _ _ => raises_ok _
  | succ n ih =>
    intro pos string
    rw [appendSegment]
    rcases s.bytes[pos]? with _ | b
    · exact raises_outside
    · exact Raises.ite (raises_ok _) (ih _ _)

theorem raises_nameSegments : ∀ (n pos : ℕ) (string : List UInt8),
    Raises P (nameSegments s n pos string) := by
  intro n
  induction n with
  | zero => exact fun _ _ => raises_ok _
  | succ n ih =>
    intro pos string
    refine (raises_byte s _).bind fun _ => (raises_byte s _).bind fun _ => ?_
    refine Raises.ite (raises_ok _) ((raises_byte s _).bind fun _ => ?_)
    exact (raises_appendSegment _ _ _).bind fun _ => Raises.ite raises_outside (ih _ _)

theorem raises_nameStrings : ∀ (n pos : ℕ) (names : List LangString),
    Raises P (nameStrings s n pos names) := by
  intro n
  induction n with
  | zero => exact fun _ _ => raises_ok _
  | succ n ih =>
    intro pos names
    refine (raises_byte s _).bind fun _ => (raises_byte s _).bind fun _ => ?_
    refine (raises_byte s _).bind fun _ => (raises_byte s _).bind fun _ => ?_
    exact (raises_nameSegments _ _ _).bind fun _ => ih _ _

theorem raises_describe (e : ElementaryStream) (tag length pos : ℕ) :
    Raises P (e.describe s tag length pos) := by
  refine Raises.bind (Raises.ite (raises_copy s _ _) (raises_ok _)) fun _ => ?_
  refine Raises.bind (Raises.ite ?_ (raises_ok _)) fun _ => ?_
  · exact (raises_byte s _).bind fun _ => raises_nameStrings _ _ _
  · exact (raises_copy s _ _).bind fun _ => raises_ok _

theorem raises_setDescriptor (pid type tag length pos : ℕ) : ∀ streams : List ElementaryStream,
    Raises P (setDescriptor s pid type tag length pos streams) := by
  intro streams
  induction streams with
  | nil => exact raises_ok _
  | cons e streams ih =>
    rw [setDescriptor]
    refine Raises.ite ?_ ?_
    · exact (raises_describe _ _ _ _).bind fun _ => raises_ok _
    · exact ih.bind fun _ => raises_ok _

theorem raises_passDescriptors (pid type : ℕ) : ∀ (ds : List DescriptorBytes) (pos : ℕ)
    (streams : List ElementaryStream), Raises P (passDescriptors false s pid type pos ds streams) := by
  intro ds
  induction ds with
  | nil => exact fun _ _ => raises_ok _
  | cons d ds ih =>
    intro pos streams
    exact (raises_setDescriptor _ _ _ _ _ _).bind fun _ => ih _ _

/-- The second pass fails only by using memory outside the section. -/
theorem raises_passStreams : ∀ (xs : List StreamBytes) (pos : ℕ)
    (streams : List ElementaryStream), Raises P (passStreams false s pos xs streams) := by
  intro xs
  induction xs with
  | nil => exact fun _ _ => raises_ok _
  | cons x xs ih =>
    intro pos streams
    exact (raises_passDescriptors _ _ _ _ _).bind fun _ => ih _ _

end Raises

/-! ## How a call ends -/

namespace PmtMgr

variable {m : PmtMgr} {s : PsiSection} {e : PmtEnding} {xs : List StreamBytes}

theorem store_of_le {fuel fuel' crc : ℕ} {h : PmtHeader} (hstore : m.store fuel s h crc = some e)
    (hle : fuel ≤ fuel') : m.store fuel' s h crc = some e := by
  obtain ⟨outer, houter, hstore⟩ := Option.bind_eq_some_iff.mp hstore
  refine Option.bind_eq_some_iff.mpr ⟨outer, iterate_of_le houter hle, ?_⟩
  rcases outer with stop | outer
  · exact hstore
  · obtain ⟨pass, hpass, rfl⟩ := Option.map_eq_some_iff.mp hstore
    exact Option.map_eq_some_iff.mpr ⟨pass, iterate_of_le hpass hle, rfl⟩

/-- A call that has ended ends the same way with more fuel. -/
theorem parse_of_le {fuel fuel' : ℕ} (h : m.parseAndUpdatePMT fuel s = some e)
    (hle : fuel ≤ fuel') : m.parseAndUpdatePMT fuel' s = some e := by
  rw [parseAndUpdatePMT] at h ⊢
  rcases hheader : pmtHeader s with stop | header
  · rw [hheader] at h
    exact h
  · rw [hheader] at h
    obtain ⟨pass, hpass, h⟩ := Option.bind_eq_some_iff.mp h
    refine Option.bind_eq_some_iff.mpr ⟨pass, iterate_of_le hpass hle, ?_⟩
    rw [finish] at h ⊢
    rcases hcrc : pmtCrc s pass with stop | crc
    · rw [hcrc] at h
      exact h
    · rw [hcrc] at h
      dsimp only at h ⊢
      split_ifs at h ⊢
      · exact store_of_le h hle
      · exact h

theorem parse_unique {fuel fuel' : ℕ} {e' : PmtEnding} (h : m.parseAndUpdatePMT fuel s = some e)
    (h' : m.parseAndUpdatePMT fuel' s = some e') : e = e' := by
  have hn := parse_of_le h (Nat.le_max_left fuel fuel')
  have hm := parse_of_le h' (Nat.le_max_right fuel fuel')
  exact Option.some.inj (hn.symm.trans hm)

/-- A call ends so, with enough rounds. -/
def Ends (m : PmtMgr) (s : PsiSection) (e : PmtEnding) : Prop :=
  ∃ fuel, m.parseAndUpdatePMT fuel s = some e

theorem Ends.unique {e' : PmtEnding} (h : m.Ends s e) (h' : m.Ends s e') : e = e' := by
  obtain ⟨fuel, h⟩ := h
  obtain ⟨fuel', h'⟩ := h'
  exact parse_unique h h'

theorem ends_header {stop : PsiStop} (h : pmtHeader s = .error stop) : m.Ends s (stop.pmtEnding m) := by
  refine ⟨0, ?_⟩
  rw [parseAndUpdatePMT, h]

/-- The first pass stops, or leaves too much, or reads the CRC where there is none. -/
theorem ends_first (hfits : s.PmtFits) {pass : Except PsiStop PmtWalk} {stop : PsiStop}
    (hpass : Leaves (pmtBody true s.pcrPid s) s.pmtHead.walk pass)
    (hstop : pmtCrc s pass = .error stop) : m.Ends s (stop.pmtEnding m) := by
  obtain ⟨fuel, hfuel⟩ := hpass
  refine ⟨fuel, ?_⟩
  rw [parseAndUpdatePMT, PsiSection.pmtHeader_iff.mpr ⟨hfits, rfl⟩]
  refine Option.bind_eq_some_iff.mpr ⟨pass, hfuel, ?_⟩
  rw [finish, hstop]

/-- The table is stored already, or the descriptors are in use. -/
theorem ends_kept (hfits : s.PmtFits) {pass : Except PsiStop PmtWalk} {crc : ℕ}
    (hpass : Leaves (pmtBody true s.pcrPid s) s.pmtHead.walk pass) (hcrc : pmtCrc s pass = .ok crc)
    (hkept : ¬ (m.isNew s.version crc = true ∧ m.descriptors_in_use = false)) :
    m.Ends s (.returned 0 m none) := by
  obtain ⟨fuel, hfuel⟩ := hpass
  refine ⟨fuel, ?_⟩
  rw [parseAndUpdatePMT, PsiSection.pmtHeader_iff.mpr ⟨hfits, rfl⟩]
  refine Option.bind_eq_some_iff.mpr ⟨pass, hfuel, ?_⟩
  rw [finish, hcrc]
  exact if_neg hkept

/-- The table is to be stored. -/
theorem ends_store (hfits : s.PmtFits) {pass : Except PsiStop PmtWalk} {crc : ℕ}
    (hpass : Leaves (pmtBody true s.pcrPid s) s.pmtHead.walk pass) (hcrc : pmtCrc s pass = .ok crc)
    (hnew : m.isNew s.version crc = true ∧ m.descriptors_in_use = false)
    (hstore : ∃ fuel, m.store fuel s s.pmtHead crc = some e) : m.Ends s e := by
  obtain ⟨fuel, hfuel⟩ := hpass
  obtain ⟨fuel', hstore⟩ := hstore
  refine ⟨max fuel fuel', ?_⟩
  rw [parseAndUpdatePMT, PsiSection.pmtHeader_iff.mpr ⟨hfits, rfl⟩]
  refine Option.bind_eq_some_iff.mpr
    ⟨pass, iterate_of_le hfuel (Nat.le_max_left _ _), ?_⟩
  rw [finish, hcrc]
  exact (if_pos hnew).trans (store_of_le hstore (Nat.le_max_right _ _))

/-- **A pass over the streams of an accepted section.** It comes to the CRC, unless what it does with
the streams stops it. -/
theorem leaves_streams (first : Bool) (h : s.Accepts xs) :
    Leaves (pmtBody first s.pcrPid s) s.pmtHead.walk
      ((passStreams first s (12 + s.programInfoLength) xs []).map fun streams =>
        ⟨4, s.size - 4, none, streams⟩) := by
  obtain ⟨crc, hcrc, hpmt, hwalked⟩ := h
  have hlen := s.length_pmtBytes
  rw [hpmt, List.length_append, hcrc] at hlen
  have hcomes := @comes_streams s.pcrPid s crc first xs s.pmtHead.walk rfl
    (by rw [hcrc]; exact hlen.symm) hpmt hwalked
  have hwalk : passStreams first s s.pmtHead.walk.pos xs s.pmtHead.walk.elementary_streams =
      passStreams first s (12 + s.programInfoLength) xs [] := rfl
  rw [hwalk] at hcomes
  rcases hpass : passStreams first s (12 + s.programInfoLength) xs [] with stop | streams
  · rw [hpass] at hcomes
    exact hcomes
  · have hpos : s.pmtHead.walk.pos + (streamOctets xs).length = s.size - 4 := by
      have : s.pmtHead.walk.pos = 12 + s.programInfoLength := rfl
      omega
    rw [hpass, hpos, hcrc] at hcomes
    exact Rounds.leaves hcomes (Leaves.of_leave rfl)

/-- The first pass comes to the CRC. -/
theorem accepted (hfits : s.PmtFits) (h : s.Accepts xs) :
    ∃ pass, Leaves (pmtBody true s.pcrPid s) s.pmtHead.walk pass ∧ pmtCrc s pass = .ok s.crc32 := by
  have hleaves := leaves_streams true h
  rw [passStreams_first] at hleaves
  have hsize := hfits.size_gt
  have hcrc : s.crc (s.size - 4) = .ok s.crc32 := PsiSection.crc_eq (by omega)
  exact ⟨_, hleaves, hcrc⟩

/-- The table as it is stored. -/
def stored (m : PmtMgr) (s : PsiSection) (outer : List PmtDescriptor)
    (streams : List ElementaryStream) : PmtMgr :=
  { m with
    outer_descriptors := outer
    elementary_streams := streams
    pcrPid := s.pcrPid
    pmtVersionNumber := s.version
    pmtCRC := s.crc32 }

/-- What follows the outer descriptors is not nothing. -/
theorem pmtBytes_ne_nil (h : s.Accepts xs) : s.pmtBytes ≠ [] := by
  obtain ⟨crc, hcrc, hpmt, -⟩ := h
  rw [hpmt]
  refine List.append_ne_nil_of_right_ne_nil _ ?_
  rintro rfl
  cases hcrc

/-- The outer descriptors are of the length that is said: the second pass decides. -/
theorem ends_pass (hfits : s.PmtFits) (h : s.Accepts xs)
    (hnew : m.isNew s.version s.crc32 = true ∧ m.descriptors_in_use = false)
    {outer : List DescriptorBytes} (houter : s.programInfo = descriptorOctets outer) :
    m.Ends s (match passStreams false s (12 + s.programInfoLength) xs [] with
      | .error stop => stop.pmtEnding m
      | .ok streams => .returned 0 (m.stored s (outer.map DescriptorBytes.info) streams)
          (some (m.pmtVersionNumber == 32))) := by
  obtain ⟨pass, hfirst, hcrc⟩ := accepted hfits h
  refine ends_store hfits hfirst hcrc hnew ?_
  obtain ⟨fuel, hfuel⟩ := outer_stored (pmtBytes_ne_nil h) outer
    (w := ⟨s.programInfoLength, 12, []⟩) (by rw [← houter, hfits.length_programInfo])
    (by rw [← houter, s.drop_header])
  obtain ⟨fuel', hfuel'⟩ := leaves_streams false h
  refine ⟨max fuel fuel', Option.bind_eq_some_iff.mpr
    ⟨_, iterate_of_le hfuel (Nat.le_max_left _ _), Option.map_eq_some_iff.mpr
      ⟨_, iterate_of_le hfuel' (Nat.le_max_right _ _), ?_⟩⟩⟩
  rcases passStreams false s (12 + s.programInfoLength) xs [] with stop | streams
  · rfl
  · rfl

/-- **Outer descriptors of another length.** -/
theorem ends_outer (hfits : s.PmtFits) (h : s.Accepts xs)
    (hnew : m.isNew s.version s.crc32 = true ∧ m.descriptors_in_use = false)
    (houter : ∀ ds, s.programInfo ≠ descriptorOctets ds) : m.Ends s .outside := by
  obtain ⟨pass, hfirst, hcrc⟩ := accepted hfits h
  refine ends_store hfits hfirst hcrc hnew ?_
  have hsize := hfits.size_le
  obtain ⟨fuel, hfuel⟩ := outer_outside (w := ⟨s.programInfoLength, 12, []⟩) (by omega) _
    (Nat.le_refl _) hfits.length_programInfo.symm s.drop_header houter
  exact ⟨fuel, Option.bind_eq_some_iff.mpr ⟨_, hfuel, rfl⟩⟩

/-! ## What a call should do, and when it does -/

/-- **What is expected of a call.** It ends, within the section; it changes nothing when it returns an
error; and when it succeeds with a new table, and nobody is using the descriptors, the lists are the
descriptors and the streams of the section, in order. -/
def Serves (m : PmtMgr) (s : PsiSection) : Prop :=
  ∃ fuel code m' notified, m.parseAndUpdatePMT fuel s = some (.returned code m' notified) ∧
    (code ≠ 0 → m' = m) ∧
    (code = 0 → m.isNew s.version s.crc32 = true → m.descriptors_in_use = false →
      ∃ outer streams, s.IsPmt outer streams ∧
        m'.outer_descriptors = outer.map DescriptorBytes.info ∧
        m'.elementary_streams.map ElementaryStream.info = streams.map StreamBytes.info)

/-- **The condition.** The header is refused, and within the section; or it is whole, and then the
streams leave a CRC, and if the table is to be stored it can be. -/
def Manages (m : PmtMgr) (s : PsiSection) : Prop :=
  s.pmtRefused = true ∨ s.PmtFits ∧ ¬ s.RunsOut ∧
    ∀ xs, s.Accepts xs → m.isNew s.version s.crc32 = true → m.descriptors_in_use = false →
      s.Storable xs

/-- A call that refuses serves any section. -/
theorem serves_refused {code : ℕ} (h : m.Ends s (.returned code m none)) (hcode : code ≠ 0) :
    m.Serves s := by
  obtain ⟨fuel, h⟩ := h
  exact ⟨fuel, code, m, none, h, fun _ => rfl, fun h0 => absurd h0 hcode⟩

theorem not_serves_outside (h : m.Ends s .outside) : ¬ m.Serves s := by
  rintro ⟨fuel, code, m', notified, h', -⟩
  cases h.unique ⟨fuel, h'⟩

/-- Streams that run out are read on behind the section. -/
theorem ends_runsOut (hfits : s.PmtFits) (h : s.RunsOut) : m.Ends s .outside := by
  obtain ⟨xs, rest, hpmt, hwalked, hrest, hrefused⟩ := h
  have hlen := s.length_pmtBytes
  rw [hpmt, List.length_append] at hlen
  have hcomes := @comes_streams s.pcrPid s rest true xs s.pmtHead.walk rfl hlen.symm hpmt hwalked
  rw [passStreams_first] at hcomes
  have hat : s.bytes.drop (s.pmtHead.walk.pos + (streamOctets xs).length) = rest := by
    have hpmt' : s.bytes.drop s.pmtHead.walk.pos = streamOctets xs ++ rest := hpmt
    rw [← List.drop_drop, hpmt', List.drop_left]
  have hleaves := Rounds.leaves hcomes
    (Leaves.of_leave (pmtBody_outside rfl rfl hrest hat hrefused))
  exact ends_first hfits hleaves rfl

/-- **A section the first pass accepts.** It is served exactly if the table need not be stored, or can
be. -/
theorem serves_accepted (hfits : s.PmtFits) (h : s.Accepts xs) : m.Serves s ↔
    (m.isNew s.version s.crc32 = true → m.descriptors_in_use = false → s.Storable xs) := by
  by_cases hnew : m.isNew s.version s.crc32 = true ∧ m.descriptors_in_use = false
  · have hrest : 4 ≤ (List.drop (streamOctets xs).length s.pmtBytes).length := by
      obtain ⟨crc, hcrc, hpmt, -⟩ := h
      rw [hpmt, List.drop_left]
      exact Nat.le_of_eq hcrc.symm
    have hpmt : s.bytes.drop (12 + s.programInfoLength) =
        streamOctets xs ++ List.drop (streamOctets xs).length s.pmtBytes := by
      obtain ⟨crc, hcrc, hpmt, -⟩ := h
      rw [hpmt, List.drop_left]
      exact hpmt
    have hne : List.drop (streamOctets xs).length s.pmtBytes ≠ [] := by
      intro h
      rw [h] at hrest
      cases hrest
    constructor
    · intro hserves _ _
      obtain ⟨outer, houter⟩ : ∃ ds, s.programInfo = descriptorOctets ds := by
        by_contra hbad
        exact not_serves_outside (ends_outer hfits h hnew fun ds hds => hbad ⟨ds, hds⟩) hserves
      rcases hpass : passStreams false s (12 + s.programInfoLength) xs [] with (_ | code) | streams
      · have hend := ends_pass hfits h hnew houter
        rw [hpass] at hend
        exact absurd hserves (not_serves_outside hend)
      · exact False.elim (raises_passStreams (P := fun _ => False) xs _ _ code hpass)
      · obtain ⟨fuel, code, m', notified, hanswer, -, hlists⟩ := hserves
        have hend := ends_pass hfits h hnew houter
        rw [hpass] at hend
        injection Ends.unique ⟨fuel, hanswer⟩ hend with hcode hm' _
        obtain ⟨outer', ys, hpmt', -, hstreams⟩ := hlists hcode hnew.1 hnew.2
        obtain rfl := h.eq_of_isPmt hfits hpmt'
        have hfit := hpmt'.es_info_length
        rw [hm'] at hstreams
        have hentered := (info_passStreams hne ys hpmt hpass).symm.trans hstreams
        obtain ⟨hpid, hapart⟩ := (entered_iff hfit).mp hentered
        refine ⟨⟨outer, houter⟩, fun x hx hone => ?_, hpid, hapart,
          (exists_passStreams hrest ys [] hpmt hpid).mp ⟨_, hpass⟩⟩
        exact length_descriptorOctets_ne_one _ ((hfit x hx).symm.trans hone)
    · intro hstorable
      obtain ⟨⟨outer, houter⟩, hone, hpid, hapart, hnames⟩ := hstorable hnew.1 hnew.2
      have hfit := h.fits hone
      obtain ⟨streams, hpass⟩ := (exists_passStreams hrest xs [] hpmt hpid).mpr hnames
      obtain ⟨fuel, hend⟩ := ends_pass hfits h hnew houter
      rw [hpass] at hend
      refine ⟨fuel, 0, _, _, hend, fun hcode => absurd rfl hcode, fun _ _ _ => ⟨outer, xs, ?_, rfl, ?_⟩⟩
      · obtain ⟨crc, hcrc, hbytes, -⟩ := h
        exact (PsiSection.isPmt_iff hfits).mpr ⟨houter, hfit, crc, hcrc, hbytes⟩
      · exact (info_passStreams hne xs hpmt hpass).trans (entered_of_apart hfit hpid hapart)
  · obtain ⟨pass, hfirst, hcrc⟩ := accepted hfits h
    obtain ⟨fuel, hend⟩ := ends_kept hfits hfirst hcrc hnew
    refine iff_of_true ⟨fuel, 0, m, none, hend, fun hcode => absurd rfl hcode, ?_⟩ ?_
    · exact fun _ h₁ h₂ => absurd ⟨h₁, h₂⟩ hnew
    · exact fun h₁ h₂ => absurd ⟨h₁, h₂⟩ hnew

/-- **The PMT parser.** A call does what is expected of it exactly under the condition. -/
theorem serves_iff_manages (m : PmtMgr) (s : PsiSection) : m.Serves s ↔ m.Manages s := by
  rcases hheader : pmtHeader s with stop | header
  · have hunfit : ¬ s.PmtFits := by
      intro hfits
      have := hheader.symm.trans (PsiSection.pmtHeader_iff.mpr ⟨hfits, rfl⟩)
      cases this
    have hend := ends_header (m := m) hheader
    cases stop with
    | outside =>
      refine iff_of_false (not_serves_outside hend) ?_
      rintro (hrefused | ⟨hfits, -⟩)
      · rw [PsiSection.pmtRefused, hheader] at hrefused
        cases hrefused
      · exact hunfit hfits
    | error code =>
      refine iff_of_true (serves_refused hend (PsiSection.raises_pmtHeader s code hheader)) (.inl ?_)
      rw [PsiSection.pmtRefused, hheader]
  · obtain ⟨hfits, -⟩ := PsiSection.pmtHeader_iff.mp hheader
    have hrefused : ¬ s.pmtRefused = true := by
      rw [PsiSection.pmtRefused, hheader]
      exact Bool.false_ne_true
    rw [Manages, or_iff_right hrefused, and_iff_right hfits]
    by_cases hout : s.RunsOut
    · exact iff_of_false (not_serves_outside (ends_runsOut hfits hout)) fun h => h.1 hout
    · rw [and_iff_right hout]
      by_cases haccepts : ∃ xs, s.Accepts xs
      · obtain ⟨xs, hxs⟩ := haccepts
        constructor
        · exact fun h ys hys => (serves_accepted hfits hys).mp h
        · exact fun h => (serves_accepted hfits hxs).mpr (h xs hxs)
      · -- the first pass refuses the section
        refine iff_of_true ?_ fun xs hxs => absurd ⟨xs, hxs⟩ haccepts
        rcases @firstPass_cases s.pcrPid s _ s.pmtBytes s.pmtHead.walk (Nat.le_refl _) rfl
          s.length_pmtBytes.symm rfl with ⟨xs, rest, hpmt, hwalked, hrest⟩ |
          ⟨code, hcode, hleaves⟩ | ⟨w, hleaves, hmore⟩
        · rcases hrest with hrest | ⟨hrest, hhead⟩
          · exact absurd ⟨xs, rest, hrest, hpmt, hwalked⟩ haccepts
          · exact absurd ⟨xs, rest, hpmt, hwalked, hrest, hhead⟩ hout
        · exact serves_refused (ends_first hfits hleaves rfl) hcode
        · exact serves_refused (ends_first hfits hleaves (if_pos hmore)) (by decide)

/-- As it is created. -/
def created : PmtMgr := ⟨[], [], false, 0x1FFF, 32, 0⟩

/-- A table with one stream, whose descriptors are the four bytes of the CRC. -/
def crcTakenPmt : PsiSection where
  bytes := [0x02, 0xB0, 0x12, 0x00, 0x01, 0xC1, 0x00, 0x00, 0xE1, 0x00, 0xF0, 0x00,
    0x1B, 0xE1, 0x00, 0xF0, 0x04, 0x05, 0x02, 0x00, 0x00]
  size_lt := by decide

/-- The call for such a section reads on behind it. -/
theorem not_serves_crcTakenPmt : ¬ ∀ (m : PmtMgr) (s : PsiSection), m.Serves s := by
  intro h
  exact not_serves_outside ⟨8, by decide +kernel⟩ (h created crcTakenPmt)

end PmtMgr

end MediaFramework
