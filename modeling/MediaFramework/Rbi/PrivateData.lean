import MediaFramework.Rbi.PmtSection

/-!
# Monitored streams (`RBIStreamProcessor::processPMTSection`)

A spec of the `RBIPrivateDataMonitor` asks for a stream type, and may ask for a
descriptor with a tag, and with certain data. Which streams it asks for is `wants`:
the descriptor may stand anywhere in the stream's descriptor loop.

`processPMTSection` goes through the descriptors too, but the data of each of them is
compared with the bytes behind the head of the stream's first one, and a descriptor
loop of two bytes, one empty descriptor, is not looked at. `foundInPlace` is exactly
when that makes no difference to a stream.
-/

namespace MediaFramework

namespace ProgramMap

section Memory

variable (pmt : ℕ → UInt8)

/-- A descriptor has the tag of the spec and, if the spec has data, exactly these. -/
def descriptorWanted (spec : StreamSpec) (programInfo descIdx : ℕ) : Prop :=
  let descrLen := (pmt (programInfo + descIdx + 1)).toNat
  pmt (programInfo + descIdx) = spec.descrTag ∧
    (spec.descrDataLen > 0 → (descrLen : ℤ) = spec.descrDataLen ∧
      load pmt (programInfo + descIdx + 2) descrLen = load spec.descrData 0 descrLen)

/-- A spec asks for a stream. -/
def wants (e : StreamEntry) (spec : StreamSpec) : Prop :=
  (e.streamType : ℤ) = spec.streamType ∧
    (spec.matchTag = false ∨ ∃ d ∈ e.descriptors pmt, descriptorWanted pmt spec e.place d)

section Specs

variable (specs : List StreamSpec) (e : StreamEntry)

/-- A spec asks for the stream's type only. -/
def wantedByType : Prop :=
  ∃ spec ∈ specs, (e.streamType : ℤ) = spec.streamType ∧ spec.matchTag = false

/-- A spec asks for the stream's type and the tag of one of its descriptors. -/
def wantedByTag : Prop :=
  ∃ spec ∈ specs, ((e.streamType : ℤ) = spec.streamType ∧ spec.matchTag = true) ∧
    ∃ d ∈ e.descriptors pmt, pmt (e.place + d) = spec.descrTag ∧ ¬spec.descrDataLen > 0

/-- A descriptor has the tag and the length that a spec asks for, and the bytes at the
place `data` are the spec's data. -/
def holdsData (data : ℕ → ℕ) : Prop :=
  ∃ spec ∈ specs, ((e.streamType : ℤ) = spec.streamType ∧ spec.matchTag = true) ∧
    ∃ d ∈ e.descriptors pmt, compares pmt spec e.place d = true ∧
      load pmt (e.place + data d) (pmt (e.place + d + 1)).toNat =
        load spec.descrData 0 (pmt (e.place + d + 1)).toNat

/-- The stream's type or the tag of a descriptor is enough; or data is asked for, and
it is found behind the head of the first descriptor just if it is found in a
descriptor; and nothing is asked of a descriptor loop of one or two bytes. -/
def foundInPlace : Prop :=
  wantedByType specs e ∨
    if e.len > 2 then
      wantedByTag pmt specs e ∨
        (holdsData pmt specs e (fun d => d + 2) ↔ holdsData pmt specs e fun _ => 7)
    else ¬wantedByTag pmt specs e ∧ ¬holdsData pmt specs e fun d => d + 2

end Specs

variable {pmt} {specs : List StreamSpec} {e : StreamEntry}

theorem compares_iff {spec : StreamSpec} {programInfo descIdx : ℕ} :
    compares pmt spec programInfo descIdx = true ↔
      pmt (programInfo + descIdx) = spec.descrTag ∧ spec.descrDataLen > 0 ∧
        ((pmt (programInfo + descIdx + 1)).toNat : ℤ) = spec.descrDataLen := by
  simp only [compares, Bool.and_eq_true, decide_eq_true_eq, and_assoc]

/-- A descriptor is wanted for its tag, or for its own data. -/
theorem descriptorWanted_iff {spec : StreamSpec} {programInfo descIdx : ℕ} :
    descriptorWanted pmt spec programInfo descIdx ↔
      (pmt (programInfo + descIdx) = spec.descrTag ∧ ¬spec.descrDataLen > 0) ∨
      (compares pmt spec programInfo descIdx = true ∧
        load pmt (programInfo + (descIdx + 2)) (pmt (programInfo + descIdx + 1)).toNat =
          load spec.descrData 0 (pmt (programInfo + descIdx + 1)).toNat) := by
  rw [compares_iff, descriptorWanted, ← Nat.add_assoc]
  tauto

/-- A descriptor matches for its tag, or for the data behind the first head. -/
theorem descriptorMatches_iff {spec : StreamSpec} {programInfo descIdx : ℕ} :
    descriptorMatches pmt spec programInfo descIdx = true ↔
      (pmt (programInfo + descIdx) = spec.descrTag ∧ ¬spec.descrDataLen > 0) ∨
      (compares pmt spec programInfo descIdx = true ∧
        load pmt (programInfo + 7) (pmt (programInfo + descIdx + 1)).toNat =
          load spec.descrData 0 (pmt (programInfo + descIdx + 1)).toNat) := by
  rw [compares_iff, descriptorMatches]
  split_ifs with htag hpos hlen
  · rw [decide_eq_true_eq]
    tauto
  · simp [htag, hpos, hlen]
  · simp [htag, hpos]
  · simp [htag]

/-- A search among the descriptors, spec by spec, for a tag or for data. -/
theorem exists_spec_iff {found : StreamSpec → ℕ → Prop} {data : ℕ → ℕ}
    (hfound : ∀ spec d, found spec d ↔
      (pmt (e.place + d) = spec.descrTag ∧ ¬spec.descrDataLen > 0) ∨
      (compares pmt spec e.place d = true ∧
        load pmt (e.place + data d) (pmt (e.place + d + 1)).toNat =
          load spec.descrData 0 (pmt (e.place + d + 1)).toNat)) :
    (∃ spec ∈ specs, ((e.streamType : ℤ) = spec.streamType ∧ spec.matchTag = true) ∧
      ∃ d ∈ e.descriptors pmt, found spec d) ↔
      wantedByTag pmt specs e ∨ holdsData pmt specs e data := by
  constructor
  · rintro ⟨spec, hspec, htype, d, hd, h⟩
    rcases (hfound spec d).mp h with htag | hdata
    · exact Or.inl ⟨spec, hspec, htype, d, hd, htag⟩
    · exact Or.inr ⟨spec, hspec, htype, d, hd, hdata⟩
  · rintro (⟨spec, hspec, htype, d, hd, htag⟩ | ⟨spec, hspec, htype, d, hd, hdata⟩)
    · exact ⟨spec, hspec, htype, d, hd, (hfound spec d).mpr (Or.inl htag)⟩
    · exact ⟨spec, hspec, htype, d, hd, (hfound spec d).mpr (Or.inr hdata)⟩

/-- The streams that are asked for. -/
theorem exists_wants_iff :
    (∃ spec ∈ specs, wants pmt e spec) ↔
      wantedByType specs e ∨ wantedByTag pmt specs e ∨
        holdsData pmt specs e fun d => d + 2 := by
  rw [← exists_spec_iff fun _ _ => descriptorWanted_iff]
  constructor
  · rintro ⟨spec, hspec, htype, htag | ⟨d, hd, h⟩⟩
    · exact Or.inl ⟨spec, hspec, htype, htag⟩
    · rcases hmatch : spec.matchTag with _ | _
      · exact Or.inl ⟨spec, hspec, htype, hmatch⟩
      · exact Or.inr ⟨spec, hspec, ⟨htype, hmatch⟩, d, hd, h⟩
  · rintro (⟨spec, hspec, htype, htag⟩ | ⟨spec, hspec, ⟨htype, -⟩, d, hd, h⟩)
    · exact ⟨spec, hspec, htype, Or.inl htag⟩
    · exact ⟨spec, hspec, htype, Or.inr ⟨d, hd, h⟩⟩

/-- The streams that are registered. -/
theorem any_meets_iff :
    specs.any (meets pmt e) = true ↔
      wantedByType specs e ∨ e.len > 2 ∧ (wantedByTag pmt specs e ∨
        holdsData pmt specs e fun _ => 7) := by
  rw [← exists_spec_iff fun _ _ => descriptorMatches_iff, List.any_eq_true]
  have hmeets : ∀ spec, meets pmt e spec = true ↔ (e.streamType : ℤ) = spec.streamType ∧
      (spec.matchTag = false ∨ e.len > 2 ∧
        ∃ d ∈ e.descriptors pmt, descriptorMatches pmt spec e.place d = true) := fun spec => by
    simp only [meets, Bool.and_eq_true, Bool.or_eq_true, decide_eq_true_eq, Bool.not_eq_true',
      List.any_eq_true]
  constructor
  · rintro ⟨spec, hspec, h⟩
    obtain ⟨htype, htag | ⟨hlen, hd⟩⟩ := (hmeets spec).mp h
    · exact Or.inl ⟨spec, hspec, htype, htag⟩
    · rcases hmatch : spec.matchTag with _ | _
      · exact Or.inl ⟨spec, hspec, htype, hmatch⟩
      · exact Or.inr ⟨hlen, spec, hspec, ⟨htype, hmatch⟩, hd⟩
  · rintro (⟨spec, hspec, htype, htag⟩ | ⟨hlen, spec, hspec, ⟨htype, -⟩, hd⟩)
    · exact ⟨spec, hspec, (hmeets spec).mpr ⟨htype, Or.inl htag⟩⟩
    · exact ⟨spec, hspec, (hmeets spec).mpr ⟨htype, Or.inr ⟨hlen, hd⟩⟩⟩

/-- A stream is registered if it is asked for, exactly when its data is in place. -/
theorem registered_iff_wanted :
    (specs.any (meets pmt e) = true ↔ ∃ spec ∈ specs, wants pmt e spec) ↔
      foundInPlace pmt specs e := by
  rw [any_meets_iff, exists_wants_iff, foundInPlace]
  split_ifs with hlen
  · tauto
  · tauto

variable (pmt)

/-- **Private data.** In a section, whatever its bytes, and for any specs, the streams
registered are the ones asked for, exactly when each stream's data is in place. -/
theorem privateData_iff (h264Enabled isH264 triggerEnable : Bool) (specs : List StreamSpec)
    (sectionLength : ℕ) :
    (∀ e ∈ streams pmt sectionLength,
      (e ∈ (processPMTSection pmt h264Enabled specs isH264 triggerEnable
        sectionLength).privateData ↔ ∃ spec ∈ specs, wants pmt e spec)) ↔
      ∀ e ∈ streams pmt sectionLength, foundInPlace pmt specs e := by
  refine forall₂_congr fun e he => ?_
  rw [privateData_processPMTSection, List.mem_filter, and_iff_right he, registered_iff_wanted]

end Memory

/-- A stream of type 0xC0 with two descriptors, 0x05 and 0xBF. -/
def secondDescriptor : List UInt8 :=
  [0x00, 0x02, 0xB0, 0x19, 0x00, 0x01, 0xC1, 0x00, 0x00, 0xE1, 0x00, 0xF0, 0x00,
    0xC0, 0xE1, 0x01, 0xF0, 0x07, 0x05, 0x01, 0xAA, 0xBF, 0x02, 0x12, 0x34,
    0x00, 0x00, 0x00, 0x00]

/-- The spec that asks for the second one, with its data. -/
def specBF : StreamSpec := ⟨0xC0, true, 0xBF, 2, packetOf [0x12, 0x34]⟩

/-- The stream's second descriptor has the spec's data, and is not found. -/
theorem second_descriptor_missed :
    ¬ ∀ pmt h264Enabled isH264 triggerEnable specs sectionLength,
      ∀ e ∈ streams pmt sectionLength,
        (e ∈ (processPMTSection pmt h264Enabled specs isH264 triggerEnable
          sectionLength).privateData ↔ ∃ spec ∈ specs, wants pmt e spec) := by
  intro h
  have hmem : ⟨13, 0xC0, 0x101, 7⟩ ∈ streams (packetOf secondDescriptor) 25 := by
    rw [streams, entries_cons (by decide)]
    exact List.mem_cons_self
  have hds : (⟨13, 0xC0, 0x101, 7⟩ : StreamEntry).descriptors (packetOf secondDescriptor) =
      [5, 8] := by
    rw [StreamEntry.descriptors, descriptorsFrom_cons (by decide),
      descriptorsFrom_cons (by decide), descriptorsFrom_nil (by decide)]
    rfl
  have hiff := h (packetOf secondDescriptor) true false true [specBF] 25 _ hmem
  rw [privateData_processPMTSection, List.mem_filter, and_iff_right hmem, List.any_cons,
    List.any_nil, Bool.or_false, meets, hds] at hiff
  refine absurd (hiff.mpr ⟨specBF, List.mem_singleton.mpr rfl, rfl, Or.inr ⟨8, ?_, ?_⟩⟩)
    (by decide +kernel)
  · rw [hds]
    decide
  · exact ⟨by decide, fun _ => ⟨by decide, by decide⟩⟩

end ProgramMap

end MediaFramework
