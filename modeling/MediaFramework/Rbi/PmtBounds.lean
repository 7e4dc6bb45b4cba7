import MediaFramework.Rbi.PmtSection

/-!
# How far a PMT section is read (`RBIStreamProcessor::processPMTSection`)

The tables of `processPMTSection` have eight entries each, its `work` has 32 bytes,
and nothing compares the counts with the one or the lengths of the descriptors with
the other. The end of the section bounds the places where the entry of a stream may
begin, and nothing else: the descriptors of a stream are walked as far as its own
length says, and their data is read as far as theirs says.

Each loop takes at least two bytes a round, so all of them end. `StaysInside` is what
is asked of a section beyond that, and `PmtFits` is what a section has to be like.
-/

namespace MediaFramework

namespace ProgramMap

section Memory

variable (pmt : ℕ → UInt8)

/-- The whole section, with its pointer field and its CRC, is what is read at most;
the tables and `work` take what is put into them. -/
structure StaysInside (sectionLength : ℕ) (c : Components) : Prop where
  reads : c.reach ≤ sectionLength + 4
  work : c.work ≤ sizeofWork
  video : c.video.length ≤ maxPids
  audio : c.audio.length ≤ maxPids
  data : c.data.length ≤ maxPids
  privateData : c.privateData.length ≤ maxPids

/-- `descrLen` -/
def descrLen (e : StreamEntry) (d : ℕ) : ℕ := (pmt (e.place + d + 1)).toNat

/-- The descriptors of an audio stream lie in the section, as far as they are read;
those with a language have at most 31 bytes. -/
def LanguagesFit (sectionEnd : ℕ) (e : StreamEntry) : Prop :=
  isAudio e.streamType = true → 2 < e.len → ∀ d ∈ e.descriptors pmt,
    e.place + d + 2 ≤ sectionEnd ∧ (pmt (e.place + d) = 0x0A →
      e.place + d + 2 + descrLen pmt e d ≤ sectionEnd ∧ descrLen pmt e d < sizeofWork)

/-- So do those looked at for a spec, and what is compared with its data. -/
def SpecFits (sectionEnd : ℕ) (e : StreamEntry) (spec : StreamSpec) : Prop :=
  (e.streamType : ℤ) = spec.streamType → spec.matchTag = true → 2 < e.len →
    ∀ d ∈ upTo (descriptorMatches pmt spec e.place) (e.descriptors pmt),
      e.place + d + 2 ≤ sectionEnd ∧ (compares pmt spec e.place d = true →
        e.place + 7 + descrLen pmt e d ≤ sectionEnd)

/-- The section has its fixed fields, no more streams of a kind than a table takes,
and descriptors that lie in it. -/
structure PmtFits (specs : List StreamSpec) (sectionLength : ℕ) : Prop where
  fields : 9 ≤ sectionLength
  video : (streams pmt sectionLength).countP (fun e => isVideo e.streamType) ≤ maxPids
  audio : (streams pmt sectionLength).countP (fun e => isAudio e.streamType) ≤ maxPids
  data : (streams pmt sectionLength).countP (fun e => isData e.streamType) ≤ maxPids
  privateData : (streams pmt sectionLength).countP (fun e => specs.any (meets pmt e)) ≤ maxPids
  languages : ∀ e ∈ streams pmt sectionLength, LanguagesFit pmt (sectionLength + 4) e
  specs : ∀ e ∈ streams pmt sectionLength, ∀ spec ∈ upTo (meets pmt e) specs,
    SpecFits pmt (sectionLength + 4) e spec

variable {pmt} {bound : ℕ}

/-! ## The loops over the descriptors -/

theorem languageLoop_eq (programInfo maxIdx descIdx : ℕ) (l : Languages) :
    languageLoop pmt programInfo maxIdx descIdx l =
      (descriptorsFrom pmt programInfo maxIdx descIdx).foldl
        (fun l d => languageDescriptor pmt programInfo d l) l := by
  induction descIdx, l using languageLoop.induct pmt programInfo maxIdx with
  | case1 descIdx l hlt descrLen ih =>
    rw [languageLoop, if_pos hlt, descriptorsFrom_cons hlt, List.foldl_cons]
    exact ih
  | case2 descIdx l hlt =>
    rw [languageLoop, if_neg hlt, descriptorsFrom_nil hlt, List.foldl_nil]

/-- The descriptors of an audio stream are read inside of a bound. -/
theorem reach_languages_le_iff (e : StreamEntry) (ds : List ℕ) (l : Languages) :
    (ds.foldl (fun l d => languageDescriptor pmt e.place d l) l).reach ≤ bound ↔
      l.reach ≤ bound ∧ ∀ d ∈ ds, e.place + d + 2 ≤ bound ∧
        (pmt (e.place + d) = 0x0A → e.place + d + 2 + descrLen pmt e d ≤ bound) := by
  induction ds generalizing l with
  | nil => simp
  | cons d ds ih =>
    have hfirst : (languageDescriptor pmt e.place d l).reach ≤ bound ↔
        l.reach ≤ bound ∧ e.place + d + 2 ≤ bound ∧
          (pmt (e.place + d) = 0x0A → e.place + d + 2 + descrLen pmt e d ≤ bound) := by
      rw [languageDescriptor, descrLen]
      split_ifs with htag
      · simp only [htag, forall_const, Nat.max_le]
        omega
      · simp only [htag, false_implies, and_true, Nat.max_le]
    rw [List.foldl_cons, ih, hfirst, List.forall_mem_cons, and_assoc]

/-- What is put into `work` fits a number of bytes. -/
theorem work_languages_le_iff (e : StreamEntry) (ds : List ℕ) (l : Languages) :
    (ds.foldl (fun l d => languageDescriptor pmt e.place d l) l).work ≤ bound ↔
      l.work ≤ bound ∧ ∀ d ∈ ds, pmt (e.place + d) = 0x0A → descrLen pmt e d < bound := by
  induction ds generalizing l with
  | nil => simp
  | cons d ds ih =>
    have hfirst : (languageDescriptor pmt e.place d l).work ≤ bound ↔
        l.work ≤ bound ∧ (pmt (e.place + d) = 0x0A → descrLen pmt e d < bound) := by
      rw [languageDescriptor, descrLen]
      split_ifs with htag
      · simp only [htag, forall_const, Nat.max_le, Nat.succ_le_iff]
      · simp only [htag, false_implies, and_true]
    rw [List.foldl_cons, ih, hfirst, List.forall_mem_cons, and_assoc]

theorem matchReach_le_iff (spec : StreamSpec) (e : StreamEntry) (d : ℕ) :
    matchReach pmt spec e.place d ≤ bound ↔ e.place + d + 2 ≤ bound ∧
      (compares pmt spec e.place d = true → e.place + 7 + descrLen pmt e d ≤ bound) := by
  rw [matchReach, descrLen]
  split_ifs with h
  · simp only [h, forall_const, Nat.max_le]
  · simp [h]

/-- What is read for a spec. -/
theorem reach_matchSpec_le_iff (e : StreamEntry) (spec : StreamSpec) (reach : ℕ) :
    (matchSpec pmt e spec reach).2 ≤ bound ↔ reach ≤ bound ∧ SpecFits pmt bound e spec := by
  rw [matchSpec, matchDescriptors_eq, SpecFits]
  split_ifs with htype htag hlen
  · simp only [htype, htag, forall_const, mark_le_iff, matchReach_le_iff,
      StreamEntry.descriptors, hlen]
  · simp [htype, htag, hlen]
  · simp [htag]
  · simp [htype]

/-- What is read for all of them. -/
theorem reach_matchSpecs_le_iff (e : StreamEntry) (specs : List StreamSpec) (reach : ℕ) :
    (matchSpecs pmt e specs reach).2 ≤ bound ↔
      reach ≤ bound ∧ ∀ spec ∈ upTo (meets pmt e) specs, SpecFits pmt bound e spec := by
  induction specs generalizing reach with
  | nil => simp [matchSpecs, upTo]
  | cons spec specs ih =>
    have hfst := @fst_matchSpec pmt e spec reach
    have hsnd := @reach_matchSpec_le_iff pmt bound e spec reach
    rw [matchSpecs]
    rcases hspec : matchSpec pmt e spec reach with ⟨_ | _, reach'⟩
    · rw [hspec] at hfst hsnd
      rw [upTo_cons_of_false hfst.symm, List.forall_mem_cons, ← and_assoc, ← hsnd]
      exact ih reach'
    · rw [hspec] at hfst hsnd
      rw [upTo_cons_of_true hfst.symm, List.forall_mem_singleton, ← hsnd]

/-! ## The loop over the streams -/

section Streams

variable (h264Enabled : Bool) (specs : List StreamSpec)

/-- No stream type is of two kinds. -/
theorem not_isVideo_of_isAudio {streamType : ℕ} (h : isAudio streamType = true) :
    isVideo streamType = false := by
  simp only [isAudio, isVideo, List.mem_cons, List.not_mem_nil, or_false, decide_eq_true_eq,
    decide_eq_false_iff_not] at h ⊢
  omega

theorem not_isAudio_of_isData {streamType : ℕ} (h : isData streamType = true) :
    isVideo streamType = false ∧ isAudio streamType = false := by
  obtain rfl : streamType = 0x86 := of_decide_eq_true h
  exact ⟨by decide, by decide⟩

/-- Only the descriptors of an audio stream are read while the stream is sorted. -/
theorem sortStream_of_isAudio {e : StreamEntry} (h : isAudio e.streamType = true)
    (hlen : 2 < e.len) (c : Components) :
    (sortStream pmt h264Enabled e c).reach =
        (languageLoop pmt e.place (5 + e.len) 5 ⟨none, c.reach, c.work⟩).reach ∧
      (sortStream pmt h264Enabled e c).work =
        (languageLoop pmt e.place (5 + e.len) 5 ⟨none, c.reach, c.work⟩).work := by
  rw [sortStream, if_neg (by rw [not_isVideo_of_isAudio h]; decide), if_pos h, if_pos hlen]
  exact ⟨rfl, rfl⟩

theorem sortStream_of_not {e : StreamEntry} (h : ¬(isAudio e.streamType = true ∧ 2 < e.len))
    (c : Components) :
    (sortStream pmt h264Enabled e c).reach = c.reach ∧
      (sortStream pmt h264Enabled e c).work = c.work := by
  rw [sortStream]
  split_ifs with hvideo h264 haudio hlen hdata
  · exact ⟨rfl, rfl⟩
  · exact ⟨rfl, rfl⟩
  · exact absurd ⟨haudio, hlen⟩ h
  · exact ⟨rfl, rfl⟩
  · exact ⟨rfl, rfl⟩
  · exact ⟨rfl, rfl⟩

/-- What is read of one stream, and what is put into `work`. -/
theorem processStream_le_iff (e : StreamEntry) (c : Components) :
    ((processStream pmt h264Enabled specs c e).reach ≤ bound ∧
        (processStream pmt h264Enabled specs c e).work ≤ sizeofWork) ↔
      (c.reach ≤ bound ∧ c.work ≤ sizeofWork) ∧ e.place + 5 ≤ bound ∧
        LanguagesFit pmt bound e ∧ ∀ spec ∈ upTo (meets pmt e) specs, SpecFits pmt bound e spec := by
  rw [processStream, registerPrivate]
  rw [reach_matchSpecs_le_iff, LanguagesFit]
  by_cases h : isAudio e.streamType = true ∧ 2 < e.len
  · obtain ⟨hreach, hwork⟩ := sortStream_of_isAudio h264Enabled h.1 h.2
      { c with reach := max c.reach (e.place + 5) }
    rw [hreach, hwork, languageLoop_eq, reach_languages_le_iff, work_languages_le_iff]
    simp only [h.1, h.2, forall_const, Nat.max_le, StreamEntry.descriptors]
    constructor
    · rintro ⟨⟨⟨⟨hc, hplace⟩, hds⟩, hspecs⟩, hw, hlanguages⟩
      exact ⟨⟨hc, hw⟩, hplace, fun d hd => ⟨(hds d hd).1, fun htag =>
        ⟨(hds d hd).2 htag, hlanguages d hd htag⟩⟩, hspecs⟩
    · rintro ⟨⟨hc, hw⟩, hplace, hds, hspecs⟩
      exact ⟨⟨⟨⟨hc, hplace⟩, fun d hd => ⟨(hds d hd).1, fun htag => ((hds d hd).2 htag).1⟩⟩, hspecs⟩,
        hw, fun d hd htag => ((hds d hd).2 htag).2⟩
  · obtain ⟨hreach, hwork⟩ := @sortStream_of_not pmt h264Enabled e h
      { c with reach := max c.reach (e.place + 5) }
    rw [hreach, hwork, Nat.max_le]
    have hnone : isAudio e.streamType = true → 2 < e.len → False := fun ha hl => h ⟨ha, hl⟩
    constructor
    · rintro ⟨⟨⟨hc, hplace⟩, hspecs⟩, hw⟩
      exact ⟨⟨hc, hw⟩, hplace, fun ha hl => (hnone ha hl).elim, hspecs⟩
    · rintro ⟨⟨hc, hw⟩, hplace, -, hspecs⟩
      exact ⟨⟨⟨hc, hplace⟩, hspecs⟩, hw⟩

/-- What is read of all streams. -/
theorem foldl_processStream_le_iff (es : List StreamEntry) (c : Components) :
    ((es.foldl (processStream pmt h264Enabled specs) c).reach ≤ bound ∧
        (es.foldl (processStream pmt h264Enabled specs) c).work ≤ sizeofWork) ↔
      (c.reach ≤ bound ∧ c.work ≤ sizeofWork) ∧ ∀ e ∈ es, e.place + 5 ≤ bound ∧
        LanguagesFit pmt bound e ∧ ∀ spec ∈ upTo (meets pmt e) specs, SpecFits pmt bound e spec := by
  induction es generalizing c with
  | nil => simp
  | cons e es ih =>
    rw [List.foldl_cons, ih, processStream_le_iff, List.forall_mem_cons, and_assoc]

/-- A stream goes into the table of its kind. -/
theorem lengths_sortStream (e : StreamEntry) (c : Components) :
    (sortStream pmt h264Enabled e c).video.length =
        c.video.length + (if isVideo e.streamType = true then 1 else 0) ∧
      (sortStream pmt h264Enabled e c).audio.length =
        c.audio.length + (if isAudio e.streamType = true then 1 else 0) ∧
      (sortStream pmt h264Enabled e c).data.length =
        c.data.length + (if isData e.streamType = true then 1 else 0) ∧
      (sortStream pmt h264Enabled e c).privateData = c.privateData := by
  have haudio := @not_isVideo_of_isAudio e.streamType
  have hdata := @not_isAudio_of_isData e.streamType
  rw [sortStream]
  by_cases hv : isVideo e.streamType = true
  · have ha : ¬isAudio e.streamType = true := fun h => by rw [haudio h] at hv; cases hv
    have hd : ¬isData e.streamType = true := fun h => by rw [(hdata h).1] at hv; cases hv
    rw [if_pos hv, if_pos hv, if_neg ha, if_neg hd]
    split_ifs <;> exact ⟨List.length_append, rfl, rfl, rfl⟩
  · by_cases ha : isAudio e.streamType = true
    · have hd : ¬isData e.streamType = true := fun h => by rw [(hdata h).2] at ha; cases ha
      simp [hv, ha, hd]
    · by_cases hd : isData e.streamType = true
      · simp [hv, ha, hd]
      · simp [hv, ha, hd]

/-- The tables grow by one stream at a time. -/
theorem lengths_foldl (es : List StreamEntry) (c : Components) :
    (es.foldl (processStream pmt h264Enabled specs) c).video.length =
        c.video.length + es.countP (fun e => isVideo e.streamType) ∧
      (es.foldl (processStream pmt h264Enabled specs) c).audio.length =
        c.audio.length + es.countP (fun e => isAudio e.streamType) ∧
      (es.foldl (processStream pmt h264Enabled specs) c).data.length =
        c.data.length + es.countP (fun e => isData e.streamType) := by
  induction es generalizing c with
  | nil => exact ⟨rfl, rfl, rfl⟩
  | cons e es ih =>
    obtain ⟨hv, ha, hd⟩ := ih (processStream pmt h264Enabled specs c e)
    obtain ⟨hv', ha', hd', -⟩ := @lengths_sortStream pmt h264Enabled e
      { c with reach := max c.reach (e.place + 5) }
    have hv' : (processStream pmt h264Enabled specs c e).video.length = c.video.length + _ := hv'
    have ha' : (processStream pmt h264Enabled specs c e).audio.length = c.audio.length + _ := ha'
    have hd' : (processStream pmt h264Enabled specs c e).data.length = c.data.length + _ := hd'
    rw [List.foldl_cons, hv, ha, hd, List.countP_cons, List.countP_cons, List.countP_cons, hv', ha',
      hd']
    omega

end Streams

/-- The entry of a stream begins in front of the CRC. -/
theorem place_lt_of_mem_entries {e : StreamEntry} {programInfoEnd programInfo : ℕ}
    (h : e ∈ entries pmt programInfoEnd programInfo) : e.place < programInfoEnd := by
  induction programInfo using entries.induct pmt programInfoEnd with
  | case1 programInfo hlt e' ih =>
    rw [entries_cons hlt, List.mem_cons] at h
    rcases h with rfl | h
    · exact hlt
    · exact ih h
  | case2 programInfo hlt =>
    rw [entries_nil hlt] at h
    cases h

variable (pmt)

/-- **A PMT section.** Whatever its bytes are, `processPMTSection` stays inside of the
section and of its tables exactly when the section fits. -/
theorem staysInside_iff (h264Enabled isH264 triggerEnable : Bool) (specs : List StreamSpec)
    (sectionLength : ℕ) :
    StaysInside sectionLength
        (processPMTSection pmt h264Enabled specs isH264 triggerEnable sectionLength) ↔
      PmtFits pmt specs sectionLength := by
  have hprivate := @privateData_processPMTSection pmt h264Enabled isH264 triggerEnable specs
    sectionLength
  have hrun : processPMTSection pmt h264Enabled specs isH264 triggerEnable sectionLength =
      (streams pmt sectionLength).foldl (processStream pmt h264Enabled specs)
        (Components.start (pcrPidOf pmt) isH264 triggerEnable) := by
    rw [processPMTSection, processStreams_eq, streams,
      show 4 + sectionLength - 4 = sectionLength by omega]
  obtain ⟨hv, ha, hd⟩ := @lengths_foldl pmt h264Enabled specs (streams pmt sectionLength)
    (Components.start (pcrPidOf pmt) isH264 triggerEnable)
  have hle := @foldl_processStream_le_iff pmt (sectionLength + 4) h264Enabled specs
    (streams pmt sectionLength) (Components.start (pcrPidOf pmt) isH264 triggerEnable)
  rw [← hrun] at hv ha hd hle
  have hv := hv.trans (Nat.zero_add _)
  have ha := ha.trans (Nat.zero_add _)
  have hd := hd.trans (Nat.zero_add _)
  have hplace : ∀ e ∈ streams pmt sectionLength, e.place + 5 ≤ sectionLength + 4 := fun e he => by
    have := place_lt_of_mem_entries he
    omega
  constructor
  · rintro ⟨hr, hw, h1, h2, h3, h4⟩
    rw [hprivate, ← List.countP_eq_length_filter] at h4
    obtain ⟨⟨h13, -⟩, hes⟩ := hle.mp ⟨hr, hw⟩
    have h13 : 13 ≤ sectionLength + 4 := h13
    exact ⟨by omega, hv.symm.trans_le h1, ha.symm.trans_le h2, hd.symm.trans_le h3, h4, fun e he => (hes e he).2.1, fun e he => (hes e he).2.2⟩
  · rintro ⟨h9, h1, h2, h3, h4, hlanguages, hspecs⟩
    have h13 : 13 ≤ sectionLength + 4 := by omega
    obtain ⟨hr, hw⟩ := hle.mpr ⟨⟨h13, Nat.zero_le _⟩,
      fun e he => ⟨hplace e he, hlanguages e he, hspecs e he⟩⟩
    exact ⟨hr, hw, hv.trans_le h1, ha.trans_le h2, hd.trans_le h3, by
      rwa [hprivate, ← List.countP_eq_length_filter]⟩

end Memory

/-- An audio stream whose language descriptor has 32 bytes. -/
def longLanguage : List UInt8 :=
  [0x00, 0x02, 0xB0, 0x34, 0x00, 0x01, 0xC1, 0x00, 0x00, 0xE1, 0x00, 0xF0, 0x00,
    0x81, 0xE1, 0x01, 0xF0, 0x22, 0x0A, 0x20] ++ List.replicate 32 0x65 ++ [0x00, 0x00, 0x00, 0x00]

/-- The NUL is put behind the end of `work`. -/
theorem longLanguage_outside :
    ¬ ∀ pmt h264Enabled isH264 triggerEnable specs sectionLength, sectionLength ≤ 1021 →
      StaysInside sectionLength
        (processPMTSection pmt h264Enabled specs isH264 triggerEnable sectionLength) := by
  intro h
  have hinside := h (packetOf longLanguage) true false true [] 52 (by decide)
  have hstreams : streams (packetOf longLanguage) 52 = [⟨13, 0x81, 0x101, 34⟩] := by
    rw [streams, entries_cons (by decide), entries_nil (by decide)]
    rfl
  have hds : (⟨13, 0x81, 0x101, 34⟩ : StreamEntry).descriptors (packetOf longLanguage) = [5] := by
    rw [StreamEntry.descriptors, descriptorsFrom_cons (by decide), descriptorsFrom_nil (by decide)]
  have hle := And.intro hinside.reads hinside.work
  rw [processPMTSection, processStreams_eq] at hle
  have hfold := (foldl_processStream_le_iff true [] _ _).mp hle
  have hmem : (⟨13, 0x81, 0x101, 34⟩ : StreamEntry) ∈
      entries (packetOf longLanguage) (4 + 52 - 4) (streamsBegin (packetOf longLanguage)) := by
    show _ ∈ streams (packetOf longLanguage) 52
    rw [hstreams]
    exact List.mem_singleton.mpr rfl
  have hfit := (hfold.2 _ hmem).2.1 (by decide) (by decide) 5 (by rw [hds]; decide)
  exact absurd (hfit.2 (by decide)).2 (by decide)

end ProgramMap

end MediaFramework
