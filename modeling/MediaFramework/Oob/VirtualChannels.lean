import Mathlib.Data.Int.Order.Basic
import Mathlib.Data.List.ModifyLast
import Mathlib.Tactic.SplitIfs

/-!
# The virtual channel map (`rmf_OobSiParser::parseVCMStructure`)

The records of a virtual channel map are parsed and entered in the cache one after another. A record
with an invalid field is left out and its error kept; a record that does not fit in the section ends
the loop, but only when it is a descriptor that does not fit is the error kept. The flag of a
scrambled channel is set by a record and never reset, and so is the video standard that the cache has
for a channel: a record that is MPEG-2 leaves it as it was.

The parser has the whole buffer to read from, so what it reads is a function, and the section length
is all that tells it where to stop.
-/

namespace MediaFramework

/-! ## Channels in the cache -/

/-- What a virtual channel record says. -/
structure VcmEntry where
  virtual_channel_number : ℕ
  application_virtual_channel : Bool
  /-- `application_id` or `source_id` -/
  id : ℕ
  activation_time : ℕ
  cds_reference : ℕ
  mms_reference : ℕ
  channel_type : ℕ
  program_number : ℕ
  /-- `NON_MPEG_2_TRANSPORT` -/
  nonMpeg2 : Bool
  scrambled : Bool
  /-- set for channels that are not MPEG-2 -/
  video_standard : Option ℕ
  deriving DecidableEq

/-- The fields of `rmf_SiTableEntry` that the map sets. -/
structure SiTableEntry where
  virtual_channel_number : ℕ
  isAppType : Bool
  /-- unless `SOURCEID_UNKNOWN` -/
  source_id : Option ℕ
  app_id : ℕ
  activation_time : ℕ
  /-- unless `RMF_SI_DEFAULT_CHANNEL_NUMBER` -/
  major_channel_number : Option ℕ
  freq_index : ℕ
  mode_index : ℕ
  channel_type : ℕ
  program_number : ℕ
  nonMpeg2 : Bool
  scrambled : Bool
  /-- unless `VIDEO_STANDARD_UNKNOWN` -/
  video_standard : Option ℕ
  service_type : ℕ
  /-- `SIENTRY_MAPPED` -/
  mapped : Bool
  deriving DecidableEq

/-- The service entries of the cache, and the two channels that are kept by themselves. -/
structure SiChannels where
  g_si_entry : List SiTableEntry
  channelMapId : ℕ
  dacId : ℕ
  deriving DecidableEq

/-- `init_si_entry`, for a channel. -/
def SiTableEntry.init (channel_number : ℕ) : SiTableEntry where
  virtual_channel_number := channel_number
  isAppType := false
  source_id := none
  app_id := 0
  activation_time := 0
  major_channel_number := none
  freq_index := 0
  mode_index := 0
  channel_type := 1
  program_number := 0
  nonMpeg2 := false
  scrambled := false
  video_standard := none
  service_type := 0
  mapped := false

/-- The setters that a record calls. -/
def SiTableEntry.set (e : VcmEntry) (s : SiTableEntry) : SiTableEntry :=
  { s with
    isAppType := e.application_virtual_channel
    source_id := if e.application_virtual_channel then none else some e.id
    app_id := if e.application_virtual_channel then e.id else s.app_id
    activation_time := e.activation_time
    major_channel_number := some e.virtual_channel_number
    freq_index := e.cds_reference
    mode_index := e.mms_reference
    channel_type := e.channel_type
    program_number := e.program_number
    nonMpeg2 := e.nonMpeg2
    scrambled := e.scrambled
    video_standard := if e.nonMpeg2 then e.video_standard else s.video_standard
    service_type := if e.nonMpeg2 then s.service_type else 0
    mapped := true }

/-- `CHMAP_SOURCEID` -/
def chmapSourceId : ℕ := 0xacdc

/-- `DAC_SOURCEID` -/
def dacSourceId : ℕ := 0xacdd

/-- A record is entered: `GetServiceEntryFromChannelNumber` finds the entry of its channel or appends
one, and the setters set its fields. -/
def SiChannels.enter (c : SiChannels) (e : VcmEntry) : SiChannels :=
  let isFor := fun s : SiTableEntry =>
    decide (s.virtual_channel_number = e.virtual_channel_number)
  let named := !e.application_virtual_channel && decide (e.virtual_channel_number ≠ 0)
  { g_si_entry :=
      if c.g_si_entry.any isFor then
        c.g_si_entry.modify (c.g_si_entry.findIdx isFor) (SiTableEntry.set e)
      else c.g_si_entry ++ [SiTableEntry.set e (.init e.virtual_channel_number)]
    channelMapId :=
      if named && decide (e.id = chmapSourceId) then e.virtual_channel_number else c.channelMapId
    dacId := if named && decide (e.id = dacSourceId) then e.virtual_channel_number else c.dacId }

/-- The entry that `GetServiceEntryFromChannelNumber` finds for a channel. -/
def SiChannels.entryFor (c : SiChannels) (channel : ℕ) : Option SiTableEntry :=
  c.g_si_entry.find? fun s => decide (s.virtual_channel_number = channel)

section Find

variable {α : Type} {p q : α → Bool} {f : α → α}

/-- The first element that was found is found again, modified. -/
theorem find?_modify_findIdx (hf : ∀ a, p a = true → p (f a) = true) (l : List α) :
    (l.modify (l.findIdx p) f).find? p = (l.find? p).map f := by
  induction l with
  | nil => rfl
  | cons a l ih =>
    rcases ha : p a with _ | _
    · rw [List.findIdx_cons, ha, cond_false, List.modify_succ_cons, List.find?_cons_of_neg (by simp [ha]),
        List.find?_cons_of_neg (by simp [ha]), ih]
    · rw [List.findIdx_cons, ha, cond_true, List.modify_zero_cons, List.find?_cons_of_pos (hf a ha),
        List.find?_cons_of_pos ha, Option.map_some]

/-- What is looked for elsewhere is found as before. -/
theorem find?_modify_findIdx_of_ne (hf : ∀ a, p a = true → q a = false ∧ q (f a) = false)
    (l : List α) : (l.modify (l.findIdx p) f).find? q = l.find? q := by
  induction l with
  | nil => rfl
  | cons a l ih =>
    rcases ha : p a with _ | _
    · rw [List.findIdx_cons, ha, cond_false, List.modify_succ_cons, List.find?_cons, List.find?_cons,
        ih]
    · obtain ⟨hq, hq'⟩ := hf a ha
      rw [List.findIdx_cons, ha, cond_true, List.modify_zero_cons, List.find?_cons, List.find?_cons,
        hq, hq']

end Find

/-- The entry of the record's channel is set, a new one if there was none. -/
theorem SiChannels.entryFor_enter (c : SiChannels) (e : VcmEntry) :
    (c.enter e).entryFor e.virtual_channel_number = some (SiTableEntry.set e
      ((c.entryFor e.virtual_channel_number).getD (.init e.virtual_channel_number))) := by
  rw [entryFor, entryFor, enter]
  dsimp only
  split_ifs with hany
  · rw [find?_modify_findIdx (f := SiTableEntry.set e)
      (p := fun s : SiTableEntry => decide (s.virtual_channel_number = e.virtual_channel_number))
      (fun _ hs => hs)]
    obtain ⟨s, hs⟩ := Option.isSome_iff_exists.mp (List.find?_isSome.mpr (List.any_eq_true.mp hany))
    rw [hs, Option.map_some, Option.getD_some]
  · have hnone : c.g_si_entry.find? (fun s =>
        decide (s.virtual_channel_number = e.virtual_channel_number)) = none :=
      List.find?_eq_none.mpr fun s hs hp => hany (List.any_eq_true.mpr ⟨s, hs, hp⟩)
    rw [List.find?_append, hnone, Option.none_or, Option.getD_none]
    exact List.find?_cons_of_pos (decide_eq_true rfl)

/-- The other channels keep theirs. -/
theorem SiChannels.entryFor_enter_of_ne (c : SiChannels) {e : VcmEntry} {channel : ℕ}
    (h : e.virtual_channel_number ≠ channel) : (c.enter e).entryFor channel = c.entryFor channel := by
  have hother : ∀ s : SiTableEntry, s.virtual_channel_number = e.virtual_channel_number →
      decide (s.virtual_channel_number = channel) = false := fun s hs =>
    decide_eq_false fun heq => h (hs.symm.trans heq)
  rw [entryFor, entryFor, enter]
  dsimp only
  split_ifs with hany
  · exact find?_modify_findIdx_of_ne (f := SiTableEntry.set e)
      (fun s hs => ⟨hother s (of_decide_eq_true hs), hother _ (of_decide_eq_true hs)⟩) _
  · rw [List.find?_append, List.find?_cons_of_neg (by simpa [SiTableEntry.set, SiTableEntry.init]),
      List.find?_nil, Option.or_none]

/-- The video standard that the cache has for a channel. -/
def SiChannels.videoStandard (c : SiChannels) (channel : ℕ) : Option ℕ :=
  (c.entryFor channel).bind SiTableEntry.video_standard

/-- Only a channel that is not MPEG-2 has its video standard set. -/
theorem SiChannels.videoStandard_enter (c : SiChannels) (e : VcmEntry) (channel : ℕ) :
    (c.enter e).videoStandard channel =
      if e.virtual_channel_number = channel ∧ e.nonMpeg2 = true then e.video_standard
      else c.videoStandard channel := by
  by_cases hchannel : e.virtual_channel_number = channel
  · subst hchannel
    rw [videoStandard, entryFor_enter, Option.bind_some, SiTableEntry.set]
    dsimp only
    simp only [true_and]
    refine if_congr Iff.rfl rfl ?_
    rw [videoStandard]
    rcases c.entryFor e.virtual_channel_number with _ | s
    · rfl
    · rfl
  · rw [videoStandard, entryFor_enter_of_ne c hchannel, if_neg fun h => hchannel h.1]
    rfl

/-! ## The parser -/

/-- The locals that survive a round of the loop over the records, the pointer and the section
length, and the records that have been entered, with the places they were read from. -/
structure VcmWalk where
  ptr_TableSection : ℕ
  section_length : ℤ
  program_number : ℕ
  mms_reference : ℕ
  scrambled : Bool
  video_standard : ℕ
  saved_svct_error : ℕ
  entered : List (ℕ × VcmEntry)

namespace VirtualChannels

section Parser

variable (bytes : ℕ → UInt8)

/-- The `while` loop over the descriptors: the pointer, the section length, and whether that was not
large enough. -/
def skipDescriptors : ℕ → ℕ → ℤ → ℕ × ℤ × Bool
  | 0, ptr, section_length => (ptr, section_length, false)
  | descriptor_count + 1, ptr, section_length =>
    let length := 2 + (bytes (ptr + 1)).toNat
    if section_length - length < 0 then (ptr + length, section_length - length, true)
    else skipDescriptors descriptor_count (ptr + length) (section_length - length)

/-- The fixed part of a record: the locals behind it, and `svct_error`. -/
def vcmFields (s : VcmWalk) : VcmWalk × ℕ :=
  let octet := fun i => (bytes (s.ptr_TableSection + i)).toNat
  let application_virtual_channel := decide (octet 2 &&& 0x80 ≠ 0)
  let nonMpeg2 := decide (octet 2 &&& 0x10 ≠ 0)
  let application_id := octet 3 <<< 8 ||| octet 4
  let svct_error := if application_virtual_channel && decide (application_id = 0) then 30 else 0
  let cds_reference := octet 5
  let svct_error := if !nonMpeg2 && decide (cds_reference = 0) then 32 else svct_error
  let program_number := if nonMpeg2 then 0 else octet 6 <<< 8 ||| octet 7
  let mms_reference := if nonMpeg2 then 0 else octet 8
  let svct_error := if !nonMpeg2 && decide (mms_reference = 0) then 33 else svct_error
  let scrambled := if nonMpeg2 && decide (octet 6 &&& 0x80 ≠ 0) then true else s.scrambled
  let video_standard := if nonMpeg2 then octet 6 &&& 0x0F else s.video_standard
  let svct_error := if nonMpeg2 && decide (4 < video_standard) then 35 else svct_error
  ({ s with
    ptr_TableSection := s.ptr_TableSection + 9
    section_length := s.section_length - 9
    program_number := program_number
    mms_reference := mms_reference
    scrambled := scrambled
    video_standard := video_standard }, svct_error)

/-- What is entered of the record at a place. -/
def vcmEntry (activation_time place : ℕ) (s : VcmWalk) : VcmEntry :=
  let octet := fun i => (bytes (place + i)).toNat
  let nonMpeg2 := decide (octet 2 &&& 0x10 ≠ 0)
  { virtual_channel_number := (octet 0 &&& 0x0F) <<< 8 ||| octet 1
    application_virtual_channel := decide (octet 2 &&& 0x80 ≠ 0)
    id := octet 3 <<< 8 ||| octet 4
    activation_time := activation_time
    cds_reference := octet 5
    mms_reference := s.mms_reference
    channel_type := octet 2 &&& 0x0F
    program_number := s.program_number
    nonMpeg2 := nonMpeg2
    scrambled := s.scrambled
    video_standard := if nonMpeg2 then some s.video_standard else none }

/-- The descriptors of a record, if there are any. -/
def vcmDescriptors (descriptors_included : Bool) (s : VcmWalk) : VcmWalk × Bool :=
  if descriptors_included then
    let (ptr, section_length, short) := skipDescriptors bytes (bytes s.ptr_TableSection).toNat
      (s.ptr_TableSection + 1) (s.section_length - 1)
    ({ s with ptr_TableSection := ptr, section_length := section_length }, short)
  else (s, false)

/-- The record at a place is entered, or its error saved. -/
def vcmOutcome (activation_time place svct_error : ℕ) (s : VcmWalk) : VcmWalk × Bool :=
  if svct_error = 0 then
    ({ s with entered := s.entered ++ [(place, vcmEntry bytes activation_time place s)] }, false)
  else ({ s with saved_svct_error := svct_error }, decide (svct_error = 40))

/-- A round of the loop over the records, and whether it is the last one (`break`). -/
def vcmRecord (descriptors_included : Bool) (activation_time : ℕ) (s : VcmWalk) :
    VcmWalk × Bool :=
  let place := s.ptr_TableSection
  let (s, svct_error) := vcmFields bytes s
  -- errors 37 and 38, which are not saved
  if s.section_length < 0 ∨ s.section_length = 0 ∧ descriptors_included = true then (s, true)
  else
    let (s, short) := vcmDescriptors bytes descriptors_included s
    vcmOutcome bytes activation_time place (if short then 40 else svct_error) s

/-- The loop over the records. -/
def vcmRecords (descriptors_included : Bool) (activation_time : ℕ) : ℕ → VcmWalk → VcmWalk
  | 0, s => s
  | n + 1, s =>
    match vcmRecord bytes descriptors_included activation_time s with
    | (s, true) => s
    | (s, false) => vcmRecords descriptors_included activation_time n s

/-- `descriptors_included` -/
def descriptorsIncluded : Bool := decide ((bytes 0).toNat &&& 0x20 ≠ 0)

/-- `activation_time` -/
def activationTime : ℕ :=
  (bytes 2).toNat <<< 24 ||| (bytes 3).toNat <<< 16 ||| (bytes 4).toNat <<< 8 ||| (bytes 5).toNat

/-- `number_of_vc_records` -/
def numberOfVcRecords : ℕ := (bytes 6).toNat

/-- The walk as it begins, behind the head of the structure. -/
def vcmStart (section_length : ℤ) : VcmWalk where
  ptr_TableSection := 7
  section_length := section_length - 7
  program_number := 0
  mms_reference := 0
  scrambled := false
  video_standard := 0
  saved_svct_error := 0
  entered := []

/-- The walk over the records; errors 24 and 25 keep it from beginning, and are not saved. -/
def vcmWalk (section_length : ℤ) : VcmWalk :=
  if numberOfVcRecords bytes = 0 ∨ section_length - 7 ≤ 0 then vcmStart section_length
  else vcmRecords bytes (descriptorsIncluded bytes) (activationTime bytes)
    (numberOfVcRecords bytes) (vcmStart section_length)

/-- `parseVCMStructure`: the error code and the cache. -/
def parseVCMStructure (section_length : ℤ) (c : SiChannels) : ℕ × SiChannels :=
  let s := vcmWalk bytes section_length
  (s.saved_svct_error, s.entered.foldl (fun c e => c.enter e.2) c)

end Parser

/-! ## Records by themselves -/

section Records

variable (bytes : ℕ → UInt8)

/-- The length of some descriptors. -/
def descriptorsLength : ℕ → ℕ → ℕ
  | 0, _ => 0
  | n + 1, p =>
    2 + (bytes (p + 1)).toNat + descriptorsLength n (p + (2 + (bytes (p + 1)).toNat))

/-- Where the fields of a record end, and the number of its descriptors, if there is one. -/
def fieldsEnd (p : ℕ) : ℕ := p + 9 + if descriptorsIncluded bytes then 1 else 0

/-- The length of a record with its descriptors. -/
def recordLength (p : ℕ) : ℕ :=
  9 + if descriptorsIncluded bytes then
    1 + descriptorsLength bytes (bytes (p + 9)).toNat (p + 10) else 0

/-- Where the records begin. -/
def place : ℕ → ℕ
  | 0 => 7
  | k + 1 => place k + recordLength bytes (place k)

/-- The error of the fields of a record. -/
def recordError (p : ℕ) : ℕ :=
  let nonMpeg2 := decide ((bytes (p + 2)).toNat &&& 0x10 ≠ 0)
  if nonMpeg2 && decide (4 < (bytes (p + 6)).toNat &&& 0x0F) then 35
  else if !nonMpeg2 && decide ((bytes (p + 8)).toNat = 0) then 33
  else if !nonMpeg2 && decide ((bytes (p + 5)).toNat = 0) then 32
  else if decide ((bytes (p + 2)).toNat &&& 0x80 ≠ 0) &&
    decide ((bytes (p + 3)).toNat <<< 8 ||| (bytes (p + 4)).toNat = 0) then 30
  else 0

/-- The flag of a scrambled channel. -/
def isScrambled (p : ℕ) : Bool :=
  decide ((bytes (p + 2)).toNat &&& 0x10 ≠ 0) && decide ((bytes (p + 6)).toNat &&& 0x80 ≠ 0)

/-- What a record says, but for the flag of a scrambled channel. -/
def recordEntry (p : ℕ) (scrambled : Bool) : VcmEntry :=
  let nonMpeg2 := decide ((bytes (p + 2)).toNat &&& 0x10 ≠ 0)
  { virtual_channel_number := ((bytes p).toNat &&& 0x0F) <<< 8 ||| (bytes (p + 1)).toNat
    application_virtual_channel := decide ((bytes (p + 2)).toNat &&& 0x80 ≠ 0)
    id := (bytes (p + 3)).toNat <<< 8 ||| (bytes (p + 4)).toNat
    activation_time := activationTime bytes
    cds_reference := (bytes (p + 5)).toNat
    mms_reference := if nonMpeg2 then 0 else (bytes (p + 8)).toNat
    channel_type := (bytes (p + 2)).toNat &&& 0x0F
    program_number :=
      if nonMpeg2 then 0 else (bytes (p + 6)).toNat <<< 8 ||| (bytes (p + 7)).toNat
    nonMpeg2 := nonMpeg2
    scrambled := scrambled
    video_standard := if nonMpeg2 then some ((bytes (p + 6)).toNat &&& 0x0F) else none }

/-- What a record says. -/
def ownEntry (p : ℕ) : VcmEntry := recordEntry bytes p (isScrambled bytes p)

/-- One of the first records is scrambled. -/
def scrambledBefore : ℕ → Bool
  | 0 => false
  | k + 1 => scrambledBefore k || isScrambled bytes (place bytes k)

/-- The last error of the first records. -/
def lastError : ℕ → ℕ
  | 0 => 0
  | k + 1 =>
    if recordError bytes (place bytes k) = 0 then lastError k else recordError bytes (place bytes k)

/-- What the first records enter. -/
def enteredBy : ℕ → List (ℕ × VcmEntry)
  | 0 => []
  | k + 1 => enteredBy k ++ if recordError bytes (place bytes k) = 0 then
      [(place bytes k, recordEntry bytes (place bytes k) (scrambledBefore bytes (k + 1)))] else []

end Records

variable {bytes : ℕ → UInt8} {section_length : ℤ} {s : VcmWalk}

theorem fieldsEnd_le (bytes : ℕ → UInt8) (p : ℕ) : fieldsEnd bytes p ≤ p + recordLength bytes p := by
  rw [fieldsEnd, recordLength]
  split_ifs <;> omega

theorem recordError_ne (bytes : ℕ → UInt8) (p : ℕ) : recordError bytes p ≠ 40 := by
  rw [recordError]
  split_ifs <;> decide

theorem place_le_place (bytes : ℕ → UInt8) {j k : ℕ} (h : j ≤ k) : place bytes j ≤ place bytes k := by
  induction h with
  | refl => exact Nat.le_refl _
  | step _ ih =>
    rw [place]
    omega

/-- Descriptors that fit are skipped. -/
theorem skipDescriptors_of_le : ∀ (n p : ℕ) (l : ℤ), (descriptorsLength bytes n p : ℤ) ≤ l →
    skipDescriptors bytes n p l =
      (p + descriptorsLength bytes n p, l - descriptorsLength bytes n p, false) := by
  intro n
  induction n with
  | zero =>
    intro p l _
    simp [skipDescriptors, descriptorsLength]
  | succ n ih =>
    intro p l hle
    rw [descriptorsLength] at hle ⊢
    rw [skipDescriptors, if_neg (by omega), ih _ _ (by omega)]
    refine Prod.ext (by dsimp only; omega) (Prod.ext (by dsimp only; omega) rfl)

/-- It is found out when they do not fit. -/
theorem skipDescriptors_of_lt : ∀ (n p : ℕ) (l : ℤ), 0 ≤ l → l < descriptorsLength bytes n p →
    (skipDescriptors bytes n p l).2.2 = true := by
  intro n
  induction n with
  | zero =>
    intro p l hpos hlt
    rw [descriptorsLength] at hlt
    omega
  | succ n ih =>
    intro p l hpos hlt
    rw [descriptorsLength] at hlt
    rw [skipDescriptors]
    split_ifs with hneg
    · rfl
    · exact ih _ _ (by omega) (by omega)

/-- The error of a record depends on its fields only. -/
theorem vcmFields_error (bytes : ℕ → UInt8) (s : VcmWalk) :
    (vcmFields bytes s).2 = recordError bytes s.ptr_TableSection := by
  simp only [vcmFields, recordError]
  rcases decide ((bytes (s.ptr_TableSection + 2)).toNat &&& 0x10 ≠ 0) with _ | _
  · simp only [Bool.not_false, Bool.true_and, Bool.false_and, Bool.false_eq_true, if_false]
  · simp only [Bool.not_true, Bool.true_and, Bool.false_and, Bool.false_eq_true, if_false, if_true]

/-- What is entered depends on the record, and on whether one was scrambled. -/
theorem vcmEntry_fields (bytes : ℕ → UInt8) (s s' : VcmWalk)
    (hmms : s'.mms_reference = (vcmFields bytes s).1.mms_reference)
    (hprogram : s'.program_number = (vcmFields bytes s).1.program_number)
    (hvideo : s'.video_standard = (vcmFields bytes s).1.video_standard) :
    vcmEntry bytes (activationTime bytes) s.ptr_TableSection s' =
      recordEntry bytes s.ptr_TableSection s'.scrambled := by
  rw [vcmEntry, hmms, hprogram, hvideo]
  simp only [vcmFields, recordEntry, Nat.add_zero]
  rcases decide ((bytes (s.ptr_TableSection + 2)).toNat &&& 0x10 ≠ 0) with _ | _
  · rfl
  · rfl

theorem vcmFields_scrambled (bytes : ℕ → UInt8) (s : VcmWalk) :
    (vcmFields bytes s).1.scrambled = (s.scrambled || isScrambled bytes s.ptr_TableSection) := by
  simp only [vcmFields, isScrambled]
  split_ifs with h
  · rw [h, Bool.or_true]
  · rw [Bool.not_eq_true] at h
    rw [h, Bool.or_false]

/-- The walk is behind the first records, which all were inside the section. -/
structure After (bytes : ℕ → UInt8) (section_length : ℤ) (k : ℕ) (s : VcmWalk) : Prop where
  ptr : s.ptr_TableSection = place bytes k
  length : s.section_length = section_length - place bytes k
  scrambled : s.scrambled = scrambledBefore bytes k
  error : s.saved_svct_error = lastError bytes k
  entered : s.entered = enteredBy bytes k

/-- The flag of the descriptors and the activation time are those of the head. -/
abbrev round (bytes : ℕ → UInt8) (s : VcmWalk) : VcmWalk × Bool :=
  vcmRecord bytes (descriptorsIncluded bytes) (activationTime bytes) s

/-- Whether descriptors fit is told by their length. -/
theorem vcmDescriptors_eq {f : VcmWalk} {p : ℕ} (hptr : f.ptr_TableSection = p + 9)
    (hlen : f.section_length = section_length - (p + 9 : ℕ))
    (hle : (fieldsEnd bytes p : ℤ) ≤ section_length) :
    if (p + recordLength bytes p : ℕ) ≤ section_length then
      vcmDescriptors bytes (descriptorsIncluded bytes) f = ({ f with
        ptr_TableSection := p + recordLength bytes p
        section_length := section_length - (p + recordLength bytes p : ℕ) }, false)
    else (vcmDescriptors bytes (descriptorsIncluded bytes) f).2 = true ∧
      (vcmDescriptors bytes (descriptorsIncluded bytes) f).1.entered = f.entered := by
  rw [fieldsEnd] at hle
  rw [recordLength, vcmDescriptors]
  rcases hd : descriptorsIncluded bytes with _ | _
  · rw [hd] at hle
    simp only [Bool.false_eq_true, if_false, Nat.add_zero] at hle ⊢
    rw [if_pos hle, ← hlen, ← hptr]
  · have hfirst : p + 9 + 1 = p + 10 := rfl
    rw [hd] at hle
    simp only [if_true] at hle ⊢
    rw [hptr, hlen, hfirst]
    split_ifs with h
    · rw [skipDescriptors_of_le _ _ _ (by omega)]
      refine Prod.ext (congrArg₂ (fun p l => { f with ptr_TableSection := p, section_length := l })
        ?_ ?_) rfl <;> dsimp only <;> omega
    · exact ⟨skipDescriptors_of_lt _ _ _ (by omega) (by omega), trivial⟩

/-- The loop ends without an error when the fields do not fit. -/
theorem breaks_iff {p : ℕ} (hlen : s.section_length = section_length - p) :
    ((vcmFields bytes s).1.section_length < 0 ∨ (vcmFields bytes s).1.section_length = 0 ∧
      descriptorsIncluded bytes = true) ↔ section_length < fieldsEnd bytes p := by
  have hlength : (vcmFields bytes s).1.section_length = s.section_length - 9 := rfl
  rw [hlength, hlen, fieldsEnd]
  rcases descriptorsIncluded bytes with _ | _
  · simp only [Bool.false_eq_true, and_false, or_false, if_false]
    omega
  · simp only [and_true, if_true]
    omega

/-- **A round from the fields on.** -/
theorem round_of_le {p : ℕ} (hptr : s.ptr_TableSection = p)
    (hlen : s.section_length = section_length - p)
    (hle : (fieldsEnd bytes p : ℤ) ≤ section_length) :
    round bytes s = vcmOutcome bytes (activationTime bytes) p
      (if (vcmDescriptors bytes (descriptorsIncluded bytes) (vcmFields bytes s).1).2 then 40
        else recordError bytes p)
      (vcmDescriptors bytes (descriptorsIncluded bytes) (vcmFields bytes s).1).1 := by
  subst hptr
  rw [round, vcmRecord]
  dsimp only
  rw [if_neg fun h => Int.not_le_of_gt ((breaks_iff hlen).mp h) hle, vcmFields_error bytes]

/-- **A record inside the section** is entered or its error kept. -/
theorem round_inside {k : ℕ} (h : After bytes section_length k s)
    (hinside : (place bytes (k + 1) : ℤ) ≤ section_length) :
    (round bytes s).2 = false ∧ After bytes section_length (k + 1) (round bytes s).1 := by
  have hle : (fieldsEnd bytes (place bytes k) : ℤ) ≤ section_length := by
    have := fieldsEnd_le bytes (place bytes k)
    rw [place] at hinside
    omega
  have hfields := vcmDescriptors_eq (f := (vcmFields bytes s).1) (p := place bytes k)
    (congrArg (· + 9) h.ptr) (show s.section_length - 9 = _ by have := h.length; omega) hle
  rw [place] at hinside
  rw [if_pos hinside] at hfields
  rw [round_of_le h.ptr h.length hle, hfields]
  rw [if_neg Bool.false_ne_true, vcmOutcome]
  have hscrambled := vcmFields_scrambled bytes s
  rw [h.ptr, h.scrambled] at hscrambled
  have hne := recordError_ne bytes (place bytes k)
  split_ifs with herror
  · refine ⟨rfl, rfl, rfl, hscrambled, ?_, ?_⟩
    · rw [lastError, if_pos herror]
      exact h.error
    · have hentry := vcmEntry_fields bytes s { (vcmFields bytes s).1 with
        ptr_TableSection := place bytes k + recordLength bytes (place bytes k)
        section_length := section_length - (place bytes k + recordLength bytes (place bytes k) : ℕ) }
        rfl rfl rfl
      rw [h.ptr] at hentry
      rw [enteredBy, if_pos herror, hentry, scrambledBefore, ← hscrambled, ← h.entered]
      rfl
  · refine ⟨decide_eq_false hne, rfl, rfl, hscrambled, ?_, ?_⟩
    · rw [lastError, if_neg herror]
    · rw [enteredBy, if_neg herror, List.append_nil, ← h.entered]
      rfl

/-- **A record that does not fit** ends the loop, and nothing of it is entered; its error is kept
only when its fields fit. -/
theorem round_outside {k : ℕ} (h : After bytes section_length k s)
    (houtside : section_length < place bytes (k + 1)) :
    (round bytes s).2 = true ∧ (round bytes s).1.entered = enteredBy bytes k ∧
      (round bytes s).1.saved_svct_error =
        if (fieldsEnd bytes (place bytes k) : ℤ) ≤ section_length then 40
        else lastError bytes k := by
  by_cases hle : (fieldsEnd bytes (place bytes k) : ℤ) ≤ section_length
  · have hfields := vcmDescriptors_eq (f := (vcmFields bytes s).1) (p := place bytes k)
      (congrArg (· + 9) h.ptr) (show s.section_length - 9 = _ by have := h.length; omega) hle
    rw [place] at houtside
    rw [if_neg (Int.not_le_of_gt houtside)] at hfields
    obtain ⟨hshort, hentered⟩ := hfields
    rw [round_of_le h.ptr h.length hle, hshort, if_pos rfl, vcmOutcome, if_neg (by decide),
      if_pos hle]
    exact ⟨rfl, hentered.trans h.entered, rfl⟩
  · rw [if_neg hle, round, vcmRecord]
    dsimp only
    rw [if_pos]
    · exact ⟨rfl, h.entered, h.error⟩
    · exact (breaks_iff h.length).mpr (by omega)

/-! ## The walk -/

/-- The walk behind records that are all inside the section. -/
theorem vcmRecords_inside (m : ℕ) : ∀ (n k : ℕ) {s : VcmWalk}, After bytes section_length k s →
    (place bytes (k + m) : ℤ) ≤ section_length → ∃ s', After bytes section_length (k + m) s' ∧
      vcmRecords bytes (descriptorsIncluded bytes) (activationTime bytes) (m + n) s =
        vcmRecords bytes (descriptorsIncluded bytes) (activationTime bytes) n s' := by
  induction m with
  | zero =>
    intro n k s h _
    exact ⟨s, h, by rw [Nat.zero_add]⟩
  | succ m ih =>
    intro n k s h hinside
    have hnext : place bytes (k + 1) ≤ place bytes (k + (m + 1)) := place_le_place bytes (by omega)
    obtain ⟨hlast, hafter⟩ := round_inside h (by omega)
    obtain ⟨s', hs', heq⟩ := ih n (k + 1) hafter (by rwa [Nat.add_right_comm, Nat.add_assoc])
    refine ⟨s', by rwa [Nat.add_right_comm, Nat.add_assoc] at hs', ?_⟩
    rw [Nat.add_right_comm, vcmRecords, ← heq]
    rcases hround : round bytes s with ⟨t, b⟩
    rw [hround] at hlast
    obtain rfl : b = false := hlast
    dsimp only [round] at hround
    rw [hround]

theorem after_start (bytes : ℕ → UInt8) (section_length : ℤ) :
    After bytes section_length 0 (vcmStart section_length) :=
  ⟨rfl, rfl, rfl, rfl, rfl⟩

/-- **The walk** does not begin, or it comes to the end, or to a record that does not fit. -/
theorem vcmWalk_cases (bytes : ℕ → UInt8) (section_length : ℤ) :
    ((numberOfVcRecords bytes = 0 ∨ section_length ≤ 7) ∧
      vcmWalk bytes section_length = vcmStart section_length) ∨
    (7 < section_length ∧ (place bytes (numberOfVcRecords bytes) : ℤ) ≤ section_length ∧
      After bytes section_length (numberOfVcRecords bytes) (vcmWalk bytes section_length)) ∨
    ∃ k < numberOfVcRecords bytes, 7 < section_length ∧ (place bytes k : ℤ) ≤ section_length ∧
      section_length < place bytes (k + 1) ∧
      (vcmWalk bytes section_length).entered = enteredBy bytes k ∧
      (vcmWalk bytes section_length).saved_svct_error =
        if (fieldsEnd bytes (place bytes k) : ℤ) ≤ section_length then 40
        else lastError bytes k := by
  rw [vcmWalk]
  split_ifs with hshort
  · exact Or.inl ⟨by omega, rfl⟩
  · right
    by_cases hall : (place bytes (numberOfVcRecords bytes) : ℤ) ≤ section_length
    · obtain ⟨s', hs', heq⟩ := vcmRecords_inside (numberOfVcRecords bytes) 0 0
        (after_start bytes section_length) (by rwa [Nat.zero_add])
      rw [Nat.add_zero] at heq
      rw [Nat.zero_add] at hs'
      rw [heq]
      exact Or.inl ⟨by omega, hall, hs'⟩
    · obtain ⟨k, hk, hfirst⟩ : ∃ k, section_length < place bytes (k + 1) ∧
          (place bytes k : ℤ) ≤ section_length := by
        by_contra hnone
        push Not at hnone
        have hle : ∀ k, (place bytes k : ℤ) ≤ section_length := by
          intro k
          induction k with
          | zero =>
            rw [place]
            omega
          | succ k ih =>
            by_contra hlt
            exact absurd ih (Int.not_le_of_gt (hnone k (by omega)))
        exact hall (hle _)
      have hlt : k < numberOfVcRecords bytes := by
        by_contra hge
        have := place_le_place bytes (Nat.le_of_not_lt hge)
        omega
      obtain ⟨m, hm⟩ : ∃ m, numberOfVcRecords bytes = k + (m + 1) :=
        ⟨numberOfVcRecords bytes - k - 1, by omega⟩
      obtain ⟨s', hs', heq⟩ := vcmRecords_inside k (m + 1) 0
        (after_start bytes section_length) (by rwa [Nat.zero_add])
      rw [Nat.zero_add] at hs'
      obtain ⟨hlast, hentered, herror⟩ := round_outside hs' hk
      have hend : vcmRecords bytes (descriptorsIncluded bytes) (activationTime bytes) (m + 1) s' =
          (round bytes s').1 := by
        rw [vcmRecords]
        rcases hround : round bytes s' with ⟨t, b⟩
        rw [hround] at hlast
        obtain rfl : b = true := hlast
        dsimp only [round] at hround
        rw [hround]
      refine Or.inr ⟨k, hlt, by omega, hfirst, hk, ?_, ?_⟩
      · rw [hm, heq, hend, hentered]
      · rw [hm, heq, hend, herror]

theorem lastError_eq_zero (k : ℕ) :
    lastError bytes k = 0 ↔ ∀ j < k, recordError bytes (place bytes j) = 0 := by
  induction k with
  | zero => simp [lastError]
  | succ k ih =>
    rw [lastError, Nat.forall_lt_succ_right]
    split_ifs with h
    · rw [ih]
      exact (and_iff_left h).symm
    · exact iff_of_false h fun hall => h hall.2

theorem scrambledBefore_iff (k : ℕ) :
    scrambledBefore bytes k = true ↔ ∃ i < k, isScrambled bytes (place bytes i) = true := by
  induction k with
  | zero => simp [scrambledBefore]
  | succ k ih => rw [scrambledBefore, Bool.or_eq_true, ih, Nat.exists_lt_succ_right]

theorem mem_enteredBy (k : ℕ) (e : ℕ × VcmEntry) :
    e ∈ enteredBy bytes k ↔ ∃ j < k, recordError bytes (place bytes j) = 0 ∧
      e = (place bytes j, recordEntry bytes (place bytes j) (scrambledBefore bytes (j + 1))) := by
  induction k with
  | zero => simp [enteredBy]
  | succ k ih =>
    rw [enteredBy, List.mem_append, ih, Nat.exists_lt_succ_right]
    split_ifs with h
    · simp [h]
    · simp [h]

/-- Records without errors are entered one after another. -/
theorem enteredBy_eq (k : ℕ) (h : ∀ j < k, recordError bytes (place bytes j) = 0) :
    enteredBy bytes k = (List.range k).map fun j =>
      (place bytes j, recordEntry bytes (place bytes j) (scrambledBefore bytes (j + 1))) := by
  induction k with
  | zero => rfl
  | succ k ih =>
    rw [enteredBy, ih fun j hj => h j (by omega), if_pos (h k (by omega)), List.range_succ,
      List.map_append]
    rfl

/-! ## What is stored

A record is entered if it lies inside the section and none of its fields is invalid. The entry of its
channel is what the record says, unless a later record of the same channel is entered. Behind both
stands the cache as the first records leave it.
-/

/-- The record is entered. -/
structure IsEntered (bytes : ℕ → UInt8) (section_length : ℤ) (j : ℕ) : Prop where
  counted : j < numberOfVcRecords bytes
  /-- with its descriptors -/
  inside : (place bytes (j + 1) : ℤ) ≤ section_length
  valid : recordError bytes (place bytes j) = 0

/-- `virtual_channel_number` -/
def channelOf (bytes : ℕ → UInt8) (j : ℕ) : ℕ :=
  (ownEntry bytes (place bytes j)).virtual_channel_number

/-- `transport_type` -/
def isNonMpeg2 (bytes : ℕ → UInt8) (j : ℕ) : Bool := (ownEntry bytes (place bytes j)).nonMpeg2

/-- The record is the last one of its channel that is entered: its entry stays. -/
structure IsStored (bytes : ℕ → UInt8) (section_length : ℤ) (j : ℕ) : Prop where
  entered : IsEntered bytes section_length j
  last : ∀ l, j < l → IsEntered bytes section_length l → channelOf bytes l ≠ channelOf bytes j

/-- The entry of its channel is what a record says. A channel that is MPEG-2 has no video
standard. -/
def StoresEntry (c : SiChannels) (e : VcmEntry) : Prop :=
  ∃ s, c.entryFor e.virtual_channel_number = some s ∧ s.scrambled = e.scrambled ∧
    s.program_number = e.program_number ∧ s.mode_index = e.mms_reference ∧
    s.freq_index = e.cds_reference ∧ s.channel_type = e.channel_type ∧
    s.video_standard = e.video_standard

/-- **What is entered is what the section says.** Without an error there are records, all of them
inside the section, and these are what is entered. What the setters are given for a record is what
that record says, whatever the others are, and so is what is stored in the end. -/
structure EntersOwn (bytes : ℕ → UInt8) (section_length : ℤ) (c : SiChannels) : Prop where
  whole : (parseVCMStructure bytes section_length c).1 = 0 →
    0 < numberOfVcRecords bytes ∧
    (place bytes (numberOfVcRecords bytes) : ℤ) ≤ section_length ∧
    (parseVCMStructure bytes section_length c).2 =
      ((List.range (numberOfVcRecords bytes)).map fun k => ownEntry bytes (place bytes k)).foldl
        SiChannels.enter c
  own : ∀ e ∈ (vcmWalk bytes section_length).entered, e.2 = ownEntry bytes e.1
  stored : ∀ j, IsStored bytes section_length j →
    StoresEntry (parseVCMStructure bytes section_length c).2 (ownEntry bytes (place bytes j))

/-- The cache behind the first records. -/
def cacheAfter (bytes : ℕ → UInt8) (c : SiChannels) (k : ℕ) : SiChannels :=
  (enteredBy bytes k).foldl (fun c e => c.enter e.2) c

theorem cacheAfter_succ (bytes : ℕ → UInt8) (c : SiChannels) (k : ℕ) :
    cacheAfter bytes c (k + 1) =
      if recordError bytes (place bytes k) = 0 then
        (cacheAfter bytes c k).enter
          (recordEntry bytes (place bytes k) (scrambledBefore bytes (k + 1)))
      else cacheAfter bytes c k := by
  rw [cacheAfter, enteredBy, List.foldl_append]
  split_ifs
  · rfl
  · rfl

/-- An entry stays while no record of its channel is entered. -/
theorem entryFor_cacheAfter (c : SiChannels) {channel j k : ℕ} (hjk : j ≤ k)
    (h : ∀ l, j ≤ l → l < k → recordError bytes (place bytes l) = 0 →
      channelOf bytes l ≠ channel) :
    (cacheAfter bytes c k).entryFor channel = (cacheAfter bytes c j).entryFor channel := by
  induction hjk with
  | refl => rfl
  | @step k hjk ih =>
    rw [cacheAfter_succ, ← ih fun l hl hlk => h l hl (by omega)]
    split_ifs with herror
    · exact SiChannels.entryFor_enter_of_ne _ (h k hjk (Nat.lt_succ_self k) herror)
    · rfl

/-- The video standard is the one of the last record of the channel that is not MPEG-2. -/
theorem videoStandard_cacheAfter_eq_none (c : SiChannels) (channel k : ℕ) :
    (cacheAfter bytes c k).videoStandard channel = none ↔ c.videoStandard channel = none ∧
      ∀ i < k, recordError bytes (place bytes i) = 0 → channelOf bytes i = channel →
        isNonMpeg2 bytes i = false := by
  induction k with
  | zero => simp [cacheAfter, enteredBy]
  | succ k ih =>
    rw [cacheAfter_succ, Nat.forall_lt_succ_right, ← and_assoc, ← ih]
    split_ifs with herror
    · have hset : ((cacheAfter bytes c k).enter (recordEntry bytes (place bytes k)
          (scrambledBefore bytes (k + 1)))).videoStandard channel =
            if channelOf bytes k = channel ∧ isNonMpeg2 bytes k = true then
              if isNonMpeg2 bytes k then some ((bytes (place bytes k + 6)).toNat &&& 0x0F) else none
            else (cacheAfter bytes c k).videoStandard channel :=
        SiChannels.videoStandard_enter _ _ _
      rw [hset]
      by_cases hsets : channelOf bytes k = channel ∧ isNonMpeg2 bytes k = true
      · rw [if_pos hsets, if_pos hsets.2]
        refine iff_of_false (Option.some_ne_none _) fun h => ?_
        exact absurd (hsets.2.symm.trans (h.2 herror hsets.1)) (by decide)
      · rw [if_neg hsets]
        refine (and_iff_left fun _ hchannel => ?_).symm
        exact eq_false_of_ne_true fun hnon => hsets ⟨hchannel, hnon⟩
    · exact (and_iff_left fun h => absurd h herror).symm

/-- **What stays of a record** that is the last one of its channel: all that it says, but for the
video standard of a channel that is MPEG-2, which stays from before. -/
theorem storesEntry_iff (c : SiChannels) {j k : ℕ} (hj : j < k)
    (herror : recordError bytes (place bytes j) = 0)
    (hlast : ∀ l, j < l → l < k → recordError bytes (place bytes l) = 0 →
      channelOf bytes l ≠ channelOf bytes j)
    (hscrambled : scrambledBefore bytes (j + 1) = isScrambled bytes (place bytes j)) :
    StoresEntry (cacheAfter bytes c k) (ownEntry bytes (place bytes j)) ↔
      (isNonMpeg2 bytes j = false → c.videoStandard (channelOf bytes j) = none ∧
        ∀ i < j, recordError bytes (place bytes i) = 0 →
          channelOf bytes i = channelOf bytes j → isNonMpeg2 bytes i = false) := by
  have hentry : (cacheAfter bytes c k).entryFor (channelOf bytes j) = some (SiTableEntry.set
      (ownEntry bytes (place bytes j)) (((cacheAfter bytes c j).entryFor (channelOf bytes j)).getD
        (.init (channelOf bytes j)))) := by
    rw [entryFor_cacheAfter c hj fun l hl => hlast l hl, cacheAfter_succ, if_pos herror, hscrambled]
    exact SiChannels.entryFor_enter _ (ownEntry bytes (place bytes j))
  have hbefore : (((cacheAfter bytes c j).entryFor (channelOf bytes j)).getD
      (.init (channelOf bytes j))).video_standard =
        (cacheAfter bytes c j).videoStandard (channelOf bytes j) := by
    rw [SiChannels.videoStandard]
    rcases (cacheAfter bytes c j).entryFor (channelOf bytes j) with _ | s
    · rfl
    · rfl
  have hvideo : StoresEntry (cacheAfter bytes c k) (ownEntry bytes (place bytes j)) ↔
      (if isNonMpeg2 bytes j then (ownEntry bytes (place bytes j)).video_standard
        else (cacheAfter bytes c j).videoStandard (channelOf bytes j)) =
          (ownEntry bytes (place bytes j)).video_standard := by
    rw [← hbefore]
    constructor
    · rintro ⟨s, hs, -, -, -, -, -, hsame⟩
      rw [← Option.some.inj (hentry.symm.trans hs)] at hsame
      exact hsame
    · exact fun hsame => ⟨_, hentry, rfl, rfl, rfl, rfl, rfl, hsame⟩
  have hown : (ownEntry bytes (place bytes j)).video_standard =
      if isNonMpeg2 bytes j then some ((bytes (place bytes j + 6)).toNat &&& 0x0F) else none := rfl
  rw [hvideo, hown, ← videoStandard_cacheAfter_eq_none]
  rcases isNonMpeg2 bytes j with _ | _
  · simp
  · simp

/-- The records that the walk enters are the first ones without an error. -/
theorem exists_walkEnd (bytes : ℕ → UInt8) (section_length : ℤ) :
    ∃ k, (vcmWalk bytes section_length).entered = enteredBy bytes k ∧
      ∀ j, IsEntered bytes section_length j ↔ j < k ∧ recordError bytes (place bytes j) = 0 := by
  have hfirst : ∀ j, 16 ≤ place bytes (j + 1) := by
    intro j
    have hone : place bytes 1 ≤ place bytes (j + 1) := place_le_place bytes (by omega)
    rw [place, recordLength, place] at hone
    omega
  rcases vcmWalk_cases bytes section_length with ⟨hshort, hwalk⟩ | ⟨-, hall, hafter⟩ |
    ⟨k, hk, -, hinside, hout, hentered, -⟩
  · refine ⟨0, congrArg VcmWalk.entered hwalk, fun j => iff_of_false (fun h => ?_) (by omega)⟩
    have := hfirst j
    have := h.counted
    have := h.inside
    omega
  · refine ⟨_, hafter.entered, fun j => ⟨fun h => ⟨h.counted, h.valid⟩, fun h => ⟨h.1, ?_, h.2⟩⟩⟩
    have : place bytes (j + 1) ≤ place bytes (numberOfVcRecords bytes) := place_le_place bytes h.1
    omega
  · refine ⟨k, hentered, fun j => ⟨fun h => ⟨?_, h.valid⟩, fun h => ⟨by omega, ?_, h.2⟩⟩⟩
    · by_contra hge
      have := h.inside
      have : place bytes (k + 1) ≤ place bytes (j + 1) := place_le_place bytes (by omega)
      omega
    · have : place bytes (j + 1) ≤ place bytes k := place_le_place bytes h.1
      omega

/-- A section that is cut in the fields of a record, behind records without errors. -/
theorem whole_of_cut {k : ℕ} (hk : k < numberOfVcRecords bytes)
    (hbefore : ∀ j < k, (place bytes (j + 1) : ℤ) ≤ section_length ∧
      recordError bytes (place bytes j) = 0)
    (hcut : section_length < fieldsEnd bytes (place bytes k)) :
    (vcmWalk bytes section_length).saved_svct_error = 0 ∧
      section_length < place bytes (numberOfVcRecords bytes) := by
  have hnext := fieldsEnd_le bytes (place bytes k)
  have hend : place bytes (k + 1) ≤ place bytes (numberOfVcRecords bytes) := place_le_place bytes hk
  have hk1 : place bytes (k + 1) = place bytes k + recordLength bytes (place bytes k) := rfl
  refine ⟨?_, by omega⟩
  rcases vcmWalk_cases bytes section_length with ⟨-, hwalk⟩ | ⟨-, hall, -⟩ |
    ⟨i, -, hlong, hfirst, hlast, -, herror⟩
  · rw [hwalk]
    rfl
  · omega
  · have hik : i = k := by
      rcases Nat.lt_trichotomy i k with hlt | heq | hgt
      · have := (hbefore i hlt).1
        omega
      · exact heq
      · have : place bytes (k + 1) ≤ place bytes i := place_le_place bytes hgt
        omega
    subst hik
    rw [herror, if_neg (by omega), lastError_eq_zero]
    exact fun j hj => (hbefore j hj).2

/-- **What the setters are given** is what each record says just if no record that is entered follows
a scrambled one without being scrambled. -/
theorem own_iff {k : ℕ} (hentered : (vcmWalk bytes section_length).entered = enteredBy bytes k)
    (hiff : ∀ j, IsEntered bytes section_length j ↔ j < k ∧ recordError bytes (place bytes j) = 0) :
    (∀ e ∈ (vcmWalk bytes section_length).entered, e.2 = ownEntry bytes e.1) ↔
      ∀ i j, i < j → IsEntered bytes section_length j → isScrambled bytes (place bytes i) = true →
        isScrambled bytes (place bytes j) = true := by
  rw [hentered]
  constructor
  · intro h i j hij hj hscr
    obtain ⟨hjk, herror⟩ := (hiff j).mp hj
    have hsame := congrArg VcmEntry.scrambled
      (h _ ((mem_enteredBy k _).mpr ⟨j, hjk, herror, rfl⟩))
    have hsame : scrambledBefore bytes (j + 1) = isScrambled bytes (place bytes j) := hsame
    rw [← hsame, scrambledBefore_iff]
    exact ⟨i, by omega, hscr⟩
  · intro h e he
    obtain ⟨j, hj, herror, rfl⟩ := (mem_enteredBy k e).mp he
    refine congrArg (recordEntry bytes (place bytes j)) ?_
    rw [Bool.eq_iff_iff, scrambledBefore_iff]
    constructor
    · rintro ⟨i, hi, hscr⟩
      rcases Nat.lt_or_eq_of_le (Nat.le_of_lt_succ hi) with hij | rfl
      · exact h i j hij ((hiff j).mpr ⟨hj, herror⟩) hscr
      · exact hscr
    · exact fun hscr => ⟨j, Nat.lt_succ_self j, hscr⟩

/-- **What is stored** of records that are entered as they are: all of it just if, where the last
record of a channel is MPEG-2, neither the cache nor an earlier record has given the channel a video
standard. -/
theorem stored_iff (c : SiChannels) {k : ℕ}
    (hentered : (vcmWalk bytes section_length).entered = enteredBy bytes k)
    (hiff : ∀ j, IsEntered bytes section_length j ↔ j < k ∧ recordError bytes (place bytes j) = 0)
    (hown : ∀ e ∈ (vcmWalk bytes section_length).entered, e.2 = ownEntry bytes e.1) :
    (∀ j, IsStored bytes section_length j →
      StoresEntry (parseVCMStructure bytes section_length c).2 (ownEntry bytes (place bytes j))) ↔
      ∀ j, IsStored bytes section_length j → isNonMpeg2 bytes j = false →
        c.videoStandard (channelOf bytes j) = none ∧ ∀ i < j, IsEntered bytes section_length i →
          channelOf bytes i = channelOf bytes j → isNonMpeg2 bytes i = false := by
  have hcache : (parseVCMStructure bytes section_length c).2 = cacheAfter bytes c k := by
    rw [cacheAfter, ← hentered]
    rfl
  rw [hcache]
  refine forall_congr' fun j => forall_congr' fun hstored => ?_
  obtain ⟨hj, herror⟩ := (hiff j).mp hstored.entered
  rw [hentered] at hown
  have hscrambled := congrArg VcmEntry.scrambled
    (hown _ ((mem_enteredBy k _).mpr ⟨j, hj, herror, rfl⟩))
  rw [storesEntry_iff c hj herror
    (fun l hl hlk herr => hstored.last l hl ((hiff l).mpr ⟨hlk, herr⟩)) hscrambled]
  refine imp_congr_right fun _ => and_congr_right fun _ => forall_congr' fun i => ?_
  refine forall_congr' fun hi => imp_congr_left ?_
  exact ((hiff i).trans (and_iff_right (Nat.lt_trans hi hj))).symm

/-- **Which sections are entered as they are**: those with records, which are cut, if at all, in
the descriptors of a record or behind one with an error, in which no record that is entered follows
a scrambled one without being scrambled itself, and in which a channel that ends as MPEG-2 has had
no video standard. -/
theorem entersOwn_iff (bytes : ℕ → UInt8) (section_length : ℤ) (c : SiChannels) :
    EntersOwn bytes section_length c ↔
      0 < numberOfVcRecords bytes ∧
      (∀ k < numberOfVcRecords bytes, (∀ j < k, (place bytes (j + 1) : ℤ) ≤ section_length ∧
        recordError bytes (place bytes j) = 0) →
        (fieldsEnd bytes (place bytes k) : ℤ) ≤ section_length) ∧
      (∀ i j, i < j → IsEntered bytes section_length j → isScrambled bytes (place bytes i) = true →
        isScrambled bytes (place bytes j) = true) ∧
      ∀ j, IsStored bytes section_length j → isNonMpeg2 bytes j = false →
        c.videoStandard (channelOf bytes j) = none ∧ ∀ i < j, IsEntered bytes section_length i →
          channelOf bytes i = channelOf bytes j → isNonMpeg2 bytes i = false := by
  obtain ⟨k, hentered, hiff⟩ := exists_walkEnd bytes section_length
  constructor
  · intro h
    refine ⟨?_, ?_, (own_iff hentered hiff).mp h.own, (stored_iff c hentered hiff h.own).mp h.stored⟩
    · rcases vcmWalk_cases bytes section_length with ⟨-, hwalk⟩ | ⟨hlong, -, hafter⟩ | ⟨k, hk, -⟩
      · exact (h.whole (congrArg VcmWalk.saved_svct_error hwalk)).1
      · by_contra hzero
        have hzero : numberOfVcRecords bytes = 0 := by omega
        rw [hzero] at hafter
        have := (h.whole hafter.error).1
        omega
      · omega
    · intro k hk hbefore
      by_contra hcut
      obtain ⟨herror, hout⟩ := whole_of_cut hk hbefore (Int.lt_of_not_ge hcut)
      have := (h.whole herror).2.1
      omega
  · rintro ⟨hpos, hcut, hscrambled, hvideo⟩
    have hown := (own_iff hentered hiff).mpr hscrambled
    refine ⟨fun hzero => ?_, hown, (stored_iff c hentered hiff hown).mpr hvideo⟩
    rcases vcmWalk_cases bytes section_length with ⟨hshort, hwalk⟩ | ⟨-, hall, hafter⟩ |
      ⟨k, hk, hlong, hfirst, -, -, herror⟩
    · exfalso
      have hfirst := hcut 0 hpos fun j hj => absurd hj (Nat.not_lt_zero j)
      rw [place, fieldsEnd] at hfirst
      omega
    · refine ⟨hpos, hall, ?_⟩
      have herrors := (lastError_eq_zero _).mp (hafter.error.symm.trans hzero)
      have hlist : (vcmWalk bytes section_length).entered.map Prod.snd =
          (List.range (numberOfVcRecords bytes)).map fun k => ownEntry bytes (place bytes k) := by
        rw [hafter.entered] at hown ⊢
        rw [enteredBy_eq _ herrors] at hown ⊢
        rw [List.map_map]
        exact List.map_congr_left fun j hj => hown _ (List.mem_map_of_mem hj)
      rw [← hlist, List.foldl_map]
      rfl
    · exfalso
      have hzero := herror.symm.trans hzero
      split_ifs at hzero with hfields
      refine hfields (hcut k hk fun j hj => ⟨?_, (lastError_eq_zero k).mp hzero j hj⟩)
      have : place bytes (j + 1) ≤ place bytes k := place_le_place bytes hj
      omega

/-- A map that says that it has a record, and ends behind its head. -/
def headOnly : ℕ → UInt8 := fun i => if i = 6 then 1 else 0

/-- There is no error, and nothing is entered. -/
theorem not_entersOwn_headOnly : ¬ EntersOwn headOnly 7 ⟨[], 0, 0⟩ := by
  intro h
  have := (h.whole (by decide)).2.1
  revert this
  decide

end VirtualChannels

end MediaFramework
