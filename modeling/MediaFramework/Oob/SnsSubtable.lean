import MediaFramework.Lib.Bits
import MediaFramework.Lib.CString
import MediaFramework.Lib.Octets
import Mathlib.Data.Int.Order.Basic
import Mathlib.Data.List.ModifyLast
import Mathlib.Tactic.SplitIfs

/-!
# The source name subtable (`rmf_OobSiParser::parseSNSSubtable`)

A record of the subtable has a name of a given length, which is a multilingual text of segments. The
parser takes the length of the name off the section length, but moves its pointer over the first
segment only (`parseMTS`), and not at all when that begins with a format effector.
-/

namespace MediaFramework

/-! ## Source names in the cache -/

/-- `rmf_siSourceNameEntry`, with its lists of languages and strings. -/
structure SourceNameEntry where
  appType : Bool
  id : ℕ
  mapped : Bool
  source_names : List (CString × CString)
  source_long_names : List (CString × CString)
  deriving DecidableEq

namespace SourceNameEntry

/-- `IsSourceNameLanguagePresent` -/
def isSourceNameLanguagePresent (e : SourceNameEntry) (language : CString) : Bool :=
  e.source_names.any fun s => decide (s.1 = language)

/-- A list of strings with one for the language replaced. -/
def replaceString (language string : CString) (l : List (CString × CString)) :
    List (CString × CString) :=
  l.modify (l.findIdx fun s => decide (s.1 = language)) fun s => (s.1, string)

/-- `SetSourceName` -/
def setSourceName (sourceName language : CString) (override_existing : Bool)
    (e : SourceNameEntry) : SourceNameEntry :=
  if override_existing && e.isSourceNameLanguagePresent language then
    { e with source_names := replaceString language sourceName e.source_names }
  else if !override_existing && decide ((language, sourceName) ∈ e.source_names) then e
  else { e with source_names := (language, sourceName) :: e.source_names }

/-- `SetSourceLongName` -/
def setSourceLongName (sourceLongName language : CString) (e : SourceNameEntry) :
    SourceNameEntry :=
  if e.source_long_names.any fun s => decide (s.1 = language) then
    { e with source_long_names := replaceString language sourceLongName e.source_long_names }
  else { e with source_long_names := (language, sourceLongName) :: e.source_long_names }

/-- The entry that `GetSourceNameEntry` looks for. -/
def isFor (id : ℕ) (isAppId : Bool) (e : SourceNameEntry) : Bool :=
  decide (e.id = id ∧ e.appType = isAppId)

end SourceNameEntry

/-- A name of a source is stored, unless there is one in its language; `none` is the error of a
source without an entry. -/
def storeSourceName (language : CString) (source_ID : ℕ) (bIsAppType : Bool) (name : CString)
    (g_si_sourcename_entry : List SourceNameEntry) : Option (List SourceNameEntry) :=
  if source_ID = 0 ∨ 65535 < source_ID then none
  else match g_si_sourcename_entry.find? (SourceNameEntry.isFor source_ID bIsAppType) with
    | some entry =>
      if entry.isSourceNameLanguagePresent language then some g_si_sourcename_entry
      else some (g_si_sourcename_entry.modify
        (g_si_sourcename_entry.findIdx (SourceNameEntry.isFor source_ID bIsAppType))
        fun e => (e.setSourceName name language true).setSourceLongName name language)
    | none =>
      let entry : SourceNameEntry := ⟨bIsAppType, source_ID, false, [], []⟩
      some ((entry.setSourceName name language false).setSourceLongName name language ::
        g_si_sourcename_entry)

/-! ## The parser -/

/-- Where the parser is: its pointer, the remaining section length, the cache and the error. -/
structure SnsState where
  ptr_TableSection : ℕ
  section_length : ℤ
  g_si_sourcename_entry : List SourceNameEntry
  /-- an error other than `NO_PARSING_ERROR` -/
  ntt_error : Option ℕ
  deriving DecidableEq

namespace SnsSubtable

section Parser

variable (bytes : List UInt8)

/-- `parseMTS`: a segment, and where the pointer is left. -/
def parseMTS (ptr : ℕ) : Option (List UInt8 × ℕ) := do
  let mode ← octet bytes ptr
  if 0x40 ≤ mode then return ([], ptr)
  else
    let length ← octet bytes (ptr + 1)
    let segment ← octets bytes (ptr + 2) length
    return (segment, ptr + 2 + length)

/-- The `while` loop over the descriptors, which are ignored. -/
def skipDescriptors : ℕ → SnsState → Option SnsState
  | 0, s => some s
  | descriptor_count + 1, s => do
    let length ← octet bytes (s.ptr_TableSection + 1)
    let s := { s with
      ptr_TableSection := s.ptr_TableSection + (2 + length)
      section_length := s.section_length - (2 + length : ℕ) }
    if s.section_length < 0 then return { s with ntt_error := some 18 }
    else skipDescriptors descriptor_count s

/-- A round of the loop over the records. -/
def snsRecord (language_code : CString) (s : SnsState) : Option SnsState := do
  let application_type ← octet bytes s.ptr_TableSection
  let source_ID ← number bytes (s.ptr_TableSection + 1) 2
  let name_length ← octet bytes (s.ptr_TableSection + 3)
  let bIsAppType := decide (application_type &&& 0x80 ≠ 0)
  let (segment, ptr) ← parseMTS bytes (s.ptr_TableSection + 4)
  let section_length := s.section_length - (4 + name_length : ℕ)
  let stored := if segment.length ≠ 0 then
      storeSourceName language_code source_ID bIsAppType (.ofBuffer segment)
        s.g_si_sourcename_entry
    else some s.g_si_sourcename_entry
  let descriptor_count ← octet bytes ptr
  skipDescriptors bytes descriptor_count
    { ptr_TableSection := ptr + 1
      section_length := section_length - 1
      g_si_sourcename_entry := stored.getD s.g_si_sourcename_entry
      ntt_error := if stored.isNone then some 18 else s.ntt_error }

/-- The loop over the records: the states behind each of them. -/
def snsRecords (language_code : CString) : ℕ → SnsState → Option (List SnsState)
  | 0, _ => some []
  | number_of_SNS_records + 1, s =>
    if s.ntt_error = none then do
      let s ← snsRecord bytes language_code s
      let states ← snsRecords language_code number_of_SNS_records s
      return s :: states
    else some []

/-- `parseSNSSubtable`: the states behind each of the records. -/
def parseSNSSubtable (language_code : CString) (s : SnsState) : Option (List SnsState) := do
  let number_of_SNS_records ← octet bytes s.ptr_TableSection
  snsRecords bytes language_code number_of_SNS_records
    { s with
      ptr_TableSection := s.ptr_TableSection + 1
      section_length := s.section_length - 1
      ntt_error := none }

end Parser

end SnsSubtable

/-! ## Well-formed subtables -/

/-- A segment of a multilingual text; format effectors have neither length nor text. -/
structure MtsSegment where
  mode : UInt8
  text : List UInt8
  length_text : text.length < 256
  effector : 0x40 ≤ mode.toNat → mode.toNat < 0xA0 → text = []

/-- Its bytes. -/
def MtsSegment.encode (g : MtsSegment) : List UInt8 :=
  if 0x40 ≤ g.mode.toNat ∧ g.mode.toNat < 0xA0 then [g.mode]
  else g.mode :: UInt8.ofNat g.text.length :: g.text

/-- A record. -/
structure SnsRecord where
  application_type : UInt8
  source_ID : List UInt8
  name : List MtsSegment
  descriptors : List (UInt8 × List UInt8)
  length_source_ID : source_ID.length = 2
  length_name : (name.flatMap MtsSegment.encode).length < 256
  length_descriptors : descriptors.length < 256
  length_descriptor : ∀ d ∈ descriptors, d.2.length < 256

namespace SnsRecord

/-- The bytes of the descriptors. -/
def descriptorBytes (ds : List (UInt8 × List UInt8)) : List UInt8 :=
  ds.flatMap fun d => d.1 :: UInt8.ofNat d.2.length :: d.2

/-- The bytes of the name. -/
def nameBytes (r : SnsRecord) : List UInt8 := r.name.flatMap MtsSegment.encode

/-- The bytes of the record. -/
def encode (r : SnsRecord) : List UInt8 :=
  r.application_type :: (r.source_ID ++ UInt8.ofNat r.nameBytes.length ::
    (r.nameBytes ++ UInt8.ofNat r.descriptors.length :: descriptorBytes r.descriptors))

/-- The text of its name. -/
def nameText (r : SnsRecord) : List UInt8 := r.name.flatMap MtsSegment.text

/-- The parser behind the record, with its name stored. -/
def after (language_code : CString) (s : SnsState) (r : SnsRecord) : SnsState where
  ptr_TableSection := s.ptr_TableSection + r.encode.length
  section_length := s.section_length - (r.encode.length : ℕ)
  g_si_sourcename_entry :=
    if r.nameText.length ≠ 0 then
      (storeSourceName language_code (ofOctets r.source_ID)
        (decide (r.application_type.toNat &&& 0x80 ≠ 0)) (.ofBuffer r.nameText)
        s.g_si_sourcename_entry).getD s.g_si_sourcename_entry
    else s.g_si_sourcename_entry
  ntt_error := s.ntt_error

/-- The parser keeps in step over the record: its name is one segment in a mode that has text, and
its source is one that can have a name, or it has no name and at least 64 descriptors. -/
def InStep (r : SnsRecord) : Prop :=
  match r.name with
  | [] => 0x40 ≤ r.descriptors.length
  | [g] => g.mode.toNat < 0x40 ∧ (g.text ≠ [] → ofOctets r.source_ID ≠ 0)
  | _ => False

end SnsRecord

/-- A subtable. -/
structure SnsTable where
  records : List SnsRecord
  length_records : records.length < 256

/-- Its bytes. -/
def SnsTable.encode (t : SnsTable) : List UInt8 :=
  UInt8.ofNat t.records.length :: t.records.flatMap SnsRecord.encode

/-- The parser behind each of the records. -/
def snsStates (language_code : CString) : SnsState → List SnsRecord → List SnsState
  | _, [] => []
  | s, r :: rs =>
    r.after language_code s :: snsStates language_code (r.after language_code s) rs

namespace SnsSubtable

open SnsRecord

variable {bytes : List UInt8} {language_code : CString} {s s' : SnsState}

/-! ## Pointer and length -/

/-- Over the descriptors, the pointer goes on by as much as is taken off the length. -/
theorem skipDescriptors_sum : ∀ (n : ℕ) {s : SnsState}, skipDescriptors bytes n s = some s' →
    (s'.ptr_TableSection : ℤ) + s'.section_length = s.ptr_TableSection + s.section_length := by
  intro n
  induction n with
  | zero =>
    intro s h
    cases h
    rfl
  | succ n ih =>
    intro s h
    obtain ⟨length, -, h⟩ := Option.bind_eq_some_iff.mp h
    dsimp only at h
    split_ifs at h with hneg
    · cases h
      dsimp only
      omega
    · have := ih h
      dsimp only at this
      omega

/-- Descriptors that fit are skipped. -/
theorem skipDescriptors_eq (behind : List UInt8) :
    ∀ (ds : List (UInt8 × List UInt8)) (before : List UInt8) (s : SnsState),
      (∀ d ∈ ds, d.2.length < 256) → s.ptr_TableSection = before.length →
      ((descriptorBytes ds).length : ℤ) ≤ s.section_length →
      skipDescriptors (before ++ (descriptorBytes ds ++ behind)) ds.length s = some { s with
        ptr_TableSection := s.ptr_TableSection + (descriptorBytes ds).length
        section_length := s.section_length - (descriptorBytes ds).length } := by
  intro ds
  induction ds with
  | nil =>
    intro before s _ _ _
    simp [skipDescriptors, descriptorBytes]
  | cons d ds ih =>
    intro before s hds hptr hlen
    have hd := hds d List.mem_cons_self
    have hbytes : descriptorBytes (d :: ds) =
        d.1 :: UInt8.ofNat d.2.length :: (d.2 ++ descriptorBytes ds) := by
      rw [descriptorBytes, List.flatMap_cons]
      rfl
    have hlength : (UInt8.ofNat d.2.length).toNat = d.2.length := by
      rw [UInt8.toNat_ofNat', Nat.mod_eq_of_lt hd]
    rw [hbytes] at hlen ⊢
    simp only [List.length_append, List.length_cons] at hlen
    have hrest := ih (before ++ d.1 :: UInt8.ofNat d.2.length :: d.2)
      { s with
        ptr_TableSection := s.ptr_TableSection + (2 + d.2.length)
        section_length := s.section_length - (2 + d.2.length : ℕ) }
      (fun e he => hds e (List.mem_cons_of_mem _ he)) (by simp [hptr]; omega) (by dsimp only; omega)
    simp only [List.append_assoc, List.cons_append] at hrest
    rw [List.length_cons, skipDescriptors, hptr, List.cons_append, List.cons_append,
      octet_behind rfl, octet_cons_succ, octet_cons_zero, hlength, Option.bind_eq_bind,
      Option.bind_some, List.append_assoc]
    dsimp only
    rw [if_neg (by omega), ← hptr, hrest]
    simp only [List.length_cons, List.length_append]
    refine congrArg some (congrArg₂ (fun p l => SnsState.mk p l _ _) ?_ ?_) <;> omega

/-! ## A record -/

/-- What is read of a record, up to its name. -/
theorem record_front (r : SnsRecord) (before behind : List UInt8) :
    octet (before ++ (r.encode ++ behind)) before.length = some r.application_type.toNat ∧
      number (before ++ (r.encode ++ behind)) (before.length + 1) 2 =
        some (ofOctets r.source_ID) ∧
      octet (before ++ (r.encode ++ behind)) (before.length + 3) = some r.nameBytes.length ∧
      ∃ front, front.length = before.length + 4 ∧ before ++ (r.encode ++ behind) =
        front ++ (r.nameBytes ++ (UInt8.ofNat r.descriptors.length ::
          (descriptorBytes r.descriptors ++ behind))) := by
  have h2 := r.length_source_ID
  have hlt : r.nameBytes.length < 256 := r.length_name
  have hname : (UInt8.ofNat r.nameBytes.length).toNat = r.nameBytes.length := by
    rw [UInt8.toNat_ofNat', Nat.mod_eq_of_lt hlt]
  have hbytes : r.encode ++ behind = r.application_type :: (r.source_ID ++
      (UInt8.ofNat r.nameBytes.length :: (r.nameBytes ++ (UInt8.ofNat r.descriptors.length ::
        (descriptorBytes r.descriptors ++ behind))))) := by
    simp [encode]
  rw [hbytes]
  refine ⟨?_, ?_, ?_, before ++ r.application_type :: (r.source_ID ++
    [UInt8.ofNat r.nameBytes.length]), ?_, ?_⟩
  · rw [octet_behind (Nat.add_zero _).symm, octet_cons_zero]
  · rw [number_behind rfl, number_cons_succ, number_front h2]
  · rw [octet_behind rfl, octet_cons_succ, octet_behind (i := 0) (by omega), octet_cons_zero, hname]
  · simp [h2]
  · simp

/-- A segment in a mode that has text is read as it is. -/
theorem parseMTS_segment {g : MtsSegment} (hmode : g.mode.toNat < 0x40) (front behind : List UInt8) :
    parseMTS (front ++ (g.encode ++ behind)) front.length =
      some (g.text, front.length + g.encode.length) := by
  have hbytes : g.encode = g.mode :: UInt8.ofNat g.text.length :: g.text :=
    if_neg fun h => Nat.not_le_of_lt hmode h.1
  have hlength : (UInt8.ofNat g.text.length).toNat = g.text.length := by
    rw [UInt8.toNat_ofNat', Nat.mod_eq_of_lt g.length_text]
  rw [hbytes, List.cons_append, List.cons_append, parseMTS, octet_behind (Nat.add_zero _).symm,
    octet_cons_zero, Option.bind_eq_bind, Option.bind_some, if_neg (Nat.not_le_of_lt hmode),
    octet_behind rfl, octet_cons_succ, octet_cons_zero, Option.bind_eq_bind, Option.bind_some,
    hlength, octets_behind rfl, octets_cons_succ, octets_cons_succ, octets_self, Option.bind_some]
  simp only [List.length_cons]
  refine congrArg (fun n => some (g.text, n)) ?_
  omega

/-- The pointer is not moved over anything else. -/
theorem parseMTS_effector {b : UInt8} (hmode : 0x40 ≤ b.toNat) (front behind : List UInt8) :
    parseMTS (front ++ b :: behind) front.length = some ([], front.length) := by
  rw [parseMTS, octet_behind (Nat.add_zero _).symm, octet_cons_zero, Option.bind_eq_bind,
    Option.bind_some, if_pos hmode]
  rfl

/-- Over a mode that has text, the pointer is moved by at least two. -/
theorem le_of_parseMTS {ptr ptr' mode : ℕ} {segment : List UInt8}
    (hmode : octet bytes ptr = some mode) (hlt : mode < 0x40)
    (h : parseMTS bytes ptr = some (segment, ptr')) : ptr + 2 ≤ ptr' := by
  rw [parseMTS, hmode, Option.bind_eq_bind, Option.bind_some, if_neg (Nat.not_le_of_lt hlt)] at h
  obtain ⟨length, -, h⟩ := Option.bind_eq_some_iff.mp h
  obtain ⟨text, -, h⟩ := Option.bind_eq_some_iff.mp h
  have := congrArg Prod.snd (Option.some.inj h)
  omega

/-- A record is parsed from what is read of it. -/
theorem snsRecord_eq {application_type source_ID name_length ptr descriptor_count : ℕ}
    {segment : List UInt8} (htype : octet bytes s.ptr_TableSection = some application_type)
    (hid : number bytes (s.ptr_TableSection + 1) 2 = some source_ID)
    (hname : octet bytes (s.ptr_TableSection + 3) = some name_length)
    (hmts : parseMTS bytes (s.ptr_TableSection + 4) = some (segment, ptr))
    (hcount : octet bytes ptr = some descriptor_count) :
    snsRecord bytes language_code s =
      let stored := if segment.length ≠ 0 then
          storeSourceName language_code source_ID (decide (application_type &&& 0x80 ≠ 0))
            (.ofBuffer segment) s.g_si_sourcename_entry
        else some s.g_si_sourcename_entry
      skipDescriptors bytes descriptor_count
        { ptr_TableSection := ptr + 1
          section_length := s.section_length - (4 + name_length : ℕ) - 1
          g_si_sourcename_entry := stored.getD s.g_si_sourcename_entry
          ntt_error := if stored.isNone then some 18 else s.ntt_error } := by
  rw [snsRecord, htype, hid, hname, hmts]
  simp only [Option.bind_eq_bind, Option.bind_some, hcount]

/-- The pointer and the length after a record. -/
theorem snsRecord_sum {name_length ptr : ℕ} {segment : List UInt8}
    (hname : octet bytes (s.ptr_TableSection + 3) = some name_length)
    (hmts : parseMTS bytes (s.ptr_TableSection + 4) = some (segment, ptr))
    (h : snsRecord bytes language_code s = some s') :
    (s'.ptr_TableSection : ℤ) + s'.section_length =
      ptr + s.section_length - (4 + name_length : ℕ) := by
  rw [snsRecord, hname, hmts] at h
  obtain ⟨application_type, -, h⟩ := Option.bind_eq_some_iff.mp h
  obtain ⟨source_ID, -, h⟩ := Option.bind_eq_some_iff.mp h
  rw [Option.bind_eq_bind, Option.bind_some] at h
  rw [Option.bind_eq_bind, Option.bind_some] at h
  obtain ⟨descriptor_count, -, h⟩ := Option.bind_eq_some_iff.mp h
  have := skipDescriptors_sum _ h
  dsimp only at this
  omega

theorem encode_ne_nil (g : MtsSegment) : g.encode ≠ [] := by
  rw [MtsSegment.encode]
  split_ifs <;> exact List.cons_ne_nil _ _

/-- In step, and the source can have a name. -/
theorem inStep_iff (r : SnsRecord) : r.InStep ↔ (match r.name with
      | [] => 0x40 ≤ r.descriptors.length
      | [g] => g.mode.toNat < 0x40
      | _ => False) ∧ ¬ (r.nameText.length ≠ 0 ∧ ofOctets r.source_ID = 0) := by
  rw [InStep, nameText]
  rcases r.name with _ | ⟨g, _ | ⟨g', gs⟩⟩
  · simp
  · simp
  · simp

/-- Where the name of a record is read to its end, it is one segment, or there is none. -/
theorem name_of_parseMTS (r : SnsRecord) {front behind segment : List UInt8}
    (h : parseMTS (front ++ (r.nameBytes ++ (UInt8.ofNat r.descriptors.length ::
      (descriptorBytes r.descriptors ++ behind)))) front.length =
      some (segment, front.length + r.nameBytes.length)) :
    segment = r.nameText ∧ match r.name with
      | [] => 0x40 ≤ r.descriptors.length
      | [g] => g.mode.toNat < 0x40
      | _ => False := by
  have hcount : (UInt8.ofNat r.descriptors.length).toNat = r.descriptors.length := by
    rw [UInt8.toNat_ofNat', Nat.mod_eq_of_lt r.length_descriptors]
  rw [nameBytes] at h
  rw [nameText]
  rcases hname : r.name with _ | ⟨g, gs⟩
  · rw [hname, List.flatMap_nil, List.nil_append] at h
    have hcount' : 0x40 ≤ r.descriptors.length := by
      by_contra hlt
      have := le_of_parseMTS (by rw [octet_behind (Nat.add_zero _).symm, octet_cons_zero, hcount])
        (Nat.lt_of_not_le hlt) h
      rw [List.length_nil] at this
      omega
    rw [parseMTS_effector (by rw [hcount]; exact hcount')] at h
    exact ⟨(congrArg Prod.fst (Option.some.inj h)).symm, hcount'⟩
  · rw [hname, List.flatMap_cons, List.append_assoc] at h
    rcases Nat.lt_or_ge g.mode.toNat 0x40 with hlt | hle
    · rw [parseMTS_segment hlt] at h
      obtain ⟨htext, hptr⟩ := Prod.mk.inj (Option.some.inj h)
      rw [List.length_append] at hptr
      rcases gs with _ | ⟨g', gs⟩
      · exact ⟨by rw [← htext]; simp, hlt⟩
      · have := List.length_pos_iff.mpr (encode_ne_nil g')
        rw [List.flatMap_cons, List.length_append] at hptr
        omega
    · obtain ⟨tail, htail⟩ : ∃ tail, g.encode = g.mode :: tail := by
        rw [MtsSegment.encode]
        split_ifs <;> exact ⟨_, rfl⟩
      rw [htail, List.cons_append, parseMTS_effector hle] at h
      have := congrArg Prod.snd (Option.some.inj h)
      simp at this

/-- In step, the name is read to its end. -/
theorem parseMTS_of_inStep {r : SnsRecord} (h : r.InStep) (front behind : List UInt8) :
    parseMTS (front ++ (r.nameBytes ++ (UInt8.ofNat r.descriptors.length ::
      (descriptorBytes r.descriptors ++ behind)))) front.length =
      some (r.nameText, front.length + r.nameBytes.length) := by
  rw [InStep] at h
  rw [nameBytes, nameText]
  rcases hname : r.name with _ | ⟨g, _ | ⟨g', gs⟩⟩
  · rw [hname] at h
    have hcount : (UInt8.ofNat r.descriptors.length).toNat = r.descriptors.length := by
      rw [UInt8.toNat_ofNat', Nat.mod_eq_of_lt r.length_descriptors]
    exact parseMTS_effector (by rw [hcount]; exact h) _ _
  · rw [hname] at h
    have := parseMTS_segment h.1 front
      (UInt8.ofNat r.descriptors.length :: (descriptorBytes r.descriptors ++ behind))
    simpa using this
  · rw [hname] at h
    exact h.elim

theorem ofOctets_source_ID_le (r : SnsRecord) : ofOctets r.source_ID ≤ 65535 := by
  have := ofOctets_lt r.source_ID
  rw [r.length_source_ID] at this
  omega

/-- A source that is not 0 has an entry for its names. -/
theorem storeSourceName_isNone (language_code : CString) {source_ID : ℕ} (hle : source_ID ≤ 65535) (bIsAppType : Bool)
    (name : CString) (names : List SourceNameEntry) :
    (storeSourceName language_code source_ID bIsAppType name names).isNone =
      decide (source_ID = 0) := by
  rw [storeSourceName]
  by_cases hzero : source_ID = 0
  · rw [if_pos (Or.inl hzero), decide_eq_true hzero]
    rfl
  · rw [if_neg (by omega), decide_eq_false hzero]
    split
    · split_ifs <;> rfl
    · rfl

/-- Where the name is read to its end, the parser ends up behind the record; a name of source 0 is
an error. -/
theorem snsRecord_of_parseMTS (r : SnsRecord) (before behind : List UInt8)
    (hptr : s.ptr_TableSection = before.length) (hlen : (r.encode.length : ℤ) ≤ s.section_length)
    (hmts : parseMTS (before ++ (r.encode ++ behind)) (s.ptr_TableSection + 4) =
      some (r.nameText, s.ptr_TableSection + 4 + r.nameBytes.length)) :
    snsRecord (before ++ (r.encode ++ behind)) language_code s =
      some { r.after language_code s with
        ntt_error := if r.nameText.length ≠ 0 ∧ ofOctets r.source_ID = 0 then some 18
          else s.ntt_error } := by
  obtain ⟨htype, hid, hname, front, hfront, hpacket⟩ := record_front r before behind
  rw [← hptr] at htype hid hname hfront
  have hcount : octet (before ++ (r.encode ++ behind))
      (s.ptr_TableSection + 4 + r.nameBytes.length) = some r.descriptors.length := by
    rw [hpacket, octet_behind (i := r.nameBytes.length) (by omega),
      octet_behind (Nat.add_zero _).symm, octet_cons_zero, UInt8.toNat_ofNat',
      Nat.mod_eq_of_lt r.length_descriptors]
  have hbytes : r.encode.length =
      4 + r.nameBytes.length + (1 + (descriptorBytes r.descriptors).length) := by
    have h2 := r.length_source_ID
    rw [encode]
    simp only [List.length_cons, List.length_append]
    omega
  have hfront' : before ++ (r.encode ++ behind) =
      (front ++ (r.nameBytes ++ [UInt8.ofNat r.descriptors.length])) ++
        (descriptorBytes r.descriptors ++ behind) := by
    rw [hpacket]
    simp
  rw [snsRecord_eq htype hid hname hmts hcount, hfront']
  rw [skipDescriptors_eq behind r.descriptors _ _ r.length_descriptor (by simp; omega)
    (by dsimp only; omega)]
  have hnone := storeSourceName_isNone language_code (ofOctets_source_ID_le r)
    (decide (r.application_type.toNat &&& 0x80 ≠ 0)) (.ofBuffer r.nameText) s.g_si_sourcename_entry
  simp only [after, hbytes, Option.some.injEq, SnsState.mk.injEq]
  refine ⟨by omega, by omega, ?_, ?_⟩
  · split_ifs <;> rfl
  · by_cases hempty : r.nameText.length = 0
    · have hnot : ¬ (r.nameText.length ≠ 0 ∧ ofOctets r.source_ID = 0) := fun h => h.1 hempty
      rw [if_neg (not_not.mpr hempty), if_neg hnot]
      rfl
    · rw [if_pos hempty, hnone]
      by_cases hzero : ofOctets r.source_ID = 0
      · rw [if_pos (decide_eq_true hzero), if_pos ⟨hempty, hzero⟩]
      · rw [if_neg fun h => hzero (of_decide_eq_true h), if_neg fun h => hzero h.2]

/-- **A record**: the parser ends up behind it, with its name stored, exactly when it keeps in step
over it. -/
theorem snsRecord_iff (language_code : CString) (r : SnsRecord) (before behind : List UInt8)
    (hptr : s.ptr_TableSection = before.length) (herror : s.ntt_error = none)
    (hlen : (r.encode.length : ℤ) ≤ s.section_length) :
    snsRecord (before ++ (r.encode ++ behind)) language_code s = some (r.after language_code s) ↔
      r.InStep := by
  obtain ⟨htype, hid, hname, front, hfront, hpacket⟩ := record_front r before behind
  rw [← hptr] at htype hid hname hfront
  constructor
  · intro h
    rcases hmts : parseMTS (before ++ (r.encode ++ behind)) (s.ptr_TableSection + 4) with
      _ | ⟨segment, ptr⟩
    · rw [snsRecord, htype, hid, hname, hmts] at h
      cases h
    · have hsum := snsRecord_sum hname hmts h
      have hread : ptr = front.length + r.nameBytes.length := by
        simp only [after] at hsum
        omega
      have hmts' := hmts
      rw [← hfront, hpacket, hread] at hmts'
      obtain ⟨rfl, hshape⟩ := name_of_parseMTS r hmts'
      rw [snsRecord_of_parseMTS r before behind hptr hlen (by rw [hmts, hread, hfront])] at h
      have hstored := congrArg SnsState.ntt_error (Option.some.inj h)
      refine (inStep_iff r).mpr ⟨hshape, fun hzero => ?_⟩
      dsimp only [after] at hstored
      rw [if_pos hzero, herror] at hstored
      cases hstored
  · intro h
    have hmts := parseMTS_of_inStep h front behind
    rw [← hpacket, hfront] at hmts
    rw [snsRecord_of_parseMTS r before behind hptr hlen hmts, if_neg ((inStep_iff r).mp h).2]
    rfl

/-! ## A subtable -/

/-- **The records**, one after another. -/
theorem snsRecords_iff (behind : List UInt8) : ∀ (rs : List SnsRecord) (before : List UInt8)
    (s : SnsState), s.ptr_TableSection = before.length → s.ntt_error = none →
    ((rs.flatMap encode).length : ℤ) ≤ s.section_length →
    (snsRecords (before ++ (rs.flatMap encode ++ behind)) language_code rs.length s =
      some (snsStates language_code s rs) ↔ ∀ r ∈ rs, r.InStep) := by
  intro rs
  induction rs with
  | nil =>
    intro before s _ _ _
    exact iff_of_true rfl (by simp)
  | cons r rs ih =>
    intro before s hptr herror hlen
    rw [List.flatMap_cons, List.length_append] at hlen
    have hrecord := snsRecord_iff language_code r before
      (rs.flatMap encode ++ behind) hptr herror (by omega)
    have hrest := ih (before ++ r.encode) (r.after language_code s)
      (by rw [List.length_append, ← hptr]; rfl) herror (by dsimp only [after]; omega)
    rw [List.append_assoc] at hrest
    rw [List.flatMap_cons, List.append_assoc, List.length_cons, snsRecords, if_pos herror,
      snsStates, List.forall_mem_cons, ← hrecord, ← hrest]
    constructor
    · intro h
      obtain ⟨s', hs', h⟩ := Option.bind_eq_some_iff.mp h
      obtain ⟨states, hstates, h⟩ := Option.bind_eq_some_iff.mp h
      obtain ⟨rfl, rfl⟩ := List.cons.inj (Option.some.inj h)
      exact ⟨hs', hstates⟩
    · rintro ⟨hs', hstates⟩
      rw [hs', Option.bind_eq_bind, Option.bind_some, hstates]
      rfl

/-- **Each record is read at its true offset**: behind each record the pointer has gone on by as
much as was taken off the section length, and the names in the cache are those of the records,
whatever the cache held and whatever is in front of and behind the subtable. -/
def ReadsTrue (t : SnsTable) : Prop :=
  ∀ (before behind : List UInt8) (language_code : CString) (s : SnsState),
    s.ptr_TableSection = before.length → (t.encode.length : ℤ) ≤ s.section_length →
    parseSNSSubtable (before ++ (t.encode ++ behind)) language_code s =
      some (snsStates language_code { s with
        ptr_TableSection := s.ptr_TableSection + 1
        section_length := s.section_length - 1
        ntt_error := none } t.records)

/-- A subtable is parsed from its records on. -/
theorem parseSNSSubtable_iff (t : SnsTable) (before behind : List UInt8)
    (hptr : s.ptr_TableSection = before.length)
    (hlen : (t.encode.length : ℤ) ≤ s.section_length) :
    parseSNSSubtable (before ++ (t.encode ++ behind)) language_code s =
      some (snsStates language_code { s with
        ptr_TableSection := s.ptr_TableSection + 1
        section_length := s.section_length - 1
        ntt_error := none } t.records) ↔ ∀ r ∈ t.records, r.InStep := by
  have hcount : octet (before ++ (t.encode ++ behind)) s.ptr_TableSection =
      some t.records.length := by
    rw [hptr, octet_behind (Nat.add_zero _).symm, SnsTable.encode, List.cons_append,
      octet_cons_zero, UInt8.toNat_ofNat', Nat.mod_eq_of_lt t.length_records]
  have hpacket : before ++ (t.encode ++ behind) =
      (before ++ [UInt8.ofNat t.records.length]) ++ (t.records.flatMap encode ++ behind) := by
    rw [SnsTable.encode]
    simp
  rw [SnsTable.encode, List.length_cons] at hlen
  rw [parseSNSSubtable, hcount, Option.bind_eq_bind, Option.bind_some, hpacket]
  exact snsRecords_iff behind t.records _ _ (by simp [hptr]) rfl (by dsimp only; omega)

/-- **When every record is read at its true offset**: when the parser keeps in step over each. -/
theorem readsTrue_iff (t : SnsTable) : ReadsTrue t ↔ ∀ r ∈ t.records, r.InStep := by
  constructor
  · intro h
    exact (parseSNSSubtable_iff (s := ⟨0, t.encode.length, [], none⟩) t [] [] rfl (le_refl _)).mp
      (h [] [] (.ofBuffer []) _ rfl (le_refl _))
  · intro h before behind language_code s hptr hlen
    exact (parseSNSSubtable_iff t before behind hptr hlen).mpr h

/-- A record of source 1, with a name that begins with a format effector. -/
def effectorRecord : SnsRecord where
  application_type := 0
  source_ID := [0, 1]
  name := [⟨0x80, [], by decide, fun _ _ => rfl⟩, ⟨0, [0x41], by decide, fun _ _ => by contradiction⟩]
  descriptors := []
  length_source_ID := rfl
  length_name := by decide
  length_descriptors := by decide
  length_descriptor := by decide

/-- It is not read to its end. -/
theorem not_readsTrue_effectorRecord :
    ¬ ReadsTrue ⟨[effectorRecord], by decide⟩ := by
  intro h
  have := (parseSNSSubtable_iff (s := ⟨0, 10, [], none⟩) ⟨[effectorRecord], by decide⟩ [] [] rfl
    (by decide)).mp (h [] [] (.ofBuffer []) _ rfl (by decide))
  exact this effectorRecord List.mem_cons_self

end SnsSubtable

end MediaFramework
