import MediaFramework.Pod.PmtSections

/-!
# Well-formed PMTs

A program is encoded as its PMT, and what the PMT is parsed to has the program's streams and, of the
descriptors, those for conditional access, all in their order (`parseData_encode`).
-/

namespace MediaFramework

/-- An elementary stream. -/
structure CardStream where
  stream_type : UInt8
  elem_pid : ℕ
  descriptors : List Tlv
  elem_pid_lt : elem_pid < 2 ^ 13
  info_lt : (Tlv.encodeAll descriptors).length < 2 ^ 12

namespace CardStream

/-- The fields of a stream, with the reserved bits set. -/
def fields (e : CardStream) : List UInt8 :=
  e.stream_type :: (toOctets 2 (0xE000 + e.elem_pid) ++
    toOctets 2 (0xF000 + (Tlv.encodeAll e.descriptors).length))

/-- A stream in a PMT. -/
def encode (e : CardStream) : List UInt8 := e.fields ++ Tlv.encodeAll e.descriptors

/-- The streams in a PMT. -/
def encodeAll (es : List CardStream) : List UInt8 := es.flatMap encode

end CardStream

/-- A program, whose PMT is a section. -/
structure CardProgram where
  program_num : ℕ
  version : ℕ
  current : Bool
  section_num : UInt8
  last_section_num : UInt8
  pcr_pid : ℕ
  descriptors : List Tlv
  streams : List CardStream
  crc : List UInt8
  program_num_lt : program_num < 2 ^ 16
  version_lt : version < 2 ^ 5
  pcr_pid_lt : pcr_pid < 2 ^ 13
  info_lt : (Tlv.encodeAll descriptors).length < 2 ^ 12
  crc_length : crc.length = 4
  section_lt : 9 + (Tlv.encodeAll descriptors).length + (CardStream.encodeAll streams).length + 4 <
    2 ^ 12

namespace CardProgram

/-- `section_length`: what is behind it. -/
def sectionLen (e : CardProgram) : ℕ :=
  9 + (Tlv.encodeAll e.descriptors).length + (CardStream.encodeAll e.streams).length + 4

/-- The fields of a PMT up to its descriptors, with the reserved bits set. -/
def fields (e : CardProgram) : List UInt8 :=
  2 :: (toOctets 2 (0xB000 + e.sectionLen) ++ (toOctets 2 e.program_num ++
    (UInt8.ofNat (0xC0 + e.version * 2 + e.current.toNat) :: e.section_num :: e.last_section_num ::
      (toOctets 2 (0xE000 + e.pcr_pid) ++
        toOctets 2 (0xF000 + (Tlv.encodeAll e.descriptors).length)))))

/-- The PMT of a program. -/
def encode (e : CardProgram) : List UInt8 :=
  e.fields ++ Tlv.encodeAll e.descriptors ++ CardStream.encodeAll e.streams ++ e.crc

end CardProgram

namespace VlTablePMT

variable {m : DataModel} {L : ℕ}

/-- The descriptors for conditional access, from a place on. -/
def caDescriptors : ℕ → List Tlv → List VlCondAccessesDescsInfo
  | _, [] => []
  | k, t :: ts =>
    if t.tag.toNat = descCondAccess then ⟨k, t.encode⟩ :: caDescriptors (k + t.encode.length) ts
    else caDescriptors (k + t.encode.length) ts

/-- What is kept of some descriptors. -/
def infoOf (ts : List Tlv) : Option (List VlCondAccessesDescsInfo) :=
  if ts = [] then none else some (caDescriptors 0 ts)

/-- What is kept of a stream. -/
def streamOf (e : CardStream) : VlPmtStream where
  stream_type := e.stream_type.toNat
  elem_pid := e.elem_pid
  es_info_len := (Tlv.encodeAll e.descriptors).length
  desc := infoOf e.descriptors

/-- The table of a program. -/
def tableOf (e : CardProgram) : VlPmtTbl where
  header :=
    { table_id := pmtTblId
      section_len := e.sectionLen
      program_num := e.program_num
      version := e.version
      current_next := 1
      section_num := e.section_num.toNat
      last_section_num := e.last_section_num.toNat
      pcr_pid := e.pcr_pid
      prog_info_len := (Tlv.encodeAll e.descriptors).length }
  desc := infoOf e.descriptors
  streams := e.streams.map streamOf

/-! ## Descriptors -/

theorem parseDescriptorsFrom_encode (zs : List UInt8) : ∀ (ts : List Tlv) (xs : List UInt8)
    (rounds : ℕ) (list : List VlCondAccessesDescsInfo), ts.length ≤ rounds →
    xs.length + (Tlv.encodeAll ts).length < 2 ^ 12 →
    parseDescriptorsFrom m (xs ++ Tlv.encodeAll ts ++ zs) (xs.length + (Tlv.encodeAll ts).length)
        rounds list
        (stream (xs ++ Tlv.encodeAll ts ++ zs) (xs.length + (Tlv.encodeAll ts).length)
          (8 * xs.length) 0) =
      some (list ++ caDescriptors xs.length ts,
        stream (xs ++ Tlv.encodeAll ts ++ zs) (xs.length + (Tlv.encodeAll ts).length)
          (8 * (xs.length + (Tlv.encodeAll ts).length)) 0) := by
  intro ts
  induction ts with
  | nil =>
    intro xs rounds list _ _
    rw [caDescriptors, List.append_nil, Tlv.encodeAll_nil, List.length_nil, Nat.add_zero]
    exact parseDescriptorsFrom_done (Nat.le_refl _)
  | cons t ts ih =>
    intro xs rounds list hrounds hlen
    obtain ⟨rounds, rfl⟩ : ∃ k, rounds = k + 1 :=
      ⟨rounds - 1, by rw [List.length_cons] at hrounds; omega⟩
    have hsize := Tlv.toNat_length t
    have hmem : xs ++ Tlv.encodeAll (t :: ts) ++ zs =
        xs ++ t.encode ++ Tlv.encodeAll ts ++ zs := by
      rw [Tlv.encodeAll_cons, ← List.append_assoc]
    have hplace : xs.length + (Tlv.encodeAll (t :: ts)).length =
        (xs ++ t.encode).length + (Tlv.encodeAll ts).length := by
      rw [Tlv.encodeAll_cons, List.length_append, List.length_append, Nat.add_assoc]
    have hcount : ts.length ≤ rounds := Nat.le_of_succ_le_succ hrounds
    have hnext : xs.length + 2 + (UInt8.ofNat t.value.length).toNat = (xs ++ t.encode).length := by
      rw [hsize, List.length_append, Tlv.length_encode]
      omega
    have htag : (xs ++ t.encode ++ Tlv.encodeAll ts ++ zs)[xs.length]? = some t.tag := by
      simp [Tlv.encode]
    have hlength : (xs ++ t.encode ++ Tlv.encodeAll ts ++ zs)[xs.length + 1]? =
        some (UInt8.ofNat t.value.length) := by
      simp [Tlv.encode]
    have hvalue : octets (xs ++ t.encode ++ Tlv.encodeAll ts ++ zs) (xs.length + 2)
        (UInt8.ofNat t.value.length).toNat = some t.value := by
      have hsplit : xs ++ t.encode ++ Tlv.encodeAll ts ++ zs =
          xs ++ [t.tag, UInt8.ofNat t.value.length] ++ (t.value ++ (Tlv.encodeAll ts ++ zs)) := by
        simp [Tlv.encode]
      have hfront : xs.length + 2 = (xs ++ [t.tag, UInt8.ofNat t.value.length]).length + 0 := by
        simp
      rw [hsplit, hfront, octets_append_right, hsize, octets_self]
    rw [hplace] at hlen
    rw [hmem, hplace, parseDescriptorsFrom_next (by
      rw [List.length_append, Tlv.length_encode]
      omega) hlen, htag, hlength, Option.bind_some, Option.bind_some, hnext, copyDescriptor,
      caDescriptors, hvalue]
    have hplace' : xs.length + t.encode.length = (xs ++ t.encode).length := by
      rw [List.length_append]
    by_cases hca : t.tag.toNat = descCondAccess
    · rw [if_pos hca, if_pos hca, Option.map_some, Option.bind_some, UInt8.ofNat_toNat,
        UInt8.ofNat_toNat, ih _ _ _ hcount hlen, hplace', List.append_assoc]
      rfl
    · rw [if_neg hca, if_neg hca, Option.bind_some, ih _ _ _ hcount hlen, hplace']

/-- **The descriptors** that are kept. -/
theorem parseDescriptors_encode (ts : List Tlv) (zs : List UInt8)
    (h : (Tlv.encodeAll ts).length < 2 ^ 12) :
    parseDescriptors m (Tlv.encodeAll ts ++ zs) (Tlv.encodeAll ts).length =
      some (caDescriptors 0 ts) := by
  have hmod : (Tlv.encodeAll ts).length % 2 ^ (m.longBits - 3) = (Tlv.encodeAll ts).length :=
    Nat.mod_eq_of_lt (h.trans_le (by cases m <;> decide))
  have hparse := parseDescriptorsFrom_encode (m := m) zs ts [] _ [] (Tlv.length_le_encodeAll ts)
    (by rwa [List.length_nil, Nat.zero_add])
  rw [List.nil_append, List.length_nil, Nat.zero_add] at hparse
  rw [parseDescriptors, create_eq, hmod]
  exact Option.map_eq_some_iff.mpr ⟨_, hparse, rfl⟩

theorem infoAt_encode (ts : List Tlv) (xs zs : List UInt8)
    (h : (Tlv.encodeAll ts).length < 2 ^ 12) :
    infoAt m (xs ++ Tlv.encodeAll ts ++ zs) (8 * xs.length) (Tlv.encodeAll ts).length =
      some (infoOf ts) := by
  rw [infoAt, infoOf]
  cases ts with
  | nil => rfl
  | cons t ts =>
    have hpos : 0 < (Tlv.encodeAll (t :: ts)).length := by
      rw [Tlv.encodeAll_cons, List.length_append, Tlv.length_encode]
      omega
    rw [if_pos hpos, if_neg (List.cons_ne_nil t ts), Nat.mul_div_cancel_left _ (by decide),
      List.append_assoc, List.drop_left, parseDescriptors_encode _ _ h]
    rfl

/-! ## Streams -/

theorem ofOctets_cons (b : UInt8) (ys : List UInt8) :
    ofOctets (b :: ys) = b.toNat * 2 ^ (8 * ys.length) + ofOctets ys := by
  rw [← List.singleton_append, ofOctets_append, ofOctets_singleton]

theorem length_fields (e : CardStream) : e.fields.length = 5 := by
  simp [CardStream.fields]

/-- The fields of a stream as one number. -/
theorem ofOctets_fields (e : CardStream) :
    ofOctets e.fields = e.stream_type.toNat * 2 ^ 32 + (0xE000 + e.elem_pid) * 2 ^ 16 +
      (0xF000 + (Tlv.encodeAll e.descriptors).length) := by
  have hpid := e.elem_pid_lt
  have hinfo := e.info_lt
  rw [CardStream.fields, ofOctets_cons, ofOctets_append, ofOctets_toOctets 2 _ (by omega),
    ofOctets_toOctets 2 _ (by omega), List.length_append, length_toOctets, length_toOctets]
  ring

/-- **The fields of a stream** in a buffer. -/
theorem fields_read (e : CardStream) (xs zs : List UInt8) :
    bitsAt (xs ++ e.fields ++ zs) (8 * xs.length) 8 = e.stream_type.toNat ∧
      bitsAt (xs ++ e.fields ++ zs) (8 * xs.length + 11) 13 = e.elem_pid ∧
      bitsAt (xs ++ e.fields ++ zs) (8 * xs.length + 28) 12 =
        (Tlv.encodeAll e.descriptors).length := by
  have hlength := length_fields e
  have hnumber := ofOctets_fields e
  have htype := e.stream_type.toNat_lt
  have hpid := e.elem_pid_lt
  have hinfo := e.info_lt
  refine ⟨?_, ?_, ?_⟩
  · rw [← Nat.add_zero (8 * xs.length), bitsAt_append zs (by omega), bitsAt, hlength, hnumber]
    omega
  · rw [bitsAt_append zs (by omega), bitsAt, hlength, hnumber]
    omega
  · rw [bitsAt_append zs (by omega), bitsAt, hlength, hnumber]
    omega

theorem length_encode (e : CardStream) :
    e.encode.length = 5 + (Tlv.encodeAll e.descriptors).length := by
  rw [CardStream.encode, List.length_append, length_fields]

/-- A stream, in front of others. -/
theorem stream_read (e : CardStream) (xs ys : List UInt8) (hL : L = (xs ++ e.encode ++ ys).length) :
    bitsWithin (xs ++ e.encode ++ ys) L (8 * xs.length) 8 = e.stream_type.toNat ∧
      bitsWithin (xs ++ e.encode ++ ys) L (advance L (8 * xs.length) 8 + 3) 13 = e.elem_pid ∧
      esInfoLen (xs ++ e.encode ++ ys) L (8 * xs.length) =
        (Tlv.encodeAll e.descriptors).length ∧
      8 * xs.length + 40 ≤ 8 * L := by
  have hsplit : xs ++ e.encode ++ ys = xs ++ e.fields ++ (Tlv.encodeAll e.descriptors ++ ys) := by
    simp [CardStream.encode]
  have hfits : 8 * xs.length + 40 ≤ 8 * L := by
    rw [hL, List.length_append, List.length_append, length_encode]
    omega
  obtain ⟨htype, hpid, hlen⟩ := fields_read e xs (Tlv.encodeAll e.descriptors ++ ys)
  rw [← hsplit] at htype hpid hlen
  refine ⟨?_, ?_, ?_, hfits⟩
  · rw [bitsWithin, if_pos (by omega), htype]
  · rw [advance_of_le (by omega), bitsWithin, if_pos (by omega), hpid]
  · rw [esInfoLen, bitsWithin, if_pos (by omega), hlen]

theorem nextStream_encode (e : CardStream) (xs ys : List UInt8)
    (hL : L = (xs ++ e.encode ++ ys).length) :
    nextStream (xs ++ e.encode ++ ys) L (8 * xs.length) = 8 * (xs ++ e.encode).length := by
  obtain ⟨-, -, hlen, hfits⟩ := stream_read e xs ys hL
  rw [nextStream_of_le hfits, hlen, List.length_append, length_encode]
  omega

theorem encodeAll_cons (e : CardStream) (es : List CardStream) :
    CardStream.encodeAll (e :: es) = e.encode ++ CardStream.encodeAll es :=
  List.flatMap_cons

/-- All the streams are counted. -/
theorem countFrom_encode (zs : List UInt8) : ∀ (es : List CardStream) (xs : List UInt8),
    L = (xs ++ CardStream.encodeAll es ++ zs).length →
    countFrom (xs ++ CardStream.encodeAll es ++ zs) L (8 * xs.length)
      ((CardStream.encodeAll es).length : ℕ) = es.length := by
  intro es
  induction es with
  | nil =>
    intro xs _
    exact countFrom_of_le (Int.le_refl 0)
  | cons e es ih =>
    intro xs hL
    have hmem : xs ++ CardStream.encodeAll (e :: es) ++ zs =
        xs ++ e.encode ++ (CardStream.encodeAll es ++ zs) := by
      rw [encodeAll_cons]
      simp
    have hmem' : xs ++ e.encode ++ (CardStream.encodeAll es ++ zs) =
        xs ++ e.encode ++ CardStream.encodeAll es ++ zs := by simp
    have hlength := length_encode e
    rw [hmem] at hL
    obtain ⟨-, -, hlen, -⟩ := stream_read e xs _ hL
    have hrest := ih (xs ++ e.encode) (hmem' ▸ hL)
    rw [hmem, countFrom, if_pos (by rw [encodeAll_cons, List.length_append]; omega),
      nextStream_encode e xs _ hL, hlen, List.length_cons, ← hrest, hmem']
    have hbytes : ((CardStream.encodeAll (e :: es)).length : ℤ) -
        (5 + (Tlv.encodeAll e.descriptors).length) = (CardStream.encodeAll es).length := by
      rw [encodeAll_cons, List.length_append, hlength]
      push_cast
      ring
    rw [hbytes]

/-- **The streams** that are written. -/
theorem parseStreamsFrom_encode (zs : List UInt8) (mk : ℕ) : ∀ (es : List CardStream)
    (xs : List UInt8) (streams : List VlPmtStream),
    L = (xs ++ CardStream.encodeAll es ++ zs).length → L < 2 ^ 16 →
    parseStreamsFrom m (xs ++ CardStream.encodeAll es ++ zs)
        (xs.length + (CardStream.encodeAll es).length) es.length streams
        (stream (xs ++ CardStream.encodeAll es ++ zs) L (8 * xs.length) mk) =
      some (streams ++ es.map streamOf,
        stream (xs ++ CardStream.encodeAll es ++ zs) L
          (8 * (xs.length + (CardStream.encodeAll es).length)) mk) := by
  intro es
  induction es with
  | nil =>
    intro xs streams _ _
    have hnil : CardStream.encodeAll [] = [] := rfl
    rw [List.map_nil, List.append_nil, hnil, List.length_nil, Nat.add_zero]
    exact parseStreamsFrom_done (by omega)
  | cons e es ih =>
    intro xs streams hL hsmall
    have hmem : xs ++ CardStream.encodeAll (e :: es) ++ zs =
        xs ++ e.encode ++ (CardStream.encodeAll es ++ zs) := by
      rw [encodeAll_cons]
      simp
    have hmem' : xs ++ e.encode ++ (CardStream.encodeAll es ++ zs) =
        xs ++ e.encode ++ CardStream.encodeAll es ++ zs := by simp
    have hbound : xs.length + (CardStream.encodeAll (e :: es)).length =
        (xs ++ e.encode).length + (CardStream.encodeAll es).length := by
      rw [encodeAll_cons, List.length_append, List.length_append, Nat.add_assoc]
    have hlength := length_encode e
    rw [hmem] at hL
    have hnext := nextStream_encode e xs _ hL
    obtain ⟨htype, hpid, hlen, hfits⟩ := stream_read e xs _ hL
    have hinfo : infoAt m (xs ++ e.encode ++ (CardStream.encodeAll es ++ zs))
        (afterStream L (8 * xs.length)) (Tlv.encodeAll e.descriptors).length =
        some (infoOf e.descriptors) := by
      have hsplit : xs ++ e.encode ++ (CardStream.encodeAll es ++ zs) =
          xs ++ e.fields ++ Tlv.encodeAll e.descriptors ++ (CardStream.encodeAll es ++ zs) := by
        simp [CardStream.encode]
      have hplace : afterStream L (8 * xs.length) = 8 * (xs ++ e.fields).length := by
        rw [afterStream_of_le hfits, List.length_append, length_fields]
        omega
      rw [hsplit, hplace]
      exact infoAt_encode _ _ _ e.info_lt
    have hrest := ih (xs ++ e.encode) (streams ++ [streamOf e]) (hmem' ▸ hL) hsmall
    rw [← hmem'] at hrest
    rw [hmem, hbound, List.length_cons, parseStreamsFrom_succ (by
      rw [List.length_append]
      omega) hL.le (by omega) (.inl (by omega)), htype, hpid, hlen, hinfo, Option.bind_some, hnext,
      List.map_cons, List.append_cons streams (streamOf e)]
    exact hrest

/-! ## Sections -/

variable (e : CardProgram)

theorem length_programFields : e.fields.length = 12 := by
  simp [CardProgram.fields]

theorem sectionLen_lt : e.sectionLen < 2 ^ 12 := e.section_lt

theorem length_programEncode : e.encode.length = e.sectionLen + 3 := by
  rw [CardProgram.encode, List.length_append, List.length_append, List.length_append,
    length_programFields, e.crc_length, CardProgram.sectionLen]
  omega

/-- The fields of a PMT as one number. -/
theorem ofOctets_programFields :
    ofOctets e.fields = 2 * 2 ^ 88 + (0xB000 + e.sectionLen) * 2 ^ 72 + e.program_num * 2 ^ 56 +
      (0xC0 + e.version * 2 + e.current.toNat) * 2 ^ 48 + e.section_num.toNat * 2 ^ 40 +
      e.last_section_num.toNat * 2 ^ 32 + (0xE000 + e.pcr_pid) * 2 ^ 16 +
      (0xF000 + (Tlv.encodeAll e.descriptors).length) := by
  have h := sectionLen_lt e
  have hnum := e.program_num_lt
  have hpid := e.pcr_pid_lt
  have hinfo := e.info_lt
  have hversion := e.version_lt
  have hcurrent : e.current.toNat ≤ 1 := Bool.toNat_le e.current
  have hoctet : (UInt8.ofNat (0xC0 + e.version * 2 + e.current.toNat)).toNat =
      0xC0 + e.version * 2 + e.current.toNat := UInt8.toNat_ofNat_of_lt' (by
    change _ < 256
    omega)
  have htwo : (2 : UInt8).toNat = 2 := rfl
  rw [CardProgram.fields, ofOctets_cons, ofOctets_append, ofOctets_append, ofOctets_cons,
    ofOctets_cons, ofOctets_cons, ofOctets_append, ofOctets_toOctets 2 _ (by omega),
    ofOctets_toOctets 2 _ (by omega), ofOctets_toOctets 2 _ (by omega),
    ofOctets_toOctets 2 _ (by omega), hoctet, htwo]
  simp only [List.length_append, List.length_cons, length_toOctets]
  ring

theorem programAt_encode : programAt e.encode.length = 56 := by
  rw [programAt, length_programEncode, CardProgram.sectionLen, advance_of_le (by omega)]

/-- **The header** of a PMT. -/
theorem headerOf_encode :
    headerOf e.encode e.encode.length =
      { (tableOf e).header with current_next := e.current.toNat } := by
  have hfields := length_programFields e
  have hnumber := ofOctets_programFields e
  have hlength := length_programEncode e
  have hlong : 13 ≤ e.sectionLen := by
    rw [CardProgram.sectionLen]
    omega
  have h := sectionLen_lt e
  have hnum := e.program_num_lt
  have hpid := e.pcr_pid_lt
  have hinfo := e.info_lt
  have hversion := e.version_lt
  have hsection := e.section_num.toNat_lt
  have hlast := e.last_section_num.toNat_lt
  have hcurrent : e.current.toNat ≤ 1 := Bool.toNat_le e.current
  have hbits : ∀ i n, i + n ≤ 96 →
      bitsAt e.encode i n = ofOctets e.fields / 2 ^ (96 - (i + n)) % 2 ^ n := by
    intro i n hi
    have hsplit : e.encode = [] ++ e.fields ++
        (Tlv.encodeAll e.descriptors ++ CardStream.encodeAll e.streams ++ e.crc) := by
      simp [CardProgram.encode]
    have hin : bitsAt ([] ++ e.fields ++
        (Tlv.encodeAll e.descriptors ++ CardStream.encodeAll e.streams ++ e.crc)) (8 * 0 + i) n =
        bitsAt e.fields i n := bitsAt_append _ (by omega)
    rw [Nat.mul_zero, Nat.zero_add, ← hsplit] at hin
    rw [hin, bitsAt, hfields]
  have hpid' : advance e.encode.length 56 8 + 3 = 67 := by
    rw [advance_of_le (by omega)]
  rw [headerOf, programAt_encode, hpid', esInfoLen, bitsWithin, bitsWithin, bitsWithin, bitsWithin,
    if_pos (by omega), if_pos (by omega), if_pos (by omega), if_pos (by omega)]
  simp only [tableOf, pmtTblId, VlPmtHeader.mk.injEq]
  refine ⟨?_, ?_, ?_, ?_, ?_, ?_, ?_, ?_, ?_⟩
  all_goals
    rw [hbits _ _ (by decide), hnumber]
    omega

/-- **A PMT is parsed** to the table of its program, if it is current. -/
theorem parseData_encode (m : DataModel) :
    parseData m e.encode = some (if e.current then some (tableOf e) else none) := by
  have h := sectionLen_lt e
  have hheader := headerOf_encode e
  have hprogram := programAt_encode e
  have hlength := length_programEncode e
  have hfields := length_programFields e
  have hsection : 13 ≤ e.sectionLen := by
    rw [CardProgram.sectionLen]
    omega
  have hmod : e.encode.length % 2 ^ (m.longBits - 3) = e.encode.length :=
    Nat.mod_eq_of_lt (Nat.lt_of_lt_of_le (by omega : e.encode.length < 2 ^ 29)
      (by cases m <;> decide))
  have hid : bitsAt e.encode 0 8 = pmtTblId := congrArg VlPmtHeader.table_id hheader
  have hlen : bitsAt e.encode 12 12 = e.sectionLen := congrArg VlPmtHeader.section_len hheader
  have hbit : bitsAt e.encode 47 1 = e.current.toNat := congrArg VlPmtHeader.current_next hheader
  have hinfo : esInfoLen e.encode e.encode.length 56 = (Tlv.encodeAll e.descriptors).length :=
    hprogram ▸ congrArg VlPmtHeader.prog_info_len hheader
  rw [parseData, if_neg (by omega), create_eq, hmod]
  cases hcurrent : e.current with
  | false =>
    rw [hcurrent] at hbit
    obtain ⟨b, hb⟩ : ∃ b, parseTable m e.encode (stream e.encode e.encode.length 0 0) =
        some (none, b) :=
      parseTable_other (Nat.le_refl _) (by omega) fun hboth => hboth.1 hbit
    exact Option.map_eq_some_iff.mpr ⟨_, hb, rfl⟩
  | true =>
    rw [hcurrent] at hbit hheader
    have hcurrent' : bitsAt e.encode 47 1 ≠ 0 := by
      rw [hbit]
      decide
    have hfits : 56 + 40 ≤ 8 * e.encode.length := by omega
    have hafter : afterStream e.encode.length 56 = 8 * e.fields.length := by
      rw [afterStream_of_le hfits, hfields]
    have hnext : nextStream e.encode e.encode.length 56 =
        8 * (e.fields ++ Tlv.encodeAll e.descriptors).length := by
      rw [nextStream_of_le hfits, hinfo, List.length_append, hfields]
      omega
    have hdesc : infoAt m e.encode (8 * e.fields.length) (Tlv.encodeAll e.descriptors).length =
        some (infoOf e.descriptors) := by
      have hsplit : e.encode = e.fields ++ Tlv.encodeAll e.descriptors ++
          (CardStream.encodeAll e.streams ++ e.crc) := by simp [CardProgram.encode]
      rw [hsplit]
      exact infoAt_encode _ _ _ e.info_lt
    have hbytes : (e.sectionLen : ℤ) - 1 -
        (8 * (e.fields ++ Tlv.encodeAll e.descriptors).length / 8 : ℕ) =
        ((CardStream.encodeAll e.streams).length : ℕ) := by
      rw [Nat.mul_div_cancel_left _ (by decide), List.length_append, hfields,
        CardProgram.sectionLen]
      push_cast
      ring
    have hbound : e.sectionLen - 1 = (e.fields ++ Tlv.encodeAll e.descriptors).length +
        (CardStream.encodeAll e.streams).length := by
      rw [List.length_append, hfields, CardProgram.sectionLen]
      omega
    have hcount : countFrom e.encode e.encode.length
        (8 * (e.fields ++ Tlv.encodeAll e.descriptors).length)
        ((CardStream.encodeAll e.streams).length : ℕ) = e.streams.length :=
      countFrom_encode e.crc e.streams _ rfl
    have hstreams := parseStreamsFrom_encode (m := m) e.crc
      (8 * (e.fields ++ Tlv.encodeAll e.descriptors).length) e.streams
      (e.fields ++ Tlv.encodeAll e.descriptors) [] rfl
      (by change e.encode.length < _; omega)
    change parseStreamsFrom m e.encode _ _ [] (stream e.encode e.encode.length _ _) = _ at hstreams
    have htable : parseTable m e.encode (stream e.encode e.encode.length 0 0) = _ :=
      parseTable_eq (Nat.le_refl _) (by omega) hcurrent' hid
    rw [hprogram, hlen, toLong_of_pos (by omega) h, hafter, hinfo, hnext, hbytes, hcount, hbound,
      hdesc, Option.bind_some, hstreams, hheader] at htable
    exact Option.map_eq_some_iff.mpr ⟨_, htable, rfl⟩

/-! ## Buffers -/

/-- A buffer is parsed in its memory, in the array of the streams and with the copied descriptors
inside the others, and if it is the PMT of a program, its table is that of the program. -/
def ParsesRight (m : DataModel) (buf : List UInt8) : Prop :=
  Safe m buf ∧ ∀ e : CardProgram, buf = e.encode →
    parseData m buf = some (if e.current then some (tableOf e) else none)

/-- **When a buffer is parsed right.** -/
theorem parsesRight_iff (m : DataModel) (buf : List UInt8) : ParsesRight m buf ↔ Fits m buf := by
  rw [← safe_iff]
  refine ⟨And.left, fun h => ⟨h, ?_⟩⟩
  rintro e rfl
  exact parseData_encode e m

/-- A PMT that ends behind its fields, although its section has one more octet in front of the
CRC. -/
theorem not_parsesRight_oneOctetMissing :
    ¬ParsesRight .lp64
      [0x02, 0xB0, 0x0E, 0x00, 0x01, 0xC1, 0x00, 0x00, 0xE0, 0x00, 0xF0, 0x00] := by
  rintro ⟨hsafe, -⟩
  obtain ⟨-, hfits⟩ := (safe_iff _ _).mp hsafe
  obtain ⟨-, -, hstreams⟩ := hfits (by decide) (by decide) (by decide)
  cases hstreams with
  | done hdone => exact absurd hdone (by decide)
  | last _ _ hafter => exact absurd hafter (by decide)
  | next _ hin => exact absurd hin (by decide)

end VlTablePMT

end MediaFramework
