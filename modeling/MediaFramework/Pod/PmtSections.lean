import MediaFramework.Lib.Tlv
import MediaFramework.Pod.PmtWalks

/-!
# The sections of a PMT

The fields of the program are read like those of a stream: `last_section_num` is where its type
would be.

* `safe_iff` — when the table is parsed inside its memory;
* `parseData_encode` — what a PMT is parsed to.
-/

namespace MediaFramework

namespace VlTablePMT

variable {m : DataModel} {buf s : List UInt8} {L p n mk k len : ℕ}

/-! ## The header -/

/-- Where the fields of the program begin. -/
def programAt (L : ℕ) : ℕ := advance L 48 8

theorem atStream_programAt (hL : 6 ≤ L) : AtStream L (programAt L) := by
  rcases Nat.lt_or_ge L 7 with hlt | hle
  · exact .inr (le_advance_of_lt (by omega))
  · rw [programAt, advance_of_le (by omega)]
    exact .inl rfl

theorem programAt_le (L : ℕ) : programAt L ≤ 56 := advance_le L 48 8

/-- The fields of a header that is not too short. -/
def headerOf (buf : List UInt8) (L : ℕ) : VlPmtHeader where
  table_id := bitsAt buf 0 8
  section_len := bitsAt buf 12 12
  program_num := bitsAt buf 24 16
  version := bitsAt buf 42 5
  current_next := bitsAt buf 47 1
  section_num := bitsWithin buf L 48 8
  last_section_num := bitsWithin buf L (programAt L) 8
  pcr_pid := bitsWithin buf L (advance L (programAt L) 8 + 3) 13
  prog_info_len := esInfoLen buf L (programAt L)

theorem getBits_inside (hL : L ≤ buf.length) (hn : 0 < n) (hn' : n ≤ 16) (hp : p + n ≤ 8 * L)
    (hsmall : p < 2 ^ 20) :
    getBits m n (stream buf L p mk) = some (bitsAt buf p n, stream buf L (p + n) mk) := by
  rw [getBits_stream hL hn hn' (by omega) (.inl hp), advance_of_le hp, bitsWithin, if_pos hp]

theorem getBits_end (hL : L ≤ buf.length) (hn : 0 < n) (hn' : n ≤ 16) (hp : 8 * L ≤ p)
    (hsmall : p < 2 ^ 20) :
    getBits m n (stream buf L p mk) = some (0, stream buf L p mk) := by
  rw [getBits_stream hL hn hn' (by omega) (pieces_of_end hp n), bitsWithin, if_neg (by omega),
    advance, Nat.min_eq_right (by omega), Nat.max_eq_left hp]

/-- The fields of a stream, one by one. -/
theorem readStream_bind {α : Type} (f : ℕ → ℕ → ℕ → PmtRead α) :
    (do
      let a ← getBits m 8
      skipBits m 3
      let b ← getBits m 13
      skipBits m 4
      let c ← getBits m 12
      f a b c) = readStream m >>= fun r => f r.1 r.2.1 r.2.2 := by
  simp only [readStream, bind_assoc, pure_bind]

/-- **The header**, when `current_next` is in the buffer. -/
theorem parseHeader_eq (hL : L ≤ buf.length) (h6 : 6 ≤ L) :
    parseHeader m (stream buf L 0 mk) =
      some (headerOf buf L, stream buf L (afterStream L (programAt L)) mk) := by
  have hprogram : readStream m (stream buf L (programAt L) mk) = _ := readStream_eq hL
    (by have := programAt_le L; omega) (atStream_programAt h6)
  rw [parseHeader, bind_of (getBits_inside hL (by decide) (by decide) (by omega) (by decide)),
    bind_of (skipBits_stream (by decide)),
    bind_of (getBits_inside hL (by decide) (by decide) (by omega) (by decide)),
    bind_of (getBits_inside hL (by decide) (by decide) (by omega) (by decide)),
    bind_of (skipBits_stream (by decide)),
    bind_of (getBits_inside hL (by decide) (by decide) (by omega) (by decide)),
    bind_of (getBits_inside hL (by decide) (by decide) (by omega) (by decide)),
    bind_of (getBits_stream hL (by decide) (by decide) (by decide) (pieces_octet (.inl rfl)))]
  refine (congrFun (readStream_bind _) _).trans ?_
  exact bind_of hprogram

/-- `program_num` in a buffer that is too short for `current_next`. Both its octets are read if one
is left. -/
theorem getBits_programNum (m : DataModel) (mk : ℕ) (hL : L ≤ buf.length) (h6 : L < 6)
    (h4 : L = 4 → 4 < buf.length) (hp : p = 24 ∧ 3 ≤ L ∨ 8 * L ≤ p ∧ p ≤ 24) :
    ∃ v q, getBits m 16 (stream buf L p mk) = some (v, stream buf L q mk) ∧ 8 * L ≤ q ∧ q ≤ 40 := by
  rcases Nat.lt_or_ge p (8 * L) with hlt | hend
  · obtain ⟨rfl, h3⟩ := hp.resolve_right fun h => absurd h.1 (by omega)
    have hround : VlSimpleBitstream.lastRound 24 16 = 24 := by decide
    have hloop := VlSimpleBitstream.getBitsFrom_eq (stream buf L 24 mk) 40 0 24 (by decide)
      (by change 40 ≤ 8 * buf.length; omega) (by decide) (fun hneg => absurd hneg.1 (by decide))
      (by rw [hround]; exact hlt) (by rw [hround]; decide) (Nat.two_pow_pos _)
    rw [Nat.zero_mul, Nat.zero_add] at hloop
    have hbound := bitsAt_lt buf 24 16
    exact ⟨_, 40, getBits_of_getBitsFrom (by decide) (hbound.trans (by decide)) hloop, by omega,
      Nat.le_refl 40⟩
  · exact ⟨0, p, getBits_end hL (by decide) (by decide) hend (by omega), hend, by omega⟩

/-- Too short for `current_next`. -/
theorem parseHeader_short (hL : L ≤ buf.length) (h6 : L < 6) (h4 : L = 4 → 4 < buf.length) :
    ∃ header b, parseHeader m (stream buf L 0 mk) = some (header, b) ∧ header.current_next = 0 := by
  have hid : getBits m 8 (stream buf L 0 mk) = _ := getBits_stream hL (by decide) (by decide)
    (by decide) (pieces_octet (.inl rfl))
  have hplace : advance L 0 8 + 4 = 12 ∨ 8 * L ≤ advance L 0 8 + 4 ∧ advance L 0 8 + 4 ≤ 12 := by
    rw [advance]
    omega
  have hlen : Pieces L (advance L 0 8 + 4) 12 := by
    rcases hplace with hplace | ⟨hend, -⟩
    · rw [hplace]
      exact pieces_field (by decide) (by decide) (by decide) rfl
    · exact pieces_of_end hend 12
  have hnum : advance L (advance L 0 8 + 4) 12 = 24 ∧ 3 ≤ L ∨
      8 * L ≤ advance L (advance L 0 8 + 4) 12 ∧ advance L (advance L 0 8 + 4) 12 ≤ 24 := by
    rcases hplace with hplace | ⟨hend, hle⟩
    · rw [hplace, advance]
      omega
    · rw [advance, Nat.min_eq_right (by omega), Nat.max_eq_left hend]
      omega
  obtain ⟨v, q, hread, hend, hle⟩ := getBits_programNum m mk hL h6 h4 hnum
  refine ⟨⟨bitsWithin buf L 0 8, bitsWithin buf L (advance L 0 8 + 4) 12, v, 0, 0, 0, 0, 0, 0⟩,
    stream buf L (q + 2 + 3 + 4) mk, ?_, rfl⟩
  rw [parseHeader, bind_of hid, bind_of (skipBits_stream (by omega)),
    bind_of (getBits_stream hL (by decide) (by decide) (by omega) hlen), bind_of hread,
    bind_of (skipBits_stream (by omega)),
    bind_of (getBits_end hL (by decide) (by decide) (by omega) (by omega)),
    bind_of (getBits_end hL (by decide) (by decide) (by omega) (by omega)),
    bind_of (getBits_end hL (by decide) (by decide) (by omega) (by omega)),
    bind_of (getBits_end hL (by decide) (by decide) (by omega) (by omega)),
    bind_of (skipBits_stream (by omega)),
    bind_of (getBits_end hL (by decide) (by decide) (by omega) (by omega)),
    bind_of (skipBits_stream (by omega)),
    bind_of (getBits_end hL (by decide) (by decide) (by omega) (by omega))]
  rfl

/-- Four octets, the last of which `program_num` begins with. -/
theorem parseHeader_four (h4 : buf.length = 4) : parseHeader m (stream buf 4 0 mk) = none := by
  have hL : 4 ≤ buf.length := h4.ge
  have hround : (stream buf 4 24 mk).roundValue 40 24 = none := by
    rw [VlSimpleBitstream.roundValue, if_pos (by decide)]
    change (VlSimpleBitstream.valueFromArray buf 3 2).map _ = none
    rw [VlSimpleBitstream.valueFromArray, if_neg (by omega)]
    rfl
  have hread : getBits m 16 (stream buf 4 24 mk) = none := by
    have hstop : (stream buf 4 24 mk).curr_bit_index = 24 := rfl
    rw [getBits, VlSimpleBitstream.getBits, hstop,
      Nat.mod_eq_of_lt (two_pow_le_longBits (by decide)), VlSimpleBitstream.getBitsFrom,
      dif_pos (by decide), if_neg (by change ¬8 * 4 ≤ 24; decide),
      if_neg (by decide), hround]
    rfl
  rw [parseHeader, bind_of (getBits_inside hL (by decide) (by decide) (by decide) (by decide)),
    bind_of (skipBits_stream (by decide)),
    bind_of (getBits_inside hL (by decide) (by decide) (by decide) (by decide))]
  change (getBits m 16 (stream buf 4 24 mk)).bind _ = none
  rw [hread]
  rfl

/-! ## The table -/

/-- The copied descriptors of a table are inside the others. -/
def TableInside (tbl : VlPmtTbl) : Prop :=
  InfoInside tbl.header.prog_info_len tbl.desc ∧ StreamsInside tbl.streams

/-- A buffer is parsed in its memory and in the array of the streams, and the descriptors that are
copied are inside the others. -/
def Safe (m : DataModel) (buf : List UInt8) : Prop :=
  ∃ result, parseData m buf = some result ∧ ∀ tbl ∈ result, TableInside tbl

/-- The descriptors of the program fit, the section is not empty, and the streams fit. -/
def SectionFits (buf : List UInt8) (L : ℕ) : Prop :=
  DescriptorsFit (buf.drop (afterStream L (programAt L) / 8)) (esInfoLen buf L (programAt L)) 0 ∧
    bitsAt buf 12 12 ≠ 0 ∧
    StreamsFit buf L (bitsAt buf 12 12 - 1) (nextStream buf L (programAt L))

/-- `Length`, of a buffer whose bits are counted in an `unsigned long`. -/
def countedLength (m : DataModel) (buf : List UInt8) : ℕ := buf.length % 2 ^ (m.longBits - 3)

/-- The buffer does not end inside `program_num`, and if it is a current PMT, it fits. -/
def Fits (m : DataModel) (buf : List UInt8) : Prop :=
  buf.length ≠ 4 ∧
    (6 ≤ countedLength m buf → bitsAt buf 47 1 ≠ 0 → bitsAt buf 0 8 = pmtTblId →
      SectionFits buf (countedLength m buf))

theorem toLong_of_pos {v : ℕ} (hv : 1 ≤ v) (hv' : v < 2 ^ 12) :
    toLong m (3 + (v : ℤ) - 4) = v - 1 := by
  have hcast : 3 + (v : ℤ) - 4 = ((v - 1 : ℕ) : ℤ) := by omega
  have hlt : ((v - 1 : ℕ) : ℤ) < 2 ^ m.longBits := by
    exact_mod_cast two_pow_le_longBits (by omega)
  rw [hcast, toLong, Int.emod_eq_of_lt (Int.natCast_nonneg _) hlt]
  rfl

theorem toLong_zero (m : DataModel) : toLong m (3 + ((0 : ℕ) : ℤ) - 4) = 2 ^ m.longBits - 1 := by
  cases m <;> decide

/-- The octets for the streams, as an `int`. -/
theorem bmod_toLong {v q : ℕ} (hv : v < 2 ^ 12) (hq : q < 2 ^ 16) :
    Int.bmod (toLong m (3 + (v : ℤ) - 4) - q) (2 ^ 32) = (v : ℤ) - 1 - q := by
  rw [Int.bmod]
  rcases Nat.eq_zero_or_pos v with rfl | hpos
  · rw [toLong_zero]
    cases m
    · simp only [DataModel.longBits]
      omega
    · simp only [DataModel.longBits]
      omega
  · rw [toLong_of_pos hpos hv]
    omega

/-- A current PMT. -/
theorem parseTable_eq (hL : L ≤ buf.length) (h6 : 6 ≤ L) (hcurrent : bitsAt buf 47 1 ≠ 0)
    (hid : bitsAt buf 0 8 = pmtTblId) :
    parseTable m buf (stream buf L 0 0) =
      (infoAt m buf (afterStream L (programAt L)) (esInfoLen buf L (programAt L))).bind fun desc =>
        (parseStreamsFrom m buf (toLong m (3 + (bitsAt buf 12 12 : ℤ) - 4))
          (countFrom buf L (nextStream buf L (programAt L))
            ((bitsAt buf 12 12 : ℤ) - 1 - (nextStream buf L (programAt L) / 8 : ℕ))) []
          (stream buf L (nextStream buf L (programAt L)) (nextStream buf L (programAt L)))).map
        fun r => (some ⟨headerOf buf L, desc, r.1⟩, r.2) := by
  have hes := esInfoLen_lt buf L (programAt L)
  have hafter := (afterStream_bounds L (programAt L)).2
  have hprogram := programAt_le L
  have hsection := bitsAt_lt buf 12 12
  have hat : AtStream L (nextStream buf L (programAt L)) := (atStream_programAt h6).next
  have hsmall : nextStream buf L (programAt L) < 2 ^ 16 := by
    rw [nextStream]
    omega
  rw [parseTable, bind_of (parseHeader_eq hL h6)]
  refine (congrFun (if_neg hcurrent) _).trans ((congrFun (if_neg (not_not.mpr hid)) _).trans ?_)
  change (parseInfo m buf (esInfoLen buf L (programAt L))
    (stream buf L (afterStream L (programAt L)) 0)).bind _ = _
  rw [parseInfo_stream (by omega)]
  cases infoAt m buf (afterStream L (programAt L)) (esInfoLen buf L (programAt L)) with
  | none => rfl
  | some desc =>
    have hcount : getStreamsCount m
        ((bitsAt buf 12 12 : ℤ) - 1 - (nextStream buf L (programAt L) / 8 : ℕ))
        (stream buf L (nextStream buf L (programAt L)) 0) = _ :=
      getStreamsCount_eq hL hat (by omega)
    rw [← bmod_toLong (m := m) hsection (by omega)] at hcount
    change (getStreamsCount m
      (Int.bmod (toLong m (3 + (bitsAt buf 12 12 : ℤ) - 4) -
        (nextStream buf L (programAt L) / 8 : ℕ)) (2 ^ 32))
      (stream buf L (nextStream buf L (programAt L)) 0)).bind _ = _
    rw [hcount, bmod_toLong hsection (by omega)]
    change (parseStreamsFrom m buf (toLong m (3 + (bitsAt buf 12 12 : ℤ) - 4))
      (countFrom buf L (nextStream buf L (programAt L))
        ((bitsAt buf 12 12 : ℤ) - 1 - (nextStream buf L (programAt L) / 8 : ℕ))) []
      (stream buf L (nextStream buf L (programAt L)) (nextStream buf L (programAt L)))).bind _ = _
    cases parseStreamsFrom m buf (toLong m (3 + (bitsAt buf 12 12 : ℤ) - 4))
          (countFrom buf L (nextStream buf L (programAt L))
            ((bitsAt buf 12 12 : ℤ) - 1 - (nextStream buf L (programAt L) / 8 : ℕ))) []
          (stream buf L (nextStream buf L (programAt L)) (nextStream buf L (programAt L))) <;> rfl

/-- With an empty section the array has no place, and the second walk begins. -/
theorem parseTable_empty (hL : L ≤ buf.length) (h6 : 6 ≤ L) (hcurrent : bitsAt buf 47 1 ≠ 0)
    (hid : bitsAt buf 0 8 = pmtTblId) (hzero : bitsAt buf 12 12 = 0) :
    parseTable m buf (stream buf L 0 0) = none := by
  have hes := esInfoLen_lt buf L (programAt L)
  have hafter := (afterStream_bounds L (programAt L)).2
  have hprogram := programAt_le L
  have hlong := VlSimpleBitstream.two_pow_le_longBits m
  have hplace : nextStream buf L (programAt L) / 8 < 2 ^ m.longBits - 1 := by
    rw [nextStream]
    omega
  rw [parseTable_eq hL h6 hcurrent hid, hzero, toLong_zero, countFrom_of_le (by omega),
    parseStreamsFrom_full hplace]
  cases infoAt m buf (afterStream L (programAt L)) (esInfoLen buf L (programAt L)) <;> rfl

/-- A current PMT fits just if its table is parsed, with the copied descriptors inside. -/
theorem parseTable_iff (hL : L ≤ buf.length) (h6 : 6 ≤ L) (hcurrent : bitsAt buf 47 1 ≠ 0)
    (hid : bitsAt buf 0 8 = pmtTblId) :
    (∃ tbl b, parseTable m buf (stream buf L 0 0) = some (some tbl, b) ∧ TableInside tbl) ↔
      SectionFits buf L := by
  rcases Nat.eq_zero_or_pos (bitsAt buf 12 12) with hzero | hpos
  · rw [parseTable_empty hL h6 hcurrent hid hzero]
    refine iff_of_false ?_ fun h => h.2.1 hzero
    rintro ⟨tbl, b, h, -⟩
    cases h
  · have hsection := bitsAt_lt buf 12 12
    have hes := esInfoLen_lt buf L (programAt L)
    have hat : AtStream L (nextStream buf L (programAt L)) := (atStream_programAt h6).next
    have hcast : (bitsAt buf 12 12 : ℤ) - 1 = (bitsAt buf 12 12 - 1 : ℕ) := by omega
    rw [parseTable_eq hL h6 hcurrent hid, toLong_of_pos hpos hsection, hcast, SectionFits,
      ← infoAt_iff (m := m) hes]
    generalize nextStream buf L (programAt L) = p at hat ⊢
    have hstreams : (∃ list b, parseStreamsFrom m buf (bitsAt buf 12 12 - 1)
        (countFrom buf L p ((bitsAt buf 12 12 - 1 : ℕ) - (p / 8 : ℕ))) [] (stream buf L p p) =
        some (list, b) ∧ StreamsInside list) ↔ StreamsFit buf L (bitsAt buf 12 12 - 1) p :=
      parseStreamsFrom_iff hL (by omega) hat fun _ h => by cases h
    rw [← hstreams]
    constructor
    · rintro ⟨tbl, b, h, hinfo, hin⟩
      obtain ⟨desc, hdesc, h⟩ := Option.bind_eq_some_iff.mp h
      obtain ⟨⟨list, b'⟩, hlist, h⟩ := Option.map_eq_some_iff.mp h
      obtain ⟨htbl, -⟩ := Prod.mk.inj h
      cases htbl
      exact ⟨⟨desc, hdesc, hinfo⟩, Nat.ne_of_gt hpos, list, b', hlist, hin⟩
    · rintro ⟨⟨desc, hdesc, hinfo⟩, -, list, b, hlist, hin⟩
      refine ⟨⟨headerOf buf L, desc, list⟩, b, ?_, hinfo, hin⟩
      rw [hdesc, Option.bind_some, hlist, Option.map_some]

/-- Of a current PMT there is a table, if it is parsed at all. -/
theorem exists_table (hL : L ≤ buf.length) (h6 : 6 ≤ L) (hcurrent : bitsAt buf 47 1 ≠ 0)
    (hid : bitsAt buf 0 8 = pmtTblId) {result : Option VlPmtTbl} {b : VlSimpleBitstream}
    (h : parseTable m buf (stream buf L 0 0) = some (result, b)) : ∃ tbl, result = some tbl := by
  rw [parseTable_eq hL h6 hcurrent hid] at h
  obtain ⟨desc, -, h⟩ := Option.bind_eq_some_iff.mp h
  obtain ⟨r, -, h⟩ := Option.map_eq_some_iff.mp h
  exact ⟨_, (Prod.mk.inj h).1.symm⟩

theorem parseTable_other (hL : L ≤ buf.length) (h6 : 6 ≤ L)
    (hother : ¬(bitsAt buf 47 1 ≠ 0 ∧ bitsAt buf 0 8 = pmtTblId)) :
    ∃ b, parseTable m buf (stream buf L 0 0) = some (none, b) := by
  refine ⟨stream buf L (afterStream L (programAt L)) 0, ?_⟩
  rw [parseTable, bind_of (parseHeader_eq hL h6)]
  by_cases hcurrent : bitsAt buf 47 1 = 0
  · exact congrFun (if_pos hcurrent) _
  · have hid : bitsAt buf 0 8 ≠ pmtTblId := fun hid => hother ⟨hcurrent, hid⟩
    exact (congrFun (if_neg hcurrent) _).trans (congrFun (if_pos hid) _)

theorem parseTable_short (hL : L ≤ buf.length) (h6 : L < 6) (h4 : L = 4 → 4 < buf.length) :
    ∃ b, parseTable m buf (stream buf L 0 0) = some (none, b) := by
  obtain ⟨header, b, hheader, hcurrent⟩ := parseHeader_short (m := m) hL h6 h4
  refine ⟨b, ?_⟩
  rw [parseTable, bind_of hheader]
  exact congrFun (if_pos hcurrent) _

theorem safe_of_none {b : VlSimpleBitstream}
    (h : parseTable m buf (stream buf (countedLength m buf) 0 0) = some (none, b)) :
    Safe m buf := by
  rw [Safe, parseData]
  by_cases hzero : buf.length = 0
  · rw [if_pos hzero]
    exact ⟨none, rfl, fun _ h => by cases h⟩
  · rw [if_neg hzero, create_eq]
    exact ⟨none, Option.map_eq_some_iff.mpr ⟨_, h, rfl⟩, fun _ h => by cases h⟩

/-- **When a buffer is parsed safely.** -/
theorem safe_iff (m : DataModel) (buf : List UInt8) : Safe m buf ↔ Fits m buf := by
  obtain ⟨L, hcount⟩ : ∃ L, L = countedLength m buf := ⟨_, rfl⟩
  have hL : L ≤ buf.length := hcount ▸ Nat.mod_le _ _
  rw [Fits, ← hcount]
  rcases Nat.lt_or_ge L 6 with h6 | h6
  · have hpow : 2 ^ 29 ≤ 2 ^ (m.longBits - 3) := by cases m <;> decide
    by_cases h4 : buf.length = 4
    · refine iff_of_false ?_ fun h => h.1 h4
      rintro ⟨result, hresult, -⟩
      have hfour : L = 4 := by
        rw [hcount, countedLength, h4]
        exact Nat.mod_eq_of_lt (Nat.lt_of_lt_of_le (by decide) hpow)
      have hnone : parseTable m buf (stream buf 4 0 0) = none := by
        change (parseHeader m (stream buf 4 0 0)).bind _ = none
        rw [parseHeader_four h4]
        rfl
      rw [parseData, if_neg (by omega), create_eq, ← countedLength, ← hcount, hfour] at hresult
      obtain ⟨_, htable, -⟩ := Option.map_eq_some_iff.mp hresult
      change parseTable m buf (stream buf 4 0 0) = _ at htable
      rw [hnone] at htable
      cases htable
    · obtain ⟨b, hb⟩ := parseTable_short (m := m) hL h6 fun heq => by omega
      exact iff_of_true (safe_of_none (hcount ▸ hb)) ⟨h4, fun h => absurd h (by omega)⟩
  · by_cases hboth : bitsAt buf 47 1 ≠ 0 ∧ bitsAt buf 0 8 = pmtTblId
    · obtain ⟨hcurrent, hid⟩ := hboth
      have htable := parseTable_iff (m := m) hL h6 hcurrent hid
      rw [Safe, parseData, if_neg (by omega), create_eq, ← countedLength, ← hcount]
      constructor
      · rintro ⟨result, hresult, hin⟩
        obtain ⟨⟨_, b⟩, hparse, rfl⟩ := Option.map_eq_some_iff.mp hresult
        obtain ⟨tbl, rfl⟩ := exists_table hL h6 hcurrent hid hparse
        exact ⟨by omega, fun _ _ _ => htable.mp ⟨tbl, b, hparse, hin tbl rfl⟩⟩
      · rintro ⟨-, hfits⟩
        obtain ⟨tbl, b, hparse, hin⟩ := htable.mpr (hfits h6 hcurrent hid)
        refine ⟨some tbl, Option.map_eq_some_iff.mpr ⟨_, hparse, rfl⟩, fun tbl' htbl => ?_⟩
        cases htbl
        exact hin
    · obtain ⟨b, hb⟩ := parseTable_other (m := m) hL h6 hboth
      exact iff_of_true (safe_of_none (hcount ▸ hb))
        ⟨by omega, fun _ hcurrent hid => absurd ⟨hcurrent, hid⟩ hboth⟩

end VlTablePMT

end MediaFramework
