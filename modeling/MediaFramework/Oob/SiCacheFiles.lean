import MediaFramework.Dsg.BcastSections
import MediaFramework.Lib.Bursts
import MediaFramework.Lib.ByteOrder

/-!
# The files of the SI cache (`rmf_oobsicache.cpp`)

The SI is cached in two files: the source names in the SNS file, the version and everything else in
the SI file. When they are written from the live SI, the CRC of the SNS file and the SI file behind
it is put at the end of the SI file; the files are loaded when the version is not too old and the
CRC is right.

The old cache is converted into the two files by the same functions, but there nobody writes the
CRC: they are not loaded (`verify_cached_iff`). And the CRC is written in the machine's byte order.
Where this is not that of the CRC itself, an error that crosses from the data into the CRC is not
noticed if it is the same in the data and, mirrored, in the CRC (`Mirrored`), and there always is
such an error (`exists_mirrored_little`); every other error in 32 adjacent bits is (`protects_iff`).

All file operations succeed. The sizes are 32-bit numbers, and what does not fit into the buffer
that is allocated for the sum has no result.
-/

namespace MediaFramework.SiCache

open Crc

/-! ## The CRC -/

/-- `CRC_QUOTIENT` -/
def crcQuotient : BitVec 32 := 0x04C11DB7#32

/-- `crctab`, as `init_mpeg2_crc` makes it. -/
def crctab (i : ℕ) : BitVec 32 :=
  (List.range 8).foldl
    (fun crc _ =>
      if crc &&& 0x80000000#32 ≠ 0#32 then crc <<< 1 ^^^ crcQuotient else crc <<< 1)
    (BitVec.ofNat 32 i <<< 24)

/-- `calc_mpeg2_crc` -/
def calcMpeg2Crc : List UInt8 → BitVec 32
  | a :: b :: c :: d :: data =>
    let result := ~~~(low a <<< 24 ||| low b <<< 16 ||| low c <<< 8 ||| low d)
    ~~~data.foldl (fun result b => (result <<< 8 ||| low b) ^^^ crctab (result >>> 24).toNat) result
  | _ => 0#32

/-! ## The files -/

/-- `RMF_SI_CACHE_FILE_VERSION` -/
def fileVersion : ℕ := 0x101

/-- What is cached. Of the entries there are those that are not skipped: whether the state is
`SIENTRY_DEFINED_MAPPED`, and the bytes of the record and of its names. -/
structure SiDatabase where
  frequency : Vector UInt32 256
  mode : Vector UInt32 256
  entries : List (Bool × List UInt8)
  sourceNames : List (List UInt8)

/-- `cache_sns_entries` -/
def cacheSnsEntries (db : SiDatabase) : List UInt8 := db.sourceNames.flatten

/-- `cache_si_entries`. When no channel is defined and mapped, the file is deleted. -/
def cacheSiEntries (o : ByteOrder) (db : SiDatabase) : Option (List UInt8) :=
  if db.entries.any Prod.fst then
    some (o.bytes 4 fileVersion ++ db.frequency.toList.flatMap (fun f => o.bytes 4 f.toNat) ++
      db.mode.toList.flatMap (fun m => o.bytes 4 m.toNat) ++ db.entries.flatMap Prod.snd)
  else none

/-- `si_getFileSize` -/
def fileSize (file : List UInt8) : ℕ := file.length % 2 ^ 32

/-- Both files in a buffer of `crcFileSize` bytes, the SNS file first. -/
def readBoth (si sns : List UInt8) : Option (List UInt8) :=
  let crcFileSize := (fileSize sns + fileSize si) % 2 ^ 32
  if fileSize sns + fileSize si ≤ crcFileSize then
    some (sns.take (fileSize sns) ++ si.take (fileSize si))
  else none

/-- `write_crc`. Nothing is done with an empty file. -/
def writeCrc (o : ByteOrder) (si : List UInt8) (crcValue : BitVec 32) : List UInt8 :=
  if fileSize si = 0 then si else si.take (fileSize si) ++ o.bytes 4 crcValue.toNat

/-- `write_crc_for_si_and_sns_cache`: the new SI file. -/
def writeCrcForSiAndSnsCache (o : ByteOrder) (si sns : List UInt8) : Option (List UInt8) :=
  (readBoth si sns).map fun data => writeCrc o si (calcMpeg2Crc data)

/-- `verify_crc_for_si_and_sns_cache`. Without four bytes the length of the data is below 0. -/
def verifyCrcForSiAndSnsCache (o : ByteOrder) (si sns : List UInt8) : Option Bool := do
  let data ← readBoth si sns
  let readSISize := 4
  if data.length < readSISize then none
  else
    let crcValue := calcMpeg2Crc (data.take (data.length - readSISize))
    let crcRead := o.value (data.drop (data.length - readSISize))
    some (crcValue.toNat = crcRead)

/-- `verify_version_and_crc` -/
def verifyVersionAndCrc (o : ByteOrder) (si sns : List UInt8) : Option Bool :=
  if si.length < 4 then some false
  else if o.value (si.take 4) < fileVersion then some false
  else verifyCrcForSiAndSnsCache o si sns

/-- What writes the files: `CacheSiEntriesFromLive`, or `LoadSiCache` from the cache of the old
format. -/
inductive WritePath
  | live
  | converted
deriving DecidableEq

/-- What is cached has a size of 32 bits, with the CRC. -/
def SiDatabase.Fits (db : SiDatabase) : Prop :=
  (cacheSnsEntries db).length + (2052 + (db.entries.flatMap Prod.snd).length) + 4 < 2 ^ 32

instance (db : SiDatabase) : Decidable db.Fits := inferInstanceAs (Decidable (_ < _))

/-- The SI file and the SNS file when they have been written. -/
def SiDatabase.cached (o : ByteOrder) (db : SiDatabase) (path : WritePath) :
    Option (List UInt8 × List UInt8) :=
  let sns := cacheSnsEntries db
  (cacheSiEntries o db).bind fun si =>
    match path with
    | .live => (writeCrcForSiAndSnsCache o si sns).map fun si => (si, sns)
    | .converted => some (si, sns)

/-- The last four bytes are the check of those before. -/
def HasCrc (o : ByteOrder) (data : List UInt8) : Prop :=
  (check crcQuotient (data.take (data.length - 4))).toNat = o.value (data.drop (data.length - 4))

instance (o : ByteOrder) (data : List UInt8) : Decidable (HasCrc o data) :=
  inferInstanceAs (Decidable (_ = _))

/-- The error is in the last four bytes and before them; and before them it is, as a number with the
highest byte first, what it is in these four as the machine reads them. -/
def Mirrored (o : ByteOrder) (data data' : List UInt8) : Prop :=
  (ofOctets data ^^^ ofOctets data') % 2 ^ 32 ≠ 0 ∧
    (ofOctets data ^^^ ofOctets data') / 2 ^ 32 =
      o.value (data.drop (data.length - 4)) ^^^ o.value (data'.drop (data'.length - 4))

instance (o : ByteOrder) (data data' : List UInt8) : Decidable (Mirrored o data data') :=
  inferInstanceAs (Decidable (_ ∧ _))

/-! ## The check -/

theorem shiftLeft_or_low (x : BitVec 32) (b : UInt8) : x <<< 8 ||| low b = x <<< 8 ^^^ low b := by
  refine BitVec.eq_of_getLsbD_eq fun i hi => ?_
  rw [BitVec.getLsbD_or, BitVec.getLsbD_xor, BitVec.getLsbD_shiftLeft]
  by_cases h : i < 8
  · simp [h]
  · have hpow : 2 ^ 8 ≤ 2 ^ i := Nat.pow_le_pow_right (by decide) (Nat.le_of_not_lt h)
    have hlow : (low b).getLsbD i = false := by
      rw [low, BitVec.getLsbD_ofNat, Nat.testBit_lt_two_pow (Nat.lt_of_lt_of_le b.toNat_lt hpow),
        Bool.and_false]
    simp [hlow]

/-- One byte, with the table. -/
theorem crctab_step (x : BitVec 32) (b : UInt8) :
    (x <<< 8 ||| low b) ^^^ crctab (x >>> 24).toNat = shift crcQuotient 8 x ^^^ low b := by
  have htable : crctab (x >>> 24).toNat = table crcQuotient (x >>> 24) := by
    rw [crctab, foldl_shiftOne, BitVec.ofNat_toNat, BitVec.setWidth_eq, table]
  rw [htable, shiftLeft_or_low, shift_eight, BitVec.xor_assoc, BitVec.xor_assoc,
    BitVec.xor_comm (low b)]

theorem ofNat_shiftLeft_or (n : ℕ) (b : UInt8) :
    BitVec.ofNat 32 (n <<< 8 ||| b.toNat) = BitVec.ofNat 32 n <<< 8 ||| low b := by
  refine BitVec.eq_of_getLsbD_eq fun i hi => ?_
  rw [low, BitVec.ofNat_or, BitVec.getLsbD_or, BitVec.getLsbD_or, BitVec.getLsbD_shiftLeft]
  congr 1
  rw [BitVec.getLsbD_ofNat, BitVec.getLsbD_ofNat, Nat.testBit_shiftLeft]
  by_cases h : i < 8
  · simp [h]
  · simp [h, hi, Nat.le_of_not_lt h, show i - 8 < 32 by omega]

theorem word_eq (a b c d : UInt8) : low a <<< 24 ||| low b <<< 16 ||| low c <<< 8 ||| low d =
    remainder crcQuotient (ofOctets [a, b, c, d]) := by
  have hofOctets : ofOctets [a, b, c, d] =
      ((a.toNat <<< 8 ||| b.toNat) <<< 8 ||| c.toNat) <<< 8 ||| d.toNat := by
    simp [ofOctets]
  have hlt : ofOctets [a, b, c, d] < 256 ^ 4 := ofOctets_lt [a, b, c, d]
  rw [remainder_of_lt (hlt.trans_eq (by norm_num)), hofOctets, ofNat_shiftLeft_or,
    ofNat_shiftLeft_or, ofNat_shiftLeft_or, BitVec.shiftLeft_or_distrib,
    BitVec.shiftLeft_or_distrib, BitVec.shiftLeft_or_distrib, ← BitVec.shiftLeft_add,
    ← BitVec.shiftLeft_add, ← BitVec.shiftLeft_add]
  rfl

/-- **The loop computes the check.** -/
theorem calcMpeg2Crc_eq {data : List UInt8} (h : 4 ≤ data.length) :
    calcMpeg2Crc data = check crcQuotient data := by
  match data, h with
  | a :: b :: c :: d :: data, _ =>
    have hdata := remainder_ofOctets_append (p := crcQuotient) [a, b, c, d] data
    have hlen : (a :: b :: c :: d :: data).length - 4 = data.length := rfl
    rw [check_eq, hlen, calcMpeg2Crc, funext fun x => funext fun b => crctab_step x b, foldl_shift,
      word_eq, ← BitVec.xor_allOnes (x := remainder crcQuotient _), shift_xor]
    congr 1
    rw [List.cons_append, List.cons_append, List.cons_append, List.cons_append,
      List.nil_append] at hdata
    rw [hdata, BitVec.xor_assoc, BitVec.xor_assoc, BitVec.xor_comm (remainder _ _)]

/-- **The other CRC of the program.** With the four bytes at its end, the loop of the SI cache finds
the difference between them and what the CRC of the broadcast sections is before them. So for a
section with zeros in place of its CRC it finds that CRC. -/
theorem calcMpeg2Crc_append (data : List UInt8) (a b c d : UInt8) :
    calcMpeg2Crc (data ++ [a, b, c, d]) =
      crc32 data ^^^ BitVec.ofNat 32 (ofOctets [a, b, c, d]) := by
  have hlen : 4 ≤ (data ++ [a, b, c, d]).length := by simp
  have hdata : (data ++ [a, b, c, d]).length - 4 = data.length := by simp
  have hlast : remainder crcQuotient (ofOctets [a, b, c, d]) = _ :=
    remainder_of_lt ((ofOctets_lt [a, b, c, d]).trans_eq (by norm_num))
  have hfour : 8 * [a, b, c, d].length = 32 := rfl
  have hcrc : crc32 data = ~~~Crc.crc crcQuotient (BitVec.allOnes 32) data := crc32_eq data
  rw [hcrc, calcMpeg2Crc_eq hlen, check_eq, hdata, remainder_ofOctets_append, hfour, hlast, crc_eq,
    ← BitVec.xor_allOnes, ← BitVec.xor_allOnes]
  ac_rfl

/-! ## What is verified -/

section Verify

variable {o : ByteOrder} {db : SiDatabase} {path : WritePath} {si sns data data' : List UInt8}

theorem hasCrc_append {crc : List UInt8} (hcrc : crc.length = 4) :
    HasCrc o (data ++ crc) ↔ (check crcQuotient data).toNat = o.value crc := by
  have hlen : (data ++ crc).length - 4 = data.length := by
    rw [List.length_append, hcrc, Nat.add_sub_cancel]
  rw [HasCrc, hlen, List.take_left, List.drop_left]

theorem readBoth_eq (h : sns.length + si.length < 2 ^ 32) : readBoth si sns = some (sns ++ si) := by
  have hsns : fileSize sns = sns.length := Nat.mod_eq_of_lt (by omega)
  have hsi : fileSize si = si.length := Nat.mod_eq_of_lt (by omega)
  simp only [readBoth, hsns, hsi, Nat.mod_eq_of_lt h, Nat.le_refl, if_true, List.take_length]

/-- **The verification**: the version is at the beginning of the SI file, the CRC at its end. -/
theorem verifyVersionAndCrc_eq (h : sns.length + si.length < 2 ^ 32) (hsi : 8 ≤ si.length) :
    verifyVersionAndCrc o si sns =
      some (decide (fileVersion ≤ o.value (si.take 4) ∧ HasCrc o (sns ++ si))) := by
  have hdata : ¬(sns ++ si).length < 4 := by
    rw [List.length_append]
    omega
  have hfirst : 4 ≤ ((sns ++ si).take ((sns ++ si).length - 4)).length := by
    rw [List.length_take, List.length_append]
    omega
  rw [verifyVersionAndCrc, if_neg (by omega)]
  by_cases hversion : o.value (si.take 4) < fileVersion
  · rw [if_pos hversion, decide_eq_false fun hboth => Nat.not_le_of_lt hversion hboth.1]
  · rw [if_neg hversion, verifyCrcForSiAndSnsCache, readBoth_eq h]
    simp only [Option.bind_eq_bind, Option.bind_some, if_neg hdata, calcMpeg2Crc_eq hfirst]
    rw [Option.some.injEq, decide_eq_decide, and_iff_right (Nat.le_of_not_lt hversion)]
    rfl

theorem length_cacheSiEntries (h : cacheSiEntries o db = some si) :
    si.length = 2052 + (db.entries.flatMap Prod.snd).length := by
  rw [cacheSiEntries] at h
  split_ifs at h
  have htable : ∀ v : Vector UInt32 256,
      (v.toList.flatMap fun n => o.bytes 4 n.toNat).length = 1024 := by
    intro v
    have hfour : (fun n : UInt32 => (o.bytes 4 n.toNat).length) = fun _ => 4 := by simp
    rw [List.length_flatMap, hfour, List.map_const', List.sum_replicate_nat, Vector.length_toList]
  rw [← Option.some.inj h, List.length_append, List.length_append, List.length_append, htable,
    htable, ByteOrder.length_bytes]

theorem version_cacheSiEntries (h : cacheSiEntries o db = some si) :
    o.value (si.take 4) = fileVersion := by
  rw [cacheSiEntries] at h
  split_ifs at h
  rw [← Option.some.inj h, List.append_assoc, List.append_assoc, List.take_left' (by simp)]
  exact ByteOrder.value_bytes (by decide)

/-- What is written from the live SI. -/
theorem cached_live (hfits : db.Fits) (h : cacheSiEntries o db = some si) :
    db.cached o .live = some (si ++ o.bytes 4
      (check crcQuotient (cacheSnsEntries db ++ si)).toNat, cacheSnsEntries db) := by
  have hlen := length_cacheSiEntries h
  rw [SiDatabase.Fits] at hfits
  have hsize : fileSize si = si.length := Nat.mod_eq_of_lt (by omega)
  have hdata : 4 ≤ (cacheSnsEntries db ++ si).length := by
    rw [List.length_append]
    omega
  have hne : si.length ≠ 0 := by omega
  simp only [SiDatabase.cached, h, Option.bind_some, writeCrcForSiAndSnsCache]
  rw [readBoth_eq (by omega), Option.map_some, Option.map_some, calcMpeg2Crc_eq hdata, writeCrc,
    hsize, if_neg hne, List.take_length]

/-- **The files that are written.** Only those from the live SI are sure to have a CRC. -/
theorem cached_spec (hfits : db.Fits) (h : db.cached o path = some (si, sns)) :
    12 ≤ si.length ∧ sns.length + si.length < 2 ^ 32 ∧ o.value (si.take 4) = fileVersion ∧
      (path = .live → HasCrc o (sns ++ si)) := by
  obtain ⟨si₀, hsi₀, hwritten⟩ := Option.bind_eq_some_iff.mp h
  have hlen := length_cacheSiEntries hsi₀
  have hversion := version_cacheSiEntries hsi₀
  cases path with
  | live =>
    rw [cached_live hfits hsi₀] at h
    rw [SiDatabase.Fits] at hfits
    obtain ⟨rfl, rfl⟩ := Prod.mk.inj (Option.some.inj h)
    refine ⟨?_, ?_, ?_, fun _ => ?_⟩
    · rw [List.length_append]
      omega
    · rw [List.length_append, ByteOrder.length_bytes]
      omega
    · rw [List.take_append_of_le_length (by omega)]
      exact hversion
    · rw [← List.append_assoc, hasCrc_append (by simp)]
      exact (ByteOrder.value_bytes (BitVec.isLt _)).symm
  | converted =>
    rw [SiDatabase.Fits] at hfits
    obtain ⟨rfl, rfl⟩ := Prod.mk.inj (Option.some.inj hwritten)
    exact ⟨by omega, by omega, hversion, nofun⟩

/-- **Which files written are loaded.** -/
theorem verify_cached_iff (hfits : db.Fits) (h : db.cached o path = some (si, sns)) :
    verifyVersionAndCrc o si sns = some true ↔ path = .live ∨ HasCrc o (sns ++ si) := by
  obtain ⟨hlen, hsize, hversion, hlive⟩ := cached_spec hfits h
  rw [verifyVersionAndCrc_eq hsize (by omega), Option.some.injEq, decide_eq_true_eq, hversion,
    and_iff_right (Nat.le_refl _)]
  exact ⟨Or.inr, fun hor => hor.elim hlive id⟩

theorem exists_append_four (h : 4 ≤ data.length) :
    ∃ xs crc : List UInt8, data = xs ++ crc ∧ crc.length = 4 :=
  ⟨data.take (data.length - 4), data.drop (data.length - 4), (List.take_append_drop _ _).symm, by
    rw [List.length_drop]
    omega⟩

/-- The error before the last four bytes, and in them. -/
theorem xor_append (xs ys : List UInt8) {crc crc' : List UInt8} (hcrc : crc.length = 4)
    (hcrc' : crc'.length = 4) :
    (ofOctets (xs ++ crc) ^^^ ofOctets (ys ++ crc')) / 2 ^ 32 = ofOctets xs ^^^ ofOctets ys ∧
      (ofOctets (xs ++ crc) ^^^ ofOctets (ys ++ crc')) % 2 ^ 32 =
        ofOctets crc ^^^ ofOctets crc' := by
  have hlt : ∀ c : List UInt8, c.length = 4 → ofOctets c < 2 ^ 32 := by
    intro c hc
    have hlt := ofOctets_lt c
    rwa [hc] at hlt
  have hfield := Nat.xor_lt_two_pow (hlt crc hcrc) (hlt crc' hcrc')
  rw [ofOctets_xor_append (hcrc.trans hcrc'.symm), hcrc]
  omega

theorem mirrored_append {xs ys crc crc' : List UInt8} (hcrc : crc.length = 4)
    (hcrc' : crc'.length = 4) : Mirrored o (xs ++ crc) (ys ++ crc') ↔
      (ofOctets (xs ++ crc) ^^^ ofOctets (ys ++ crc')) % 2 ^ 32 ≠ 0 ∧
      (ofOctets (xs ++ crc) ^^^ ofOctets (ys ++ crc')) / 2 ^ 32 = o.value crc ^^^ o.value crc' := by
  have hdrop : ∀ zs c : List UInt8, c.length = 4 → (zs ++ c).drop ((zs ++ c).length - 4) = c := by
    intro zs c hc
    rw [List.length_append, hc, Nat.add_sub_cancel, List.drop_left]
  rw [Mirrored, hdrop xs crc hcrc, hdrop ys crc' hcrc']

/-- **Which bursts the CRC does not notice.** -/
theorem hasCrc_iff_of_burst (hlen : data.length = data'.length) (h4 : 4 ≤ data.length)
    (hburst : IsBurst 32 (ofOctets data ^^^ ofOctets data')) (h : HasCrc o data) :
    HasCrc o data' ↔ Mirrored o data data' := by
  obtain ⟨xs, crc, rfl, hcrc⟩ := exists_append_four h4
  obtain ⟨ys, crc', rfl, hcrc'⟩ := exists_append_four (hlen ▸ h4)
  have hlen : xs.length = ys.length := by
    rw [List.length_append, List.length_append, hcrc, hcrc'] at hlen
    omega
  obtain ⟨hdiv, hmod⟩ := xor_append xs ys hcrc hcrc'
  have hvalue : ∀ c : List UInt8, c.length = 4 → o.value c < 2 ^ 32 := by
    intro c hc
    have hlt := ByteOrder.value_lt (o := o) c
    rwa [hc] at hlt
  have hzero : o.value crc ^^^ o.value crc' = 0 ↔
      (ofOctets (xs ++ crc) ^^^ ofOctets (ys ++ crc')) % 2 ^ 32 = 0 := by
    rw [hmod, Nat.xor_eq_zero_iff, Nat.xor_eq_zero_iff]
    refine ⟨fun heq => ?_, fun heq => ?_⟩
    · rw [ByteOrder.eq_of_value_eq (hcrc.trans hcrc'.symm) heq]
    · rw [eq_of_ofOctets_eq (hcrc.trans hcrc'.symm) heq]
  have hiff := hburst.remainder_div_eq_iff (p := crcQuotient) (by decide)
    (Nat.xor_lt_two_pow (hvalue crc hcrc) (hvalue crc' hcrc')) hzero
  rw [mirrored_append hcrc hcrc', ← hiff, hdiv, ← check_xor_check hlen, BitVec.ofNat_xor]
  rw [hasCrc_append hcrc] at h
  rw [hasCrc_append hcrc', ← h, BitVec.ofNat_toNat, BitVec.setWidth_eq, BitVec.xor_right_inj]
  refine ⟨fun heq => ?_, fun heq => ?_⟩
  · rw [← heq, BitVec.ofNat_toNat, BitVec.setWidth_eq]
  · rw [heq, BitVec.toNat_ofNat, Nat.mod_eq_of_lt (hvalue crc' hcrc')]

/-- A burst that reaches the CRC leaves the version alone. -/
theorem take_of_mirrored {si' sns' : List UInt8} (hsi : si'.length = si.length)
    (hsns : sns'.length = sns.length) (hlen : 12 ≤ si.length)
    (hburst : IsBurst 32 (ofOctets (sns ++ si) ^^^ ofOctets (sns' ++ si')))
    (h : Mirrored o (sns ++ si) (sns' ++ si')) : si'.take 4 = si.take 4 := by
  set e := ofOctets (sns ++ si) ^^^ ofOctets (sns' ++ si') with he
  have hsmall : e < 2 ^ (8 * (si.length - 4)) := by
    have hdiv := (hburst.div_lt_mod h.1).trans (Nat.mod_lt e (Nat.two_pow_pos 32))
    rw [Nat.div_lt_iff_lt_mul (Nat.two_pow_pos 32), ← Nat.pow_add] at hdiv
    exact hdiv.trans_le (Nat.pow_le_pow_right (by decide) (by omega))
  have hparts : ofOctets ((sns ++ si.take 4) ++ si.drop 4) ^^^
      ofOctets ((sns' ++ si'.take 4) ++ si'.drop 4) = _ := ofOctets_xor_append (by simp [hsi])
  rw [List.append_assoc, List.append_assoc, List.take_append_drop, List.take_append_drop, ← he,
    List.length_drop] at hparts
  have hzero : ofOctets (sns ++ si.take 4) ^^^ ofOctets (sns' ++ si'.take 4) = 0 := by
    by_contra hne
    have hle := Nat.le_mul_of_pos_left (2 ^ (8 * (si.length - 4))) (Nat.pos_of_ne_zero hne)
    omega
  have heq := eq_of_ofOctets_eq (by simp [hsi, hsns]) (Nat.xor_eq_zero_iff.mp hzero)
  exact (List.append_inj_right heq hsns.symm).symm

/-- **The files that are loaded.** Files that have been written are loaded, and not any more with an
error in 32 adjacent bits, just if they are from the live SI (or happen to end with their CRC) and
the error is not the same, mirrored, before the CRC and in it. -/
theorem protects_iff {si' sns' : List UInt8} (hfits : db.Fits)
    (h : db.cached o path = some (si, sns)) (hsi : si'.length = si.length)
    (hsns : sns'.length = sns.length)
    (hburst : IsBurst 32 (ofOctets (sns ++ si) ^^^ ofOctets (sns' ++ si'))) :
    (verifyVersionAndCrc o si sns = some true ∧ verifyVersionAndCrc o si' sns' = some false) ↔
      (path = .live ∨ HasCrc o (sns ++ si)) ∧ ¬Mirrored o (sns ++ si) (sns' ++ si') := by
  obtain ⟨hlen, hsize, hversion, hlive⟩ := cached_spec hfits h
  have hdata : (sns ++ si).length = (sns' ++ si').length := by simp [hsi, hsns]
  have h4 : 4 ≤ (sns ++ si).length := by
    rw [List.length_append]
    omega
  rw [verify_cached_iff hfits h]
  refine and_congr_right fun hcrc => ?_
  rw [verifyVersionAndCrc_eq (by omega) (by omega), Option.some.injEq, decide_eq_false_iff_not,
    hasCrc_iff_of_burst hdata h4 hburst (hcrc.elim hlive id)]
  refine not_congr (and_iff_right_of_imp fun hmirrored => ?_)
  rw [take_of_mirrored hsi hsns hlen hburst hmirrored, hversion]

theorem ofOctets_flip (x : UInt8) : ofOctets [x] ^^^ ofOctets [x ^^^ 128] = 128 := by
  rw [ofOctets_singleton, ofOctets_singleton, UInt8.toNat_xor, Nat.xor_xor_cancel_left]
  rfl

/-- The highest bit of the byte before the last four, and that of the first of them. -/
theorem mirrored_flip (xs : List UInt8) (b c : UInt8) {cs : List UInt8} (hcs : cs.length = 3) :
    ofOctets (xs ++ [b] ++ c :: cs) ^^^ ofOctets (xs ++ [b ^^^ 128] ++ (c ^^^ 128) :: cs) =
        257 * 2 ^ 31 ∧
      Mirrored .little (xs ++ [b] ++ c :: cs) (xs ++ [b ^^^ 128] ++ (c ^^^ 128) :: cs) := by
  have hbefore : ofOctets (xs ++ [b]) ^^^ ofOctets (xs ++ [b ^^^ 128]) = 128 := by
    rw [ofOctets_xor_append (by rfl), Nat.xor_self, Nat.zero_mul, Nat.zero_add, ofOctets_flip]
  have hbehind : ofOctets (c :: cs) ^^^ ofOctets ((c ^^^ 128) :: cs) = 128 * 2 ^ 24 := by
    have hparts : ofOctets ([c] ++ cs) ^^^ ofOctets ([c ^^^ 128] ++ cs) = _ :=
      ofOctets_xor_append rfl
    rwa [Nat.xor_self, ofOctets_flip, hcs, Nat.add_zero] at hparts
  have hread : ByteOrder.little.value (c :: cs) ^^^ ByteOrder.little.value ((c ^^^ 128) :: cs) =
      128 := by
    rw [ByteOrder.value, ByteOrder.value, List.reverse_cons, List.reverse_cons,
      ofOctets_xor_append (by rfl), Nat.xor_self, Nat.zero_mul, Nat.zero_add, ofOctets_flip]
  have hcrc : (c :: cs).length = 4 := by rw [List.length_cons, hcs]
  have hcrc' : ((c ^^^ 128) :: cs).length = 4 := hcrc
  obtain ⟨hdiv, hmod⟩ := xor_append (xs ++ [b]) (xs ++ [b ^^^ 128]) hcrc hcrc'
  rw [hbefore] at hdiv
  rw [hbehind] at hmod
  rw [mirrored_append hcrc hcrc', hdiv, hmod, hread]
  exact ⟨by omega, by decide, rfl⟩

/-- **The error that is not noticed.** With its lowest byte first the CRC does not go on where the
data end: whatever has been written, the highest bit of the last byte of the data (bit 39 from the
end of the file) and that of the first byte of the CRC (bit 31) can be wrong, and no other bit. -/
theorem exists_mirrored_little (hfits : db.Fits)
    (h : db.cached .little .live = some (si, sns)) :
    ∃ si', si'.length = si.length ∧
      ofOctets (sns ++ si) ^^^ ofOctets (sns ++ si') = 2 ^ 39 ^^^ 2 ^ 31 ∧
      verifyVersionAndCrc .little si' sns = some true := by
  obtain ⟨hlen, hsize, hversion, hlive⟩ := cached_spec hfits h
  obtain ⟨xs, crc, rfl, hcrc⟩ : ∃ xs crc : List UInt8, si = xs ++ crc ∧ crc.length = 4 :=
    exists_append_four (by omega)
  have hne : xs ≠ [] := by
    rintro rfl
    rw [List.nil_append, hcrc] at hlen
    omega
  obtain ⟨ys, b, rfl⟩ := (List.eq_nil_or_concat' xs).resolve_left hne
  obtain ⟨c, cs, rfl⟩ := List.exists_cons_of_length_eq_add_one hcrc
  obtain ⟨herror, hmirrored⟩ := mirrored_flip (sns ++ ys) b c (Nat.succ.inj hcrc)
  have hassoc : ∀ d l, sns ++ ys ++ [d] ++ l = sns ++ (ys ++ [d] ++ l) := by simp
  rw [hassoc, hassoc] at herror hmirrored
  have hsi : (ys ++ [b ^^^ 128] ++ (c ^^^ 128) :: cs).length = (ys ++ [b] ++ c :: cs).length := by
    simp
  have hdata : (sns ++ (ys ++ [b] ++ c :: cs)).length =
      (sns ++ (ys ++ [b ^^^ 128] ++ (c ^^^ 128) :: cs)).length := by simp
  have h4 : 4 ≤ (sns ++ (ys ++ [b] ++ c :: cs)).length := by
    rw [List.length_append]
    omega
  have hburst : IsBurst 32 _ := ⟨257, 31, by decide, by decide, herror⟩
  refine ⟨_, hsi, herror, ?_⟩
  rw [verifyVersionAndCrc_eq (by omega) (by omega), Option.some.injEq, decide_eq_true_eq,
    take_of_mirrored hsi rfl hlen hburst hmirrored, hversion, and_iff_right (Nat.le_refl _),
    hasCrc_iff_of_burst hdata h4 hburst (hlive rfl)]
  exact hmirrored

end Verify

/-- One service with one name, each a byte long. -/
def oneService : SiDatabase where
  frequency := Vector.replicate 256 0
  mode := Vector.replicate 256 0
  entries := [(true, [1])]
  sourceNames := [[2]]

/-- Its SI file, without the CRC. -/
def oneServiceSi : List UInt8 := (cacheSiEntries .little oneService).getD []

theorem protects_oneService : ∃ si, oneService.cached .little .live = some (si, [2]) ∧
    verifyVersionAndCrc .little si [2] = some true ∧
    verifyVersionAndCrc .little si [3] = some false := by
  have hfits : oneService.Fits := by decide +kernel
  have hsi : cacheSiEntries .little oneService = some oneServiceSi := rfl
  have hsns : cacheSnsEntries oneService = [2] := rfl
  have hcached := cached_live hfits hsi
  rw [hsns] at hcached
  generalize hcrc : ByteOrder.little.bytes 4
    (check crcQuotient ([2] ++ oneServiceSi)).toNat = crc at hcached
  have hlen : 32 ≤ 8 * (oneServiceSi ++ crc).length := by
    rw [← hcrc, List.length_append, ByteOrder.length_bytes]
    omega
  -- the error is in the last bit of the SNS file
  have herror : ofOctets ([2] ++ (oneServiceSi ++ crc)) ^^^
      ofOctets ([3] ++ (oneServiceSi ++ crc)) = 1 * 2 ^ (8 * (oneServiceSi ++ crc).length) := by
    have hone : ofOctets [2] ^^^ ofOctets [3] = 1 := rfl
    rw [ofOctets_xor_append rfl, Nat.xor_self, hone, Nat.add_zero]
  have hdvd : 2 ^ 32 ∣ 1 * 2 ^ (8 * (oneServiceSi ++ crc).length) :=
    Dvd.dvd.mul_left (Nat.pow_dvd_pow 2 hlen) 1
  have hmirrored : ¬Mirrored .little ([2] ++ (oneServiceSi ++ crc))
      ([3] ++ (oneServiceSi ++ crc)) := by
    intro h
    have hmod := h.1
    rw [herror] at hmod
    omega
  have hburst : IsBurst 32 _ := ⟨1, 8 * (oneServiceSi ++ crc).length, by decide, by decide, herror⟩
  have hsize : [(3 : UInt8)].length = [(2 : UInt8)].length := rfl
  exact ⟨oneServiceSi ++ crc, hcached,
    (protects_iff hfits hcached rfl hsize hburst).mpr ⟨Or.inl rfl, hmirrored⟩⟩

/-- And an error that is not noticed. -/
theorem mirrored_oneService : ∃ si, oneService.cached .little .live = some (si, [2]) ∧
    ∃ si', si'.length = si.length ∧
      ofOctets ([2] ++ si) ^^^ ofOctets ([2] ++ si') = 2 ^ 39 ^^^ 2 ^ 31 ∧
      verifyVersionAndCrc .little si' [2] = some true :=
  have hfits : oneService.Fits := Nat.lt_of_sub_pos (by decide)
  have hcached := cached_live hfits (if_pos rfl)
  ⟨_, hcached, exists_mirrored_little hfits hcached⟩

/-- Converted, the same files are not loaded. -/
theorem not_loaded_converted : ((oneService.cached .little .converted).bind fun (si, sns) =>
    verifyVersionAndCrc .little si sns) = some false := by decide +kernel

end MediaFramework.SiCache
