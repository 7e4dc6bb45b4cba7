import MediaFramework.Cdl.CvtTables

/-!
# Where the fields of a code version table are

Each part of a table is so many octets long, as it is read, and how many they are is seen in the
octets it begins with. Beyond the end of the buffer all the octets count as 0, so this is true of any
buffer.
-/

namespace MediaFramework

namespace CvtLayout

/-! ## The lengths -/

/-- The octets of the length field. -/
def lengthSize (l : List UInt8) : ℕ := 1 + if leading 1 l < 128 then 0 else leading 1 l - 128

/-- The octets a descriptor is taken to have. -/
def descriptorSize (l : List UInt8) : ℕ :=
  2 + if leading 1 l = 0x02 then 6 else if leading 1 l = 0x03 then 5 else leading 1 (l.drop 1)

def descriptorsSize : ℕ → List UInt8 → ℕ
  | 0, _ => 0
  | n + 1, l => descriptorSize l + descriptorsSize n (l.drop (descriptorSize l))

/-- The octets of an inband location. -/
def inbandSize (l : List UInt8) : ℕ :=
  1 + if leading 1 l = 0x00 then 2 else if leading 1 l = 0x01 then 5
    else if leading 1 l = 0x02 then 5 else 0

/-- The octets of the location of a tunnel. -/
def dsgSize (l : List UInt8) : ℕ :=
  1 + if leading 1 l = 0x03 then 42 else if leading 1 l = 0x04 then 2 else 0

def locationSize (downloadtype : ℕ) (l : List UInt8) : ℕ :=
  if downloadtype = 0x00 then inbandSize l
  else if downloadtype = 0x01 then dsgSize l
  else if downloadtype = 0x02 then 16
  else 0

def placeSize (l : List UInt8) : ℕ := 1 + locationSize (leading 1 l / 16) (l.drop 1)

/-- The octets of some characters and their number. -/
def charsSize (l : List UInt8) : ℕ := 1 + leading 1 l

def objectSize (l : List UInt8) : ℕ :=
  let data := placeSize l + 2
  let name := data + charsSize (l.drop data)
  name + charsSize (l.drop name)

def objectsSize : ℕ → List UInt8 → ℕ
  | 0, _ => 0
  | n + 1, l => objectSize l + objectsSize n (l.drop (objectSize l))

/-- From the version on. -/
def afterLength (buf : List UInt8) : List UInt8 := buf.drop (3 + lengthSize (buf.drop 3))

/-- From the first descriptor on. -/
def descriptorsOf (buf : List UInt8) : List UInt8 := (afterLength buf).drop 3

/-- What follows the descriptors. -/
def afterDescriptors (buf : List UInt8) : List UInt8 :=
  (descriptorsOf buf).drop
    (descriptorsSize (leading 1 ((afterLength buf).drop 2)) (descriptorsOf buf))

/-- From the number of CVCs on, in a table of the first version. -/
def cvcsOf1 (buf : List UInt8) : List UInt8 :=
  let l := afterDescriptors buf
  (l.drop (placeSize l)).drop (charsSize (l.drop (placeSize l)))

/-- From the number of CVCs on, in one of the second. -/
def cvcsOf2 (buf : List UInt8) : List UInt8 :=
  let l := afterDescriptors buf
  (l.drop 1).drop (objectsSize (leading 1 l) (l.drop 1))

/-- What of the CVCs is kept: their number of bits is an `int`. -/
def kept (l : List UInt8) : List UInt8 :=
  l.take ((Int.bmod (8 * l.length) (2 ^ 32)).toNat / 8)

/-! ## What the parts read -/

section Parts

variable (buf : List UInt8) (p : ℕ)

theorem reads_octets (k : ℕ) :
    Reads buf (get_bits (8 * k)) (8 * p) fun a j => a = leading k (buf.drop p) ∧ j = 8 * (p + k) :=
  (reads_get_bits buf (8 * p) (8 * k)).mono fun _ _ h =>
    ⟨h.1.trans (bitsIn_octets buf p k), h.2.trans (Nat.mul_add 8 p k).symm⟩

theorem reads_skip_octets (k : ℕ) :
    Reads buf (skip_bits (8 * k)) (8 * p) fun _ j => j = 8 * (p + k) :=
  (reads_skip_bits buf (8 * p) (8 * k)).mono fun _ _ h => h.trans (Nat.mul_add 8 p k).symm

theorem reads_chars : ∀ n p, Reads buf (get_chars n) (8 * p) fun _ j => j = 8 * (p + n) := by
  intro n
  induction n with
  | zero => exact fun p => Reads.pure rfl
  | succ n ih =>
    intro p
    refine (reads_octets buf p 1).bind ?_
    rintro _ _ ⟨rfl, rfl⟩
    refine (ih (p + 1)).bind ?_
    rintro cs _ rfl
    exact Reads.pure (by omega)

theorem reads_lengthField :
    Reads buf lengthField (8 * p) fun _ j => j = 8 * (p + lengthSize (buf.drop p)) := by
  refine (reads_get_bits buf (8 * p) 1).bind ?_
  rintro _ _ ⟨rfl, rfl⟩
  have hlow := bitsIn_low buf p 1 (i := 8 * p + 1) (n := 7) (by decide) (by omega)
  have hlt : leading 1 (buf.drop p) < 256 := by
    rw [← bitsIn_octets, bitsIn]
    split_ifs
    · exact bitsAt_lt buf (8 * p) (8 * 1)
    · decide
  rw [bitsIn_high buf p (by decide) (by decide), lengthSize]
  split_ifs with h h' h'
  · refine (reads_get_bits buf (8 * p + 1) 7).bind ?_
    rintro _ _ ⟨rfl, rfl⟩
    exact Reads.pure (by omega)
  · omega
  · omega
  · refine (reads_get_bits buf (8 * p + 1) 7).bind ?_
    rintro _ _ ⟨rfl, rfl⟩
    refine (reads_octets buf (p + 1) _).bind ?_
    rintro _ _ ⟨-, rfl⟩
    refine Reads.pure ?_
    rw [hlow]
    omega

theorem reads_cvtDescriptor (ids : CvtIds) :
    Reads buf (cvtDescriptor ids) (8 * p) fun _ j => j = 8 * (p + descriptorSize (buf.drop p)) := by
  refine (reads_octets buf p 1).bind ?_
  rintro _ _ ⟨rfl, rfl⟩
  refine (reads_octets buf (p + 1) 1).bind ?_
  rintro _ _ ⟨rfl, rfl⟩
  rw [descriptorSize, List.drop_drop]
  split_ifs <;> try omega
  · refine (reads_octets buf (p + 1 + 1) _).bind ?_
    rintro _ _ ⟨-, rfl⟩
    exact Reads.pure (by omega)
  · refine (reads_octets buf (p + 1 + 1) _).bind ?_
    rintro _ _ ⟨-, rfl⟩
    exact Reads.pure (by omega)
  · refine (reads_octets buf (p + 1 + 1) 2).bind ?_
    rintro _ _ ⟨-, rfl⟩
    refine (reads_octets buf (p + 1 + 1 + 2) 4).bind ?_
    rintro _ _ ⟨-, rfl⟩
    exact Reads.pure (by omega)
  · refine (reads_octets buf (p + 1 + 1) 1).bind ?_
    rintro _ _ ⟨-, rfl⟩
    refine (reads_octets buf (p + 1 + 1 + 1) 4).bind ?_
    rintro _ _ ⟨-, rfl⟩
    exact Reads.pure (by omega)
  · refine (reads_skip_octets buf (p + 1 + 1) _).bind ?_
    rintro _ _ rfl
    exact Reads.pure (by omega)

theorem reads_cvtDescriptors : ∀ (n p : ℕ) (ids : CvtIds),
    Reads buf (cvtDescriptors n ids) (8 * p) fun _ j =>
      j = 8 * (p + descriptorsSize n (buf.drop p)) := by
  intro n
  induction n with
  | zero => exact fun p ids => Reads.pure rfl
  | succ n ih =>
    intro p ids
    refine (reads_cvtDescriptor buf p ids).bind ?_
    rintro ids' _ rfl
    refine (ih _ ids').mono ?_
    rintro _ _ rfl
    rw [descriptorsSize, List.drop_drop, Nat.add_assoc]

theorem reads_cvtHeader :
    Reads buf cvtHeader 0 fun a j => j = 8 * (3 + lengthSize (buf.drop 3) + 3) ∧
      a.2 = leading 1 ((afterLength buf).drop 2) := by
  refine (reads_skip_octets buf 0 3).bind ?_
  rintro _ _ rfl
  refine (reads_lengthField buf (0 + 3)).bind ?_
  rintro _ _ rfl
  rw [Nat.zero_add]
  refine (reads_octets buf _ 1).bind ?_
  rintro protocol_version _ ⟨-, rfl⟩
  refine (reads_octets buf _ 1).bind ?_
  rintro config_count_change _ ⟨-, rfl⟩
  refine (reads_octets buf _ 1).bind ?_
  rintro _ _ ⟨rfl, rfl⟩
  exact Reads.pure ⟨rfl, by rw [afterLength, List.drop_drop]⟩

theorem reads_cvtVersion :
    Reads buf cvtVersion 0 fun a _ => a = leading 1 (afterLength buf) := by
  refine (reads_skip_octets buf 0 3).bind ?_
  rintro _ _ rfl
  refine (reads_lengthField buf (0 + 3)).bind ?_
  rintro _ _ rfl
  rw [Nat.zero_add]
  exact (reads_octets buf _ 1).mono fun _ _ h => h.1

theorem reads_get_long : Reads buf get_long (8 * p) fun _ j => j = 8 * (p + 8) := by
  refine (reads_octets buf p 4).bind ?_
  rintro _ _ ⟨-, rfl⟩
  refine (reads_octets buf (p + 4) 4).bind ?_
  rintro _ _ ⟨-, rfl⟩
  exact Reads.pure (by omega)

theorem reads_get_pid : Reads buf get_pid (8 * p) fun _ j => j = 8 * (p + 2) := by
  refine (reads_skip_bits buf (8 * p) 3).bind ?_
  rintro _ _ rfl
  refine (reads_get_bits buf (8 * p + 3) 13).mono ?_
  rintro _ _ ⟨-, rfl⟩
  omega

theorem reads_inbandLocation :
    Reads buf inbandLocation (8 * p) fun _ j => j = 8 * (p + inbandSize (buf.drop p)) := by
  refine (reads_octets buf p 1).bind ?_
  rintro _ _ ⟨rfl, rfl⟩
  rw [inbandSize]
  split_ifs
  · refine (reads_octets buf (p + 1) 2).bind ?_
    rintro _ _ ⟨-, rfl⟩
    exact Reads.pure (by omega)
  · refine (reads_octets buf (p + 1) 2).bind ?_
    rintro _ _ ⟨-, rfl⟩
    refine (reads_octets buf (p + 1 + 2) 1).bind ?_
    rintro _ _ ⟨-, rfl⟩
    refine (reads_get_pid buf (p + 1 + 2 + 1)).bind ?_
    rintro _ _ rfl
    exact Reads.pure (by omega)
  · refine (reads_octets buf (p + 1) 2).bind ?_
    rintro _ _ ⟨-, rfl⟩
    refine (reads_octets buf (p + 1 + 2) 1).bind ?_
    rintro _ _ ⟨-, rfl⟩
    refine (reads_octets buf (p + 1 + 2 + 1) 2).bind ?_
    rintro _ _ ⟨-, rfl⟩
    exact Reads.pure (by omega)
  · exact Reads.pure (by omega)

theorem reads_dsgLocation :
    Reads buf dsgLocation (8 * p) fun _ j => j = 8 * (p + dsgSize (buf.drop p)) := by
  refine (reads_octets buf p 1).bind ?_
  rintro _ _ ⟨rfl, rfl⟩
  rw [dsgSize]
  split_ifs
  · refine (reads_octets buf (p + 1) 2).bind ?_
    rintro _ _ ⟨-, rfl⟩
    refine (reads_octets buf (p + 1 + 2) 4).bind ?_
    rintro _ _ ⟨-, rfl⟩
    refine (reads_get_long buf (p + 1 + 2 + 4)).bind ?_
    rintro _ _ rfl
    refine (reads_get_long buf (p + 1 + 2 + 4 + 8)).bind ?_
    rintro _ _ rfl
    refine (reads_get_long buf (p + 1 + 2 + 4 + 8 + 8)).bind ?_
    rintro _ _ rfl
    refine (reads_get_long buf (p + 1 + 2 + 4 + 8 + 8 + 8)).bind ?_
    rintro _ _ rfl
    refine (reads_octets buf (p + 1 + 2 + 4 + 8 + 8 + 8 + 8) 2).bind ?_
    rintro _ _ ⟨-, rfl⟩
    refine (reads_octets buf (p + 1 + 2 + 4 + 8 + 8 + 8 + 8 + 2) 2).bind ?_
    rintro _ _ ⟨-, rfl⟩
    exact Reads.pure (by omega)
  · refine (reads_octets buf (p + 1) 2).bind ?_
    rintro _ _ ⟨-, rfl⟩
    exact Reads.pure (by omega)
  · exact Reads.pure (by omega)

theorem reads_location (downloadtype : ℕ) :
    Reads buf (location downloadtype) (8 * p) fun _ j =>
      j = 8 * (p + locationSize downloadtype (buf.drop p)) := by
  rw [location, locationSize]
  split_ifs
  · exact reads_inbandLocation buf p
  · exact reads_dsgLocation buf p
  · refine (reads_chars buf 8 p).bind ?_
    rintro _ _ rfl
    refine (reads_chars buf 8 (p + 8)).bind ?_
    rintro _ _ rfl
    exact Reads.pure (by omega)
  · exact Reads.pure rfl

theorem reads_cvtPlace :
    Reads buf cvtPlace (8 * p) fun _ j => j = 8 * (p + placeSize (buf.drop p)) := by
  refine (reads_get_bits buf (8 * p) 4).bind ?_
  rintro _ _ ⟨rfl, rfl⟩
  refine (reads_get_bits buf (8 * p + 4) 4).bind ?_
  rintro _ _ ⟨rfl, rfl⟩
  rw [bitsIn_high buf p (by decide) (by decide)]
  refine (reads_location buf (p + 1) _).bind ?_
  rintro _ _ rfl
  refine Reads.pure ?_
  rw [placeSize, List.drop_drop, Nat.add_assoc]
  rfl

theorem reads_counted_chars :
    Reads buf counted_chars (8 * p) fun _ j => j = 8 * (p + charsSize (buf.drop p)) := by
  refine (reads_octets buf p 1).bind ?_
  rintro _ _ ⟨rfl, rfl⟩
  refine (reads_chars buf _ (p + 1)).mono ?_
  rintro _ _ rfl
  rw [charsSize, Nat.add_assoc]

theorem reads_t2v2Object :
    Reads buf t2v2Object (8 * p) fun _ j => j = 8 * (p + objectSize (buf.drop p)) := by
  refine (reads_cvtPlace buf p).bind ?_
  rintro _ _ rfl
  refine (reads_octets buf _ 2).bind ?_
  rintro _ _ ⟨-, rfl⟩
  refine (reads_counted_chars buf _).bind ?_
  rintro _ _ rfl
  refine (reads_counted_chars buf _).bind ?_
  rintro _ _ rfl
  refine Reads.pure ?_
  simp only [objectSize, List.drop_drop, Nat.add_assoc]

/-- There is room for four objects, -/
theorem reads_t2v2Objects : ∀ n i p, n + i ≤ cvt2v2MaxObjects →
    Reads buf (t2v2Objects n i) (8 * p) fun _ j => j = 8 * (p + objectsSize n (buf.drop p)) := by
  intro n
  induction n with
  | zero => exact fun _ _ _ => Reads.pure rfl
  | succ n ih =>
    intro i p h
    rw [t2v2Objects, if_neg (by omega)]
    refine (reads_t2v2Object buf p).bind ?_
    rintro _ _ rfl
    refine (ih (i + 1) _ (by omega)).bind ?_
    rintro _ _ rfl
    refine Reads.pure ?_
    rw [objectsSize, List.drop_drop, Nat.add_assoc]

/-- and for no more. -/
theorem t2v2Objects_overrun : ∀ n i p, cvt2v2MaxObjects < n + i → i ≤ cvt2v2MaxObjects →
    Fails buf (t2v2Objects n i) (8 * p) := by
  intro n
  induction n with
  | zero =>
    intro i p h hi
    omega
  | succ n ih =>
    intro i p h hi
    rw [t2v2Objects]
    by_cases hfull : cvt2v2MaxObjects ≤ i
    · rw [if_pos hfull]
      exact fun _ _ => rfl
    · rw [if_neg hfull]
      refine (reads_t2v2Object buf p).bind_fails ?_
      rintro o _ rfl
      exact (ih (i + 1) _ (by omega) (by omega)).bind _

/-! ## The CVCs -/

theorem reads_cvcBytes (cvc_len_bits : ℤ) : ∀ n l i,
    Reads buf (cvcBytes cvc_len_bits n l) i fun _ _ => True := by
  intro n
  induction n with
  | zero => exact fun _ _ => Reads.pure trivial
  | succ n ih =>
    intro l i
    refine (reads_get_bits buf i _).bind fun _ j _ => ?_
    exact (ih (l + 1) j).bind fun _ _ _ => Reads.pure trivial

/-- While there are octets for them, the bytes are those of the buffer. -/
theorem reads_cvcBytes_inside {cvc_len_bits : ℤ} : ∀ n l p : ℕ, p + n ≤ buf.length →
    8 * (l + n) ≤ cvc_len_bits →
    Reads buf (cvcBytes cvc_len_bits n l) (8 * p) fun a _ => a = (buf.drop p).take n := by
  intro n
  induction n with
  | zero => exact fun _ _ _ _ => Reads.pure rfl
  | succ n ih =>
    intro l p hp hl
    push_cast at hl
    rw [cvcBytes, if_neg (by omega)]
    refine (reads_octets buf p 1).bind ?_
    rintro _ _ ⟨rfl, rfl⟩
    refine (ih (l + 1) (p + 1) (by omega) (by push_cast; omega)).bind ?_
    rintro _ j rfl
    refine Reads.pure ?_
    rw [List.drop_eq_getElem_cons (show p < buf.length by omega), leading_one_cons,
      List.take_succ_cons, UInt8.ofNat_toNat]

/-- **What is kept of the CVCs**, when the place they begin at is in the buffer. -/
theorem reads_cvcData :
    Reads buf (cvcData buf.length) (8 * p) fun a _ => p ≤ buf.length → a = kept (buf.drop p) := by
  intro b hb
  obtain ⟨c, hc⟩ : ∃ c, c = Int.bmod (buf.length * 8 - b.curr_bit_index) (2 ^ 32) := ⟨_, rfl⟩
  obtain ⟨n, hn⟩ : ∃ n, n = (c.tdiv 8 + if c.tmod 8 ≠ 0 then 1 else 0).toNat := ⟨_, rfl⟩
  have hdata : cvcData buf.length b = cvcBytes c n 0 b := by
    rw [hn, hc]
    rfl
  rw [hdata]
  by_cases hp : p ≤ buf.length
  · have hindex := hb.inside (by omega)
    have hlength : (buf.length * 8 - b.curr_bit_index : ℤ) = 8 * (buf.drop p).length := by
      rw [hindex, List.length_drop]
      push_cast [Nat.cast_sub hp]
      ring
    rw [hlength] at hc
    obtain ⟨m, hm⟩ : ∃ m, c = 8 * m := by
      rw [hc, Int.bmod]
      split_ifs
      · exact ⟨_, Int.mul_emod_mul_of_pos (a := 8) _ (2 ^ 29) (by decide)⟩
      · refine ⟨(buf.drop p).length % 2 ^ 29 - 2 ^ 29, ?_⟩
        have := Int.mul_emod_mul_of_pos (a := 8) (buf.drop p).length (2 ^ 29) (by decide)
        omega
    have hle : c ≤ 8 * (buf.drop p).length := by
      rw [hc, Int.bmod]
      split_ifs <;> omega
    have hnm : n = m.toNat := by
      rw [hn, hm, Int.mul_tdiv_cancel_left _ (by decide), Int.mul_tmod_right, if_neg (by simp),
        Int.add_zero]
    have hkept : kept (buf.drop p) = (buf.drop p).take n := by
      rw [kept, ← hc, hm, hnm]
      congr 1
      omega
    rcases Nat.eq_zero_or_pos n with rfl | hpos
    · refine ⟨[], b, 8 * p, rfl, hb, fun _ => ?_⟩
      rw [hkept, List.take_zero]
    · obtain ⟨a, b', j, hab, hb', ha⟩ :=
        @reads_cvcBytes_inside buf c n 0 p (by omega) (by omega) b hb
      exact ⟨a, b', j, hab, hb', fun _ => ha.trans hkept.symm⟩
  · obtain ⟨a, b', j, hab, hb', -⟩ := reads_cvcBytes buf c n 0 (8 * p) b hb
    exact ⟨a, b', j, hab, hb', fun h => absurd h hp⟩

theorem reads_cvtCvcs : Reads buf (cvtCvcs buf.length) (8 * p) fun a _ =>
    a.num_cvcs = leading 1 (buf.drop p) ∧
      (buf.drop p ≠ [] → a.cvc_data = kept ((buf.drop p).drop 1)) := by
  refine (reads_octets buf p 1).bind ?_
  rintro _ _ ⟨rfl, rfl⟩
  refine (reads_cvcData buf (p + 1)).bind fun a j ha => Reads.pure ⟨rfl, fun hne => ?_⟩
  rw [List.drop_drop]
  refine ha ?_
  by_contra hp
  exact hne (List.drop_eq_nil_of_le (by omega))

end Parts

/-! ## Whole tables -/

variable {buf : List UInt8}

theorem near_start (buf : List UInt8) : Near buf ⟨buf, 0⟩ 0 :=
  ⟨rfl, fun _ => rfl, fun h => absurd h (by omega)⟩

theorem tableCVT_of_version (version : ℕ) (h : leading 1 (afterLength buf) = version) :
    tableCVT_T2Vx buf =
      if version = 1 then (parseCVTVer1 buf.length ⟨buf, 0⟩).map Prod.fst
      else if version = 2 then (parseCVTVer2 buf.length ⟨buf, 0⟩).map Prod.fst
      else some (.other version) := by
  obtain ⟨a, b', j, hab, -, rfl⟩ := reads_cvtVersion buf ⟨buf, 0⟩ (near_start buf)
  rw [tableCVT_T2Vx, hab, h]
  simp only [Option.bind_eq_bind, Option.bind_some]
  split_ifs
  · cases parseCVTVer1 buf.length ⟨buf, 0⟩ <;> rfl
  · cases parseCVTVer2 buf.length ⟨buf, 0⟩ <;> rfl
  · rfl

theorem descriptorsOf_eq (buf : List UInt8) :
    descriptorsOf buf = buf.drop (3 + lengthSize (buf.drop 3) + 3) := by
  rw [descriptorsOf, afterLength, List.drop_drop]

/-- The number of CVCs, and the CVCs that are kept. -/
def CvcsAre (l : List UInt8) (cvcs : CvtCvcs) : Prop :=
  cvcs.num_cvcs = leading 1 l ∧ (l ≠ [] → cvcs.cvc_data = kept (l.drop 1))

/-- A table of the first version is always read. -/
theorem parsed1 (h : leading 1 (afterLength buf) = 1) :
    ∃ ids place codefile cvcs, tableCVT_T2Vx buf = some (.ver1 ids place codefile cvcs) ∧
      CvcsAre (cvcsOf1 buf) cvcs := by
  have hreads : Reads buf (parseCVTVer1 buf.length) 0 fun a _ =>
      ∃ ids place codefile cvcs, a = .ver1 ids place codefile cvcs ∧
        CvcsAre (cvcsOf1 buf) cvcs := by
    refine (reads_cvtHeader buf).bind ?_
    rintro ⟨ids, n⟩ _ ⟨rfl, rfl⟩
    refine (reads_cvtDescriptors buf _ _ ids).bind ?_
    rintro ids' _ rfl
    refine (reads_cvtPlace buf _).bind ?_
    rintro place _ rfl
    refine (reads_counted_chars buf _).bind ?_
    rintro codefile _ rfl
    refine (reads_cvtCvcs buf _).bind ?_
    rintro cvcs _ hcvcs
    refine Reads.pure ⟨ids', place, codefile, cvcs, rfl, ?_⟩
    rw [CvcsAre, cvcsOf1, afterDescriptors, descriptorsOf_eq]
    simpa only [List.drop_drop] using hcvcs
  obtain ⟨a, b', j, hab, -, ids, place, codefile, cvcs, rfl, hcvcs⟩ :=
    hreads ⟨buf, 0⟩ (near_start buf)
  refine ⟨ids, place, codefile, cvcs, ?_, hcvcs⟩
  rw [tableCVT_of_version 1 h, if_pos rfl, hab]
  rfl

/-- One of the second version is read when there are not too many objects. -/
theorem parsed2 (h : leading 1 (afterLength buf) = 2)
    (hobjects : leading 1 (afterDescriptors buf) ≤ cvt2v2MaxObjects) :
    ∃ ids objects cvcs, tableCVT_T2Vx buf = some (.ver2 ids objects cvcs) ∧
      CvcsAre (cvcsOf2 buf) cvcs := by
  have hreads : Reads buf (parseCVTVer2 buf.length) 0 fun a _ =>
      ∃ ids objects cvcs, a = .ver2 ids objects cvcs ∧ CvcsAre (cvcsOf2 buf) cvcs := by
    refine (reads_cvtHeader buf).bind ?_
    rintro ⟨ids, n⟩ _ ⟨rfl, rfl⟩
    refine (reads_cvtDescriptors buf _ _ ids).bind ?_
    rintro ids' _ rfl
    refine (reads_octets buf _ 1).bind ?_
    rintro num_of_objects _ ⟨hcount, rfl⟩
    rw [afterDescriptors, descriptorsOf_eq, List.drop_drop] at hobjects
    rw [← hcount] at hobjects
    refine (reads_t2v2Objects buf _ 0 _ hobjects).bind ?_
    rintro objects _ rfl
    refine (reads_cvtCvcs buf _).bind ?_
    rintro cvcs _ hcvcs
    refine Reads.pure ⟨ids', objects, cvcs, rfl, ?_⟩
    rw [CvcsAre, cvcsOf2, afterDescriptors, descriptorsOf_eq]
    simpa only [List.drop_drop, hcount] using hcvcs
  obtain ⟨a, b', j, hab, -, ids, objects, cvcs, rfl, hcvcs⟩ := hreads ⟨buf, 0⟩ (near_start buf)
  refine ⟨ids, objects, cvcs, ?_, hcvcs⟩
  rw [tableCVT_of_version 2 h, if_neg (by decide), if_pos rfl, hab]
  rfl

/-- Else it writes behind them. -/
theorem overrun2 (h : leading 1 (afterLength buf) = 2)
    (hobjects : cvt2v2MaxObjects < leading 1 (afterDescriptors buf)) :
    tableCVT_T2Vx buf = none := by
  have hfails : Fails buf (parseCVTVer2 buf.length) 0 := by
    refine (reads_cvtHeader buf).bind_fails ?_
    rintro ⟨ids, n⟩ _ ⟨rfl, rfl⟩
    refine (reads_cvtDescriptors buf _ _ ids).bind_fails ?_
    rintro ids' _ rfl
    refine (reads_octets buf _ 1).bind_fails ?_
    rintro num_of_objects _ ⟨hcount, rfl⟩
    rw [afterDescriptors, descriptorsOf_eq, List.drop_drop] at hobjects
    rw [← hcount] at hobjects
    exact (t2v2Objects_overrun buf _ 0 _ hobjects (Nat.zero_le _)).bind _
  rw [tableCVT_of_version 2 h, if_neg (by decide), if_pos rfl, hfails _ (near_start buf)]
  rfl

end CvtLayout

end MediaFramework
