import MediaFramework.Rbi.SpliceDescriptors
import MediaFramework.Rbi.TsPacket

/-!
# Where the UPIDs are copied to (`RBIStreamProcessor::processSCTEDescriptors`)

The text of a UPID goes into arrays of `RBI_MAX_DATA` bytes: as it is, with a NUL
behind it, into `temp` and from there into one of the text fields of the opportunity;
or, when it means nothing, in hexadecimal digits into `contentId` or into the next of
ten `segments`.

A segmentation descriptor may hold a list of UPIDs (MID), each with a length of its
own. Its loop stops when a UPID begins behind the length of the list, and has no look
at where a UPID ends, nor at the number of `segments`; and what is copied in
hexadecimal digits is cut off to the size of the array, without a place for the NUL.

This is the memory's side of `SpliceDescriptors.midUpids`: what is copied where, for
all bytes that may be there.
-/

namespace MediaFramework

namespace SpliceDescriptors

/-- An array of `RBI_MAX_DATA` bytes. -/
inductive UpidArray : Type where
  /-- `temp`, and the text field it is copied to -/
  | text
  | contentId
  /-- `segments[i].segmentUpid` -/
  | segment (i : ℕ)
  deriving DecidableEq

/-- A UPID is copied. -/
structure UpidCopy where
  target : UpidArray
  /-- where the UPID begins in `segmentation_upid` -/
  start : ℕ
  ulen : ℕ
  /-- the characters written -/
  written : ℕ
  deriving DecidableEq

/-- The array is there and has a place for the NUL, and what is copied belongs to
`segmentation_upid`. -/
structure UpidCopy.InBounds (segmentationUpidLen : ℕ) (c : UpidCopy) : Prop where
  room : c.written + 1 ≤ Upid.maxData
  within : c.start + c.ulen ≤ segmentationUpidLen
  place : ∀ i, c.target = .segment i → i < Upid.maxSegments

/-! ## The copies -/

/-- A UPID of a list. -/
abbrev asUpid (u : UInt8 × List UInt8) : Upid := ⟨u.1.toNat, u.2⟩

/-- A UPID of a list has no use of its own, and is kept in hexadecimal digits. -/
def keptAsDigits (segmentationTypeId : ℕ) (u : Upid) : Bool :=
  !(Upid.midUse segmentationTypeId u (.ofFields 0 0 0 0 0)).2

/-- The copies of one UPID of a list. -/
def upidCopy (segmentationTypeId totalSegments start : ℕ) (u : UInt8 × List UInt8) :
    List UpidCopy :=
  ⟨.text, start, u.2.length, u.2.length⟩ ::
    if keptAsDigits segmentationTypeId (asUpid u) then
      [⟨if u.1 = 8 then .contentId else .segment totalSegments, start, u.2.length,
        (Upid.hexText u.2).length⟩]
    else []

/-- The copies the loop of `case 13` makes of its UPIDs; the places of them come
first, and `totalSegments` is the number of segments so far. -/
def midCopies (segmentationTypeId : ℕ) : ℕ → List (ℕ × UInt8 × List UInt8) → List UpidCopy
  | _, [] => []
  | totalSegments, (start, u) :: us =>
    upidCopy segmentationTypeId totalSegments start u ++
      midCopies segmentationTypeId
        (totalSegments + if Upid.takesSegment segmentationTypeId (asUpid u) then 1 else 0) us

section Memory

variable (packet : Packet)

/-- The UPIDs the loop of `case 13` finds, from `moff` on. -/
def midUpidsAt (descriptorOffset segmentationUpidLen moff : ℕ) : List (ℕ × UInt8 × List UInt8) :=
  if moff < segmentationUpidLen then
    let segmentationUpidType := packet (descriptorOffset + 2 + moff)
    let ulen := (packet (descriptorOffset + 3 + moff)).toNat
    (moff + 2, segmentationUpidType, load packet (descriptorOffset + 2 + 2 + moff) ulen) ::
      midUpidsAt descriptorOffset segmentationUpidLen (moff + (ulen + 2))
  else []
termination_by segmentationUpidLen - moff

/-- `segmentation_upid_length` -/
def upidLen (descriptorOffset : ℕ) : ℕ := (packet (descriptorOffset + 1)).toNat

/-- `segmentation_type_id` -/
def typeId (descriptorOffset : ℕ) : ℕ :=
  (packet (descriptorOffset + 2 + upidLen packet descriptorOffset)).toNat

/-- All copies of the `switch` over the type of a UPID. -/
def upidCopies (descriptorOffset : ℕ) : List UpidCopy :=
  if packet descriptorOffset = 13 then
    midCopies (typeId packet descriptorOffset) 0
      (midUpidsAt packet descriptorOffset (upidLen packet descriptorOffset) 0)
  else
    let segmentationUpidLen := upidLen packet descriptorOffset
    [⟨.text, 0, segmentationUpidLen, segmentationUpidLen⟩]

/-- The loop over the descriptors: where it finds the UPIDs of a segmentation in
program mode. -/
def upidFields (descriptorEndOffset descriptorOffset : ℕ) : List ℕ :=
  if descriptorOffset < descriptorEndOffset then
    let descriptorLen := (packet (descriptorOffset + 1)).toNat
    let cancelIndicator := (packet (descriptorOffset + 10)).toNat >>> 7 &&& 1
    let flags := (packet (descriptorOffset + 11)).toNat
    if packet descriptorOffset = 2 ∧ cancelIndicator = 0 ∧ flags >>> 7 &&& 1 = 1 then
      let upid := descriptorOffset + 12 + if flags >>> 6 &&& 1 = 1 then 5 else 0
      upid :: upidFields descriptorEndOffset
        (upid + (2 + upidLen packet upid + 3) + (2 + descriptorLen))
    else upidFields descriptorEndOffset (descriptorOffset + (2 + descriptorLen))
  else []
termination_by descriptorEndOffset - descriptorOffset
decreasing_by
  all_goals omega

/-- The UPID fields `processSCTEDescriptors` finds in a section. -/
def sectionUpidFields (descriptorOffset descriptorLoopLength : ℕ) : List ℕ :=
  let descriptorLoopLength := descriptorLoopLength ||| (packet (descriptorOffset + 1)).toNat
  upidFields packet (descriptorOffset + descriptorLoopLength) (descriptorOffset + 2)

/-- The field holds a list of UPIDs, up to its end; at most ten of them take a place
in `segments`, and the digits of those that are kept in digits leave a place for the
NUL. -/
def MidFits (descriptorOffset : ℕ) : Prop :=
  ∃ us : List (UInt8 × List UInt8), (∀ u ∈ us, u.2.length < 256) ∧
    midBytes us = load packet (descriptorOffset + 2) (upidLen packet descriptorOffset) ∧
    (us.map asUpid).countP (Upid.takesSegment (typeId packet descriptorOffset)) ≤
      Upid.maxSegments ∧
    ∀ u ∈ us, keptAsDigits (typeId packet descriptorOffset) (asUpid u) = true → u.2.length ≤ 128

end Memory

/-! ## The copies of a list of UPIDs -/

theorem length_hexText (bytes : List UInt8) :
    (Upid.hexText bytes).length = min Upid.maxData (2 * bytes.length) := by
  rw [Upid.hexText, List.length_take, List.length_flatMap]
  simp [Nat.mul_comm]

/-- A list of UPIDs with the places of their bytes, the first UPID at `moff`. -/
def placed : ℕ → List (UInt8 × List UInt8) → List (ℕ × UInt8 × List UInt8)
  | _, [] => []
  | moff, u :: us => (moff + 2, u) :: placed (moff + (u.2.length + 2)) us

/-- The digits of a UPID with their NUL. -/
theorem digits_room (bytes : List UInt8) :
    (Upid.hexText bytes).length + 1 ≤ Upid.maxData ↔ bytes.length ≤ 128 := by
  rw [length_hexText, Upid.maxData]
  omega

/-- The copies of one UPID are in bounds. -/
theorem upidCopy_inBounds_iff (segmentationTypeId totalSegments start segmentationUpidLen : ℕ)
    {u : UInt8 × List UInt8} (hu : u.2.length < 256) :
    (∀ c ∈ upidCopy segmentationTypeId totalSegments start u, c.InBounds segmentationUpidLen) ↔
      start + u.2.length ≤ segmentationUpidLen ∧
      (Upid.takesSegment segmentationTypeId (asUpid u) = true → totalSegments < Upid.maxSegments) ∧
      (keptAsDigits segmentationTypeId (asUpid u) = true → u.2.length ≤ 128) := by
  have htext : (⟨.text, start, u.2.length, u.2.length⟩ : UpidCopy).InBounds segmentationUpidLen ↔
      start + u.2.length ≤ segmentationUpidLen := by
    refine ⟨fun h => h.within, fun h => ⟨?_, h, fun _ hi => nomatch hi⟩⟩
    show u.2.length + 1 ≤ 257
    omega
  have htakes : Upid.takesSegment segmentationTypeId (asUpid u) =
      (keptAsDigits segmentationTypeId (asUpid u) && decide (u.1.toNat ≠ 8)) := rfl
  have height : u.1 = 8 ↔ u.1.toNat = 8 := UInt8.toNat_inj.symm
  rw [upidCopy, List.forall_mem_cons, htext, htakes]
  by_cases hkept : keptAsDigits segmentationTypeId (asUpid u) = true
  · rw [if_pos hkept, List.forall_mem_singleton, hkept, Bool.true_and, decide_eq_true_eq, Ne,
      ← height]
    refine and_congr_right fun hwithin => ⟨fun h => ⟨fun h8 => ?_, fun _ => ?_⟩, fun h => ?_⟩
    · exact h.place totalSegments (if_neg h8)
    · exact (digits_room u.2).mp h.room
    · refine ⟨(digits_room u.2).mpr (h.2 rfl), hwithin, fun i hi => ?_⟩
      by_cases h8 : u.1 = 8
      · rw [if_pos h8] at hi
        cases hi
      · rw [if_neg h8] at hi
        cases hi
        exact h.1 h8
  · rw [if_neg hkept]
    simp [hkept]

/-- The copies are in bounds, one UPID after another. -/
theorem midCopies_inBounds_iff (segmentationTypeId segmentationUpidLen : ℕ)
    (us : List (ℕ × UInt8 × List UInt8)) :
    ∀ totalSegments ≤ Upid.maxSegments, (∀ p ∈ us, p.2.2.length < 256) →
      ((∀ c ∈ midCopies segmentationTypeId totalSegments us, c.InBounds segmentationUpidLen) ↔
        (∀ p ∈ us, p.1 + p.2.2.length ≤ segmentationUpidLen) ∧
        totalSegments + us.countP (fun p => Upid.takesSegment segmentationTypeId (asUpid p.2)) ≤
          Upid.maxSegments ∧
        ∀ p ∈ us, keptAsDigits segmentationTypeId (asUpid p.2) = true → p.2.2.length ≤ 128) := by
  induction us with
  | nil =>
    intro totalSegments htotal _
    simp [midCopies, htotal]
  | cons p us ih =>
    intro totalSegments htotal hlen
    obtain ⟨start, u⟩ := p
    rw [List.forall_mem_cons] at hlen
    rw [midCopies, List.forall_mem_append,
      upidCopy_inBounds_iff segmentationTypeId totalSegments start segmentationUpidLen hlen.1,
      List.forall_mem_cons, List.forall_mem_cons, List.countP_cons]
    by_cases htakes : Upid.takesSegment segmentationTypeId (asUpid u) = true
    · simp only [htakes, if_true, forall_const]
      rcases Nat.lt_or_ge totalSegments Upid.maxSegments with hlt | hge
      · rw [ih (totalSegments + 1) hlt hlen.2, Nat.add_right_comm, Nat.add_assoc]
        tauto
      · -- there is no place left
        exact iff_of_false (fun h => absurd h.1.2.1 (by omega)) (fun h => absurd h.2.1 (by omega))
    · simp only [htakes, Bool.false_eq_true, if_false, false_imp_iff, Nat.add_zero, true_and]
      rw [ih totalSegments htotal hlen.2]
      tauto

/-! ## The UPIDs of a field -/

section Memory

variable {packet : Packet} {descriptorOffset segmentationUpidLen : ℕ}

theorem midBytes_cons (u : UInt8 × List UInt8) (us : List (UInt8 × List UInt8)) :
    midBytes (u :: us) = u.1 :: UInt8.ofNat u.2.length :: (u.2 ++ midBytes us) := by
  rw [midBytes, List.flatMap_cons]
  rfl

/-- The type, the length and the bytes of a UPID, and what is behind it. -/
theorem load_upid (packet : Packet) (pos ulen n : ℕ) :
    load packet pos (ulen + 2 + n) =
      packet pos :: packet (pos + 1) :: (load packet (pos + 2) ulen ++
        load packet (pos + (ulen + 2)) n) := by
  rw [Nat.add_right_comm ulen 2 n, load_succ, load_succ, load_add]
  rw [show pos + 1 + 1 + ulen = pos + (ulen + 2) by omega]

/-- A list of UPIDs is found as it is. -/
theorem midUpidsAt_midBytes (us : List (UInt8 × List UInt8)) :
    ∀ moff ≤ segmentationUpidLen, (∀ u ∈ us, u.2.length < 256) →
      midBytes us = load packet (descriptorOffset + 2 + moff) (segmentationUpidLen - moff) →
      midUpidsAt packet descriptorOffset segmentationUpidLen moff = placed moff us ∧
        ∀ p ∈ placed moff us, p.1 + p.2.2.length ≤ segmentationUpidLen := by
  induction us with
  | nil =>
    intro moff hle _ hbytes
    have hlen := congrArg List.length hbytes
    rw [length_load] at hlen
    have hzero : segmentationUpidLen - moff = 0 := hlen.symm
    rw [midUpidsAt, if_neg (by omega)]
    exact ⟨rfl, fun _ hp => nomatch hp⟩
  | cons u us ih =>
    intro moff hle hlength hbytes
    rw [List.forall_mem_cons] at hlength
    obtain ⟨n, hn⟩ : ∃ n, segmentationUpidLen - moff = u.2.length + 2 + n := by
      have hlen := congrArg List.length hbytes
      rw [length_load, midBytes_cons] at hlen
      simp only [List.length_cons, List.length_append] at hlen
      exact ⟨(midBytes us).length, by omega⟩
    rw [hn, load_upid, midBytes_cons] at hbytes
    obtain ⟨htype, hbytes⟩ := List.cons.inj hbytes
    obtain ⟨hulen, hbytes⟩ := List.cons.inj hbytes
    obtain ⟨hupid, hrest⟩ := List.append_inj hbytes length_load.symm
    have hread : (packet (descriptorOffset + 3 + moff)).toNat = u.2.length := by
      rw [show descriptorOffset + 3 + moff = descriptorOffset + 2 + moff + 1 by omega, ← hulen,
        UInt8.toNat_ofNat', Nat.mod_eq_of_lt hlength.1]
    obtain ⟨hih, hends⟩ := ih (moff + (u.2.length + 2)) (by omega) hlength.2 (by
      rw [hrest, show segmentationUpidLen - (moff + (u.2.length + 2)) = n by omega,
        Nat.add_assoc (descriptorOffset + 2) moff (u.2.length + 2)])
    rw [midUpidsAt, if_pos (by omega)]
    dsimp only
    rw [hread, hih, ← htype, show descriptorOffset + 2 + 2 + moff = descriptorOffset + 2 + moff + 2
      by omega, ← hupid]
    refine ⟨rfl, ?_⟩
    rw [placed, List.forall_mem_cons]
    refine ⟨?_, hends⟩
    show moff + 2 + u.2.length ≤ segmentationUpidLen
    omega

/-- The UPIDs found are the field's bytes, when each of them ends in it. -/
theorem midBytes_midUpidsAt {moff : ℕ} (hle : moff ≤ segmentationUpidLen)
    (hends : ∀ p ∈ midUpidsAt packet descriptorOffset segmentationUpidLen moff,
      p.1 + p.2.2.length ≤ segmentationUpidLen) :
    midBytes ((midUpidsAt packet descriptorOffset segmentationUpidLen moff).map Prod.snd) =
      load packet (descriptorOffset + 2 + moff) (segmentationUpidLen - moff) := by
  induction moff using midUpidsAt.induct packet descriptorOffset segmentationUpidLen with
  | case1 moff hlt ulen ih =>
    rw [midUpidsAt, if_pos hlt] at hends ⊢
    rw [List.forall_mem_cons] at hends
    obtain ⟨hend, hends⟩ := hends
    have hend : moff + 2 + ulen ≤ segmentationUpidLen := by
      rw [length_load] at hend
      exact hend
    rw [List.map_cons, midBytes_cons, ih (by omega) hends,
      show segmentationUpidLen - moff = ulen + 2 + (segmentationUpidLen - (moff + (ulen + 2))) by
        omega, load_upid, length_load]
    have hulen : UInt8.ofNat (packet (descriptorOffset + 3 + moff)).toNat =
        packet (descriptorOffset + 2 + moff + 1) := by
      rw [UInt8.ofNat_toNat, show descriptorOffset + 3 + moff = descriptorOffset + 2 + moff + 1 by
        omega]
    rw [hulen, show descriptorOffset + 2 + 2 + moff = descriptorOffset + 2 + moff + 2 by omega,
      Nat.add_assoc (descriptorOffset + 2) moff (ulen + 2)]
  | case2 moff hlt =>
    rw [midUpidsAt, if_neg hlt, show segmentationUpidLen - moff = 0 by omega]
    rfl

theorem length_midUpidsAt_lt (moff : ℕ) :
    ∀ p ∈ midUpidsAt packet descriptorOffset segmentationUpidLen moff, p.2.2.length < 256 := by
  induction moff using midUpidsAt.induct packet descriptorOffset segmentationUpidLen with
  | case1 moff hlt ulen ih =>
    rw [midUpidsAt, if_pos hlt, List.forall_mem_cons]
    refine ⟨?_, ih⟩
    rw [length_load]
    exact UInt8.toNat_lt _
  | case2 moff hlt =>
    rw [midUpidsAt, if_neg hlt]
    exact fun _ hp => nomatch hp

theorem map_snd_placed (us : List (UInt8 × List UInt8)) :
    ∀ moff, (placed moff us).map Prod.snd = us := by
  induction us with
  | nil => exact fun _ => rfl
  | cons u us ih =>
    intro moff
    rw [placed, List.map_cons, ih]

end Memory

section Memory

variable (packet : Packet)

/-- The copies from one UPID field. -/
theorem upidCopies_inBounds_iff (descriptorOffset : ℕ) :
    (∀ c ∈ upidCopies packet descriptorOffset, c.InBounds (upidLen packet descriptorOffset)) ↔
      (packet descriptorOffset = 13 → MidFits packet descriptorOffset) := by
  have hlen : upidLen packet descriptorOffset < 256 := UInt8.toNat_lt _
  rw [upidCopies]
  by_cases h13 : packet descriptorOffset = 13
  · rw [if_pos h13, midCopies_inBounds_iff _ _ _ 0 (Nat.zero_le _) (length_midUpidsAt_lt 0),
      Nat.zero_add, forall_prop_of_true h13]
    constructor
    · rintro ⟨hends, hplaces, hdigits⟩
      refine ⟨_, ?_, midBytes_midUpidsAt (Nat.zero_le _) hends, ?_, ?_⟩
      · exact List.forall_mem_map.mpr (length_midUpidsAt_lt 0)
      · rw [List.map_map, List.countP_map]
        exact hplaces
      · exact List.forall_mem_map.mpr hdigits
    · rintro ⟨us, hlength, hbytes, hplaces, hdigits⟩
      obtain ⟨hfound, hends⟩ := midUpidsAt_midBytes us 0
        (Nat.zero_le (upidLen packet descriptorOffset)) hlength hbytes
      rw [hfound]
      refine ⟨hends, ?_, ?_⟩
      · rw [← map_snd_placed us 0, List.map_map, List.countP_map] at hplaces
        exact hplaces
      · rw [← map_snd_placed us 0] at hdigits
        exact List.forall_mem_map.mp hdigits
  · rw [if_neg h13, List.forall_mem_singleton]
    refine iff_of_true ⟨?_, ?_, fun _ hi => nomatch hi⟩ fun h => absurd h h13
    · show upidLen packet descriptorOffset + 1 ≤ 257
      omega
    · exact (Nat.zero_add _).le

/-- **The copies of a section.** For all bytes, and wherever the loop over the
descriptors finds UPIDs, the copies are in bounds exactly when every list of UPIDs is
one, with a place for each of them. -/
theorem section_copies_inBounds_iff (descriptorOffset descriptorLoopLength : ℕ) :
    (∀ field ∈ sectionUpidFields packet descriptorOffset descriptorLoopLength,
        ∀ c ∈ upidCopies packet field, c.InBounds (upidLen packet field)) ↔
      ∀ field ∈ sectionUpidFields packet descriptorOffset descriptorLoopLength,
        packet field = 13 → MidFits packet field :=
  forall₂_congr fun field _ => upidCopies_inBounds_iff packet field

end Memory

/-- A segmentation descriptor with a list of eleven empty UPIDs. -/
def elevenUpids : List UInt8 :=
  [0x00, 0x27, 0x02, 0x25, 0x43, 0x55, 0x45, 0x49, 0x00, 0x00, 0x00, 0x01, 0x7F, 0xBF, 0x0D, 0x16] ++
    midBytes (List.replicate 11 (1, [])) ++ [0x36, 0x00, 0x00]

theorem elevenUpids_out_of_bounds :
    ¬ ∀ field ∈ sectionUpidFields (packetOf elevenUpids) 0 0,
      ∀ c ∈ upidCopies (packetOf elevenUpids) field,
        c.InBounds (upidLen (packetOf elevenUpids) field) := by
  intro h
  have hfield : 14 ∈ sectionUpidFields (packetOf elevenUpids) 0 0 := by
    rw [sectionUpidFields, upidFields]
    exact List.mem_cons_self
  have hfound := (@midUpidsAt_midBytes (packetOf elevenUpids) 14 22 (List.replicate 11 (1, []))
    0 (by decide) (by decide) (by decide +kernel)).1
  have hcopy : (⟨.segment 10, 22, 0, 0⟩ : UpidCopy) ∈ upidCopies (packetOf elevenUpids) 14 := by
    have hmid : upidCopies (packetOf elevenUpids) 14 =
        midCopies 0x36 0 (midUpidsAt (packetOf elevenUpids) 14 22 0) := rfl
    rw [hmid, hfound]
    decide +kernel
  exact absurd ((h 14 hfield _ hcopy).place 10 rfl) (by decide)

/-! ## The UPIDs that the parser reads

The parser of the descriptors reads a list of bytes, and the copies are made from memory. Where the
bytes are those of the memory, both come to the same UPIDs.
-/

section Parser

variable {packet : Packet} {n i k moff : ℕ}

theorem octet_load {b : ℕ} (h : octet (load packet 0 n) i = some b) : (packet i).toNat = b := by
  obtain ⟨x, hx, rfl⟩ := Option.map_eq_some_iff.mp h
  obtain ⟨hlt, rfl⟩ := List.getElem?_eq_some_iff.mp hx
  simp [load]

theorem octets_load {xs : List UInt8} (h : octets (load packet 0 n) i k = some xs) :
    load packet i k = xs := by
  unfold octets at h
  split_ifs at h with hle
  obtain rfl := Option.some.inj h
  rw [length_load] at hle
  obtain ⟨m, rfl⟩ : ∃ m, n = i + m := ⟨n - i, by omega⟩
  rw [load_add, List.drop_left' length_load, take_load, Nat.min_eq_left (by omega), Nat.zero_add]

/-- **The UPIDs of a field** are taken up one after another. -/
theorem midUpids_eq_foldl {descriptorOffset segmentationUpidLen segmentationTypeId fuel : ℕ}
    {f f' : UpidFindings} (h : midUpids (load packet 0 n) descriptorOffset segmentationUpidLen
      segmentationTypeId fuel moff f = some f') :
    f' = (midUpidsAt packet descriptorOffset segmentationUpidLen moff).foldl
      (fun f u => Upid.midUpid segmentationTypeId (asUpid u.2) f) f := by
  induction fuel generalizing moff f with
  | zero => cases h
  | succ fuel ih =>
    rw [midUpids] at h
    rw [midUpidsAt]
    split_ifs at h ⊢ with hlt
    · obtain ⟨upidType, htype, h⟩ := Option.bind_eq_some_iff.mp h
      obtain ⟨ulen, hulen, h⟩ := Option.bind_eq_some_iff.mp h
      obtain ⟨bytes, hbytes, h⟩ := Option.bind_eq_some_iff.mp h
      obtain rfl := octet_load htype
      obtain rfl := octet_load hulen
      obtain rfl := octets_load hbytes
      dsimp only at h
      split_ifs at h
      exact ih h
    · exact (Option.some.inj h).symm

/-- Where the UPIDs of a descriptor that was read are. -/
def Reading.upidField (packet : Packet) : ℕ × Reading → Option ℕ
  | (descriptorOffset, .program _ _ _) =>
    some (descriptorOffset + 12 +
      if (packet (descriptorOffset + 11)).toNat >>> 6 &&& 1 = 1 then 5 else 0)
  | _ => none

theorem segmentationFields_next {upid segmentEventId poDuration next : ℕ} {f : UpidFindings}
    (h : segmentationFields (load packet 0 n) upid segmentEventId poDuration = some (f, next)) :
    next = upid + (2 + upidLen packet upid + 3) := by
  obtain ⟨_, -, h⟩ := Option.bind_eq_some_iff.mp h
  obtain ⟨upidLen, hlen, h⟩ := Option.bind_eq_some_iff.mp h
  obtain rfl := octet_load hlen
  iterate 4 obtain ⟨_, -, h⟩ := Option.bind_eq_some_iff.mp h
  cases h
  rfl

/-- **The UPIDs of a section** are those of the descriptors that are read. -/
theorem upidFields_eq {endOffset fuel descriptorOffset : ℕ} {readings : List (ℕ × Reading)}
    (h : descriptors (load packet 0 n) endOffset fuel descriptorOffset = some readings) :
    upidFields packet endOffset descriptorOffset =
      readings.filterMap (Reading.upidField packet) := by
  induction fuel generalizing descriptorOffset readings with
  | zero => cases h
  | succ fuel ih =>
    rw [descriptors] at h
    rw [upidFields]
    split_ifs at h ⊢ with hlt
    swap
    · cases h
      rfl
    obtain ⟨⟨reading, next⟩, hread, h⟩ := Option.bind_eq_some_iff.mp h
    obtain ⟨rest, hrest, h⟩ := Option.bind_eq_some_iff.mp h
    cases h
    obtain ⟨tag, htag, hread⟩ := Option.bind_eq_some_iff.mp hread
    obtain ⟨len, hlen, hread⟩ := Option.bind_eq_some_iff.mp hread
    obtain rfl := octet_load htag
    obtain rfl := octet_load hlen
    rw [List.filterMap_cons, ← ih hrest]
    have htwo : packet descriptorOffset = 2 ↔ (packet descriptorOffset).toNat = 2 :=
      UInt8.toNat_inj.symm
    split_ifs at hread with htag
    swap
    · cases hread
      rw [if_neg fun h => htag (htwo.mp h.1)]
      rfl
    iterate 2 obtain ⟨_, -, hread⟩ := Option.bind_eq_some_iff.mp hread
    obtain ⟨cancelIndicator, hcancel, hread⟩ := Option.bind_eq_some_iff.mp hread
    obtain rfl := octet_load hcancel
    split_ifs at hread with hkept
    swap
    · cases hread
      rw [if_neg fun h => hkept h.2.1]
      rfl
    obtain ⟨flags, hflags, hread⟩ := Option.bind_eq_some_iff.mp hread
    obtain rfl := octet_load hflags
    split_ifs at hread with hprogram
    swap
    · cases hread
      rw [if_neg fun h => hprogram h.2.2]
      rfl
    obtain ⟨⟨f, upidEnd⟩, hfields, hread⟩ := Option.bind_eq_some_iff.mp hread
    cases hread
    rw [if_pos ⟨htwo.mpr htag, hkept, hprogram⟩]
    rw [programSegmentation] at hfields
    split_ifs at hfields with hduration
    · obtain ⟨_, -, hfields⟩ := Option.bind_eq_some_iff.mp hfields
      rw [segmentationFields_next hfields, Reading.upidField, if_pos (of_decide_eq_true hduration)]
    · rw [segmentationFields_next hfields, Reading.upidField,
        if_neg (of_decide_eq_false (Bool.eq_false_of_not_eq_true hduration))]

end Parser
end SpliceDescriptors

end MediaFramework
