import MediaFramework.Rbi.ExpGolomb

/-!
# Sequence parameter sets (`RBIStreamProcessor::processSeqParameterSet`)

The fields of a sequence parameter set are read one after another up to the size of the
frames. Some are there only for some profiles, the coding of the picture order has three
forms, and how many numbers a scaling list has depends on the numbers.

A `SeqParameterSet` is a choice of values for the fields, in the ranges the standard has for
them, and its `bits` is how they are coded; `decoded` is what should be known afterwards.
-/

namespace MediaFramework

open ExpGolomb

/-- `H264SPS` -/
structure H264SPS where
  picOrderCountType : ℤ
  maxPicOrderCount : ℤ
  log2MaxFrameNumMinus4 : ℤ
  log2MaxPicOrderCntLsbMinus4 : ℤ
  separateColorPlaneFlag : ℤ
  frameMBSOnlyFlag : ℤ
  deriving DecidableEq

/-- What the stream processor knows of the sequence. -/
structure SequenceInfo where
  m_SPS : ℕ → H264SPS
  m_frameWidth : ℤ
  m_frameHeight : ℤ
  m_isInterlaced : Bool
  m_isInterlacedKnown : Bool

/-! ## The code -/

/-- A number that goes into an `int`. -/
def getInt (m : BitRead ℕ) : BitRead ℤ := do
  let n ← m
  return int32 n

/-- What the loop of `processScalingList` does to `nextScale`. -/
def stepScale (lastScale nextScale : ℤ) : BitRead ℤ :=
  if nextScale ≠ 0 then do
    let deltaScale ← getSExpGolomb
    return Int.tmod (int32 (lastScale + deltaScale + 256)) 256
  else return nextScale

/-- The loop of `processScalingList`. -/
def scalingLoop : ℕ → ℤ → ℤ → BitRead Unit
  | 0, _, _ => return
  | size + 1, lastScale, nextScale => do
    let nextScale ← stepScale lastScale nextScale
    scalingLoop size (if nextScale = 0 then lastScale else nextScale) nextScale

/-- `processScalingList` -/
def processScalingList (size : ℕ) : BitRead Unit := scalingLoop size 8 8

/-- A scaling list, if it is there. -/
def optionalList (size : ℕ) (present : ℕ) : BitRead Unit :=
  if present ≠ 0 then processScalingList size else return

/-- The loop over the scaling lists, with `i` the first one. -/
def scalingLists : ℕ → ℕ → BitRead Unit
  | 0, _ => return
  | n + 1, i => do
    let seq_scaling_list_present_flag ← ExpGolomb.getBits 1
    optionalList (if i < 6 then 16 else 64) seq_scaling_list_present_flag
    scalingLists n (i + 1)

/-- `separate_color_plane_flag`, which is there for one format. -/
def colorPlane (chroma_format_idx : ℤ) : BitRead ℤ :=
  if chroma_format_idx = 3 then getInt (ExpGolomb.getBits 1) else return 0

/-- The scaling lists, if they are there. -/
def scalingMatrix (chroma_format_idx : ℤ) (present : ℕ) : BitRead Unit :=
  if present ≠ 0 then scalingLists (if chroma_format_idx ≠ 3 then 8 else 12) 0 else return

/-- What the profiles with a chroma format have, down to the scaling lists. -/
def chromaFormat : BitRead ℤ := do
  let chroma_format_idx ← getInt getUExpGolomb
  let separateColorPlaneFlag ← colorPlane chroma_format_idx
  let _bit_depth_luma_minus8 ← getUExpGolomb
  let _bit_depth_chroma_minus8 ← getUExpGolomb
  let _qpprime_y_zero_transform_bypass_flag ← ExpGolomb.getBits 1
  let seq_scaling_matrix_present_flag ← ExpGolomb.getBits 1
  scalingMatrix chroma_format_idx seq_scaling_matrix_present_flag
  return separateColorPlaneFlag

/-- The profiles with a chroma format. -/
def hasChromaFormat (profile_idc : ℕ) : Bool :=
  profile_idc ∈ [44, 83, 86, 100, 110, 118, 122, 128, 244]

/-- What `separateColorPlaneFlag` is set to. -/
def chromaFields (profile_idc : ℕ) : BitRead ℤ :=
  if hasChromaFormat profile_idc then chromaFormat else return 0

/-- The loop over `offset_for_ref_frame`. -/
def refFrameOffsets : ℕ → BitRead Unit
  | 0 => return
  | n + 1 => do
    let _offset_for_ref_frame ← getUExpGolomb
    refFrameOffsets n

/-- The coding of the picture order. -/
def picOrderFields (pic_order_cnt_type : ℤ) (sps : H264SPS) : BitRead H264SPS :=
  if pic_order_cnt_type = 0 then do
    let log2_max_pic_order_cnt_lsb_minus4 ← getInt getUExpGolomb
    return { sps with
      log2MaxPicOrderCntLsbMinus4 := log2_max_pic_order_cnt_lsb_minus4
      maxPicOrderCount := int32 (2 <<< (log2_max_pic_order_cnt_lsb_minus4 + 4).toNat) }
  else if pic_order_cnt_type = 1 then do
    let _delta_pic_order_always_zero_flag ← ExpGolomb.getBits 1
    let _offset_for_non_ref_pic ← getSExpGolomb
    let _offset_for_top_to_bottom_field ← getSExpGolomb
    let num_ref_frames_in_pic_order_cnt_cycle ← getInt getUExpGolomb
    refFrameOffsets num_ref_frames_in_pic_order_cnt_cycle.toNat
    return sps
  else return sps

/-- `mb_adaptive_frame_field_flag`, which is there for field coding. -/
def adaptiveFlag (frame_mbs_only_flag : ℤ) : BitRead ℕ :=
  if frame_mbs_only_flag = 0 then ExpGolomb.getBits 1 else return 0

/-- The lines of a frame: twice as many for field coding. -/
def frameHeight (pic_height_in_map_units_minus1 frame_mbs_only_flag : ℤ) : ℤ :=
  let frameHeight := int32 ((pic_height_in_map_units_minus1 + 1) * 16)
  if frame_mbs_only_flag = 0 then int32 (frameHeight * 2) else frameHeight

/-- What is known from the fields. -/
def SequenceInfo.set (s : SequenceInfo) (seq_parameter_set_id : ℕ) (sps : H264SPS)
    (pic_width_in_mbs_minus1 pic_height_in_map_units_minus1 frame_mbs_only_flag : ℤ) :
    SequenceInfo where
  m_SPS := Function.update s.m_SPS seq_parameter_set_id
    { sps with frameMBSOnlyFlag := frame_mbs_only_flag }
  m_frameWidth := int32 ((pic_width_in_mbs_minus1 + 1) * 16)
  m_frameHeight := frameHeight pic_height_in_map_units_minus1 frame_mbs_only_flag
  m_isInterlaced := frame_mbs_only_flag = 0
  m_isInterlacedKnown := true

/-- The fields of the set with an index. The result of `processSeqParameterSet` is `false`
always. -/
def setFields (profile_idc : ℕ) (s : SequenceInfo) (seq_parameter_set_id : ℕ) :
    BitRead (Bool × SequenceInfo) := do
  let separateColorPlaneFlag ← chromaFields profile_idc
  let log2_max_frame_num_minus4 ← getInt getUExpGolomb
  let pic_order_cnt_type ← getInt getUExpGolomb
  let sps ← picOrderFields pic_order_cnt_type { s.m_SPS seq_parameter_set_id with
    separateColorPlaneFlag
    log2MaxFrameNumMinus4 := log2_max_frame_num_minus4
    picOrderCountType := pic_order_cnt_type }
  let _max_num_ref_frames ← getUExpGolomb
  let _gaps_in_frame_num_value_allowed_flag ← ExpGolomb.getBits 1
  let pic_width_in_mbs_minus1 ← getInt getUExpGolomb
  let pic_height_in_map_units_minus1 ← getInt getUExpGolomb
  let frame_mbs_only_flag ← getInt (ExpGolomb.getBits 1)
  let _mb_adaptive_frame_field_flag ← adaptiveFlag frame_mbs_only_flag
  return (false, s.set seq_parameter_set_id sps pic_width_in_mbs_minus1
    pic_height_in_map_units_minus1 frame_mbs_only_flag)

/-- The index, and the fields; `m_SPS` has 32 entries. -/
def setData (profile_idc : ℕ) (s : SequenceInfo) : BitRead (Bool × SequenceInfo) := do
  let seq_parameter_set_id ← getUExpGolomb
  if seq_parameter_set_id < 32 then setFields profile_idc s seq_parameter_set_id
  else fun _ _ => none

/-- `processSeqParameterSet`: the profile, the two octets behind it, and the data. -/
def processSeqParameterSet (s : SequenceInfo) (p : List UInt8) :
    Option ((Bool × SequenceInfo) × BitReader) := do
  let profile_idc ← p[0]?
  setData profile_idc.toNat s p ⟨3, 0x80⟩

/-! ## Fields and their coding -/

/-- A scaling list that is there: how much each entry differs from the one before. -/
structure ScalingList where
  delta_scale : ℕ → ℤ
  delta_mem : ∀ j, -128 ≤ delta_scale j ∧ delta_scale j ≤ 127

/-- The code of a scaling list from an entry on: nothing more is coded once an entry is zero. -/
def ScalingList.bitsFrom (l : ScalingList) : ℕ → ℕ → ℤ → ℤ → List Bool
  | 0, _, _, _ => []
  | size + 1, j, lastScale, nextScale =>
    if nextScale = 0 then []
    else
      let scale := (lastScale + l.delta_scale j + 256) % 256
      seBits (l.delta_scale j) ++
        l.bitsFrom size (j + 1) (if scale = 0 then lastScale else scale) scale

/-- The flag for a list, and the list. -/
def optionalListBits (size : ℕ) : Option ScalingList → List Bool
  | none => [false]
  | some l => true :: l.bitsFrom size 0 8 8

/-- The scaling lists, with `i` the first one. -/
def matrixBitsFrom (lists : ℕ → Option ScalingList) : ℕ → ℕ → List Bool
  | 0, _ => []
  | n + 1, i =>
    optionalListBits (if i < 6 then 16 else 64) (lists i) ++ matrixBitsFrom lists n (i + 1)

/-- What the profiles with a chroma format have. -/
structure ChromaFields where
  chroma_format_idc : ℕ
  separate_colour_plane_flag : Bool
  bit_depth_luma_minus8 : ℕ
  bit_depth_chroma_minus8 : ℕ
  qpprime_y_zero_transform_bypass_flag : Bool
  seq_scaling_matrix : Option (ℕ → Option ScalingList)
  chroma_format_le : chroma_format_idc ≤ 3
  luma_le : bit_depth_luma_minus8 ≤ 6
  chroma_le : bit_depth_chroma_minus8 ≤ 6

namespace ChromaFields

/-- `separate_colour_plane_flag`, where it is there. -/
def planeBits (c : ChromaFields) : List Bool :=
  if c.chroma_format_idc = 3 then [c.separate_colour_plane_flag] else []

/-- The flag for the scaling lists, and the lists. -/
def matrixBits (c : ChromaFields) : List Bool :=
  match c.seq_scaling_matrix with
  | none => [false]
  | some lists => true :: matrixBitsFrom lists (if c.chroma_format_idc = 3 then 12 else 8) 0

def bits (c : ChromaFields) : List Bool :=
  ueBits c.chroma_format_idc ++ (c.planeBits ++ (ueBits c.bit_depth_luma_minus8 ++
    (ueBits c.bit_depth_chroma_minus8 ++
      ([c.qpprime_y_zero_transform_bypass_flag] ++ c.matrixBits))))

/-- `separate_colour_plane_flag`, which is 0 where it is not there. -/
def plane (c : ChromaFields) : ℤ :=
  if c.chroma_format_idc = 3 then c.separate_colour_plane_flag.toNat else 0

end ChromaFields

/-- The forms of the coding of the picture order. -/
inductive PicOrderCnt where
  | type0 (log2_max_pic_order_cnt_lsb_minus4 : ℕ)
  | type1 (delta_pic_order_always_zero_flag : Bool)
      (offset_for_non_ref_pic offset_for_top_to_bottom_field : ℤ) (offset_for_ref_frame : List ℤ)
  | type2

namespace PicOrderCnt

/-- The ranges of the fields. -/
def InRange : PicOrderCnt → Prop
  | type0 n => n ≤ 12
  | type1 _ a b offsets =>
    |a| < 2 ^ 31 ∧ |b| < 2 ^ 31 ∧ offsets.length ≤ 255 ∧ ∀ k ∈ offsets, |k| < 2 ^ 31
  | type2 => True

/-- `pic_order_cnt_type` -/
def type : PicOrderCnt → ℕ
  | type0 _ => 0
  | type1 _ _ _ _ => 1
  | type2 => 2

def bits : PicOrderCnt → List Bool
  | type0 n => ueBits n
  | type1 flag a b offsets =>
    [flag] ++ (seBits a ++ (seBits b ++ (ueBits offsets.length ++ offsets.flatMap seBits)))
  | type2 => []

/-- What of an entry of `m_SPS` is set. -/
def entry : PicOrderCnt → H264SPS → H264SPS
  | type0 n, sps => { sps with log2MaxPicOrderCntLsbMinus4 := n, maxPicOrderCount := 2 ^ (n + 5) }
  | type1 _ _ _ _, sps => sps
  | type2, sps => sps

end PicOrderCnt

/-- The fields of a sequence parameter set down to the size of the frames. -/
structure SeqParameterSet where
  profile_idc : UInt8
  constraint_flags : UInt8
  level_idc : UInt8
  seq_parameter_set_id : ℕ
  chroma : ChromaFields
  log2_max_frame_num_minus4 : ℕ
  picOrder : PicOrderCnt
  max_num_ref_frames : ℕ
  gaps_in_frame_num_value_allowed_flag : Bool
  pic_width_in_mbs_minus1 : ℕ
  pic_height_in_map_units_minus1 : ℕ
  frame_mbs_only_flag : Bool
  mb_adaptive_frame_field_flag : Bool
  id_le : seq_parameter_set_id ≤ 31
  log2_max_frame_num_le : log2_max_frame_num_minus4 ≤ 12
  picOrder_inRange : picOrder.InRange
  max_num_ref_frames_le : max_num_ref_frames < 2 ^ 31 - 1
  /-- the frames have fewer than 2³⁰ columns and lines -/
  width_lt : pic_width_in_mbs_minus1 + 1 < 2 ^ 26
  height_lt : pic_height_in_map_units_minus1 + 1 < 2 ^ 25

namespace SeqParameterSet

/-- What the profiles with a chroma format have, where it is there. -/
def chromaBits (f : SeqParameterSet) : List Bool :=
  if hasChromaFormat f.profile_idc.toNat then f.chroma.bits else []

/-- `mb_adaptive_frame_field_flag`, where it is there. -/
def adaptiveBits (f : SeqParameterSet) : List Bool :=
  if f.frame_mbs_only_flag then [] else [f.mb_adaptive_frame_field_flag]

/-- The fields behind the index. -/
def fieldBits (f : SeqParameterSet) : List Bool :=
  f.chromaBits ++ (ueBits f.log2_max_frame_num_minus4 ++ (ueBits f.picOrder.type ++
    (f.picOrder.bits ++ (ueBits f.max_num_ref_frames ++
      ([f.gaps_in_frame_num_value_allowed_flag] ++ (ueBits f.pic_width_in_mbs_minus1 ++
        (ueBits f.pic_height_in_map_units_minus1 ++
          ([f.frame_mbs_only_flag] ++ f.adaptiveBits))))))))

/-- The coding of the fields. -/
def bits (f : SeqParameterSet) : List Bool :=
  bitsOf [f.profile_idc, f.constraint_flags, f.level_idc] ++
    (ueBits f.seq_parameter_set_id ++ f.fieldBits)

/-- The entry of `m_SPS` for the set, from what it was. -/
def entry (f : SeqParameterSet) (sps : H264SPS) : H264SPS :=
  { f.picOrder.entry { sps with
      separateColorPlaneFlag := if hasChromaFormat f.profile_idc.toNat then f.chroma.plane else 0
      log2MaxFrameNumMinus4 := f.log2_max_frame_num_minus4
      picOrderCountType := f.picOrder.type } with
    frameMBSOnlyFlag := f.frame_mbs_only_flag.toNat }

/-- What should be known when the set has been read. -/
def decoded (f : SeqParameterSet) (s : SequenceInfo) : SequenceInfo where
  m_SPS := Function.update s.m_SPS f.seq_parameter_set_id
    (f.entry (s.m_SPS f.seq_parameter_set_id))
  m_frameWidth := 16 * (f.pic_width_in_mbs_minus1 + 1)
  m_frameHeight :=
    16 * (f.pic_height_in_map_units_minus1 + 1) * (2 - f.frame_mbs_only_flag.toNat)
  m_isInterlaced := !f.frame_mbs_only_flag
  m_isInterlacedKnown := true

/-- The set is read as what it is, with no bit behind its fields looked at. -/
def IsDecoded (f : SeqParameterSet) : Prop :=
  ∀ p rest s, bitsOf p = f.bits ++ rest →
    processSeqParameterSet s p = some ((false, f.decoded s), .atBit f.bits.length)

end SeqParameterSet

/-! ## The fields are read as what they are -/

theorem parses_flag (b : Bool) : Parses (ExpGolomb.getBits 1) [b] b.toNat := by
  have hbit := @parses_getBits [b] (Nat.le_of_ble_eq_true rfl)
  rwa [show natOfBits [b] = b.toNat from by cases b <;> rfl] at hbit

theorem parses_getInt {m : BitRead ℕ} {bits : List Bool} {n : ℕ} (hm : Parses m bits n)
    (h : n < 2 ^ 31) : Parses (getInt m) bits n := by
  have hint := hm.bind (f := fun n : ℕ => (pure (int32 n) : BitRead ℤ)) (Parses.pure _)
  rwa [List.append_nil, int32_of_lt (by omega) (by omega)] at hint

theorem parses_golombInt {v : ℕ} (h : v < 2 ^ 31 - 1) :
    Parses (getInt getUExpGolomb) (ueBits v) v :=
  parses_getInt (parses_getUExpGolomb_of_lt h) (by omega)

theorem parses_flagInt (b : Bool) : Parses (getInt (ExpGolomb.getBits 1)) [b] b.toNat :=
  parses_getInt (parses_flag b) (by cases b <;> decide)

section ScalingLists

variable {lastScale nextScale : ℤ}

/-- Once an entry is zero, nothing more is read. -/
theorem parses_scalingLoop_zero (size : ℕ) : Parses (scalingLoop size lastScale 0) [] () := by
  induction size with
  | zero => exact Parses.pure ()
  | succ size ih => exact Parses.bind (f := fun nextScale : ℤ =>
      scalingLoop size (if nextScale = 0 then lastScale else nextScale) nextScale) (Parses.pure 0) ih

/-- The next entry. The last one is an octet, so that the sum is not negative. -/
theorem parses_stepScale (l : ScalingList) (j : ℕ) (h : nextScale ≠ 0) (hlast : 0 ≤ lastScale)
    (hbyte : lastScale < 256) :
    Parses (stepScale lastScale nextScale) (seBits (l.delta_scale j))
      ((lastScale + l.delta_scale j + 256) % 256) := by
  have hdelta := l.delta_mem j
  have hsmall : |l.delta_scale j| < 2 ^ 30 := by
    rw [abs_lt]
    omega
  have hread := ((parses_getSExpGolomb_iff (by omega)).mpr hsmall).bind (f := fun deltaScale : ℤ =>
    (pure (Int.tmod (int32 (lastScale + deltaScale + 256)) 256) : BitRead ℤ)) (Parses.pure _)
  rw [List.append_nil, int32_of_lt (by omega) (by omega),
    Int.tmod_eq_emod_of_nonneg (by omega)] at hread
  rw [stepScale, if_pos h]
  exact hread

/-- A scaling list from an entry on. -/
theorem parses_scalingLoop (l : ScalingList) : ∀ (size j : ℕ) (lastScale nextScale : ℤ),
    0 ≤ lastScale → lastScale < 256 →
    Parses (scalingLoop size lastScale nextScale) (l.bitsFrom size j lastScale nextScale) () := by
  intro size
  induction size with
  | zero => exact fun _ _ _ _ _ => Parses.pure ()
  | succ size ih =>
    intro j lastScale nextScale hlast hbyte
    rw [ScalingList.bitsFrom]
    split_ifs with hzero
    · rw [hzero]
      exact parses_scalingLoop_zero (size + 1)
    · refine Parses.bind (parses_stepScale l j hzero hlast hbyte) ?_
      split_ifs with hscale
      · exact ih _ _ _ hlast hbyte
      · exact ih _ _ _ (Int.emod_nonneg _ (by decide)) (Int.emod_lt_of_pos _ (by decide))

theorem parses_optionalList (size : ℕ) (l : Option ScalingList) :
    Parses (ExpGolomb.getBits 1 >>= optionalList size) (optionalListBits size l) () := by
  rcases l with _ | l
  · exact (parses_flag false).bind (f := optionalList size) (Parses.pure ())
  · exact (parses_flag true).bind (f := optionalList size)
      (parses_scalingLoop l size 0 8 8 (by decide) (by decide))

theorem parses_scalingLists (lists : ℕ → Option ScalingList) : ∀ n i : ℕ,
    Parses (scalingLists n i) (matrixBitsFrom lists n i) () := by
  intro n
  induction n with
  | zero => exact fun _ => Parses.pure ()
  | succ n ih =>
    intro i
    have hlist := (parses_optionalList (if i < 6 then 16 else 64) (lists i)).bind
      (f := fun _ => scalingLists n (i + 1)) (ih (i + 1))
    rwa [bind_assoc] at hlist

end ScalingLists

section Chroma

variable (c : ChromaFields)

theorem chroma_format_eq_three_iff : (c.chroma_format_idc : ℤ) = 3 ↔ c.chroma_format_idc = 3 := by
  omega

theorem parses_colorPlane : Parses (colorPlane c.chroma_format_idc) c.planeBits c.plane := by
  rw [colorPlane, ChromaFields.planeBits, ChromaFields.plane]
  by_cases h : c.chroma_format_idc = 3
  · rw [if_pos h, if_pos h, if_pos ((chroma_format_eq_three_iff c).mpr h)]
    exact parses_flagInt c.separate_colour_plane_flag
  · rw [if_neg h, if_neg h, if_neg (mt (chroma_format_eq_three_iff c).mp h)]
    exact Parses.pure 0

theorem parses_scalingMatrix :
    Parses (ExpGolomb.getBits 1 >>= scalingMatrix c.chroma_format_idc) c.matrixBits () := by
  rw [ChromaFields.matrixBits]
  rcases c.seq_scaling_matrix with _ | lists
  · exact (parses_flag false).bind (f := scalingMatrix c.chroma_format_idc) (Parses.pure ())
  · refine (parses_flag true).bind (f := scalingMatrix c.chroma_format_idc) ?_
    have himax : (if (c.chroma_format_idc : ℤ) ≠ 3 then 8 else 12) =
        if c.chroma_format_idc = 3 then 12 else 8 := by
      by_cases h : c.chroma_format_idc = 3
      · rw [if_pos h, if_neg fun hne => hne ((chroma_format_eq_three_iff c).mpr h)]
      · rw [if_neg h, if_pos (mt (chroma_format_eq_three_iff c).mp h)]
    rw [scalingMatrix, if_pos (by decide), himax]
    exact parses_scalingLists lists _ 0

theorem parses_chromaFormat : Parses chromaFormat c.bits c.plane := by
  have hformat := c.chroma_format_le
  have hluma := c.luma_le
  have hchroma := c.chroma_le
  refine Parses.bind (parses_golombInt (by omega)) (Parses.bind (parses_colorPlane c)
    (Parses.bind (parses_getUExpGolomb_of_lt (by omega))
      (Parses.bind (parses_getUExpGolomb_of_lt (by omega))
        (Parses.bind (parses_flag _) ?_))))
  have hmatrix := (parses_scalingMatrix c).bind (f := fun _ => (pure c.plane : BitRead ℤ))
    (Parses.pure _)
  rwa [List.append_nil, bind_assoc] at hmatrix

end Chroma

section PicOrder

theorem PicOrderCnt.type_le (o : PicOrderCnt) : o.type ≤ 2 := by
  cases o <;> simp [PicOrderCnt.type]

/-- What stands for a reference frame is read to its end, whatever it is. -/
theorem parses_refFrameOffsets (offsets : List ℤ) (h : ∀ k ∈ offsets, |k| < 2 ^ 31) :
    Parses (refFrameOffsets offsets.length) (offsets.flatMap seBits) () := by
  induction offsets with
  | nil => exact Parses.pure ()
  | cons k offsets ih =>
    have hk := parses_getUExpGolomb (golombPlace_lt (h k List.mem_cons_self))
    exact hk.bind (f := fun _ => refFrameOffsets offsets.length)
      (ih fun k hk => h k (List.mem_cons_of_mem _ hk))

theorem maxPicOrderCount_eq {n : ℕ} (h : n ≤ 12) :
    int32 (2 <<< ((n : ℤ) + 4).toNat) = 2 ^ (n + 5) := by
  have hpow : (2 : ℤ) ^ (n + 5) ≤ 2 ^ 17 := pow_le_pow_right₀ (by decide) (by omega)
  rw [show ((n : ℤ) + 4).toNat = n + 4 by omega, Nat.shiftLeft_eq, ← pow_succ', Nat.cast_pow]
  exact int32_of_lt (pow_pos (by decide) _).le (hpow.trans_lt (by decide))

theorem parses_picOrderFields {o : PicOrderCnt} (h : o.InRange) (sps : H264SPS) :
    Parses (picOrderFields o.type sps) o.bits (o.entry sps) := by
  cases o with
  | type0 n =>
    have hn : n ≤ 12 := h
    have hread := (parses_golombInt (v := n) (by omega)).bind (f := fun k : ℤ =>
      (pure { sps with
        log2MaxPicOrderCntLsbMinus4 := k
        maxPicOrderCount := int32 (2 <<< (k + 4).toNat) } : BitRead H264SPS)) (Parses.pure _)
    rw [List.append_nil, maxPicOrderCount_eq hn] at hread
    exact hread
  | type1 flag a b offsets =>
    obtain ⟨ha, hb, hlen, hoffsets⟩ := h
    refine Parses.bind (parses_flag flag) (Parses.bind (parses_getSExpGolomb ha)
      (Parses.bind (parses_getSExpGolomb hb) (Parses.bind (parses_golombInt (by omega)) ?_)))
    have hloop := (parses_refFrameOffsets offsets hoffsets).bind
      (f := fun _ => (pure sps : BitRead H264SPS)) (Parses.pure sps)
    rw [List.append_nil] at hloop
    exact hloop
  | type2 => exact Parses.pure sps

end PicOrder

namespace SeqParameterSet

variable (f : SeqParameterSet)

theorem parses_chromaFields :
    Parses (chromaFields f.profile_idc.toNat) f.chromaBits
      (if hasChromaFormat f.profile_idc.toNat then f.chroma.plane else 0) := by
  rw [chromaFields, chromaBits]
  split_ifs
  · exact parses_chromaFormat f.chroma
  · exact Parses.pure 0

theorem parses_adaptiveFlag :
    Parses (adaptiveFlag f.frame_mbs_only_flag.toNat) f.adaptiveBits
      (if f.frame_mbs_only_flag then 0 else f.mb_adaptive_frame_field_flag.toNat) := by
  rw [adaptiveFlag, adaptiveBits]
  rcases f.frame_mbs_only_flag with _ | _
  · exact parses_flag _
  · exact Parses.pure 0

theorem frameHeight_eq :
    frameHeight f.pic_height_in_map_units_minus1 f.frame_mbs_only_flag.toNat =
      16 * (f.pic_height_in_map_units_minus1 + 1) * (2 - f.frame_mbs_only_flag.toNat) := by
  have hheight := f.height_lt
  have hlines : int32 (((f.pic_height_in_map_units_minus1 : ℤ) + 1) * 16) =
      (f.pic_height_in_map_units_minus1 + 1) * 16 := int32_of_lt (by omega) (by omega)
  rw [frameHeight, hlines]
  rcases f.frame_mbs_only_flag with _ | _
  · rw [Bool.toNat_false, Nat.cast_zero, if_pos rfl, int32_of_lt (by omega) (by omega)]
    omega
  · rw [Bool.toNat_true, Nat.cast_one, if_neg (by decide)]
    omega

/-- What is known from the fields, when they are read as what they are. -/
theorem set_eq (s : SequenceInfo) :
    s.set f.seq_parameter_set_id
      (f.picOrder.entry { s.m_SPS f.seq_parameter_set_id with
        separateColorPlaneFlag := if hasChromaFormat f.profile_idc.toNat then f.chroma.plane else 0
        log2MaxFrameNumMinus4 := f.log2_max_frame_num_minus4
        picOrderCountType := f.picOrder.type })
      f.pic_width_in_mbs_minus1 f.pic_height_in_map_units_minus1 f.frame_mbs_only_flag.toNat =
      f.decoded s := by
  have hwidth := f.width_lt
  have hinterlaced : decide ((f.frame_mbs_only_flag.toNat : ℤ) = 0) = !f.frame_mbs_only_flag := by
    cases f.frame_mbs_only_flag <;> rfl
  rw [SequenceInfo.set, decoded, f.frameHeight_eq, hinterlaced, int32_of_lt (by omega) (by omega),
    Int.mul_comm _ 16]
  rfl

/-- The fields behind the index. -/
theorem parses_setFields (s : SequenceInfo) :
    Parses (setFields f.profile_idc.toNat s f.seq_parameter_set_id) f.fieldBits
      (false, f.decoded s) := by
  have hframeNum := f.log2_max_frame_num_le
  have htype := f.picOrder.type_le
  have hwidth := f.width_lt
  have hheight := f.height_lt
  refine Parses.bind f.parses_chromaFields (Parses.bind (parses_golombInt (by omega))
    (Parses.bind (parses_golombInt (by omega))
    (Parses.bind (parses_picOrderFields f.picOrder_inRange _)
    (Parses.bind (parses_getUExpGolomb_of_lt f.max_num_ref_frames_le) (Parses.bind (parses_flag _)
    (Parses.bind (parses_golombInt (by omega)) (Parses.bind (parses_golombInt (by omega))
    (Parses.bind (parses_flagInt _) ?_))))))))
  rw [← f.set_eq s]
  have hend := f.parses_adaptiveFlag.bind
    (f := fun _ => (pure (false, f.decoded s) : BitRead (Bool × SequenceInfo))) (Parses.pure _)
  rw [List.append_nil, ← f.set_eq s] at hend
  exact hend

theorem parses_setData (s : SequenceInfo) :
    Parses (setData f.profile_idc.toNat s) (ueBits f.seq_parameter_set_id ++ f.fieldBits)
      (false, f.decoded s) := by
  have hid := f.id_le
  refine Parses.bind (parses_getUExpGolomb_of_lt (by omega)) ?_
  rw [if_pos (by omega)]
  exact f.parses_setFields s

/-- **Reading a set.** What is in it becomes known, whatever is behind it. -/
theorem isDecoded : f.IsDecoded := by
  intro p rest s h
  rw [bits, List.append_assoc] at h
  have hprofile : p[0]? = some f.profile_idc := by
    obtain ⟨zs, rfl⟩ := exists_append_of_bitsOf_eq _ h
    rfl
  have hdata : (bitsOf p).drop 24 = ueBits f.seq_parameter_set_id ++ f.fieldBits ++ rest := by
    rw [h]
    exact List.drop_left' (length_bitsOf _)
  have hread := f.parses_setData s p 24 rest hdata
  rw [processSeqParameterSet, hprofile, bits, List.length_append, length_bitsOf]
  exact hread

/-- **What is read as what it is.** Sets of parameters are, and so are numbers in their codes,
but signed ones only if the codes have at most thirty zeros. A code with one more is read to
its end, and the number is lost; a set is none the worse for it, since it has such codes only
for numbers nothing is done with. -/
theorem decodes_and_inverts_iff {u : ℕ} {k : ℤ} (hu : u < 2 ^ 31 - 1) (hk : |k| < 2 ^ 31) :
    (f.IsDecoded ∧ Parses getUExpGolomb (ueBits u) u ∧ Parses getSExpGolomb (seBits k) k) ↔
      |k| < 2 ^ 30 := by
  rw [parses_getSExpGolomb_iff hk]
  constructor
  · exact fun h => h.2.2
  · exact fun h => ⟨f.isDecoded, parses_getUExpGolomb_of_lt hu, h⟩

/-- A set for 640 columns and 480 lines, with field coding. -/
def vga : SeqParameterSet where
  profile_idc := 100
  constraint_flags := 0
  level_idc := 30
  seq_parameter_set_id := 0
  chroma :=
    { chroma_format_idc := 1
      separate_colour_plane_flag := false
      bit_depth_luma_minus8 := 0
      bit_depth_chroma_minus8 := 0
      qpprime_y_zero_transform_bypass_flag := false
      seq_scaling_matrix := none
      chroma_format_le := by decide
      luma_le := by decide
      chroma_le := by decide }
  log2_max_frame_num_minus4 := 0
  picOrder := .type1 false 0 0 [-2 ^ 30]
  max_num_ref_frames := 4
  gaps_in_frame_num_value_allowed_flag := false
  pic_width_in_mbs_minus1 := 39
  pic_height_in_map_units_minus1 := 14
  frame_mbs_only_flag := false
  mb_adaptive_frame_field_flag := true
  id_le := by decide
  log2_max_frame_num_le := by decide
  picOrder_inRange := by
    refine ⟨by decide, by decide, by decide, ?_⟩
    rw [List.forall_mem_singleton]
    decide
  max_num_ref_frames_le := by decide
  width_lt := by decide
  height_lt := by decide

theorem decodes_and_inverts_vga :
    vga.IsDecoded ∧ Parses getUExpGolomb (ueBits 39) 39 ∧ Parses getSExpGolomb (seBits (-3)) (-3) :=
  (vga.decodes_and_inverts_iff (by decide) (by decide)).mpr (by decide)

/-- The code of 2³⁰, and a bit to fill the last octet. -/
def longCode : List UInt8 := [0, 0, 0, 1, 0, 0, 0, 0]

/-- It is read to its end, as zero. -/
theorem longCode_read_as_zero :
    bitsOf longCode = seBits (2 ^ 30) ++ [false] ∧
      getSExpGolomb longCode (.atBit 0) = some (0, .atBit 63) ∧
      ¬ Parses getSExpGolomb (seBits (2 ^ 30)) (2 ^ 30) := by
  refine ⟨by decide +kernel, by decide +kernel, ?_⟩
  rw [parses_getSExpGolomb_iff (by decide)]
  decide

end SeqParameterSet

end MediaFramework
