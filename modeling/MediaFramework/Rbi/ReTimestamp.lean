import MediaFramework.Lib.Run
import MediaFramework.Rbi.TsPacket

/-!
# Re-timing an ad (`RBIStreamProcessor::reTimestamp`)

While an ad replaces the programme, the time stamps of its packets are rewritten
to go on where the programme's clock stands: a PCR from the ad's base PCR to the
segment's, a PTS or DTS from the ad's base time to the segment's. The bases are
set by the first packet of the spot, and the PCR's once more by the first PCR.

What the rewriting is for is to add one offset to each clock, modulo 2^33. The
code computes the distance from the base, adds one half and drops the fraction,
which is the distance itself when it is not negative and one tick too many when
it is; and it compares clocks that may have wrapped without regard to the wrap.
-/

namespace MediaFramework

/-- The bases PTS and DTS are mapped with. -/
structure TimeBases where
  haveBaseTime : Bool
  baseTime : ℤ
  segmentBaseTime : ℤ
  prevAdBaseTime : ℤ
  prevAdSegmentBaseTime : ℤ
  deriving DecidableEq

/-- The bases a PCR is mapped with. -/
structure PcrBases where
  haveSegmentBasePCRAfterTransitionToAd : Bool
  basePCR : ℤ
  segmentBasePCR : ℤ
  deriving DecidableEq

/-- The fields of `RBIStreamProcessor` that `reTimestamp` writes. -/
structure AdClock extends TimeBases, PcrBases where
  currentMappedPTS : ℤ
  currentMappedPCR : ℤ
  currentInsertPCR : ℤ
  lastAdPCR : ℤ
  mapStartPCR : ℤ
  prevCurrentPCR : ℤ
  lastAdVideoFramePTS : ℤ
  adVideoPktsDelayed : Bool
  adAudioPktsDelayed : Bool
  adVideoPktsTooFast : Bool
  adVideoPktsDelayedPCRBased : Bool
  deriving DecidableEq

/-- A call of `reTimestamp`: the packet, and what is only read. -/
structure AdPacket where
  packet : Packet
  /-- `m_insertSrc->startPTS()` -/
  startPTS : ℤ
  /-- `m_insertSrc->startPCR()` -/
  startPCR : ℤ
  ttsInsert : UInt32
  lastMappedPCRTTSValue : UInt32
  firstAdPacketAfterTransitionTTSValue : ℤ
  currentPCR : ℤ
  b2bSavedAudioPacketsCnt : ℕ
  pcrPid : ℤ
  videoPid : ℤ
  audioPid : ℤ
  adVideoFrameCount : UInt32
  netReplaceableVideoFramesCnt : UInt32
  /-- how many frames the ad is behind the clock -/
  timeDeltaFrames : ℤ

/-- The packet is one of the previous ad's audio, saved when that ad was cut off. -/
def AdPacket.savedAudio (c : AdPacket) : Bool :=
  decide ((c.packet.pid : ℤ) = c.audioPid) && decide (0 < c.b2bSavedAudioPacketsCnt)

/-- `(long long)( timeOffset + 0.5 )`: the sum is a `double`, and the conversion
drops its fraction, toward zero. -/
def roundHalf (timeOffset : ℤ) : ℤ := (2 * timeOffset + 1).tdiv 2

namespace AdClock

/-- The first packet of the spot sets the bases. -/
def setBases (s : AdClock) (c : AdPacket) : AdClock :=
  if s.haveBaseTime then s
  else
    let ttsDelta := (c.ttsInsert - c.lastMappedPCRTTSValue).toNat
    let segmentBasePCR :=
      if ttsDelta / (300 * 90000) < 1 then s.currentMappedPCR + (ttsDelta / 300 : ℕ)
      else s.segmentBasePCR
    { s with
      haveBaseTime := true
      prevAdBaseTime := if 0 < c.b2bSavedAudioPacketsCnt then s.baseTime else s.prevAdBaseTime
      prevAdSegmentBaseTime :=
        if 0 < c.b2bSavedAudioPacketsCnt then s.segmentBaseTime else s.prevAdSegmentBaseTime
      baseTime := c.startPTS
      -- `(long long)( 90000 / VIDEO_FRAME_RATE )`
      segmentBaseTime := s.currentMappedPTS + 1501
      basePCR := c.startPCR
      segmentBasePCR := segmentBasePCR
      currentMappedPCR := segmentBasePCR }

/-! ## The PCR -/

/-- `rateAdjustedPCR` before the clamp, and the bases it may set. -/
def mapPCR (s : AdClock) (c : AdPacket) (adPCR : ℤ) : AdClock × ℤ :=
  if !s.haveSegmentBasePCRAfterTransitionToAd then
    let ttsDelta := (c.ttsInsert.toNat : ℤ) - c.firstAdPacketAfterTransitionTTSValue
    let rateAdjustedPCR := mask90k (s.segmentBasePCR + ttsDelta.tdiv 300)
    ({ s with
      haveSegmentBasePCRAfterTransitionToAd := true
      segmentBasePCR := rateAdjustedPCR
      basePCR := adPCR }, rateAdjustedPCR)
  else if s.adVideoPktsDelayed || s.adAudioPktsDelayed || s.adVideoPktsTooFast ||
      s.adVideoPktsDelayedPCRBased then
    let timeOffset := (c.ttsInsert - c.lastMappedPCRTTSValue).toNat / 300
    let rateAdjustedPCR := mask90k (roundHalf timeOffset + s.currentMappedPCR)
    ({ s with segmentBasePCR := rateAdjustedPCR, basePCR := adPCR }, rateAdjustedPCR)
  else (s, mask90k (roundHalf (adPCR - s.basePCR) + s.segmentBasePCR))

/-- The clamp to `m_mapStartPCR`. -/
def clampPCR (s : AdClock) (rateAdjustedPCR : ℤ) : AdClock × ℤ :=
  if rateAdjustedPCR < s.mapStartPCR then
    let mapStartPCR := mask90k (s.mapStartPCR + 10)
    ({ s with mapStartPCR := mapStartPCR }, mapStartPCR)
  else (s, rateAdjustedPCR)

/-- A new PCR of the programme: is the ad's PCR more than 0.2 s off it? -/
def paceVideo (s : AdClock) (c : AdPacket) : AdClock :=
  if c.currentPCR = s.prevCurrentPCR then s
  else
    let adNetPCRDelta := s.currentMappedPCR - c.currentPCR
    let s := { s with prevCurrentPCR := c.currentPCR }
    if c.adVideoFrameCount < c.netReplaceableVideoFramesCnt - 120 then
      let s :=
        if !s.adVideoPktsDelayedPCRBased && !s.adVideoPktsTooFast && adNetPCRDelta > 18000 then
          { s with adVideoPktsDelayedPCRBased := true }
        else if s.adVideoPktsDelayedPCRBased && adNetPCRDelta < 0 then
          { s with adVideoPktsDelayedPCRBased := false }
        else s
      if !s.adVideoPktsTooFast && adNetPCRDelta < -18000 then
        { s with adVideoPktsDelayedPCRBased := false, adVideoPktsTooFast := true }
      else if s.adVideoPktsTooFast && adNetPCRDelta > 0 then
        { s with adVideoPktsTooFast := false }
      else s
    else s

/-- What else is done with a PCR. -/
def notePCR (s : AdClock) (adPCR : ℤ) : AdClock :=
  { s with lastAdPCR := adPCR, currentInsertPCR := adPCR }

/-- The PCR part of `reTimestamp`; the sync byte becomes the PCR's tag. -/
def rewritePCR (s : AdClock) (c : AdPacket) (p : Packet) : AdClock × Packet :=
  if p.hasPcr then
    let adPCR : ℤ := p.readPCR 6
    let mapped := (s.notePCR adPCR).mapPCR c adPCR
    let clamped := mapped.1.clampPCR mapped.2
    ({ clamped.1 with currentMappedPCR := clamped.2 }.paceVideo c,
      store (p.writePCR 6 clamped.2.toNat) 0 [0x48])
  else (s, p)

/-! ## PTS and DTS -/

/-- `rateAdjustedPTS` and `rateAdjustedDTS` -/
def mapTime (s : AdClock) (c : AdPacket) (pid t : ℤ) : ℤ :=
  if pid = c.audioPid ∧ 0 < c.b2bSavedAudioPacketsCnt then
    mask90k (roundHalf (t - s.prevAdBaseTime) + s.prevAdSegmentBaseTime)
  else mask90k (roundHalf (t - s.baseTime) + s.segmentBaseTime)

/-- What else is done with a PTS. -/
def notePTS (s : AdClock) (c : AdPacket) (pid pts rateAdjustedPTS : ℤ) : AdClock :=
  let s := if pid = c.pcrPid then { s with currentMappedPTS := rateAdjustedPTS } else s
  if pid = c.videoPid then
    let s := { s with lastAdVideoFramePTS := pts }
    if c.adVideoFrameCount ≥ c.netReplaceableVideoFramesCnt - 120 then
      { s with
        adVideoPktsDelayed :=
          if !s.adVideoPktsDelayed && c.timeDeltaFrames > 8 then true
          else if s.adVideoPktsDelayed && c.timeDeltaFrames < -4 then false
          else s.adVideoPktsDelayed
        adVideoPktsTooFast := false
        adVideoPktsDelayedPCRBased := false }
    else s
  else s

/-- Is the audio late for the PCR, or in the last frames less than 0.5 s ahead? -/
def paceAudio (s : AdClock) (c : AdPacket) (pid rateAdjustedDTS : ℤ) : AdClock :=
  if s.currentMappedPCR ≠ -1 ∧ pid = c.audioPid ∧ rateAdjustedDTS ≠ 0 then
    let lastFrames := decide (c.adVideoFrameCount ≥ c.netReplaceableVideoFramesCnt - 120)
    let ahead := rateAdjustedDTS - s.currentMappedPCR
    if !s.adAudioPktsDelayed &&
        (decide (s.currentMappedPCR > rateAdjustedDTS) || lastFrames && ahead < 45000) then
      { s with adAudioPktsDelayed := true, adVideoPktsTooFast := false }
    else if s.adAudioPktsDelayed &&
        (!lastFrames && decide (s.currentMappedPCR ≤ rateAdjustedDTS) ||
          lastFrames && ahead > 54000) then
      { s with adAudioPktsDelayed := false }
    else s
  else s

/-- `writeTimeStamp( &packet[pos], packet[pos]>>4, ts )` -/
def restamp (p : Packet) (pos : ℕ) (ts : ℤ) : Packet :=
  p.writeTimeStamp pos ((p pos).toNat >>> 4) ts.toNat

/-- The PTS and DTS part of `reTimestamp`. The header is read before and after
the PTS is written, which lies behind it. -/
def rewriteTimes (s : AdClock) (c : AdPacket) (p : Packet) : AdClock × Packet :=
  if p.pesStart then
    let pid : ℤ := p.pid
    let tsbase := p.payload + 9
    let pts : ℤ := if p.hasPts then s.mapTime c pid (p.readTimeStamp tsbase) else 0
    let s₁ := if p.hasPts then s.notePTS c pid (p.readTimeStamp tsbase) pts else s
    let p₁ := if p.hasPts then restamp p tsbase pts else p
    let tsbase := if p.hasPts then tsbase + 5 else tsbase
    let dts : ℤ := if p.hasDts then s₁.mapTime c pid (p₁.readTimeStamp tsbase) else 0
    let p₂ := if p.hasDts then restamp p₁ tsbase dts else p₁
    (s₁.paceAudio c pid (if dts = 0 then pts else dts), p₂)
  else (s, p)

/-- `reTimestamp`, which is always called with one packet. -/
def reTimestamp (s : AdClock) (c : AdPacket) : AdClock × Packet :=
  let s := s.setBases c
  let (s, p) := s.rewritePCR c c.packet
  s.rewriteTimes c p

end AdClock

/-! ## What a rewritten packet is -/

namespace Packet

/-- Where the packet has a PTS or a DTS. -/
def timeStamps (p : Packet) : List ℕ :=
  if p.pesStart then
    let tsbase := p.payload + 9
    (if p.hasPts then [tsbase] else []) ++
      (if p.hasDts then [if p.hasPts then tsbase + 5 else tsbase] else [])
  else []

/-- Byte `i` belongs to the packet's PCR base, its PTS or its DTS, or is the sync
byte that becomes the tag of a PCR. -/
def IsTimeByte (p : Packet) (i : ℕ) : Prop :=
  (p.hasPcr = true ∧ (i = 0 ∨ 6 ≤ i ∧ i < 11)) ∨ ∃ pos ∈ p.timeStamps, pos ≤ i ∧ i < pos + 5

/-- `out` is `p` with one offset added to its PCR and one to its PTS and DTS. -/
structure Shifted (offPCR offTime : ℤ) (p out : Packet) : Prop where
  pcr : p.hasPcr = true → (out.readPCR 6 : ℤ) = mask90k (p.readPCR 6 + offPCR)
  /-- the reserved bits and the extension behind the PCR base are kept -/
  pcrExtension : p.hasPcr = true → (out 10).toNat % 128 = (p 10).toNat % 128
  tag : p.hasPcr = true → out 0 = 0x48
  time : ∀ pos ∈ p.timeStamps,
    (out.readTimeStamp pos : ℤ) = mask90k (p.readTimeStamp pos + offTime)
  /-- the four bits in front of a time stamp are kept -/
  guardBits : ∀ pos ∈ p.timeStamps, (out pos).toNat >>> 4 = (p pos).toNat >>> 4
  rest : ∀ i, ¬ p.IsTimeByte i → out i = p i
  /-- nothing is written behind the packet -/
  behind : ∀ i, 188 ≤ i → out i = p i

/-- Without a PCR, the offset of the PCR does not matter. -/
theorem Shifted.of_no_pcr {offPCR offPCR' offTime : ℤ} {p out : Packet}
    (h : Shifted offPCR offTime p out) (hno : p.hasPcr = false) :
    Shifted offPCR' offTime p out where
  pcr := fun hpcr => absurd (hno.symm.trans hpcr) Bool.false_ne_true
  pcrExtension := h.pcrExtension
  tag := h.tag
  time := h.time
  guardBits := h.guardBits
  rest := h.rest
  behind := h.behind

theorem payload_le_of_mem {p : Packet} {pos : ℕ} (h : pos ∈ p.timeStamps) :
    p.payload + 9 ≤ pos := by
  unfold timeStamps at h
  split_ifs at h <;> simp at h <;> omega

/-- The time stamps are found from the header and the payload. -/
theorem timeStamps_congr {p q : Packet} (hhead : ∀ i, 1 ≤ i → i < 6 → q i = p i)
    (hpayload : ∀ i, p.payload ≤ i → q i = p i) :
    q.pid = p.pid ∧ q.timeStamps = p.timeStamps := by
  have h₁ : q 1 = p 1 := hhead 1 (by decide) (by decide)
  have h₂ : q 2 = p 2 := hhead 2 (by decide) (by decide)
  have h₃ : q 3 = p 3 := hhead 3 (by decide) (by decide)
  have h₄ : q 4 = p 4 := hhead 4 (by decide) (by decide)
  have hadapt : q.hasAdaptation = p.hasAdaptation := by simp only [hasAdaptation, adaptation, h₃]
  have hpay : q.payload = p.payload := by rw [payload, payload, hadapt, h₄]
  have hat : ∀ k, q (p.payload + k) = p (p.payload + k) := fun k =>
    hpayload _ (Nat.le_add_right _ k)
  have hstart : q.pesStart = p.pesStart := by
    simp only [pesStart, payloadStart, hpay, h₁, hat, hpayload p.payload (Nat.le_refl _)]
  have hpts : q.hasPts = p.hasPts := by simp only [hasPts, hpay, hat]
  have hdts : q.hasDts = p.hasDts := by simp only [hasDts, hpay, hat]
  refine ⟨by simp only [pid, h₁, h₂], ?_⟩
  rw [timeStamps, timeStamps, hstart, hpts, hdts, hpay]

end Packet

/-- The offset of a PCR: segment base minus ad base. -/
def PcrBases.offset (b : PcrBases) : ℤ := b.segmentBasePCR - b.basePCR

/-- The offset of a PTS or DTS: segment base minus ad base, of the ad the packet
is from. -/
def TimeBases.offset (b : TimeBases) (savedAudio : Bool) : ℤ :=
  if savedAudio then b.prevAdSegmentBaseTime - b.prevAdBaseTime
  else b.segmentBaseTime - b.baseTime

namespace AdClock

/-! ## Arithmetic -/

theorem roundHalf_of_nonneg {t : ℤ} (h : 0 ≤ t) : roundHalf t = t := by
  rw [roundHalf, Int.tdiv_eq_ediv_of_nonneg (by omega)]
  omega

theorem mask90k_eq (t : ℤ) : mask90k t = t % 2 ^ 33 := rfl

/-- A masked value fits a time stamp. -/
theorem mask90k_range (t : ℤ) : 0 ≤ mask90k t ∧ (mask90k t).toNat < 2 ^ 33 := by
  rw [mask90k_eq]
  omega

/-- Behind the base, the half is not dropped but made a whole. -/
theorem roundHalf_of_neg {t : ℤ} (h : t < 0) : roundHalf t = t + 1 := by
  have hneg : 2 * t + 1 = -(-(2 * t + 1)) := (Int.neg_neg _).symm
  rw [roundHalf, hneg, Int.neg_tdiv, Int.tdiv_eq_ediv_of_nonneg (by omega)]
  omega

/-- Mapping from a base adds the offset of the bases, unless the base is ahead. -/
theorem mapped_eq_iff {base segmentBase t : ℤ} :
    mask90k (roundHalf (t - base) + segmentBase) = mask90k (t + (segmentBase - base)) ↔
      base ≤ t := by
  rcases Int.lt_or_le t base with hlt | hle
  · refine iff_of_false (fun h => ?_) (by omega)
    rw [roundHalf_of_neg (by omega), mask90k_eq, mask90k_eq] at h
    omega
  · refine iff_of_true ?_ hle
    rw [roundHalf_of_nonneg (by omega)]
    congr 1
    omega

/-! ## The bases along a call -/

theorem setBases_of_have {s : AdClock} (c : AdPacket) (h : s.haveBaseTime = true) :
    s.setBases c = s := if_pos h

theorem setBases_haveBaseTime (s : AdClock) (c : AdPacket) :
    (s.setBases c).haveBaseTime = true := by
  rcases h : s.haveBaseTime with _ | _
  · simp [setBases, h]
  · rw [setBases_of_have c h, h]

@[simp] theorem paceVideo_timeBases (s : AdClock) (c : AdPacket) :
    (s.paceVideo c).toTimeBases = s.toTimeBases := by
  simp [paceVideo, apply_ite AdClock.toTimeBases]

@[simp] theorem paceVideo_pcrBases (s : AdClock) (c : AdPacket) :
    (s.paceVideo c).toPcrBases = s.toPcrBases := by
  simp [paceVideo, apply_ite AdClock.toPcrBases]

@[simp] theorem notePTS_timeBases (s : AdClock) (c : AdPacket) (pid pts t : ℤ) :
    (s.notePTS c pid pts t).toTimeBases = s.toTimeBases := by
  simp [notePTS, apply_ite AdClock.toTimeBases]

@[simp] theorem notePTS_pcrBases (s : AdClock) (c : AdPacket) (pid pts t : ℤ) :
    (s.notePTS c pid pts t).toPcrBases = s.toPcrBases := by
  simp [notePTS, apply_ite AdClock.toPcrBases]

@[simp] theorem paceAudio_timeBases (s : AdClock) (c : AdPacket) (pid t : ℤ) :
    (s.paceAudio c pid t).toTimeBases = s.toTimeBases := by
  simp [paceAudio, apply_ite AdClock.toTimeBases]

@[simp] theorem paceAudio_pcrBases (s : AdClock) (c : AdPacket) (pid t : ℤ) :
    (s.paceAudio c pid t).toPcrBases = s.toPcrBases := by
  simp [paceAudio, apply_ite AdClock.toPcrBases]

theorem clampPCR_of_le {s : AdClock} {t : ℤ} (h : s.mapStartPCR ≤ t) :
    s.clampPCR t = (s, t) := if_neg (by omega)

/-! ## One call -/

/-- None of the delayed and too-fast flags is set. -/
def FlagsClear (s : AdClock) : Prop :=
  s.adVideoPktsDelayed = false ∧ s.adAudioPktsDelayed = false ∧ s.adVideoPktsTooFast = false ∧
    s.adVideoPktsDelayedPCRBased = false

instance (s : AdClock) : Decidable s.FlagsClear := inferInstanceAs (Decidable (_ ∧ _))

/-- The ad's base PCR, once the bases are set. -/
def adBasePCR (s : AdClock) (c : AdPacket) : ℤ :=
  if s.haveBaseTime then s.basePCR else c.startPCR

/-- The base time of the ad the packet is from, once the bases are set. -/
def adBaseTime (s : AdClock) (c : AdPacket) : ℤ :=
  if c.savedAudio then if s.haveBaseTime then s.prevAdBaseTime else s.baseTime
  else if s.haveBaseTime then s.baseTime else c.startPTS

/-- The segment's base PCR, once the bases are set: where the programme's clock
stands less than a second after the last mapped PCR. -/
def segmentPCR (s : AdClock) (c : AdPacket) : ℤ :=
  let ttsDelta := (c.ttsInsert - c.lastMappedPCRTTSValue).toNat
  if s.haveBaseTime = false ∧ ttsDelta / (300 * 90000) < 1 then
    s.currentMappedPCR + (ttsDelta / 300 : ℕ)
  else s.segmentBasePCR

/-- The place of the packet's PCR on the programme's clock: the segment's base
for the first one, later ones as far behind it as they are behind the ad's. -/
def placePCR (s : AdClock) (c : AdPacket) : ℤ :=
  if s.haveSegmentBasePCRAfterTransitionToAd then
    mask90k (c.packet.readPCR 6 + (s.segmentPCR c - s.adBasePCR c))
  else mask90k (s.segmentPCR c +
    ((c.ttsInsert.toNat : ℤ) - c.firstAdPacketAfterTransitionTTSValue).tdiv 300)

/-- No time stamp of the packet is behind its base, the PCR's place is not below
`m_mapStartPCR`, the adaptation field holds the PCR it announces, and the packet
the time stamps that its PES header does. -/
structure InOrder (s : AdClock) (c : AdPacket) : Prop where
  flags : s.FlagsClear
  pcr_inside : c.packet.hasPcr = true → 11 ≤ c.packet.payload
  time_inside : ∀ pos ∈ c.packet.timeStamps, pos + 5 ≤ 188
  pcr_ahead : c.packet.hasPcr = true → s.haveSegmentBasePCRAfterTransitionToAd = true →
    s.adBasePCR c ≤ c.packet.readPCR 6
  pcr_unclamped : c.packet.hasPcr = true → s.mapStartPCR ≤ s.placePCR c
  time_ahead : ∀ pos ∈ c.packet.timeStamps, s.adBaseTime c ≤ c.packet.readTimeStamp pos

instance (s : AdClock) (c : AdPacket) : Decidable (s.InOrder c) :=
  decidable_of_iff (s.FlagsClear ∧ (c.packet.hasPcr = true → 11 ≤ c.packet.payload) ∧
      (∀ pos ∈ c.packet.timeStamps, pos + 5 ≤ 188) ∧
      (c.packet.hasPcr = true → s.haveSegmentBasePCRAfterTransitionToAd = true →
        s.adBasePCR c ≤ c.packet.readPCR 6) ∧
      (c.packet.hasPcr = true → s.mapStartPCR ≤ s.placePCR c) ∧
      ∀ pos ∈ c.packet.timeStamps, s.adBaseTime c ≤ c.packet.readTimeStamp pos)
    ⟨fun ⟨h₁, h₂, h₃, h₄, h₅, h₆⟩ => ⟨h₁, h₂, h₃, h₄, h₅, h₆⟩, fun h =>
      ⟨h.flags, h.pcr_inside, h.time_inside, h.pcr_ahead, h.pcr_unclamped, h.time_ahead⟩⟩

/-- The bases set by the first packet are those of the ad it is from. -/
theorem setBases_spec (s : AdClock) (c : AdPacket) :
    (s.setBases c).basePCR = s.adBasePCR c ∧
      (s.setBases c).mapStartPCR = s.mapStartPCR ∧
      (s.setBases c).haveSegmentBasePCRAfterTransitionToAd =
        s.haveSegmentBasePCRAfterTransitionToAd ∧
      (s.FlagsClear → (s.setBases c).FlagsClear) ∧
      (if c.savedAudio then (s.setBases c).prevAdBaseTime else (s.setBases c).baseTime) =
        s.adBaseTime c := by
  rcases h : s.haveBaseTime with _ | _
  · refine ⟨?_, ?_, ?_, ?_, ?_⟩
    · simp [setBases, adBasePCR, h]
    · simp [setBases, h]
    · simp [setBases, h]
    · intro hflags
      simpa [setBases, h, FlagsClear] using hflags
    · rcases hsaved : c.savedAudio with _ | _
      · simp [setBases, adBaseTime, h, hsaved]
      · have hcnt : 0 < c.b2bSavedAudioPacketsCnt := by
          simp only [AdPacket.savedAudio, Bool.and_eq_true, decide_eq_true_eq] at hsaved
          exact hsaved.2
        simp [setBases, adBaseTime, h, hsaved, hcnt]
  · rw [setBases_of_have c h]
    refine ⟨?_, rfl, rfl, id, ?_⟩
    · simp [adBasePCR, h]
    · simp [adBaseTime, h]

/-- Mapping a PCR adds the offset of the bases, which only the first one sets. -/
theorem mapPCR_spec {s : AdClock} (c : AdPacket) {adPCR : ℤ} (hflags : s.FlagsClear)
    (hahead : s.haveSegmentBasePCRAfterTransitionToAd = true → s.basePCR ≤ adPCR) :
    (s.mapPCR c adPCR).2 = mask90k (adPCR + (s.mapPCR c adPCR).1.toPcrBases.offset) ∧
      (s.mapPCR c adPCR).1.haveSegmentBasePCRAfterTransitionToAd = true ∧
      (s.mapPCR c adPCR).1.toTimeBases = s.toTimeBases ∧
      (s.mapPCR c adPCR).1.mapStartPCR = s.mapStartPCR ∧
      (s.haveSegmentBasePCRAfterTransitionToAd = true →
        (s.mapPCR c adPCR).1.toPcrBases = s.toPcrBases) := by
  rcases h : s.haveSegmentBasePCRAfterTransitionToAd with _ | _
  · -- the first PCR is mapped to the segment's base
    rw [mapPCR, if_pos (by simp [h])]
    refine ⟨?_, rfl, rfl, rfl, fun hno => absurd hno Bool.false_ne_true⟩
    simp only [PcrBases.offset, mask90k_eq]
    omega
  · obtain ⟨h₁, h₂, h₃, h₄⟩ := hflags
    rw [mapPCR, if_neg (by simp [h]), if_neg (by simp [h₁, h₂, h₃, h₄])]
    exact ⟨mapped_eq_iff.mpr (hahead h), h, rfl, rfl, fun _ => rfl⟩

/-- A PCR in order is mapped to its place. -/
theorem mapPCR_place {s : AdClock} {c : AdPacket} (h : s.InOrder c)
    (hpcr : c.packet.hasPcr = true) :
    ((s.setBases c).mapPCR c (c.packet.readPCR 6)).2 = s.placePCR c := by
  obtain ⟨hbase, -, hhave, hflags, -⟩ := setBases_spec s c
  have hsegment : (s.setBases c).segmentBasePCR = s.segmentPCR c := by
    rcases hset : s.haveBaseTime with _ | _
    · simp [setBases, segmentPCR, hset]
    · rw [setBases_of_have c hset, segmentPCR, if_neg (by simp [hset])]
  rcases hfirst : s.haveSegmentBasePCRAfterTransitionToAd with _ | _
  · rw [mapPCR, if_pos (by rw [hhave, hfirst]; rfl), placePCR, if_neg (by simp [hfirst]), hsegment]
  · have hahead := h.pcr_ahead hpcr hfirst
    rw [← hbase] at hahead
    obtain ⟨hmap, -, -, -, hkeep⟩ := mapPCR_spec c (hflags h.flags) fun _ => hahead
    rw [hmap, hkeep (hhave.trans hfirst), placePCR, if_pos hfirst, ← hsegment, ← hbase]
    rfl

/-- Noting a PCR does not change how it is mapped. -/
theorem notePCR_mapPCR (s : AdClock) (c : AdPacket) (adPCR t : ℤ) :
    ((s.notePCR t).mapPCR c adPCR).2 = (s.mapPCR c adPCR).2 := by
  simp [mapPCR, notePCR, apply_ite Prod.snd]

/-- Mapping a time stamp adds the offset of the bases. -/
theorem mapTime_eq {s : AdClock} {c : AdPacket} {pid t : ℤ} (hpid : (c.packet.pid : ℤ) = pid)
    (hahead : (if c.savedAudio then s.prevAdBaseTime else s.baseTime) ≤ t) :
    s.mapTime c pid t = mask90k (t + s.toTimeBases.offset c.savedAudio) := by
  subst hpid
  rcases hsaved : c.savedAudio with _ | _
  · have hno : ¬ ((c.packet.pid : ℤ) = c.audioPid ∧ 0 < c.b2bSavedAudioPacketsCnt) := by
      simpa [AdPacket.savedAudio] using hsaved
    rw [hsaved, if_neg Bool.false_ne_true] at hahead
    rw [mapTime, if_neg hno, mapped_eq_iff.mpr hahead]
    rfl
  · have hyes : (c.packet.pid : ℤ) = c.audioPid ∧ 0 < c.b2bSavedAudioPacketsCnt := by
      simpa [AdPacket.savedAudio] using hsaved
    rw [hsaved, if_pos rfl] at hahead
    rw [mapTime, if_pos hyes, mapped_eq_iff.mpr hahead]
    rfl

/-- A time stamp is mapped into its range. -/
theorem mapTime_range (s : AdClock) (c : AdPacket) (pid t : ℤ) :
    0 ≤ s.mapTime c pid t ∧ (s.mapTime c pid t).toNat < 2 ^ 33 := by
  unfold mapTime
  split_ifs <;> exact mask90k_range _

section Restamp

variable {p : Packet} {pos : ℕ} {ts : ℤ}

theorem readTimeStamp_restamp (h : 0 ≤ ts ∧ ts.toNat < 2 ^ 33) :
    ((restamp p pos ts).readTimeStamp pos : ℤ) = ts := by
  rw [restamp, Packet.readTimeStamp_writeTimeStamp h.2]
  exact Int.toNat_of_nonneg h.1

theorem restamp_guardBits : (restamp p pos ts pos).toNat >>> 4 = (p pos).toNat >>> 4 := by
  have := (p pos).toNat_lt
  rw [restamp, Packet.writeTimeStamp_guardBits]
  omega

theorem restamp_of_not_mem {i : ℕ} (h : i < pos ∨ pos + 5 ≤ i) : restamp p pos ts i = p i :=
  Packet.writeTimeStamp_of_not_mem h

/-- A PTS and a DTS behind it do not disturb each other. -/
theorem restamp_twice {dts : ℤ} (hpts : 0 ≤ ts ∧ ts.toNat < 2 ^ 33)
    (hdts : 0 ≤ dts ∧ dts.toNat < 2 ^ 33) :
    let out := restamp (restamp p pos ts) (pos + 5) dts
    (((out.readTimeStamp pos : ℤ) = ts ∧ (out pos).toNat >>> 4 = (p pos).toNat >>> 4) ∧
      (out.readTimeStamp (pos + 5) : ℤ) = dts ∧
        (out (pos + 5)).toNat >>> 4 = (p (pos + 5)).toNat >>> 4) ∧
    ∀ i, (i < pos ∨ pos + 5 ≤ i) ∧ (i < pos + 5 ∨ pos + 5 + 5 ≤ i) → out i = p i := by
  intro out
  have hfront : ∀ i, i < pos + 5 → out i = restamp p pos ts i := fun i hi =>
    restamp_of_not_mem (.inl hi)
  refine ⟨⟨⟨?_, ?_⟩, readTimeStamp_restamp hdts, ?_⟩, fun i hi => ?_⟩
  · rw [Packet.readTimeStamp_congr fun i _ hi => hfront i hi]
    exact readTimeStamp_restamp hpts
  · rw [hfront pos (by omega)]
    exact restamp_guardBits
  · rw [restamp_guardBits, restamp_of_not_mem (p := p) (.inr (Nat.le_refl _))]
  · exact (restamp_of_not_mem hi.2).trans (restamp_of_not_mem hi.1)

end Restamp

/-- The time stamps after a call: each mapped, and nothing else changed. -/
theorem rewriteTimes_packet (s : AdClock) (c : AdPacket) (p : Packet) :
    (∀ pos ∈ p.timeStamps,
      (((s.rewriteTimes c p).2.readTimeStamp pos : ℤ) = s.mapTime c p.pid (p.readTimeStamp pos)) ∧
        ((s.rewriteTimes c p).2 pos).toNat >>> 4 = (p pos).toNat >>> 4) ∧
      ∀ i, (∀ pos ∈ p.timeStamps, i < pos ∨ pos + 5 ≤ i) → (s.rewriteTimes c p).2 i = p i := by
  rcases hstart : p.pesStart with _ | _
  · simp [rewriteTimes, Packet.timeStamps, hstart]
  · have hmap : ∀ pts t' t, (s.notePTS c p.pid pts t').mapTime c p.pid t = s.mapTime c p.pid t := by
      intro pts t' t
      simp only [mapTime, notePTS_timeBases]
    have hrange : ∀ t, 0 ≤ s.mapTime c p.pid t ∧ (s.mapTime c p.pid t).toNat < 2 ^ 33 :=
      mapTime_range s c p.pid
    rcases hpts : p.hasPts with _ | _ <;> rcases hdts : p.hasDts with _ | _ <;>
      simp only [rewriteTimes, Packet.timeStamps, hstart, hpts, hdts, hmap, Bool.false_eq_true,
        ↓reduceIte, List.nil_append, List.append_nil, List.singleton_append, List.mem_cons,
        List.not_mem_nil, or_false, false_implies, implies_true, forall_eq, forall_eq_or_imp,
        and_true]
    · -- a DTS alone
      exact ⟨⟨readTimeStamp_restamp (hrange _), restamp_guardBits⟩,
        fun i hi => restamp_of_not_mem hi⟩
    · -- a PTS alone
      exact ⟨⟨readTimeStamp_restamp (hrange _), restamp_guardBits⟩,
        fun i hi => restamp_of_not_mem hi⟩
    · -- a PTS, and a DTS behind it
      generalize p.payload + 9 = pos
      have hdtsRead : (restamp p pos (s.mapTime c p.pid (p.readTimeStamp pos))).readTimeStamp
          (pos + 5) = p.readTimeStamp (pos + 5) :=
        Packet.readTimeStamp_congr fun i hi _ => restamp_of_not_mem (by omega)
      rw [hdtsRead]
      exact restamp_twice (hrange _) (hrange _)

/-- The PCR part leaves the header, the payload and the bytes between alone. -/
theorem rewritePCR_rest (s : AdClock) (c : AdPacket) (p : Packet) {i : ℕ} (h₀ : i ≠ 0)
    (h : i < 6 ∨ 11 ≤ i) : (s.rewritePCR c p).2 i = p i := by
  unfold rewritePCR
  split_ifs
  · have hbehind : 0 + [(0x48 : UInt8)].length ≤ i := by
      simp only [List.length_singleton]
      omega
    exact (store_of_not_mem (.inr hbehind)).trans (Packet.writePCR_of_not_mem (by omega))
  · rfl

/-- The PCR part maps the PCR and tags the packet. -/
theorem rewritePCR_spec {s : AdClock} {c : AdPacket} {p : Packet} (hpcr : p.hasPcr = true)
    (hflags : s.FlagsClear)
    (hahead : s.haveSegmentBasePCRAfterTransitionToAd = true → s.basePCR ≤ p.readPCR 6)
    (hclamp : s.mapStartPCR ≤ (s.mapPCR c (p.readPCR 6)).2) :
    ((s.rewritePCR c p).2.readPCR 6 : ℤ) =
        mask90k (p.readPCR 6 + (s.rewritePCR c p).1.toPcrBases.offset) ∧
      ((s.rewritePCR c p).2 10).toNat % 128 = (p 10).toNat % 128 ∧
      (s.rewritePCR c p).2 0 = 0x48 ∧
      (s.rewritePCR c p).1.haveSegmentBasePCRAfterTransitionToAd = true ∧
      (s.rewritePCR c p).1.toTimeBases = s.toTimeBases ∧
      (s.haveSegmentBasePCRAfterTransitionToAd = true →
        (s.rewritePCR c p).1.toPcrBases = s.toPcrBases) := by
  obtain ⟨hmap, hhave, htime, hstart, hkeep⟩ :=
    mapPCR_spec (s := s.notePCR (p.readPCR 6)) c hflags hahead
  rw [rewritePCR, if_pos hpcr]
  dsimp only
  rw [← notePCR_mapPCR] at hclamp
  generalize (s.notePCR (p.readPCR 6)).mapPCR c (p.readPCR 6) = m at *
  rw [clampPCR_of_le (hstart.trans_le hclamp)]
  obtain ⟨hpos, hlt⟩ : 0 ≤ m.2 ∧ m.2.toNat < 2 ^ 33 := by
    rw [hmap]
    exact mask90k_range _
  refine ⟨?_, ?_, ?_, ?_, ?_, ?_⟩
  · rw [Packet.readPCR_congr (p := p.writePCR 6 m.2.toNat) fun i hi _ =>
      store_of_not_mem (.inr (by simp; omega)), Packet.readPCR_writePCR hlt,
      Int.toNat_of_nonneg hpos, hmap, paceVideo_pcrBases]
  · rw [store_of_not_mem (.inr (by simp))]
    exact Packet.writePCR_low
  · simp [store]
  · rw [paceVideo_pcrBases]
    exact hhave
  · rw [paceVideo_timeBases]
    exact htime
  · intro h
    rw [paceVideo_pcrBases]
    exact hkeep h

/-- The PTS and DTS part leaves the bases alone. -/
@[simp] theorem rewriteTimes_timeBases (s : AdClock) (c : AdPacket) (p : Packet) :
    (s.rewriteTimes c p).1.toTimeBases = s.toTimeBases := by
  unfold rewriteTimes
  split_ifs <;> simp

@[simp] theorem rewriteTimes_pcrBases (s : AdClock) (c : AdPacket) (p : Packet) :
    (s.rewriteTimes c p).1.toPcrBases = s.toPcrBases := by
  unfold rewriteTimes
  split_ifs <;> simp

/-- What one call does: the packet is shifted by the bases' offsets, and bases
that are set stay. -/
structure CallSpec (s : AdClock) (c : AdPacket) : Prop where
  shifted : Packet.Shifted (s.reTimestamp c).1.toPcrBases.offset
    ((s.reTimestamp c).1.toTimeBases.offset c.savedAudio) c.packet (s.reTimestamp c).2
  have_time : (s.reTimestamp c).1.haveBaseTime = true
  have_pcr : c.packet.hasPcr = true →
    (s.reTimestamp c).1.haveSegmentBasePCRAfterTransitionToAd = true
  keep_have : s.haveSegmentBasePCRAfterTransitionToAd = true →
    (s.reTimestamp c).1.haveSegmentBasePCRAfterTransitionToAd = true
  keep_time : s.haveBaseTime = true → (s.reTimestamp c).1.toTimeBases = s.toTimeBases
  keep_pcr : s.haveBaseTime = true →
    s.haveSegmentBasePCRAfterTransitionToAd = true ∨ c.packet.hasPcr = false →
    (s.reTimestamp c).1.toPcrBases = s.toPcrBases

/-- The PCR part leaves the fields of the PTS and DTS part alone. -/
theorem rewritePCR_times {s : AdClock} {c : AdPacket} {p : Packet}
    (hinside : p.hasPcr = true → 11 ≤ p.payload) :
    (s.rewritePCR c p).2.pid = p.pid ∧ (s.rewritePCR c p).2.timeStamps = p.timeStamps ∧
      ∀ i, p.payload ≤ i → (s.rewritePCR c p).2 i = p i := by
  have hpayload : ∀ i, p.payload ≤ i → (s.rewritePCR c p).2 i = p i := by
    intro i hi
    rcases hpcr : p.hasPcr with _ | _
    · simp [rewritePCR, hpcr]
    · have := hinside hpcr
      exact rewritePCR_rest s c p (by omega) (by omega)
  obtain ⟨hpid, htimes⟩ := Packet.timeStamps_congr
    (fun i h₁ h₆ => rewritePCR_rest s c p (i := i) (by omega) (.inl h₆)) hpayload
  exact ⟨hpid, htimes, hpayload⟩

/-- The packet after a call, given what the PCR part made of it. -/
theorem rewriteTimes_shifted {s s₂ : AdClock} {c : AdPacket} (h : s.InOrder c)
    (hs₂ : ((s.setBases c).rewritePCR c c.packet).1 = s₂)
    (htime : s₂.toTimeBases = (s.setBases c).toTimeBases) {offPCR : ℤ}
    (hpcr : c.packet.hasPcr = true →
      (((s.setBases c).rewritePCR c c.packet).2.readPCR 6 : ℤ) =
          mask90k (c.packet.readPCR 6 + offPCR) ∧
        (((s.setBases c).rewritePCR c c.packet).2 10).toNat % 128 = (c.packet 10).toNat % 128 ∧
        ((s.setBases c).rewritePCR c c.packet).2 0 = 0x48) :
    Packet.Shifted offPCR (s₂.toTimeBases.offset c.savedAudio) c.packet
      (s.reTimestamp c).2 := by
  obtain ⟨hpid, htimes, hpayload⟩ :=
    rewritePCR_times (s := s.setBases c) (c := c) h.pcr_inside
  have hout : (s.reTimestamp c).2 =
      (s₂.rewriteTimes c ((s.setBases c).rewritePCR c c.packet).2).2 := by
    rw [← hs₂]
    rfl
  obtain ⟨hmapped, hothers⟩ :=
    rewriteTimes_packet s₂ c ((s.setBases c).rewritePCR c c.packet).2
  rw [← hout, htimes, hpid] at hmapped
  rw [← hout, htimes] at hothers
  generalize (s.reTimestamp c).2 = out at *
  -- the PCR lies in front of the time stamps
  have hfront : ∀ i, i < c.packet.payload + 9 →
      out i = ((s.setBases c).rewritePCR c c.packet).2 i := fun i hi =>
    hothers i fun pos hpos => .inl (lt_of_lt_of_le hi (Packet.payload_le_of_mem hpos))
  have hrest : ∀ i, ¬ c.packet.IsTimeByte i → out i = c.packet i := by
    intro i hi
    rw [hothers i fun pos hpos => ?_]
    · rcases hp : c.packet.hasPcr with _ | _
      · simp [rewritePCR, hp]
      · have hno : ¬ (i = 0 ∨ 6 ≤ i ∧ i < 11) := fun hmem => hi (.inl ⟨hp, hmem⟩)
        exact rewritePCR_rest _ c _ (by omega) (by omega)
    · have hno : ¬ (pos ≤ i ∧ i < pos + 5) := fun hmem => hi (.inr ⟨pos, hpos, hmem⟩)
      omega
  refine ⟨?_, ?_, ?_, ?_, ?_, hrest, fun i hi => hrest i ?_⟩
  · intro hp
    have := h.pcr_inside hp
    rw [Packet.readPCR_congr fun i _ hi => hfront i (by omega)]
    exact (hpcr hp).1
  · intro hp
    have := h.pcr_inside hp
    rw [hfront 10 (by omega)]
    exact (hpcr hp).2.1
  · intro hp
    rw [hfront 0 (by omega)]
    exact (hpcr hp).2.2
  · intro pos hpos
    have hle := Packet.payload_le_of_mem hpos
    have hbase := h.time_ahead pos hpos
    rw [(hmapped pos hpos).1, Packet.readTimeStamp_congr fun i hi _ => hpayload i (by omega)]
    refine mapTime_eq rfl ?_
    rw [show s₂.prevAdBaseTime = (s.setBases c).prevAdBaseTime from
        congrArg TimeBases.prevAdBaseTime htime,
      show s₂.baseTime = (s.setBases c).baseTime from congrArg TimeBases.baseTime htime]
    exact (setBases_spec s c).2.2.2.2.trans_le hbase
  · intro pos hpos
    have hle := Packet.payload_le_of_mem hpos
    rw [(hmapped pos hpos).2, hpayload pos (by omega)]
  · rintro (⟨-, hmem⟩ | ⟨pos, hpos, hmem⟩)
    · omega
    · have := h.time_inside pos hpos
      omega

/-- **One call.** A packet in order is shifted by the offsets of the bases. -/
theorem reTimestamp_spec {s : AdClock} {c : AdPacket} (h : s.InOrder c) : CallSpec s c := by
  obtain ⟨hbase, hstart, hhave, hflags, -⟩ := setBases_spec s c
  have hclock : (s.reTimestamp c).1 =
      (((s.setBases c).rewritePCR c c.packet).1.rewriteTimes c
        ((s.setBases c).rewritePCR c c.packet).2).1 := rfl
  rcases hpcr : c.packet.hasPcr with _ | _
  · -- no PCR: only the first packet changes the bases
    have hsame : ((s.setBases c).rewritePCR c c.packet).1 = s.setBases c := by
      simp [rewritePCR, hpcr]
    have htb : (s.reTimestamp c).1.toTimeBases = (s.setBases c).toTimeBases := by
      rw [hclock, rewriteTimes_timeBases, hsame]
    have hpb : (s.reTimestamp c).1.toPcrBases = (s.setBases c).toPcrBases := by
      rw [hclock, rewriteTimes_pcrBases, hsame]
    refine ⟨?_, ?_, ?_, ?_, ?_, ?_⟩
    · rw [htb]
      exact rewriteTimes_shifted h hsame rfl fun hp => absurd (hpcr.symm.trans hp) Bool.false_ne_true
    · exact (congrArg TimeBases.haveBaseTime htb).trans (setBases_haveBaseTime s c)
    · exact fun hp => absurd (hpcr.symm.trans hp) Bool.false_ne_true
    · intro hs
      exact (congrArg PcrBases.haveSegmentBasePCRAfterTransitionToAd hpb).trans (hhave.trans hs)
    · intro hs
      rw [htb, setBases_of_have c hs]
    · intro hs _
      rw [hpb, setBases_of_have c hs]
  · obtain ⟨hmap, hlow, htag, hset, htime, hkeep⟩ := rewritePCR_spec (s := s.setBases c) hpcr
      (hflags h.flags)
      (fun hs => hbase.trans_le (h.pcr_ahead hpcr (hhave.symm.trans hs)))
      (hstart.trans_le ((h.pcr_unclamped hpcr).trans_eq (mapPCR_place h hpcr).symm))
    have htb : (s.reTimestamp c).1.toTimeBases = (s.setBases c).toTimeBases := by
      rw [hclock, rewriteTimes_timeBases, htime]
    have hpb : (s.reTimestamp c).1.toPcrBases =
        ((s.setBases c).rewritePCR c c.packet).1.toPcrBases := by
      rw [hclock, rewriteTimes_pcrBases]
    have hnow : (s.reTimestamp c).1.haveSegmentBasePCRAfterTransitionToAd = true :=
      (congrArg PcrBases.haveSegmentBasePCRAfterTransitionToAd hpb).trans hset
    refine ⟨?_, ?_, fun _ => hnow, fun _ => hnow, ?_, ?_⟩
    · rw [htb, hpb, ← htime]
      exact rewriteTimes_shifted h rfl htime fun _ => ⟨hmap, hlow, htag⟩
    · exact (congrArg TimeBases.haveBaseTime htb).trans (setBases_haveBaseTime s c)
    · intro hs
      rw [htb, setBases_of_have c hs]
    · intro hs hor
      rcases hor with hset' | hno
      · rw [hpb, hkeep (hhave.trans hset'), setBases_of_have c hs]
      · rw [hpcr] at hno
        cases hno

end AdClock

/-! ## A spot -/

/-- What happens to the clock while a spot replaces the programme. -/
inductive SpotEvent : Type where
  /-- a packet is re-timed -/
  | reTimestamp (c : AdPacket)
  /-- the frame to leave the ad at is found, and the flags are cleared -/
  | exitFrame (lastAdVideoFramePTS : ℤ)

/-- A spot: the clock, and the packets re-timed so far with what became of them. -/
structure AdSpot where
  clock : AdClock
  rewritten : List (AdPacket × Packet)

namespace AdSpot

/-- The spot before its first packet. -/
def start (s : AdClock) : AdSpot := { clock := s, rewritten := [] }

/-- One event. -/
def step (t : AdSpot) : SpotEvent → Option AdSpot
  | .reTimestamp c =>
    let (clock, out) := t.clock.reTimestamp c
    some { clock := clock, rewritten := t.rewritten ++ [(c, out)] }
  | .exitFrame lastAdVideoFramePTS =>
    some { t with clock := { t.clock with
      lastAdVideoFramePTS := lastAdVideoFramePTS
      adVideoPktsDelayed := false
      adVideoPktsDelayedPCRBased := false
      adAudioPktsDelayed := false
      adVideoPktsTooFast := false } }

/-- The packet to re-time is in order. -/
def InOrder (t : AdSpot) : SpotEvent → Prop
  | .reTimestamp c => t.clock.InOrder c
  | .exitFrame _ => True

instance (t : AdSpot) : ∀ e : SpotEvent, Decidable (t.InOrder e)
  | .reTimestamp c => inferInstanceAs (Decidable (t.clock.InOrder c))
  | .exitFrame _ => isTrue trivial

/-- What holds between two events. -/
structure Inv (t : AdSpot) : Prop where
  shifted : ∀ e ∈ t.rewritten, Packet.Shifted t.clock.toPcrBases.offset
    (t.clock.toTimeBases.offset e.1.savedAudio) e.1.packet e.2
  /-- the first packet has set the bases -/
  have_time : t.rewritten ≠ [] → t.clock.haveBaseTime = true
  /-- the first PCR has set its bases again -/
  have_pcr : ∀ e ∈ t.rewritten, e.1.packet.hasPcr = true →
    t.clock.haveSegmentBasePCRAfterTransitionToAd = true

theorem inv_start (s : AdClock) : Inv (start s) where
  shifted := fun _ he => absurd he List.not_mem_nil
  have_time := fun h => absurd rfl h
  have_pcr := fun _ he => absurd he List.not_mem_nil

/-- **One event** keeps the offsets of all packets so far. -/
theorem inv_step {t : AdSpot} {e : SpotEvent} (h : Inv t) (horder : t.InOrder e) :
    ∃ t', step t e = some t' ∧ Inv t' := by
  cases e with
  | exitFrame lastAdVideoFramePTS => exact ⟨_, rfl, h.shifted, h.have_time, h.have_pcr⟩
  | reTimestamp c =>
    have hcall := AdClock.reTimestamp_spec horder
    refine ⟨_, rfl, ?_, fun _ => hcall.have_time, ?_⟩
    · intro e he
      rcases List.mem_append.mp he with hold | hnew
      · -- an earlier packet: its bases are still there
        have htime := h.have_time (List.ne_nil_of_mem hold)
        have hshift := h.shifted e hold
        show Packet.Shifted (t.clock.reTimestamp c).1.toPcrBases.offset
          ((t.clock.reTimestamp c).1.toTimeBases.offset e.1.savedAudio) e.1.packet e.2
        rw [hcall.keep_time htime]
        rcases hpcr : e.1.packet.hasPcr with _ | _
        · exact hshift.of_no_pcr hpcr
        · rw [hcall.keep_pcr htime (.inl (h.have_pcr e hold hpcr))]
          exact hshift
      · rw [List.mem_singleton.mp hnew]
        exact hcall.shifted
    · intro e he hpcr
      rcases List.mem_append.mp he with hold | hnew
      · exact hcall.keep_have (h.have_pcr e hold hpcr)
      · rw [List.mem_singleton.mp hnew] at hpcr
        exact hcall.have_pcr hpcr

/-- Each clock of the ad is mapped with one offset: the segment's base minus the
ad's base. So distances between PCRs, and from a packet's DTS to its PTS, stay. -/
structure OneOffset (t : AdSpot) : Prop where
  shifted : ∀ e ∈ t.rewritten, Packet.Shifted t.clock.toPcrBases.offset
    (t.clock.toTimeBases.offset e.1.savedAudio) e.1.packet e.2
  pcr_distance : ∀ e ∈ t.rewritten, ∀ e' ∈ t.rewritten,
    e.1.packet.hasPcr = true → e'.1.packet.hasPcr = true →
      mask90k (e.2.readPCR 6 - e'.2.readPCR 6) =
        mask90k (e.1.packet.readPCR 6 - e'.1.packet.readPCR 6)
  time_distance : ∀ e ∈ t.rewritten, ∀ pos ∈ e.1.packet.timeStamps,
    ∀ pos' ∈ e.1.packet.timeStamps,
      mask90k (e.2.readTimeStamp pos - e.2.readTimeStamp pos') =
        mask90k (e.1.packet.readTimeStamp pos - e.1.packet.readTimeStamp pos')

/-- One offset keeps a distance. -/
theorem mask90k_distance {a b a' b' off : ℤ} (ha : a' = mask90k (a + off))
    (hb : b' = mask90k (b + off)) : mask90k (a' - b') = mask90k (a - b) := by
  simp only [AdClock.mask90k_eq] at *
  omega

theorem Inv.oneOffset {t : AdSpot} (h : Inv t) : OneOffset t where
  shifted := h.shifted
  pcr_distance := fun e he e' he' hpcr hpcr' =>
    mask90k_distance ((h.shifted e he).pcr hpcr) ((h.shifted e' he').pcr hpcr')
  time_distance := fun e he pos hpos pos' hpos' =>
    mask90k_distance ((h.shifted e he).time pos hpos) ((h.shifted e he).time pos' hpos')

/-- **One offset per clock.** When every packet of a spot is in order where it
is re-timed, all packets re-timed are the ad's with one offset for each clock. -/
theorem one_offset (s : AdClock) {events : List SpotEvent}
    (h : EachStep step InOrder (start s) events) :
    ∃ t, runFrom step (start s) events = some t ∧ OneOffset t := by
  obtain ⟨t, hrun, ht⟩ := h.total (I := Inv) (fun _ _ hI hP => inv_step hI hP) (inv_start s)
  exact ⟨t, hrun, ht.oneOffset⟩

/-- A clock before the first packet of a spot. -/
def readyClock : AdClock where
  haveBaseTime := false
  baseTime := -1
  segmentBaseTime := -1
  prevAdBaseTime := -1
  prevAdSegmentBaseTime := -1
  haveSegmentBasePCRAfterTransitionToAd := false
  basePCR := -1
  segmentBasePCR := -1
  currentMappedPTS := 8589930000
  currentMappedPCR := 8589900000
  currentInsertPCR := -1
  lastAdPCR := -1
  mapStartPCR := -1
  prevCurrentPCR := -1
  lastAdVideoFramePTS := -1
  adVideoPktsDelayed := false
  adAudioPktsDelayed := false
  adVideoPktsTooFast := false
  adVideoPktsDelayedPCRBased := false

/-- A packet of an ad whose first frame is shown at 900000. -/
def adPacket (bytes : List UInt8) : AdPacket where
  packet := packetOf bytes
  startPTS := 900000
  startPCR := 850000
  ttsInsert := 600000
  lastMappedPCRTTSValue := 0
  firstAdPacketAfterTransitionTTSValue := 300000
  currentPCR := 8589900000
  b2bSavedAudioPacketsCnt := 0
  pcrPid := 0x100
  videoPid := 0x100
  audioPid := 0x101
  adVideoFrameCount := 1
  netReplaceableVideoFramesCnt := 900
  timeDeltaFrames := 0

/-- A video packet with the given PTS, and the given DTS behind it. -/
def videoPacket (pts dts : ℕ) : AdPacket :=
  let header := packetOf [0x47, 0x41, 0x00, 0x10, 0, 0, 1, 0xE0, 0, 0, 0x80, 0xC0, 10]
  { adPacket [] with packet := (header.writeTimeStamp 13 3 pts).writeTimeStamp 18 1 dts }

/-- A packet with nothing but a PCR. -/
def pcrPacket (pcr : ℕ) : AdPacket :=
  { adPacket [] with packet := (packetOf [0x47, 0x01, 0x00, 0x20, 183, 0x10]).writePCR 6 pcr }

/-- A spot during which the programme's clock wraps. -/
theorem one_offset_wrapping :
    ∃ t, runFrom step (start readyClock) [.reTimestamp (pcrPacket 850000),
      .reTimestamp (videoPacket 906006 903003), .reTimestamp (pcrPacket 950000)] = some t ∧
      OneOffset t :=
  one_offset readyClock (by decide +kernel)

/-- The first frame of an ad, decoded one frame before it is shown: its DTS is
behind the base time, and it is not mapped with the offset of its PTS. -/
theorem firstFrame_not_shifted : readyClock.FlagsClear ∧ ∀ offPCR offTime,
    ¬ Packet.Shifted offPCR offTime (videoPacket 900000 896997).packet
      (readyClock.reTimestamp (videoPacket 900000 896997)).2 := by
  refine ⟨by decide, fun offPCR offTime h => ?_⟩
  have hpts := h.time 13 (by decide +kernel)
  have hdts := h.time 18 (by decide +kernel)
  rw [show (readyClock.reTimestamp (videoPacket 900000 896997)).2.readTimeStamp 13 = 8589931501
      by decide +kernel,
    show (videoPacket 900000 896997).packet.readTimeStamp 13 = 900000 by decide +kernel,
    AdClock.mask90k_eq] at hpts
  rw [show (readyClock.reTimestamp (videoPacket 900000 896997)).2.readTimeStamp 18 = 8589928499
      by decide +kernel,
    show (videoPacket 900000 896997).packet.readTimeStamp 18 = 896997 by decide +kernel,
    AdClock.mask90k_eq] at hdts
  omega

end AdSpot

end MediaFramework
