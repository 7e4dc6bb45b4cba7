import MediaFramework.Rbi.InsertionState

/-!
# The windows of a spot (`RBIStreamProcessor::processPacketsAligned`)

When a PES packet starts, the stream processor compares its PTS with the splice
times of the current spot: it arms the spot, ends it, or gives it up. Time stamps
have 33 bits and wrap around every 26 hours, so a window is an arc of a circle,
from its first time stamp on and up to its last one.

`PTS_IN_RANGE` follows a window over the wrap, for two bounds that are time stamps
themselves. Some of the lower bounds are not: where an offset is taken from a splice
time just behind the wrap, and the difference is not masked, the bound is negative,
and the macro takes the window for one that does not wrap. And the comparisons with
the abort times are plain ones.

`windowTests` are the tests as the source writes them and `circleTests` the arcs they
stand for. What becomes of a spot, `splicePass`, sees the time stamps through the
tests only; so where the tests are those of the circle, a spot fares like the same
spot at any other time.
-/

namespace MediaFramework

/-- A time stamp of 33 bits. -/
def IsPTS (t : ℤ) : Prop := 0 ≤ t ∧ t < 2 ^ 33

instance (t : ℤ) : Decidable (IsPTS t) := inferInstanceAs (Decidable (_ ∧ _))

/-! ## The circle of time stamps -/

/-- `p` lies on the arc from `s` on, up to but not including `e`. -/
def onArc (p s e : ℤ) : Bool := decide ((p - s) % 2 ^ 33 < (e - s) % 2 ^ 33)

/-- `p` is `t` or lies less than half a turn behind it. -/
def hasPassed (p t : ℤ) : Bool := onArc p t (t + 2 ^ 32)

/-- Turning the circle takes arcs to arcs. -/
theorem onArc_congr {p s e p' s' e' : ℤ} (hp : (p' - s') % 2 ^ 33 = (p - s) % 2 ^ 33)
    (he : (e' - s') % 2 ^ 33 = (e - s) % 2 ^ 33) : onArc p' s' e' = onArc p s e := by
  rw [onArc, hp, he, onArc]

/-- The exact case in which `PTS_IN_RANGE` follows the circle: its lower bound is a
time stamp, or lies before the wrap where the upper bound and the time stamp tested
lie on the same side of it. -/
theorem ptsInRange_eq_onArc_iff {p s e : ℤ} (hp : IsPTS p) (he : IsPTS e)
    (hs : -2 ^ 33 ≤ s ∧ s < 2 ^ 33) :
    ptsInRange p s e = onArc p s e ↔ 0 ≤ s ∨ (e < s + 2 ^ 33 ↔ p < s + 2 ^ 33) := by
  unfold IsPTS at hp he
  rw [Bool.eq_iff_iff]
  simp only [ptsInRange, onArc, Bool.or_eq_true, Bool.and_eq_true, decide_eq_true_eq]
  omega

/-- Between time stamps `PTS_IN_RANGE` is the arc. -/
theorem ptsInRange_eq_onArc {p s e : ℤ} (hp : IsPTS p) (hs : IsPTS s) (he : IsPTS e) :
    ptsInRange p s e = onArc p s e :=
  (ptsInRange_eq_onArc_iff hp he ⟨by unfold IsPTS at hs; omega, hs.2⟩).mpr (Or.inl hs.1)

/-- A plain comparison follows the circle where no wrap lies between the two. -/
theorem ge_eq_hasPassed_iff {p t : ℤ} (hp : IsPTS p) (ht : IsPTS t) :
    decide (p ≥ t) = hasPassed p t ↔ -2 ^ 32 ≤ p - t ∧ p - t < 2 ^ 32 := by
  unfold IsPTS at hp ht
  rw [Bool.eq_iff_iff]
  simp only [hasPassed, onArc, decide_eq_true_eq]
  omega

/-! ## The splice times -/

/-- The splice times of a spot. -/
structure SpliceTimes where
  mapSpliceOutPTS : ℤ
  mapSpliceInPTS : ℤ
  mapSpliceOutAbortPTS : ℤ
  mapSpliceInAbortPTS : ℤ
  mapSpliceInAbort2PTS : ℤ
  deriving DecidableEq

namespace SpliceTimes

/-- What `startInsertion` sets for a replace spot. -/
def replace (spliceOffset startPTS endPTS : ℤ) : SpliceTimes where
  mapSpliceOutPTS := mask90k (startPTS + spliceOffset * 90)
  mapSpliceInPTS := endPTS
  mapSpliceOutAbortPTS := mask90k (startPTS + 1000 * 90)
  mapSpliceInAbortPTS := mask90k (endPTS + 1000 * 90)
  mapSpliceInAbort2PTS := mask90k (endPTS + 1500 * 90)

/-- `m_splicePTS_offset` -/
def splicePTSOffset : ℤ := 1500

/-- `m_spliceAudioPTS_offset` -/
def spliceAudioPTSOffset : ℤ := 2880

/-- `afterPTS` -/
def afterPTS (t : SpliceTimes) : ℤ := mask90k (t.mapSpliceInPTS + 60000 * 90)

/-- All of them are time stamps. -/
structure Proper (t : SpliceTimes) : Prop where
  out : IsPTS t.mapSpliceOutPTS
  back : IsPTS t.mapSpliceInPTS
  outAbort : IsPTS t.mapSpliceOutAbortPTS
  inAbort : IsPTS t.mapSpliceInAbortPTS
  inAbort2 : IsPTS t.mapSpliceInAbort2PTS

/-- The same spot, `d` ticks later. -/
def shift (d : ℤ) (t : SpliceTimes) : SpliceTimes where
  mapSpliceOutPTS := mask90k (t.mapSpliceOutPTS + d)
  mapSpliceInPTS := mask90k (t.mapSpliceInPTS + d)
  mapSpliceOutAbortPTS := mask90k (t.mapSpliceOutAbortPTS + d)
  mapSpliceInAbortPTS := mask90k (t.mapSpliceInAbortPTS + d)
  mapSpliceInAbort2PTS := mask90k (t.mapSpliceInAbort2PTS + d)

theorem isPTS_mask90k (t : ℤ) : IsPTS (mask90k t) :=
  ⟨Int.emod_nonneg _ (by decide), Int.emod_lt_of_pos _ (by decide)⟩

/-- `startInsertion` sets time stamps. -/
theorem proper_replace (spliceOffset startPTS : ℤ) {endPTS : ℤ} (h : IsPTS endPTS) :
    (replace spliceOffset startPTS endPTS).Proper :=
  ⟨isPTS_mask90k _, h, isPTS_mask90k _, isPTS_mask90k _, isPTS_mask90k _⟩

theorem proper_shift (d : ℤ) (t : SpliceTimes) : (t.shift d).Proper :=
  ⟨isPTS_mask90k _, isPTS_mask90k _, isPTS_mask90k _, isPTS_mask90k _, isPTS_mask90k _⟩

end SpliceTimes

/-! ## The tests -/

/-- The outcome of each test at the start of a PES packet. -/
structure WindowTests where
  /-- the spot may be ended at a random access point -/
  ends : Bool
  /-- it may be armed at one -/
  arms : Bool
  /-- it would be armed too late -/
  pastOutAbort : Bool
  /-- a replace spot was not armed -/
  missedStart : Bool
  /-- a fixed spot is armed without a random access point -/
  armsAnywhere : Bool
  /-- a fixed spot was not armed -/
  missedSpotWindow : Bool
  /-- the spot is ended without a random access point -/
  endsAnywhere : Bool
  pastInAbort2 : Bool
  /-- the network's audio has reached the spot -/
  audioArrives : Bool
  audioPastOutAbort : Bool
  deriving DecidableEq

section Tests

variable (t : SpliceTimes) (currentPTS currentAudioPTS : ℤ)

/-- The tests of `processPacketsAligned`. -/
def windowTests : WindowTests where
  ends := ptsInRange currentPTS (t.mapSpliceInPTS - SpliceTimes.splicePTSOffset)
    t.mapSpliceInAbortPTS
  arms := ptsInRange currentPTS (t.mapSpliceOutPTS - SpliceTimes.splicePTSOffset) t.mapSpliceInPTS
  pastOutAbort := decide (currentPTS ≥ t.mapSpliceOutAbortPTS)
  missedStart := ptsInRange currentPTS t.mapSpliceOutAbortPTS t.afterPTS
  armsAnywhere := ptsInRange currentPTS t.mapSpliceOutAbortPTS t.mapSpliceInPTS
  missedSpotWindow := ptsInRange currentPTS t.mapSpliceInPTS t.afterPTS
  endsAnywhere := ptsInRange currentPTS t.mapSpliceInAbortPTS t.mapSpliceInAbort2PTS
  pastInAbort2 := decide (currentPTS ≥ t.mapSpliceInAbort2PTS)
  audioArrives := ptsInRange currentAudioPTS
    (t.mapSpliceOutPTS - SpliceTimes.spliceAudioPTSOffset) t.mapSpliceOutAbortPTS
  audioPastOutAbort := decide (currentAudioPTS ≥ t.mapSpliceOutAbortPTS)

/-- What they stand for on the circle. -/
def circleTests : WindowTests where
  ends := onArc currentPTS (t.mapSpliceInPTS - SpliceTimes.splicePTSOffset) t.mapSpliceInAbortPTS
  arms := onArc currentPTS (t.mapSpliceOutPTS - SpliceTimes.splicePTSOffset) t.mapSpliceInPTS
  pastOutAbort := hasPassed currentPTS t.mapSpliceOutAbortPTS
  missedStart := onArc currentPTS t.mapSpliceOutAbortPTS t.afterPTS
  armsAnywhere := onArc currentPTS t.mapSpliceOutAbortPTS t.mapSpliceInPTS
  missedSpotWindow := onArc currentPTS t.mapSpliceInPTS t.afterPTS
  endsAnywhere := onArc currentPTS t.mapSpliceInAbortPTS t.mapSpliceInAbort2PTS
  pastInAbort2 := hasPassed currentPTS t.mapSpliceInAbort2PTS
  audioArrives := onArc currentAudioPTS
    (t.mapSpliceOutPTS - SpliceTimes.spliceAudioPTSOffset) t.mapSpliceOutAbortPTS
  audioPastOutAbort := hasPassed currentAudioPTS t.mapSpliceOutAbortPTS

/-- Where the tests are those of the circle: a splice time that is nearer to the
wrap than the offset taken from it has the time stamp and the end of the window on
one side of the window's start, and no wrap lies between a time stamp and the abort
times. -/
structure OnOneSide : Prop where
  ends : SpliceTimes.splicePTSOffset ≤ t.mapSpliceInPTS ∨
    (t.mapSpliceInAbortPTS < t.mapSpliceInPTS - SpliceTimes.splicePTSOffset + 2 ^ 33 ↔
      currentPTS < t.mapSpliceInPTS - SpliceTimes.splicePTSOffset + 2 ^ 33)
  arms : SpliceTimes.splicePTSOffset ≤ t.mapSpliceOutPTS ∨
    (t.mapSpliceInPTS < t.mapSpliceOutPTS - SpliceTimes.splicePTSOffset + 2 ^ 33 ↔
      currentPTS < t.mapSpliceOutPTS - SpliceTimes.splicePTSOffset + 2 ^ 33)
  audio : SpliceTimes.spliceAudioPTSOffset ≤ t.mapSpliceOutPTS ∨
    (t.mapSpliceOutAbortPTS < t.mapSpliceOutPTS - SpliceTimes.spliceAudioPTSOffset + 2 ^ 33 ↔
      currentAudioPTS < t.mapSpliceOutPTS - SpliceTimes.spliceAudioPTSOffset + 2 ^ 33)
  outAbort : -2 ^ 32 ≤ currentPTS - t.mapSpliceOutAbortPTS ∧
    currentPTS - t.mapSpliceOutAbortPTS < 2 ^ 32
  inAbort2 : -2 ^ 32 ≤ currentPTS - t.mapSpliceInAbort2PTS ∧
    currentPTS - t.mapSpliceInAbort2PTS < 2 ^ 32
  audioOutAbort : -2 ^ 32 ≤ currentAudioPTS - t.mapSpliceOutAbortPTS ∧
    currentAudioPTS - t.mapSpliceOutAbortPTS < 2 ^ 32

variable {t currentPTS currentAudioPTS}

/-- A window that begins an offset before a splice time. -/
theorem early_eq_onArc_iff {p splice offset e : ℤ} (hp : IsPTS p) (hsplice : IsPTS splice)
    (he : IsPTS e) (hoffset : 0 ≤ offset ∧ offset ≤ 2 ^ 33) :
    ptsInRange p (splice - offset) e = onArc p (splice - offset) e ↔
      offset ≤ splice ∨ (e < splice - offset + 2 ^ 33 ↔ p < splice - offset + 2 ^ 33) := by
  unfold IsPTS at hsplice
  rw [ptsInRange_eq_onArc_iff hp he ⟨by omega, by omega⟩]
  omega

/-- All tests are those of the circle exactly on one side. -/
theorem windowTests_eq_circleTests_iff (ht : t.Proper) (hp : IsPTS currentPTS)
    (ha : IsPTS currentAudioPTS) :
    windowTests t currentPTS currentAudioPTS = circleTests t currentPTS currentAudioPTS ↔
      OnOneSide t currentPTS currentAudioPTS := by
  have hafter : IsPTS t.afterPTS := SpliceTimes.isPTS_mask90k _
  have hoffset : (0 : ℤ) ≤ SpliceTimes.splicePTSOffset ∧
      SpliceTimes.splicePTSOffset ≤ 2 ^ 33 := by decide
  have haudio : (0 : ℤ) ≤ SpliceTimes.spliceAudioPTSOffset ∧
      SpliceTimes.spliceAudioPTSOffset ≤ 2 ^ 33 := by decide
  rw [windowTests, circleTests, WindowTests.mk.injEq]
  rw [early_eq_onArc_iff hp ht.back ht.inAbort hoffset,
    early_eq_onArc_iff hp ht.out ht.back hoffset, ge_eq_hasPassed_iff hp ht.outAbort,
    early_eq_onArc_iff ha ht.out ht.outAbort haudio, ge_eq_hasPassed_iff ha ht.outAbort,
    ge_eq_hasPassed_iff hp ht.inAbort2]
  constructor
  · rintro ⟨hends, harms, hout, -, -, -, -, hin, haud, haudOut⟩
    exact ⟨hends, harms, haud, hout, hin, haudOut⟩
  · rintro ⟨hends, harms, haud, hout, hin, haudOut⟩
    exact ⟨hends, harms, hout, ptsInRange_eq_onArc hp ht.outAbort hafter,
      ptsInRange_eq_onArc hp ht.outAbort ht.back, ptsInRange_eq_onArc hp ht.back hafter,
      ptsInRange_eq_onArc hp ht.inAbort ht.inAbort2, hin, haud, haudOut⟩

/-- The arcs do not depend on where the wrap is. -/
theorem circleTests_shift (t : SpliceTimes) (currentPTS currentAudioPTS d : ℤ) :
    circleTests (t.shift d) (mask90k (currentPTS + d)) (mask90k (currentAudioPTS + d)) =
      circleTests t currentPTS currentAudioPTS := by
  have hmask : ∀ t, mask90k t = t % 2 ^ 33 := fun _ => rfl
  simp only [circleTests, hasPassed, SpliceTimes.shift, SpliceTimes.afterPTS, hmask,
    WindowTests.mk.injEq]
  refine ⟨?_, ?_, ?_, ?_, ?_, ?_, ?_, ?_, ?_, ?_⟩
  all_goals exact onArc_congr (by omega) (by omega)

end Tests

/-! ## What becomes of the spot -/

/-- The fields of the stream processor the tests are combined with. -/
structure SpliceFlags where
  randomAccess : Bool
  startOfSequence : Bool
  /-- there is an insert source: the spot is a replace spot -/
  insertSrc : Bool
  filterAudio : Bool
  backToBack : Bool
  backToBackPrev : Bool
  mapStartPending : Bool
  mapStartArmed : Bool
  mapEndPending : Bool
  mapEnding : Bool
  mapEndingNeedVideoEOF : Bool
  mapping : Bool
  mapEditGOP : Bool
  transitioningToAd : Bool
  transitioningToNetwork : Bool
  /-- `m_bitRate != 0` -/
  bitRateKnown : Bool
  /-- `m_audioComponentCount > 0` -/
  hasAudio : Bool
  deriving DecidableEq

/-- What is told to the context, and where the spot is stopped. -/
inductive SpliceEvent : Type where
  | insertionStarted
  /-- `RBI_DetailCode_unableToSplice_missed_spotWindow` -/
  | missedSpotWindow
  /-- not at a random access point -/
  | lateEnd
  deriving DecidableEq

namespace SpliceFlags

variable (w : WindowTests) (s : SpliceFlags)

/-- A replace spot ends at a random access point. That `m_transitioningToNetwork` is cleared when no
more audio of the ad comes is left out. -/
def endSpot : SpliceFlags :=
  if (s.randomAccess || s.startOfSequence) && s.insertSrc && w.ends && !s.filterAudio then
    let s :=
      if s.backToBack then s
      else { s with filterAudio := true, transitioningToNetwork := true, mapping := false,
                    mapEditGOP := true }
    { s with mapEnding := true, mapEndingNeedVideoEOF := s.backToBack }
  else s

/-- A pending spot is armed. (A splice-out time of -1 is not a time stamp; such a spot
is armed by any frame.) -/
def armSpot : SpliceFlags × List SpliceEvent :=
  if s.mapStartPending then
    if s.backToBackPrev then
      ({ s with mapStartPending := false, mapping := true }, [.insertionStarted])
    else if w.arms then
      if w.pastOutAbort && s.insertSrc then (s, [.missedSpotWindow])
      else
        ({ s with
          mapStartPending := false
          mapStartArmed := true
          transitioningToAd := s.transitioningToAd || s.insertSrc }, [])
    else (s, [])
  else (s, [])

/-- The start of a video frame. -/
def videoStart : SpliceFlags × List SpliceEvent :=
  let (s, events) := (s.endSpot w).armSpot w
  ({ s with randomAccess := false }, events)

/-- A spot that is still pending. -/
def checkPending : SpliceFlags × List SpliceEvent :=
  if s.mapStartPending then
    if s.insertSrc then
      if w.missedStart then (s, [.missedSpotWindow]) else (s, [])
    else if w.armsAnywhere then ({ s with mapStartPending := false, mapStartArmed := true }, [])
    else if w.missedSpotWindow then (s, [.missedSpotWindow])
    else (s, [])
  else (s, [])

/-- A spot whose ad is at its end. -/
def checkEnd : SpliceFlags × List SpliceEvent :=
  if s.mapEndPending && s.insertSrc && (w.endsAnywhere || w.pastInAbort2) && !s.filterAudio then
    (s, [.lateEnd])
  else (s, [])

/-- An armed spot begins. -/
def startMapping : SpliceFlags × List SpliceEvent :=
  if s.mapStartArmed && s.bitRateKnown &&
      (s.backToBackPrev || s.hasAudio && w.audioArrives) then
    if !s.mapping then ({ s with mapStartArmed := false, mapping := true }, [.insertionStarted])
    else if s.hasAudio && w.audioArrives then ({ s with mapStartArmed := false }, [])
    else if w.audioPastOutAbort && s.mapStartArmed && s.bitRateKnown && !s.backToBackPrev &&
        s.hasAudio then (s, [.missedSpotWindow])
    else (s, [])
  else (s, [])

/-- One stage after another, up to the one that stops the spot: with that, the
context takes over, and may start another one. -/
def followed (first : SpliceFlags × List SpliceEvent)
    (next : SpliceFlags → SpliceFlags × List SpliceEvent) : SpliceFlags × List SpliceEvent :=
  if first.2.any (· != .insertionStarted) then first
  else
    let (s, events) := next first.1
    (s, first.2 ++ events)

end SpliceFlags

/-- The start of a PES packet, of video or of anything else. -/
def splicePass (video : Bool) (w : WindowTests) (s : SpliceFlags) :
    SpliceFlags × List SpliceEvent :=
  let first := if video then s.videoStart w else (s, [])
  SpliceFlags.followed (SpliceFlags.followed (SpliceFlags.followed first
    (SpliceFlags.checkPending w)) (SpliceFlags.checkEnd w)) (SpliceFlags.startMapping w)

/-- **The windows.** For all splice times and time stamps of 33 bits, the tests are
those of the circle exactly on one side of the wrap; and two spots that differ by a
shift fare alike when both are there. -/
theorem windows_on_circle {t : SpliceTimes} {currentPTS currentAudioPTS : ℤ} (ht : t.Proper)
    (hp : IsPTS currentPTS) (ha : IsPTS currentAudioPTS) :
    (windowTests t currentPTS currentAudioPTS = circleTests t currentPTS currentAudioPTS ↔
      OnOneSide t currentPTS currentAudioPTS) ∧
    ∀ d, OnOneSide t currentPTS currentAudioPTS →
      OnOneSide (t.shift d) (mask90k (currentPTS + d)) (mask90k (currentAudioPTS + d)) →
      ∀ video s,
        splicePass video (windowTests (t.shift d) (mask90k (currentPTS + d))
            (mask90k (currentAudioPTS + d))) s =
          splicePass video (windowTests t currentPTS currentAudioPTS) s := by
  refine ⟨windowTests_eq_circleTests_iff ht hp ha, fun d hside hshift video s => ?_⟩
  have htests : windowTests (t.shift d) (mask90k (currentPTS + d)) (mask90k (currentAudioPTS + d)) =
      windowTests t currentPTS currentAudioPTS := calc
    _ = circleTests (t.shift d) (mask90k (currentPTS + d)) (mask90k (currentAudioPTS + d)) :=
        (windowTests_eq_circleTests_iff (t.proper_shift d) (SpliceTimes.isPTS_mask90k _)
          (SpliceTimes.isPTS_mask90k _)).mpr hshift
    _ = circleTests t currentPTS currentAudioPTS := circleTests_shift t _ _ d
    _ = windowTests t currentPTS currentAudioPTS :=
        ((windowTests_eq_circleTests_iff ht hp ha).mpr hside).symm
  rw [htests]

/-- A spot of 30 seconds that starts just in front of the wrap, at a frame behind it, and the same
spot a little later. -/
theorem windows_on_circle_oneSide :
    windowTests (.replace 0 8589933592 2699000) 500 500 =
      circleTests (.replace 0 8589933592 2699000) 500 500 ∧
    ∀ video s,
      splicePass video (windowTests ((SpliceTimes.replace 0 8589933592 2699000).shift 5000)
          (mask90k (500 + 5000)) (mask90k (500 + 5000))) s =
        splicePass video (windowTests (.replace 0 8589933592 2699000) 500 500) s := by
  have hside : OnOneSide (.replace 0 8589933592 2699000) 500 500 :=
    ⟨Or.inl (by decide), Or.inl (by decide), Or.inl (by decide), by decide, by decide, by decide⟩
  have hshift : OnOneSide ((SpliceTimes.replace 0 8589933592 2699000).shift 5000)
      (mask90k (500 + 5000)) (mask90k (500 + 5000)) :=
    ⟨Or.inl (by decide), Or.inl (by decide), Or.inl (by decide), by decide, by decide, by decide⟩
  have htime : IsPTS 500 := by decide
  have hproper : (SpliceTimes.replace 0 8589933592 2699000).Proper :=
    SpliceTimes.proper_replace 0 8589933592 (by decide)
  have hcircle := windows_on_circle hproper htime htime
  exact ⟨hcircle.1.mpr hside, hcircle.2 5000 hside hshift⟩

/-- A spot of 30 seconds that starts just behind the wrap: a frame in front of the wrap
does not arm it. -/
theorem wrapped_spot_not_armed :
    windowTests (.replace 0 1000 2701000) 8589934492 8589934492 ≠
      circleTests (.replace 0 1000 2701000) 8589934492 8589934492 := by
  intro htests
  have harms := congrArg WindowTests.arms htests
  exact absurd harms (by decide)

end MediaFramework
