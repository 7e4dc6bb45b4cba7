import Mathlib.Data.List.Induction
import MediaFramework.Lib.Run
import MediaFramework.Rbi.Ac3Stream

/-!
# Counting AC-3 frames (`RBIStreamProcessor::getAC3FramePTS`)

To know when a frame of the audio begins, `getAC3FramePTS` counts the bytes that have come since
the current frame began. It sets the count at the last sync word of a packet that begins a PES
packet, and from then on takes a frame's size off it, once a packet, and adds a frame's duration
to the time stamp. `getAC3FrameSizeDuration` has read both off the first packet that says them.

`followAudio_right` — the count and the time stamps are right along every run of packets each of
which meets `Ok`.

What `Ok` asks for is not always so. A PES packet may have no time stamp, a sync word may be
found that is none, the last one found may be that of a second frame, the size of a frame at
44.1 kHz is not the one that is computed, more than one frame may end in a packet, and a time
stamp that is added to is not cut off at 33 bits. `followAudio_small_frames` is a run with frames
of 128 bytes, at the end of which 210 bytes are counted in a payload of 184.
-/

namespace MediaFramework

namespace AdTrim

/-- What is done with a packet of the ad's audio once its last video frame has come: the state
after it, and the time stamp of the frame that begins in it, or -1. -/
def followAudio (t : AdTrim) (p : Packet) (packetSize : ℕ) : AdTrim × ℤ :=
  let t := t.measure p packetSize
  if t.determineAdAC3FrameSizeDuration then (t, -1)
  else
    let (info, audioPTS) := t.adAC3FrameInfo.getAC3FramePTS p packetSize t.currentAdAudioPTS
    ({ t with
        adAC3FrameInfo := info
        currentAdAudioPTS := if audioPTS = -1 then t.currentAdAudioPTS else audioPTS }, audioPTS)

end AdTrim

namespace Ac3Frames

/-! ## What is asked for -/

/-- Where sync words are looked for in a packet with a PES header. -/
def window (p : Packet) (packetSize : ℕ) : List ℕ := p.syncWords p.elementaryOffset packetSize

/-- A step of the code, and of the packets through the stream. -/
def step (s : Ac3Stream) (packetSize : ℕ) (c : AdTrim × Place) (p : Packet) :
    Option (AdTrim × Place) :=
  some ((c.1.followAudio p packetSize).1, c.2.advance p s)

/-- The packet leaves the code right: it has looked up bit rates that are there; if a frame begins,
what is counted of it lies in the packet's payload; and a time stamp is that of the frame that
begins so many bytes before the end of the packet. -/
structure Right (s : Ac3Stream) (packetSize : ℕ) (c : AdTrim × Place) (p : Packet) : Prop where
  inside : c.1.determineAdAC3FrameSizeDuration = true → p.startsPES = true →
    p.pesStartCode = true →
    ∀ i ∈ p.syncWords (p.payload + (9 + (p (p.payload + 8)).toNat)) packetSize,
      InTable (p (i + 4))
  counted : let t := (c.1.followAudio p packetSize).1
    t.determineAdAC3FrameSizeDuration = false →
      t.adAC3FrameInfo.syncByteDetectedInPacket = true →
        0 ≤ t.adAC3FrameInfo.byteCnt ∧ t.adAC3FrameInfo.byteCnt ≤ 188 - p.payload
  timed : let t := (c.1.followAudio p packetSize).1
    let x := c.2.advance p s
    (c.1.followAudio p packetSize).2 ≠ -1 → ∃ k : ℕ,
      s.begins (x.frame + k) + t.adAC3FrameInfo.byteCnt = x.pos ∧
        (c.1.followAudio p packetSize).2 = (x.pts + k * t.adAC3FrameInfo.duration) % 2 ^ 33

/-- The last sync word of a packet is where the frame begins that its time stamp is of; without a
sync word, what is still counted is what has come of that frame. Without a time stamp nothing of
another frame has come before, or nothing comes at all. -/
def Located (s : Ac3Stream) (c : AdTrim × Place) (p : Packet) : Option ℕ → Bool → Prop
  | some i, true => s.begins (s.firstFrom c.2.pos) = c.2.pos + (i - p.elementaryOffset)
  | some i, false => c.1.determineAdAC3FrameSizeDuration = false ∧
      c.1.adAC3FrameInfo.byteCnt = 0 ∧ i = p.elementaryOffset
  | none, true => s.begins (s.firstFrom c.2.pos) + c.1.adAC3FrameInfo.byteCnt =
      c.2.pos + (188 - p.elementaryOffset : ℕ)
  | none, false => 188 ≤ p.elementaryOffset

instance (s : Ac3Stream) (c : AdTrim × Place) (p : Packet) :
    ∀ last hasPts, Decidable (Located s c p last hasPts)
  | some _, true => inferInstanceAs (Decidable (_ = _))
  | some _, false => inferInstanceAs (Decidable (_ ∧ _))
  | none, true => inferInstanceAs (Decidable (_ = _))
  | none, false => inferInstanceAs (Decidable (_ ≤ _))

/-- What a packet that begins a PES packet has to be like. -/
structure OkFirst (s : Ac3Stream) (packetSize : ℕ) (c : AdTrim × Place) (p : Packet) : Prop where
  /-- The header lies in the packet, -/
  complete : HeaderComplete p.content
  /-- and so does its time stamp. -/
  stamped : p.hasPts = true → 14 ≤ p.content.length
  /-- A sync word that is not where a frame begins does not name a bit rate there is none of. -/
  known : c.1.determineAdAC3FrameSizeDuration = true → ∀ i ∈ window p packetSize,
    (i + 4 < 188 → ∀ j < s.frames.length, s.begins j ≠ c.2.pos + (i - p.elementaryOffset)) →
      InTable (p (i + 4))
  /-- The last sync word is the right one, unless nothing comes to be known of the frames. -/
  located :
    (c.1.determineAdAC3FrameSizeDuration = true ∧
      ∀ i ∈ window p packetSize, fscod (p (i + 4)) = 3) ∨
    Located s c p (window p packetSize).getLast? p.hasPts

instance (s : Ac3Stream) (packetSize : ℕ) (c : AdTrim × Place) (p : Packet) :
    Decidable (OkFirst s packetSize c p) :=
  decidable_of_iff
    (HeaderComplete p.content ∧ (p.hasPts = true → 14 ≤ p.content.length) ∧
      (c.1.determineAdAC3FrameSizeDuration = true → ∀ i ∈ window p packetSize,
        (i + 4 < 188 →
            ∀ j < s.frames.length, s.begins j ≠ c.2.pos + (i - p.elementaryOffset)) →
          InTable (p (i + 4))) ∧
      ((c.1.determineAdAC3FrameSizeDuration = true ∧
          ∀ i ∈ window p packetSize, fscod (p (i + 4)) = 3) ∨
        Located s c p (window p packetSize).getLast? p.hasPts))
    ⟨fun h => ⟨h.1, h.2.1, h.2.2.1, h.2.2.2⟩,
      fun h => ⟨h.complete, h.stamped, h.known, h.located⟩⟩

/-- What a packet that goes on with a PES packet has to be like: no more than a frame is counted
before it, and if one ends in it, that one is as long as is thought, and the time stamp behind it
has 33 bits. -/
structure OkRest (s : Ac3Stream) (c : AdTrim × Place) (p : Packet) : Prop where
  behind : c.1.adAC3FrameInfo.byteCnt ≤ c.1.adAC3FrameInfo.size
  sized : c.1.adAC3FrameInfo.size ≤ c.1.adAC3FrameInfo.byteCnt + (188 - p.payload) →
    ∀ j, ∀ h : j < s.frames.length, s.begins j + c.1.adAC3FrameInfo.byteCnt = c.2.pos →
      s.frames[j].bytes.length = c.1.adAC3FrameInfo.size
  unwrapped : c.1.adAC3FrameInfo.size ≤ c.1.adAC3FrameInfo.byteCnt + (188 - p.payload) →
    c.1.currentAdAudioPTS + c.1.adAC3FrameInfo.duration < 2 ^ 33

instance (s : Ac3Stream) (c : AdTrim × Place) (p : Packet) : Decidable (OkRest s c p) :=
  decidable_of_iff
    (c.1.adAC3FrameInfo.byteCnt ≤ c.1.adAC3FrameInfo.size ∧
      (c.1.adAC3FrameInfo.size ≤ c.1.adAC3FrameInfo.byteCnt + (188 - p.payload) →
        ∀ j, ∀ h : j < s.frames.length, s.begins j + c.1.adAC3FrameInfo.byteCnt = c.2.pos →
          s.frames[j].bytes.length = c.1.adAC3FrameInfo.size) ∧
      (c.1.adAC3FrameInfo.size ≤ c.1.adAC3FrameInfo.byteCnt + (188 - p.payload) →
        c.1.currentAdAudioPTS + c.1.adAC3FrameInfo.duration < 2 ^ 33))
    ⟨fun h => ⟨h.1, h.2.1, h.2.2⟩, fun h => ⟨h.behind, h.sized, h.unwrapped⟩⟩

/-- What the code relies on in a packet, and in what it has counted before it. -/
def Ok (s : Ac3Stream) (packetSize : ℕ) (c : AdTrim × Place) (p : Packet) : Prop :=
  (p.startsPES = true → OkFirst s packetSize c p) ∧
    (p.startsPES = false → p.hasPayload = true →
      c.1.determineAdAC3FrameSizeDuration = false → OkRest s c p)

instance (s : Ac3Stream) (packetSize : ℕ) (c : AdTrim × Place) (p : Packet) :
    Decidable (Ok s packetSize c p) := inferInstanceAs (Decidable (_ ∧ _))

/-- Between two packets: so many bytes of a frame have come, and the time stamp is that frame's. -/
structure Counting (s : Ac3Stream) (c : AdTrim × Place) : Prop where
  header : c.2.header = none
  pos : c.2.pos ≤ s.bytes.length
  pts : 0 ≤ c.2.pts
  current : c.1.determineAdAC3FrameSizeDuration = false → c.1.currentAdAudioPTS < 2 ^ 33
  duration : c.1.determineAdAC3FrameSizeDuration = false → 0 < c.1.adAC3FrameInfo.duration
  size : c.1.determineAdAC3FrameSizeDuration = false → 0 < c.1.adAC3FrameInfo.size
  byteCnt : c.1.determineAdAC3FrameSizeDuration = false → 0 ≤ c.1.adAC3FrameInfo.byteCnt
  begun : c.1.determineAdAC3FrameSizeDuration = false → ∃ k : ℕ,
    s.begins (c.2.frame + k) + c.1.adAC3FrameInfo.byteCnt = c.2.pos ∧
      c.1.currentAdAudioPTS = c.2.pts + k * c.1.adAC3FrameInfo.duration

/-! ## Reading the size and the duration -/

section Measure

variable {t : AdTrim} {info : Ac3FrameInfo} {p : Packet} {packetSize : ℕ}

theorem readFrame_of_reserved {i : ℕ} (h : fscod (p (i + 4)) = 3) : info.readFrame p i = info := by
  rw [fscod] at h
  rw [Ac3FrameInfo.readFrame]
  simp only [h]

/-- What no sync word says stays unknown. -/
theorem foldl_readFrame_of_reserved : ∀ {l : List ℕ} {info : Ac3FrameInfo},
    (∀ i ∈ l, fscod (p (i + 4)) = 3) → l.foldl (fun info i => info.readFrame p i) info = info
  | [], _, _ => rfl
  | i :: l, info, h => by
    rw [List.foldl_cons, readFrame_of_reserved (h i List.mem_cons_self)]
    exact foldl_readFrame_of_reserved fun i hi => h i (List.mem_cons_of_mem _ hi)

theorem measure_of_not_starts (t : AdTrim) (packetSize : ℕ) (h : p.startsPES = false) :
    t.measure p packetSize = t := by
  rw [AdTrim.measure, Bool.and_assoc _ p.hasPayload, ← Packet.startsPES, h, Bool.and_false,
    Bool.false_and, if_neg Bool.false_ne_true]

theorem measure_of_known (h : t.determineAdAC3FrameSizeDuration = false) :
    t.measure p packetSize = t := by
  rw [AdTrim.measure, h, Bool.false_and, Bool.false_and, Bool.false_and,
    if_neg Bool.false_ne_true]

/-- Reading the size does not touch the time stamp. -/
theorem measure_current : (t.measure p packetSize).currentAdAudioPTS = t.currentAdAudioPTS := by
  rw [AdTrim.measure]
  split_ifs <;> rfl

/-- Where sync words are looked for, once the header is there. -/
theorem elementaryOffset_eq (h : p.hasPayload = true) (hcomplete : HeaderComplete p.content) :
    p.payload + (9 + (p (p.payload + 8)).toNat) = p.elementaryOffset := by
  have hlong : pesHeaderLength p.content ≤ p.content.length := hcomplete
  rw [pesHeaderLength] at hlong
  rw [Packet.elementaryOffset, pesHeaderLength, Packet.content_getD h (by omega)]

theorem measure_of_starts (h : p.startsPES = true) (hcomplete : HeaderComplete p.content)
    (hcode : p.pesStartCode = true) (hdetermine : t.determineAdAC3FrameSizeDuration = true) :
    t.measure p packetSize =
      let info := (window p packetSize).foldl (fun info i => info.readFrame p i)
        { t.adAC3FrameInfo with duration := -1, size := -1, byteCnt := 0 }
      { t with
        adAC3FrameInfo := info
        determineAdAC3FrameSizeDuration :=
          !(decide (0 < info.duration) && decide (0 < info.size)) } := by
  rw [AdTrim.measure, Bool.and_assoc _ p.hasPayload, ← Packet.startsPES, h, hdetermine, hcode,
    if_pos (by rfl)]
  simp only [Ac3FrameInfo.getAC3FrameSizeDuration,
    elementaryOffset_eq (Bool.and_eq_true_iff.mp h).1 hcomplete, window]
  rfl

/-- Once the size is known, it is one. -/
theorem measure_pos (h : p.startsPES = true) (hcomplete : HeaderComplete p.content)
    (hcode : p.pesStartCode = true) (hdetermine : t.determineAdAC3FrameSizeDuration = true)
    (hknown : (t.measure p packetSize).determineAdAC3FrameSizeDuration = false) :
    0 < (t.measure p packetSize).adAC3FrameInfo.duration ∧
      0 < (t.measure p packetSize).adAC3FrameInfo.size := by
  rw [measure_of_starts h hcomplete hcode hdetermine] at hknown ⊢
  simpa using hknown

/-- Sync words of no frame leave everything unknown. -/
theorem measure_of_reserved (h : p.startsPES = true) (hcomplete : HeaderComplete p.content)
    (hcode : p.pesStartCode = true) (hdetermine : t.determineAdAC3FrameSizeDuration = true)
    (hreserved : ∀ i ∈ window p packetSize, fscod (p (i + 4)) = 3) :
    (t.measure p packetSize).determineAdAC3FrameSizeDuration = true := by
  rw [measure_of_starts h hcomplete hcode hdetermine]
  simp only [foldl_readFrame_of_reserved hreserved]
  rfl

end Measure

/-! ## Counting -/

section Count

variable {t : AdTrim} {info : Ac3FrameInfo} {p : Packet} {packetSize : ℕ} {currentAudioPTS : ℤ}

theorem le_of_mem_window {i : ℕ} (h : i ∈ window p packetSize) :
    p.elementaryOffset ≤ i ∧ i < packetSize - 5 ∧ p.syncWord i = true := by
  obtain ⟨hrange, hsync⟩ := List.mem_filter.mp h
  obtain ⟨j, hj, rfl⟩ := List.mem_range'.mp hrange
  exact ⟨by omega, by omega, hsync⟩

/-- Of the sync words that are found, the last one counts. -/
theorem foldl_found (l : List ℤ) :
    l.foldl (fun (info : Ac3FrameInfo) (i : ℤ) =>
        { info with byteCnt := 188 - i, syncByteDetectedInPacket := true }) info =
      match l.getLast? with
      | none => info
      | some i => { info with byteCnt := 188 - i, syncByteDetectedInPacket := true } := by
  induction l using List.reverseRecOn with
  | nil => rfl
  | append_singleton l i ih =>
    rw [List.foldl_append, ih, List.getLast?_concat]
    cases l.getLast? <;> rfl

/-- A packet that begins a PES packet. -/
theorem getAC3FramePTS_of_starts (info : Ac3FrameInfo) (packetSize : ℕ) (currentAudioPTS : ℤ)
    (h : p.startsPES = true) (hcomplete : HeaderComplete p.content)
    (hcode : p.pesStartCode = true) :
    let r := info.getAC3FramePTS p packetSize currentAudioPTS
    r.1.duration = info.duration ∧ r.1.size = info.size ∧
      r.1.byteCnt = ((window p packetSize).getLast?.map fun i => (188 - i : ℤ)).getD info.byteCnt ∧
      r.1.syncByteDetectedInPacket = (window p packetSize).getLast?.isSome ∧
      r.2 = if p.hasPts then (p.readTimeStamp (p.payload + 9) : ℤ) else -1 := by
  obtain ⟨hpayload, hstart⟩ := Bool.and_eq_true_iff.mp h
  have hcast : ∀ l : List ℕ, (do let i ← l; pure (i : ℤ)) = l.map fun i : ℕ => (i : ℤ) :=
    fun l => List.map_eq_flatMap.symm
  simp only [Ac3FrameInfo.getAC3FramePTS, Ac3FrameInfo.startPES, hpayload, hstart, hcode, if_true,
    elementaryOffset_eq hpayload hcomplete, window, hcast, foldl_found, List.getLast?_map]
  cases (p.syncWords p.elementaryOffset packetSize).getLast? <;>
    exact ⟨rfl, rfl, rfl, rfl, trivial⟩

/-- A packet that goes on with a PES packet. -/
theorem getAC3FramePTS_of_not_starts (info : Ac3FrameInfo) (packetSize : ℕ) (currentAudioPTS : ℤ)
    (h : p.startsPES = false) (hpayload : p.hasPayload = true) :
    info.getAC3FramePTS p packetSize currentAudioPTS =
      if info.size ≤ info.byteCnt + (188 - p.payload) then
        ({ info with
          byteCnt := info.byteCnt + (188 - p.payload) - info.size
          frameCnt := info.frameCnt + 1
          syncByteDetectedInPacket := true }, currentAudioPTS + info.duration)
      else
        ({ info with
          byteCnt := info.byteCnt + (188 - p.payload)
          syncByteDetectedInPacket := false }, -1) := by
  rw [Packet.startsPES, hpayload, Bool.true_and] at h
  rw [Ac3FrameInfo.getAC3FramePTS, hpayload, h]
  rfl

/-- A packet without a payload. -/
theorem getAC3FramePTS_of_not_hasPayload (info : Ac3FrameInfo) (packetSize : ℕ)
    (currentAudioPTS : ℤ) (h : p.hasPayload = false) :
    info.getAC3FramePTS p packetSize currentAudioPTS =
      ({ info with syncByteDetectedInPacket := false }, -1) := by
  rw [Ac3FrameInfo.getAC3FramePTS, h]
  rfl

theorem followAudio_of_unknown
    (h : (t.measure p packetSize).determineAdAC3FrameSizeDuration = true) :
    t.followAudio p packetSize = (t.measure p packetSize, -1) := by
  rw [AdTrim.followAudio]
  simp only [h, if_true]

theorem followAudio_of_known
    (h : (t.measure p packetSize).determineAdAC3FrameSizeDuration = false) :
    t.followAudio p packetSize =
      let r := (t.measure p packetSize).adAC3FrameInfo.getAC3FramePTS p packetSize
        t.currentAdAudioPTS
      ({ t.measure p packetSize with
          adAC3FrameInfo := r.1
          currentAdAudioPTS := if r.2 = -1 then t.currentAdAudioPTS else r.2 }, r.2) := by
  rw [AdTrim.followAudio]
  simp only [h, Bool.false_eq_true, if_false, measure_current]

end Count

/-! ## A step -/

section Step

variable {s : Ac3Stream} {c : AdTrim × Place} {p : Packet} {packetSize : ℕ}

/-- The state behind a packet. -/
def behind (s : Ac3Stream) (packetSize : ℕ) (c : AdTrim × Place) (p : Packet) : AdTrim × Place :=
  ((c.1.followAudio p packetSize).1, c.2.advance p s)

theorem pesStartCode_of_carries (hcarries : Carries s c.2 p) (h : p.startsPES = true)
    (hcomplete : HeaderComplete p.content) : p.pesStartCode = true := by
  have hpayload : p.hasPayload = true := (Bool.and_eq_true_iff.mp h).1
  obtain ⟨rest, hrest⟩ := hcarries.startCode p.content (Place.headerWith_of_starts h) hcomplete
  have hbyte : ∀ i < 3, p (p.payload + i) = ([0x00, 0x00, 0x01] ++ rest).getD i 0 := fun i hi => by
    rw [hrest, Packet.content_getD hpayload]
    rw [← hrest, List.length_append]
    exact lt_of_lt_of_le hi (Nat.le_add_right _ _)
  rw [Packet.pesStartCode, hbyte 1 (by decide), hbyte 2 (by decide)]
  have hzero := hbyte 0 (by decide)
  rw [Nat.add_zero] at hzero
  rw [hzero]
  rfl

/-- What a packet carries of a frame that begins in it. -/
theorem code_of_begins (hcarries : Carries s c.2 p) (h : p.startsPES = true) {i j : ℕ}
    (hi : p.elementaryOffset ≤ i) (hlt : i + 4 < 188) (hj : j < s.frames.length)
    (hbegins : s.begins j = c.2.pos + (i - p.elementaryOffset)) :
    p (i + 4) = s.frames[j].bytes.getD 4 0 := by
  have hpayload : p.hasPayload = true := (Bool.and_eq_true_iff.mp h).1
  have hes := hcarries.elementary
  rw [Place.elementary_of_some (Place.headerWith_of_starts h)] at hes
  obtain ⟨rest, hrest⟩ := hes
  have hoffset : p.elementaryOffset = p.payload + pesHeaderLength p.content := rfl
  have hlen := Packet.length_content hpayload
  -- the byte in the packet
  have hbyte : (p.content.drop (pesHeaderLength p.content)).getD (i - p.elementaryOffset + 4) 0 =
      p (i + 4) := by
    rw [List.getD_eq_getElem?_getD, List.getElem?_drop, ← List.getD_eq_getElem?_getD,
      Packet.content_getD hpayload (by omega)]
    congr 1
    omega
  -- and in the stream
  rw [← hbyte, ← List.getD_append _ rest _ _ (by rw [List.length_drop]; omega), hrest,
    List.getD_eq_getElem?_getD, List.getElem?_drop, ← Nat.add_assoc, ← hbegins,
    ← List.getElem?_drop, Ac3Stream.drop_begins hj,
    List.getElem?_append_left s.frames[j].four_lt_length, ← List.getD_eq_getElem?_getD]

/-- Every bit rate that is looked up is there. -/
theorem inTable_of_okFirst (hcarries : Carries s c.2 p) (h : p.startsPES = true)
    (hok : OkFirst s packetSize c p) (hdetermine : c.1.determineAdAC3FrameSizeDuration = true)
    {i : ℕ} (hi : i ∈ window p packetSize) : InTable (p (i + 4)) := by
  by_cases hstray : i + 4 < 188 → ∀ j < s.frames.length,
      s.begins j ≠ c.2.pos + (i - p.elementaryOffset)
  · exact hok.known hdetermine i hi hstray
  · simp only [Classical.not_imp, not_forall, ne_eq, not_not] at hstray
    obtain ⟨hlt, j, hj, hbegins⟩ := hstray
    rw [code_of_begins hcarries h (le_of_mem_window hi).1 hlt hj hbegins]
    exact s.frames[j].inTable

/-- As long as nothing is known of the frames nothing is counted. -/
theorem kept_of_unknown (hheader : (c.2.advance p s).header = none)
    (hpos : (c.2.advance p s).pos ≤ s.bytes.length) (hpts : 0 ≤ (c.2.advance p s).pts)
    (hinside : c.1.determineAdAC3FrameSizeDuration = true → p.startsPES = true →
      p.pesStartCode = true →
      ∀ i ∈ p.syncWords (p.payload + (9 + (p (p.payload + 8)).toNat)) packetSize,
        InTable (p (i + 4)))
    (hunknown : (c.1.measure p packetSize).determineAdAC3FrameSizeDuration = true) :
    Right s packetSize c p ∧ Counting s (behind s packetSize c p) := by
  have hfollow := followAudio_of_unknown hunknown
  have hno : ∀ {P : Prop},
      (c.1.followAudio p packetSize).1.determineAdAC3FrameSizeDuration = false → P := fun h => by
    rw [hfollow] at h
    exact absurd (hunknown.symm.trans h) (by decide)
  exact ⟨⟨hinside, hno, fun h => absurd (by rw [hfollow]) h⟩, hheader, hpos, hpts, hno, hno, hno,
    hno, hno⟩

/-- Once the size is known, what is counted is right if it is what has come of a frame that the
time stamp is of. -/
theorem kept_of_known (hheader : (c.2.advance p s).header = none)
    (hpos : (c.2.advance p s).pos ≤ s.bytes.length) (hpts : 0 ≤ (c.2.advance p s).pts)
    (hinside : c.1.determineAdAC3FrameSizeDuration = true → p.startsPES = true →
      p.pesStartCode = true →
      ∀ i ∈ p.syncWords (p.payload + (9 + (p (p.payload + 8)).toNat)) packetSize,
        InTable (p (i + 4)))
    {t : AdTrim} (hmeasure : c.1.measure p packetSize = t)
    (hknown : t.determineAdAC3FrameSizeDuration = false) {info : Ac3FrameInfo} {audioPTS : ℤ}
    (hframe : t.adAC3FrameInfo.getAC3FramePTS p packetSize c.1.currentAdAudioPTS =
      (info, audioPTS))
    (hduration : 0 < info.duration) (hsize : 0 < info.size) (hbyteCnt : 0 ≤ info.byteCnt)
    (hcounted : info.syncByteDetectedInPacket = true → info.byteCnt ≤ 188 - p.payload)
    {current : ℤ} (hcurrent : (if audioPTS = -1 then c.1.currentAdAudioPTS else audioPTS) = current)
    (hlt : current < 2 ^ 33) {k : ℕ}
    (hbegun : s.begins ((c.2.advance p s).frame + k) + info.byteCnt = (c.2.advance p s).pos)
    (htime : current = (c.2.advance p s).pts + k * info.duration) :
    Right s packetSize c p ∧ Counting s (behind s packetSize c p) := by
  have hfollow : c.1.followAudio p packetSize =
      ({ t with
          adAC3FrameInfo := info
          currentAdAudioPTS := current }, audioPTS) := by
    subst hmeasure
    rw [followAudio_of_known hknown, hframe, ← hcurrent]
  have hnonneg : 0 ≤ k * info.duration := 
    Int.mul_nonneg (Int.natCast_nonneg k) (Int.le_of_lt hduration)
  refine ⟨⟨hinside, ?_, ?_⟩, hheader, hpos, hpts, ?_, ?_, ?_, ?_, ?_⟩
  all_goals simp only [behind, hfollow]
  · exact fun _ hsync => ⟨hbyteCnt, hcounted hsync⟩
  · intro hsome
    refine ⟨k, hbegun, ?_⟩
    rw [if_neg hsome] at hcurrent
    rw [hcurrent, htime, Int.emod_eq_of_lt (by omega) (by omega)]
  · exact fun _ => hlt
  · exact fun _ => hduration
  · exact fun _ => hsize
  · exact fun _ => hbyteCnt
  · exact fun _ => ⟨k, hbegun, htime⟩

/-- A packet without a payload changes nothing. -/
theorem step_of_not_hasPayload (hc : Counting s c) (hcarries : Carries s c.2 p)
    (h : p.hasPayload = false) :
    Right s packetSize c p ∧ Counting s (behind s packetSize c p) := by
  have hpos := hcarries.pos_le hc.pos
  have hstarts : p.startsPES = false := by rw [Packet.startsPES, h, Bool.false_and]
  have hadvance : c.2.advance p s = c.2 := by
    rw [Place.advance_of_none (Place.headerWith_of_not_starts hstarts hc.header), Packet.content, h]
    rfl
  have hmeasure := measure_of_not_starts c.1 packetSize hstarts
  have hinside : c.1.determineAdAC3FrameSizeDuration = true → p.startsPES = true →
      p.pesStartCode = true →
      ∀ i ∈ p.syncWords (p.payload + (9 + (p (p.payload + 8)).toNat)) packetSize,
        InTable (p (i + 4)) := fun _ hpes => absurd (hstarts.symm.trans hpes) (by decide)
  rcases hdetermine : c.1.determineAdAC3FrameSizeDuration with _ | _
  · obtain ⟨k, hbegun, htime⟩ := hc.begun hdetermine
    refine kept_of_known (by rw [hadvance]; exact hc.header) hpos (by rw [hadvance]; exact hc.pts)
      hinside hmeasure hdetermine
      (getAC3FramePTS_of_not_hasPayload c.1.adAC3FrameInfo packetSize c.1.currentAdAudioPTS h)
      (hc.duration hdetermine) (hc.size hdetermine) (hc.byteCnt hdetermine)
      (fun hsync => absurd hsync Bool.false_ne_true) (if_pos rfl) (hc.current hdetermine)
      (k := k) ?_ ?_
    · rw [hadvance]
      exact hbegun
    · rw [hadvance]
      exact htime
  · exact kept_of_unknown (by rw [hadvance]; exact hc.header) hpos (by rw [hadvance]; exact hc.pts)
      hinside (by rw [hmeasure]; exact hdetermine)

/-- A packet that goes on with a PES packet ends at most one frame. -/
theorem step_of_not_starts (hc : Counting s c) (hcarries : Carries s c.2 p)
    (h : p.startsPES = false) (hpayload : p.hasPayload = true)
    (hok : c.1.determineAdAC3FrameSizeDuration = false → OkRest s c p) :
    Right s packetSize c p ∧ Counting s (behind s packetSize c p) := by
  have hpos := hcarries.pos_le hc.pos
  have hadvance : c.2.advance p s = { c.2 with pos := c.2.pos + (188 - p.payload) } := by
    rw [Place.advance_of_none (Place.headerWith_of_not_starts h hc.header),
      Packet.length_content hpayload]
  have hmeasure := measure_of_not_starts c.1 packetSize h
  have hinside : c.1.determineAdAC3FrameSizeDuration = true → p.startsPES = true →
      p.pesStartCode = true →
      ∀ i ∈ p.syncWords (p.payload + (9 + (p (p.payload + 8)).toNat)) packetSize,
        InTable (p (i + 4)) := fun _ hpes => absurd (h.symm.trans hpes) (by decide)
  rcases hdetermine : c.1.determineAdAC3FrameSizeDuration with _ | _
  · obtain ⟨k, hbegun, htime⟩ := hc.begun hdetermine
    have hrest := hok hdetermine
    have hfits := hcarries.fits
    have hbyteCnt := hc.byteCnt hdetermine
    have hduration := hc.duration hdetermine
    have hframe := getAC3FramePTS_of_not_starts c.1.adAC3FrameInfo packetSize
      c.1.currentAdAudioPTS h hpayload
    have hbehind := hrest.behind
    have hnonneg : 0 ≤ k * c.1.adAC3FrameInfo.duration :=
      Int.mul_nonneg (Int.natCast_nonneg k) (Int.le_of_lt hduration)
    have hpts := hc.pts
    by_cases hends : c.1.adAC3FrameInfo.size ≤ c.1.adAC3FrameInfo.byteCnt + (188 - p.payload)
    · -- a frame ends, and the next one begins
      rw [if_pos hends] at hframe
      have hj : c.2.frame + k < s.frames.length := by
        have hsize := hc.size hdetermine
        rw [hadvance] at hpos
        dsimp only at hpos
        exact Ac3Stream.lt_length_of_begins_lt (by omega)
      have hnext := Ac3Stream.begins_succ hj
      have hsized := hrest.sized hends _ hj hbegun
      refine kept_of_known (by rw [hadvance]; exact hc.header) hpos (by rw [hadvance]; exact hpts)
        hinside hmeasure hdetermine hframe hduration (hc.size hdetermine) (by dsimp only; omega)
        (fun _ => by dsimp only; omega)
        (if_neg (by omega)) (hrest.unwrapped hends) (k := k + 1) ?_ ?_
      · rw [hadvance]
        rw [← Nat.add_assoc, hnext]
        push_cast
        omega
      · rw [hadvance, htime, show ((k + 1 : ℕ) : ℤ) = k + 1 from rfl, Int.add_mul, Int.one_mul,
          Int.add_assoc]
    · -- the frame goes on
      rw [if_neg hends] at hframe
      refine kept_of_known (by rw [hadvance]; exact hc.header) hpos (by rw [hadvance]; exact hpts)
        hinside hmeasure hdetermine hframe hduration (hc.size hdetermine) (by dsimp only; omega)
        (fun hsync => absurd hsync Bool.false_ne_true) (if_pos rfl) (hc.current hdetermine)
        (k := k) ?_ ?_
      · rw [hadvance]
        dsimp only
        omega
      · rw [hadvance]
        exact htime
  · exact kept_of_unknown (by rw [hadvance]; exact hc.header) hpos (by rw [hadvance]; exact hc.pts)
      hinside (by rw [hmeasure]; exact hdetermine)

/-- A packet that begins a PES packet sets the count, or leaves it. -/
theorem step_of_starts (hsize : packetSize = 188 ∨ packetSize = 192) (hc : Counting s c)
    (hcarries : Carries s c.2 p) (h : p.startsPES = true) (hok : OkFirst s packetSize c p) :
    Right s packetSize c p ∧ Counting s (behind s packetSize c p) := by
  have hpayload : p.hasPayload = true := (Bool.and_eq_true_iff.mp h).1
  have hcode := pesStartCode_of_carries hcarries h hok.complete
  have hadvance := Place.advance_of_starts (x := c.2) (s := s) h hok.complete hok.stamped
  have hheader : (c.2.advance p s).header = none := by
    rw [hadvance]
    split_ifs <;> rfl
  have hpts : 0 ≤ (c.2.advance p s).pts := by
    rw [hadvance]
    split_ifs
    · exact Int.natCast_nonneg _
    · exact hc.pts
  have hwithin := hcarries.pos_le hc.pos
  have hpos : (c.2.advance p s).pos = c.2.pos + (188 - p.elementaryOffset) := by
    rw [hadvance]
    split_ifs <;> rfl
  have hinside : c.1.determineAdAC3FrameSizeDuration = true → p.startsPES = true →
      p.pesStartCode = true →
      ∀ i ∈ p.syncWords (p.payload + (9 + (p (p.payload + 8)).toNat)) packetSize,
        InTable (p (i + 4)) := by
    intro hdetermine _ _ i hi
    rw [elementaryOffset_eq hpayload hok.complete] at hi
    exact inTable_of_okFirst hcarries h hok hdetermine hi
  rcases hm : (c.1.measure p packetSize).determineAdAC3FrameSizeDuration with _ | _
  swap
  · exact kept_of_unknown hheader hwithin hpts hinside hm
  -- the size is known
  have hpositive : 0 < (c.1.measure p packetSize).adAC3FrameInfo.duration ∧
      0 < (c.1.measure p packetSize).adAC3FrameInfo.size := by
    rcases hdetermine : c.1.determineAdAC3FrameSizeDuration with _ | _
    · rw [measure_of_known hdetermine]
      exact ⟨hc.duration hdetermine, hc.size hdetermine⟩
    · exact measure_pos h hok.complete hcode hdetermine hm
  have hlocated := hok.located.resolve_left fun ⟨hdetermine, hreserved⟩ => by
    have hunknown := measure_of_reserved h hok.complete hcode hdetermine hreserved
    exact absurd (hm.symm.trans hunknown) (by decide)
  obtain ⟨hd, hs, hb, hsync, hp⟩ := getAC3FramePTS_of_starts
    (c.1.measure p packetSize).adAC3FrameInfo packetSize c.1.currentAdAudioPTS h hok.complete hcode
  rcases hr : (c.1.measure p packetSize).adAC3FrameInfo.getAC3FramePTS p packetSize
    c.1.currentAdAudioPTS with ⟨info, audioPTS⟩
  rw [hr] at hd hs hb hsync hp
  rw [← hd, ← hs] at hpositive
  have hkept := @kept_of_known s c p packetSize hheader hwithin hpts hinside _ rfl hm _ _ hr
    hpositive.1 hpositive.2
  have hstamp := p.readTimeStamp_lt (p.payload + 9)
  have hoffset : p.payload + 9 ≤ p.elementaryOffset :=
    Nat.add_le_add_left (Nat.le_add_right _ _) _
  rcases hlast : (window p packetSize).getLast? with _ | i
  · -- the bytes before are counted on
    have hnone : window p packetSize = [] := List.getLast?_eq_none_iff.mp hlast
    have hdetermine : c.1.determineAdAC3FrameSizeDuration = false := by
      refine Bool.eq_false_of_not_eq_true fun hdetermine => ?_
      have hreserved : ∀ i ∈ window p packetSize, fscod (p (i + 4)) = 3 := by
        rw [hnone]
        exact fun i hi => absurd hi List.not_mem_nil
      have hunknown := measure_of_reserved h hok.complete hcode hdetermine hreserved
      exact absurd (hm.symm.trans hunknown) (by decide)
    rw [hlast, measure_of_known hdetermine] at hb
    rw [hlast] at hlocated hsync
    change info.byteCnt = c.1.adAC3FrameInfo.byteCnt at hb
    have hbyteCnt := hc.byteCnt hdetermine
    rcases hhas : p.hasPts with _ | _
    · rw [hhas] at hlocated hp hadvance
      obtain ⟨k, hbegun, htime⟩ := hc.begun hdetermine
      rw [measure_of_known hdetermine] at hd
      refine hkept (by omega) (fun hfound => absurd (hsync.symm.trans hfound) Bool.false_ne_true)
        (if_pos hp) (hc.current hdetermine) (k := k) ?_ ?_
      · rw [hpos, hadvance, hb]
        change (s.begins (c.2.frame + k) : ℤ) + _ = _
        change 188 ≤ p.elementaryOffset at hlocated
        omega
      · rw [hadvance, hd]
        exact htime
    · rw [hhas] at hlocated hp hadvance
      rw [if_pos rfl] at hp
      refine hkept (by omega) (fun hfound => absurd (hsync.symm.trans hfound) Bool.false_ne_true)
        ((if_neg (by omega)).trans hp) (by omega) (k := 0) ?_ ?_
      · rw [hpos, hadvance, hb]
        exact hlocated
      · rw [hadvance]
        simp
  · -- what is behind the last sync word is counted
    have hi := le_of_mem_window (List.mem_of_getLast? hlast)
    rw [hlast] at hlocated hb
    change info.byteCnt = 188 - i at hb
    rcases hhas : p.hasPts with _ | _
    · rw [hhas] at hlocated hp hadvance
      obtain ⟨hdetermine, hbyteCnt, rfl⟩ := hlocated
      obtain ⟨k, hbegun, htime⟩ := hc.begun hdetermine
      rw [measure_of_known hdetermine] at hd
      refine hkept (by omega) (fun _ => by omega) (if_pos hp) (hc.current hdetermine) (k := k) ?_ ?_
      · rw [hpos, hadvance, hb]
        change (s.begins (c.2.frame + k) : ℤ) + _ = _
        omega
      · rw [hadvance, hd]
        exact htime
    · rw [hhas] at hlocated hp hadvance
      rw [if_pos rfl] at hp
      refine hkept (by omega) (fun _ => by omega) ((if_neg (by omega)).trans hp) (by omega)
        (k := 0) ?_ ?_
      · rw [hpos, hadvance, hb]
        change (s.begins (s.firstFrom c.2.pos) : ℤ) + _ = _
        change s.begins (s.firstFrom c.2.pos) = _ at hlocated
        omega
      · rw [hadvance]
        simp

/-- **A step.** -/
theorem step_right (hsize : packetSize = 188 ∨ packetSize = 192) (hc : Counting s c)
    (hcarries : Carries s c.2 p) (hok : Ok s packetSize c p) :
    Right s packetSize c p ∧ Counting s (behind s packetSize c p) := by
  rcases hpayload : p.hasPayload with _ | _
  · exact step_of_not_hasPayload hc hcarries hpayload
  · rcases hstarts : p.startsPES with _ | _
    · exact step_of_not_starts hc hcarries hstarts hpayload (hok.2 hstarts hpayload)
    · exact step_of_starts hsize hc hcarries hstarts (hok.1 hstarts)

end Step

/-! ## Runs -/

/-- **Runs that are right.** From a state in which nothing is known of the frames, along any
packets that carry a stream and each meet `Ok`, every packet leaves the code right. -/
theorem followAudio_right (s : Ac3Stream) {packetSize : ℕ} {t : AdTrim} {packets : List Packet}
    (hsize : packetSize = 188 ∨ packetSize = 192) (ht : t.determineAdAC3FrameSizeDuration = true)
    (hcarries : EachStep (step s packetSize) (fun c p => Carries s c.2 p) (t, Place.start) packets)
    (hok : EachStep (step s packetSize) (Ok s packetSize) (t, Place.start) packets) :
    EachStep (step s packetSize) (Right s packetSize) (t, Place.start) packets := by
  have hunknown : ∀ {P : Prop}, t.determineAdAC3FrameSizeDuration = false → P := fun h =>
    absurd (ht.symm.trans h) (by decide)
  have hstart : Counting s (t, Place.start) :=
    ⟨rfl, Nat.zero_le _, Int.le_refl 0, hunknown, hunknown, hunknown, hunknown, hunknown⟩
  have hboth := (hcarries.and hok).and_invariant (I := Counting s) (fun c p c' hc hp hc' => by
    obtain rfl := Option.some.inj hc'
    exact (step_right hsize hc hp.1 hp.2).2) hstart
  exact hboth.mono fun c p h => (step_right hsize h.1 h.2.1 h.2.2).1

/-- The state when the last video frame of an ad has come. -/
def unmeasured : AdTrim where
  maxAdVideoFrameCountReached := true
  maxAdAudioFrameCountReached := false
  lastAdVideoFrameDetected := false
  determineAdAC3FrameSizeDuration := true
  adVideoFrameCount := 0
  netReplaceableVideoFramesCnt := 0
  currentAdAudioPTS := 0
  adAC3FrameInfo := ⟨-1, -1, 0, false, 0, 0, 0⟩

/-- A packet in which a PES packet with a time stamp of 0 begins and that carries `n` bytes, behind
as much stuffing as it takes, and `count` packets that carry 184 bytes each. -/
def packetsOf (bytes : List UInt8) (n count : ℕ) : List Packet :=
  packetOf ([0x47, 0x40, 0x31, 0x30, UInt8.ofNat (169 - n), 0x00] ++
    List.replicate (168 - n) 0xFF ++
    [0x00, 0x00, 0x01, 0xBD, 0x00, 0x00, 0x80, 0x80, 0x05, 0x21, 0x00, 0x01, 0x00, 0x01] ++
    bytes.take n) ::
    (List.range count).map fun i =>
      packetOf ([0x47, 0x00, 0x31, 0x11] ++ (bytes.drop (n + 184 * i)).take 184)

/-- Two frames at 48 kHz and 48 kbit/s, of 192 bytes. -/
def longFrames : Ac3Stream where
  lead := []
  frames := List.replicate 2
    { bytes := [0x0B, 0x77, 0x00, 0x00, 0x04] ++ List.replicate 187 0
      sync := by decide
      code_valid := by decide
      length_eq := by decide +kernel }

theorem followAudio_right_long : EachStep (step longFrames 188) (Right longFrames 188)
    (unmeasured, Place.start) (packetsOf longFrames.bytes 20 1) :=
  followAudio_right longFrames (.inl rfl) rfl (by decide +kernel) (by decide +kernel)

/-- Four frames at 48 kHz and 32 kbit/s, of 128 bytes. -/
def smallFrames : Ac3Stream where
  lead := []
  frames := List.replicate 4
    { bytes := [0x0B, 0x77, 0x00, 0x00, 0x00] ++ List.replicate 123 0
      sync := by decide
      code_valid := by decide
      length_eq := by decide +kernel }

/-- In the third packet of the small frames, 240 bytes are counted in a payload of 184. -/
theorem smallFrames_not_right :
    EachStep (step smallFrames 188) (fun c p => Carries smallFrames c.2 p)
        (unmeasured, Place.start) (packetsOf smallFrames.bytes 128 2) ∧
      ¬ EachStep (step smallFrames 188) (Right smallFrames 188) (unmeasured, Place.start)
        (packetsOf smallFrames.bytes 128 2) := by
  refine ⟨by decide +kernel, fun h => ?_⟩
  have hcounted := ((h.2 _ rfl).2 _ rfl).1.counted (by decide +kernel) (by decide +kernel)
  exact absurd hcounted.2 (by decide +kernel)

end Ac3Frames

end MediaFramework
