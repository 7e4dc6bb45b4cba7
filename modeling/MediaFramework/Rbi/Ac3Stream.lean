import MediaFramework.Rbi.AdTrim
import MediaFramework.Rbi.PesHeader

/-!
# AC-3 elementary streams and what packets carry of them

The frames of a stream lie back to back, and each one says in its fifth byte how long it is. A
stream may begin in the middle of a frame, with the rest of it.

A TS packet carries the part of a PES packet that its payload is. Of a PES packet, everything
behind the header is elementary stream; the header may be spread over several TS packets. `Place`
follows the packets through the stream: how much of the stream has been carried, which time stamp
was the last one, and which frame it belongs to — the first one that begins behind it.
-/

namespace MediaFramework

/-! ## Frames -/

/-- `(packet[i+4]>>6)&0x3` -/
def fscod (code : UInt8) : ℕ := code.toNat >>> 6 &&& 0x3

/-- `(packet[i+4])&0x3F` -/
def frmsizecod (code : UInt8) : ℕ := code.toNat &&& 0x3F

/-- Where the bit rate of a frame is looked up, there is one. -/
def InTable (code : UInt8) : Prop :=
  fscod code ≠ 3 → frmsizecod code >>> 1 < nominalBitrateInkbps.length

instance (code : UInt8) : Decidable (InTable code) :=
  inferInstanceAs (Decidable (_ → _))

/-- The bytes of a frame: 1536 samples at a bit rate, in words of two bytes. At 44.1 kHz that is
not a whole number of words, and every second code has a word more. -/
def frameLength (code : UInt8) : ℕ :=
  let kbps := (nominalBitrateInkbps.getD (frmsizecod code >>> 1) 0).toNat
  match fscod code with
  | 0 => 2 * (2 * kbps)
  | 1 => 2 * (320 * kbps / 147 + frmsizecod code % 2)
  | _ => 2 * (3 * kbps)

/-- A frame of an AC-3 elementary stream. -/
structure Ac3Frame where
  bytes : List UInt8
  sync : [0x0B, 0x77] <+: bytes
  code_valid : fscod (bytes.getD 4 0) ≠ 3 ∧ frmsizecod (bytes.getD 4 0) < 38
  length_eq : bytes.length = frameLength (bytes.getD 4 0)

theorem le_nominalBitrate {n : ℕ} (h : n < nominalBitrateInkbps.length) :
    32 ≤ nominalBitrateInkbps.getD n 0 := by
  revert n
  decide

theorem Ac3Frame.inTable (f : Ac3Frame) : InTable (f.bytes.getD 4 0) := fun _ => by
  have := f.code_valid.2
  rw [Nat.shiftRight_eq_div_pow, show nominalBitrateInkbps.length = 19 from rfl]
  omega

/-- The byte with the code is a frame's own. -/
theorem Ac3Frame.four_lt_length (f : Ac3Frame) : 4 < f.bytes.length := by
  have hkbps := le_nominalBitrate (f.inTable f.code_valid.1)
  rw [f.length_eq, frameLength]
  split <;> omega

/-- An AC-3 elementary stream: the rest of a frame, and frames. -/
structure Ac3Stream where
  lead : List UInt8
  frames : List Ac3Frame

namespace Ac3Stream

variable (s : Ac3Stream)

def bytes : List UInt8 := s.lead ++ s.frames.flatMap Ac3Frame.bytes

/-- Where frame `j` begins. -/
def begins (j : ℕ) : ℕ := (s.lead ++ (s.frames.take j).flatMap Ac3Frame.bytes).length

/-- The first frame that begins at `pos` or behind it. -/
def firstFrom (pos : ℕ) : ℕ :=
  (List.range s.frames.length).findIdx fun j => decide (pos ≤ s.begins j)

variable {s}

/-- The next frame begins where a frame ends. -/
theorem begins_succ {j : ℕ} (h : j < s.frames.length) :
    s.begins (j + 1) = s.begins j + s.frames[j].bytes.length := by
  rw [begins, begins, List.take_add_one, List.getElem?_eq_getElem h, Option.toList_some,
    List.flatMap_append, ← List.append_assoc, List.length_append, List.flatMap_singleton]

/-- Frames begin within the stream. -/
theorem lt_length_of_begins_lt {j : ℕ} (h : s.begins j < s.bytes.length) :
    j < s.frames.length := by
  refine Nat.lt_of_not_ge fun hge => ?_
  rw [begins, List.take_of_length_le hge] at h
  exact Nat.lt_irrefl _ h

/-- The stream from a frame on. -/
theorem drop_begins {j : ℕ} (h : j < s.frames.length) :
    s.bytes.drop (s.begins j) =
      s.frames[j].bytes ++ (s.frames.drop (j + 1)).flatMap Ac3Frame.bytes := by
  have hsplit : s.bytes = (s.lead ++ (s.frames.take j).flatMap Ac3Frame.bytes) ++
      (s.frames.drop j).flatMap Ac3Frame.bytes := by
    rw [List.append_assoc, ← List.flatMap_append, List.take_append_drop, bytes]
  rw [hsplit, begins, List.drop_left, List.drop_eq_getElem_cons h, List.flatMap_cons]

end Ac3Stream

/-! ## Packets -/

/-- Where in the stream the packets are. -/
structure Place where
  /-- the PES header so far, while it is not complete -/
  header : Option (List UInt8)
  /-- the bytes of the stream that have been carried -/
  pos : ℕ
  /-- the last time stamp -/
  pts : ℤ
  /-- the frame the time stamp is of -/
  frame : ℕ
  deriving DecidableEq

namespace Place

/-- Nothing has been carried. -/
def start : Place := ⟨none, 0, 0, 0⟩

variable (x : Place) (p : Packet)

/-- The PES packet so far, if its header was not complete before the packet. -/
def headerWith : Option (List UInt8) :=
  if p.startsPES then some p.content else x.header.map fun bytes => bytes ++ p.content

/-- What the packet carries of the stream. -/
def elementary : List UInt8 :=
  match x.headerWith p with
  | none => p.content
  | some bytes => bytes.drop (pesHeaderLength bytes)

/-- The place behind a packet. -/
def advance (s : Ac3Stream) : Place :=
  let pos := x.pos + (x.elementary p).length
  match x.headerWith p with
  | none => { x with pos }
  | some bytes =>
    if HeaderComplete bytes then
      if (bytes.getD 7 0).toNat &&& 0x80 != 0 then
        ⟨none, pos, (packetOf bytes).readTimeStamp 9, s.firstFrom x.pos⟩
      else { x with header := none, pos }
    else { x with header := some bytes }

variable {x p} {s : Ac3Stream}

theorem elementary_of_none (h : x.headerWith p = none) : x.elementary p = p.content := by
  rw [elementary, h]

theorem elementary_of_some {bytes : List UInt8} (h : x.headerWith p = some bytes) :
    x.elementary p = bytes.drop (pesHeaderLength bytes) := by
  rw [elementary, h]

theorem headerWith_of_starts (h : p.startsPES = true) : x.headerWith p = some p.content := if_pos h

theorem headerWith_of_not_starts (h : p.startsPES = false) (hx : x.header = none) :
    x.headerWith p = none := by
  rw [headerWith, h, hx]
  rfl

/-- A packet without a header. -/
theorem advance_of_none (h : x.headerWith p = none) :
    x.advance p s = { x with pos := x.pos + p.content.length } := by
  rw [advance, elementary_of_none h, h]

/-- A packet whose header is complete, time stamp and all. -/
theorem advance_of_starts (h : p.startsPES = true) (hcomplete : HeaderComplete p.content)
    (hpts : p.hasPts = true → 14 ≤ p.content.length) :
    x.advance p s = if p.hasPts then
        ⟨none, x.pos + (188 - p.elementaryOffset), p.readTimeStamp (p.payload + 9),
          s.firstFrom x.pos⟩
      else { x with header := none, pos := x.pos + (188 - p.elementaryOffset) } := by
  have hpayload : p.hasPayload = true := (Bool.and_eq_true_iff.mp h).1
  have hheader := headerWith_of_starts (x := x) h
  have hlen : (x.elementary p).length = 188 - p.elementaryOffset := by
    rw [elementary_of_some hheader, List.length_drop, Packet.length_content hpayload,
      Packet.elementaryOffset, Nat.sub_sub]
  have hlong : pesHeaderLength p.content ≤ p.content.length := hcomplete
  have hflag : ((p.content.getD 7 0).toNat &&& 0x80 != 0) = p.hasPts := by
    rw [Packet.content_getD hpayload (by rw [pesHeaderLength] at hlong; omega)]
    rfl
  rw [advance, hheader, hlen]
  simp only [if_pos hcomplete, hflag]
  split_ifs with hhas
  · -- the time stamp lies in the packet
    rw [Packet.readTimeStamp_eq, Packet.readTimeStamp_eq]
    have hbyte : ∀ i < 14, packetOf p.content i = p (p.payload + i) := fun i hi =>
      Packet.content_getD hpayload (lt_of_lt_of_le hi (hpts hhas)) _
    rw [hbyte 9 (by decide), hbyte (9 + 1) (by decide), hbyte (9 + 2) (by decide),
      hbyte (9 + 3) (by decide), hbyte (9 + 4) (by decide)]
  · rfl

end Place

/-- The packet carries what comes next of the stream. -/
structure Carries (s : Ac3Stream) (x : Place) (p : Packet) : Prop where
  fits : p.payload ≤ 188
  startCode : ∀ bytes ∈ x.headerWith p, HeaderComplete bytes → [0x00, 0x00, 0x01] <+: bytes
  elementary : x.elementary p <+: s.bytes.drop x.pos

instance (s : Ac3Stream) (x : Place) (p : Packet) : Decidable (Carries s x p) :=
  decidable_of_iff
    (p.payload ≤ 188 ∧
      (∀ bytes ∈ x.headerWith p, HeaderComplete bytes → [0x00, 0x00, 0x01] <+: bytes) ∧
      x.elementary p <+: s.bytes.drop x.pos)
    ⟨fun h => ⟨h.1, h.2.1, h.2.2⟩, fun h => ⟨h.fits, h.startCode, h.elementary⟩⟩

/-- What has been carried is a part of the stream. -/
theorem Carries.pos_le {s : Ac3Stream} {x : Place} {p : Packet} (h : Carries s x p)
    (hx : x.pos ≤ s.bytes.length) : (x.advance p s).pos ≤ s.bytes.length := by
  have hlen := h.elementary.length_le
  rw [List.length_drop] at hlen
  rw [Place.advance]
  split
  · dsimp only
    omega
  · split_ifs <;> dsimp only <;> omega

end MediaFramework
