import MediaFramework.Lib.Cells
import MediaFramework.Lib.Pieces

/-!
# Getting in sync (`RBIStreamProcessor::processPackets`)

The buffers of a stream come as they are cut. A processor that looks for triggers takes its first
buffer for whole packets and only finds out of which size they are. Any other one collects the first
576 bytes, looks in them for three sync bytes in a row, a packet apart, and from there on hands whole
packets to `processPacketsAligned`, keeping what is left of a buffer for the next one.

Both use `m_remainder`, first for the 576 bytes and then for a part of a packet. `Inv` says what it
holds in either role.
-/

namespace MediaFramework

/-- The sync byte of a packet. -/
def syncByte : UInt8 := 0x47

/-- What `processPackets` keeps from call to call. -/
structure PacketSync where
  /-- as the alignment check leaves it -/
  triggerEnable : Bool
  inSync : Bool
  packetSize : ℕ
  ttsSize : ℕ
  remainderOffset : ℕ
  remainderSize : ℕ
  /-- 580 bytes, none of them set at first -/
  remainder : ℕ → UInt8
  /-- the buffers that `processPacketsAligned` was called with -/
  handed : List (List UInt8)

/-- A call of `processPackets`, on its way. -/
structure PacketCall where
  sync : PacketSync
  inOffset : ℕ
  acceptedSize : ℤ
  isTSFormatError : ℤ

/-- What `processPacketsAligned` returns for a buffer and sets `*isTSFormatError` to, after those
that it was called with before. -/
abbrev AlignedReply := List (List UInt8) → List UInt8 → ℤ × ℤ

namespace PacketSync

/-- `3*MAX_PACKET_SIZE` -/
def collected : ℕ := 3 * 192

/-- A new processor. -/
def new (trigger : Bool) (junk : ℕ → UInt8) : PacketSync :=
  ⟨trigger, false, 188, 0, 0, 0, junk, []⟩

/-! ## The alignment check -/

/-- `ts`: so many packets, or as many of them as there are in the buffer. -/
def span (size ps : ℕ) : ℕ → ℕ
  | 0 => 0
  | k + 1 => if size < (k + 1) * ps then span size ps k else (k + 1) * ps

/-- `(ps == 192) ? 4 : 0` -/
def ttsSizeOf (ps : ℕ) : ℕ := if ps = 192 then 4 else 0

/-- There is a sync byte wherever one is looked for. -/
def fits (packets : List UInt8) (ps : ℕ) : Bool :=
  (List.range 3).all fun k => decide (ttsSizeOf ps + k * ps < span packets.length ps 3 →
    packets[ttsSizeOf ps + k * ps]? = some syncByte)

/-- The loop over the packet sizes; `sync` is only ever set to false. -/
def probe (packets : List UInt8) : List ℕ → Bool → PacketSync → Bool × PacketSync
  | [], sync, s => (sync, s)
  | ps :: sizes, sync, s =>
    let sync := sync && fits packets ps
    if sync then (sync, { s with packetSize := ps, ttsSize := ttsSizeOf ps })
    else probe packets sizes sync s

/-- The input of an insertion must be packet aligned. -/
def checkAligned (packets : List UInt8) (s : PacketSync) : PacketSync :=
  let (sync, s) := probe packets [192, 188] true s
  if !sync || packets.length % s.packetSize != 0 then
    { s with triggerEnable := false, inSync := true }
  else { s with inSync := true }

end PacketSync

namespace PacketCall

open PacketSync

variable (reply : AlignedReply) (packets : List UInt8)

/-- A buffer goes to `processPacketsAligned`. -/
def hand (buffer : List UInt8) (c : PacketCall) : ℤ × PacketCall :=
  let (accepted, error) := reply c.sync.handed buffer
  (accepted, { c with
    sync := { c.sync with handed := c.sync.handed ++ [buffer] }
    isTSFormatError := if accepted = 0 ∧ error ≠ 0 then error + 1 else error })

/-! ## Out of sync -/

/-- Bytes are collected until there are 576 of them. -/
def collect (c : PacketCall) : PacketCall :=
  let s := c.sync
  let copylen := min (collected - s.remainderOffset) packets.length
  { c with
    sync := { s with
      remainder := store s.remainder s.remainderOffset (packets.take copylen)
      remainderSize := s.remainderSize + copylen
      remainderOffset := s.remainderOffset + copylen }
    inOffset := c.inOffset + copylen }

/-- The packet size and the `ttsSize` for which there are three sync bytes in a row at a place. -/
def hit (m : ℕ → UInt8) (i : ℕ) : Option (ℕ × ℕ) :=
  if m i = syncByte ∧ m (i + 188) = syncByte ∧ m (i + 188 * 2) = syncByte then some (188, 0)
  else if m (i + 4) = syncByte ∧ m (i + 4 + 192) = syncByte ∧ m (i + 4 + 192 * 2) = syncByte then
    some (192, 4)
  else none

/-- The search, with so many bytes to go: it does not look beyond the first third of them. -/
def seek (m : ℕ → UInt8) (size : ℕ) : ℕ → ℕ → Option (ℕ × ℕ × ℕ)
  | 0, _ => none
  | n + 1, i =>
    match if i < size / 3 then hit m i else none with
    | some (ps, tts) => some (i, ps, tts)
    | none => seek m size n (i + 1)

/-- Sync was found at `i`: the whole packets from there on are handed over, and the rest is moved to
the front. -/
def getInSync (i ps tts : ℕ) (c : PacketCall) : PacketCall :=
  let c := { c with sync := { c.sync with inSync := true, packetSize := ps, ttsSize := tts } }
  let consume := c.sync.remainderSize - i - (c.sync.remainderSize - i) % ps
  let (_, c) := c.hand reply (load c.sync.remainder i consume)
  let rest := c.sync.remainderSize - (i + consume)
  { c with sync := { c.sync with
      remainder := if 0 < rest then
          store c.sync.remainder 0 (load c.sync.remainder (i + consume) rest)
        else c.sync.remainder
      remainderSize := rest
      remainderOffset := rest } }

/-- Out of sync. -/
def resync (c : PacketCall) : PacketCall :=
  let c := c.collect packets
  if collected ≤ c.sync.remainderSize then
    match seek c.sync.remainder c.sync.remainderSize c.sync.remainderSize 0 with
    | some (i, ps, tts) => c.getInSync reply i ps tts
    | none => c
  else c

/-! ## In sync -/

/-- The packet of which a part is kept is filled up. -/
def fill (c : PacketCall) : PacketCall :=
  let s := c.sync
  if s.remainderSize ≠ 0 then
    let copylen := min (s.packetSize - s.remainderSize) (packets.length - c.inOffset)
    let c := { c with
      sync := { s with
        remainder := store s.remainder s.remainderOffset ((packets.drop c.inOffset).take copylen)
        remainderSize := s.remainderSize + copylen }
      inOffset := c.inOffset + copylen }
    if c.sync.remainderSize = c.sync.packetSize then
      let (_, c) := c.hand reply (load c.sync.remainder 0 c.sync.packetSize)
      { c with sync := { c.sync with remainderSize := 0, remainderOffset := 0 } }
    else { c with sync := { c.sync with remainderOffset := s.remainderOffset + copylen } }
  else c

/-- Whole packets are handed over as they are. -/
def pass (c : PacketCall) : PacketCall :=
  let consume := packets.length - c.inOffset - (packets.length - c.inOffset) % c.sync.packetSize
  if consume ≠ 0 then
    let (accepted, d) := c.hand reply ((packets.drop c.inOffset).take consume)
    { d with acceptedSize := accepted, inOffset := c.inOffset + consume }
  else c

/-- What is left is kept. -/
def keep (c : PacketCall) : PacketCall :=
  let s := c.sync
  let copylen := packets.length - c.inOffset
  { c with sync := { s with
      remainder := store s.remainder s.remainderOffset ((packets.drop c.inOffset).take copylen)
      remainderSize := s.remainderSize + copylen
      remainderOffset := s.remainderOffset + copylen } }

/-- In sync. -/
def aligned (c : PacketCall) : PacketCall :=
  let c := ({ c with isTSFormatError := 0 } : PacketCall).fill reply packets
  if c.inOffset < packets.length then
    let c := c.pass reply packets
    if c.inOffset < packets.length then c.keep packets else c
  else c

end PacketCall

namespace PacketSync

variable (reply : AlignedReply) (test_insert : Bool)

/-- `processPackets`: what is kept, the size that is accepted and `*isTSFormatError`. -/
def processPackets (packets : List UInt8) (isTSFormatError : ℤ) (s : PacketSync) :
    PacketSync × ℤ × ℤ :=
  let s := if !s.inSync && s.triggerEnable then s.checkAligned packets else s
  let c : PacketCall := ⟨s, 0, packets.length, isTSFormatError⟩
  let c := if c.sync.inSync then c else c.resync reply packets
  if c.sync.inSync then
    let c := c.aligned reply packets
    (c.sync, c.acceptedSize, c.isTSFormatError)
  else (c.sync, if test_insert then c.acceptedSize else 0, c.isTSFormatError + 1)

end PacketSync

/-! ## What the parts of a call keep -/

namespace PacketCall

open PacketSync

variable (reply : AlignedReply) (packets : List UInt8)

/-- The size of the packets, and whether there are triggers to look for. -/
def SameMode (s t : PacketSync) : Prop :=
  t.triggerEnable = s.triggerEnable ∧ t.inSync = s.inSync ∧ t.packetSize = s.packetSize ∧
    t.ttsSize = s.ttsSize

theorem SameMode.trans {s t u : PacketSync} (h : SameMode s t) (h' : SameMode t u) :
    SameMode s u :=
  ⟨h'.1.trans h.1, h'.2.1.trans h.2.1, h'.2.2.1.trans h.2.2.1, h'.2.2.2.trans h.2.2.2⟩

theorem sameMode_fill (c : PacketCall) : SameMode c.sync (c.fill reply packets).sync := by
  rw [fill]
  dsimp only
  split_ifs <;> exact ⟨rfl, rfl, rfl, rfl⟩

theorem sameMode_pass (c : PacketCall) : SameMode c.sync (c.pass reply packets).sync := by
  rw [pass]
  split_ifs <;> exact ⟨rfl, rfl, rfl, rfl⟩

theorem sameMode_aligned (c : PacketCall) : SameMode c.sync (c.aligned reply packets).sync := by
  have hfill := sameMode_fill reply packets { c with isTSFormatError := 0 }
  rw [aligned]
  dsimp only
  split_ifs
  · exact (hfill.trans (sameMode_pass reply packets _)).trans ⟨rfl, rfl, rfl, rfl⟩
  · exact hfill.trans (sameMode_pass reply packets _)
  · exact hfill

end PacketCall

namespace PacketSync

variable {reply : AlignedReply} {test_insert : Bool} {packets : List UInt8}

/-! ## The first buffer of a processor with triggers -/

/-- Whole packets of 188 bytes. -/
def TsAligned (packets : List UInt8) : Prop :=
  ∃ n, 0 < n ∧ packets.length = n * 188 ∧ ∀ k < n, packets[k * 188]? = some syncByte

/-- Whole packets of 192 bytes, of which the first four are a time stamp. -/
def TtsAligned (packets : List UInt8) : Prop :=
  ∃ n, 0 < n ∧ packets.length = n * 192 ∧ ∀ k < n, packets[4 + k * 192]? = some syncByte

/-- **What the first buffer selects.** The packet size that it has; and the triggers are given up only
if it has neither. -/
def Selects (packets : List UInt8) (s : PacketSync) : Prop :=
  (TsAligned packets → s.packetSize = 188 ∧ s.ttsSize = 0 ∧ s.triggerEnable = true) ∧
    (TtsAligned packets → s.packetSize = 192 ∧ s.ttsSize = 4 ∧ s.triggerEnable = true) ∧
    (s.triggerEnable = false → ¬ TsAligned packets ∧ ¬ TtsAligned packets)

theorem span_le (size ps k : ℕ) : span size ps k ≤ size := by
  induction k with
  | zero => exact Nat.zero_le size
  | succ k ih =>
    rw [span]
    split_ifs with h
    · exact ih
    · exact Nat.le_of_not_lt h

theorem TtsAligned.fits (h : TtsAligned packets) : fits packets 192 = true := by
  obtain ⟨n, -, hlen, hsync⟩ := h
  refine List.all_eq_true.mpr fun k _ => decide_eq_true fun hlt => ?_
  have hspan := span_le packets.length 192 3
  exact hsync k (by omega)

/-- A buffer that the larger size does not fit is not looked at for the smaller one. -/
theorem probe_eq (s : PacketSync) : probe packets [192, 188] true s =
    if fits packets 192 then (true, { s with packetSize := 192, ttsSize := 4 }) else (false, s) := by
  rw [probe]
  rcases hfits : fits packets 192 with _ | _
  · rfl
  · rfl

theorem checkAligned_of_fits (h : fits packets 192 = true) (s : PacketSync) :
    s.checkAligned packets = { s with
      packetSize := 192
      ttsSize := 4
      inSync := true
      triggerEnable := s.triggerEnable && packets.length % 192 == 0 } := by
  rw [checkAligned, probe_eq, if_pos h]
  dsimp only
  rcases hlen : packets.length % 192 with _ | k
  · simp
  · simp

theorem checkAligned_of_not_fits (h : fits packets 192 = false) (s : PacketSync) :
    s.checkAligned packets = { s with inSync := true, triggerEnable := false } := by
  rw [checkAligned, probe_eq, h]
  rfl

/-- After the alignment check the rest of the call goes by what it found. -/
theorem sameMode_first (reply : AlignedReply) (test_insert : Bool) (packets : List UInt8)
    (error : ℤ) (junk : ℕ → UInt8) :
    PacketCall.SameMode ((new true junk).checkAligned packets)
      (processPackets reply test_insert packets error (new true junk)).1 := by
  have hsync : ((new true junk).checkAligned packets).inSync = true := by
    rw [checkAligned]
    dsimp only
    split_ifs <;> rfl
  have hfirst : (!(new true junk).inSync && (new true junk).triggerEnable) = true := rfl
  rw [processPackets, if_pos hfirst]
  rw [if_pos hsync, if_pos hsync]
  exact PacketCall.sameMode_aligned _ _ _

/-- **When the first buffer selects its packet size**: exactly when it is not made of packets of 188
bytes. -/
theorem selects_iff (reply : AlignedReply) (test_insert : Bool) (packets : List UInt8) (error : ℤ)
    (junk : ℕ → UInt8) :
    Selects packets (processPackets reply test_insert packets error (new true junk)).1 ↔
      ¬ TsAligned packets := by
  obtain ⟨htrigger, -, hsize, htts⟩ :=
    sameMode_first reply test_insert packets error junk
  rw [Selects, hsize, htts, htrigger]
  rcases hfits : fits packets 192 with _ | _
  · rw [checkAligned_of_not_fits hfits]
    have hnot : ¬ TtsAligned packets := by
      intro h
      rw [h.fits] at hfits
      cases hfits
    refine ⟨fun h => (h.2.2 rfl).1, fun h => ⟨fun h' => absurd h' h, fun h' => absurd h' hnot,
      fun _ => ⟨h, hnot⟩⟩⟩
  · rw [checkAligned_of_fits hfits]
    refine ⟨fun h hts => ?_, fun h => ⟨fun h' => absurd h' h, fun h' => ?_, fun h' => ⟨h, ?_⟩⟩⟩
    · -- the larger size was taken
      exact absurd (h.1 hts).1 (show ¬ 192 = 188 by decide)
    · obtain ⟨n, -, hlen, -⟩ := h'
      refine ⟨rfl, rfl, ?_⟩
      rw [hlen, Nat.mul_mod_left]
      rfl
    · rintro ⟨n, -, hlen, -⟩
      rw [hlen, Nat.mul_mod_left] at h'
      cases h'

/-- Two packets of 188 bytes. -/
def twoPackets : List UInt8 :=
  syncByte :: List.replicate 187 0 ++ syncByte :: List.replicate 187 0

/-- The first buffer of most streams is such a one, and there are no insertions then. -/
theorem not_selects_twoPackets :
    ¬ Selects twoPackets
      (processPackets (fun _ _ => (376, 0)) false twoPackets 0 (new true fun _ => 0)).1 := by
  intro h
  have hts : TsAligned twoPackets := by
    refine ⟨2, by decide, by decide +kernel, fun k hk => ?_⟩
    rcases k with _ | _ | k
    · rfl
    · decide +kernel
    · omega
  obtain ⟨htrigger, -⟩ := sameMode_first (fun _ _ => (376, 0)) false twoPackets 0 fun _ => 0
  have hset := (h.1 hts).2.2
  rw [htrigger, checkAligned_of_not_fits (by decide +kernel)] at hset
  cases hset

end PacketSync

/-! ## What is kept of a packet -/

namespace PacketCall

open PacketSync

variable {reply : AlignedReply} {packets : List UInt8} {ps : ℕ} {l : List UInt8}

/-- In sync, with packets of size `ps`, and the bytes `l` come since then: what was handed over and
what is kept make up these bytes. -/
structure Holds (ps : ℕ) (l : List UInt8) (s : PacketSync) : Prop where
  inSync : s.inSync = true
  packetSize : s.packetSize = ps
  offset : s.remainderOffset = s.remainderSize
  size_lt : s.remainderSize < ps
  whole : ∀ buffer ∈ s.handed, ps ∣ buffer.length
  bytes : s.handed.flatten ++ load s.remainder 0 s.remainderSize = l

variable {c : PacketCall}

/-- The part of a packet that is kept gets longer, or the packet is full and is handed over. -/
theorem Holds.fill (reply : AlignedReply) (h : Holds ps l c.sync) (hle : c.inOffset ≤ packets.length) :
    ∃ n, (c.fill reply packets).inOffset = c.inOffset + n ∧ c.inOffset + n ≤ packets.length ∧
      Holds ps (l ++ (packets.drop c.inOffset).take n) (c.fill reply packets).sync ∧
      ((c.fill reply packets).sync.remainderSize = 0 ∨ c.inOffset + n = packets.length) := by
  obtain ⟨hsync, hps, hoff, hlt, hwhole, hbytes⟩ := h
  rcases Nat.eq_zero_or_pos c.sync.remainderSize with hzero | hpos
  · have hfill : c.fill reply packets = c := by
      rw [PacketCall.fill]
      exact if_neg (not_not.mpr hzero)
    refine ⟨0, by rw [hfill]; rfl, hle, ?_, Or.inl (by rw [hfill, hzero])⟩
    rw [hfill, List.take_zero, List.append_nil]
    exact ⟨hsync, hps, hoff, hlt, hwhole, hbytes⟩
  · obtain ⟨n, hn⟩ : ∃ n, n = min (ps - c.sync.remainderSize) (packets.length - c.inOffset) :=
      ⟨_, rfl⟩
    have htake : ((packets.drop c.inOffset).take n).length = n := by
      rw [List.length_take, List.length_drop]
      omega
    have hload : load (store c.sync.remainder c.sync.remainderSize
        ((packets.drop c.inOffset).take n)) 0 (c.sync.remainderSize + n) =
          load c.sync.remainder 0 c.sync.remainderSize ++ (packets.drop c.inOffset).take n :=
      load_store_append htake
    rw [PacketCall.fill]
    dsimp only
    rw [if_pos (Nat.pos_iff_ne_zero.mp hpos), hps, hoff, ← hn]
    split_ifs with hfull
    · -- the packet is full
      refine ⟨n, rfl, by omega, ⟨hsync, rfl, rfl, Nat.zero_lt_of_lt hlt, ?_, ?_⟩, Or.inl rfl⟩
      · intro buffer hbuffer
        rcases List.mem_append.mp hbuffer with hbuffer | hbuffer
        · exact hwhole buffer hbuffer
        · rw [List.mem_singleton.mp hbuffer, length_load]
      · show (c.sync.handed ++ [load _ 0 ps]).flatten ++ load _ 0 0 = _
        rw [List.flatten_append, List.flatten_singleton, load_zero, List.append_nil, ← hfull, hload,
          ← List.append_assoc, hbytes]
    · refine ⟨n, rfl, by omega, ⟨hsync, rfl, rfl, by dsimp only; omega, hwhole, ?_⟩,
        Or.inr (by omega)⟩
      rw [hload, ← List.append_assoc, hbytes]

/-- With nothing kept, whole packets are handed over as they are. -/
theorem Holds.pass (reply : AlignedReply) (h : Holds ps l c.sync) (hle : c.inOffset ≤ packets.length)
    (hzero : c.sync.remainderSize = 0) :
    ∃ n, (c.pass reply packets).inOffset = c.inOffset + n ∧ c.inOffset + n ≤ packets.length ∧
      Holds ps (l ++ (packets.drop c.inOffset).take n) (c.pass reply packets).sync ∧
      (c.pass reply packets).sync.remainderSize = 0 ∧ packets.length < c.inOffset + n + ps := by
  obtain ⟨hsync, hps, hoff, hlt, hwhole, hbytes⟩ := h
  obtain ⟨n, hn⟩ : ∃ n, n = packets.length - c.inOffset - (packets.length - c.inOffset) % ps :=
    ⟨_, rfl⟩
  have hmod := Nat.mod_lt (packets.length - c.inOffset) (Nat.zero_lt_of_lt hlt)
  refine ⟨n, ?_⟩
  rw [PacketCall.pass]
  rw [hps, ← hn]
  split_ifs with hnone
  · refine ⟨rfl, by omega, ⟨hsync, hps, hoff, hlt, ?_, ?_⟩, hzero, by omega⟩
    · intro buffer hbuffer
      rcases List.mem_append.mp hbuffer with hbuffer | hbuffer
      · exact hwhole buffer hbuffer
      · rw [List.mem_singleton.mp hbuffer, List.length_take, List.length_drop,
          Nat.min_eq_left (by omega), hn]
        exact Nat.dvd_sub_mod _
    · show (c.sync.handed ++ [(packets.drop c.inOffset).take n]).flatten ++
        load c.sync.remainder 0 c.sync.remainderSize = _
      rw [hzero, load_zero, List.append_nil] at hbytes ⊢
      rw [List.flatten_append, hbytes, List.flatten_singleton]
  · have hn0 : n = 0 := by omega
    rw [hn0, List.take_zero, List.append_nil]
    exact ⟨rfl, hle, ⟨hsync, hps, hoff, hlt, hwhole, hbytes⟩, hzero, by omega⟩

/-- With nothing kept, what is left of the buffer is. -/
theorem Holds.keep (h : Holds ps l c.sync) (hzero : c.sync.remainderSize = 0)
    (hlt : packets.length < c.inOffset + ps) :
    Holds ps (l ++ packets.drop c.inOffset) (c.keep packets).sync := by
  obtain ⟨hsync, hps, hoff, hpos, hwhole, hbytes⟩ := h
  have hlen : (packets.drop c.inOffset).length = packets.length - c.inOffset := List.length_drop
  rw [hzero] at hoff
  rw [hzero, load_zero, List.append_nil] at hbytes
  rw [PacketCall.keep]
  rw [hzero, hoff, ← hlen, List.take_length, Nat.zero_add]
  refine ⟨hsync, hps, rfl, ?_, hwhole, ?_⟩
  · show (packets.drop c.inOffset).length < ps
    omega
  · rw [load_store, hbytes]

/-- In sync, none of the bytes of a buffer is lost. -/
theorem Holds.aligned (reply : AlignedReply) (packets : List UInt8) (h : Holds ps l c.sync) (hle : c.inOffset ≤ packets.length) :
    Holds ps (l ++ packets.drop c.inOffset) (c.aligned reply packets).sync := by
  have hdrop : ∀ (l : List UInt8) k n,
      l ++ (packets.drop k).take n ++ packets.drop (k + n) = l ++ packets.drop k := by
    intro l k n
    rw [← List.drop_drop, List.append_assoc, List.take_append_drop]
  obtain ⟨n, hn, hnle, hfill, hdone⟩ :=
    Holds.fill reply (c := { c with isTSFormatError := 0 }) h hle
  rw [PacketCall.aligned]
  dsimp only at hn hnle hfill hdone ⊢
  rw [hn, ← hdrop l c.inOffset n]
  split_ifs with hmore hmore'
  · obtain ⟨m, hm, -, hpass, hzero, hlt⟩ :=
      hfill.pass reply (by rw [hn]; exact hnle) (hdone.resolve_right (by omega))
    have hkeep := hpass.keep hzero (by rw [hm]; exact hlt)
    rwa [hm, hn, hdrop] at hkeep
  · obtain ⟨m, hm, hmle, hpass, -, -⟩ :=
      hfill.pass reply (by rw [hn]; exact hnle) (hdone.resolve_right (by omega))
    rw [hn] at hpass hmle
    have hall : packets.drop (c.inOffset + n + m) = [] := List.drop_eq_nil_of_le (by omega)
    rwa [← hdrop _ (c.inOffset + n) m, hall, List.append_nil]
  · have hall : packets.drop (c.inOffset + n) = [] := List.drop_eq_nil_of_le (by omega)
    rwa [hall, List.append_nil]

/-! ## The search -/

/-- The first place where three sync bytes in a row begin is in the first third of the bytes. -/
def FirstHit (m : ℕ → UInt8) (ps i : ℕ) : Prop :=
  i < 192 ∧ (∃ tts, hit m i = some (ps, tts)) ∧ ∀ j < i, hit m j = none

theorem FirstHit.unique {m : ℕ → UInt8} {ps' i i' : ℕ} (h : FirstHit m ps i)
    (h' : FirstHit m ps' i') : ps = ps' ∧ i = i' := by
  obtain ⟨-, ⟨tts, hi⟩, hbefore⟩ := h
  obtain ⟨-, ⟨tts', hi'⟩, hbefore'⟩ := h'
  rcases Nat.lt_trichotomy i i' with hlt | rfl | hlt
  · rw [hbefore' i hlt] at hi
    cases hi
  · rw [hi] at hi'
    cases hi'
    exact ⟨rfl, rfl⟩
  · rw [hbefore i' hlt] at hi'
    cases hi'

/-- The packets have one of two sizes. -/
theorem size_of_hit {m : ℕ → UInt8} {i tts : ℕ} (h : hit m i = some (ps, tts)) :
    ps = 188 ∨ ps = 192 := by
  rw [hit] at h
  split_ifs at h <;> cases h
  · exact Or.inl rfl
  · exact Or.inr rfl

theorem seek_cases (m : ℕ → UInt8) : ∀ n i, n + i = collected →
    (seek m collected n i = none ∧ ∀ j, i ≤ j → j < 192 → hit m j = none) ∨
      ∃ k ps tts, seek m collected n i = some (k, ps, tts) ∧ i ≤ k ∧ k < 192 ∧
        hit m k = some (ps, tts) ∧ ∀ j, i ≤ j → j < k → hit m j = none := by
  intro n
  induction n with
  | zero =>
    intro i hi
    rw [Nat.zero_add] at hi
    refine Or.inl ⟨rfl, fun j hj hlt => ?_⟩
    rw [hi, show collected = 576 from rfl] at hj
    omega
  | succ n ih =>
    intro i hi
    rw [seek]
    rcases hhit : (if i < collected / 3 then hit m i else none) with _ | ⟨ps, tts⟩
    · have hnone : i < 192 → hit m i = none := by
        intro hlt
        rwa [if_pos (show i < collected / 3 from hlt)] at hhit
      have hi' : n + (i + 1) = collected := by omega
      rcases ih (i + 1) hi' with ⟨hseek, hall⟩ | ⟨k, ps, tts, hseek, hik, hk, hkhit, hall⟩
      · refine Or.inl ⟨hseek, fun j hj hlt => ?_⟩
        rcases Nat.eq_or_lt_of_le hj with rfl | hj
        · exact hnone hlt
        · exact hall j hj hlt
      · refine Or.inr ⟨k, ps, tts, hseek, Nat.le_of_succ_le hik, hk, hkhit, fun j hj hlt => ?_⟩
        rcases Nat.eq_or_lt_of_le hj with rfl | hj
        · exact hnone (Nat.lt_trans hlt hk)
        · exact hall j hj hlt
    · have hlt : i < collected / 3 := by
        by_contra hge
        rw [if_neg hge] at hhit
        cases hhit
      rw [if_pos hlt] at hhit
      exact Or.inr ⟨i, ps, tts, rfl, Nat.le_refl i, hlt, hhit,
        fun j hj hlt' => absurd hlt' (Nat.not_lt_of_le hj)⟩

/-- The search from the first byte on. -/
theorem seek_start (m : ℕ → UInt8) :
    (seek m collected collected 0 = none ∧ ∀ j < 192, hit m j = none) ∨
      ∃ i ps tts, seek m collected collected 0 = some (i, ps, tts) ∧ FirstHit m ps i := by
  rcases seek_cases m collected 0 rfl with ⟨hseek, hall⟩ | ⟨i, ps, tts, hseek, -, hlt, hhit, hall⟩
  · exact Or.inl ⟨hseek, fun j => hall j (Nat.zero_le j)⟩
  · exact Or.inr ⟨i, ps, tts, hseek, hlt, ⟨tts, hhit⟩, fun j => hall j (Nat.zero_le j)⟩

/-- Out of sync, after the bytes `b`: the first 576 of them are kept. -/
structure Searching (junk : ℕ → UInt8) (b : List UInt8) (s : PacketSync) : Prop where
  triggerEnable : s.triggerEnable = false
  inSync : s.inSync = false
  size : s.remainderSize = min collected b.length
  offset : s.remainderOffset = min collected b.length
  remainder : s.remainder = store junk 0 (b.take collected)
  handed : s.handed = []

/-- There is room for no more than 576 bytes. -/
theorem Searching.collect (packets : List UInt8) {junk : ℕ → UInt8} {b : List UInt8}
    (h : Searching junk b c.sync) (hstart : c.inOffset = 0) :
    Searching junk (b ++ packets) (c.collect packets).sync ∧
      (c.collect packets).inOffset = min (collected - b.length) packets.length := by
  obtain ⟨htrigger, hsync, hsize, hoff, hrem, hhanded⟩ := h
  have hcopy : collected - min collected b.length = collected - b.length := by omega
  have htake : packets.take (min (collected - b.length) packets.length) =
      packets.take (collected - b.length) := by
    rw [← List.take_eq_take_min]
  rw [PacketCall.collect]
  rw [hoff, hsize, hrem, hstart, hcopy, htake, Nat.zero_add]
  refine ⟨⟨htrigger, hsync, ?_, ?_, ?_, hhanded⟩, rfl⟩
  · show min collected b.length + _ = _
    rw [List.length_append]
    omega
  · show min collected b.length + _ = _
    rw [List.length_append]
    omega
  · rw [← List.length_take, ← Nat.zero_add (b.take collected).length, store_append,
      List.take_append]

/-- Where sync is found, nothing of what was collected is lost from there on. -/
theorem holds_getInSync (reply : AlignedReply) {junk : ℕ → UInt8} {b : List UInt8}
    {i : ℕ} (tts : ℕ)
    (h : Searching junk b c.sync) (hlen : collected ≤ b.length)
    (hhit : FirstHit c.sync.remainder ps i) :
    Holds ps ((b.take collected).drop i) (c.getInSync reply i ps tts).sync := by
  obtain ⟨-, -, hsize, -, hrem, hhanded⟩ := h
  obtain ⟨hi, ⟨tts', hps⟩, -⟩ := hhit
  have hpos : 0 < ps := by
    rcases size_of_hit hps with rfl | rfl <;> decide
  have hsize : c.sync.remainderSize = collected := by omega
  have hlen' : (b.take collected).length = collected := by
    rw [List.length_take]
    omega
  have hmod := Nat.mod_lt (collected - i) hpos
  have hcollected : collected = 576 := rfl
  obtain ⟨k, hk⟩ : ∃ k, k = collected - i - (collected - i) % ps := ⟨_, rfl⟩
  have hload : load c.sync.remainder i k = ((b.take collected).drop i).take k := by
    rw [hrem]
    exact load_store_of_le (by omega)
  have hrest : load c.sync.remainder (i + k) (collected - (i + k)) =
      ((b.take collected).drop i).drop k := by
    rw [hrem, load_store_of_le (by omega), List.drop_drop, List.take_of_length_le]
    rw [List.length_drop]
    omega
  rw [getInSync]
  dsimp only
  rw [hsize, ← hk]
  refine ⟨rfl, rfl, rfl, ?_, ?_, ?_⟩
  · show collected - (i + k) < ps
    omega
  · intro buffer hbuffer
    change buffer ∈ c.sync.handed ++ [load c.sync.remainder i k] at hbuffer
    rw [hhanded, List.nil_append] at hbuffer
    rw [List.mem_singleton.mp hbuffer, length_load, hk]
    exact Nat.dvd_sub_mod _
  · show (c.sync.handed ++ [load c.sync.remainder i k]).flatten ++
      load (if 0 < collected - (i + k) then store c.sync.remainder 0
          (load c.sync.remainder (i + k) (collected - (i + k)))
        else c.sync.remainder) 0 (collected - (i + k)) = _
    have hfront : load (if 0 < collected - (i + k) then store c.sync.remainder 0
          (load c.sync.remainder (i + k) (collected - (i + k)))
        else c.sync.remainder) 0 (collected - (i + k)) =
          load c.sync.remainder (i + k) (collected - (i + k)) := by
      split_ifs with hmore
      · exact load_store_of_length length_load
      · rw [show collected - (i + k) = 0 by omega, load_zero, load_zero]
    rw [hfront, hhanded, List.nil_append, List.flatten_singleton, hload, hrest,
      List.take_append_drop]

end PacketCall

namespace PacketSync

open PacketCall

variable {reply : AlignedReply} {test_insert : Bool} {junk : ℕ → UInt8} {b : List UInt8}

/-- **What a processor without triggers holds**, after the bytes `b`. Either it is still out of sync,
and there is no sync where it looks; or it got in sync at the first place there. -/
def Inv (junk : ℕ → UInt8) (b : List UInt8) (s : PacketSync) : Prop :=
  (Searching junk b s ∧ (collected ≤ b.length →
      ∀ j < 192, hit (store junk 0 (b.take collected)) j = none)) ∨
    collected ≤ b.length ∧ ∃ ps i, FirstHit (store junk 0 (b.take collected)) ps i ∧
      Holds ps (b.drop i) s

theorem inv_new (junk : ℕ → UInt8) : Inv junk [] (new false junk) := by
  refine Or.inl ⟨⟨rfl, rfl, rfl, rfl, ?_, rfl⟩, fun h => absurd h (by decide)⟩
  funext i
  exact (store_of_not_mem (Or.inr (Nat.zero_le _))).symm

/-- A call in sync. -/
theorem processPackets_inSync {s : PacketSync} (h : s.inSync = true) (packets : List UInt8)
    (error : ℤ) : (processPackets reply test_insert packets error s).1 =
      (aligned reply packets ⟨s, 0, packets.length, error⟩).sync := by
  have hskip : ¬ (!s.inSync && s.triggerEnable) = true := by simp [h]
  rw [processPackets, if_neg hskip]
  rw [if_pos h, if_pos h]

/-- A call out of sync. -/
theorem processPackets_outOfSync {s : PacketSync} (h : s.inSync = false)
    (htrigger : s.triggerEnable = false) (packets : List UInt8) (error : ℤ) :
    (processPackets reply test_insert packets error s).1 =
      if (resync reply packets ⟨s, 0, packets.length, error⟩).sync.inSync then
        ((resync reply packets ⟨s, 0, packets.length, error⟩).aligned reply packets).sync
      else (resync reply packets ⟨s, 0, packets.length, error⟩).sync := by
  have hskip : ¬ (!s.inSync && s.triggerEnable) = true := by simp [htrigger]
  have hout : ¬ s.inSync = true := by simp [h]
  rw [processPackets, if_neg hskip]
  rw [if_neg hout]
  split_ifs <;> rfl

/-- **One call.** -/
theorem Inv.processPackets {s : PacketSync} (h : Inv junk b s) (packets : List UInt8) (error : ℤ) :
    Inv junk (b ++ packets) (processPackets reply test_insert packets error s).1 := by
  have htake : collected ≤ b.length → (b ++ packets).take collected = b.take collected :=
    fun hle => List.take_append_of_le_length hle
  rcases h with ⟨hs, hnone⟩ | ⟨hlen, ps, i, hfirst, hs⟩
  · rw [processPackets_outOfSync hs.inSync hs.triggerEnable]
    obtain ⟨hcollect, hoff⟩ := Searching.collect packets
      (c := ⟨s, 0, packets.length, error⟩) hs rfl
    rw [resync]
    generalize hd : PacketCall.collect packets ⟨s, 0, packets.length, error⟩ = d at hcollect hoff ⊢
    have hsize := hcollect.size
    by_cases hfull : collected ≤ d.sync.remainderSize
    · have hlen : collected ≤ (b ++ packets).length := by omega
      rw [if_pos hfull, show d.sync.remainderSize = collected by omega]
      rcases seek_start d.sync.remainder with ⟨hseek, hall⟩ | ⟨i, ps, tts, hseek, hfirst⟩
      · rw [hseek]
        rw [if_neg (by rw [hcollect.inSync]; decide)]
        refine Or.inl ⟨hcollect, fun _ => ?_⟩
        rwa [hcollect.remainder] at hall
      · rw [hseek]
        -- with 576 bytes there before, there was no sync in them
        have hshort : b.length < collected := by
          by_contra hge
          have hge := Nat.le_of_not_lt hge
          obtain ⟨hi, ⟨tts, hhit⟩, -⟩ := hfirst
          rw [hcollect.remainder, htake hge, hnone hge i hi] at hhit
          cases hhit
        have hholds := holds_getInSync reply tts hcollect hlen hfirst
        rw [if_pos hholds.inSync]
        refine Or.inr ⟨hlen, ps, i, by rwa [hcollect.remainder] at hfirst, ?_⟩
        have hoff' : (d.getInSync reply i ps tts).inOffset = collected - b.length := by
          rw [List.length_append] at hlen
          show d.inOffset = _
          rw [hoff]
          omega
        have hi := hfirst.1
        have hcollected : collected = 576 := rfl
        have hdone := hholds.aligned reply packets
          (by rw [hoff']; rw [List.length_append] at hlen; omega)
        rw [hoff'] at hdone
        rw [← List.take_append_drop collected (b ++ packets), List.drop_append_of_le_length
          (by rw [List.length_take]; omega)]
        rwa [List.drop_append, List.drop_eq_nil_of_le (Nat.le_of_lt hshort), List.nil_append]
    · rw [if_neg hfull]
      rw [if_neg (by rw [hcollect.inSync]; decide)]
      exact Or.inl ⟨hcollect, fun hlen => absurd (by omega) hfull⟩
  · rw [processPackets_inSync hs.inSync]
    have hi := hfirst.1
    have hcollected : collected = 576 := rfl
    have hdone := hs.aligned reply packets (c := ⟨s, 0, packets.length, error⟩)
      (Nat.zero_le packets.length)
    refine Or.inr ⟨by rw [List.length_append]; omega, ps, i, by rwa [htake hlen], ?_⟩
    rwa [List.drop_append_of_le_length (by omega)]

/-! ## Runs -/

/-- What the first calls were given. -/
def fed (cut : ℕ → List UInt8) (n : ℕ) : List UInt8 := ((List.range n).map cut).flatten

/-- The processor after so many calls; `errors` is what `*isTSFormatError` is before each of them. -/
def run (reply : AlignedReply) (test_insert : Bool) (cut : ℕ → List UInt8) (errors : ℕ → ℤ)
    (s : PacketSync) : ℕ → PacketSync
  | 0 => s
  | n + 1 => (processPackets reply test_insert (cut n) (errors n)
      (run reply test_insert cut errors s n)).1

theorem inv_run (reply : AlignedReply) (test_insert : Bool) (junk : ℕ → UInt8) (cut : ℕ → List UInt8) (errors : ℕ → ℤ) (n : ℕ) :
    Inv junk (fed cut n) (run reply test_insert cut errors (new false junk) n) := by
  induction n with
  | zero => exact inv_new junk
  | succ n ih =>
    have hfed : fed cut (n + 1) = fed cut n ++ cut n := by
      rw [fed, List.range_succ, List.map_append, List.flatten_append, List.map_singleton,
        List.flatten_singleton]
      rfl
    rw [hfed, run]
    exact ih.processPackets (cut n) (errors n)

/-- The whole of the stream is passed on in these pieces. -/
def IsCutting (stream : ℕ → UInt8) (cut : ℕ → List UInt8) : Prop :=
  (∀ n, fed cut n = load stream 0 (fed cut n).length) ∧ ∀ m, ∃ n, m ≤ (fed cut n).length

/-- From `p` on there is a sync byte in every packet. -/
def SyncFrom (stream : ℕ → UInt8) (ps p : ℕ) : Prop :=
  (ps = 188 ∧ ∀ k, stream (p + 188 * k) = syncByte) ∨
    ps = 192 ∧ ∀ k, stream (p + 4 + 192 * k) = syncByte

/-- The packets that `processPacketsAligned` has got. -/
def packets (s : PacketSync) : List (List UInt8) := s.handed.flatMap (pieces s.packetSize)

/-- **What is expected of a stream that can be synced to.** However it is cut, the processor gets in
sync, and what it hands over is the whole packets from a point of sync on. -/
def Syncs (junk : ℕ → UInt8) (stream : ℕ → UInt8) : Prop :=
  (∃ ps p, SyncFrom stream ps p) → ∃ ps p, SyncFrom stream ps p ∧
    ∀ (reply : AlignedReply) (test_insert : Bool) (cut : ℕ → List UInt8) (errors : ℕ → ℤ),
      IsCutting stream cut →
        (∃ n, (run reply test_insert cut errors (new false junk) n).inSync = true) ∧
        ∀ n, let s := run reply test_insert cut errors (new false junk) n
          if s.inSync then s.packetSize = ps ∧ s.packets = pieces ps ((fed cut n).drop p)
          else s.packets = []

/-- The bytes that are searched: the first 576 of the stream, and four that were never set. -/
def searched (junk stream : ℕ → UInt8) : ℕ → UInt8 := store junk 0 (load stream 0 collected)

variable {stream : ℕ → UInt8}

/-- With 576 bytes there, those of the stream are searched. -/
theorem take_fed {cut : ℕ → List UInt8} (hcut : IsCutting stream cut) {n : ℕ}
    (h : collected ≤ (fed cut n).length) :
    store junk 0 ((fed cut n).take collected) = searched junk stream := by
  rw [hcut.1 n, take_load, Nat.min_eq_left h, searched]

/-- Whoever has got in sync has found the first place. -/
theorem firstHit_of_inSync {cut : ℕ → List UInt8} {errors : ℕ → ℤ}
    (hcut : IsCutting stream cut) {n : ℕ}
    (h : (run reply test_insert cut errors (new false junk) n).inSync = true) :
    ∃ ps i, FirstHit (searched junk stream) ps i ∧
      Holds ps ((fed cut n).drop i) (run reply test_insert cut errors (new false junk) n) := by
  rcases inv_run reply test_insert junk cut errors n with
    ⟨hs, -⟩ | ⟨hlen, ps, i, hfirst, hs⟩
  · rw [hs.inSync] at h
    cases h
  · rw [take_fed hcut hlen] at hfirst
    exact ⟨ps, i, hfirst, hs⟩

/-- Where there is a first place, it is found with the first 576 bytes. -/
theorem inSync_of_firstHit (reply : AlignedReply) (test_insert : Bool) {cut : ℕ → List UInt8} (errors : ℕ → ℤ) {ps i : ℕ}
    (hcut : IsCutting stream cut) (hfirst : FirstHit (searched junk stream) ps i) {n : ℕ}
    (hlen : collected ≤ (fed cut n).length) :
    (run reply test_insert cut errors (new false junk) n).inSync = true := by
  rcases inv_run reply test_insert junk cut errors n with
    ⟨-, hnone⟩ | ⟨-, _, _, -, hs⟩
  · obtain ⟨hi, ⟨tts, hhit⟩, -⟩ := hfirst
    have := hnone hlen i hi
    rw [take_fed hcut hlen, hhit] at this
    cases this
  · exact hs.inSync

/-- What is handed over are whole packets. -/
theorem packets_of_holds {ps : ℕ} {l : List UInt8} {s : PacketSync} (h : Holds ps l s) :
    s.packets = pieces ps l := by
  have hpos := Nat.zero_lt_of_lt h.size_lt
  rw [packets, h.packetSize, flatMap_pieces hpos h.whole, ← h.bytes,
    pieces_append_of_lt hpos (dvd_length_flatten h.whole) (by rw [length_load]; exact h.size_lt)]

theorem syncs_of_firstHit
    (h : (∃ ps p, SyncFrom stream ps p) →
      ∃ ps i, FirstHit (searched junk stream) ps i ∧ SyncFrom stream ps i) :
    Syncs junk stream := by
  intro hsome
  obtain ⟨ps, i, hfirst, hfrom⟩ := h hsome
  refine ⟨ps, i, hfrom, fun reply test_insert cut errors hcut => ⟨?_, fun n => ?_⟩⟩
  · obtain ⟨n, hn⟩ := hcut.2 collected
    exact ⟨n, inSync_of_firstHit reply test_insert errors hcut hfirst hn⟩
  · dsimp only
    split_ifs with hsync
    · obtain ⟨ps', i', hfirst', hs⟩ := firstHit_of_inSync hcut hsync
      obtain ⟨rfl, rfl⟩ := hfirst.unique hfirst'
      exact ⟨hs.packetSize, packets_of_holds hs⟩
    · rcases inv_run reply test_insert junk cut errors n with
        ⟨hs, -⟩ | ⟨-, _, _, -, hs⟩
      · rw [packets, hs.handed]
        rfl
      · exact absurd hs.inSync hsync

/-- A byte at a time. -/
theorem isCutting_bytes (stream : ℕ → UInt8) : IsCutting stream fun n => [stream n] := by
  have hfed : ∀ n, fed (fun n => [stream n]) n = load stream 0 n := by
    intro n
    rw [fed, load]
    simp only [Nat.zero_add]
    induction n with
    | zero => rfl
    | succ n ih =>
      rw [List.range_succ, List.map_append, List.flatten_append, ih, List.map_append]
      rfl
  refine ⟨fun n => by rw [hfed, length_load], fun m => ⟨m, by rw [hfed, length_load]⟩⟩

/-- A byte of a packet that was handed over, seen from either point it is counted from. -/
theorem stream_eq {ps p i L k r : ℕ}
    (h : pieces ps ((load stream 0 L).drop p) = pieces ps ((load stream 0 L).drop i))
    (hr : r < ps) (hL : p + i + ps * (k + 1) ≤ L) :
    stream (p + r + ps * k) = stream (i + r + ps * k) := by
  have hpiece : ∀ q, q + ps * (k + 1) ≤ L →
      ((pieces ps ((load stream 0 L).drop q))[k]?.bind (·[r]?)) = some (stream (q + r + ps * k)) := by
    intro q hq
    have hk : k < ((load stream 0 L).drop q).length / ps := by
      rw [List.length_drop, length_load]
      refine (Nat.le_div_iff_mul_le (Nat.zero_lt_of_lt hr)).mpr ?_
      rw [Nat.mul_comm, Nat.succ_eq_add_one]
      omega
    rw [getElem?_pieces hk, Option.bind_some, List.getElem?_take_of_lt hr, List.getElem?_drop,
      List.getElem?_drop, load, List.getElem?_map]
    have hmul : ps * (k + 1) = ps * k + ps := Nat.mul_succ ps k
    rw [List.getElem?_range (by omega), Option.map_some, Nat.zero_add]
    congr 2
    omega
  have hp := hpiece p (by omega)
  rw [h, hpiece i (by omega)] at hp
  exact (Option.some.inj hp).symm

theorem firstHit_of_syncs (h : Syncs junk stream)
    (hsome : ∃ ps p, SyncFrom stream ps p) :
    ∃ ps i, FirstHit (searched junk stream) ps i ∧ SyncFrom stream ps i := by
  obtain ⟨ps, p, hfrom, hrun⟩ := h hsome
  have hcut := isCutting_bytes stream
  obtain ⟨⟨n, hn⟩, hall⟩ := hrun (fun _ _ => (0, 0)) false _ (fun _ => 0) hcut
  obtain ⟨ps', i, hfirst, hs⟩ := firstHit_of_inSync hcut hn
  obtain rfl : ps' = ps := by
    have := hall n
    rw [if_pos hn] at this
    exact hs.packetSize.symm.trans this.1
  refine ⟨ps', i, hfirst, ?_⟩
  -- after enough calls the packets are the same, from either point on
  have hsame : ∀ k r, r < ps' → stream (p + r + ps' * k) = stream (i + r + ps' * k) := by
    intro k r hr
    obtain ⟨m, hm⟩ := hcut.2 (p + i + ps' * (k + 1) + collected)
    have hsync := inSync_of_firstHit (fun _ _ => (0, 0)) false (fun _ => 0) hcut hfirst
      (n := m) (by omega)
    obtain ⟨ps'', i', hfirst', hs'⟩ := firstHit_of_inSync hcut hsync
    obtain ⟨rfl, rfl⟩ := hfirst.unique hfirst'
    have hpackets := hall m
    rw [if_pos hsync, packets_of_holds hs', hcut.1 m] at hpackets
    exact stream_eq hpackets.2.symm hr (by omega)
  rcases hfrom with ⟨rfl, hbytes⟩ | ⟨rfl, hbytes⟩
  · exact Or.inl ⟨rfl, fun k => (hsame k 0 (by decide)).symm.trans (hbytes k)⟩
  · exact Or.inr ⟨rfl, fun k => (hsame k 4 (by decide)).symm.trans (hbytes k)⟩

/-- **When a stream is synced to**: when there is no sync to be found, or when at one of the first 192
bytes three sync bytes in a row begin, and the first such place is one from which on there is sync. -/
theorem syncs_iff (junk stream : ℕ → UInt8) :
    Syncs junk stream ↔ ((∃ ps p, SyncFrom stream ps p) →
      ∃ ps i, FirstHit (searched junk stream) ps i ∧ SyncFrom stream ps i) :=
  ⟨firstHit_of_syncs, syncs_of_firstHit⟩

/-- Sync begins behind the first 192 bytes. -/
def lateStream : ℕ → UInt8 := fun i => if 192 ≤ i ∧ (i - 192) % 188 = 0 then syncByte else 0

theorem lateStream_searched {i : ℕ} (h : searched (fun _ => 0) lateStream i = syncByte) :
    192 ≤ i ∧ (i - 192) % 188 = 0 := by
  rw [searched] at h
  rcases Nat.lt_or_ge i collected with hi | hi
  · rw [store_of_mem (Nat.zero_le i) (by rwa [length_load])] at h
    simp only [load, List.getElem_map, List.getElem_range, Nat.zero_add, Nat.sub_zero,
      lateStream] at h
    by_contra hnot
    rw [if_neg hnot] at h
    exact absurd h (by decide)
  · rw [store_of_not_mem (Or.inr (by rwa [length_load, Nat.zero_add]))] at h
    exact absurd h (by decide)

/-- It is not synced to. -/
theorem not_syncs_lateStream : ¬ Syncs (fun _ => 0) lateStream := by
  intro h
  have hfrom : SyncFrom lateStream 188 192 := by
    refine Or.inl ⟨rfl, fun k => if_pos ⟨Nat.le_add_right 192 _, ?_⟩⟩
    rw [Nat.add_sub_cancel_left, Nat.mul_mod_right]
  obtain ⟨ps, i, ⟨hi, ⟨tts, hhit⟩, -⟩, -⟩ := firstHit_of_syncs h ⟨188, 192, hfrom⟩
  rw [hit] at hhit
  split_ifs at hhit with h₁ h₂
  · have := (lateStream_searched h₁.1).1
    omega
  · have h₃ := lateStream_searched h₂.1
    have h₄ := lateStream_searched h₂.2.1
    omega

end PacketSync

end MediaFramework
