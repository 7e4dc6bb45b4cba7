import MediaFramework.Lib.Ring
import MediaFramework.Lib.Run

/-!
# The insert source's buffer (`RBIHTTPInsertSource`)

A thread of the insert source receives an ad over HTTP and puts it into a ring
buffer (`receiveData`); the stream's thread takes it out while the ad is
inserted (`read`), once the source has reported `dataReady`. While the received
data is parsed, the first I-frame found makes the source put a marker packet in
front of what it holds (`foundFrame`), so that the marker is the first packet
read.

Each of these touches the buffer under the source's mutex: `receiveSection`,
`readSection` and `foundFrame` are what happens between a lock and its unlock,
and a run is any interleaving of them. A `read` that finds too little data
releases the lock, waits and tries again, so a call is a number of sections that
take nothing and at most one that takes its whole length; likewise a
`receiveData` that finds the buffer full. Stop requests and format errors end a
call before a section and are left out.

What the buffer is for is a queue: what is read is the marker, then the bytes
accepted, in their order. The marker is put in without a look at the free space,
and the queue is kept exactly as long as there is room for it.
-/

namespace MediaFramework

/-- `RBIBitRateInfo`: a number of bytes, and the bit rate they were sent at. -/
structure RbiBitRateInfo where
  count : ℤ
  bitRate : ℤ
  deriving DecidableEq

/-- `I_FRAME`, `P_FRAME` and `B_FRAME`. -/
inductive FrameType : Type where
  | iFrame
  | pFrame
  | bFrame
  deriving DecidableEq

/-- The fields of `RBIHTTPInsertSource` the buffer's functions use. -/
structure InsertSource where
  /-- `m_data`, `m_capacity`, `m_head`, `m_tail` and `m_count` -/
  ring : Ring UInt8
  /-- the ad's tables are known -/
  havePMT : Bool
  /-- the marker is in front of the first I-frame -/
  haveIFrame : Bool
  /-- how far into the data the I-frame was found -/
  offsetIFrame : ℤ
  /-- zero until a frame follows it -/
  lenIFrame : ℤ
  /-- of the chunks in the buffer, the oldest first -/
  bitRateInfo : List RbiBitRateInfo
  /-- that of the oldest chunk -/
  bitRate : ℤ
  /-- the PTS of the first I-frame -/
  startPTS : ℤ
  startPCR : ℤ
  /-- frames found so far -/
  adReadVideoFrameCnt : ℕ
  /-- the frames after which the ad may be left -/
  adVideoExitFrameInfo : List ℕ

namespace InsertSource

/-- `m_maxBuffering`. -/
def maxBuffering : ℕ := 1 * 1024 * 1024

/-- The source after `open`, with what `malloc` left in the buffer. -/
def opened (data : ℕ → UInt8) : InsertSource where
  ring := { data := data, capacity := maxBuffering, head := 0, tail := 0, count := 0 }
  havePMT := false
  haveIFrame := false
  offsetIFrame := 0
  lenIFrame := 0
  bitRateInfo := []
  bitRate := 0
  startPTS := -1
  startPCR := 0
  adReadVideoFrameCnt := 0
  adVideoExitFrameInfo := []

/-- `dataReady`. -/
def dataReady (src : InsertSource) : Bool :=
  src.havePMT && src.haveIFrame && src.bitRate != 0 && decide (src.ring.count > 100 * 1024)

/-! ## Bit rates

Data arrives in chunks, each with its bit rate, and what is read is taken off the oldest of them.
-/

/-- The loop of `updateBitrate`: drop `consumed` bytes from the chunks. -/
def consumeChunks : List RbiBitRateInfo → ℤ → List RbiBitRateInfo
  | [], _ => []
  | info :: rest, consumed =>
    if consumed > 0 then
      if consumed ≥ info.count then consumeChunks rest (consumed - info.count)
      else { info with count := info.count - consumed } :: rest
    else info :: rest

/-- `updateBitrate`. -/
def updateBitrate (src : InsertSource) (consumed : ℤ) : InsertSource :=
  let bitRateInfo := consumeChunks src.bitRateInfo consumed
  { src with
    bitRateInfo := bitRateInfo
    bitRate := (bitRateInfo.head?.map RbiBitRateInfo.bitRate).getD src.bitRate }

/-- `foundBitRate`. -/
def foundBitRate (src : InsertSource) (bitRate chunkSize : ℤ) : InsertSource :=
  let bitRateInfo := src.bitRateInfo ++ [{ count := chunkSize, bitRate := bitRate }]
  { src with
    bitRateInfo := bitRateInfo
    bitRate := if bitRateInfo.length = 1 then bitRate else src.bitRate }

/-- `acquiredPMT`. -/
def acquiredPMT (src : InsertSource) : InsertSource := { src with havePMT := true }

/-! ## Receiving -/

/-- The cells `receiveData` can fill without wrapping around; behind the tail one
cell is left free. -/
def freeRun (r : Ring UInt8) : ℕ :=
  if r.head ≥ r.tail then r.capacity - r.head else r.tail - r.head - 1

/-- The copying loop of `receiveData`; with the ring it leaves comes what was
not copied. -/
def receiveLoop (r : Ring UInt8) (data : List UInt8) : Ring UInt8 × List UInt8 :=
  let copylen := min (freeRun r) data.length
  if 0 < copylen then receiveLoop (r.push (data.take copylen)) (data.drop copylen) else (r, data)
termination_by data.length
decreasing_by
  rw [List.length_drop]
  omega

/-- One locked section of `receiveData`, with `data` still to be put in; gives
the source and the bytes accepted. A count above the capacity makes the length
to copy negative, and the copy undefined. -/
def receiveSection (src : InsertSource) (data : List UInt8) :
    Option (InsertSource × List UInt8) :=
  if src.ring.count > src.ring.capacity then none
  else
    let consume := data.take (src.ring.capacity - src.ring.count)
    let (ring, left) := receiveLoop src.ring consume
    some ({ src with ring := ring }, consume.take (consume.length - left.length))

/-! ## Reading -/

/-- The cells `read` can empty without wrapping around. -/
def filledRun (r : Ring UInt8) : ℕ :=
  if r.tail < r.head then r.head - r.tail else r.capacity - r.tail

/-- The copying loop of `read`. -/
def readLoop (r : Ring UInt8) (consume : ℕ) : Ring UInt8 × List UInt8 :=
  let copylen := min (filledRun r) consume
  if 0 < copylen then
    let (r', rest) := readLoop (r.drop copylen) (consume - copylen)
    (r', load r.data r.tail copylen ++ rest)
  else (r, [])
termination_by consume
decreasing_by
  omega

/-- One locked section of `read`: the whole length, or nothing. -/
def readSection (src : InsertSource) (length : ℕ) : InsertSource × List UInt8 :=
  if src.ring.count ≥ length then
    let (ring, buffer) := readLoop src.ring length
    ({ src with ring := ring }.updateBitrate buffer.length, buffer)
  else (src.updateBitrate 0, [])

/-! ## Finding frames -/

/-- The marker packet: a null packet whose payload begins with a text. -/
def markerPacket : List UInt8 :=
  [0x47, 0x1F, 0xFF, 0x00, 0xFF,
    77, 97, 114, 107, 101, 114, 0, 82, 66, 73, 32, 115, 116, 97, 114, 116] ++
  List.replicate 167 0xFF

/-- The marking of a GOP as broken: a rewriting of packets in place. -/
structure GopEdit where
  /-- what the temporary stream processor makes of the packets -/
  run : List UInt8 → List UInt8
  /-- in place: no byte is added or removed -/
  length_run : ∀ packets, (run packets).length = packets.length

/-- The position of the marker packet. -/
def markerTail (r : Ring UInt8) : ℕ :=
  if r.tail < 188 then r.capacity - 188 else r.tail - 188

/-- The book-keeping of the frames after which the ad may be left. -/
def countFrame (src : InsertSource) (frameType : FrameType) : InsertSource :=
  let n := src.adReadVideoFrameCnt + 1
  let info := src.adVideoExitFrameInfo.dropLast ++
    (if frameType = .iFrame ∨ frameType = .pFrame then [n - 1] else []) ++ [n]
  { src with adReadVideoFrameCnt := n, adVideoExitFrameInfo := info }

/-- The first I-frame: put the marker packet in front of the data. -/
def insertMarker (src : InsertSource) (frameStartOffset pts pcr : ℤ) : Option InsertSource :=
  if (src.ring.count : ℤ) ≥ frameStartOffset then
    let src := { src with
      haveIFrame := true, startPTS := pts, offsetIFrame := frameStartOffset, startPCR := pcr }
    let src := src.updateBitrate frameStartOffset
    some { src with
      ring := src.ring.unshift (markerTail src.ring) markerPacket
      bitRateInfo :=
        match src.bitRateInfo with
        | [] => []
        | info :: rest => { info with count := info.count + 188 } :: rest }
  -- `assert( m_count >= frameStartOffset )`
  else none

/-- The first frame after the I-frame: its distance is the length of the
I-frame, and the first GOP is edited if it lies in one piece. The code asks for
that before it takes the mutex; here it is one section. -/
def firstGop (edit : GopEdit) (src : InsertSource) (frameStartOffset : ℤ) : InsertSource :=
  if src.haveIFrame = true ∧ src.lenIFrame = 0 then
    let src := { src with lenIFrame := frameStartOffset - src.offsetIFrame }
    if (src.ring.count : ℤ) ≥ src.lenIFrame ∧ src.ring.tail < src.ring.head then
      { src with
        ring := src.ring.overwrite
          (edit.run (load src.ring.data src.ring.tail src.lenIFrame.toNat)) }
    else src
  else src

/-- `foundFrame`; `none` where its assertion fails. -/
def foundFrame (edit : GopEdit) (src : InsertSource) (frameType : FrameType)
    (frameStartOffset pts pcr : ℤ) : Option InsertSource :=
  let src := src.countFrame frameType
  if frameType = .iFrame then
    if src.haveIFrame then some src else src.insertMarker frameStartOffset pts pcr
  else some (src.firstGop edit frameStartOffset)

/-! ## Interleavings

A session is any order of the locked sections of both threads. What has gone in and out is recorded
beside the source, for the statements alone.
-/

/-- A locked section of one of the two threads. -/
inductive Event : Type where
  /-- the source's thread puts data in -/
  | receive (data : List UInt8)
  /-- the source's stream processor has the PMT -/
  | acquiredPMT
  /-- it has a bit rate -/
  | foundBitRate (bitRate chunkSize : ℤ)
  /-- it has found a frame -/
  | foundFrame (frameType : FrameType) (frameStartOffset pts pcr : ℤ)
  /-- the stream's thread asks whether data is ready; once it was, it reads -/
  | consume (length : ℕ)

/-- The source, its reader, and what has gone in and out. -/
structure Session where
  src : InsertSource
  /-- the reader has found the source ready -/
  reading : Bool
  /-- the bytes `read` has returned -/
  returned : List UInt8
  /-- the bytes `receiveData` has accepted -/
  accepted : List UInt8
  /-- the queue's whole contents over time: the marker and the bytes accepted,
  with the first GOP as edited -/
  stream : List UInt8
  /-- the first GOP has been edited -/
  edited : Bool

namespace Session

/-- The session after `open`. -/
def start (data : ℕ → UInt8) : Session where
  src := opened data
  reading := false
  returned := []
  accepted := []
  stream := []
  edited := false

/-- The next frame is the one that has the first GOP edited. -/
def EditsGop (src : InsertSource) (frameType : FrameType) (frameStartOffset : ℤ) : Prop :=
  frameType ≠ .iFrame ∧ src.haveIFrame = true ∧ src.lenIFrame = 0 ∧
    (src.ring.count : ℤ) ≥ frameStartOffset - src.offsetIFrame ∧ src.ring.tail < src.ring.head

instance (src : InsertSource) (frameType : FrameType) (frameStartOffset : ℤ) :
    Decidable (EditsGop src frameType frameStartOffset) :=
  inferInstanceAs (Decidable (_ ∧ _))

/-- What a frame does to the queue's contents: the first I-frame puts the marker
in front, the one after it may rewrite the first bytes that are still to be
read. -/
def streamAfterFrame (edit : GopEdit) (s : Session) (frameType : FrameType)
    (frameStartOffset : ℤ) : List UInt8 :=
  if frameType = .iFrame ∧ s.src.haveIFrame = false then markerPacket ++ s.stream
  else if EditsGop s.src frameType frameStartOffset then
    let n := (frameStartOffset - s.src.offsetIFrame).toNat
    let pending := s.stream.drop s.returned.length
    s.returned ++ (edit.run (pending.take n) ++ pending.drop n)
  else s.stream

/-- One locked section. -/
def step (edit : GopEdit) (s : Session) : Event → Option Session
  | .receive data =>
    (receiveSection s.src data).map fun (src, taken) =>
      { s with src := src, accepted := s.accepted ++ taken, stream := s.stream ++ taken }
  | .acquiredPMT => some { s with src := s.src.acquiredPMT }
  | .foundBitRate bitRate chunkSize =>
    some { s with src := s.src.foundBitRate bitRate chunkSize }
  | .foundFrame frameType frameStartOffset pts pcr =>
    (foundFrame edit s.src frameType frameStartOffset pts pcr).map fun src =>
      { s with
        src := src
        stream := streamAfterFrame edit s frameType frameStartOffset
        edited := s.edited || decide (EditsGop s.src frameType frameStartOffset) }
  | .consume length =>
    if s.reading then
      let (src, buffer) := readSection s.src length
      some { s with src := src, returned := s.returned ++ buffer }
    else some { s with reading := s.src.dataReady }

end Session

/-! ## The copying loops

Each copies up to the end of the buffer and goes on at its beginning. In a valid ring that is adding
to a queue, and taking from it.
-/

/-- What is copied into the ring is put behind its contents. -/
theorem receiveLoop_spec {r : Ring UInt8} (data : List UInt8) (h : r.Valid)
    (hroom : r.count + data.length ≤ r.capacity) :
    ∃ copied, data = copied ++ (receiveLoop r data).2 ∧ (receiveLoop r data).1.Valid ∧
      (receiveLoop r data).1.contents = r.contents ++ copied ∧
      (receiveLoop r data).1.capacity = r.capacity ∧ (receiveLoop r data).1.tail = r.tail := by
  induction r, data using receiveLoop.induct with
  | case1 r data copylen hpos ih =>
    -- a segment is copied, then the loop goes on
    have hlen : (data.take copylen).length = copylen := by
      rw [List.length_take]
      omega
    have hfit : r.head + (data.take copylen).length ≤ r.capacity := by
      have := h.head_lt
      have := h.tail_lt
      have hfree : freeRun r ≤ r.capacity - r.head := by
        unfold freeRun
        split <;> omega
      omega
    have hroom' : r.count + (data.take copylen).length ≤ r.capacity := by
      rw [hlen]
      omega
    obtain ⟨hvalid, hcontents⟩ := h.push hroom' hfit
    obtain ⟨copied, hdata, hv, hc, hcap, htail⟩ := ih hvalid (by
      show r.count + (data.take copylen).length + (data.drop copylen).length ≤ r.capacity
      rw [hlen, List.length_drop]
      omega)
    rw [receiveLoop, if_pos hpos]
    refine ⟨data.take copylen ++ copied, ?_, hv, ?_, hcap, htail⟩
    · rw [List.append_assoc, ← hdata, List.take_append_drop]
    · rw [hc, hcontents, List.append_assoc]
  | case2 r data copylen hpos =>
    rw [receiveLoop, if_neg hpos]
    exact ⟨[], rfl, h, (List.append_nil _).symm, rfl, rfl⟩

/-- What is copied out of the ring was in front of its contents. -/
theorem readLoop_spec {r : Ring UInt8} {consume : ℕ} (h : r.Valid) (hn : consume ≤ r.count) :
    (readLoop r consume).1.Valid ∧
      r.contents = (readLoop r consume).2 ++ (readLoop r consume).1.contents ∧
      (readLoop r consume).2.length = consume ∧
      (readLoop r consume).1.capacity = r.capacity := by
  induction r, consume using readLoop.induct with
  | case1 r consume copylen hpos r' rest heq ih =>
    have hfilled : filledRun r ≤ r.capacity - r.tail := by
      have := h.head_lt
      unfold filledRun
      split <;> omega
    obtain ⟨hvalid, hcontents⟩ := h.drop (n := copylen) (by omega) (by omega)
    obtain ⟨hv, hc, hlen, hcap⟩ := ih hvalid (by
      show consume - copylen ≤ r.count - copylen
      omega)
    rw [readLoop, if_pos hpos]
    refine ⟨hv, ?_, ?_, hcap⟩
    · rw [hcontents, hc, List.append_assoc]
    · rw [List.length_append, length_load, hlen]
      omega
  | case2 r consume copylen hpos =>
    -- nothing was left to copy: a valid ring has filled cells at its tail
    have hzero : consume = 0 := by
      have := h.tail_lt
      have hfilled : 0 < filledRun r := by
        unfold filledRun
        split <;> omega
      omega
    rw [readLoop, if_neg hpos]
    exact ⟨h, rfl, hzero.symm, rfl⟩

/-! ## What each section does to the buffer

One lemma a section, in terms of the contents. The run below does not look into the ring any more.
-/

theorem length_markerPacket : markerPacket.length = 188 := by
  rw [markerPacket, List.length_append, List.length_replicate]
  rfl

/-- `receiveData` appends what it accepts. -/
theorem receiveSection_spec {src src' : InsertSource} {data taken : List UInt8}
    (h : src.ring.Valid) (hs : receiveSection src data = some (src', taken)) :
    src'.ring.Valid ∧ src'.ring.contents = src.ring.contents ++ taken ∧
      src'.ring.capacity = src.ring.capacity ∧ src'.ring.tail = src.ring.tail ∧
      src'.haveIFrame = src.haveIFrame := by
  have hcount := h.count_le
  rw [receiveSection, if_neg (Nat.not_lt.mpr hcount)] at hs
  obtain ⟨rfl, rfl⟩ := Prod.mk.inj (Option.some.inj hs)
  obtain ⟨copied, hdata, hv, hc, hcap, htail⟩ := receiveLoop_spec
    (data.take (src.ring.capacity - src.ring.count)) h (by
      rw [List.length_take]
      omega)
  refine ⟨hv, ?_, hcap, htail, rfl⟩
  rw [hc]
  congr 1
  -- what was copied is what the loop did not leave
  generalize (receiveLoop src.ring _).2 = left at hdata ⊢
  rw [hdata, List.length_append, Nat.add_sub_cancel, List.take_left' rfl]

/-- Before anything is read, data that fits is copied whole. -/
theorem receiveLoop_unread {r : Ring UInt8} {data : List UInt8} (h : r.Valid)
    (htail : r.tail = 0) (hfit : r.count + data.length ≤ r.capacity) :
    ∃ r', receiveLoop r data = (r', []) ∧ r'.count = r.count + data.length := by
  have hempty : ∀ r : Ring UInt8, receiveLoop r [] = (r, []) := fun r => by
    rw [receiveLoop]
    simp
  by_cases hdata : data = []
  · subst hdata
    exact ⟨r, hempty r, rfl⟩
  · have hpos : 0 < data.length := List.length_pos_iff.mpr hdata
    have hhead : r.head = r.count := by
      have := h.head_eq
      rw [htail, Nat.zero_add, Nat.mod_eq_of_lt (by omega)] at this
      exact this.symm
    have hcopy : min (freeRun r) data.length = data.length := by
      have hfree : freeRun r = r.capacity - r.count := by
        rw [freeRun, if_pos (by omega), hhead]
      omega
    refine ⟨r.push data, ?_, rfl⟩
    rw [receiveLoop]
    simp only [hcopy, if_pos hpos, List.take_length, List.drop_length, hempty]

theorem receiveSection_unread {src : InsertSource} (data : List UInt8) (h : src.ring.Valid)
    (htail : src.ring.tail = 0) (hfit : src.ring.count + data.length ≤ src.ring.capacity) :
    ∃ src', receiveSection src data = some (src', data) ∧
      src'.ring.count = src.ring.count + data.length ∧ src'.bitRateInfo = src.bitRateInfo := by
  obtain ⟨r, hloop, hcount⟩ := receiveLoop_unread h htail hfit
  refine ⟨{ src with ring := r }, ?_, hcount, rfl⟩
  rw [receiveSection, if_neg (Nat.not_lt.mpr h.count_le), List.take_of_length_le (by omega)]
  simp only [hloop, List.length_nil, Nat.sub_zero, List.take_length]

/-- `read` takes from the front. -/
theorem readSection_spec {src : InsertSource} (length : ℕ) (h : src.ring.Valid) :
    (readSection src length).1.ring.Valid ∧
      src.ring.contents = (readSection src length).2 ++ (readSection src length).1.ring.contents ∧
      (readSection src length).1.ring.capacity = src.ring.capacity ∧
      (readSection src length).1.haveIFrame = src.haveIFrame := by
  rw [readSection]
  by_cases hcount : src.ring.count ≥ length
  · obtain ⟨hv, hc, -, hcap⟩ := readLoop_spec h hcount
    rw [if_pos hcount]
    exact ⟨hv, hc, hcap, rfl⟩
  · rw [if_neg hcount]
    exact ⟨h, rfl, rfl, rfl⟩

/-- The marker is put in front, if there is room and nothing has been read. -/
theorem insertMarker_spec (src : InsertSource) {src' : InsertSource} {frameStartOffset pts pcr : ℤ}
    (h : src.ring.Valid) (htail : src.ring.tail = 0)
    (hroom : src.ring.count + 188 ≤ src.ring.capacity)
    (hs : src.insertMarker frameStartOffset pts pcr = some src') :
    src'.ring.Valid ∧ src'.ring.contents = markerPacket ++ src.ring.contents ∧
      src'.ring.capacity = src.ring.capacity ∧ src'.haveIFrame = true := by
  by_cases hassert : (src.ring.count : ℤ) ≥ frameStartOffset
  · rw [insertMarker, if_pos hassert] at hs
    cases hs
    have hlen := length_markerPacket
    have hmark : markerTail src.ring = src.ring.capacity - 188 := by
      rw [markerTail, if_pos (by omega)]
    obtain ⟨hv, hc⟩ := h.unshift (markerTail src.ring) markerPacket
      (by omega) (by omega) (by omega) (by
        rw [hmark, hlen, Nat.sub_add_cancel (by omega), Nat.mod_self, htail])
    exact ⟨hv, hc, rfl, rfl⟩
  · rw [insertMarker, if_neg hassert] at hs
    cases hs

/-- The marker counts, whether there is room for it or not. -/
theorem count_insertMarker (src : InsertSource) {src' : InsertSource} {frameStartOffset pts pcr : ℤ}
    (hs : src.insertMarker frameStartOffset pts pcr = some src') :
    src'.ring.count = src.ring.count + 188 ∧ src'.ring.capacity = src.ring.capacity := by
  by_cases hassert : (src.ring.count : ℤ) ≥ frameStartOffset
  · rw [insertMarker, if_pos hassert] at hs
    cases hs
    exact ⟨congrArg (src.ring.count + ·) length_markerPacket, rfl⟩
  · rw [insertMarker, if_neg hassert] at hs
    cases hs

/-- The edit of the first GOP replaces the first bytes held. -/
theorem firstGop_spec (edit : GopEdit) (src : InsertSource) {frameType : FrameType}
    (hframe : frameType ≠ .iFrame) (frameStartOffset : ℤ) (h : src.ring.Valid) :
    (src.firstGop edit frameStartOffset).ring.Valid ∧
      (src.firstGop edit frameStartOffset).ring.contents =
        (if Session.EditsGop src frameType frameStartOffset then
          edit.run (src.ring.contents.take (frameStartOffset - src.offsetIFrame).toNat) ++
            src.ring.contents.drop (frameStartOffset - src.offsetIFrame).toNat
        else src.ring.contents) ∧
      (src.firstGop edit frameStartOffset).ring.capacity = src.ring.capacity ∧
      (src.firstGop edit frameStartOffset).ring.tail = src.ring.tail ∧
      (src.firstGop edit frameStartOffset).haveIFrame = src.haveIFrame := by
  by_cases hfirst : src.haveIFrame = true ∧ src.lenIFrame = 0
  · rw [firstGop, if_pos hfirst]
    by_cases hwhole : (src.ring.count : ℤ) ≥ frameStartOffset - src.offsetIFrame ∧
        src.ring.tail < src.ring.head
    · rw [if_pos hwhole, if_pos ⟨hframe, hfirst.1, hfirst.2, hwhole⟩]
      generalize hlen : (frameStartOffset - src.offsetIFrame).toNat = n
      have hn : n ≤ src.ring.count := by omega
      have hfit : src.ring.tail + n ≤ src.ring.capacity := by
        -- the bytes held lie in one piece between the tail and the head
        have hhead := h.head_eq
        have := h.head_lt
        have := h.count_le
        rcases Nat.lt_or_ge (src.ring.tail + src.ring.count) src.ring.capacity with hlt | hge
        · omega
        · rw [Nat.mod_eq_sub_mod hge, Nat.mod_eq_of_lt (by omega)] at hhead
          omega
      have hload : load src.ring.data src.ring.tail n = src.ring.contents.take n := by
        obtain ⟨-, hc⟩ := h.drop hn hfit
        rw [hc, List.take_left' length_load]
      have hrun : (edit.run (load src.ring.data src.ring.tail n)).length = n := by
        rw [edit.length_run, length_load]
      obtain ⟨hv, hc⟩ := h.overwrite (edit.run (load src.ring.data src.ring.tail n))
        (by omega) (by omega)
      refine ⟨hv, ?_, rfl, rfl, rfl⟩
      rw [hc, hrun, hload]
    · rw [if_neg hwhole, if_neg fun he => hwhole he.2.2.2]
      exact ⟨h, rfl, rfl, rfl, rfl⟩
  · rw [firstGop, if_neg hfirst, if_neg fun he => hfirst ⟨he.2.1, he.2.2.1⟩]
    exact ⟨h, rfl, rfl, rfl, rfl⟩

/-! ## The queue

What was returned and what the ring holds are together the marker and what was accepted, and the
condition is that there is room for the marker.
-/

namespace Session

/-- What holds between two sections. -/
structure Inv (s : Session) : Prop where
  valid : s.src.ring.Valid
  capacity_eq : s.src.ring.capacity = maxBuffering
  /-- nothing is read before the marker is in -/
  unread : s.src.haveIFrame = false →
    s.src.ring.tail = 0 ∧ s.reading = false ∧ s.returned = []
  /-- what was returned and what is held make up what was put in -/
  queue : s.returned ++ s.src.ring.contents = s.stream
  unedited : s.edited = false →
    s.stream = (if s.src.haveIFrame then markerPacket else []) ++ s.accepted

theorem inv_start (data : ℕ → UInt8) : Inv (start data) where
  valid :=
    have hpos : 0 < maxBuffering := by decide
    ⟨hpos, hpos, Nat.zero_le _, Nat.zero_mod _⟩
  capacity_eq := rfl
  unread := fun _ => ⟨rfl, rfl, rfl⟩
  queue := rfl
  unedited := fun _ => rfl

/-- When the marker is put in, there is room for it. -/
def RoomForMarker (s : Session) : Event → Prop
  | .foundFrame frameType _ _ _ =>
    frameType = .iFrame → s.src.haveIFrame = false →
      s.src.ring.count + 188 ≤ s.src.ring.capacity
  | _ => True

theorem Inv.receive {s s' : Session} {edit : GopEdit} {data : List UInt8} (h : Inv s)
    (hs : step edit s (.receive data) = some s') : Inv s' := by
  obtain ⟨⟨src, taken⟩, hsec, rfl⟩ := Option.map_eq_some_iff.mp hs
  obtain ⟨hv, hc, hcap, htail, hframe⟩ := receiveSection_spec h.valid hsec
  refine ⟨hv, hcap.trans h.capacity_eq, fun hno => ?_, ?_, fun hne => ?_⟩
  · obtain ⟨h0, hrest⟩ := h.unread (hframe.symm.trans hno)
    exact ⟨htail.trans h0, hrest⟩
  · rw [hc, ← List.append_assoc, h.queue]
  · show s.stream ++ taken = (if src.haveIFrame then _ else _) ++ (s.accepted ++ taken)
    rw [h.unedited hne, hframe, List.append_assoc]

theorem Inv.consume {s s' : Session} {edit : GopEdit} {length : ℕ} (h : Inv s)
    (hs : step edit s (.consume length) = some s') : Inv s' := by
  by_cases hreading : s.reading = true
  · rw [step, if_pos hreading] at hs
    cases hs
    obtain ⟨hv, hc, hcap, hframe⟩ := readSection_spec length h.valid
    refine ⟨hv, hcap.trans h.capacity_eq, fun hno => ?_, ?_, fun hne => ?_⟩
    · have hread := (h.unread (hframe.symm.trans hno)).2.1
      rw [hreading] at hread
      cases hread
    · show s.returned ++ (readSection s.src length).2 ++ (readSection s.src length).1.ring.contents
        = s.stream
      rw [List.append_assoc, ← hc, h.queue]
    · show s.stream = (if (readSection s.src length).1.haveIFrame then _ else _) ++ s.accepted
      rw [hframe]
      exact h.unedited hne
  · rw [step, if_neg hreading] at hs
    cases hs
    refine ⟨h.valid, h.capacity_eq, fun hno => ?_, h.queue, h.unedited⟩
    obtain ⟨h0, -, hret⟩ := h.unread hno
    refine ⟨h0, ?_, hret⟩
    have hno' : s.src.haveIFrame = false := hno
    rw [dataReady, hno']
    simp

theorem Inv.foundFrame {s s' : Session} {edit : GopEdit} {frameType : FrameType}
    {frameStartOffset pts pcr : ℤ} (h : Inv s)
    (hroom : RoomForMarker s (.foundFrame frameType frameStartOffset pts pcr))
    (hs : step edit s (.foundFrame frameType frameStartOffset pts pcr) = some s') : Inv s' := by
  obtain ⟨src, hsrc, rfl⟩ := Option.map_eq_some_iff.mp hs
  by_cases hframe : frameType = .iFrame
  · have hnoedit : ¬ EditsGop s.src frameType frameStartOffset := fun he => he.1 hframe
    rw [InsertSource.foundFrame, if_pos hframe] at hsrc
    rcases hhave : s.src.haveIFrame with _ | _
    · -- the first I-frame
      rw [if_neg (by simp [countFrame, hhave])] at hsrc
      obtain ⟨h0, hreading, hret⟩ := h.unread hhave
      obtain ⟨hv, hc, hcap, hnow⟩ :=
        insertMarker_spec (s.src.countFrame frameType) h.valid h0 (hroom hframe hhave) hsrc
      have hc' : src.ring.contents = markerPacket ++ s.src.ring.contents := hc
      refine ⟨hv, hcap.trans h.capacity_eq, fun hno => ?_, ?_, fun hne => ?_⟩
      · rw [show src.haveIFrame = true from hnow] at hno
        cases hno
      · have hq := h.queue
        rw [hret, List.nil_append] at hq
        rw [streamAfterFrame, if_pos ⟨hframe, hhave⟩, hc', hret, List.nil_append, hq]
      · have hu := h.unedited ((Bool.or_eq_false_iff.mp hne).1)
        rw [hhave, if_neg Bool.false_ne_true, List.nil_append] at hu
        rw [streamAfterFrame, if_pos ⟨hframe, hhave⟩, hu, show src.haveIFrame = true from hnow,
          if_pos rfl]
    · -- a later I-frame changes nothing here
      rw [if_pos (by simp [countFrame, hhave])] at hsrc
      cases hsrc
      have hstream : streamAfterFrame edit s frameType frameStartOffset = s.stream := by
        rw [streamAfterFrame, if_neg (by simp [hhave]), if_neg hnoedit]
      refine ⟨h.valid, h.capacity_eq, h.unread, ?_, fun hne => ?_⟩
      · rw [hstream]
        exact h.queue
      · rw [hstream]
        exact h.unedited ((Bool.or_eq_false_iff.mp hne).1)
  · -- any other frame: the first GOP may be edited
    rw [InsertSource.foundFrame, if_neg hframe] at hsrc
    cases hsrc
    obtain ⟨hv, hc, hcap, htail, hhave⟩ :=
      firstGop_spec edit (s.src.countFrame frameType) hframe frameStartOffset h.valid
    refine ⟨hv, hcap.trans h.capacity_eq, fun hno => ?_, ?_, fun hne => ?_⟩
    · obtain ⟨h0, hrest⟩ := h.unread (hhave.symm.trans hno)
      exact ⟨htail.trans h0, hrest⟩
    · have hnot : ¬ (frameType = .iFrame ∧ s.src.haveIFrame = false) := fun hi => hframe hi.1
      rw [hc, streamAfterFrame, if_neg hnot]
      by_cases hedit : EditsGop s.src frameType frameStartOffset
      · have hpending : s.stream.drop s.returned.length = s.src.ring.contents := by
          rw [← h.queue, List.drop_left' rfl]
        rw [if_pos hedit, hpending]
        exact congrArg (s.returned ++ ·) (if_pos hedit)
      · rw [if_neg hedit]
        exact (congrArg (s.returned ++ ·) (if_neg hedit)).trans h.queue
    · obtain ⟨hne, hedit⟩ := Bool.or_eq_false_iff.mp hne
      have hnot : ¬ (frameType = .iFrame ∧ s.src.haveIFrame = false) := fun hi => hframe hi.1
      rw [hhave, streamAfterFrame, if_neg hnot, if_neg (of_decide_eq_false hedit)]
      exact h.unedited hne

/-- **One section** keeps the invariant, when the marker has room. -/
theorem inv_step (edit : GopEdit) (s : Session) (e : Event) (s' : Session) (h : Inv s)
    (hroom : RoomForMarker s e) (hs : step edit s e = some s') : Inv s' := by
  cases e with
  | receive data => exact h.receive hs
  | acquiredPMT | foundBitRate bitRate chunkSize =>
    cases hs
    exact ⟨h.valid, h.capacity_eq, h.unread, h.queue, h.unedited⟩
  | foundFrame frameType frameStartOffset pts pcr => exact h.foundFrame hroom hs
  | consume length => exact h.consume hs

/-- The buffer is a queue: the ring is well formed; what was read and what it
still holds is all that was put in, in order; and unless the first GOP was
edited, what was put in is the marker and then the bytes accepted. (After the
edit, `stream` differs from that in the edited bytes only.) -/
structure IsQueue (s : Session) : Prop where
  valid : s.src.ring.Valid
  none_lost : s.returned ++ s.src.ring.contents = s.stream
  in_order : s.edited = false → s.returned <+: markerPacket ++ s.accepted

theorem Inv.isQueue {s : Session} (h : Inv s) : IsQueue s where
  valid := h.valid
  none_lost := h.queue
  in_order := fun hne => by
    rcases hhave : s.src.haveIFrame with _ | _
    · rw [(h.unread hhave).2.2]
      exact List.nil_prefix
    · have hu := h.unedited hne
      rw [hhave, if_pos rfl] at hu
      rw [← hu, ← h.queue]
      exact List.prefix_append _ _

/-- The first I-frame lies in the data received: what `foundFrame` asserts. -/
def AssertionHolds (s : Session) : Event → Prop
  | .foundFrame frameType frameStartOffset _ _ =>
    frameType = .iFrame → s.src.haveIFrame = false → frameStartOffset ≤ s.src.ring.count
  | _ => True

/-- Only the assertion can stop a section. -/
theorem step_defined_iff (edit : GopEdit) {s : Session} (h : Inv s) (e : Event) :
    (∃ s', step edit s e = some s') ↔ AssertionHolds s e := by
  cases e with
  | receive data =>
    refine iff_of_true ?_ trivial
    rw [step, receiveSection, if_neg (Nat.not_lt.mpr h.valid.count_le)]
    exact ⟨_, rfl⟩
  | acquiredPMT | foundBitRate bitRate chunkSize => exact iff_of_true ⟨_, rfl⟩ trivial
  | consume length =>
    refine iff_of_true ?_ trivial
    rw [step]
    by_cases hreading : s.reading = true
    · rw [if_pos hreading]
      exact ⟨_, rfl⟩
    · rw [if_neg hreading]
      exact ⟨_, rfl⟩
  | foundFrame frameType frameStartOffset pts pcr =>
    have hcount : (s.src.countFrame frameType).ring.count = s.src.ring.count := rfl
    rw [step, InsertSource.foundFrame]
    by_cases hframe : frameType = .iFrame
    · rw [if_pos hframe]
      rcases hhave : s.src.haveIFrame with _ | _
      · rw [if_neg (by simp [countFrame, hhave]), insertMarker, hcount]
        by_cases hle : (s.src.ring.count : ℤ) ≥ frameStartOffset
        · rw [if_pos hle]
          exact iff_of_true ⟨_, rfl⟩ fun _ _ => hle
        · rw [if_neg hle]
          exact iff_of_false (fun ⟨_, hs⟩ => Option.some_ne_none _ hs.symm)
            fun hh => hle (hh hframe hhave)
      · rw [if_pos (by simp [countFrame, hhave])]
        exact iff_of_true ⟨_, rfl⟩ fun _ hno => absurd (hhave.symm.trans hno) (by decide)
    · rw [if_neg hframe]
      exact iff_of_true ⟨_, rfl⟩ fun hi => absurd hi hframe

/-- **The buffer is a queue.** In an interleaving where there is room for the
marker when it is put in, every state reached is that of a queue, and the run
gets stuck only where the assertion of `foundFrame` fails. -/
theorem buffer_is_queue (edit : GopEdit) (data : ℕ → UInt8) {events : List Event}
    (h : EachStep (step edit) RoomForMarker (start data) events) :
    (∀ s, runFrom (step edit) (start data) events = some s → IsQueue s) ∧
      ((∃ s, runFrom (step edit) (start data) events = some s) ↔
        EachStep (step edit) AssertionHolds (start data) events) := by
  refine ⟨fun s hs => (h.invariant (inv_step edit) (inv_start data) hs).isQueue, ?_⟩
  rw [EachStep.run_defined_iff]
  exact (h.and_invariant (inv_step edit) (inv_start data)).congr
    fun s e hse => step_defined_iff edit hse.1 e

/-- An edit that changes nothing. -/
def GopEdit.none : GopEdit := ⟨fun packets => packets, fun _ => rfl⟩

/-- A chunk received before the first I-frame is accepted if it fits. -/
theorem receive_chunk (edit : GopEdit) {s : Session} (chunk : List UInt8) (h : Inv s)
    (hhave : s.src.haveIFrame = false) (hfit : s.src.ring.count + chunk.length ≤ maxBuffering) :
    ∃ s', step edit s (.receive chunk) = some s' ∧ Inv s' ∧ s'.src.haveIFrame = false ∧
      s'.src.ring.count = s.src.ring.count + chunk.length ∧
      s'.src.bitRateInfo = s.src.bitRateInfo := by
  obtain ⟨h0, -, -⟩ := h.unread hhave
  have hcap := h.capacity_eq
  obtain ⟨src, hsrc, hcount, hrates⟩ := receiveSection_unread chunk h.valid h0 (by omega)
  have hstep : step edit s (.receive chunk) = some { s with
      src := src, accepted := s.accepted ++ chunk, stream := s.stream ++ chunk } := by
    rw [step, hsrc]
    rfl
  exact ⟨_, hstep, h.receive hstep,
    (receiveSection_spec h.valid hsrc).2.2.2.2.trans hhave, hcount, hrates⟩

theorem receive_chunks (edit : GopEdit) (data : ℕ → UInt8) (chunk : List UInt8) {n : ℕ}
    (hn : n * chunk.length ≤ maxBuffering) :
    ∃ s, runFrom (step edit) (start data) (List.replicate n (.receive chunk)) = some s ∧
      Inv s ∧ s.src.haveIFrame = false ∧ s.src.ring.count = n * chunk.length ∧
      s.src.bitRateInfo = [] := by
  induction n with
  | zero => exact ⟨start data, rfl, inv_start data, rfl, (Nat.zero_mul _).symm, rfl⟩
  | succ n ih =>
    rw [Nat.succ_mul] at hn
    obtain ⟨s, hs, hinv, hhave, hcount, hrates⟩ := ih (by omega)
    obtain ⟨s', hstep, hinv', hhave', hcount', hrates'⟩ :=
      receive_chunk edit chunk hinv hhave (by omega)
    refine ⟨s', ?_, hinv', hhave', ?_, hrates'.trans hrates⟩
    · rw [List.replicate_succ', runFrom_append, hs, Option.bind_some, runFrom_cons, hstep]
      rfl
    · rw [Nat.succ_mul, hcount', hcount]

/-- The first I-frame is found: the marker counts, and a source that had no bit rate has none. -/
theorem step_firstFrame (edit : GopEdit) {s : Session} (hhave : s.src.haveIFrame = false)
    (hrates : s.src.bitRateInfo = []) {frameStartOffset : ℤ}
    (hassert : frameStartOffset ≤ s.src.ring.count) (pts pcr : ℤ) :
    ∃ s', step edit s (.foundFrame .iFrame frameStartOffset pts pcr) = some s' ∧
      s'.src.ring.count = s.src.ring.count + 188 ∧ s'.src.ring.capacity = s.src.ring.capacity ∧
      s'.src.haveIFrame = true ∧ s'.src.bitRateInfo = [] ∧ s'.reading = s.reading ∧
      s'.returned = s.returned := by
  have hrates' : (s.src.countFrame .iFrame).bitRateInfo = [] := hrates
  obtain ⟨src, hsrc, hnow, hnone⟩ : ∃ src,
      (s.src.countFrame .iFrame).insertMarker frameStartOffset pts pcr = some src ∧
        src.haveIFrame = true ∧ src.bitRateInfo = [] := by
    rw [insertMarker, if_pos (show ((s.src.countFrame .iFrame).ring.count : ℤ) ≥ _ from hassert)]
    refine ⟨_, rfl, rfl, ?_⟩
    simp only [updateBitrate, hrates', consumeChunks]
  obtain ⟨hcount, hcap⟩ := count_insertMarker (s.src.countFrame .iFrame) hsrc
  have hstep : step edit s (.foundFrame .iFrame frameStartOffset pts pcr) = some { s with
      src := src
      stream := streamAfterFrame edit s .iFrame frameStartOffset
      edited := s.edited || decide (EditsGop s.src .iFrame frameStartOffset) } := by
    rw [step, InsertSource.foundFrame, if_pos rfl, if_neg (by simp [countFrame, hhave]), hsrc]
    rfl
  exact ⟨_, hstep, hcount, hcap, hnow, hnone, rfl, rfl⟩

/-- The source has a PMT and a bit rate, the reader finds it ready and reads. -/
def firstRead (length : ℕ) : List Event :=
  [.acquiredPMT, .foundBitRate 8 1048576, .consume length, .consume length]

/-- With its I-frame found and enough data held, a source is ready, and the read takes place. -/
theorem runFrom_firstRead (edit : GopEdit) {s : Session} (hhave : s.src.haveIFrame = true)
    (hrates : s.src.bitRateInfo = []) (hreading : s.reading = false)
    (hcount : 100 * 1024 < s.src.ring.count) (length : ℕ) :
    ∃ src : InsertSource, src.ring = s.src.ring ∧
      runFrom (step edit) s (firstRead length) = some { s with
        src := (readSection src length).1
        reading := true
        returned := s.returned ++ (readSection src length).2 } := by
  have hready : (s.src.acquiredPMT.foundBitRate 8 1048576).dataReady = true := by
    have hring : (s.src.acquiredPMT.foundBitRate 8 1048576).ring.count = s.src.ring.count := rfl
    have hrate : (s.src.acquiredPMT.foundBitRate 8 1048576).bitRate = 8 := by
      rw [InsertSource.foundBitRate, InsertSource.acquiredPMT, hrates]
      rfl
    have hframe : (s.src.acquiredPMT.foundBitRate 8 1048576).haveIFrame = true := hhave
    have hpmt : (s.src.acquiredPMT.foundBitRate 8 1048576).havePMT = true := rfl
    rw [dataReady, hpmt, hframe, hrate, hring, decide_eq_true hcount]
    rfl
  refine ⟨s.src.acquiredPMT.foundBitRate 8 1048576, rfl, ?_⟩
  simp only [firstRead, runFrom_cons, step, Option.bind_some, hreading, Bool.false_eq_true,
    if_false, hready, if_true]
  rfl

/-- Six hundred packets of an ad, its first I-frame in the eighth; then a packet is read. -/
def smallAd : List Event :=
  [.receive (List.replicate 112800 0), .foundFrame .iFrame 1316 900000 899000] ++ firstRead 188

/-- The packet that is read is the marker. -/
theorem buffer_is_queue_smallAd :
    ∃ s, runFrom (step GopEdit.none) (start fun _ => 0) smallAd = some s ∧
      s.returned.length = 188 ∧ IsQueue s := by
  have hlen : (List.replicate 112800 (0 : UInt8)).length = 112800 := List.length_replicate
  obtain ⟨s, hstep, hinv, hhave, hcount, hrates⟩ := receive_chunk GopEdit.none
    (List.replicate 112800 0) (inv_start fun _ => 0) rfl (by rw [hlen]; decide)
  have hcount : s.src.ring.count = 112800 := hcount.trans (by rw [hlen]; rfl)
  have hrates : s.src.bitRateInfo = [] := hrates
  have hcap : s.src.ring.capacity = 1048576 := hinv.capacity_eq
  obtain ⟨-, hreading, hreturned⟩ := hinv.unread hhave
  have hnext : ∀ s' ∈ step GopEdit.none (start fun _ => 0) (.receive (List.replicate 112800 0)),
      s' = s := fun s' hs' => Option.some.inj (hs'.symm.trans hstep)
  have hroom : EachStep (step GopEdit.none) RoomForMarker (start fun _ => 0) smallAd :=
    ⟨trivial, fun s' hs' => by
      obtain rfl := hnext s' hs'
      exact ⟨fun _ _ => by omega, fun _ _ => ⟨trivial, fun _ _ => ⟨trivial, fun _ _ => ⟨trivial,
        fun _ _ => ⟨trivial, fun _ _ => trivial⟩⟩⟩⟩⟩⟩
  obtain ⟨s', hframe, hcount', -, hhave', hrates', hreading', hreturned'⟩ :=
    step_firstFrame GopEdit.none hhave hrates (show (1316 : ℤ) ≤ s.src.ring.count by omega)
      900000 899000
  have hinv' : Inv s' := hinv.foundFrame (fun _ _ => by omega) hframe
  obtain ⟨src, hring, hread⟩ := runFrom_firstRead GopEdit.none hhave' hrates'
    (hreading'.trans hreading) (by omega) 188
  have hrun : runFrom (step GopEdit.none) (start fun _ => 0) smallAd = some { s' with
      src := (readSection src 188).1
      reading := true
      returned := s'.returned ++ (readSection src 188).2 } := by
    rw [smallAd, runFrom_append, runFrom_cons, hstep, Option.bind_some, runFrom_cons, hframe,
      Option.bind_some]
    exact hread
  have hbytes : (readSection src 188).2.length = 188 := by
    have hvalid : src.ring.Valid := hring ▸ hinv'.valid
    have hle : src.ring.count ≥ 188 := by
      rw [hring]
      omega
    rw [readSection, if_pos hle]
    exact (readLoop_spec hvalid hle).2.2.1
  refine ⟨_, hrun, ?_, (buffer_is_queue GopEdit.none (fun _ => 0) hroom).1 _ hrun⟩
  rw [hreturned', hreturned, List.nil_append, hbytes]

/-- An ad that fills the buffer, in chunks of 16 KB, before its first I-frame is
found in the last chunk. -/
def fullBuffer : List Event :=
  List.replicate 64 (.receive (List.replicate 16384 0)) ++
    [.foundFrame .iFrame 1040000 900000 899000]

/-- That ad up to its marker: the count exceeds the capacity by the marker, which has overwritten
data that was not read. -/
theorem exists_fullBuffer :
    ∃ s, runFrom (step GopEdit.none) (start fun _ => 0) fullBuffer = some s ∧
      s.src.ring.count = maxBuffering + 188 ∧ s.src.ring.capacity = maxBuffering ∧
      s.src.haveIFrame = true ∧ s.src.bitRateInfo = [] ∧ s.reading = false ∧ s.returned = [] := by
  have hlen : (List.replicate 16384 (0 : UInt8)).length = 16384 := List.length_replicate
  obtain ⟨s, hs, hinv, hhave, hcount, hrates⟩ := receive_chunks GopEdit.none (fun _ => 0)
    (List.replicate 16384 0) (n := 64) (by rw [hlen]; decide)
  obtain ⟨-, hreading, hreturned⟩ := hinv.unread hhave
  rw [hlen] at hcount
  obtain ⟨s', hstep, hcount', hcap, hhave', hrates', hreading', hreturned'⟩ :=
    step_firstFrame GopEdit.none hhave hrates (show (1040000 : ℤ) ≤ s.src.ring.count by omega)
      900000 899000
  have hrun : runFrom (step GopEdit.none) (start fun _ => 0) fullBuffer = some s' := by
    rw [fullBuffer, runFrom_append, hs, Option.bind_some, runFrom_cons, hstep]
    rfl
  exact ⟨s', hrun, hcount'.trans (congrArg (· + 188) hcount), hcap.trans hinv.capacity_eq, hhave',
    hrates', hreading'.trans hreading, hreturned'.trans hreturned⟩

/-- The marker overwrites data, and the count exceeds the capacity. -/
theorem fullBuffer_not_queue :
    ¬ ∀ edit data events s, runFrom (step edit) (start data) events = some s → IsQueue s := by
  intro h
  obtain ⟨s, hs, hcount, hcap, -⟩ := exists_fullBuffer
  have hle := (h _ _ _ _ hs).valid.count_le
  omega

end Session

end InsertSource

end MediaFramework
