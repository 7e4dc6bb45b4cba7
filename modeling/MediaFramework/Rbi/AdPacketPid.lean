import MediaFramework.Rbi.InsertSource
import MediaFramework.Rbi.InsertionData

/-!
# Looking at the ad's next packet (`getNextAdPacketPid`)

On the way into an ad, the stream processor asks whether the packet it would read
next from the insert source is an audio packet, and leaves it in the buffer if it
is. `getNextAdPacketPid` copies 188 bytes from the ring's tail on without taking
them out. Its loop is the one of `read`, but `read` has a look at the count before
it starts, and this one has not: the cells behind the head are copied just as the
ones in front of it, whatever was left there.

So the answer is the PID of the packet that `read` would return as long as a
packet is there, and the one of 188 stale bytes otherwise.
-/

namespace MediaFramework

namespace InsertSource

/-- The cells from `tail_copy` on that lie in one piece, held or not. -/
def runAt (r : Ring UInt8) (tail_copy : ℕ) : ℕ :=
  if tail_copy < r.head then r.head - tail_copy else r.capacity - tail_copy

/-- The copying loop of `getNextAdPacketPid`, from `tail_copy` on. -/
def nextAdBytes (r : Ring UInt8) (tail_copy txPktBytesCnt : ℕ) : List UInt8 :=
  let copylen := min (runAt r tail_copy) txPktBytesCnt
  if 0 < copylen then
    load r.data tail_copy copylen ++
      nextAdBytes r (Ring.advance r.capacity tail_copy copylen) (txPktBytesCnt - copylen)
  else []
termination_by txPktBytesCnt
decreasing_by
  omega

/-- `getNextAdPacketPid`. -/
def getNextAdPacketPid (src : InsertSource) : ℕ :=
  let packet := nextAdBytes src.ring src.ring.tail 188
  if packet.length = 188 then (packetOf packet).pid else nullPid

/-- `RBIStreamProcessor::isNextPacketAudio`, with its `m_map->m_pidMap` and its
`m_audioPid`. -/
def isNextPacketAudio (pidMap : ℕ → ℤ) (audioPid : ℤ) (src : InsertSource) : Bool :=
  decide (pidMap src.getNextAdPacketPid = audioPid)

/-- The PID the next packet has: the one of what `read` returns at once when it is
asked for 188 bytes, and the one of null packets when it would have to wait. -/
def nextReadPid (src : InsertSource) : ℕ :=
  if src.ring.count < 188 then nullPid else (packetOf (readSection src 188).2).pid

/-! ## Both loops copy the same cells -/

section Loops

variable {r : Ring UInt8}

/-- A segment that does not wrap, and the window behind it. -/
theorem window_segment {tail copylen n : ℕ} (hfit : tail + copylen ≤ r.capacity)
    (hn : copylen ≤ n) :
    load r.data tail copylen ++
        window r.data r.capacity (Ring.advance r.capacity tail copylen) (n - copylen) =
      window r.data r.capacity tail n := by
  rw [Ring.advance_eq_mod hfit, window_mod, ← window_eq_load hfit, ← window_add,
    Nat.add_sub_cancel' hn]

theorem advance_lt {capacity pos n : ℕ} (h : 0 < capacity) :
    Ring.advance capacity pos n < capacity := by
  unfold Ring.advance
  split <;> omega

/-- The loop of `getNextAdPacketPid` goes around the ring, whatever the count. -/
theorem nextAdBytes_eq (hhead : r.head < r.capacity) {tail_copy n : ℕ}
    (htail : tail_copy < r.capacity) :
    nextAdBytes r tail_copy n = window r.data r.capacity tail_copy n := by
  induction tail_copy, n using nextAdBytes.induct r with
  | case1 tail_copy n copylen hpos ih =>
    have hfit : tail_copy + copylen ≤ r.capacity := by
      have hrun : runAt r tail_copy ≤ r.capacity - tail_copy := by
        unfold runAt
        split <;> omega
      omega
    rw [nextAdBytes, if_pos hpos, ih (advance_lt (by omega))]
    exact window_segment hfit (by omega)
  | case2 tail_copy n copylen hpos =>
    -- the run from the tail is never empty, so nothing is left to copy
    have hzero : n = 0 := by
      have hrun : 0 < runAt r tail_copy := by
        unfold runAt
        split <;> omega
      omega
    subst hzero
    rw [nextAdBytes, if_neg hpos]
    rfl

/-- So does the loop of `read`. -/
theorem readLoop_eq {n : ℕ} (hhead : r.head < r.capacity) (htail : r.tail < r.capacity) :
    (readLoop r n).2 = window r.data r.capacity r.tail n := by
  induction r, n using readLoop.induct with
  | case1 r n copylen hpos r' rest heq ih =>
    have hfit : r.tail + copylen ≤ r.capacity := by
      have hrun : filledRun r ≤ r.capacity - r.tail := by
        unfold filledRun
        split <;> omega
      omega
    have hrest : (readLoop (r.drop copylen) (n - copylen)).2 =
        window r.data r.capacity (Ring.advance r.capacity r.tail copylen) (n - copylen) :=
      ih hhead (advance_lt (by omega))
    rw [readLoop, if_pos hpos]
    show load r.data r.tail copylen ++ (readLoop (r.drop copylen) (n - copylen)).2 = _
    rw [hrest]
    exact window_segment hfit (by omega)
  | case2 r n copylen hpos =>
    have hzero : n = 0 := by
      have hrun : 0 < filledRun r := by
        unfold filledRun
        split <;> omega
      omega
    subst hzero
    rw [readLoop, if_neg hpos]
    rfl

end Loops

/-! ## The places of the ring in any run -/

/-- The head and the tail are cells of the buffer. This outlives the queue: a
marker for which there is no room keeps it. -/
structure Placed (src : InsertSource) : Prop where
  capacity_eq : src.ring.capacity = maxBuffering
  head_lt : src.ring.head < src.ring.capacity
  tail_lt : src.ring.tail < src.ring.capacity

theorem receiveLoop_places {r : Ring UInt8} (data : List UInt8) (hhead : r.head < r.capacity) :
    (receiveLoop r data).1.capacity = r.capacity ∧ (receiveLoop r data).1.tail = r.tail ∧
      (receiveLoop r data).1.head < r.capacity := by
  induction r, data using receiveLoop.induct with
  | case1 r data copylen hpos ih =>
    rw [receiveLoop, if_pos hpos]
    exact ih (advance_lt (Nat.zero_lt_of_lt hhead))
  | case2 r data copylen hpos =>
    rw [receiveLoop, if_neg hpos]
    exact ⟨rfl, rfl, hhead⟩

theorem readLoop_places {r : Ring UInt8} {n : ℕ} (htail : r.tail < r.capacity) :
    (readLoop r n).1.capacity = r.capacity ∧ (readLoop r n).1.head = r.head ∧
      (readLoop r n).1.tail < r.capacity := by
  induction r, n using readLoop.induct with
  | case1 r n copylen hpos r' rest heq ih =>
    rw [readLoop, if_pos hpos]
    exact ih (advance_lt (Nat.zero_lt_of_lt htail))
  | case2 r n copylen hpos =>
    rw [readLoop, if_neg hpos]
    exact ⟨rfl, rfl, htail⟩

theorem Placed.receive {src src' : InsertSource} {data taken : List UInt8} (h : Placed src)
    (hs : receiveSection src data = some (src', taken)) : Placed src' := by
  rw [receiveSection] at hs
  by_cases hover : src.ring.count > src.ring.capacity
  · rw [if_pos hover] at hs
    cases hs
  · rw [if_neg hover] at hs
    obtain ⟨rfl, -⟩ := Prod.mk.inj (Option.some.inj hs)
    obtain ⟨hcap, htail, hhead⟩ :=
      receiveLoop_places (data.take (src.ring.capacity - src.ring.count)) h.head_lt
    exact ⟨hcap.trans h.capacity_eq, hhead.trans_eq hcap.symm,
      htail.trans_lt (h.tail_lt.trans_eq hcap.symm)⟩

theorem Placed.read {src : InsertSource} (length : ℕ) (h : Placed src) :
    Placed (readSection src length).1 := by
  rw [readSection]
  by_cases hcount : src.ring.count ≥ length
  · rw [if_pos hcount]
    obtain ⟨hcap, hhead, htail⟩ := readLoop_places (n := length) h.tail_lt
    exact ⟨hcap.trans h.capacity_eq, hhead.trans_lt (h.head_lt.trans_eq hcap.symm),
      htail.trans_eq hcap.symm⟩
  · rw [if_neg hcount]
    exact ⟨h.capacity_eq, h.head_lt, h.tail_lt⟩

/-- The marker goes to 188 cells of the buffer, wherever the tail was. -/
theorem Placed.insertMarker {src src' : InsertSource} {frameStartOffset pts pcr : ℤ}
    (h : Placed src) (hs : src.insertMarker frameStartOffset pts pcr = some src') :
    Placed src' := by
  by_cases hassert : (src.ring.count : ℤ) ≥ frameStartOffset
  · rw [InsertSource.insertMarker, if_pos hassert] at hs
    cases hs
    have htail : markerTail src.ring < src.ring.capacity := by
      have hcap : src.ring.capacity = 1048576 := h.capacity_eq
      have := h.tail_lt
      unfold markerTail
      split <;> omega
    exact ⟨h.capacity_eq, h.head_lt, htail⟩
  · rw [InsertSource.insertMarker, if_neg hassert] at hs
    cases hs

theorem Placed.firstGop {edit : GopEdit} {src : InsertSource} (frameStartOffset : ℤ)
    (h : Placed src) : Placed (src.firstGop edit frameStartOffset) := by
  by_cases hfirst : src.haveIFrame = true ∧ src.lenIFrame = 0
  · rw [InsertSource.firstGop, if_pos hfirst]
    by_cases hwhole : (src.ring.count : ℤ) ≥ frameStartOffset - src.offsetIFrame ∧
        src.ring.tail < src.ring.head
    · rw [if_pos hwhole]
      exact ⟨h.capacity_eq, h.head_lt, h.tail_lt⟩
    · rw [if_neg hwhole]
      exact ⟨h.capacity_eq, h.head_lt, h.tail_lt⟩
  · rw [InsertSource.firstGop, if_neg hfirst]
    exact h

theorem Placed.foundFrame {edit : GopEdit} {src src' : InsertSource} {frameType : FrameType}
    {frameStartOffset pts pcr : ℤ} (h : Placed src)
    (hs : src.foundFrame edit frameType frameStartOffset pts pcr = some src') : Placed src' := by
  have hcounted : Placed (src.countFrame frameType) := ⟨h.capacity_eq, h.head_lt, h.tail_lt⟩
  rw [InsertSource.foundFrame] at hs
  by_cases hframe : frameType = .iFrame
  · rw [if_pos hframe] at hs
    by_cases hhave : (src.countFrame frameType).haveIFrame = true
    · rw [if_pos hhave] at hs
      cases hs
      exact hcounted
    · rw [if_neg hhave] at hs
      exact hcounted.insertMarker hs
  · rw [if_neg hframe] at hs
    cases hs
    exact hcounted.firstGop frameStartOffset

/-- One section keeps the ring in place, with room for the marker or without. -/
theorem Placed.step {edit : GopEdit} {s s' : Session} {e : Event} (h : Placed s.src)
    (hs : s.step edit e = some s') : Placed s'.src := by
  cases e with
  | receive data =>
    obtain ⟨⟨src, taken⟩, hsec, rfl⟩ := Option.map_eq_some_iff.mp hs
    exact h.receive hsec
  | acquiredPMT =>
    cases hs
    exact ⟨h.capacity_eq, h.head_lt, h.tail_lt⟩
  | foundBitRate bitRate chunkSize =>
    cases hs
    exact ⟨h.capacity_eq, h.head_lt, h.tail_lt⟩
  | foundFrame frameType frameStartOffset pts pcr =>
    obtain ⟨src, hsrc, rfl⟩ := Option.map_eq_some_iff.mp hs
    exact h.foundFrame hsrc
  | consume length =>
    rw [Session.step] at hs
    by_cases hreading : s.reading = true
    · rw [if_pos hreading] at hs
      cases hs
      exact h.read length
    · rw [if_neg hreading] at hs
      cases hs
      exact h

theorem placed_start (data : ℕ → UInt8) : Placed (Session.start data).src :=
  have hpos : 0 < maxBuffering := by decide
  ⟨rfl, hpos, hpos⟩

theorem placed_of_run {edit : GopEdit} {data : ℕ → UInt8} {events : List Event} {s : Session}
    (hs : runFrom (Session.step edit) (Session.start data) events = some s) : Placed s.src :=
  runFrom_history (R := fun s _ => Placed s.src) (h := [])
    (fun _ _ _ _ hplaced hstep => hplaced.step hstep) (placed_start data) hs

/-! ## The two PIDs -/

/-- The PID in the two bytes after the one at the tail, held or not. -/
def tailPid (src : InsertSource) : ℕ :=
  ((src.ring.data ((src.ring.tail + 1) % src.ring.capacity)).toNat <<< 8 |||
    (src.ring.data ((src.ring.tail + 2) % src.ring.capacity)).toNat) &&& 0x1FFF

theorem pid_window (src : InsertSource) :
    (packetOf (window src.ring.data src.ring.capacity src.ring.tail 188)).pid = src.tailPid := by
  have hcell : ∀ i < 188,
      packetOf (window src.ring.data src.ring.capacity src.ring.tail 188) i =
        src.ring.data ((src.ring.tail + i) % src.ring.capacity) := fun i hi => by
    rw [packetOf, List.getD_eq_getElem _ _ (by rwa [length_window])]
    simp [window]
  rw [Packet.pid, hcell 1 (by omega), hcell 2 (by omega), tailPid]

theorem getNextAdPacketPid_eq {src : InsertSource} (h : Placed src) :
    src.getNextAdPacketPid = src.tailPid := by
  rw [getNextAdPacketPid, nextAdBytes_eq h.head_lt h.tail_lt, if_pos length_window, pid_window]

theorem nextReadPid_eq {src : InsertSource} (h : Placed src) :
    src.nextReadPid = if src.ring.count < 188 then nullPid else src.tailPid := by
  rw [nextReadPid]
  by_cases hcount : src.ring.count < 188
  · rw [if_pos hcount, if_pos hcount]
  · rw [if_neg hcount, if_neg hcount, readSection, if_pos (Nat.not_lt.mp hcount)]
    rw [readLoop_eq h.head_lt h.tail_lt, pid_window]

/-- The cells of the PID are what a null packet has there. -/
def NullAtTail (src : InsertSource) : Prop :=
  src.ring.data ((src.ring.tail + 1) % src.ring.capacity) &&& 0x1F = 0x1F ∧
    src.ring.data ((src.ring.tail + 2) % src.ring.capacity) = 0xFF

theorem tailPid_eq_nullPid_iff (src : InsertSource) : src.tailPid = nullPid ↔ src.NullAtTail := by
  unfold tailPid NullAtTail nullPid
  generalize src.ring.data ((src.ring.tail + 1) % src.ring.capacity) = a
  generalize src.ring.data ((src.ring.tail + 2) % src.ring.capacity) = b
  have hb : b.toNat < 2 ^ 8 := b.toNat_lt
  have hpid : (a.toNat <<< 8 ||| b.toNat) &&& 0x1FFF = a.toNat % 32 * 256 + b.toNat := by
    have hlow : (a.toNat * 2 ^ 8 + b.toNat) &&& 0x1FFF = (a.toNat * 2 ^ 8 + b.toNat) % 2 ^ 13 :=
      and_low _ 13
    rw [or_eq_add 8 (by rw [Nat.shiftLeft_eq, Nat.mul_mod_left]) hb, Nat.shiftLeft_eq, hlow]
    omega
  have ha : a &&& 0x1F = 0x1F ↔ a.toNat % 32 = 31 := by
    have hlow : a.toNat &&& 31 = a.toNat % 32 := and_low _ 5
    rw [← UInt8.toNat_inj, UInt8.toNat_and, show (0x1F : UInt8).toNat = 31 from rfl, hlow]
  have hb' : b = 0xFF ↔ b.toNat = 255 := UInt8.toNat_inj.symm
  rw [hpid, ha, hb']
  omega

/-! ## What is decided on -/

/-- The stream processor asks about the packet it would read. -/
structure LooksAhead (src : InsertSource) : Prop where
  pid : src.getNextAdPacketPid = src.nextReadPid
  audio : ∀ pidMap audioPid,
    src.isNextPacketAudio pidMap audioPid = decide (pidMap src.nextReadPid = audioPid)

theorem looksAhead_iff {src : InsertSource} (h : Placed src) :
    src.LooksAhead ↔ 188 ≤ src.ring.count ∨ src.NullAtTail := by
  have hpid : src.getNextAdPacketPid = src.nextReadPid ↔
      188 ≤ src.ring.count ∨ src.NullAtTail := by
    rw [getNextAdPacketPid_eq h, nextReadPid_eq h, ← tailPid_eq_nullPid_iff]
    by_cases hcount : src.ring.count < 188
    · rw [if_pos hcount]
      exact (or_iff_right (Nat.not_le.mpr hcount)).symm
    · rw [if_neg hcount]
      exact iff_of_true rfl (Or.inl (Nat.not_lt.mp hcount))
  rw [← hpid]
  refine ⟨fun hlook => hlook.pid, fun heq => ⟨heq, fun pidMap audioPid => ?_⟩⟩
  rw [isNextPacketAudio, heq]

/-- **The look ahead.** In every state that an interleaving of the two threads
reaches, also one in which the marker has overwritten data, the PID found is the
one of the packet that would be read exactly when a packet is held, or the stale
bytes look like a null packet. -/
theorem looks_ahead_exactly (edit : GopEdit) (data : ℕ → UInt8) {events : List Event}
    {s : Session} (hs : runFrom (Session.step edit) (Session.start data) events = some s) :
    s.src.LooksAhead ↔ 188 ≤ s.src.ring.count ∨ s.src.NullAtTail :=
  looksAhead_iff (placed_of_run hs)

/-- A packet received is the packet found. -/
theorem looks_ahead_onePacket :
    ∃ s, runFrom (Session.step Session.GopEdit.none) (Session.start fun _ => 0)
        [.receive (List.replicate 188 0x47)] = some s ∧ s.src.LooksAhead := by
  have hlen : (List.replicate 188 (0x47 : UInt8)).length = 188 := List.length_replicate
  obtain ⟨s, hs, -, -, hcount, -⟩ := Session.receive_chunks Session.GopEdit.none (fun _ => 0)
    (List.replicate 188 0x47) (n := 1) (by rw [hlen]; decide)
  rw [hlen] at hcount
  exact ⟨s, hs, (looks_ahead_exactly Session.GopEdit.none (fun _ => 0) hs).mpr (Or.inl (by omega))⟩

/-- Nothing has been received yet, and what `malloc` has left there is taken for
a packet of PID 0. -/
theorem stale_packet_found : ¬ (Session.start fun _ => 0).src.LooksAhead := by
  intro h
  have hpid := h.pid
  rw [getNextAdPacketPid_eq (placed_start _), nextReadPid_eq (placed_start _)] at hpid
  exact absurd hpid (by decide)

end InsertSource

end MediaFramework
