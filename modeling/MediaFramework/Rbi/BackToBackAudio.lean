import MediaFramework.Rbi.InsertionData

/-!
# The audio between two ads

The buffer that `getInsertionData` keeps the audio of back-to-back ads in is meant
to be a queue: what the previous ad has left comes first, and what the next ad has
to hold back is put behind it. `B2bAudio.unread` is that queue. Taking a packet out
takes it off the queue's front, in both places where the code does so; the pointer
goes back to the buffer's beginning in between.

The code puts held back packets into the buffer from its beginning, whether or not
the saved packets there have been read. So a packet is put behind the others only
while fewer packets have been held back than saved ones taken out, or else, once
these are all out, while there is room in the buffer.
-/

namespace MediaFramework

namespace B2bAudio

variable {b : B2bAudio} {ptr : B2bPointer}

/-- Where the pointers of a buffer in use stand. -/
structure Holds (b : B2bAudio) (block index : ℕ) : Prop where
  ptr : b.prevAdAudioData = some ⟨block, index⟩
  copy : b.prevAdAudioDataCopy = some block
  allocated : block < b.blocks
  live : b.frees block = 0
  /-- held back packets lie in front of the saved ones -/
  saved : 0 < b.savedAudioPacketsCnt →
    b.backedAdAudioPacketsCnt ≤ index ∧ index + b.savedAudioPacketsCnt ≤ 300
  diverted : b.savedAudioPacketsCnt = 0 → index < b.backedAdAudioPacketsCnt

/-- A buffer that holds something is in use, and no buffer is freed twice. -/
structure Valid (b : B2bAudio) : Prop where
  holds : b.holding = true → ∃ block index, b.Holds block index
  frees_le : ∀ block, b.frees block ≤ 1
  fresh : ∀ block, b.blocks ≤ block → b.frees block = 0

theorem holding_iff :
    b.holding = true ↔ 0 < b.savedAudioPacketsCnt ∨ 0 < b.backedAdAudioPacketsCnt := by
  simp [holding]

theorem not_holding_iff :
    b.holding = false ↔ b.savedAudioPacketsCnt = 0 ∧ b.backedAdAudioPacketsCnt = 0 := by
  simp [holding]

/-- An empty buffer has nothing to read. -/
theorem unread_of_not_holding (h : b.holding = false) : b.unread = [] := by
  obtain ⟨hs, hb⟩ := not_holding_iff.mp h
  rcases hptr : b.prevAdAudioData with _ | ptr <;> simp [unread, hptr, hs, hb]

theorem unread_saved (hptr : b.prevAdAudioData = some ptr) (hs : 0 < b.savedAudioPacketsCnt) :
    b.unread = load (b.heap ptr.block) ptr.index b.savedAudioPacketsCnt ++
      load (b.heap ptr.block) 0 b.backedAdAudioPacketsCnt := by
  simp [unread, hptr, hs]

theorem unread_diverted (hptr : b.prevAdAudioData = some ptr) (hs : b.savedAudioPacketsCnt = 0) :
    b.unread = load (b.heap ptr.block) ptr.index (b.backedAdAudioPacketsCnt - ptr.index) := by
  simp [unread, hptr, hs]

/-! ## Releasing -/

@[simp] theorem release_unread : b.release.unread = b.unread := by
  unfold release
  split
  · split <;> rfl
  · rfl

/-- The buffer is freed as it becomes empty. -/
theorem release_valid {block : ℕ} (h : b.holding = false)
    (hcopy : b.prevAdAudioDataCopy = some block) (hlive : b.frees block = 0)
    (hallocated : block < b.blocks) (hle : ∀ block, b.frees block ≤ 1)
    (hfresh : ∀ block, b.blocks ≤ block → b.frees block = 0) : b.release.Valid := by
  have hrelease : b.release =
      { b with frees := Function.update b.frees block (b.frees block + 1) } := by
    rw [release, if_pos (not_holding_iff.mp h)]
    simp [hcopy]
  rw [hrelease]
  refine ⟨fun hholding => ?_, fun other => ?_, fun other hother => ?_⟩
  · cases h.symm.trans hholding
  · rcases eq_or_ne other block with rfl | hne
    · simp [hlive]
    · simpa [Function.update_of_ne hne] using hle other
  · have hne : other ≠ block := by
      rintro rfl
      exact absurd hallocated (Nat.not_lt.mpr hother)
    simpa [Function.update_of_ne hne] using hfresh other hother

/-! ## Taking a packet out -/

/-- Moving the pointers and the counters leaves the buffers as they are. -/
theorem Valid.moved {b' : B2bAudio} (h : b.Valid) (hfrees : b'.frees = b.frees)
    (hblocks : b'.blocks = b.blocks)
    (hholds : b'.holding = true → ∃ block index, b'.Holds block index) : b'.Valid where
  holds := hholds
  frees_le := fun block => by rw [hfrees]; exact h.frees_le block
  fresh := fun block hblock => by
    rw [hfrees]
    exact h.fresh block (hblocks ▸ hblock)

/-- The last saved packet is out, and diverted ones are waiting. -/
theorem takeLastSaved {b' : B2bAudio} {block index : ℕ} (hvalid : b.Valid)
    (h : b.Holds block index) (hs : b.savedAudioPacketsCnt = 1)
    (hb : 0 < b.backedAdAudioPacketsCnt)
    (hb' : b' = { b with savedAudioPacketsCnt := 0, prevAdAudioData := some ⟨block, 0⟩ }) :
    b'.Valid ∧ b.unread = b.heap block index :: b'.unread := by
  subst hb'
  refine ⟨hvalid.moved rfl rfl fun _ => ⟨block, 0, ?_⟩, ?_⟩
  · exact ⟨rfl, h.copy, h.allocated, h.live, fun h => absurd h (Nat.lt_irrefl 0), fun _ => hb⟩
  · rw [unread_saved h.ptr (by omega), unread_diverted rfl rfl, hs, load_succ]
    simp

/-- A saved packet is out, and others are waiting. -/
theorem takeSaved {b' : B2bAudio} {block index saved : ℕ} (hvalid : b.Valid)
    (h : b.Holds block index) (hs : b.savedAudioPacketsCnt = saved + 1) (hpos : 0 < saved)
    (hb' : b' =
      { b with savedAudioPacketsCnt := saved, prevAdAudioData := some ⟨block, index + 1⟩ }) :
    b'.Valid ∧ b.unread = b.heap block index :: b'.unread := by
  subst hb'
  have hspace := h.saved (by omega)
  refine ⟨hvalid.moved rfl rfl fun _ => ⟨block, index + 1, ?_⟩, ?_⟩
  · refine ⟨rfl, h.copy, h.allocated, h.live, fun _ => ⟨?_, ?_⟩, fun hzero => ?_⟩
    · exact Nat.le_succ_of_le hspace.1
    · show index + 1 + saved ≤ 300
      omega
    · exact absurd hpos (by rw [show saved = 0 from hzero]; exact Nat.lt_irrefl 0)
  · rw [unread_saved h.ptr (by omega), unread_saved rfl hpos, hs, load_succ]
    rfl

/-- The last packet of all is out. -/
theorem takeLast {b' : B2bAudio} {block index : ℕ} (hvalid : b.Valid) (h : b.Holds block index)
    (hlast : b.unread = [b.heap block index]) (hempty : b'.holding = false)
    (hfrees : b'.frees = b.frees) (hblocks : b'.blocks = b.blocks)
    (hcopy : b'.prevAdAudioDataCopy = b.prevAdAudioDataCopy) :
    b'.release.Valid ∧ b.unread = b.heap block index :: b'.release.unread := by
  refine ⟨release_valid hempty (hcopy.trans h.copy) (by rw [hfrees]; exact h.live)
    (by rw [hblocks]; exact h.allocated) (by rw [hfrees]; exact hvalid.frees_le)
    (by rw [hfrees, hblocks]; exact hvalid.fresh), ?_⟩
  rw [release_unread, unread_of_not_holding hempty, hlast]

/-- **Draining takes the queue's first packet.** -/
theorem drain_spec (hvalid : b.Valid) (hholding : b.holding = true)
    (hptr : b.prevAdAudioData = some ptr) :
    b.drain.Valid ∧ b.unread = b.packetAt ptr :: b.drain.unread := by
  obtain ⟨block, index, h⟩ := hvalid.holds hholding
  obtain rfl : ptr = ⟨block, index⟩ := Option.some.inj (hptr.symm.trans h.ptr)
  rcases hs : b.savedAudioPacketsCnt with _ | saved
  · -- no saved packet: the pointer goes through the diverted ones
    have hlt := h.diverted hs
    have hunread : b.unread = b.heap block index ::
        load (b.heap block) (index + 1) (b.backedAdAudioPacketsCnt - (index + 1)) := by
      rw [unread_diverted h.ptr hs]
      have hcount : b.backedAdAudioPacketsCnt - index =
          b.backedAdAudioPacketsCnt - (index + 1) + 1 := by omega
      rw [hcount, load_succ]
    rcases eq_or_ne (index + 1) b.backedAdAudioPacketsCnt with heq | hne
    · have hdrain : b.drain =
          { b.advance with backedAdAudioPacketsCnt := 0 }.release := by
        simp [drain, hs, advance, readIndex, h.ptr, heq]
      rw [hdrain]
      refine takeLast hvalid h ?_ ?_ rfl rfl rfl
      · rw [hunread, heq, Nat.sub_self, load_zero]
      · simp [holding, advance, hs]
    · have hdrain : b.drain = { b with prevAdAudioData := some ⟨block, index + 1⟩ } := by
        have hlt' : 0 < b.backedAdAudioPacketsCnt := by omega
        simp [drain, hs, advance, readIndex, h.ptr, hne, release, hlt'.ne']
      rw [hdrain]
      refine ⟨hvalid.moved rfl rfl fun _ => ⟨block, index + 1, ?_⟩, ?_⟩
      · refine ⟨rfl, h.copy, h.allocated, h.live, fun hpos => ?_, fun _ => ?_⟩
        · exact absurd (hs ▸ hpos) (Nat.lt_irrefl 0)
        · show index + 1 < b.backedAdAudioPacketsCnt
          omega
      · rw [hunread]
        exact congrArg _ (unread_diverted
          (b := { b with prevAdAudioData := some ⟨block, index + 1⟩ }) rfl hs).symm
  · rcases Nat.eq_zero_or_pos saved with rfl | hpos
    · rcases Nat.eq_zero_or_pos b.backedAdAudioPacketsCnt with hb | hb
      · have hdrain : b.drain = { b with savedAudioPacketsCnt := 0 }.rewind.release := by
          simp [drain, hs, rewind]
        rw [hdrain]
        refine takeLast hvalid h ?_ ?_ rfl rfl rfl
        · rw [unread_saved h.ptr (by omega), hs, hb, load_succ]
          simp
        · simp [holding, rewind, hb]
      · refine takeLastSaved hvalid h hs hb ?_
        simp [drain, hs, rewind, release, h.copy, hb.ne']
    · refine takeSaved hvalid h hs hpos ?_
      simp [drain, hs, advance, release, h.ptr, hpos.ne']

/-- **Filling a null packet takes the queue's first packet.** -/
theorem fillNull_spec (hvalid : b.Valid) (hsaved : 0 < b.savedAudioPacketsCnt)
    (hptr : b.prevAdAudioData = some ptr) :
    b.fillNull.Valid ∧ b.unread = b.packetAt ptr :: b.fillNull.unread := by
  obtain ⟨block, index, h⟩ := hvalid.holds (holding_iff.mpr (Or.inl hsaved))
  obtain rfl : ptr = ⟨block, index⟩ := Option.some.inj (hptr.symm.trans h.ptr)
  obtain ⟨saved, hs⟩ := Nat.exists_eq_add_of_lt hsaved
  rw [Nat.zero_add] at hs
  rcases Nat.eq_zero_or_pos saved with rfl | hpos
  · rcases Nat.eq_zero_or_pos b.backedAdAudioPacketsCnt with hb | hb
    · have hfill : b.fillNull = { b with savedAudioPacketsCnt := 0 }.release := by
        simp [fillNull, hs, hb]
      rw [hfill]
      refine takeLast hvalid h ?_ ?_ rfl rfl rfl
      · rw [unread_saved h.ptr (by omega), hs, hb, load_succ]
        simp
      · simp [holding, hb]
    · refine takeLastSaved hvalid h hs hb ?_
      simp [fillNull, hs, rewind, release, h.copy, hb, hb.ne']
  · refine takeSaved hvalid h hs hpos ?_
    simp [fillNull, hs, advance, release, h.ptr, hpos, hpos.ne']

/-! ## Holding a packet back -/

/-- There is a place for one more packet of the new ad that nothing else is in. -/
def HasPlace (b : B2bAudio) : Prop :=
  b.backedAdAudioPacketsCnt < 300 ∧
    (0 < b.savedAudioPacketsCnt → b.backedAdAudioPacketsCnt < b.readIndex)

instance (b : B2bAudio) : Decidable b.HasPlace := inferInstanceAs (Decidable (_ ∧ _))

/-- **Where there is a place, a packet that is held back goes to the queue's end.** -/
theorem divert_spec {p : Packet} (hvalid : b.Valid) (hholding : b.holding = true)
    (hplace : b.HasPlace) : (b.divert p).Valid ∧ (b.divert p).unread = b.unread ++ [p] := by
  obtain ⟨block, index, h⟩ := hvalid.holds hholding
  have hread : b.readIndex = index := by simp [readIndex, h.ptr]
  have hdivert : b.divert p =
      { b with
        backedAdAudioPacketsCnt := b.backedAdAudioPacketsCnt + 1
        heap := Function.update b.heap block
          (Function.update (b.heap block) b.backedAdAudioPacketsCnt p) } := by
    simp [divert, h.copy]
  refine ⟨?_, ?_⟩
  · rw [hdivert]
    refine hvalid.moved rfl rfl fun _ => ⟨block, index, ?_⟩
    refine ⟨h.ptr, h.copy, h.allocated, h.live, fun hs => ⟨?_, (h.saved hs).2⟩, fun hs => ?_⟩
    · exact hread ▸ hplace.2 hs
    · exact Nat.lt_succ_of_lt (h.diverted hs)
  · have hptr : (b.divert p).prevAdAudioData = some ⟨block, index⟩ := h.ptr
    have hheap : (b.divert p).heap block =
        Function.update (b.heap block) b.backedAdAudioPacketsCnt p := by
      rw [hdivert]
      exact Function.update_self ..
    rcases Nat.eq_zero_or_pos b.savedAudioPacketsCnt with hs | hs
    · -- the place is the one behind those still to be read
      have hlt := h.diverted hs
      rw [unread_diverted h.ptr hs, unread_diverted hptr hs]
      have hcount : b.backedAdAudioPacketsCnt + 1 - index =
          b.backedAdAudioPacketsCnt - index + 1 := by omega
      have hend : index + (b.backedAdAudioPacketsCnt - index) = b.backedAdAudioPacketsCnt := by
        omega
      show load ((b.divert p).heap block) index (b.backedAdAudioPacketsCnt + 1 - index) = _
      rw [hheap, hcount, load_concat, hend, Function.update_self,
        load_update (Or.inr (Nat.le_of_eq hend))]
    · -- the place is in front of the saved packets still to be read
      have hlt := hplace.2 hs
      rw [hread] at hlt
      rw [unread_saved h.ptr hs, unread_saved hptr hs, List.append_assoc]
      show load ((b.divert p).heap block) index b.savedAudioPacketsCnt ++
        load ((b.divert p).heap block) 0 (b.backedAdAudioPacketsCnt + 1) = _
      rw [hheap, load_update (Or.inl hlt), load_concat, Nat.zero_add, Function.update_self,
        load_update (Or.inr (Nat.le_of_eq (Nat.zero_add _)))]

end B2bAudio

namespace AdInsertion

variable {s : AdInsertion}

/-! ## What a pass does to the buffer -/

/-- The buffer and its ledger. -/
def audio (s : AdInsertion) : B2bAudio × B2bLedger := (s.b2b, s.ledger)

/-- An audio packet of the ad that is held back. -/
def HoldsBack (s : AdInsertion) (packet : Packet) : Prop :=
  s.MapsToAudio packet ∧ ¬ s.trim.maxAdVideoFrameCountReached ∧ s.backToBackPrev ∧ s.b2b.holding

instance (s : AdInsertion) (packet : Packet) : Decidable (s.HoldsBack packet) :=
  inferInstanceAs (Decidable (_ ∧ _))

/-- What a pass may do to the buffer and its ledger: nothing, take the first packet out,
put the first packet in the place of a null packet, or hold a packet back. -/
inductive AudioMove : B2bAudio × B2bLedger → B2bAudio × B2bLedger → Prop where
  | none (a : B2bAudio × B2bLedger) : AudioMove a a
  | drained {b : B2bAudio} (l : B2bLedger) {ptr : B2bPointer}
      (hptr : b.prevAdAudioData = some ptr) (hholding : b.holding = true) :
      AudioMove (b, l) (b.drain, { l with emitted := l.emitted ++ [b.packetAt ptr] })
  | filled {b : B2bAudio} (l : B2bLedger) {ptr : B2bPointer}
      (hptr : b.prevAdAudioData = some ptr) (hsaved : 0 < b.savedAudioPacketsCnt) :
      AudioMove (b, l) (b.fillNull, { l with emitted := l.emitted ++ [b.packetAt ptr] })
  | diverted {b : B2bAudio} (l : B2bLedger) (p : Packet) (hholding : b.holding = true)
      (hplace : b.HasPlace) :
      AudioMove (b, l) (b.divert p,
        { l with
          diverted := l.diverted ++ [p]
          reach := max l.reach (b.backedAdAudioPacketsCnt + 1) })

/-- A pass at which the buffer is used as a queue: the saved packet that takes the place
of a null packet is recognised, and there is a place for the packet that is held back. -/
def PassInOrder (s : AdInsertion) : Prop :=
  ∀ packet ∈ s.nextRead,
    (∀ ptr ∈ s.nullFiller packet.pid, s.TellsSaved (s.b2b.packetAt ptr)) ∧
      (s.nullFiller packet.pid = none → s.HoldsBack packet → s.b2b.HasPlace)

instance (s : AdInsertion) : Decidable s.PassInOrder := by
  unfold PassInOrder
  infer_instance

/-- A step at which the buffer is used as a queue; a new buffer is begun only when the
one before is empty. -/
def StepInOrder (s : AdInsertion) : Event → Prop
  | .pass => s.PassInOrder
  | .call _ => s.cutOff = true → s.b2b.holding = false
  | .elsewhere _ => True
  | .start _ => True

instance (s : AdInsertion) : ∀ e, Decidable (s.StepInOrder e)
  | .pass => inferInstanceAs (Decidable s.PassInOrder)
  | .call _ => inferInstanceAs (Decidable (s.cutOff = true → s.b2b.holding = false))
  | .elsewhere _ => isTrue trivial
  | .start _ => isTrue trivial

@[simp] theorem insertStored_audio (ptr : B2bPointer) :
    (s.insertStored ptr).1.audio =
      (s.b2b.drain,
        { s.ledger with emitted := s.ledger.emitted ++ [s.b2b.packetAt ptr] }) := by
  unfold insertStored
  dsimp only
  split_ifs <;> rfl

@[simp] theorem insertEnd_audio : s.insertEnd.1.audio = s.audio := by
  unfold insertEnd
  dsimp only
  split_ifs <;> rfl

@[simp] theorem checkDuration_audio : s.checkDuration.audio = s.audio := by
  unfold checkDuration
  dsimp only
  split_ifs <;> rfl

@[simp] theorem put_audio (ttsInc : UInt32) (em : Emission) :
    (s.put ttsInc em).audio = s.audio := rfl

@[simp] theorem checkEnd_audio : s.checkEnd.audio = s.audio := by
  unfold checkEnd
  split_ifs <;> rfl

@[simp] theorem awaitPayloadStart_audio (m : Mapped) (insertPid : ℕ) :
    (m.awaitPayloadStart insertPid).s.audio = m.s.audio := by
  unfold Mapped.awaitPayloadStart
  split_ifs <;> rfl

@[simp] theorem send_audio (m : Mapped) (insertPid : ℕ) (replicatePrev : Bool) :
    (m.send insertPid replicatePrev).1.audio = m.s.audio := by
  unfold Mapped.send
  dsimp only
  split_ifs <;> rfl

/-- Trimming a packet, or holding it back. -/
theorem trimMapped_move {packet : Packet} {mapPid : ℕ}
    (hplace : (mapPid : ℤ) ≠ s.videoPid → (mapPid : ℤ) = s.audioPid →
      ¬ s.trim.maxAdVideoFrameCountReached → s.backToBackPrev → s.b2b.holding →
      s.b2b.HasPlace) :
    AudioMove s.audio (s.trimMapped packet mapPid).s.audio := by
  unfold trimMapped
  split_ifs with hvideo haudio hmax hend hback
  · exact .none _
  · exact .none _
  · exact .none _
  · exact .diverted _ _ hback.2 (hplace hvideo haudio hmax hback.1 hback.2)
  · exact .none _
  · exact .none _

/-- A packet that was read. -/
theorem mapPacket_move {packet : Packet} (hplace : s.HoldsBack packet → s.b2b.HasPlace) :
    AudioMove s.audio (s.mapPacket packet packet.pid false).s.audio := by
  simp only [mapPacket, Bool.false_eq_true, if_false]
  split_ifs with hpat hpmt hnull
  · exact .none _
  · exact .none _
  · exact .none _
  · unfold mapAd
    dsimp only
    split_ifs with hmap
    · exact .none _
    · rw [awaitPayloadStart_audio]
      exact trimMapped_move fun hvideo haudio hmax hprev hholding =>
        hplace ⟨⟨hpat, hpmt, hnull, hmap, hvideo, haudio⟩, hmax, hprev, hholding⟩

theorem nullFiller_eq_some {insertPid : ℕ} {ptr : B2bPointer}
    (h : s.nullFiller insertPid = some ptr) :
    s.b2b.prevAdAudioData = some ptr ∧ 0 < s.b2b.savedAudioPacketsCnt := by
  unfold nullFiller at h
  split_ifs at h with hnull
  rcases hptr : s.b2b.prevAdAudioData with _ | ptr'
  · simp [hptr] at h
  · simp only [hptr] at h
    split_ifs at h with hsync
    exact ⟨h, hnull.2.2⟩

/-- A packet is read, and a saved one may take its place. -/
theorem insertRead_move {packet : Packet}
    (hsaved : ∀ ptr, s.nullFiller packet.pid = some ptr → s.TellsSaved (s.b2b.packetAt ptr))
    (hplace : s.nullFiller packet.pid = none → s.HoldsBack packet → s.b2b.HasPlace) :
    AudioMove s.audio (s.insertRead packet).1.audio := by
  unfold insertRead
  rcases hfill : s.nullFiller packet.pid with _ | ptr
  · split_ifs with hskip
    · exact .none _
    · rw [send_audio]
      exact mapPacket_move (hplace hfill)
  · obtain ⟨hptr, hcount⟩ := nullFiller_eq_some hfill
    obtain ⟨hpat, hpmt, hnull⟩ := hsaved ptr hfill
    dsimp only
    rw [if_neg fun h => hnull h.1]
    rw [send_audio, mapPacket, if_neg hpat, if_neg hpmt]
    exact .filled _ hptr hcount

/-- **What a pass does to the buffer.** -/
theorem insertPacket_move (h : s.PassInOrder) : AudioMove s.audio s.insertPacket.audio := by
  have hone : AudioMove s.audio s.insertOne.1.audio := by
    by_cases hreplica :
        s.replication.audioReplicationEnabled = true ∧ s.replication.replicatingAudio = true
    · rw [insertOne, if_pos hreplica]
      exact .none _
    · rw [insertOne, if_neg hreplica]
      rcases hdue : s.storedDue with _ | ptr
      · unfold insertOwn
        by_cases hpsi : s.psiInsertionIncomplete = true
        · rw [if_pos hpsi]
          exact .none _
        · rw [if_neg hpsi]
          rcases hreads : s.reads with _ | ⟨packet, reads⟩
          · rw [insertEnd_audio]
            exact .none _
          · have hnext : s.nextRead = some packet := by
              simp [nextRead, hreplica, hdue, hpsi, hreads]
            obtain ⟨hfill, hplace⟩ := h packet hnext
            exact insertRead_move (s := { s with reads := reads }) hfill hplace
      · unfold storedDue at hdue
        split_ifs at hdue with hholding
        rw [insertStored_audio]
        exact .drained _ hdue hholding.2.2
  unfold insertPacket
  rcases hout : s.insertOne with ⟨t, em⟩
  rw [hout] at hone
  rcases em with _ | em <;> simpa using hone

/-! ## The queue, step by step -/

/-- The buffer is a queue of the saved packets followed by the diverted ones. -/
structure InOrder (a : B2bAudio × B2bLedger) : Prop where
  valid : a.1.Valid
  order : a.2.emitted ++ a.1.unread = a.2.saved ++ a.2.diverted
  kept : a.2.lost = []
  inside : a.2.reach ≤ maxAudPackets

/-- A packet taken out is the next one of the queue. -/
theorem InOrder.takeOut {b b' : B2bAudio} {l : B2bLedger} {p : Packet} (h : InOrder (b, l))
    (hvalid : b'.Valid) (hunread : b.unread = p :: b'.unread) :
    InOrder (b', { l with emitted := l.emitted ++ [p] }) where
  valid := hvalid
  order := by
    have horder : l.emitted ++ b.unread = l.saved ++ l.diverted := h.order
    rw [hunread] at horder
    rw [← horder, List.append_assoc]
    rfl
  kept := h.kept
  inside := h.inside

/-- **A pass keeps the order.** -/
theorem InOrder.move {a a' : B2bAudio × B2bLedger} (h : InOrder a) (hmove : AudioMove a a') :
    InOrder a' := by
  cases hmove with
  | none => exact h
  | drained l hptr hholding =>
    obtain ⟨hvalid, hunread⟩ := B2bAudio.drain_spec h.valid hholding hptr
    exact h.takeOut hvalid hunread
  | filled l hptr hsaved =>
    obtain ⟨hvalid, hunread⟩ := B2bAudio.fillNull_spec h.valid hsaved hptr
    exact h.takeOut hvalid hunread
  | @diverted b l p hholding hplace =>
    obtain ⟨hvalid, hunread⟩ := B2bAudio.divert_spec (p := p) h.valid hholding hplace
    refine ⟨hvalid, ?_, h.kept, ?_⟩
    · have horder : l.emitted ++ b.unread = l.saved ++ l.diverted := h.order
      rw [hunread, ← List.append_assoc, horder, List.append_assoc]
    · exact Nat.max_le.mpr ⟨h.inside, hplace.1⟩

/-! ## Saving -/

/-- The buffer while it is filled. -/
structure Filling (block : ℕ) (a : B2bAudio × B2bLedger) : Prop where
  ptr : a.1.prevAdAudioData = some ⟨block, 0⟩
  copy : a.1.prevAdAudioDataCopy = some block
  allocated : block < a.1.blocks
  live : a.1.frees block = 0
  frees_le : ∀ block, a.1.frees block ≤ 1
  fresh : ∀ block, a.1.blocks ≤ block → a.1.frees block = 0
  backed : a.1.backedAdAudioPacketsCnt = 0
  saved_le : a.1.savedAudioPacketsCnt ≤ maxAudPackets
  cells : load (a.1.heap block) 0 a.1.savedAudioPacketsCnt = a.2.saved
  emitted : a.2.emitted = []
  diverted : a.2.diverted = []
  kept : a.2.lost = []
  inside : a.2.reach ≤ maxAudPackets

/-- A buffer that has been filled holds the saved packets. -/
theorem Filling.inOrder {block : ℕ} {a : B2bAudio × B2bLedger} (h : Filling block a) :
    InOrder a where
  valid :=
    { holds := fun hholding => by
        have hsaved : 0 < a.1.savedAudioPacketsCnt := by
          rcases B2bAudio.holding_iff.mp hholding with hs | hb
          · exact hs
          · exact absurd hb (by rw [h.backed]; exact Nat.lt_irrefl 0)
        refine ⟨block, 0, h.ptr, h.copy, h.allocated, h.live, fun _ => ⟨?_, ?_⟩, fun hzero => ?_⟩
        · exact Nat.le_of_eq h.backed
        · rw [Nat.zero_add]
          exact h.saved_le
        · exact absurd hsaved (by rw [hzero]; exact Nat.lt_irrefl 0)
      frees_le := h.frees_le
      fresh := h.fresh }
  order := by
    rw [h.emitted, h.diverted, List.nil_append, List.append_nil, ← h.cells]
    rcases Nat.eq_zero_or_pos a.1.savedAudioPacketsCnt with hs | hs
    · rw [B2bAudio.unread_of_not_holding (B2bAudio.not_holding_iff.mpr ⟨hs, h.backed⟩), hs]
      rfl
    · rw [B2bAudio.unread_saved h.ptr hs, h.backed, load_zero, List.append_nil]
  kept := h.kept
  inside := h.inside

/-- One packet of the ad that is being cut off. -/
theorem Filling.savePacket {block : ℕ} (h : Filling block s.audio) (packet : Packet)
    (hroom : s.b2b.savedAudioPacketsCnt < maxAudPackets) :
    Filling block (s.savePacket block packet).audio := by
  unfold AdInsertion.savePacket
  dsimp only
  split_ifs with haudio
  · rcases htrim : s.trim.trimAudio packet s.packetSize s.clock.lastAdVideoFramePTS with ⟨trim, p⟩
    refine ⟨h.ptr, h.copy, h.allocated, h.live, h.frees_le, h.fresh, h.backed, hroom, ?_,
      h.emitted, h.diverted, h.kept, Nat.max_le.mpr ⟨h.inside, hroom⟩⟩
    have hcells : load (s.b2b.heap block) 0 s.b2b.savedAudioPacketsCnt = s.ledger.saved := h.cells
    show load (Function.update s.b2b.heap block _ block) 0 (s.b2b.savedAudioPacketsCnt + 1) =
      s.ledger.saved ++ [_]
    rw [Function.update_self, load_concat, Nat.zero_add, Function.update_self,
      load_update (Or.inr (Nat.le_of_eq (Nat.zero_add _))), hcells]
  · exact h

/-- All that is saved of the ad that is being cut off. -/
theorem Filling.savePackets {block : ℕ} {packets : List Packet} :
    ∀ {s : AdInsertion}, Filling block s.audio →
      Filling block (AdInsertion.savePackets block s packets).audio := by
  induction packets with
  | nil =>
    intro s h
    exact h
  | cons packet packets ih =>
    intro s h
    unfold AdInsertion.savePackets
    split_ifs with hroom
    · have hstep := h.savePacket packet hroom
      dsimp only
      split_ifs with hmax
      · exact hstep
      · exact ih hstep
    · exact h

/-- **Saving keeps the order**, if the buffer before is empty. -/
theorem InOrder.saveAudio (h : InOrder s.audio) (hempty : s.b2b.holding = false)
    (allocated : Bool) (packets : List Packet) :
    InOrder (s.saveAudio allocated packets).audio := by
  have hlost : s.ledger.lost ++ s.b2b.unread = [] := by
    rw [B2bAudio.unread_of_not_holding hempty, List.append_nil]
    exact h.kept
  have hnone : ∀ b : B2bAudio, b.savedAudioPacketsCnt = 0 → b.backedAdAudioPacketsCnt = 0 →
      b.frees = s.b2b.frees → b.blocks = s.b2b.blocks →
      InOrder (b, ⟨[], [], [], s.ledger.lost ++ s.b2b.unread, 0⟩) := by
    intro b hs hb hfrees hblocks
    have hnot : b.holding = false := B2bAudio.not_holding_iff.mpr ⟨hs, hb⟩
    refine ⟨h.valid.moved hfrees hblocks fun hholding => ?_, ?_, hlost, Nat.zero_le _⟩
    · cases hnot.symm.trans hholding
    · exact B2bAudio.unread_of_not_holding hnot
  unfold AdInsertion.saveAudio
  dsimp only
  split_ifs with hmax hallocated
  · exact hnone _ rfl rfl rfl rfl
  · refine (Filling.savePackets ?_).inOrder
    exact
      { ptr := rfl
        copy := rfl
        allocated := Nat.lt_succ_self _
        live := h.valid.fresh _ (Nat.le_refl _)
        frees_le := h.valid.frees_le
        fresh := fun block hblock => h.valid.fresh block (Nat.le_of_succ_le hblock)
        backed := rfl
        saved_le := Nat.zero_le _
        cells := rfl
        emitted := rfl
        diverted := rfl
        kept := hlost
        inside := Nat.zero_le _ }
  · exact hnone _ rfl rfl rfl rfl

/-! ## The queue along a run -/

/-- **One step keeps the order.** -/
theorem InOrder.step {e : Event} {s' : AdInsertion} (h : InOrder s.audio)
    (horder : s.StepInOrder e) (hstep : s.step e = some s') : InOrder s'.audio := by
  cases e with
  | call c =>
    obtain ⟨-, rfl⟩ := step_call.mp hstep
    unfold enter
    dsimp only
    split_ifs with hcut hmapping
    · exact InOrder.saveAudio (s := { s with around := c.around }) h (horder hcut) _ _
    · exact h
    · exact h
  | pass =>
    obtain ⟨-, rfl⟩ := step_pass.mp hstep
    exact h.move (insertPacket_move horder)
  | elsewhere t =>
    obtain ⟨-, rfl⟩ := step_elsewhere.mp hstep
    exact h
  | start t =>
    obtain ⟨-, rfl⟩ := step_start.mp hstep
    exact h

/-- No buffer has been used yet. -/
structure NoBuffer (s : AdInsertion) : Prop where
  empty : s.b2b.holding = false
  frees : ∀ block, s.b2b.frees block = 0
  ledger : s.ledger = ⟨[], [], [], [], 0⟩

theorem NoBuffer.inOrder (h : s.NoBuffer) : InOrder s.audio where
  valid :=
    { holds := fun hholding => by cases h.empty.symm.trans hholding
      frees_le := fun block => by
        show s.b2b.frees block ≤ 1
        rw [h.frees]
        exact Nat.zero_le 1
      fresh := fun block _ => h.frees block }
  order := by
    show s.ledger.emitted ++ s.b2b.unread = s.ledger.saved ++ s.ledger.diverted
    rw [B2bAudio.unread_of_not_holding h.empty, h.ledger]
  kept := by
    show s.ledger.lost = []
    rw [h.ledger]
  inside := by
    show s.ledger.reach ≤ maxAudPackets
    rw [h.ledger]
    exact Nat.zero_le _

end AdInsertion

end MediaFramework
