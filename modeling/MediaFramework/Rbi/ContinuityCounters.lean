import Mathlib.Data.List.Nodup
import MediaFramework.Lib.Counters
import MediaFramework.Rbi.InsertionData

/-!
# Continuity counters in a spot

Each packet that `getInsertionData` makes of a packet of the ad, of a table or of saved
audio has the continuity counter of its PID, which is stepped for packets with a
payload. A replica has no counter of its own: it has that of its original, so the PIDs
that audio is replicated to count up exactly if the packets that are replicated do.

The packets of the ad are replicated if they come from the one stream chosen for that.
The packets out of the buffer between two ads are replicated in any case: they break the
counters if they belong to another stream, or if a packet of their stream has gone out
before without being replicated.
-/

namespace MediaFramework

namespace Packet

/-! ## The header -/

theorem pid_congr {p q : Packet} (h₁ : q 1 = p 1) (h₂ : q 2 = p 2) : q.pid = p.pid := by
  rw [pid, pid, h₁, h₂]

theorem hasPayload_congr {p q : Packet} (h : q 3 = p 3) : q.hasPayload = p.hasPayload := by
  rw [hasPayload, hasPayload, adaptation, adaptation, h]

theorem continuity_congr {p q : Packet} (h : q 3 = p 3) : q.continuity = p.continuity := by
  rw [continuity, continuity, h]

variable (p : Packet)

theorem withPid_three (pid : ℕ) : p.withPid pid 3 = p 3 := store_of_not_mem (Or.inr (by simp))

/-- The PID that is written is the one that is read. -/
theorem pid_withPid {pid : ℕ} (h : pid < 0x2000) : (p.withPid pid).pid = pid := by
  have h₁ : p.withPid pid 1 = UInt8.ofNat ((p 1).toNat &&& 0xE0 ||| pid >>> 8 &&& 0x1F) := by
    simp [withPid, store]
  have h₂ : p.withPid pid 2 = UInt8.ofNat (pid &&& 0xFF) := by simp [withPid, store]
  have hflags : (p 1).toNat &&& 0xE0 = (p 1).toNat / 32 % 8 * 32 := and_mask _ 3 5
  have hhigh : pid >>> 8 &&& 0x1F = pid / 256 % 32 := by
    rw [Nat.shiftRight_eq_div_pow]
    exact and_low _ 5
  have hlow : pid &&& 0xFF = pid % 256 := and_low _ 8
  have hbyte : (p 1).toNat / 32 % 8 * 32 ||| pid / 256 % 32 =
      (p 1).toNat / 32 % 8 * 32 + pid / 256 % 32 := or_eq_add 5 (by omega) (by omega)
  rw [Packet.pid, h₁, h₂, hflags, hhigh, hlow, hbyte, UInt8.toNat_ofNat', UInt8.toNat_ofNat',
    Nat.shiftLeft_eq, or_eq_add 8 (by omega) (by omega)]
  refine (and_low _ 13).trans ?_
  omega

/-- Writing the counter leaves the upper half of its byte alone. -/
theorem withContinuity_three (counter : UInt8) :
    (p.withContinuity counter 3).toNat = (p 3).toNat / 16 * 16 + counter.toNat % 16 := by
  have h : p.withContinuity counter 3 =
      UInt8.ofNat ((p 3).toNat &&& 0xF0 ||| counter.toNat &&& 0x0F) := by
    simp [withContinuity, store]
  have hhigh : (p 3).toNat &&& 0xF0 = (p 3).toNat / 16 % 16 * 16 := and_mask _ 4 4
  have hlow : counter.toNat &&& 0x0F = counter.toNat % 16 := and_low _ 4
  have hp := (p 3).toNat_lt
  rw [h, hhigh, hlow, or_eq_add 4 (by omega) (by omega), UInt8.toNat_ofNat']
  omega

theorem continuity_withContinuity (counter : UInt8) :
    (p.withContinuity counter).continuity = counter.toNat % 16 := by
  rw [continuity, withContinuity_three]
  refine (and_low _ 4).trans ?_
  omega

theorem hasPayload_withContinuity (counter : UInt8) :
    (p.withContinuity counter).hasPayload = p.hasPayload := by
  have hadaptation : (p.withContinuity counter).adaptation = p.adaptation := by
    have hmask : ∀ x, x &&& 0x30 = x / 16 % 4 * 16 := fun x => and_mask x 2 4
    rw [adaptation, adaptation, withContinuity_three, hmask, hmask]
    congr 1
    omega
  rw [hasPayload, hasPayload, hadaptation]

theorem pid_withContinuity (counter : UInt8) : (p.withContinuity counter).pid = p.pid :=
  pid_congr (store_of_not_mem (Or.inl (by decide))) (store_of_not_mem (Or.inl (by decide)))

end Packet

/-- The time stamps lie behind the header. -/
theorem AdClock.reTimestamp_header (clock : AdClock) (c : AdPacket) {i : ℕ} (h₁ : 1 ≤ i)
    (h₃ : i ≤ 3) : (clock.reTimestamp c).2 i = c.packet i := by
  have hpcr := rewritePCR_rest (clock.setBases c) c c.packet (i := i) (by omega)
    (Or.inl (by omega))
  have htimes := (rewriteTimes_packet ((clock.setBases c).rewritePCR c c.packet).1 c
    ((clock.setBases c).rewritePCR c c.packet).2).2 i fun pos hpos => by
      have := Packet.payload_le_of_mem hpos
      have := Packet.four_le_payload ((clock.setBases c).rewritePCR c c.packet).2
      omega
  exact htimes.trans hpcr

theorem nullPid_lt : nullPid < 0x2000 := by decide

/-- How the packets of a spot are numbered: a forced discontinuity adds one. -/
def byPid : Numbering Emission ℕ where
  key em := em.packet.pid
  counts em := em.packet.hasPayload
  number em := em.packet.continuity
  jump em := if em.forced.isSome then 1 else 0
  modulus := 16

namespace AdInsertion

variable {s s' : AdInsertion}

/-- The counter of a PID, as it is written. -/
def counter (s : AdInsertion) (pid : ℕ) : ℕ := (s.continuityCounters pid).toNat % 16

/-- **A stamped packet** has the counter of its PID. -/
theorem stamp_spec (mapPid : ℕ) (advance : Bool) (p : Packet) :
    (s.stamp mapPid advance p).2.pid = p.pid ∧
      (s.stamp mapPid advance p).2.hasPayload = p.hasPayload ∧
      (s.stamp mapPid advance p).2.continuity = (s.stamp mapPid advance p).1.counter mapPid ∧
      (s.stamp mapPid advance p).1.counter mapPid =
        (s.counter mapPid + if advance then 1 else 0) % 16 ∧
      ∀ pid, pid ≠ mapPid → (s.stamp mapPid advance p).1.counter pid = s.counter pid := by
  have hheader : ∀ i, 1 ≤ i → i ≤ 3 → (s.stamp mapPid advance p).2 i =
      p.withContinuity (if advance then s.continuityCounters mapPid + 1
        else s.continuityCounters mapPid) i :=
    fun i h₁ h₃ => AdClock.reTimestamp_header _ _ h₁ h₃
  have hself : (s.stamp mapPid advance p).1.counter mapPid =
      (if advance then s.continuityCounters mapPid + 1
        else s.continuityCounters mapPid).toNat % 16 := by
    show (Function.update s.continuityCounters mapPid _ mapPid).toNat % 16 = _
    rw [Function.update_self]
  refine ⟨?_, ?_, ?_, ?_, fun pid hpid => ?_⟩
  · rw [Packet.pid_congr (hheader 1 (by decide) (by decide)) (hheader 2 (by decide) (by decide)),
      Packet.pid_withContinuity]
  · rw [Packet.hasPayload_congr (hheader 3 (by decide) (by decide)),
      Packet.hasPayload_withContinuity]
  · rw [Packet.continuity_congr (hheader 3 (by decide) (by decide)),
      Packet.continuity_withContinuity, hself]
  · rw [hself]
    cases advance with
    | false => simp [counter]
    | true =>
      simp only [if_true, UInt8.toNat_add, UInt8.toNat_one, counter]
      omega
  · show (Function.update s.continuityCounters mapPid _ pid).toNat % 16 = _
    rw [Function.update_of_ne hpid]
    rfl

end AdInsertion

/-! ## What is fixed for a spot -/

/-- What is fixed when a spot begins. -/
structure SpotSetting where
  mapping : Bool
  tables : ReplacementTables
  adPmtPid : ℕ
  pidMap : ℕ → ℕ
  audioReplicationEnabled : Bool
  replicateAudioSrcPid : ℤ
  replicateAudioTargetPids : List ℕ

namespace SpotSetting

/-- Audio is replicated in the spot. -/
def Replicates (t : SpotSetting) : Prop :=
  t.audioReplicationEnabled = true ∧ t.replicateAudioSrcPid ≠ -1

instance (t : SpotSetting) : Decidable t.Replicates := inferInstanceAs (Decidable (_ ∧ _))

/-- The programme's PID of the stream that is replicated. -/
def source (t : SpotSetting) : ℕ := t.pidMap t.replicateAudioSrcPid.toNat

/-- The PIDs of the spot are told apart: the replicas go to PIDs that nothing else goes to,
and nothing but the stream that is replicated goes to its PID. -/
structure Apart (t : SpotSetting) : Prop where
  targets_ne : t.replicateAudioTargetPids ≠ []
  targets_nodup : t.replicateAudioTargetPids.Nodup
  targets_lt : ∀ pid ∈ t.replicateAudioTargetPids, pid < 0x2000
  targets_free : ∀ pid ∈ t.replicateAudioTargetPids,
    pid ≠ 0 ∧ pid ≠ t.tables.pmtPid ∧ pid ≠ nullPid ∧ ∀ adPid, t.pidMap adPid ≠ pid
  src_pos : 0 < t.replicateAudioSrcPid
  src_ne : t.replicateAudioSrcPid ≠ t.adPmtPid
  source_ne : t.source ≠ t.tables.pmtPid
  source_only : t.source ≠ 0 → ∀ adPid, t.pidMap adPid = t.source →
    (adPid : ℤ) = t.replicateAudioSrcPid

end SpotSetting

namespace AdInsertion

variable {s s' : AdInsertion}

/-- What is fixed in this spot. -/
def setting (s : AdInsertion) : SpotSetting where
  mapping := s.mapping
  tables := s.tables
  adPmtPid := s.map.pmtPid
  pidMap := s.map.pidMap
  audioReplicationEnabled := s.replication.audioReplicationEnabled
  replicateAudioSrcPid := s.replication.replicateAudioSrcPid
  replicateAudioTargetPids := s.replication.replicateAudioTargetPids

/-- While the PMT is incomplete, there is more of it. -/
def PmtInside (s : AdInsertion) : Prop :=
  s.psiInsertionIncomplete = true → s.replacementPMTReadOffset < s.tables.replacementPMTLength

/-- What mapping a packet and sending it has in common. -/
structure Carries (s s' : AdInsertion) : Prop where
  setting : s'.setting = s.setting
  inserted : s'.inserted = s.inserted
  intact : s'.damaged = s.damaged
  need : ∀ adPid, s.map.needPayloadStart adPid = false → s'.map.needPayloadStart adPid = false
  cut : s.trim.maxAdAudioFrameCountReached = true → s'.trim.maxAdAudioFrameCountReached = true
  pmt : s.PmtInside → s'.PmtInside

theorem Carries.refl (s : AdInsertion) : Carries s s :=
  ⟨rfl, rfl, rfl, fun _ h => h, fun h => h, fun h => h⟩

theorem Carries.trans {s₁ s₂ s₃ : AdInsertion} (h : Carries s₁ s₂) (h' : Carries s₂ s₃) :
    Carries s₁ s₃ :=
  ⟨h'.setting.trans h.setting, h'.inserted.trans h.inserted, h'.intact.trans h.intact,
    fun adPid hneed => h'.need adPid (h.need adPid hneed), fun hcut => h'.cut (h.cut hcut),
    fun hpmt => h'.pmt (h.pmt hpmt)⟩

/-- The audio packet that is read is cut off within the packet. -/
def CutsInside (s : AdInsertion) (packet : Packet) : Prop :=
  s.MapsToAudio packet → s.trim.maxAdVideoFrameCountReached = true →
    s.trim.maxAdAudioFrameCountReached = false →
      let trim := (s.trim.trimAudio packet s.packetSize s.clock.lastAdVideoFramePTS).1
      trim.maxAdAudioFrameCountReached = true → trim.adAC3FrameInfo.byteCnt ≤ 188

instance (s : AdInsertion) (packet : Packet) : Decidable (s.CutsInside packet) :=
  inferInstanceAs (Decidable (_ → _ → _ → _ → _))

/-- A packet on its way to the output, which was read with the PID `insertPid`, or is a
saved one. -/
structure Maps (s : AdInsertion) (m : Mapped) (insertPid : ℕ) (fromPrev : Bool) : Prop where
  carries : Carries s m.s
  replication : m.s.replication = s.replication
  pid : m.packet.pid = m.mapPid
  counter : ∀ pid, pid ≠ nullPid → m.s.counter pid =
    (s.counter pid + if pid = m.mapPid ∧ m.forced.isSome then 1 else 0) % 16
  forced : ∀ adPid ∈ m.forced,
    s.map.needPayloadStart adPid = true ∧ m.s.map.needPayloadStart adPid = false
  /-- where it goes to -/
  home : fromPrev = false →
    insertPid = 0 ∧ m.mapPid = 0 ∨ insertPid = s.map.pmtPid ∧ m.mapPid = s.tables.pmtPid ∨
      m.mapPid = nullPid ∨ m.mapPid = s.map.pidMap insertPid ∧ m.mapPid ≠ 0

theorem counter_mod (s : AdInsertion) (pid : ℕ) : s.counter pid % 16 = s.counter pid :=
  Nat.mod_mod _ _

/-- A packet that nothing is counted for yet. -/
theorem Maps.plain {m : Mapped} {insertPid : ℕ} {fromPrev : Bool} (hcarries : Carries s m.s)
    (hreplication : m.s.replication = s.replication)
    (hcounters : m.s.continuityCounters = s.continuityCounters) (hpid : m.packet.pid = m.mapPid)
    (hforced : m.forced = none)
    (hhome : fromPrev = false →
      insertPid = 0 ∧ m.mapPid = 0 ∨ insertPid = s.map.pmtPid ∧ m.mapPid = s.tables.pmtPid ∨
        m.mapPid = nullPid ∨ m.mapPid = s.map.pidMap insertPid ∧ m.mapPid ≠ 0) :
    Maps s m insertPid fromPrev where
  carries := hcarries
  replication := hreplication
  pid := hpid
  counter := fun pid _ => by
    rw [hforced, AdInsertion.counter, AdInsertion.counter, hcounters]
    simp
  forced := fun adPid hadPid => by simp [hforced] at hadPid
  home := hhome

theorem trimVideo_cut (t : AdTrim) (clock : AdClock) (p : Packet) (exitFrames : List UInt32) :
    (t.trimVideo clock p exitFrames).1.maxAdAudioFrameCountReached =
      t.maxAdAudioFrameCountReached := by
  unfold AdTrim.trimVideo AdTrim.countFrame
  dsimp only
  split_ifs <;> rfl

/-- Trimming and diverting leave the counters alone, and a packet goes where it is mapped
to or nowhere. -/
theorem trimMapped_spec (packet : Packet) (mapPid : ℕ)
    (hinside : (mapPid : ℤ) ≠ s.videoPid → (mapPid : ℤ) = s.audioPid →
      s.trim.maxAdVideoFrameCountReached = true → s.trim.maxAdAudioFrameCountReached = false →
      let trim := (s.trim.trimAudio packet s.packetSize s.clock.lastAdVideoFramePTS).1
      trim.maxAdAudioFrameCountReached = true → trim.adAC3FrameInfo.byteCnt ≤ 188) :
    let m := s.trimMapped packet mapPid
    Carries s m.s ∧ m.s.replication = s.replication ∧
      m.s.continuityCounters = s.continuityCounters ∧ m.s.map = s.map ∧ m.forced = none ∧
      (m.mapPid = nullPid ∨ m.mapPid = mapPid) := by
  unfold trimMapped
  split_ifs with hvideo haudio hmaxVideo hmaxAudio hback
  · have hcarries : Carries s
        { s with
          trim := (s.trim.trimVideo s.clock packet s.around.exitFrames).1
          clock := (s.trim.trimVideo s.clock packet s.around.exitFrames).2 } :=
      ⟨rfl, rfl, rfl, fun _ h => h, fun h => (trimVideo_cut _ _ _ _).trans h, fun h => h⟩
    refine ⟨hcarries, rfl, rfl, rfl, rfl, ?_⟩
    dsimp only
    split_ifs
    · exact Or.inl rfl
    · exact Or.inr rfl
  · exact ⟨.refl s, rfl, rfl, rfl, rfl, Or.inl rfl⟩
  · have hnot : s.trim.maxAdAudioFrameCountReached = false := Bool.eq_false_iff.mpr hmaxAudio
    have hin := hinside hvideo haudio hmaxVideo hnot
    refine ⟨⟨rfl, rfl, ?_, fun _ h => h, fun h => absurd h hmaxAudio, fun h => h⟩, rfl, rfl, rfl,
      rfl, Or.inr rfl⟩
    -- no more than the packet is stuffed
    show (s.damaged || _) = s.damaged
    rcases hcut : (s.trim.trimAudio packet s.packetSize
      s.clock.lastAdVideoFramePTS).1.maxAdAudioFrameCountReached with _ | _
    · simp
    · have hle := hin hcut
      simp [hle]
  · exact ⟨⟨rfl, rfl, rfl, fun _ h => h, fun h => h, fun h => h⟩, rfl, rfl, rfl, rfl, Or.inl rfl⟩
  · exact ⟨.refl s, rfl, rfl, rfl, rfl, Or.inr rfl⟩
  · exact ⟨.refl s, rfl, rfl, rfl, rfl, Or.inr rfl⟩

/-- Where a stream begins, its counter is stepped once more. -/
theorem awaitPayloadStart_spec {m : Mapped} (insertPid : ℕ) (hcarries : Carries s m.s)
    (hreplication : m.s.replication = s.replication)
    (hcounters : m.s.continuityCounters = s.continuityCounters) (hmap : m.s.map = s.map)
    (hforced : m.forced = none) :
    let out := m.awaitPayloadStart insertPid
    Carries s out.s ∧ out.s.replication = s.replication ∧
      (∀ pid, pid ≠ nullPid → out.s.counter pid =
        (s.counter pid + if pid = out.mapPid ∧ out.forced.isSome then 1 else 0) % 16) ∧
      (∀ adPid ∈ out.forced, s.map.needPayloadStart adPid = true ∧
        out.s.map.needPayloadStart adPid = false) ∧
      (out.mapPid = nullPid ∨ out.mapPid = m.mapPid) := by
  have hsame : ∀ pid, m.s.counter pid = s.counter pid := fun pid => by
    rw [counter, counter, hcounters]
  unfold Mapped.awaitPayloadStart
  split_ifs with hneed hstart
  · refine ⟨hcarries.trans ⟨rfl, rfl, rfl, fun adPid h => ?_, fun h => h, fun h => h⟩, hreplication,
      fun pid _ => ?_, fun adPid hadPid => ?_, Or.inr rfl⟩
    · show Function.update m.s.map.needPayloadStart insertPid false adPid = false
      rcases eq_or_ne adPid insertPid with rfl | hne
      · exact Function.update_self ..
      · rw [Function.update_of_ne hne]
        exact h
    · show (Function.update m.s.continuityCounters m.mapPid _ pid).toNat % 16 = _
      rcases eq_or_ne pid m.mapPid with rfl | hne
      · have hstep := hsame m.mapPid
        rw [Function.update_self, UInt8.toNat_add, UInt8.toNat_one]
        simp only [Option.isSome_some, and_true, if_true]
        rw [← hstep, counter]
        omega
      · rw [Function.update_of_ne hne, if_neg fun h => hne h.1, Nat.add_zero, counter_mod]
        exact hsame pid
    · obtain rfl : insertPid = adPid := Option.some.inj hadPid
      rw [← hmap]
      exact ⟨hneed, Function.update_self ..⟩
  · refine ⟨hcarries, hreplication, fun pid _ => ?_, fun adPid hadPid => ?_, Or.inl rfl⟩
    · simp [hforced, hsame, counter_mod]
    · simp [hforced] at hadPid
  · refine ⟨hcarries, hreplication, fun pid _ => ?_, fun adPid hadPid => ?_, Or.inr rfl⟩
    · simp [hforced, hsame, counter_mod]
    · simp [hforced] at hadPid

/-- A packet of one of the ad's streams. -/
theorem mapAd_maps {packet : Packet} (hpat : packet.pid ≠ 0) (hpmt : packet.pid ≠ s.map.pmtPid)
    (hnull : packet.pid ≠ nullPid) (hinside : s.CutsInside packet) :
    Maps s (s.mapAd packet packet.pid) packet.pid false := by
  unfold mapAd
  dsimp only
  split_ifs with hmap
  · exact .plain (.refl s) rfl rfl (Packet.pid_withPid _ nullPid_lt) rfl
      fun _ => Or.inr (Or.inr (Or.inl rfl))
  · obtain ⟨hcarries, hreplication, hcounters, hsame, hforced, hhome⟩ :=
      trimMapped_spec (s := s) packet (s.map.pidMap packet.pid)
        fun hvideo haudio => hinside ⟨hpat, hpmt, hnull, hmap, hvideo, haudio⟩
    obtain ⟨hcarries, hreplication, hcounter, hforced, hhome'⟩ :=
      awaitPayloadStart_spec packet.pid hcarries hreplication hcounters hsame hforced
    have hlt : ((s.trimMapped packet (s.map.pidMap packet.pid)).awaitPayloadStart
        packet.pid).mapPid < 0x2000 := by
      rcases hhome' with h | h
      · rw [h]
        exact nullPid_lt
      · rcases hhome with h' | h'
        · rw [h, h']
          exact nullPid_lt
        · rw [h, h']
          exact s.map.pidMap_lt _
    refine ⟨hcarries, hreplication, Packet.pid_withPid _ hlt, hcounter, hforced, fun _ => ?_⟩
    rcases hhome' with h | h
    · exact Or.inr (Or.inr (Or.inl h))
    · rcases hhome with h' | h'
      · exact Or.inr (Or.inr (Or.inl (h.trans h')))
      · exact Or.inr (Or.inr (Or.inr ⟨h.trans h', fun hzero => hmap ((h.trans h').symm.trans hzero)⟩))

/-- A packet that was read. -/
theorem mapPacket_maps (packet : Packet) (hinside : s.CutsInside packet)
    (hpmtPid : packet.pid = s.map.pmtPid → s.pmtPid = s.tables.pmtPid) :
    Maps s (s.mapPacket packet packet.pid false) packet.pid false := by
  simp only [mapPacket, Bool.false_eq_true, if_false]
  split_ifs with hpat hpmt hnull
  · exact .plain (.refl s) rfl rfl s.tables.pat_pid rfl fun _ => Or.inl ⟨hpat, rfl⟩
  · have hkept := hpmtPid hpmt
    refine .plain ⟨rfl, rfl, rfl, fun _ h => h, fun h => h, fun _ hmore => ?_⟩ rfl rfl
      ((s.tables.pmt_pid 0 s.tables.pmt_ne_empty).trans hkept.symm) rfl
      fun _ => Or.inr (Or.inl ⟨hpmt, hkept⟩)
    exact of_decide_eq_true hmore
  · exact .plain (.refl s) rfl rfl rfl rfl fun _ => Or.inr (Or.inr (Or.inl hnull))
  · exact mapAd_maps hpat hpmt hnull hinside

/-- A saved packet. -/
theorem mapPacket_saved_maps (saved : Packet)
    (hpmtPid : saved.pid = s.map.pmtPid → s.pmtPid = s.tables.pmtPid) :
    Maps s (s.mapPacket saved saved.pid true) saved.pid true := by
  simp only [mapPacket, if_true]
  split_ifs with hpat hpmt
  · exact .plain (.refl s) rfl rfl s.tables.pat_pid rfl fun h => by cases h
  · refine .plain ⟨rfl, rfl, rfl, fun _ h => h, fun h => h, fun _ hmore => ?_⟩ rfl rfl
      ((s.tables.pmt_pid 0 s.tables.pmt_ne_empty).trans (hpmtPid hpmt).symm) rfl
      fun h => by cases h
    exact of_decide_eq_true hmore
  · exact .plain ⟨rfl, rfl, rfl, fun _ h => h, fun h => h, fun h => h⟩ rfl rfl rfl rfl
      fun h => by cases h

/-- A saved packet that is recognised keeps its PID. -/
theorem mapPacket_saved_pid {saved : Packet} (h : s.TellsSaved saved) :
    (s.mapPacket saved saved.pid true).mapPid = saved.pid := by
  rw [mapPacket, if_neg h.1, if_neg h.2.1, if_pos rfl]

/-! ## The packets that are numbered by the code -/

/-- A packet that goes to the output, and is no replica. -/
structure Sent (s s' : AdInsertion) (em : Emission) : Prop where
  carries : Carries s s'
  original : em.replica = false
  number : em.packet.pid ≠ nullPid → em.packet.continuity = s'.counter em.packet.pid
  counter : em.packet.pid ≠ nullPid → s'.counter em.packet.pid =
    (s.counter em.packet.pid + (if em.packet.hasPayload then 1 else 0) + byPid.jump em) % 16
  others : ∀ pid, pid ≠ nullPid → pid ≠ em.packet.pid → s'.counter pid = s.counter pid
  forced : ∀ adPid ∈ em.forced,
    s.map.needPayloadStart adPid = true ∧ s'.map.needPayloadStart adPid = false
  /-- where the packet goes to -/
  home : s.setting.Replicates →
    em.packet.pid = 0 ∨ em.packet.pid = s.tables.pmtPid ∨ em.packet.pid = nullPid ∨
      ∃ adPid, s.map.pidMap adPid = em.packet.pid
  /-- it is replicated, or not -/
  replication :
    s'.replication = s.replication ∧
        (s.setting.Replicates → em.packet.pid = s.setting.source → em.packet.pid ≠ 0 →
          em.packet.pid ≠ nullPid → s'.trim.maxAdAudioFrameCountReached = true) ∨
      s'.replication = (s.replicate em).replication ∧ s.setting.Replicates ∧
        em.packet.pid = s.setting.source ∧ em.packet.pid ≠ 0 ∧ em.packet.pid ≠ nullPid ∧
        s.trim.maxAdAudioFrameCountReached = false

variable {t : AdInsertion}

/-- The part of sending a packet that does not ask whether it is replicated. -/
theorem Maps.sent {m : Mapped} {insertPid : ℕ} {fromPrev : Bool} (h : Maps s m insertPid fromPrev)
    {packet : Packet}
    (hstamp : (t, packet) =
      if m.mapPid = nullPid then (m.s, m.packet)
      else m.s.stamp m.mapPid m.packet.hasPayload m.packet) :
    packet.pid = m.mapPid ∧ Carries s t ∧ t.replication = s.replication ∧
      (m.mapPid ≠ nullPid → packet.continuity = t.counter m.mapPid ∧
        t.counter m.mapPid = (s.counter m.mapPid + (if packet.hasPayload then 1 else 0) +
          if m.forced.isSome then 1 else 0) % 16) ∧
      (∀ pid, pid ≠ nullPid → pid ≠ m.mapPid → t.counter pid = s.counter pid) ∧
      ∀ adPid ∈ m.forced,
        s.map.needPayloadStart adPid = true ∧ t.map.needPayloadStart adPid = false := by
  have hother : ∀ pid, pid ≠ nullPid → pid ≠ m.mapPid → m.s.counter pid = s.counter pid := by
    intro pid hnull hne
    rw [h.counter pid hnull, if_neg fun h => hne h.1, Nat.add_zero, counter_mod]
  split_ifs at hstamp with hnull
  · obtain ⟨rfl, rfl⟩ := Prod.mk.inj hstamp
    exact ⟨h.pid, h.carries, h.replication, fun hne => absurd hnull hne, hother, h.forced⟩
  · obtain ⟨hpid, hpayload, hnumber, hself, hothers⟩ :=
      stamp_spec (s := m.s) m.mapPid m.packet.hasPayload m.packet
    rw [← hstamp] at hpid hpayload hnumber hself hothers
    have ht : t = (m.s.stamp m.mapPid m.packet.hasPayload m.packet).1 := congrArg Prod.fst hstamp
    have hcarries : Carries m.s t := by
      rw [ht]
      exact ⟨rfl, rfl, rfl, fun _ h => h, fun h => h, fun h => h⟩
    have hneed : t.map = m.s.map := by
      rw [ht]
      rfl
    have hreplication : t.replication = m.s.replication := by
      rw [ht]
      rfl
    refine ⟨hpid.trans h.pid, h.carries.trans hcarries, hreplication.trans h.replication,
      fun _ => ⟨hnumber, ?_⟩, fun pid hpid hne => (hothers pid hne).trans (hother pid hpid hne),
      fun adPid hadPid => ?_⟩
    · have hmapped := h.counter m.mapPid hnull
      simp only [true_and] at hmapped
      rw [hself, hmapped, hpayload]
      omega
    · rw [hneed]
      exact h.forced adPid hadPid

/-- A packet goes from the stream that is replicated to its PID, and from nowhere else. -/
theorem Maps.from_source {m : Mapped} {insertPid : ℕ} (h : Maps s m insertPid false)
    (hapart : s.setting.Apart) (hnull : m.mapPid ≠ nullPid) :
    ((insertPid : ℤ) = s.replication.replicateAudioSrcPid →
        m.mapPid = s.setting.source ∧ m.mapPid ≠ 0) ∧
      (m.mapPid = s.setting.source → m.mapPid ≠ 0 →
        (insertPid : ℤ) = s.replication.replicateAudioSrcPid) := by
  refine ⟨fun hsrc => ?_, fun hsource hzero => ?_⟩
  · have hpos : (0 : ℤ) < insertPid := hsrc ▸ hapart.src_pos
    have hpmt : (insertPid : ℤ) ≠ s.map.pmtPid := hsrc ▸ hapart.src_ne
    rcases h.home rfl with ⟨h₀, -⟩ | ⟨hp, -⟩ | hn | ⟨hmap, hne⟩
    · rw [h₀] at hpos
      exact absurd hpos (by decide)
    · exact absurd (congrArg Nat.cast hp) hpmt
    · exact absurd hn hnull
    · refine ⟨hmap.trans ?_, hne⟩
      show s.map.pidMap insertPid = s.map.pidMap s.replication.replicateAudioSrcPid.toNat
      rw [← hsrc, Int.toNat_natCast]
  · rcases h.home rfl with ⟨-, h₀⟩ | ⟨-, hp⟩ | hn | ⟨hmap, -⟩
    · exact absurd h₀ hzero
    · exact absurd (hsource.symm.trans hp) hapart.source_ne
    · exact absurd hn hnull
    · exact hapart.source_only (hsource ▸ hzero) insertPid (hmap.symm.trans hsource)

/-- What is known of a saved packet that takes the place of a null packet. -/
def SavedFits (s : AdInsertion) (mapPid : ℕ) (replicatePrev : Bool) : Prop :=
  (replicatePrev = true ↔ s.setting.Replicates) ∧
    (s.setting.Replicates → mapPid = s.setting.source ∧ mapPid ≠ 0 ∧ mapPid ≠ nullPid ∧
      s.trim.maxAdAudioFrameCountReached = false)

/-- **A packet is sent.** -/
theorem Maps.send {m : Mapped} {insertPid : ℕ} {fromPrev : Bool}
    (h : Maps s m insertPid fromPrev) (replicatePrev : Bool) (hapart : s.setting.Replicates → s.setting.Apart)
    (hread : fromPrev = false → replicatePrev = false)
    (hsaved : fromPrev = true → s.SavedFits m.mapPid replicatePrev) :
    Sent s (m.send insertPid replicatePrev).1 (m.send insertPid replicatePrev).2 := by
  unfold Mapped.send
  rcases hstamp : (if m.mapPid = nullPid then (m.s, m.packet)
    else m.s.stamp m.mapPid m.packet.hasPayload m.packet) with ⟨t, packet⟩
  obtain ⟨hpid, hcarries, hreplication, hnumber, hothers, hforced⟩ := h.sent hstamp.symm
  dsimp only
  have hsrc : t.replication.replicateAudioSrcPid = s.replication.replicateAudioSrcPid :=
    congrArg Replication.replicateAudioSrcPid hreplication
  have henabled : t.replication.audioReplicationEnabled = s.replication.audioReplicationEnabled :=
    congrArg Replication.audioReplicationEnabled hreplication
  generalize hem : ({ packet := packet, forced := _, replica := false } : Emission) = em
  have hempid : em.packet.pid = m.mapPid := by rw [← hem]; exact hpid
  have hemforced : m.mapPid ≠ nullPid → em.forced = m.forced := fun hne => by
    rw [← hem]
    exact if_neg hne
  -- what does not depend on whether the packet is replicated
  have hsent : ∀ t' : AdInsertion, Carries t t' → t'.continuityCounters = t.continuityCounters →
      t'.map = t.map →
      (t'.replication = s.replication ∧
          (s.setting.Replicates → em.packet.pid = s.setting.source → em.packet.pid ≠ 0 →
            em.packet.pid ≠ nullPid → t'.trim.maxAdAudioFrameCountReached = true) ∨
        t'.replication = (s.replicate em).replication ∧ s.setting.Replicates ∧
          em.packet.pid = s.setting.source ∧ em.packet.pid ≠ 0 ∧ em.packet.pid ≠ nullPid ∧
          s.trim.maxAdAudioFrameCountReached = false) → Sent s t' em := by
    intro t' hcarries' hcounters hmap hreplicated
    have hcounter : ∀ pid, t'.counter pid = t.counter pid := fun pid => by
      rw [AdInsertion.counter, AdInsertion.counter, hcounters]
    refine ⟨hcarries.trans hcarries', by rw [← hem], fun hne => ?_, fun hne => ?_,
      fun pid hnull hne => ?_, fun adPid hadPid => ?_, fun hreplicates => ?_, hreplicated⟩
    · rw [hempid] at hne ⊢
      rw [hcounter, ← (hnumber hne).1, ← hem]
    · rw [hempid] at hne ⊢
      rw [hcounter, (hnumber hne).2]
      have hjump : byPid.jump em = if m.forced.isSome then 1 else 0 := by
        show (if em.forced.isSome then 1 else 0) = _
        rw [hemforced hne]
      rw [hjump, ← hem]
    · rw [hcounter]
      exact hothers pid hnull (hempid ▸ hne)
    · rw [hmap]
      by_cases hnull : m.mapPid = nullPid
      · rw [← hem] at hadPid
        simp [hnull] at hadPid
      · exact hforced adPid (hemforced hnull ▸ hadPid)
    · rw [hempid]
      cases fromPrev with
      | true =>
        exact Or.inr (Or.inr (Or.inr ⟨_, ((hsaved rfl).2 hreplicates).1.symm⟩))
      | false =>
        rcases h.home rfl with ⟨-, h₀⟩ | ⟨-, hp⟩ | hn | ⟨hmap, -⟩
        · exact Or.inl h₀
        · exact Or.inr (Or.inl hp)
        · exact Or.inr (Or.inr (Or.inl hn))
        · exact Or.inr (Or.inr (Or.inr ⟨insertPid, hmap.symm⟩))
  split_ifs with hstart
  · refine hsent _ ⟨rfl, rfl, rfl, fun _ h => h, fun h => h, fun h => h⟩ rfl rfl
      (Or.inr ⟨by rw [replicate, replicate, hreplication], ?_⟩)
    rw [hempid]
    cases fromPrev with
    | true =>
      obtain ⟨hprev, hfits⟩ := hsaved rfl
      have hreplicates : s.setting.Replicates := by
        rcases (Bool.or_eq_true _ _).mp hstart with hown | hprev'
        · simp only [Bool.and_eq_true, decide_eq_true_eq, henabled, hsrc] at hown
          refine ⟨hown.1.1.2, fun hnone => ?_⟩
          have hsrc' : s.replication.replicateAudioSrcPid = -1 := hnone
          have := hown.1.2
          omega
        · exact hprev.mp hprev'
      exact ⟨hreplicates, hfits hreplicates⟩
    | false =>
      rw [hread rfl, Bool.or_false] at hstart
      simp only [Bool.and_eq_true, decide_eq_true_eq, henabled, hsrc, Bool.not_eq_true'] at hstart
      obtain ⟨⟨⟨hcut, hon⟩, hinsert⟩, hnull⟩ := hstart
      have hreplicates : s.setting.Replicates := by
        refine ⟨hon, fun hnone => ?_⟩
        have hsrc' : s.replication.replicateAudioSrcPid = -1 := hnone
        omega
      obtain ⟨hsource, hne⟩ := (h.from_source (hapart hreplicates) hnull).1 hinsert
      refine ⟨hreplicates, hsource, hne, hnull, Bool.eq_false_iff.mpr fun hcut' => ?_⟩
      exact Bool.false_ne_true (hcut.symm.trans (hcarries.cut hcut'))
  · refine hsent _ (.refl t) rfl rfl (Or.inl ⟨hreplication, fun hreplicates hsource hne hnull => ?_⟩)
    rw [hempid] at hsource hne hnull
    rw [Bool.not_eq_true, Bool.or_eq_false_iff] at hstart
    cases fromPrev with
    | true => exact absurd ((hsaved rfl).1.mpr hreplicates) (Bool.eq_false_iff.mp hstart.2)
    | false =>
      have hinsert := (h.from_source (hapart hreplicates) hnull).2 hsource hne
      have hon : s.replication.audioReplicationEnabled = true := hreplicates.1
      have hstart := hstart.1
      simp only [henabled, hsrc, hon, hinsert, hnull, ne_eq, not_false_eq_true, decide_true,
        Bool.and_true, Bool.not_eq_false'] at hstart
      exact hstart

/-- What is still to be read, and what lies in the buffer for audio, does not matter. -/
theorem Sent.of_with {em : Emission} {reads : List Packet} {b2b : B2bAudio}
    (h : Sent { s with reads := reads, b2b := b2b } t em) : Sent s t em where
  carries := ⟨h.carries.setting, h.carries.inserted, h.carries.intact, h.carries.need,
    h.carries.cut, h.carries.pmt⟩
  original := h.original
  number := h.number
  counter := h.counter
  others := h.others
  forced := h.forced
  home := h.home
  replication := h.replication

/-- The packet of the buffer that a pass takes out, if it takes one out. -/
def nextStored (s : AdInsertion) : Option B2bPointer :=
  if s.replication.audioReplicationEnabled ∧ s.replication.replicatingAudio then none
  else
    match s.storedDue with
    | some ptr => some ptr
    | none => s.nextRead.bind fun packet => s.nullFiller packet.pid

/-- A saved packet that is replicated belongs to the stream that is, and replicating is not
over. -/
def StoredFits (s : AdInsertion) (saved : Packet) : Prop :=
  s.TellsSaved saved ∧ saved.pid = s.setting.source ∧
    s.trim.maxAdAudioFrameCountReached = false

instance (s : AdInsertion) (saved : Packet) : Decidable (s.StoredFits saved) :=
  inferInstanceAs (Decidable (_ ∧ _))

/-- A pass that counts: the audio is cut off within a packet, what is replicated of the
saved audio belongs to the stream that is replicated, and a packet of the PMT goes out
while the programme's PMT still has the PID the spot's was collected from. -/
def PassCounts (s : AdInsertion) : Prop :=
  (∀ packet ∈ s.nextRead, s.nullFiller packet.pid = none → s.CutsInside packet) ∧
    (s.setting.Replicates → ∀ ptr ∈ s.nextStored, s.StoredFits (s.b2b.packetAt ptr)) ∧
    (s.InsertsPmt → s.pmtPid = s.tables.pmtPid)

instance (s : AdInsertion) : Decidable s.PassCounts := inferInstanceAs (Decidable (_ ∧ _))

/-- The next packet of the PMT. -/
theorem insertPmtRest_sent (hpmt : s.PmtInside) (hpsi : s.psiInsertionIncomplete = true)
    (hkept : s.pmtPid = s.tables.pmtPid) (hapart : s.setting.Replicates → s.setting.Apart) :
    Sent s s.insertPmtRest.1 s.insertPmtRest.2 := by
  have hlt := hpmt hpsi
  obtain ⟨hpid, hpayload, hnumber, hself, hothers⟩ :=
    stamp_spec (s := { s with
      replacementPMTReadOffset := s.replacementPMTReadOffset + 1
      psiInsertionIncomplete :=
        decide (s.replacementPMTReadOffset + 1 < s.tables.replacementPMTLength) })
      s.pmtPid true (s.tables.replacementPMT s.replacementPMTReadOffset)
  have hempid : s.insertPmtRest.2.packet.pid = s.tables.pmtPid :=
    hpid.trans (s.tables.pmt_pid _ hlt)
  have hpay : s.insertPmtRest.2.packet.hasPayload = true :=
    hpayload.trans (s.tables.pmt_payload _ hlt)
  refine ⟨⟨rfl, rfl, rfl, fun _ h => h, fun h => h, fun _ hmore => ?_⟩, rfl, fun _ => ?_, fun _ => ?_,
    fun pid _ hne => ?_, (fun _ h => by cases h), fun _ => Or.inr (Or.inl hempid),
    Or.inl ⟨rfl, fun hreplicates hsource => ?_⟩⟩
  · exact of_decide_eq_true hmore
  · rw [hempid, ← hkept]
    exact hnumber
  · rw [hempid, hpay, ← hkept]
    exact hself
  · rw [hempid, ← hkept] at hne
    exact hothers pid hne
  · exact absurd (hsource.symm.trans hempid) (hapart hreplicates).source_ne

/-- The next packet of the buffer. -/
theorem insertStored_sent {ptr : B2bPointer}
    (hstored : s.setting.Replicates → s.StoredFits (s.b2b.packetAt ptr)) :
    Sent s (s.insertStored ptr).1 (s.insertStored ptr).2 := by
  obtain ⟨hpid, hpayload, hnumber, hself, hothers⟩ :=
    stamp_spec (s := { s with
      b2b := s.b2b.drain
      ledger := { s.ledger with emitted := s.ledger.emitted ++ [s.b2b.packetAt ptr] }
      backedupAudFramePktCnt := s.backedupAudFramePktCnt - 1 })
      (s.b2b.packetAt ptr).pid (s.b2b.packetAt ptr).hasPayload (s.b2b.packetAt ptr)
  unfold insertStored
  dsimp only
  generalize hstamp : stamp _ _ _ _ = out at hpid hpayload hnumber hself hothers ⊢
  obtain ⟨t, packet⟩ := out
  have ht : t = (stamp { s with
      b2b := s.b2b.drain
      ledger := { s.ledger with emitted := s.ledger.emitted ++ [s.b2b.packetAt ptr] }
      backedupAudFramePktCnt := s.backedupAudFramePktCnt - 1 } (s.b2b.packetAt ptr).pid
      (s.b2b.packetAt ptr).hasPayload (s.b2b.packetAt ptr)).1 := (congrArg Prod.fst hstamp).symm
  have hcarries : Carries s t := by
    rw [ht]
    exact ⟨rfl, rfl, rfl, fun _ h => h, fun h => h, fun h => h⟩
  have hreplication : t.replication = s.replication := by
    rw [ht]
    rfl
  have hsent : ∀ t' : AdInsertion, Carries t t' → t'.continuityCounters = t.continuityCounters →
      (t'.replication = s.replication ∧
          (s.setting.Replicates → packet.pid = s.setting.source → packet.pid ≠ 0 →
            packet.pid ≠ nullPid → t'.trim.maxAdAudioFrameCountReached = true) ∨
        t'.replication = (s.replicate ⟨packet, none, false⟩).replication ∧ s.setting.Replicates ∧
          packet.pid = s.setting.source ∧ packet.pid ≠ 0 ∧ packet.pid ≠ nullPid ∧
          s.trim.maxAdAudioFrameCountReached = false) → Sent s t' ⟨packet, none, false⟩ := by
    intro t' hcarries' hcounters hreplicated
    have hcounter : ∀ pid, t'.counter pid = t.counter pid := fun pid => by
      rw [AdInsertion.counter, AdInsertion.counter, hcounters]
    refine ⟨hcarries.trans hcarries', rfl, fun _ => ?_, fun _ => ?_, fun pid _ hne => ?_,
      (fun _ h => by cases h), fun hreplicates => ?_, hreplicated⟩
    · rw [hcounter, hpid]
      exact hnumber
    · rw [hcounter]
      rw [hpid, hpayload]
      exact hself
    · rw [hcounter]
      exact hothers pid (hpid ▸ hne)
    · obtain ⟨-, hsource, -⟩ := hstored hreplicates
      exact Or.inr (Or.inr (Or.inr ⟨_, (hpid.trans hsource).symm⟩))
  split_ifs with hreplicates
  · have hreplicates' : s.setting.Replicates := by
      rw [hreplication] at hreplicates
      exact hreplicates
    obtain ⟨htells, hsource, hcut⟩ := hstored hreplicates'
    refine hsent _ ⟨rfl, rfl, rfl, fun _ h => h, fun h => h, fun h => h⟩ rfl
      (Or.inr ⟨by rw [replicate, replicate, hreplication], hreplicates', ?_⟩)
    rw [hpid]
    exact ⟨hsource, htells.1, htells.2.2, hcut⟩
  · refine hsent _ (.refl t) rfl (Or.inl ⟨hreplication, fun hreplicates' => ?_⟩)
    rw [hreplication] at hreplicates
    exact absurd hreplicates' hreplicates

/-- The ad is at its end. -/
theorem insertEnd_sent : Sent s s.insertEnd.1 s.insertEnd.2 := by
  have hpid : s.insertEnd.2.packet.pid = nullPid := by
    have hkept : ∀ i, 1 ≤ i → s.insertEnd.2.packet i = s.around.scratch.withPid nullPid i := by
      intro i hi
      unfold insertEnd
      dsimp only
      split_ifs <;> exact store_of_not_mem (Or.inr hi)
    rw [Packet.pid_congr (hkept 1 (by decide)) (hkept 2 (by decide))]
    exact Packet.pid_withPid _ nullPid_lt
  have hrest : Carries s s.insertEnd.1 ∧
      s.insertEnd.1.continuityCounters = s.continuityCounters ∧
      s.insertEnd.1.replication = s.replication := by
    unfold insertEnd
    dsimp only
    split_ifs <;> exact ⟨⟨rfl, rfl, rfl, fun _ h => h, fun h => h, fun h => h⟩, rfl, rfl⟩
  obtain ⟨hcarries, hcounters, hreplication⟩ := hrest
  refine ⟨hcarries, rfl, fun hne => absurd hpid hne, fun hne => absurd hpid hne, fun pid _ _ => ?_,
    (fun _ h => by cases h), fun _ => Or.inr (Or.inr (Or.inl hpid)),
    Or.inl ⟨hreplication, fun _ _ _ hne => absurd hpid hne⟩⟩
  rw [counter, counter, hcounters]

/-! ## What a pass puts into the caller's buffer -/

/-- A pass skips a null packet, puts in a packet the code has numbered, or a replica. -/
inductive Outcome (s : AdInsertion) : AdInsertion × Option Emission → Prop where
  | skipped {t : AdInsertion} (hcarries : Carries s t) (hreplication : t.replication = s.replication)
      (hcounters : t.continuityCounters = s.continuityCounters) : Outcome s (t, none)
  | sent {t : AdInsertion} {em : Emission}
      (hidle : ¬(s.replication.audioReplicationEnabled = true ∧
        s.replication.replicatingAudio = true))
      (hsent : Sent s t em) : Outcome s (t, some em)
  | replica (hbusy : s.replication.audioReplicationEnabled = true ∧
      s.replication.replicatingAudio = true) :
      Outcome s (s.insertReplica.1, some s.insertReplica.2)

/-- A packet is read, and a saved one may take its place. -/
theorem insertRead_outcome {packet : Packet} {reads : List Packet}
    (hidle : ¬(s.replication.audioReplicationEnabled = true ∧ s.replication.replicatingAudio = true))
    (hapart : s.setting.Replicates → s.setting.Apart)
    (hinside : s.nullFiller packet.pid = none → s.CutsInside packet)
    (hstored : s.setting.Replicates → ∀ ptr ∈ s.nullFiller packet.pid,
      s.StoredFits (s.b2b.packetAt ptr))
    (hpmtPid : s.insertPid packet = s.map.pmtPid → s.pmtPid = s.tables.pmtPid) :
    Outcome s ({ s with reads := reads }.insertRead packet) := by
  unfold insertRead
  rcases hfill : s.nullFiller packet.pid with _ | ptr
  · have hfill' : nullFiller { s with reads := reads } packet.pid = none := hfill
    simp only [hfill']
    split_ifs with hskip
    · exact .skipped ⟨rfl, rfl, rfl, fun _ h => h, fun h => h, fun h => h⟩ rfl rfl
    · have hmaps := mapPacket_maps (s := { s with reads := reads }) packet (hinside hfill)
        fun hpid => hpmtPid (by rw [insertPid, hfill]; exact hpid)
      have hsent := hmaps.send false hapart (fun _ => rfl) fun h => by cases h
      exact .sent hidle hsent.of_with
  · have hfill' : nullFiller { s with reads := reads } packet.pid = some ptr := hfill
    simp only [hfill']
    split_ifs with hskip
    · exact .skipped ⟨rfl, rfl, rfl, fun _ h => h, fun h => h, fun h => h⟩ rfl rfl
    · have hmaps := mapPacket_saved_maps
        (s := { s with reads := reads, b2b := s.b2b.fillNull }) (s.b2b.packetAt ptr)
        fun hpid => hpmtPid (by rw [insertPid, hfill]; exact hpid)
      have hsent := hmaps.send
        (s.replication.audioReplicationEnabled &&
          decide (s.replication.replicateAudioSrcPid ≠ -1)) hapart (fun h => by cases h)
        fun _ => ⟨?_, fun hreplicates => ?_⟩
      · exact .sent hidle hsent.of_with
      · rw [Bool.and_eq_true, decide_eq_true_eq]
        exact Iff.rfl
      · obtain ⟨htells, hsource, hcut⟩ := hstored hreplicates ptr hfill
        have hpid := mapPacket_saved_pid
          (s := { s with reads := reads, b2b := s.b2b.fillNull }) htells
        rw [hpid]
        exact ⟨hsource, htells.1, htells.2.2, hcut⟩

/-- **One pass.** -/
theorem insertOne_outcome (hpmt : s.PmtInside) (hapart : s.setting.Replicates → s.setting.Apart)
    (hcounts : s.PassCounts) : Outcome s s.insertOne := by
  by_cases hbusy :
      s.replication.audioReplicationEnabled = true ∧ s.replication.replicatingAudio = true
  · rw [insertOne, if_pos hbusy]
    exact .replica hbusy
  · rw [insertOne, if_neg hbusy]
    obtain ⟨hinside, hstored, hkept⟩ := hcounts
    rcases hdue : s.storedDue with _ | ptr
    · unfold insertOwn
      by_cases hpsi : s.psiInsertionIncomplete = true
      · rw [if_pos hpsi]
        exact .sent hbusy (insertPmtRest_sent hpmt hpsi (hkept ⟨hbusy, hdue, .inl hpsi⟩) hapart)
      · rw [if_neg hpsi]
        rcases hreads : s.reads with _ | ⟨packet, reads⟩
        · exact .sent hbusy insertEnd_sent
        · have hnext : s.nextRead = some packet := by
            simp [nextRead, hbusy, hdue, hpsi, hreads]
          refine insertRead_outcome hbusy hapart (hinside packet hnext)
            (fun hreplicates ptr hptr => ?_) fun hpid =>
              hkept ⟨hbusy, hdue, .inr ⟨packet, hnext, hpid⟩⟩
          refine hstored hreplicates ptr ?_
          rw [nextStored, if_neg hbusy, hdue, hnext]
          exact hptr
    · refine .sent hbusy (insertStored_sent fun hreplicates => hstored hreplicates ptr ?_)
      rw [nextStored, if_neg hbusy, hdue]
      rfl

/-- The two packets differ in their first byte at most. -/
structure Alike (a b : Emission) : Prop where
  pid : b.packet.pid = a.packet.pid
  payload : b.packet.hasPayload = a.packet.hasPayload
  continuity : b.packet.continuity = a.packet.continuity
  forced : b.forced = a.forced
  replica : b.replica = a.replica

/-- What is left to do in a pass leaves everything alone that counting depends on. -/
structure Finishes (t s' : AdInsertion) : Prop where
  setting : s'.setting = t.setting
  counters : s'.continuityCounters = t.continuityCounters
  map : s'.map = t.map
  trim : s'.trim = t.trim
  replication : s'.replication = t.replication
  pmt : t.PmtInside → s'.PmtInside
  damaged : s'.damaged = t.damaged

theorem Finishes.trans {t₁ t₂ t₃ : AdInsertion} (h : Finishes t₁ t₂) (h' : Finishes t₂ t₃) :
    Finishes t₁ t₃ :=
  ⟨h'.setting.trans h.setting, h'.counters.trans h.counters, h'.map.trans h.map,
    h'.trim.trans h.trim, h'.replication.trans h.replication, fun hpmt => h'.pmt (h.pmt hpmt),
    h'.damaged.trans h.damaged⟩

theorem checkDuration_finishes (t : AdInsertion) :
    Finishes t t.checkDuration ∧ t.checkDuration.inserted = t.inserted := by
  unfold checkDuration
  dsimp only
  split_ifs <;> exact ⟨⟨rfl, rfl, rfl, rfl, rfl, fun h => h, rfl⟩, rfl⟩

theorem checkEnd_finishes (t : AdInsertion) :
    Finishes t t.checkEnd ∧ t.checkEnd.inserted = t.inserted := by
  unfold checkEnd
  split_ifs <;> exact ⟨⟨rfl, rfl, rfl, rfl, rfl, fun h => h, rfl⟩, rfl⟩

theorem put_finishes (t : AdInsertion) (ttsInc : UInt32) (em : Emission) :
    Finishes t (t.put ttsInc em) ∧
      ∃ em', Alike em em' ∧ (t.put ttsInc em).inserted = t.inserted ++ [em'] := by
  refine ⟨⟨rfl, rfl, rfl, rfl, rfl, fun h => h, rfl⟩, _, ?_, rfl⟩
  split_ifs
  · have hbehind : ∀ i, 1 ≤ i → store em.packet 0 [0x47] i = em.packet i :=
      fun i hi => store_of_not_mem (Or.inr hi)
    exact ⟨Packet.pid_congr (hbehind 1 (by decide)) (hbehind 2 (by decide)),
      Packet.hasPayload_congr (hbehind 3 (by decide)),
      Packet.continuity_congr (hbehind 3 (by decide)), rfl, rfl⟩
  · exact ⟨rfl, rfl, rfl, rfl, rfl⟩

theorem insertPacket_skipped (h : s.insertOne = (t, none)) :
    Finishes t s.insertPacket ∧ s.insertPacket.inserted = t.inserted := by
  rw [insertPacket, h]
  obtain ⟨hcheck, hsame⟩ := checkDuration_finishes t
  obtain ⟨hend, hsame'⟩ := checkEnd_finishes t.checkDuration
  exact ⟨hcheck.trans hend, hsame'.trans hsame⟩

theorem insertPacket_put {em : Emission} (h : s.insertOne = (t, some em)) :
    Finishes t s.insertPacket ∧
      ∃ em', Alike em em' ∧ s.insertPacket.inserted = t.inserted ++ [em'] := by
  rw [insertPacket, h]
  obtain ⟨hcheck, hsame⟩ := checkDuration_finishes t
  obtain ⟨hput, em', halike, happend⟩ := put_finishes t.checkDuration s.ttsInc em
  obtain ⟨hend, hsame'⟩ := checkEnd_finishes (t.checkDuration.put s.ttsInc em)
  exact ⟨(hcheck.trans hput).trans hend, em', halike, by rw [hsame', happend, hsame]⟩

/-! ## Counting along a spot -/

/-- The counters of the packets of a spot: on each PID except that of null packets they go
up by one from one packet with a payload to the next, and by one more for each forced
discontinuity; and there is one of those at most for each stream of the ad. -/
structure CountersAdvance (s : AdInsertion) : Prop where
  countsUp : ∀ pid, pid ≠ nullPid → byPid.CountsUp pid s.inserted
  single : ((s.inserted.filter fun em => !em.replica).filterMap Emission.forced).Nodup
  /-- no packet has been written over after it was put in -/
  intact : s.damaged = false

/-- How far the replicas on a PID are behind their original: those that are still to come of
the packet being replicated are one packet behind. -/
def lag (s : AdInsertion) (index : ℕ) : ℕ :=
  if s.replication.replicatingAudio = true ∧ s.replication.replicateAudioIndex ≤ index then
    (if s.replication.replicateAudioPacket.packet.hasPayload then 1 else 0) +
      byPid.jump s.replication.replicateAudioPacket
  else 0

/-- What is due on each PID fits its counter, and on the PID of a replica, that of the
original. -/
structure Counted (s : AdInsertion) : Prop where
  pmt : s.PmtInside
  apart : s.setting.Replicates → s.setting.Apart
  own : ∀ pid, pid ≠ nullPid →
    (s.setting.Replicates → pid ∉ s.replication.replicateAudioTargetPids) →
      ∀ n ∈ byPid.due pid s.inserted, n % 16 = s.counter pid
  busy : s.replication.audioReplicationEnabled = true ∧ s.replication.replicatingAudio = true →
    s.setting.Replicates ∧
      s.replication.replicateAudioIndex < s.replication.replicateAudioTargetPids.length ∧
      s.setting.source ≠ 0 ∧ s.setting.source ≠ nullPid ∧
      s.replication.replicateAudioPacket.packet.continuity = s.counter s.setting.source
  replicas : s.setting.Replicates →
    (s.replication.replicatingAudio = true ∨ s.trim.maxAdAudioFrameCountReached = false) →
      ∀ (index : ℕ) (h : index < s.replication.replicateAudioTargetPids.length),
        ∀ n ∈ byPid.due s.replication.replicateAudioTargetPids[index] s.inserted,
          s.setting.source ≠ 0 ∧ s.setting.source ≠ nullPid ∧
            (n + s.lag index) % 16 = s.counter s.setting.source
  begun : ∀ em ∈ s.inserted, em.replica = false → ∀ adPid ∈ em.forced,
    s.map.needPayloadStart adPid = false
  advance : s.CountersAdvance

theorem counter_congr (h : s'.continuityCounters = s.continuityCounters) (pid : ℕ) :
    s'.counter pid = s.counter pid := by
  rw [counter, counter, h]

theorem lag_congr (h : s'.replication = s.replication) (index : ℕ) :
    s'.lag index = s.lag index := by
  rw [lag, lag, h]

/-- The setting holds the PIDs of the replicas. -/
theorem targets_congr (h : s'.setting = s.setting) :
    s'.replication.replicateAudioTargetPids = s.replication.replicateAudioTargetPids :=
  congrArg SpotSetting.replicateAudioTargetPids h

/-- A pass that skips a null packet. -/
theorem Counted.skipped (h : s.Counted) (hcarries : Carries s t)
    (hreplication : t.replication = s.replication)
    (hcounters : t.continuityCounters = s.continuityCounters) : t.Counted where
  pmt := hcarries.pmt h.pmt
  apart := by
    rw [hcarries.setting]
    exact h.apart
  own := by
    rw [hcarries.setting, hcarries.inserted, hreplication]
    intro pid hnull hfree n hn
    rw [counter_congr hcounters]
    exact h.own pid hnull hfree n hn
  busy := by
    rw [hcarries.setting, hreplication, counter_congr hcounters]
    exact h.busy
  replicas := by
    rw [hcarries.setting, hcarries.inserted, hreplication, counter_congr hcounters]
    intro hreplicates hgoing index hindex n hn
    rw [lag_congr hreplication]
    refine h.replicas hreplicates (hgoing.imp id fun hcut => ?_) index hindex n hn
    exact Bool.eq_false_iff.mpr fun hcut' => Bool.false_ne_true (hcut.symm.trans (hcarries.cut hcut'))
  begun := by
    rw [hcarries.inserted]
    exact fun em hem horiginal adPid hadPid =>
      hcarries.need adPid (h.begun em hem horiginal adPid hadPid)
  advance := by
    refine ⟨?_, ?_, hcarries.intact.trans h.advance.intact⟩
    · rw [hcarries.inserted]
      exact h.advance.countsUp
    · rw [hcarries.inserted]
      exact h.advance.single

/-- What finishes a pass. -/
theorem Counted.finished (h : t.Counted) (hfinish : Finishes t s')
    (hinserted : s'.inserted = t.inserted) : s'.Counted := by
  refine h.skipped ⟨hfinish.setting, hinserted, hfinish.damaged, fun adPid hneed => ?_,
    fun hcut => ?_, hfinish.pmt⟩ hfinish.replication hfinish.counters
  · rw [hfinish.map]
    exact hneed
  · rw [hfinish.trim]
    exact hcut

theorem next_alike {em em' : Emission} (h : Alike em em') (pid : ℕ) (due : Option ℕ) :
    byPid.next pid due em' = byPid.next pid due em := by
  have hkey : byPid.key em' = byPid.key em := h.pid
  have hcounts : byPid.counts em' = byPid.counts em := h.payload
  have hnumber : byPid.number em' = byPid.number em := h.continuity
  have hjump : byPid.jump em' = byPid.jump em := by simp only [byPid, h.forced]
  rw [Numbering.next, Numbering.next, hkey, hcounts, hnumber, hjump]

/-- The nothing-new part of what is due. -/
theorem mem_due_concat {items : List Emission} {em em' : Emission} (halike : Alike em em')
    {pid n : ℕ} (hn : n ∈ byPid.due pid (items ++ [em'])) :
    (em.packet.pid ≠ pid ∧ n ∈ byPid.due pid items) ∨
      em.packet.pid = pid ∧ (em.packet.hasPayload = true ∧ n = em.packet.continuity ∨
        em.packet.hasPayload = false ∧ ∃ n' ∈ byPid.due pid items, n = n' + byPid.jump em) := by
  rw [Numbering.due_concat, next_alike halike] at hn
  unfold Numbering.next at hn
  by_cases hkey : em.packet.pid = pid
  · rw [if_pos (show byPid.key em = pid from hkey)] at hn
    rcases hpay : em.packet.hasPayload with _ | _
    · rw [if_neg (show ¬ byPid.counts em = true by simp [byPid, hpay])] at hn
      obtain ⟨n', hn', rfl⟩ := Option.map_eq_some_iff.mp hn
      exact Or.inr ⟨hkey, Or.inr ⟨rfl, n', hn', rfl⟩⟩
    · rw [if_pos (show byPid.counts em = true from hpay)] at hn
      exact Or.inr ⟨hkey, Or.inl ⟨rfl, (Option.some.inj hn).symm⟩⟩
  · rw [if_neg (show ¬ byPid.key em = pid from hkey)] at hn
    exact Or.inl ⟨hkey, hn⟩

/-- A packet that goes on where its PID stands. -/
theorem CountersAdvance.concat {em em' : Emission} (h : s.CountersAdvance)
    (halike : Alike em em')
    (hnumber : em.packet.pid ≠ nullPid → em.packet.hasPayload = true →
      ∀ n ∈ byPid.due em.packet.pid s.inserted,
        em.packet.continuity = (n + 1 + byPid.jump em) % 16)
    (hforced : em.replica = false → ∀ adPid ∈ em.forced,
      ∀ other ∈ s.inserted, other.replica = false → adPid ∉ other.forced)
    (hinserted : t.inserted = s.inserted ++ [em']) (hdamaged : t.damaged = s.damaged) :
    t.CountersAdvance where
  countsUp := by
    intro pid hnull
    rw [hinserted]
    refine Numbering.countsUp_concat (h.countsUp pid hnull) fun hkey hcount n hn => ?_
    obtain rfl : em.packet.pid = pid := halike.pid.symm.trans hkey
    have hjump : byPid.jump em' = byPid.jump em := by simp only [byPid, halike.forced]
    show em'.packet.continuity = (n + 1 + byPid.jump em') % 16
    rw [halike.continuity, hjump]
    exact hnumber hnull (halike.payload.symm.trans hcount) n hn
  single := by
    rw [hinserted, List.filter_append, List.filterMap_append]
    refine List.nodup_append.mpr ⟨h.single, ?_, ?_⟩
    · rcases hreplica : em'.replica with _ | _
      · rcases hforce : em'.forced with _ | adPid <;> simp [hreplica, hforce]
      · simp [hreplica]
    · rintro adPid hbefore _ hnew rfl
      obtain ⟨other, hother, hadPid⟩ := List.mem_filterMap.mp hbefore
      obtain ⟨hmem, horiginal⟩ := List.mem_filter.mp hother
      obtain ⟨last, hlast, hadPid'⟩ := List.mem_filterMap.mp hnew
      obtain ⟨hlastMem, hlastOriginal⟩ := List.mem_filter.mp hlast
      obtain rfl := List.mem_singleton.mp hlastMem
      refine hforced ?_ adPid ?_ other hmem ?_ hadPid
      · rw [← halike.replica]
        simpa using hlastOriginal
      · rw [← halike.forced]
        exact hadPid'
      · simpa using horiginal
  intact := hdamaged.trans h.intact

/-- **A packet the code has numbered** keeps what is counted. -/
theorem Counted.sent {em em' : Emission} (h : s.Counted)
    (hidle : ¬(s.replication.audioReplicationEnabled = true ∧ s.replication.replicatingAudio = true))
    (hsent : Sent s t em) (halike : Alike em em') (hfinish : Finishes t s')
    (hinserted : s'.inserted = t.inserted ++ [em']) : s'.Counted := by
  have hsetting : s'.setting = s.setting := hfinish.setting.trans hsent.carries.setting
  have hitems : s'.inserted = s.inserted ++ [em'] := by rw [hinserted, hsent.carries.inserted]
  have htargets := targets_congr hsetting
  have hcounter : ∀ pid, s'.counter pid = t.counter pid := counter_congr hfinish.counters
  have hreplication := hfinish.replication
  -- the packet is on no replica's PID
  have hfree : s.setting.Replicates →
      em.packet.pid ∉ s.replication.replicateAudioTargetPids := by
    intro hreplicates hmem
    obtain ⟨hne₀, hnePmt, hneNull, hunmapped⟩ := (h.apart hreplicates).targets_free _ hmem
    rcases hsent.home hreplicates with h₀ | hp | hn | ⟨adPid, hadPid⟩
    · exact hne₀ h₀
    · exact hnePmt hp
    · exact hneNull hn
    · exact hunmapped adPid hadPid
  have hdue : ∀ n ∈ byPid.due em.packet.pid s.inserted, em.packet.pid ≠ nullPid →
      n % 16 = s.counter em.packet.pid := fun n hn hnull => h.own _ hnull hfree n hn
  refine ⟨fun hmore => hfinish.pmt (hsent.carries.pmt h.pmt) hmore, ?_, ?_, ?_, ?_, ?_, ?_⟩
  · rw [hsetting]
    exact h.apart
  · -- the PIDs with a counter of their own
    intro pid hnull hown n hn
    rw [hitems] at hn
    rw [hcounter]
    rw [hsetting, htargets] at hown
    rcases mem_due_concat halike hn with ⟨hne, hn⟩ | ⟨rfl, ⟨-, rfl⟩ | ⟨hpay, n', hn', rfl⟩⟩
    · rw [hsent.others pid hnull hne.symm]
      exact h.own pid hnull hown n hn
    · rw [hsent.number hnull, counter_mod]
    · have hstep := hsent.counter hnull
      have hbefore := hdue n' hn' hnull
      rw [hpay] at hstep
      simp only [Bool.false_eq_true, if_false] at hstep
      omega
  · -- a packet that is replicated
    rw [hreplication]
    intro hbusy
    rcases hsent.replication with ⟨hsame, -⟩ | ⟨hstart, hreplicates, hsource, hzero, hnull, -⟩
    · rw [hsame] at hbusy
      exact absurd hbusy hidle
    · rw [hstart, hsetting, hcounter]
      refine ⟨hreplicates, List.length_pos_iff.mpr (h.apart hreplicates).targets_ne, ?_, ?_, ?_⟩
      · rw [← hsource]
        exact hzero
      · rw [← hsource]
        exact hnull
      · rw [← hsource]
        exact hsent.number hnull
  · -- the PIDs of the replicas
    rw [hsetting, htargets, hcounter]
    intro hreplicates hgoing index hindex n hn
    rw [hreplication, hfinish.trim] at hgoing
    have hmem := List.getElem_mem hindex
    rw [hitems] at hn
    have hn : n ∈ byPid.due s.replication.replicateAudioTargetPids[index] s.inserted := by
      rcases mem_due_concat halike hn with ⟨-, hn⟩ | ⟨heq, -⟩
      · exact hn
      · exact absurd (heq ▸ hmem) (hfree hreplicates)
    have hquiet : s.replication.replicatingAudio = false :=
      Bool.eq_false_iff.mpr fun hbusy => hidle ⟨hreplicates.1, hbusy⟩
    have hlag : s.lag index = 0 := if_neg fun hbusy => Bool.false_ne_true (hquiet.symm.trans hbusy.1)
    rcases hsent.replication with ⟨hsame, hcut⟩ | ⟨hstart, -, hsource, hzero, hnull, hcut⟩
    · rw [hsame, hquiet] at hgoing
      have hnotCut : t.trim.maxAdAudioFrameCountReached = false := by
        simpa using hgoing
      have hnotCut' : s.trim.maxAdAudioFrameCountReached = false :=
        Bool.eq_false_iff.mpr fun hyes =>
          Bool.false_ne_true (hnotCut.symm.trans (hsent.carries.cut hyes))
      obtain ⟨hsource₀, hsourceNull, hcount⟩ :=
        h.replicas hreplicates (Or.inr hnotCut') index hindex n hn
      refine ⟨hsource₀, hsourceNull, ?_⟩
      have hother : s.setting.source ≠ em.packet.pid := by
        intro heq
        have := hcut hreplicates heq.symm (heq ▸ hsource₀) (heq ▸ hsourceNull)
        exact Bool.false_ne_true (hnotCut.symm.trans this)
      rw [hsent.others _ hsourceNull hother, lag_congr (hreplication.trans hsame)]
      exact hcount
    · obtain ⟨hsource₀, hsourceNull, hcount⟩ :=
        h.replicas hreplicates (Or.inr hcut) index hindex n hn
      refine ⟨hsource₀, hsourceNull, ?_⟩
      have hstep := hsent.counter hnull
      have hlag' : s'.lag index =
          (if em.packet.hasPayload then 1 else 0) + byPid.jump em := by
        rw [lag, hreplication, hstart]
        exact if_pos ⟨rfl, Nat.zero_le _⟩
      rw [hlag', ← hsource, hstep]
      rw [← hsource] at hcount
      omega
  · -- the streams that have begun
    rw [hitems, hfinish.map]
    intro other hother horiginal adPid hadPid
    rcases List.mem_append.mp hother with hbefore | hnew
    · exact hsent.carries.need adPid (h.begun other hbefore horiginal adPid hadPid)
    · obtain rfl := List.mem_singleton.mp hnew
      rw [halike.forced] at hadPid
      exact (hsent.forced adPid hadPid).2
  · refine h.advance.concat halike (fun hnull hpay n hn => ?_) (fun _ adPid hadPid other hother
      horiginal hforced => ?_) hitems (hfinish.damaged.trans hsent.carries.intact)
    · have hstep := hsent.counter hnull
      have hbefore := hdue n hn hnull
      rw [hpay, if_pos rfl] at hstep
      rw [hsent.number hnull, hstep]
      omega
    · have hbegun := h.begun other hother horiginal adPid hforced
      exact Bool.false_ne_true (hbegun.symm.trans (hsent.forced adPid hadPid).1)

/-- **A replica** has the number of its original. -/
theorem Counted.replica {em' : Emission} (h : s.Counted)
    (hbusy : s.replication.audioReplicationEnabled = true ∧ s.replication.replicatingAudio = true)
    (halike : Alike s.insertReplica.2 em') (hfinish : Finishes s.insertReplica.1 s')
    (hinserted : s'.inserted = s.insertReplica.1.inserted ++ [em']) : s'.Counted := by
  obtain ⟨hreplicates, hlt, hsource₀, hsourceNull, horiginal⟩ := h.busy hbusy
  have hapart := h.apart hreplicates
  have hsetting : s'.setting = s.setting := hfinish.setting
  have htargets := targets_congr hsetting
  have hcounter : ∀ pid, s'.counter pid = s.counter pid :=
    fun pid => counter_congr hfinish.counters pid
  have hitems : s'.inserted = s.inserted ++ [em'] := hinserted
  -- the packet goes to the next of the PIDs
  have htarget : s.insertReplica.2.packet.pid =
      s.replication.replicateAudioTargetPids[s.replication.replicateAudioIndex] := by
    have hget : s.replication.replicateAudioTargetPids.getD s.replication.replicateAudioIndex 0 =
        s.replication.replicateAudioTargetPids[s.replication.replicateAudioIndex] :=
      List.getD_eq_getElem _ _ hlt
    show (Packet.withPid _ _).pid = _
    rw [hget]
    exact Packet.pid_withPid _ (hapart.targets_lt _ (List.getElem_mem hlt))
  have hmem : s.insertReplica.2.packet.pid ∈ s.replication.replicateAudioTargetPids :=
    htarget ▸ List.getElem_mem hlt
  have hpay : s.insertReplica.2.packet.hasPayload =
      s.replication.replicateAudioPacket.packet.hasPayload :=
    Packet.hasPayload_congr (Packet.withPid_three _
      (s.replication.replicateAudioTargetPids.getD s.replication.replicateAudioIndex 0))
  have hnumber : s.insertReplica.2.packet.continuity = s.counter s.setting.source :=
    (Packet.continuity_congr (Packet.withPid_three _
      (s.replication.replicateAudioTargetPids.getD s.replication.replicateAudioIndex 0))).trans
      horiginal
  have hjump : byPid.jump s.insertReplica.2 = byPid.jump s.replication.replicateAudioPacket := rfl
  have hlag : ∀ index, s.replication.replicateAudioIndex ≤ index → s.lag index =
      (if s.replication.replicateAudioPacket.packet.hasPayload then 1 else 0) +
        byPid.jump s.replication.replicateAudioPacket :=
    fun index hle => if_pos ⟨hbusy.2, hle⟩
  have hdue : ∀ n ∈ byPid.due s.insertReplica.2.packet.pid s.inserted,
      (n + ((if s.replication.replicateAudioPacket.packet.hasPayload then 1 else 0) +
        byPid.jump s.replication.replicateAudioPacket)) % 16 = s.counter s.setting.source := by
    intro n hn
    rw [htarget] at hn
    obtain ⟨-, -, hcount⟩ := h.replicas hreplicates (Or.inl hbusy.2) _ hlt n hn
    rwa [hlag _ (Nat.le_refl _)] at hcount
  have hreplication := hfinish.replication
  refine ⟨fun hmore => hfinish.pmt h.pmt hmore, ?_, ?_, ?_, ?_, ?_, ?_⟩
  · rw [hsetting]
    exact h.apart
  · intro pid hnull hown n hn
    rw [hitems] at hn
    rw [hcounter]
    rw [hsetting, htargets] at hown
    rcases mem_due_concat halike hn with ⟨-, hn⟩ | ⟨rfl, -⟩
    · exact h.own pid hnull hown n hn
    · exact absurd hmem (hown hreplicates)
  · rw [hreplication, hsetting, hcounter]
    exact fun hbusy' => ⟨hreplicates, of_decide_eq_true hbusy'.2, hsource₀, hsourceNull, horiginal⟩
  · rw [hsetting, htargets, hcounter]
    intro _ _ index hindex n hn
    refine ⟨hsource₀, hsourceNull, ?_⟩
    have hlag' : s'.lag index =
        if s.replication.replicateAudioIndex + 1 ≤ index then
          (if s.replication.replicateAudioPacket.packet.hasPayload then 1 else 0) +
            byPid.jump s.replication.replicateAudioPacket
        else 0 := by
      rw [lag, hreplication]
      refine if_congr ⟨fun hgoing => hgoing.2, fun hle => ⟨decide_eq_true ?_, hle⟩⟩ rfl rfl
      exact Nat.lt_of_le_of_lt hle hindex
    rw [hitems] at hn
    rcases mem_due_concat halike hn with ⟨hne, hn⟩ | ⟨heq, hnew⟩
    · -- another replica's PID
      obtain ⟨-, -, hcount⟩ := h.replicas hreplicates (Or.inl hbusy.2) index hindex n hn
      have hindexNe : index ≠ s.replication.replicateAudioIndex := by
        rintro rfl
        exact hne htarget
      rw [hlag']
      by_cases hle : s.replication.replicateAudioIndex + 1 ≤ index
      · rw [if_pos hle]
        rwa [hlag index (Nat.le_of_succ_le hle)] at hcount
      · rw [if_neg hle]
        have hbefore : ¬ s.replication.replicateAudioIndex ≤ index := by omega
        rwa [lag, if_neg fun hgoing => hbefore hgoing.2] at hcount
    · -- this replica's PID
      have hindexEq : index = s.replication.replicateAudioIndex :=
        (List.Nodup.getElem_inj_iff hapart.targets_nodup).mp (heq.symm.trans htarget)
      subst hindexEq
      rw [hlag', if_neg (Nat.not_succ_le_self _), Nat.add_zero]
      rcases hnew with ⟨-, rfl⟩ | ⟨hnoPay, n', hn', rfl⟩
      · rw [hnumber, counter_mod]
      · have hcount := hdue n' (heq ▸ hn')
        rw [hpay] at hnoPay
        rw [hnoPay] at hcount
        rw [hjump]
        simpa using hcount
  · rw [hitems, hfinish.map]
    intro other hother horiginalOther adPid hadPid
    rcases List.mem_append.mp hother with hbefore | hnew
    · exact h.begun other hbefore horiginalOther adPid hadPid
    · obtain rfl := List.mem_singleton.mp hnew
      cases halike.replica.symm.trans horiginalOther
  · refine h.advance.concat halike (fun _ hnewPay n hn => ?_) (fun horiginalNew => ?_) hitems
      hfinish.damaged
    · have hcount := hdue n hn
      rw [hpay] at hnewPay
      rw [hnewPay, if_pos rfl] at hcount
      rw [hnumber, hjump, ← hcount, Nat.add_assoc]
    · cases horiginalNew

/-- What is fixed for the spot stays as it is. -/
theorem insertPacket_setting (h : s.Counted) (hcounts : s.PassCounts) :
    s.insertPacket.setting = s.setting := by
  have houtcome := insertOne_outcome h.pmt h.apart hcounts
  generalize hone : s.insertOne = out at houtcome
  cases houtcome with
  | skipped hcarries => exact (insertPacket_skipped hone).1.setting.trans hcarries.setting
  | sent _ hsent => exact (insertPacket_put hone).1.setting.trans hsent.carries.setting
  | replica => exact (insertPacket_put hone).1.setting

/-- **A pass keeps what is counted.** -/
theorem Counted.pass (h : s.Counted) (hcounts : s.PassCounts) : s.insertPacket.Counted := by
  have houtcome := insertOne_outcome h.pmt h.apart hcounts
  generalize hone : s.insertOne = out at houtcome
  cases houtcome with
  | skipped hcarries hreplication hcounters =>
    obtain ⟨hfinish, hinserted⟩ := insertPacket_skipped hone
    exact (h.skipped hcarries hreplication hcounters).finished hfinish hinserted
  | sent hidle hsent =>
    obtain ⟨hfinish, em', halike, hinserted⟩ := insertPacket_put hone
    exact h.sent hidle hsent halike hfinish hinserted
  | replica hbusy =>
    obtain ⟨hfinish, em', halike, hinserted⟩ := insertPacket_put hone
    exact h.replica hbusy halike hfinish hinserted

/-! ## A whole spot -/

/-- A step of a spot that counts. -/
def StepCounts (s : AdInsertion) : Event → Prop
  | .pass => s.PassCounts
  | .call _ => True
  | .elsewhere _ => True
  | .start _ => False

instance (s : AdInsertion) : ∀ e, Decidable (s.StepCounts e)
  | .pass => inferInstanceAs (Decidable s.PassCounts)
  | .call _ => isTrue trivial
  | .elsewhere _ => isTrue trivial
  | .start _ => isFalse id

/-- What holds along a spot: it counts while it is on. -/
structure InSpot (s : AdInsertion) : Prop where
  inside : 0 < s.room → s.mapping = true
  counted : s.mapping = true → s.Counted
  advance : s.CountersAdvance

/-- A step that keeps everything that counting depends on. -/
theorem InSpot.outside (h : s.InSpot) (hinside : 0 < s'.room → s'.mapping = true)
    (hcounted : s'.mapping = true → s.mapping = true ∧ (s.Counted → s'.Counted))
    (hinserted : s'.inserted = s.inserted) (hdamaged : s'.damaged = s.damaged) : s'.InSpot where
  inside := hinside
  counted := fun hmapping =>
    (hcounted hmapping).2 (h.counted (hcounted hmapping).1)
  advance :=
    ⟨by rw [hinserted]; exact h.advance.countsUp, by rw [hinserted]; exact h.advance.single,
      hdamaged.trans h.advance.intact⟩

theorem savePackets_output {block : ℕ} {packets : List Packet} :
    ∀ {s : AdInsertion}, (savePackets block s packets).inserted = s.inserted ∧
      (savePackets block s packets).damaged = s.damaged ∧
      (savePackets block s packets).room = s.room := by
  induction packets with
  | nil =>
    intro s
    exact ⟨rfl, rfl, rfl⟩
  | cons packet packets ih =>
    intro s
    have hone : (s.savePacket block packet).inserted = s.inserted ∧
        (s.savePacket block packet).damaged = s.damaged ∧
        (s.savePacket block packet).room = s.room := by
      unfold savePacket
      dsimp only
      split_ifs <;> exact ⟨rfl, rfl, rfl⟩
    unfold savePackets
    split_ifs
    · dsimp only
      split_ifs
      · exact hone
      · obtain ⟨h₁, h₂, h₃⟩ := ih (s := s.savePacket block packet)
        exact ⟨h₁.trans hone.1, h₂.trans hone.2.1, h₃.trans hone.2.2⟩
    · exact ⟨rfl, rfl, rfl⟩

/-- Saving puts nothing into the caller's buffer. -/
theorem saveAudio_output (allocated : Bool) (packets : List Packet) :
    (s.saveAudio allocated packets).inserted = s.inserted ∧
      (s.saveAudio allocated packets).damaged = s.damaged ∧
      (s.saveAudio allocated packets).room = s.room := by
  unfold saveAudio
  dsimp only
  split_ifs
  · exact ⟨rfl, rfl, rfl⟩
  · exact savePackets_output
  · exact ⟨rfl, rfl, rfl⟩

/-- **One step of a spot.** -/
theorem InSpot.step {e : Event} (h : s.InSpot) (hcounts : s.StepCounts e)
    (hstep : s.step e = some s') : s'.InSpot := by
  cases e with
  | call c =>
    obtain ⟨hroom, rfl⟩ := step_call.mp hstep
    unfold enter
    dsimp only
    split_ifs with hcut hmapping
    · -- the spot is over
      obtain ⟨hinserted, hdamaged, hsame⟩ :=
        saveAudio_output (s := { s with around := c.around }) c.allocated c.reads
      refine h.outside (fun hpos => ?_) (fun hmapping => ?_) hinserted hdamaged
      · exact absurd (hsame ▸ hpos) (by rw [show _ = 0 from hroom]; exact Nat.lt_irrefl 0)
      · cases hmapping
    · exact h.outside (fun _ => hmapping) (fun _ => ⟨hmapping, fun hcounted =>
        ⟨hcounted.pmt, hcounted.apart, hcounted.own, hcounted.busy, hcounted.replicas,
          hcounted.begun, ⟨hcounted.advance.countsUp, hcounted.advance.single,
            hcounted.advance.intact⟩⟩⟩) rfl rfl
    · exact h.outside (fun hpos => h.inside hpos) (fun hmapping' => absurd hmapping' hmapping)
        rfl rfl
  | pass =>
    obtain ⟨hroom, rfl⟩ := step_pass.mp hstep
    have hmapping := h.inside hroom
    have hcounted := (h.counted hmapping).pass hcounts
    refine ⟨fun _ => ?_, fun _ => hcounted, hcounted.advance⟩
    have hsetting := insertPacket_setting (h.counted hmapping) hcounts
    exact (congrArg SpotSetting.mapping hsetting).trans hmapping
  | elsewhere t =>
    obtain ⟨hroom, rfl⟩ := step_elsewhere.mp hstep
    refine h.outside (fun hpos => absurd hpos (Nat.lt_irrefl 0)) (fun hmapping => ?_) rfl rfl
    obtain ⟨hon, -⟩ := (Bool.and_eq_true _ _).mp hmapping
    refine ⟨hon, fun hcounted => hcounted.skipped ?_ rfl rfl⟩
    have hsetting : (s.elsewhere t).setting = s.setting := by
      have hsame : (s.elsewhere t).mapping = s.mapping := hmapping.trans hon.symm
      unfold setting
      rw [hsame]
      rfl
    exact ⟨hsetting, rfl, rfl, fun _ h => h, fun h => h, fun h => h⟩
  | start t => exact hcounts.elim

/-- A spot as it begins. -/
structure SpotBegins (s : AdInsertion) : Prop where
  room : s.room = 0
  inserted : s.inserted = []
  intact : s.damaged = false
  psi : s.psiInsertionIncomplete = false
  idle : s.replication.replicatingAudio = false

theorem SpotBegins.counted (h : s.SpotBegins)
    (hapart : s.setting.Replicates → s.setting.Apart) : s.Counted where
  pmt := fun hpsi => absurd (h.psi.symm.trans hpsi) Bool.false_ne_true
  apart := hapart
  own := by
    rw [h.inserted]
    intro pid _ _ n hn
    cases hn
  busy := fun hbusy => absurd (h.idle.symm.trans hbusy.2) Bool.false_ne_true
  replicas := by
    rw [h.inserted]
    intro _ _ index hindex n hn
    cases hn
  begun := by
    rw [h.inserted]
    intro em hem
    cases hem
  advance := by
    refine ⟨fun pid _ => ?_, ?_, h.intact⟩
    · rw [h.inserted]
      exact Numbering.countsUp_nil
    · rw [h.inserted]
      exact List.nodup_nil

/-- **Continuity counters in a spot.** They advance as long as the saved audio that is
replicated belongs to the stream that is, and is taken out before that stream is cut off, and
the programme's PMT keeps its PID while packets of it go out. -/
theorem counters_advance {s₀ s : AdInsertion} {events : List Event} (h₀ : s₀.SpotBegins)
    (hapart : s₀.setting.Replicates → s₀.setting.Apart)
    (hcounts : EachStep AdInsertion.step StepCounts s₀ events)
    (hrun : runFrom AdInsertion.step s₀ events = some s) : s.CountersAdvance := by
  have hcounted := h₀.counted hapart
  have hspot : s₀.InSpot :=
    ⟨fun hpos => absurd hpos (by rw [h₀.room]; exact Nat.lt_irrefl 0), fun _ => hcounted,
      hcounted.advance⟩
  exact (EachStep.invariant (I := InSpot) (fun _ _ _ h hP hs => h.step hP hs) hcounts hspot
    hrun).advance

/-- The spot behind an ad that has left a packet of audio on 0x32. The ad's stream `src` is
replicated to 0x34. -/
def splicedSpot (src : ℤ) : AdInsertion :=
  (cuttingOff.getInsertionData ⟨quietSurroundings, [payloadPacket 0x52 1], 4, true⟩).start
    { nextSpot with replication := ⟨true, false, src, [0x34], 0, ⟨nullPacket, none, false⟩⟩ }

theorem splicedSpot_begins (src : ℤ) : (splicedSpot src).SpotBegins := ⟨rfl, rfl, rfl, rfl, rfl⟩

theorem splicedSpot_apart (src : ℕ) (h : 0x52 ≤ src ∧ src ≤ 0x53) :
    (splicedSpot src).setting.Apart := by
  have hsource : (splicedSpot src).setting.source = src - 0x20 := by
    show (if 0x51 ≤ (src : ℤ).toNat ∧ (src : ℤ).toNat ≤ 0x53 then (src : ℤ).toNat - 0x20 else 0) = _
    rw [Int.toNat_natCast]
    exact if_pos ⟨by omega, h.2⟩
  refine ⟨List.cons_ne_nil _ _, List.nodup_singleton _, fun pid hpid => ?_, fun pid hpid => ?_,
    ?_, ?_, ?_, fun _ adPid hadPid => ?_⟩
  · obtain rfl : pid = 0x34 := List.mem_singleton.mp hpid
    decide
  · obtain rfl : pid = 0x34 := List.mem_singleton.mp hpid
    refine ⟨by decide, ?_, by decide, fun adPid => ?_⟩
    · show (0x34 : ℕ) ≠ 0x30
      decide
    show (if 0x51 ≤ adPid ∧ adPid ≤ 0x53 then adPid - 0x20 else 0) ≠ 0x34
    split_ifs <;> omega
  · show (0 : ℤ) < src
    omega
  · show (src : ℤ) ≠ 0x50
    omega
  · rw [hsource]
    show src - 0x20 ≠ 0x30
    omega
  · rw [hsource] at hadPid
    have hmap : (if 0x51 ≤ adPid ∧ adPid ≤ 0x53 then adPid - 0x20 else 0) = src - 0x20 := hadPid
    show (adPid : ℤ) = src
    split_ifs at hmap <;> omega

/-- The packet that was saved belongs to the stream that is replicated. -/
theorem counters_advance_oneStream :
    ∃ s, runFrom AdInsertion.step (splicedSpot 0x52)
      [callWith [nullPacket, payloadPacket 0x52 2] 4, .pass, .pass, .pass, .pass] = some s ∧
      s.CountersAdvance ∧ s.inserted.map (fun em => em.packet.continuity) = [1, 1, 2, 2] := by
  have h : (runFrom AdInsertion.step (splicedSpot 0x52)
      [callWith [nullPacket, payloadPacket 0x52 2] 4, .pass, .pass, .pass, .pass]).any fun s =>
        decide (s.inserted.map (fun em => em.packet.continuity) = [1, 1, 2, 2]) := by
    decide +kernel
  obtain ⟨s, hrun, hs⟩ := (Option.any_eq_true _ _).mp h
  exact ⟨s, hrun, counters_advance (splicedSpot_begins _)
    (fun _ => splicedSpot_apart 0x52 (by decide)) (by decide +kernel) hrun,
    of_decide_eq_true hs⟩

/-- The packet that was saved belongs to another stream: on 0x34, it repeats the number of
the packet before it. -/
theorem otherStream_repeats :
    (splicedSpot 0x53).SpotBegins ∧ (splicedSpot 0x53).setting.Apart ∧
      ∃ s, runFrom AdInsertion.step (splicedSpot 0x53)
        [callWith [payloadPacket 0x53 2, nullPacket] 4, .pass, .pass, .pass, .pass] = some s ∧
        ¬ s.CountersAdvance := by
  refine ⟨splicedSpot_begins _, splicedSpot_apart 0x53 (by decide), ?_⟩
  have h : (runFrom AdInsertion.step (splicedSpot 0x53)
      [callWith [payloadPacket 0x53 2, nullPacket] 4, .pass, .pass, .pass, .pass]).any fun s =>
        decide (s.inserted.map (fun em =>
            (em.packet.pid, em.packet.hasPayload, em.packet.continuity, em.forced)) =
          [(0x33, true, 1, none), (0x34, true, 1, none), (0x32, true, 1, none),
            (0x34, true, 1, none)]) := by
    decide +kernel
  obtain ⟨s, hrun, hs⟩ := (Option.any_eq_true _ _).mp h
  refine ⟨s, hrun, fun hadvance => ?_⟩
  have hs := of_decide_eq_true hs
  rcases hitems : s.inserted with _ | ⟨a, _ | ⟨b, _ | ⟨c, _ | ⟨d, _ | ⟨e, rest⟩⟩⟩⟩⟩ <;>
    simp only [hitems, List.map_cons, List.map_nil, List.cons.injEq, Prod.mk.injEq, reduceCtorEq,
      and_false, and_true] at hs
  obtain ⟨-, ⟨hb, hbPay, hbNumber, -⟩, ⟨hc, hcPay, -, -⟩, hd, hdPay, hdNumber, hdForced⟩ := hs
  have hsplit : s.inserted = [a] ++ b :: ([c] ++ d :: []) := hitems
  have hcount := hadvance.countsUp 0x34 (by decide) hsplit hb hd hbPay hdPay fun item hitem hkey => by
      obtain rfl := List.mem_singleton.mp hitem
      exact absurd (hc.symm.trans hkey) (by decide)
  have hjumps : byPid.jumps 0x34 ([c] ++ [d]) = 0 := by
    simp [Numbering.jumps, byPid, hc, hd, hdForced]
  rw [hjumps] at hcount
  exact absurd hcount (by
    show ¬ d.packet.continuity = (b.packet.continuity + 1 + 0) % 16
    rw [hdNumber, hbNumber]
    decide)

end AdInsertion

end MediaFramework
