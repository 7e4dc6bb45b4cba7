import Mathlib.Data.Int.Notation
import MediaFramework.Lib.Offer
import MediaFramework.Lib.Run

/-!
# Reassembling broadcasts of a DSG tunnel

A broadcast section comes in segments. A segment is offered to the accumulators in order: one
that is idle, or whose reassembly has timed out, begins anew with whatever segment it is
offered, and one that is collecting takes the segments of its broadcast.

What is dispatched is always a broadcast as it was sent. But an idle accumulator that stands
before the one that is collecting a broadcast takes the next segment of it, and the broadcast is
lost. So a broadcast is sure to be dispatched only as long as that does not happen.
-/

namespace MediaFramework

/-- A byte. -/
abbrev Octet := BitVec 8

/-! ## Segments -/

/-- `VL_DSG_BT_HEADER`. -/
structure BtHeader where
  nHeaderStart : Octet
  nVersion : Octet
  lastSegment : Octet
  segmentNumber : Octet
  segmentId : BitVec 16

/-- `vlParseDsgBtHeader`. -/
def parseDsgBtHeader (payload : List Octet) : BtHeader :=
  let octet (i : ℕ) : Octet := payload.getD i 0
  { nHeaderStart := octet 0
    nVersion := (octet 1 >>> 5) &&& 0x7
    lastSegment := (octet 1 >>> 4) &&& 0x1
    segmentNumber := octet 1 &&& 0xF
    segmentId := octet 2 ++ octet 3 }

/-- What tells broadcasts apart. -/
structure BroadcastId where
  nClientId : BitVec 64 := 0
  srcIpAddress : BitVec 64 := 0
  dstIpAddress : BitVec 64 := 0
  nSrcPort : BitVec 16 := 0
  nDstPort : BitVec 16 := 0
  segmentId : BitVec 16 := 0
  deriving DecidableEq

/-- A packet of a broadcast tunnel, and when it comes. -/
structure BtPacket where
  nClientId : BitVec 64
  srcIpAddress : BitVec 64 := 0
  dstIpAddress : BitVec 64 := 0
  nSrcPort : BitVec 16 := 0
  nDstPort : BitVec 16 := 0
  payload : List Octet
  /-- what `time` returns -/
  now : ℕ := 0
  /-- there is memory, should the buffer have to grow -/
  memory : Bool := true

namespace BtPacket

variable (p : BtPacket)

/-- `btHeader`. -/
def header : BtHeader := parseDsgBtHeader p.payload

/-- `pBcastBuf`. -/
def data : List Octet := p.payload.drop 4

/-- The number of the segment. -/
def number : ℕ := p.header.segmentNumber.toNat

/-- It is the last segment. -/
def last : Bool := p.header.lastSegment != 0

/-- The broadcast of the segment. -/
def id : BroadcastId :=
  { nClientId := p.nClientId, srcIpAddress := p.srcIpAddress, dstIpAddress := p.dstIpAddress
    nSrcPort := p.nSrcPort, nDstPort := p.nDstPort, segmentId := p.header.segmentId }

/-- The packet has the header of a segment. -/
def IsSegment : Prop :=
  4 ≤ p.payload.length ∧ p.header.nHeaderStart = 0xFF ∧ p.header.nVersion = 1

instance : Decidable p.IsSegment := inferInstanceAs (Decidable (_ ∧ _))

theorem IsSegment.head_ne {p : BtPacket} (h : p.IsSegment) : p.payload.head? ≠ some 0x11 := by
  obtain ⟨-, hstart, -⟩ := h
  unfold header parseDsgBtHeader at hstart
  intro heq
  rcases hpayload : p.payload with _ | ⟨b, bs⟩
  · rw [hpayload] at heq
    cases heq
  · rw [hpayload] at heq hstart
    obtain rfl : b = 0x11 := Option.some.inj heq
    have hstart : (0x11 : Octet) = 0xFF := hstart
    exact absurd hstart (by decide)

end BtPacket

/-! ## Accumulators -/

/-- `VL_DSG_BCAST_REASSEMBLY_TIMEOUT`, in seconds. -/
abbrev bcastReassemblyTimeout : ℕ := 60

/-- `VL_DSG_SECTION_GROWTH_SIZE`. -/
abbrev sectionGrowthSize : ℕ := 0x1100

/-- The most bytes a section may have. -/
abbrev maxSectionBytes : ℕ := 0x5000

/-- `VL_DSG_ACC_RESULT`. -/
inductive AccResult
  | noMatch
  | added
  | error
  | dispatched
  deriving DecidableEq

/-- The difference of the two times, which is unsigned, is more than the timeout. -/
def TimedOut (timeout startTime now : ℕ) : Prop :=
  now < startTime ∨ timeout < now - startTime

instance (timeout startTime now : ℕ) : Decidable (TimedOut timeout startTime now) :=
  inferInstanceAs (Decidable (_ ∨ _))

/-- The capacity of a buffer after it has grown for so many bytes, in so many rounds at most. -/
def growCapacity (growth bytes : ℕ) : ℕ → ℕ → ℕ
  | 0, capacity => capacity
  | rounds + 1, capacity =>
    if capacity < bytes then growCapacity growth bytes rounds (capacity + growth) else capacity

/-- `VL_DSG_BCAST_ACCUMULATOR`. -/
structure BcastAccumulator where
  id : BroadcastId := {}
  iSegmentNumber : ℤ := -1
  bStartedAccumulation : Bool := false
  /-- the first `nBytesAccumulated` bytes of `pSection` -/
  pSection : List Octet := []
  nBytesCapacity : ℕ := 0
  startTime : ℕ

namespace BcastAccumulator

variable (a : BcastAccumulator) (p : BtPacket)

/-- The accumulator may begin anew. -/
def Free (now : ℕ) : Prop :=
  a.bStartedAccumulation = false ∨ TimedOut bcastReassemblyTimeout a.startTime now

instance (now : ℕ) : Decidable (a.Free now) := inferInstanceAs (Decidable (_ ∨ _))

/-- The accumulator takes the segment: it is free, or collecting the broadcast. -/
def Takes : Prop := a.Free p.now ∨ p.id = a.id

instance : Decidable (a.Takes p) := inferInstanceAs (Decidable (_ ∨ _))

/-- Whether the accumulator takes the segment. -/
def takes : Bool := decide (a.Takes p)

theorem takes_iff {a : BcastAccumulator} {p : BtPacket} : a.takes p = true ↔ a.Takes p :=
  decide_eq_true_iff

/-- The accumulator is collecting the broadcast of the segment. -/
def Collects : Prop := ¬ a.Free p.now ∧ p.id = a.id

instance : Decidable (a.Collects p) := inferInstanceAs (Decidable (_ ∧ _))

/-- The accumulator begins anew with a broadcast. -/
def begin : BcastAccumulator :=
  { a with
    id := p.id, bStartedAccumulation := true, pSection := [], iSegmentNumber := -1
    startTime := p.now }

/-- The buffer grows for so many bytes, if there is memory. -/
def grow (bytes : ℕ) (memory : Bool) : Option BcastAccumulator :=
  if a.nBytesCapacity < bytes then
    if memory then
      some { a with
        nBytesCapacity := growCapacity sectionGrowthSize bytes bytes a.nBytesCapacity }
    else none
  else some a

/-- `vlDsgAddToBcastAccumulator`, for an accumulator that takes the segment. In the last place
what is dispatched. -/
def accumulate : AccResult × BcastAccumulator × Option (List Octet) :=
  if a.iSegmentNumber + 1 ≠ p.number then (.added, a, none)
  else
    let a := { a with iSegmentNumber := p.number }
    if maxSectionBytes < a.pSection.length + p.data.length then
      (.error, { a with pSection := [] }, none)
    else
      match a.grow (a.pSection.length + p.data.length) p.memory with
      | none => (.error, a, none)
      | some a =>
        let a := { a with pSection := a.pSection ++ p.data }
        if a.nBytesCapacity < a.pSection.length then (.error, a, none)
        else if p.last then (.dispatched, a, some a.pSection)
        else (.added, a, none)

/-- `vlDsgAddToBcastAccumulator`. -/
def add : AccResult × BcastAccumulator × Option (List Octet) :=
  if a.Free p.now then (a.begin p).accumulate p
  else if p.id ≠ a.id then (.noMatch, a, none)
  else a.accumulate p

/-- The accumulator becomes idle. -/
def reset (now : ℕ) : BcastAccumulator :=
  { a with
    bStartedAccumulation := false, pSection := [], iSegmentNumber := -1, startTime := now }

/-- The accumulator as it is when it looks at the segment. -/
def ready : BcastAccumulator := if a.Free p.now then a.begin p else a

/-- The accumulator with the segment put behind what it has. -/
def append (capacity : ℕ) : BcastAccumulator :=
  { a with
    iSegmentNumber := p.number, pSection := a.pSection ++ p.data, nBytesCapacity := capacity }

section Accumulate

variable {a : BcastAccumulator} {p : BtPacket}

theorem le_growCapacity {growth bytes : ℕ} (hgrowth : 0 < growth) :
    ∀ rounds capacity : ℕ, bytes ≤ capacity + rounds →
      bytes ≤ growCapacity growth bytes rounds capacity
  | 0, _, h => h
  | rounds + 1, capacity, h => by
    unfold growCapacity
    split
    · exact le_growCapacity hgrowth rounds _ (by omega)
    · omega

/-- With memory the buffer gets as large as it has to be. -/
theorem grow_of_memory (a : BcastAccumulator) (bytes : ℕ) :
    ∃ capacity, bytes ≤ capacity ∧
      a.grow bytes true = some { a with nBytesCapacity := capacity } := by
  unfold grow
  by_cases hless : a.nBytesCapacity < bytes
  · rw [if_pos hless, if_pos rfl]
    exact ⟨_, le_growCapacity (by decide) _ _ (by omega), rfl⟩
  · rw [if_neg hless]
    exact ⟨a.nBytesCapacity, by omega, rfl⟩

/-- A segment out of order is passed over. -/
theorem accumulate_of_ne (h : a.iSegmentNumber + 1 ≠ p.number) :
    a.accumulate p = (.added, a, none) := if_pos h

/-- **The next segment** is put behind what there is, and the last one makes it a section. -/
theorem accumulate_of_eq (h : a.iSegmentNumber + 1 = p.number)
    (hfits : a.pSection.length + p.data.length ≤ maxSectionBytes) (hmemory : p.memory = true) :
    ∃ capacity, a.accumulate p =
      if p.last then (.dispatched, a.append p capacity, some (a.append p capacity).pSection)
      else (.added, a.append p capacity, none) := by
  obtain ⟨capacity, hle, hgrow⟩ := grow_of_memory { a with iSegmentNumber := p.number }
    (a.pSection.length + p.data.length)
  refine ⟨capacity, ?_⟩
  unfold accumulate
  rw [if_neg (not_not.mpr h)]
  rw [if_neg (Nat.not_lt.mpr hfits), hmemory, hgrow]
  dsimp only
  rw [List.length_append, if_neg (Nat.not_lt.mpr hle)]
  rfl

theorem accumulate_ne_noMatch (a : BcastAccumulator) (p : BtPacket) :
    (a.accumulate p).1 ≠ .noMatch := by
  unfold accumulate
  dsimp only
  repeat' split
  all_goals exact fun heq => AccResult.noConfusion heq

theorem grow_id {bytes : ℕ} {memory : Bool} {b : BcastAccumulator}
    (h : a.grow bytes memory = some b) : b.id = a.id := by
  unfold grow at h
  split at h
  · split at h
    · cases h
      rfl
    · cases h
  · cases h
    rfl

theorem accumulate_id (a : BcastAccumulator) (p : BtPacket) :
    (a.accumulate p).2.1.id = a.id := by
  unfold accumulate
  dsimp only
  split
  · rfl
  split
  · rfl
  split
  · rfl
  · rename_i b hgrow
    have hid := grow_id hgrow
    split
    · exact hid
    · split
      · exact hid
      · exact hid

/-- An accumulator that takes the segment looks at it. -/
theorem add_of_takes (h : a.Takes p) : a.add p = (a.ready p).accumulate p := by
  unfold add ready
  by_cases hfree : a.Free p.now
  · rw [if_pos hfree, if_pos hfree]
  · rw [if_neg hfree, if_neg hfree, if_neg (not_not.mpr (h.resolve_left hfree))]

theorem add_of_not_takes (h : ¬ a.Takes p) : a.add p = (.noMatch, a, none) := by
  unfold add
  rw [if_neg fun hfree => h (.inl hfree), if_pos fun hid => h (.inr hid)]

theorem ready_of_free (h : a.Free p.now) : a.ready p = a.begin p := if_pos h

theorem ready_of_not_free (h : ¬ a.Free p.now) : a.ready p = a := if_neg h

theorem started_of_not_free {now : ℕ} (h : ¬ a.Free now) : a.bStartedAccumulation = true := by
  rcases hstarted : a.bStartedAccumulation with _ | _
  · exact absurd (.inl hstarted) h
  · rfl

/-- What looks at the segment is collecting its broadcast. -/
theorem ready_collecting (h : a.Takes p) :
    (a.ready p).bStartedAccumulation = true ∧ (a.ready p).id = p.id := by
  by_cases hfree : a.Free p.now
  · rw [ready_of_free hfree]
    exact ⟨rfl, rfl⟩
  · rw [ready_of_not_free hfree]
    exact ⟨started_of_not_free hfree, (h.resolve_left hfree).symm⟩

end Accumulate

/-- What becomes of an accumulator that takes the segment, and what is dispatched. -/
def act : BcastAccumulator × Option (List Octet) :=
  match a.add p with
  | (.added, a, out) => (a, out)
  | (_, a, out) => (a.reset p.now, out)

/-- A new accumulator that has looked at the segment. -/
def fresh : BcastAccumulator × Option (List Octet) :=
  (BcastAccumulator.add { startTime := p.now } p).2

/-- The accumulator has put together these segments of the broadcast. -/
structure Collecting (id : BroadcastId) (segments : List BtPacket) (a : BcastAccumulator) :
    Prop where
  id : a.id = id
  started : a.bStartedAccumulation = true
  next : a.iSegmentNumber + 1 = segments.length
  bytes : a.pSection = segments.flatMap BtPacket.data

section Act

variable {a : BcastAccumulator} {p : BtPacket} {segments : List BtPacket}

theorem begin_collecting (a : BcastAccumulator) (p : BtPacket) :
    Collecting p.id [] (a.begin p) :=
  ⟨rfl, rfl, rfl, rfl⟩

/-- **The segment that comes next** is one more that has been put together. -/
theorem Collecting.append {id : BroadcastId} (h : Collecting id segments a)
    (hnumber : p.number = segments.length) (capacity : ℕ) :
    Collecting id (segments ++ [p]) (a.append p capacity) where
  id := h.id
  started := h.started
  next := by
    rw [List.length_append, ← hnumber]
    rfl
  bytes := by
    rw [List.flatMap_append, ← h.bytes]
    exact congrArg (a.pSection ++ ·) (List.append_nil p.data).symm

/-- An accumulator that begins anew has room for a segment. -/
theorem room_of_free (hfree : a.Free p.now) (hfits : p.data.length ≤ maxSectionBytes) :
    (a.ready p).pSection.length + p.data.length ≤ maxSectionBytes := by
  rw [ready_of_free hfree, (begin_collecting a p).bytes, List.flatMap_nil, List.length_nil,
    Nat.zero_add]
  exact hfits

/-- **What an accumulator does with a segment it takes.** -/
theorem act_cases (htakes : a.Takes p) (hmemory : p.memory = true)
    (hfits : (a.ready p).pSection.length + p.data.length ≤ maxSectionBytes)
    (hcollecting : Collecting p.id segments (a.ready p)) :
    (p.number ≠ segments.length ∧ a.act p = (a.ready p, none)) ∨
      (p.number = segments.length ∧ p.last = false ∧
        ∃ b, a.act p = (b, none) ∧ Collecting p.id (segments ++ [p]) b ∧
          b.startTime = (a.ready p).startTime) ∨
      (p.number = segments.length ∧ p.last = true ∧
        ∃ b, a.act p = (b, some ((segments ++ [p]).flatMap BtPacket.data)) ∧
          b.bStartedAccumulation = false) := by
  unfold act
  rw [add_of_takes htakes]
  by_cases hnumber : p.number = segments.length
  · have hnext : (a.ready p).iSegmentNumber + 1 = p.number := by
      rw [hcollecting.next, hnumber]
    obtain ⟨capacity, hacc⟩ := accumulate_of_eq hnext hfits hmemory
    have happend := hcollecting.append hnumber capacity
    rw [hacc]
    rcases hlast : p.last with _ | _
    · exact .inr (.inl ⟨hnumber, rfl, _, rfl, happend, rfl⟩)
    · refine .inr (.inr ⟨hnumber, rfl, ((a.ready p).append p capacity).reset p.now, ?_, rfl⟩)
      rw [← happend.bytes]
      rfl
  · have hnext : (a.ready p).iSegmentNumber + 1 ≠ p.number := by
      rw [hcollecting.next]
      exact fun heq => hnumber (Int.ofNat.inj heq).symm
    rw [accumulate_of_ne hnext]
    exact .inl ⟨hnumber, rfl⟩

/-- The accumulator is then one of the broadcast. -/
theorem act_id (htakes : a.Takes p) : (a.act p).1.id = p.id := by
  have hid := accumulate_id (a.ready p) p
  rw [(ready_collecting htakes).2, ← add_of_takes htakes] at hid
  unfold act
  split
  · rename_i hadd
    rw [hadd] at hid
    exact hid
  · rename_i hadd
    rw [hadd] at hid
    exact hid

/-- A new accumulator does what an idle one does, unless the one segment is the whole
broadcast. -/
theorem fresh_eq (hnot : ¬ (p.number = 0 ∧ p.last = true)) (hmemory : p.memory = true)
    (hfits : p.data.length ≤ maxSectionBytes) :
    fresh p = ({ startTime := p.now } : BcastAccumulator).act p := by
  have hfree : ({ startTime := p.now } : BcastAccumulator).Free p.now := .inl rfl
  have hbegin := begin_collecting { startTime := p.now } p
  unfold fresh act
  rw [add_of_takes (.inl hfree), ready_of_free hfree]
  by_cases hnumber : p.number = 0
  · have hnext := hbegin.next.trans (congrArg Nat.cast hnumber).symm
    have hroom := room_of_free hfree hfits
    obtain ⟨capacity, hacc⟩ := accumulate_of_eq hnext hroom hmemory
    rw [hacc, if_neg fun hlast => hnot ⟨hnumber, hlast⟩]
  · rw [accumulate_of_ne fun heq => hnumber (Int.ofNat.inj (heq.symm.trans hbegin.next))]

/-- **The first segment** is where an accumulator that is free begins. -/
theorem act_of_first (hfree : a.Free p.now) (hmemory : p.memory = true)
    (hfits : p.data.length ≤ maxSectionBytes) (hnumber : p.number = 0) (hlast : p.last = false) :
    ∃ b, a.act p = (b, none) ∧ Collecting p.id [p] b ∧ b.startTime = p.now := by
  have hcollecting := begin_collecting a p
  rw [← ready_of_free hfree] at hcollecting
  rcases act_cases (.inl hfree) hmemory (room_of_free hfree hfits) hcollecting with
    ⟨hne, -⟩ | ⟨-, -, b, hact, hb, hstart⟩ | ⟨-, hlast', -⟩
  · exact absurd hnumber hne
  · rw [ready_of_free hfree] at hstart
    exact ⟨b, hact, hb, hstart⟩
  · exact absurd (hlast.symm.trans hlast') Bool.false_ne_true

end Act

end BcastAccumulator

/-- `vlDsgDispatchFragmentedBtBcastToHost`: the accumulators after a segment, and what is
dispatched. -/
def dispatchFragmentedBtBcast (p : BtPacket) :
    List BcastAccumulator → List BcastAccumulator × Option (List Octet)
  | [] =>
    -- what comes of the segment is not looked at
    let (_, a, out) := BcastAccumulator.add { startTime := p.now } p
    ([a], out)
  | a :: as =>
    match a.add p with
    | (.noMatch, a, _) =>
      let (as, out) := dispatchFragmentedBtBcast p as
      (a :: as, out)
    | (.added, a, out) => (a :: as, out)
    | (_, a, out) => (a.reset p.now :: as, out)

/-- **A segment is offered** to the accumulators one after another. -/
theorem dispatchFragmentedBtBcast_eq (p : BtPacket) (as : List BcastAccumulator) :
    dispatchFragmentedBtBcast p as =
      offer (fun a => a.takes p) (fun a => a.act p) (BcastAccumulator.fresh p) as := by
  induction as with
  | nil => rfl
  | cons a as ih =>
    rw [dispatchFragmentedBtBcast, offer]
    by_cases htakes : a.Takes p
    · have hne := BcastAccumulator.accumulate_ne_noMatch (a.ready p) p
      rw [← BcastAccumulator.add_of_takes htakes] at hne
      rw [if_pos (BcastAccumulator.takes_iff.mpr htakes)]
      unfold BcastAccumulator.act
      rcases hadd : a.add p with ⟨_ | _ | _ | _, b, out⟩
      · exact absurd (congrArg Prod.fst hadd) hne
      all_goals rfl
    · rw [if_neg fun h => htakes (BcastAccumulator.takes_iff.mp h), ← ih,
        BcastAccumulator.add_of_not_takes htakes]

/-! ## The tunnel -/

/-- What the host keeps of a broadcast tunnel. -/
structure BcastTunnel where
  accumulators : List BcastAccumulator := []
  /-- what `vlDsgDispatchToAmExtendedData` was called with, and for which broadcast -/
  dispatched : List (BroadcastId × List Octet) := []
  /-- ghost: the packets that came -/
  arrived : List BtPacket := []

namespace BcastTunnel

variable (s : BcastTunnel) (p : BtPacket)

/-- `vlDsgDispatchToAmExtendedData`. -/
def dispatch (id : BroadcastId) (out : Option (List Octet)) : BcastTunnel :=
  { s with dispatched := s.dispatched ++ (out.map fun section' => (id, section')).toList }

/-- `vlDsgDispatchToHost`, for a packet of a broadcast client that is no fragment itself. -/
def dispatchToHost : BcastTunnel :=
  let s := { s with arrived := s.arrived ++ [p] }
  if p.payload.head? = some 0x11 then s
  else if p.header.nHeaderStart = 0xFF ∧ p.header.nVersion = 1 then
    if p.number = 0 ∧ p.last then s.dispatch p.id p.data
    else
      let (as, out) := dispatchFragmentedBtBcast p s.accumulators
      { s with accumulators := as }.dispatch p.id out
  else s.dispatch p.id p.payload

/-- Every packet is handled. -/
def step (s : BcastTunnel) (p : BtPacket) : Option BcastTunnel := some (s.dispatchToHost p)

/-! ## What should be dispatched -/

/-- The segments are those of the broadcast, all of them and in order. -/
structure InOrder (id : BroadcastId) (segments : List BtPacket) : Prop where
  numbers : segments.map BtPacket.number = List.range segments.length
  ids : ∀ p ∈ segments, p.id = id
  last : ∃ front final, segments = front ++ [final] ∧ (∀ p ∈ front, p.last = false) ∧
    final.last = true

/-- A section is a whole broadcast: what its segments carry, one after another. -/
def Whole (packets : List BtPacket) (d : BroadcastId × List Octet) : Prop :=
  ∃ segments, List.Sublist segments packets ∧ InOrder d.1 segments ∧
    d.2 = segments.flatMap BtPacket.data

/-- The packets of the broadcast. -/
def packetsOf (id : BroadcastId) (packets : List BtPacket) : List BtPacket :=
  packets.filter fun p => p.id = id

/-- What was dispatched for the broadcast. -/
def sections (id : BroadcastId) : List (BroadcastId × List Octet) :=
  s.dispatched.filter fun d => d.1 = id

/-- The packets come while the reassembly of the first of them goes on. -/
def InTime (packets : List BtPacket) : Prop :=
  ∀ first ∈ packets.head?, ∀ p ∈ packets,
    ¬ TimedOut bcastReassemblyTimeout first.now p.now

instance (packets : List BtPacket) : Decidable (InTime packets) :=
  inferInstanceAs (Decidable (∀ _ ∈ _, ∀ _ ∈ _, _))

/-- **What the tunnel should do.** Every section that is dispatched is a whole broadcast; and a
broadcast whose segments all come in order, between its first and its last one in time, is
dispatched once. -/
structure Reassembles (packets : List BtPacket) (s : BcastTunnel) : Prop where
  whole : ∀ d ∈ s.dispatched, Whole packets d
  once : ∀ id front mid back, packets = front ++ mid ++ back →
    (∀ p ∈ front ++ back, p.id ≠ id) → (∀ p ∈ mid.head?, p.id = id) → InTime mid →
      InOrder id (packetsOf id mid) →
        s.sections id = [(id, (packetsOf id mid).flatMap BtPacket.data)]

/-- The reassembly stays within the most bytes a section may have. -/
def Fits : Prop :=
  p.data.length ≤ maxSectionBytes ∧
    ∀ a ∈ s.accumulators, a.Collects p → a.pSection.length + p.data.length ≤ maxSectionBytes

instance : Decidable (s.Fits p) := inferInstanceAs (Decidable (_ ∧ _))

/-- The accumulator that takes the segment: the first one that does, or a new one. -/
def taker : BcastAccumulator :=
  MediaFramework.taker (fun a => a.takes p) { startTime := p.now } s.accumulators

/-- **The condition on a segment.** The accumulator that takes it is not free while another one
is collecting its broadcast; and there is memory for it. -/
def Orderly : Prop :=
  p.memory = true ∧ ((s.taker p).Free p.now → ∀ b ∈ s.accumulators, ¬ b.Collects p)

instance : Decidable (s.Orderly p) := inferInstanceAs (Decidable (_ ∧ _))

/-! ## One segment -/

section Step

variable {s : BcastTunnel} {p : BtPacket}

/-- A broadcast of one segment is dispatched at once. -/
theorem dispatchToHost_of_single (hsegment : p.IsSegment)
    (h : p.number = 0 ∧ p.last = true) :
    s.dispatchToHost p =
      { s with arrived := s.arrived ++ [p], dispatched := s.dispatched ++ [(p.id, p.data)] } := by
  unfold dispatchToHost
  rw [if_neg hsegment.head_ne, if_pos hsegment.2, if_pos h]
  rfl

/-- Any other segment is offered to the accumulators. -/
theorem dispatchToHost_of_offer (hsegment : p.IsSegment) (hfits : s.Fits p)
    (hmemory : p.memory = true) (h : ¬ (p.number = 0 ∧ p.last = true)) :
    s.dispatchToHost p =
      { arrived := s.arrived ++ [p]
        accumulators := (offer (fun a => a.takes p) (fun a => a.act p)
          (({ startTime := p.now } : BcastAccumulator).act p) s.accumulators).1
        dispatched := s.dispatched ++
          (((s.taker p).act p).2.map fun section' => (p.id, section')).toList } := by
  unfold dispatchToHost
  rw [if_neg hsegment.head_ne, if_pos hsegment.2, if_neg h]
  dsimp only
  rw [dispatchFragmentedBtBcast_eq, BcastAccumulator.fresh_eq h hmemory hfits.1, offer_snd]
  rfl

theorem taker_mem_or (s : BcastTunnel) (p : BtPacket) :
    (s.taker p ∈ s.accumulators ∧ (s.taker p).Takes p) ∨
      (s.taker p = { startTime := p.now } ∧ ∀ a ∈ s.accumulators, ¬ a.Takes p) := by
  rcases taker_cases (fun a : BcastAccumulator => a.takes p) { startTime := p.now }
    s.accumulators with ⟨hmem, htakes⟩ | ⟨heq, hnone⟩
  · exact .inl ⟨hmem, BcastAccumulator.takes_iff.mp htakes⟩
  · exact .inr ⟨heq, fun a ha htakes => hnone a ha (BcastAccumulator.takes_iff.mpr htakes)⟩

theorem taker_takes (s : BcastTunnel) (p : BtPacket) : (s.taker p).Takes p := by
  rcases s.taker_mem_or p with ⟨-, htakes⟩ | ⟨heq, -⟩
  · exact htakes
  · rw [heq]
    exact .inl (.inl rfl)

/-- One that is not free is an accumulator that is there. -/
theorem taker_mem (h : ¬ (s.taker p).Free p.now) : s.taker p ∈ s.accumulators := by
  rcases s.taker_mem_or p with ⟨hmem, -⟩ | ⟨heq, -⟩
  · exact hmem
  · rw [heq] at h
    exact absurd (.inl rfl) h

/-- There is room for the segment where it goes. -/
theorem Fits.ready (h : s.Fits p) :
    ((s.taker p).ready p).pSection.length + p.data.length ≤ maxSectionBytes := by
  by_cases hfree : (s.taker p).Free p.now
  · exact BcastAccumulator.room_of_free hfree h.1
  · rw [BcastAccumulator.ready_of_not_free hfree]
    exact h.2 _ (taker_mem hfree) ⟨hfree, (s.taker_takes p).resolve_left hfree⟩

end Step

/-! ## What is dispatched is a whole broadcast -/

/-- The segments are the first ones of the broadcast, and there are more. -/
structure Begun (id : BroadcastId) (segments : List BtPacket) : Prop where
  numbers : segments.map BtPacket.number = List.range segments.length
  ids : ∀ p ∈ segments, p.id = id
  more : ∀ p ∈ segments, p.last = false

namespace Begun

variable {id : BroadcastId} {segments : List BtPacket} {p : BtPacket}

theorem nil (id : BroadcastId) : Begun id [] where
  numbers := rfl
  ids _ h := absurd h List.not_mem_nil
  more _ h := absurd h List.not_mem_nil

theorem numbers_append (h : Begun id segments) (hnumber : p.number = segments.length) :
    (segments ++ [p]).map BtPacket.number = List.range (segments ++ [p]).length := by
  rw [List.map_append, h.numbers, List.length_append, List.length_singleton, List.range_succ,
    List.map_singleton, hnumber]

theorem ids_append (h : Begun id segments) (hid : p.id = id) :
    ∀ q ∈ segments ++ [p], q.id = id :=
  List.forall_mem_append.mpr ⟨h.ids, fun _ hq => List.mem_singleton.mp hq ▸ hid⟩

theorem append (h : Begun id segments) (hid : p.id = id) (hnumber : p.number = segments.length)
    (hlast : p.last = false) : Begun id (segments ++ [p]) where
  numbers := h.numbers_append hnumber
  ids := h.ids_append hid
  more := List.forall_mem_append.mpr ⟨h.more, fun _ hq => List.mem_singleton.mp hq ▸ hlast⟩

theorem inOrder (h : Begun id segments) (hid : p.id = id) (hnumber : p.number = segments.length)
    (hlast : p.last = true) : InOrder id (segments ++ [p]) where
  numbers := h.numbers_append hnumber
  ids := h.ids_append hid
  last := ⟨segments, p, rfl, h.more, hlast⟩

end Begun

/-- What the accumulator has put together is a beginning of its broadcast. -/
def Underway (packets : List BtPacket) (a : BcastAccumulator) : Prop :=
  a.bStartedAccumulation = true →
    ∃ segments, List.Sublist segments packets ∧ Begun a.id segments ∧
      a.Collecting a.id segments

section Whole

variable {packets : List BtPacket} {a : BcastAccumulator} {s : BcastTunnel} {p : BtPacket}

theorem Whole.mono {more : List BtPacket} {d : BroadcastId × List Octet}
    (h : Whole packets d) : Whole (packets ++ more) d := by
  obtain ⟨segments, hsub, hwhole⟩ := h
  exact ⟨segments, hsub.trans (List.sublist_append_left packets more), hwhole⟩

theorem Underway.mono {more : List BtPacket} (h : Underway packets a) :
    Underway (packets ++ more) a := by
  intro hstarted
  obtain ⟨segments, hsub, hbegun⟩ := h hstarted
  exact ⟨segments, hsub.trans (List.sublist_append_left packets more), hbegun⟩

theorem Underway.ready (h : Underway packets a) (htakes : a.Takes p) :
    ∃ segments, List.Sublist segments packets ∧ Begun p.id segments ∧
      (a.ready p).Collecting p.id segments := by
  by_cases hfree : a.Free p.now
  · rw [BcastAccumulator.ready_of_free hfree]
    exact ⟨[], List.nil_sublist packets, Begun.nil p.id, a.begin_collecting p⟩
  · rw [BcastAccumulator.ready_of_not_free hfree, htakes.resolve_left hfree]
    exact h (BcastAccumulator.started_of_not_free hfree)

/-- **What an accumulator dispatches** is a whole broadcast, and what it keeps is the beginning
of one. -/
theorem Underway.act (h : Underway packets a) (htakes : a.Takes p) (hmemory : p.memory = true)
    (hfits : (a.ready p).pSection.length + p.data.length ≤ maxSectionBytes) :
    Underway (packets ++ [p]) (a.act p).1 ∧
      ∀ out ∈ (a.act p).2, Whole (packets ++ [p]) (p.id, out) := by
  obtain ⟨segments, hsub, hbegun, hcollecting⟩ := h.ready htakes
  have hsub' := hsub.append (List.Sublist.refl [p])
  rcases BcastAccumulator.act_cases htakes hmemory hfits hcollecting with
    ⟨-, hact⟩ | ⟨hnumber, hlast, b, hact, hb, -⟩ | ⟨hnumber, hlast, b, hact, hidle⟩
  · rw [hact]
    refine ⟨fun _ => ⟨segments, hsub.trans (List.sublist_append_left packets [p]), ?_, ?_⟩,
      fun _ hout => absurd hout (Option.not_mem_none _)⟩
    · rw [hcollecting.id]
      exact hbegun
    · rw [hcollecting.id]
      exact hcollecting
  · rw [hact]
    refine ⟨fun _ => ⟨segments ++ [p], hsub', ?_, ?_⟩, fun _ hout => absurd hout (Option.not_mem_none _)⟩
    · rw [hb.id]
      exact hbegun.append rfl hnumber hlast
    · rw [hb.id]
      exact hb
  · rw [hact]
    refine ⟨fun hstarted => absurd (hidle.symm.trans hstarted) Bool.false_ne_true, ?_⟩
    intro out hout
    cases hout
    exact ⟨segments ++ [p], hsub', hbegun.inOrder rfl hnumber hlast, rfl⟩

/-- What is underway is the beginning of a broadcast, and what was dispatched is a whole one. -/
structure Kept (s : BcastTunnel) : Prop where
  underway : ∀ a ∈ s.accumulators, Underway s.arrived a
  whole : ∀ d ∈ s.dispatched, Whole s.arrived d

theorem Kept.dispatchToHost (h : s.Kept) (hsegment : p.IsSegment) (hfits : s.Fits p)
    (hmemory : p.memory = true) : (s.dispatchToHost p).Kept := by
  by_cases hsingle : p.number = 0 ∧ p.last = true
  · rw [dispatchToHost_of_single hsegment hsingle]
    refine ⟨fun a ha => (h.underway a ha).mono, ?_⟩
    refine List.forall_mem_append.mpr ⟨fun d hd => (h.whole d hd).mono, fun d hd => ?_⟩
    obtain rfl := List.mem_singleton.mp hd
    exact ⟨[] ++ [p], List.sublist_append_right s.arrived [p],
      (Begun.nil p.id).inOrder rfl hsingle.1 hsingle.2, (List.append_nil p.data).symm⟩
  · rw [dispatchToHost_of_offer hsegment hfits hmemory hsingle]
    have htaker : Underway s.arrived (s.taker p) := by
      rcases s.taker_mem_or p with ⟨hmem, -⟩ | ⟨heq, -⟩
      · exact h.underway _ hmem
      · rw [heq]
        exact fun hstarted => absurd hstarted Bool.false_ne_true
    obtain ⟨hact, hout⟩ := htaker.act (s.taker_takes p) hmemory hfits.ready
    refine ⟨offer_keeps (fun a ha => (h.underway a ha).mono) hact,
      List.forall_mem_append.mpr ⟨fun d hd => (h.whole d hd).mono, fun d hd => ?_⟩⟩
    obtain ⟨section', hsection, rfl⟩ := Option.map_eq_some_iff.mp (Option.mem_toList.mp hd)
    exact hout section' hsection

end Whole

/-! ## One broadcast of many -/

/-- The accumulator is not collecting the broadcast. -/
def Other (id : BroadcastId) (a : BcastAccumulator) : Prop :=
  a.bStartedAccumulation = true → a.id ≠ id

/-- Nothing of the broadcast is in an accumulator. -/
def Absent (id : BroadcastId) : Prop := ∀ a ∈ s.accumulators, Other id a

/-- The segments of the broadcast are in one accumulator, which has begun at this time. -/
def Gathering (id : BroadcastId) (start : ℕ) (segments : List BtPacket) : Prop :=
  segments ≠ [] ∧ Begun id segments ∧
    ∃ a, Sole (Other id) a s.accumulators ∧ a.Collecting id segments ∧ a.startTime = start

section Broadcast

variable {s : BcastTunnel} {p : BtPacket} {id : BroadcastId} {start : ℕ}
  {segments : List BtPacket} {a : BcastAccumulator}

theorem Other.act (hid : p.id ≠ id) (htakes : a.Takes p) : Other id (a.act p).1 :=
  fun _ => BcastAccumulator.act_id htakes ▸ hid

/-- An accumulator that is collecting and in time is not free. -/
theorem not_free (h : a.Collecting id segments) (hstart : a.startTime = start)
    (htime : ¬ TimedOut bcastReassemblyTimeout start p.now) : ¬ a.Free p.now := by
  rintro (hidle | hout)
  · exact Bool.false_ne_true (hidle.symm.trans h.started)
  · exact htime (hstart ▸ hout)

theorem filter_map_other (out : Option (List Octet)) (hid : p.id ≠ id) :
    ((out.map fun section' => (p.id, section')).toList.filter fun d => d.1 = id) = [] := by
  refine List.filter_eq_nil_iff.mpr fun d hd => ?_
  obtain ⟨section', -, rfl⟩ := Option.map_eq_some_iff.mp (Option.mem_toList.mp hd)
  exact of_decide_eq_false (decide_eq_false hid) ∘ of_decide_eq_true

/-- **A segment of another broadcast** dispatches nothing of this one. -/
theorem sections_other (hsegment : p.IsSegment) (hfits : s.Fits p) (hmemory : p.memory = true)
    (hid : p.id ≠ id) : (s.dispatchToHost p).sections id = s.sections id := by
  unfold sections
  by_cases hsingle : p.number = 0 ∧ p.last = true
  · rw [dispatchToHost_of_single hsegment hsingle, List.filter_append]
    have hnil := filter_map_other (some p.data) hid
    rw [Option.map_some, Option.toList_some] at hnil
    rw [hnil, List.append_nil]
  · rw [dispatchToHost_of_offer hsegment hfits hmemory hsingle, List.filter_append,
      filter_map_other _ hid, List.append_nil]

theorem Absent.other (h : s.Absent id) (hsegment : p.IsSegment) (hfits : s.Fits p)
    (hmemory : p.memory = true) (hid : p.id ≠ id) : (s.dispatchToHost p).Absent id := by
  by_cases hsingle : p.number = 0 ∧ p.last = true
  · rw [dispatchToHost_of_single hsegment hsingle]
    exact h
  · rw [dispatchToHost_of_offer hsegment hfits hmemory hsingle]
    exact offer_keeps h (Other.act hid (s.taker_takes p))

theorem Gathering.other (h : s.Gathering id start segments) (hsegment : p.IsSegment)
    (hfits : s.Fits p) (hmemory : p.memory = true) (hid : p.id ≠ id)
    (htime : ¬ TimedOut bcastReassemblyTimeout start p.now) :
    (s.dispatchToHost p).Gathering id start segments := by
  obtain ⟨hne, hbegun, a, hsole, hcollecting, hstart⟩ := h
  refine ⟨hne, hbegun, a, ?_, hcollecting, hstart⟩
  by_cases hsingle : p.number = 0 ∧ p.last = true
  · rw [dispatchToHost_of_single hsegment hsingle]
    exact hsole
  · rw [dispatchToHost_of_offer hsegment hfits hmemory hsingle]
    refine hsole.offer_other (fun heq => ?_) (Other.act hid (s.taker_takes p))
    have htakes := s.taker_takes p
    rw [show s.taker p = a from heq] at htakes
    rcases htakes with hfree | hsame
    · exact not_free hcollecting hstart htime hfree
    · exact hid (hsame.trans hcollecting.id)

/-- **The first segment of the broadcast** begins to gather it. -/
theorem Absent.first (h : s.Absent p.id) (hsegment : p.IsSegment) (hfits : s.Fits p)
    (hmemory : p.memory = true) (hnumber : p.number = 0) (hlast : p.last = false) :
    (s.dispatchToHost p).Gathering p.id p.now [p] ∧
      (s.dispatchToHost p).sections p.id = s.sections p.id := by
  have hnot : ¬ (p.number = 0 ∧ p.last = true) :=
    fun h => Bool.false_ne_true (hlast.symm.trans h.2)
  have hfree : (s.taker p).Free p.now := by
    by_contra hfree
    exact h _ (taker_mem hfree) (BcastAccumulator.started_of_not_free hfree)
      ((s.taker_takes p).resolve_left hfree).symm
  obtain ⟨b, hact, hb, hstart⟩ :=
    BcastAccumulator.act_of_first hfree hmemory hfits.1 hnumber hlast
  have hsole : Sole (Other p.id) ((s.taker p).act p).1 (offer (fun a => a.takes p)
      (fun a => a.act p) (({ startTime := p.now } : BcastAccumulator).act p) s.accumulators).1 :=
    @offer_sole _ _ (fun a => a.takes p) (fun a => a.act p) _ s.accumulators _ h
  rw [hact] at hsole
  rw [dispatchToHost_of_offer hsegment hfits hmemory hnot, hact]
  exact ⟨⟨List.cons_ne_nil p [], (Begun.nil p.id).append rfl hnumber hlast, b, hsole, hb,
    hstart⟩, congrArg _ (List.append_nil s.dispatched)⟩

/-- The segment goes to where its broadcast is gathered. -/
theorem taker_eq (horderly : s.Orderly p) (hsole : Sole (Other p.id) a s.accumulators)
    (hcollecting : a.Collecting p.id segments) (hbusy : ¬ a.Free p.now) : s.taker p = a := by
  have hnot : ¬ (s.taker p).Free p.now := fun hfree =>
    horderly.2 hfree a hsole.mem ⟨hbusy, hcollecting.id.symm⟩
  have hid := (s.taker_takes p).resolve_left hnot
  rcases hsole.eq_or _ (taker_mem hnot) with heq | hother
  · exact heq
  · exact absurd hid.symm (hother (BcastAccumulator.started_of_not_free hnot))

/-- **The next segment of the broadcast** gets to where the broadcast is gathered. -/
theorem Gathering.own (h : s.Gathering p.id start segments) (hsegment : p.IsSegment)
    (hfits : s.Fits p) (horderly : s.Orderly p)
    (htime : ¬ TimedOut bcastReassemblyTimeout start p.now)
    (hnumber : p.number = segments.length) :
    (p.last = false → (s.dispatchToHost p).Gathering p.id start (segments ++ [p]) ∧
        (s.dispatchToHost p).sections p.id = s.sections p.id) ∧
      (p.last = true → (s.dispatchToHost p).Absent p.id ∧
        (s.dispatchToHost p).sections p.id =
          s.sections p.id ++ [(p.id, (segments ++ [p]).flatMap BtPacket.data)]) := by
  obtain ⟨hne, hbegun, a, hsole, hcollecting, hstart⟩ := h
  have hnot : ¬ (p.number = 0 ∧ p.last = true) :=
    fun h => hne (List.length_eq_zero_iff.mp (hnumber.symm.trans h.1))
  have hbusy := not_free hcollecting hstart htime
  have htaker := taker_eq horderly hsole hcollecting hbusy
  have htakes : a.Takes p := .inr hcollecting.id.symm
  have hsole' : Sole (Other p.id) (a.act p).1 (offer (fun a => a.takes p)
      (fun a => a.act p) (({ startTime := p.now } : BcastAccumulator).act p) s.accumulators).1 :=
    @Sole.offer_own _ _ (fun a : BcastAccumulator => a.takes p) (fun a => a.act p) _ _ a _ hsole
      htaker (fun hother => hother hcollecting.started hcollecting.id)
      (BcastAccumulator.takes_iff.mpr htakes)
  have hready := BcastAccumulator.ready_of_not_free hbusy
  have hroom := hfits.ready
  rw [htaker] at hroom
  unfold sections
  rw [dispatchToHost_of_offer hsegment hfits horderly.1 hnot, htaker]
  rcases BcastAccumulator.act_cases htakes horderly.1 hroom (hready ▸ hcollecting) with
    ⟨hne', -⟩ | ⟨-, hlast, b, hact, hb, hstart'⟩ | ⟨-, hlast, b, hact, hidle⟩
  · exact absurd hnumber hne'
  · rw [hact] at hsole' ⊢
    refine ⟨fun _ => ⟨⟨?_, hbegun.append rfl hnumber hlast, b, hsole', hb, ?_⟩,
      congrArg _ (List.append_nil s.dispatched)⟩,
      fun hlast' => absurd (hlast.symm.trans hlast') Bool.false_ne_true⟩
    · exact List.append_ne_nil_of_left_ne_nil hne [p]
    · rw [hstart', hready, hstart]
  · rw [hact] at hsole' ⊢
    refine ⟨fun hlast' => absurd (hlast'.symm.trans hlast) Bool.false_ne_true,
      fun _ => ⟨fun c hc => ?_, ?_⟩⟩
    · rcases hsole'.eq_or c hc with rfl | hother
      · exact fun hstarted => absurd (hidle.symm.trans hstarted) Bool.false_ne_true
      · exact hother
    · rw [Option.map_some, Option.toList_some, List.filter_append]
      simp

end Broadcast

/-! ## Runs -/

/-- A step as it has to be: a segment that the reassembly has room for, and the condition. -/
def Proper (s : BcastTunnel) (p : BtPacket) : Prop := (p.IsSegment ∧ s.Fits p) ∧ s.Orderly p

section Runs

variable {s t : BcastTunnel} {packets rest : List BtPacket} {id : BroadcastId} {start : ℕ}
  {segments : List BtPacket}

theorem packetsOf_cons_own {p : BtPacket} (hid : p.id = id) :
    packetsOf id (p :: rest) = p :: packetsOf id rest :=
  List.filter_cons_of_pos (decide_eq_true hid)

theorem packetsOf_cons_other {p : BtPacket} (hid : p.id ≠ id) :
    packetsOf id (p :: rest) = packetsOf id rest :=
  List.filter_cons_of_neg fun h => hid (of_decide_eq_true h)

/-- The last segment ends the broadcast. -/
theorem InOrder.eq_nil_of_last {p : BtPacket} {more : List BtPacket}
    (h : InOrder id (segments ++ p :: more)) (hlast : p.last = true) : more = [] := by
  obtain ⟨front, final, heq, hfront, -⟩ := h.last
  rcases List.eq_nil_or_concat more with rfl | ⟨more, q, rfl⟩
  · rfl
  · rw [List.concat_eq_append, ← List.cons_append, ← List.append_assoc] at heq
    obtain ⟨rfl, -⟩ := List.append_inj' heq rfl
    have hp := hfront p (List.mem_append_right segments List.mem_cons_self)
    exact absurd (hp.symm.trans hlast) Bool.false_ne_true

/-- Segments that are in order have their places for numbers. -/
theorem InOrder.number_eq {p : BtPacket} {more : List BtPacket}
    (h : InOrder id (segments ++ p :: more)) : p.number = segments.length := by
  have hget := congrArg (·[segments.length]?) h.numbers
  simp only [List.map_append, List.map_cons] at hget
  rw [List.getElem?_append_right (Nat.le_of_eq (List.length_map _)), List.length_map, Nat.sub_self,
    List.getElem?_cons_zero, List.getElem?_range (by simp)] at hget
  exact Option.some.inj hget

/-- Segments of other broadcasts do nothing to this one. -/
theorem Absent.run (h : s.Absent id) (hproper : EachStep step Proper s packets)
    (hid : ∀ p ∈ packets, p.id ≠ id) (hrun : runFrom step s packets = some t) :
    t.Absent id ∧ t.sections id = s.sections id := by
  induction packets generalizing s with
  | nil =>
    cases hrun
    exact ⟨h, rfl⟩
  | cons p packets ih =>
    obtain ⟨hp, hid⟩ := List.forall_mem_cons.mp hid
    obtain ⟨⟨⟨hsegment, hfits⟩, horderly⟩, hproper⟩ := hproper
    obtain ⟨habsent, hsections⟩ :=
      ih (h.other hsegment hfits horderly.1 hp) (hproper _ rfl) hid hrun
    exact ⟨habsent, hsections.trans (sections_other hsegment hfits horderly.1 hp)⟩

/-- **A broadcast that is being gathered** is dispatched when its last segment has come. -/
theorem Gathering.run (h : s.Gathering id start segments)
    (hproper : EachStep step Proper s packets)
    (htime : ∀ p ∈ packets, ¬ TimedOut bcastReassemblyTimeout start p.now)
    (horder : InOrder id (segments ++ packetsOf id packets))
    (hrun : runFrom step s packets = some t) :
    t.Absent id ∧ t.sections id = s.sections id ++
      [(id, (segments ++ packetsOf id packets).flatMap BtPacket.data)] := by
  induction packets generalizing s segments with
  | nil =>
    -- the last segment is yet to come
    obtain ⟨front, final, heq, -, hlast⟩ := horder.last
    have hfinal : final ∈ segments := by
      rw [← List.append_nil segments]
      exact heq ▸ List.mem_append_right front List.mem_cons_self
    exact absurd ((h.2.1.more final hfinal).symm.trans hlast) Bool.false_ne_true
  | cons p packets ih =>
    obtain ⟨hp, htime⟩ := List.forall_mem_cons.mp htime
    obtain ⟨⟨⟨hsegment, hfits⟩, horderly⟩, hproper⟩ := hproper
    by_cases hid : p.id = id
    · subst hid
      rw [packetsOf_cons_own rfl] at horder ⊢
      obtain ⟨hmore, hend⟩ := h.own hsegment hfits horderly hp horder.number_eq
      rcases hlast : p.last with _ | _
      · obtain ⟨hgathering, hsections⟩ := hmore hlast
        rw [List.append_cons segments p] at horder ⊢
        rw [← hsections]
        exact ih hgathering (hproper _ rfl) htime horder hrun
      · obtain ⟨habsent, hsections⟩ := hend hlast
        have hnil := horder.eq_nil_of_last hlast
        obtain ⟨habsent, hsame⟩ := habsent.run (hproper _ rfl)
          (fun q hq heq => List.filter_eq_nil_iff.mp hnil q hq (decide_eq_true heq)) hrun
        rw [hnil]
        exact ⟨habsent, hsame.trans hsections⟩
    · rw [packetsOf_cons_other hid] at horder ⊢
      obtain ⟨habsent, hsections⟩ :=
        ih (h.other hsegment hfits horderly.1 hid hp) (hproper _ rfl) htime horder hrun
      have hsame := sections_other hsegment hfits horderly.1 hid
      exact ⟨habsent, hsections.trans (congrArg (· ++ _) hsame)⟩

/-- **A broadcast from its first segment to its last** is dispatched, and nothing of it stays
behind. -/
theorem Absent.gather (h : s.Absent id) (hproper : EachStep step Proper s packets)
    (hhead : ∀ p ∈ packets.head?, p.id = id) (htime : InTime packets)
    (horder : InOrder id (packetsOf id packets)) (hrun : runFrom step s packets = some t) :
    t.Absent id ∧ t.sections id = s.sections id ++
      [(id, (packetsOf id packets).flatMap BtPacket.data)] := by
  cases packets with
  | nil =>
    obtain ⟨front, final, heq, -⟩ := horder.last
    exact absurd heq.symm (List.append_ne_nil_of_right_ne_nil front (List.cons_ne_nil final []))
  | cons p packets =>
    obtain rfl := hhead p rfl
    obtain ⟨⟨⟨hsegment, hfits⟩, horderly⟩, hproper⟩ := hproper
    rw [packetsOf_cons_own rfl] at horder ⊢
    have hnumber : p.number = 0 := @InOrder.number_eq _ [] _ _ horder
    rcases hlast : p.last with _ | _
    · obtain ⟨hgathering, hsections⟩ := h.first hsegment hfits horderly.1 hnumber hlast
      rw [← hsections]
      exact hgathering.run (hproper _ rfl)
        (fun q hq => htime p rfl q (List.mem_cons_of_mem p hq)) horder hrun
    · have hnil := @InOrder.eq_nil_of_last _ [] _ _ horder hlast
      have hstep := dispatchToHost_of_single (s := s) hsegment ⟨hnumber, hlast⟩
      have habsent : (s.dispatchToHost p).Absent p.id := by
        rw [hstep]
        exact h
      obtain ⟨habsent, hsame⟩ := habsent.run (hproper _ rfl)
        (fun q hq heq => List.filter_eq_nil_iff.mp hnil q hq (decide_eq_true heq)) hrun
      refine ⟨habsent, hsame.trans ?_⟩
      unfold sections
      rw [hnil, hstep, List.filter_append]
      simp

/-- What is there along a run, and the packets that came. -/
theorem kept_of_run (hproper : EachStep step Proper s packets) (h : s.Kept)
    (hrun : runFrom step s packets = some t) : t.Kept :=
  EachStep.invariant (fun s p u h hp hs => by
    cases hs
    exact h.dispatchToHost hp.1.1 hp.1.2 hp.2.1) hproper h hrun

theorem arrived_dispatchToHost (s : BcastTunnel) {p : BtPacket} (hsegment : p.IsSegment) :
    (s.dispatchToHost p).arrived = s.arrived ++ [p] := by
  unfold dispatchToHost
  rw [if_neg hsegment.head_ne, if_pos hsegment.2]
  split <;> rfl

theorem arrived_of_run (hproper : EachStep step Proper s packets)
    (hrun : runFrom step s packets = some t) : t.arrived = s.arrived ++ packets := by
  induction packets generalizing s with
  | nil =>
    obtain rfl := Option.some.inj hrun
    exact (List.append_nil s.arrived).symm
  | cons p packets ih =>
    rw [ih (hproper.2 _ rfl) hrun, arrived_dispatchToHost s hproper.1.1.1, List.append_assoc]
    rfl

end Runs

/-- **Broadcasts are reassembled.** In a run of segments that stay within the most bytes a
section may have, as long as no segment of a broadcast that is being collected is offered first
to an accumulator that is free, every section that is dispatched is a whole broadcast, and every
broadcast whose segments come in order is dispatched once. -/
theorem broadcasts_reassembled {packets : List BtPacket} {s : BcastTunnel}
    (hrun : runFrom step {} packets = some s)
    (hfits : EachStep step (fun s p => p.IsSegment ∧ s.Fits p) {} packets)
    (horderly : EachStep step Orderly {} packets) : s.Reassembles packets := by
  have hproper := hfits.and horderly
  have habsent : ∀ id, Absent {} id := fun id a ha => absurd ha List.not_mem_nil
  refine ⟨?_, fun id front mid back hpackets hother hhead htime horder => ?_⟩
  · have hkept := kept_of_run hproper
      ⟨fun a ha => absurd ha List.not_mem_nil, fun d hd => absurd hd List.not_mem_nil⟩ hrun
    rw [← List.nil_append packets, ← show s.arrived = [] ++ packets from
      arrived_of_run hproper hrun]
    exact hkept.whole
  · rw [hpackets, List.append_assoc, runFrom_append] at hrun
    obtain ⟨s₁, hrun₁, hrun⟩ := Option.bind_eq_some_iff.mp hrun
    rw [runFrom_append] at hrun
    obtain ⟨s₂, hrun₂, hrun₃⟩ := Option.bind_eq_some_iff.mp hrun
    rw [hpackets, List.append_assoc] at hproper
    have hproper₂ := hproper.right hrun₁
    obtain ⟨habsent₁, hsections₁⟩ := (habsent id).run hproper.left
      (fun p hp => hother p (List.mem_append_left back hp)) hrun₁
    obtain ⟨habsent₂, hsections₂⟩ := habsent₁.gather hproper₂.left hhead htime horder hrun₂
    obtain ⟨-, hsections₃⟩ := habsent₂.run (hproper₂.right hrun₂)
      (fun p hp => hother p (List.mem_append_right front hp)) hrun₃
    rw [hsections₃, hsections₂, hsections₁]
    rfl

/-- A segment of two bytes of a broadcast. -/
def exampleSegment (client : BitVec 64) (segment : Octet) : BtPacket where
  nClientId := client
  payload := [0xFF, segment, 0, 0, 0xAA, 0xBB]

/-- Two broadcasts, the second between the segments of the first. -/
theorem broadcasts_reassembled_two :
    ∃ s, runFrom step {} [exampleSegment 1 0x20, exampleSegment 2 0x20, exampleSegment 2 0x31,
        exampleSegment 1 0x31] = some s ∧
      s.Reassembles [exampleSegment 1 0x20, exampleSegment 2 0x20, exampleSegment 2 0x31,
        exampleSegment 1 0x31] :=
  ⟨_, rfl, broadcasts_reassembled rfl (by decide +kernel) (by decide +kernel)⟩

/-- **A broadcast is lost.** When the first of two broadcasts ends, its accumulator takes the
next segment of the second. -/
theorem broadcast_lost :
    ¬ ∀ packets s, runFrom step {} packets = some s →
      EachStep step (fun s p => p.IsSegment ∧ s.Fits p) {} packets → s.Reassembles packets := by
  intro h
  let packets := [exampleSegment 1 0x20, exampleSegment 2 0x20, exampleSegment 1 0x31,
    exampleSegment 2 0x31]
  have hlost := (h packets _ rfl (by decide +kernel)).once (exampleSegment 2 0x20).id
    [exampleSegment 1 0x20] [exampleSegment 2 0x20, exampleSegment 1 0x31,
      exampleSegment 2 0x31] [] rfl (by decide +kernel) (by decide +kernel) (by decide +kernel)
    ⟨by decide +kernel, by decide +kernel, [exampleSegment 2 0x20], exampleSegment 2 0x31, rfl,
      by decide +kernel, rfl⟩
  exact absurd hlost (by decide +kernel)

end BcastTunnel

end MediaFramework
