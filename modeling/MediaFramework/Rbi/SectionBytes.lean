import Mathlib.Data.List.Chain
import MediaFramework.Rbi.SectionComplete

/-!
# The bytes of a parsed section

A section that is parsed should consist of the payload of its PID from the
payload-start packet on, with the continuity counters in order. Beside the
tables this module keeps what the stream really carried: for each PID the
payload since its last payload-start packet (`Received`), and for each table
which PID its section was begun on and whether any payload of that PID has been
passed over since (`Watch`).

The aggregator itself looks at the continuity counter only. The bytes are right
as long as a packet it takes is of the PID the section was begun on, nothing of
that PID was passed over, and the offset it is cut at is its own; and as long as
a short section lies in its packet whole.
-/

namespace MediaFramework

/-- The payload of a PID since its last payload-start packet. -/
structure Received where
  bytes : List UInt8
  /-- the continuity counters of the packets it came in -/
  counters : List ℕ

/-- What has been received, once a packet has come. -/
def receive (received : ℕ → Received) (p : Packet) : ℕ → Received :=
  if p.hasPayload then
    Function.update received p.pid
      (if p.payloadStart then ⟨p.payloadBytes, [p.continuity]⟩
      else ⟨(received p.pid).bytes ++ p.payloadBytes, (received p.pid).counters ++ [p.continuity]⟩)
  else received

/-- Each counter is one more than the one before, or has not moved: some streams
never move it, and the code lets them through. -/
def Continuous (counters : List ℕ) : Prop :=
  counters.IsChain fun a b => b = (a + 1) % 16 ∨ b = a

/-- The section being collected for a table. -/
structure Watch where
  /-- the PID it was begun on -/
  pid : ℕ
  /-- no payload of that PID has been passed over since -/
  whole : Bool

/-- The section is the beginning of the payload of its PID, all of it is there,
and no packet was missing. -/
structure FromPayload (call : SectionCall) (r : Received) : Prop where
  bytes : call.bytes = r.bytes.take (call.sectionLength + 4)
  length : call.bytes.length = call.sectionLength + 4
  continuous : Continuous r.counters

/-- A call of a table's section parser, and what its PID had carried by then. -/
structure Parsed where
  table : Table
  call : SectionCall
  received : Received

/-- The tables, and what the stream carried. -/
structure TableSession where
  tables : Tables
  received : ℕ → Received
  watch : Table → Watch
  log : List Parsed

namespace TableSession

/-- Before the first packet. -/
def start : TableSession where
  tables := Tables.initial
  received := fun _ => ⟨[], []⟩
  watch := fun _ => ⟨0, false⟩
  log := []

/-- The packet begins or continues the section being collected. -/
def takes (t : TableInfo) : TableInfo.Input → Bool
  | .start p off => decide (TableInfo.maxShortLength < p.sectionLength off)
  | .next p _ => decide (t.Accepts p)

/-- The watch on a table once a packet has come. -/
def watchAfter (s : TableSession) (T : Table) (e : TsEvent) (p : Packet) : Watch :=
  let passed : Watch :=
    if p.pid = (s.watch T).pid ∧ p.hasPayload = true then { s.watch T with whole := false }
    else s.watch T
  match s.tables.input T e with
  | none => passed
  | some (.start q off) =>
    if takes (s.tables.table T) (.start q off) then ⟨p.pid, true⟩ else passed
  | some (.next q off) =>
    if takes (s.tables.table T) (.next q off) then s.watch T else passed

/-- The sections of a table that a packet has had parsed. -/
def newCalls (s : TableSession) (T : Table) (e : TsEvent) : List SectionCall :=
  ((s.tables.step e).table T).calls.drop (s.tables.table T).calls.length

/-- One packet, or the beginning of a call. -/
def step (s : TableSession) (e : TsEvent) : TableSession :=
  match e with
  | .call _ _ => { s with tables := s.tables.step e }
  | .packet _ p =>
    let received := receive s.received p
    { tables := s.tables.step e
      received := received
      watch := fun T => s.watchAfter T e p
      log := s.log ++ (s.newCalls .pmt e).map (⟨.pmt, ·, received p.pid⟩) ++
        (s.newCalls .scte35 e).map (⟨.scte35, ·, received p.pid⟩) }

/-- A short section lies in its packet, and a packet that is taken is the next
one of the section's PID and is cut at its own payload. -/
def InPlace (s : TableSession) (T : Table) : TableInfo.Input → Prop
  | .start p off =>
    if p.sectionLength off ≤ TableInfo.maxShortLength then off + 4 + p.sectionLength off ≤ 188
    else off ≤ 188
  | .next p off =>
    (s.tables.table T).Accepts p →
      p.pid = (s.watch T).pid ∧ (s.watch T).whole = true ∧ p.hasPayload = true ∧
        off = p.payload ∧ off ≤ 188

instance (s : TableSession) (T : Table) : ∀ i : TableInfo.Input, Decidable (s.InPlace T i)
  | .start p off => inferInstanceAs (Decidable (if p.sectionLength off ≤ TableInfo.maxShortLength
      then off + 4 + p.sectionLength off ≤ 188 else off ≤ 188))
  | .next p _ => inferInstanceAs (Decidable ((s.tables.table T).Accepts p → _ ∧ _))

/-- Each table's input is in place. -/
def AllInPlace (s : TableSession) (e : TsEvent) : Prop :=
  (∀ i ∈ s.tables.input .pmt e, s.InPlace .pmt i) ∧
    ∀ i ∈ s.tables.input .scte35 e, s.InPlace .scte35 i

instance (s : TableSession) (e : TsEvent) : Decidable (s.AllInPlace e) :=
  inferInstanceAs (Decidable (_ ∧ _))

end TableSession

/-! ## What is collected -/

/-- The buffer holds the payload received, as far as it fits. -/
structure Holding (t : TableInfo) (r : Received) : Prop where
  bytes : t.collected = r.bytes.take TableInfo.maxSectionSize
  missing : t.sectionWriteOffset < t.sectionLength + 4
  continuous : Continuous r.counters
  next : ∃ c ∈ r.counters.getLast?, c < 16 ∧ t.nextContinuity = (c + 1) % 16

/-- What has been received when a packet continues it. -/
def Received.add (r : Received) (p : Packet) : Received :=
  ⟨r.bytes ++ p.payloadBytes, r.counters ++ [p.continuity]⟩

section Holding

variable {t : TableInfo} {r : Received} {p : Packet}

/-- A packet that is taken keeps the counters in order. -/
theorem Holding.continuous_add (h : Holding t r) (hacc : t.Accepts p) :
    Continuous (r.add p).counters := by
  obtain ⟨c, hc, hlt, hnext⟩ := h.next
  have hp := p.continuity_lt
  refine List.isChain_append.mpr ⟨h.continuous, List.isChain_singleton _, ?_⟩
  intro a ha b hb
  obtain rfl : c = a := Option.some.inj (hc.symm.trans ha)
  obtain rfl : p.continuity = b := Option.some.inj hb
  have hexp := hacc.2
  rw [TableInfo.expected] at hexp
  split_ifs at hexp <;> omega

/-- A long section is begun with the payload of its first packet. -/
theorem holding_start (hlong : TableInfo.maxShortLength < p.sectionLength p.payload)
    (hfit : p.payload ≤ 188) :
    Holding (t.start p p.payload) ⟨p.payloadBytes, [p.continuity]⟩ ∧
      (t.start p p.payload).calls = t.calls ∧ (t.start p p.payload).overrun = t.overrun := by
  have hmin : TableInfo.maxShortLength = 180 := rfl
  have hstart : t.start p p.payload = { t with
      packets := [p]
      collected := p.payloadBytes
      sectionLength := p.sectionLength p.payload
      nextContinuity := (p.continuity + 1) % 16 } := by
    rw [TableInfo.start]
    rw [if_neg (by omega), if_neg (by omega), Packet.payloadBytes,
      show ((188 : ℤ) - p.payload).toNat = 188 - p.payload by omega]
  have hlen : p.payloadBytes.length = 188 - p.payload := length_load
  have hfour := p.four_le_payload
  have hmax : TableInfo.maxSectionSize = 1021 := rfl
  rw [hstart]
  refine ⟨⟨?_, ?_, List.isChain_singleton _, p.continuity, rfl, p.continuity_lt, rfl⟩, rfl, rfl⟩
  · have hall : p.payloadBytes.take TableInfo.maxSectionSize = p.payloadBytes :=
      List.take_of_length_le (by omega)
    exact hall.symm
  · show p.payloadBytes.length < p.sectionLength p.payload + 4
    omega

/-- A packet that is taken in place continues the payload, or completes the
section with it. -/
theorem Holding.append (h : Holding t r) (hacc : t.Accepts p) (hfit : p.payload ≤ 188) :
    (t.append p p.payload).overrun = t.overrun ∧
      ((∃ call, (t.append p p.payload).calls = t.calls ++ [call] ∧ FromPayload call (r.add p) ∧
        (t.append p p.payload).collected = []) ∨
      ((t.append p p.payload).calls = t.calls ∧ Holding (t.append p p.payload) (r.add p))) := by
  have hmissing := h.missing
  have hmax : TableInfo.maxSectionSize = 1021 := rfl
  have hsize : t.sectionWriteOffset = min 1021 r.bytes.length := by
    rw [TableInfo.sectionWriteOffset, h.bytes, List.length_take, hmax]
  -- what is copied is the beginning of the payload
  obtain ⟨n, hn, hcopy⟩ : ∃ n : ℕ, t.copyLength p.payload = n ∧
      n = min (min (t.sectionLength + 4 - t.sectionWriteOffset) (188 - p.payload))
        (1021 - t.sectionWriteOffset) := by
    refine ⟨_, ?_, rfl⟩
    simp only [TableInfo.copyLength]
    omega
  have hload : load p p.payload n = p.payloadBytes.take n := by
    rw [Packet.payloadBytes, take_load]
    congr 1
    omega
  have hbytes : t.collected ++ load p p.payload (t.copyLength p.payload).toNat =
      (r.add p).bytes.take (t.sectionWriteOffset + n) := by
    rw [hn, Int.toNat_natCast, hload, h.bytes, hmax, Received.add]
    rcases Nat.lt_or_ge r.bytes.length 1021 with hroom | hfull
    · rw [show t.sectionWriteOffset = r.bytes.length by omega, List.take_length_add_append,
        List.take_of_length_le hroom.le]
    · rw [show n = 0 by omega, List.take_zero, List.append_nil,
        List.take_append_of_le_length (by omega)]
      congr 1
      omega
  have hlen : (t.collected ++ load p p.payload (t.copyLength p.payload).toNat).length =
      t.sectionWriteOffset + n := by
    rw [hn, Int.toNat_natCast, List.length_append, length_load]
    rfl
  rcases TableInfo.append_cases t p p.payload with ⟨hneg, -⟩ | ⟨-, hover, hwhole, hcalls, hcol⟩ |
    ⟨-, hover, hpart, hcalls, hcol, hsec, hnext⟩
  · omega
  · refine ⟨hover, .inl ⟨_, hcalls, ⟨?_, hwhole, h.continuous_add hacc⟩, hcol⟩⟩
    rw [hlen] at hwhole
    rw [hbytes, hwhole]
  · refine ⟨hover, .inr ⟨hcalls,
      ⟨?_, ?_, h.continuous_add hacc, p.continuity, ?_, p.continuity_lt, hnext⟩⟩⟩
    · have hadd : (r.add p).bytes.length = r.bytes.length + (188 - p.payload) := by
        rw [Received.add, List.length_append, Packet.payloadBytes, length_load]
      rw [hcol, hbytes, hmax]
      rcases Nat.lt_or_ge (t.sectionWriteOffset + n) 1021 with hroom | hfull
      · rw [List.take_of_length_le (by omega), List.take_of_length_le (by omega)]
      · congr 1
        omega
    · rw [TableInfo.sectionWriteOffset, hcol, hlen, hsec]
      omega
    · exact List.getLast?_concat

end Holding

namespace TableSession

/-! ## One packet -/

/-- A packet does not change what another PID has carried. -/
theorem receive_of_ne {received : ℕ → Received} {p : Packet} {pid : ℕ}
    (h : ¬ (p.pid = pid ∧ p.hasPayload = true)) : receive received p pid = received pid := by
  by_cases hpay : p.hasPayload = true
  · rw [receive, if_pos hpay]
    exact Function.update_of_ne (fun heq => h ⟨heq.symm, hpay⟩) _ _
  · rw [receive, if_neg hpay]

theorem receive_start {received : ℕ → Received} {p : Packet} (hpay : p.hasPayload = true)
    (hstart : p.payloadStart = true) :
    receive received p p.pid = ⟨p.payloadBytes, [p.continuity]⟩ := by
  rw [receive, if_pos hpay, if_pos hstart, Function.update_self]

theorem receive_next {received : ℕ → Received} {p : Packet} (hpay : p.hasPayload = true)
    (hstart : p.payloadStart = false) :
    receive received p p.pid = (received p.pid).add p := by
  rw [receive, if_pos hpay, if_neg (by simp [hstart]), Function.update_self]
  rfl

/-- What holds of a table between two packets: no copy has run over; and if
nothing of its PID has been passed over, the buffer holds the payload of that
PID. -/
def TableInv (s : TableSession) (T : Table) : Prop :=
  (s.tables.table T).overrun = false ∧
    ((s.tables.table T).collected ≠ [] → (s.watch T).whole = true →
      Holding (s.tables.table T) (s.received (s.watch T).pid))

/-- A packet of another PID, or one passed over, keeps what a buffer holds. -/
theorem holding_passed {s : TableSession} {T : Table} {p : Packet} (h : s.TableInv T)
    {t : TableInfo} (ht : t.collected = (s.tables.table T).collected)
    (hsec : t.sectionLength = (s.tables.table T).sectionLength)
    (hnext : t.nextContinuity = (s.tables.table T).nextContinuity) :
    let w := if p.pid = (s.watch T).pid ∧ p.hasPayload = true then { s.watch T with whole := false }
      else s.watch T
    t.collected ≠ [] → w.whole = true → Holding t (receive s.received p w.pid) := by
  intro w hne hwhole
  by_cases hpid : p.pid = (s.watch T).pid ∧ p.hasPayload = true
  · rw [show w = _ from if_pos hpid] at hwhole
    cases hwhole
  · have hw : w = s.watch T := if_neg hpid
    rw [hw] at hwhole ⊢
    rw [receive_of_ne hpid]
    rw [ht] at hne
    obtain ⟨hbytes, hmissing, hcont, hc⟩ := h.2 hne hwhole
    exact ⟨ht.trans hbytes, by rwa [TableInfo.sectionWriteOffset, ht, hsec], hcont,
      by rwa [hnext]⟩

/-- A short section in its packet is from that packet's payload. -/
theorem fromPayload_short {p : Packet}
    (hfit : p.payload + 4 + p.sectionLength p.payload ≤ 188) :
    FromPayload ⟨p.sectionLength p.payload, load p p.payload (p.sectionLength p.payload + 4)⟩
      ⟨p.payloadBytes, [p.continuity]⟩ := by
  refine ⟨?_, length_load, List.isChain_singleton _⟩
  rw [Packet.payloadBytes, take_load]
  refine congrArg (load p p.payload) (Nat.min_eq_left ?_).symm
  exact Nat.le_sub_of_add_le (by omega)

/-- **One packet, one table.** A packet in place keeps what the table's buffer
holds, and the sections it has parsed are from the payload of its PID. -/
theorem tableInv_packet {s : TableSession} {T : Table} {m : Mode} {p : Packet}
    (h : s.TableInv T) (hplace : ∀ i ∈ s.tables.input T (.packet m p), s.InPlace T i) :
    (s.step (.packet m p)).TableInv T ∧
      ∀ call ∈ s.newCalls T (.packet m p), FromPayload call (receive s.received p p.pid) := by
  have htable := Tables.step_table s.tables T (.packet m p)
  simp only [TableInv, newCalls, step, watchAfter, htable]
  rcases hin : s.tables.input T (.packet m p) with _ | ⟨q, off⟩ | ⟨q, off⟩ <;>
    rw [hin] at hplace <;> simp only [Option.elim, TableInfo.feed]
  · -- the packet does not reach the table
    exact ⟨⟨h.1, holding_passed h rfl rfl rfl⟩, by simp⟩
  · obtain ⟨rfl, rfl, hpay, hstart⟩ := Tables.input_start hin
    have hq := hplace _ rfl
    rw [receive_start hpay hstart]
    rcases Nat.lt_or_ge TableInfo.maxShortLength (q.sectionLength q.payload) with hlong | hshort
    · -- a long section is begun
      rw [InPlace, if_neg (by omega)] at hq
      obtain ⟨hhold, hcalls, hover⟩ := holding_start (t := s.tables.table T) hlong hq
      have htakes : takes (s.tables.table T) (.start q q.payload) = true := decide_eq_true hlong
      rw [if_pos htakes, hcalls, receive_start hpay hstart]
      exact ⟨⟨hover.trans h.1, fun _ _ => hhold⟩, by simp⟩
    · -- a short one is parsed, and the buffer is as it was
      rw [InPlace, if_pos hshort] at hq
      rw [if_neg (by simpa [takes] using hshort), TableInfo.start]
      rw [if_pos hshort]
      refine ⟨⟨h.1, holding_passed h rfl rfl rfl⟩, ?_⟩
      simpa using fromPayload_short hq
  · obtain ⟨rfl, hstart⟩ := Tables.input_next hin
    by_cases hacc : (s.tables.table T).Accepts q
    · -- the packet is taken
      obtain ⟨hpid, hwhole, hpay, rfl, hfit⟩ := hplace _ rfl hacc
      have htakes : takes (s.tables.table T) (.next q q.payload) = true := decide_eq_true hacc
      rw [if_pos htakes, TableInfo.next_of_accepts hacc, ← hpid,
        receive_next hpay hstart]
      have hhold := h.2 hacc.1 hwhole
      rw [← hpid] at hhold
      obtain ⟨hover, happend⟩ := hhold.append hacc hfit
      rcases happend with ⟨call, hcalls, hfrom, hfree⟩ | ⟨hcalls, hmore⟩
      · refine ⟨⟨hover.trans h.1, fun hne => absurd hfree hne⟩, ?_⟩
        rw [hcalls]
        simpa using hfrom
      · rw [hcalls]
        exact ⟨⟨hover.trans h.1, fun _ _ => hmore⟩, by simp⟩
    · obtain ⟨hfree, hcalls, hover⟩ := TableInfo.next_of_not_accepts (o := off) hacc
      rw [hcalls]
      exact ⟨⟨hover.trans h.1, fun hne => absurd hfree hne⟩, by simp⟩

/-! ## Runs -/

/-- What holds between two packets. -/
structure Inv (s : TableSession) : Prop where
  table : ∀ T, s.TableInv T
  log : ∀ x ∈ s.log, FromPayload x.call x.received

theorem inv_start : Inv start where
  table := fun T => ⟨by cases T <;> rfl, fun hne => absurd (by cases T <;> rfl) hne⟩
  log := fun _ hx => absurd hx List.not_mem_nil

/-- **One packet** in place keeps the invariant. -/
theorem inv_step {s : TableSession} {e : TsEvent} (h : Inv s) (hplace : s.AllInPlace e) :
    Inv (s.step e) := by
  cases e with
  | call videoPid prescanned =>
    refine ⟨fun T => ?_, h.log⟩
    have htable := h.table T
    cases T <;> exact htable
  | packet m p =>
    have hboth : ∀ T, ∀ i ∈ s.tables.input T (.packet m p), s.InPlace T i := by
      intro T
      cases T with
      | pmt => exact hplace.1
      | scte35 => exact hplace.2
    refine ⟨fun T => (tableInv_packet (h.table T) (hboth T)).1, fun x hx => ?_⟩
    have hnew : ∀ T, ∀ y : Parsed, y ∈ (s.newCalls T (.packet m p)).map
        (⟨T, ·, receive s.received p p.pid⟩) → FromPayload y.call y.received := by
      intro T y hy
      obtain ⟨call, hcall, rfl⟩ := List.mem_map.mp hy
      exact (tableInv_packet (h.table T) (hboth T)).2 call hcall
    rcases List.mem_append.mp hx with hx | hx
    · rcases List.mem_append.mp hx with hx | hx
      · exact h.log x hx
      · exact hnew .pmt x hx
    · exact hnew .scte35 x hx

end TableSession

end MediaFramework
