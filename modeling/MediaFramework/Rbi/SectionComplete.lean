import MediaFramework.Rbi.TableAggregator

/-!
# When a section is completed

A section comes in a payload-start packet and the packets of its PID after it,
with consecutive continuity counters. It is completed when it is parsed exactly
once and the table's buffer is free again.

The write offset counts the pointer field and the three bytes in front of the
section's counted length, and the buffer has 1021 bytes for all of them: a long
section is completed when its length is at most 1017 and the bytes that the
offsets in use leave of its packets are enough. A short section is parsed at
once, and completed if no other section was being collected, or the packet after
it shows that section to be broken.
-/

namespace MediaFramework

namespace TableInfo

/-- After these inputs, one more section has been parsed, of this length, and
the buffer is free. -/
structure Completes (t : TableInfo) (inputs : List Input) (sectionLength : ℕ) : Prop where
  defined : (inputs.foldl feed t).overrun = false
  once : ∃ call, (inputs.foldl feed t).calls = t.calls ++ [call] ∧
    call.sectionLength = sectionLength
  reset : (inputs.foldl feed t).sectionWriteOffset = 0

/-- The bytes behind the offsets are enough for what is needed; an offset behind
the packet's end comes only after that. -/
def Covers : ℕ → List ℕ → Prop
  | _, [] => False
  | need, payloadOffset :: rest =>
    payloadOffset ≤ 188 ∧
      (need ≤ 188 - payloadOffset ∨ Covers (need - (188 - payloadOffset)) rest)

instance Covers.decidable : ∀ need offsets, Decidable (Covers need offsets)
  | _, [] => isFalse id
  | need, payloadOffset :: rest =>
    have := Covers.decidable (need - (188 - payloadOffset)) rest
    inferInstanceAs (Decidable (_ ∧ _))

/-- Enough payload covers. -/
theorem covers_of_sum {offsets : List ℕ} : ∀ {need : ℕ}, (∀ o ∈ offsets, o ≤ 188) → 0 < need →
    need ≤ (offsets.map (188 - ·)).sum → Covers need offsets := by
  induction offsets with
  | nil =>
    intro need _ hpos hsum
    exact absurd hsum (Nat.not_le.mpr hpos)
  | cons o offsets ih =>
    intro need hle hpos hsum
    refine ⟨hle o List.mem_cons_self, ?_⟩
    rcases Nat.lt_or_ge (188 - o) need with hmore | henough
    · right
      rw [List.map_cons, List.sum_cons] at hsum
      exact ih (fun x hx => hle x (List.mem_cons_of_mem o hx)) (by omega) (by omega)
    · exact .inl henough

/-- A continuation packet with the offset it is cut at. -/
abbrev Cut : Type := Packet × ℕ

/-- The continuation packets as inputs. -/
def nexts (rest : List Cut) : List Input := rest.map fun x => .next x.1 x.2

/-- Each packet's counter is one more than that of the packet before it. -/
def Consecutive : ℕ → List Cut → Prop
  | _, [] => True
  | counter, x :: rest =>
    x.1.continuity = (counter + 1) % 16 ∧ Consecutive x.1.continuity rest

instance Consecutive.decidable : ∀ counter rest, Decidable (Consecutive counter rest)
  | _, [] => isTrue trivial
  | _, x :: rest =>
    have := Consecutive.decidable x.1.continuity rest
    inferInstanceAs (Decidable (_ ∧ _))

/-! ## Where nothing is collected, or something else is -/

/-- With a free buffer, continuation packets are passed over. -/
theorem foldl_nexts_free {t : TableInfo} (h : t.collected = []) (rest : List Cut) :
    (nexts rest).foldl feed t = t := by
  induction rest with
  | nil => rfl
  | cons x rest ih =>
    show (nexts rest).foldl feed (t.next x.1 x.2) = t
    rw [next_of_free h]
    exact ih

/-- The buffer is in use for a section the packets do not belong to, or has been
since `n` calls. -/
def Spoiled (n k : ℕ) (t : TableInfo) : Prop :=
  t.overrun = true ∨ n < t.calls.length ∨
    (n ≤ t.calls.length ∧ t.collected ≠ [] ∧ t.nextContinuity = (k + 1) % 16)

theorem Spoiled.append {t : TableInfo} (p : Packet) (o n : ℕ) (hn : n ≤ t.calls.length)
    (hne : t.collected ≠ []) : Spoiled n p.continuity (t.append p o) := by
  rcases append_cases t p o with ⟨-, hover, -⟩ | ⟨-, -, -, hcalls, -⟩ | ⟨-, -, -, hcalls, hcol, -, hnext⟩
  · exact .inl hover
  · right; left
    rw [hcalls, List.length_append, List.length_singleton]
    omega
  · right; right
    refine ⟨hn.trans_eq (congrArg List.length hcalls.symm), ?_, hnext⟩
    rw [hcol]
    exact List.append_ne_nil_of_left_ne_nil hne _

theorem Spoiled.nexts {n : ℕ} {rest : List Cut} : ∀ {k : ℕ} {t : TableInfo},
    Spoiled n k t → Consecutive k rest →
      ∃ k', Spoiled n k' ((TableInfo.nexts rest).foldl feed t) := by
  induction rest with
  | nil =>
    intro k t h _
    exact ⟨k, h⟩
  | cons x rest ih =>
    intro k t h hcc
    refine ih (t := t.next x.1 x.2) ?_ hcc.2
    rcases h with hover | hcalls | ⟨hn, hne, hnext⟩
    · exact .inl (next_overrun hover)
    · exact .inr (.inl (hcalls.trans_le next_calls_le))
    · rw [next_of_accepts (accepts_of_eq hne (hcc.1.trans hnext.symm))]
      exact Spoiled.append x.1 x.2 n hn hne

/-- A buffer spoiled since one call more than before completes nothing. -/
theorem Spoiled.not_completes {t : TableInfo} {inputs : List Input} {len k : ℕ}
    (h : Spoiled (t.calls.length + 1) k (inputs.foldl feed t)) :
    ¬ Completes t inputs len := by
  intro hc
  obtain ⟨call, hcalls, -⟩ := hc.once
  rcases h with hover | hmore | ⟨-, hne, -⟩
  · rw [hc.defined] at hover
    cases hover
  · rw [hcalls, List.length_append, List.length_singleton] at hmore
    omega
  · exact hne (sectionWriteOffset_eq_zero.mp hc.reset)

/-- Once the section is parsed and the buffer is free, it stays so. -/
theorem completes_of_free {t u : TableInfo} {call : SectionCall} {inputs : List Input}
    (rest : List Cut) (hfold : inputs.foldl feed t = (nexts rest).foldl feed u)
    (hdef : u.overrun = false) (hcalls : u.calls = t.calls ++ [call]) (hfree : u.collected = []) :
    Completes t inputs call.sectionLength := by
  rw [foldl_nexts_free hfree] at hfold
  exact ⟨hfold ▸ hdef, ⟨call, hfold ▸ hcalls, rfl⟩,
    sectionWriteOffset_eq_zero.mpr (hfold ▸ hfree)⟩

/-- An overrun stays. -/
theorem foldl_nexts_overrun {t : TableInfo} (h : t.overrun = true) (rest : List Cut) :
    ((nexts rest).foldl feed t).overrun = true := by
  induction rest generalizing t with
  | nil => exact h
  | cons x rest ih => exact ih (t := t.next x.1 x.2) (next_overrun h)

/-- Inputs that parse nothing can be left out. -/
theorem completes_congr {t t' : TableInfo} {inputs inputs' : List Input} {len : ℕ}
    (hfold : inputs.foldl feed t = inputs'.foldl feed t') (hcalls : t'.calls = t.calls) :
    Completes t inputs len ↔ Completes t' inputs' len := by
  constructor
  · intro h
    exact ⟨hfold ▸ h.defined, hcalls ▸ hfold ▸ h.once, hfold ▸ h.reset⟩
  · intro h
    exact ⟨hfold ▸ h.defined, by rw [hfold, ← hcalls]; exact h.once, hfold ▸ h.reset⟩

/-! ## A short section -/

/-- **A short section** is completed when the buffer is free, or the packet after
it breaks off what is being collected. -/
theorem short_completes_iff {t : TableInfo} {p : Packet} {off : ℕ} {rest : List Cut}
    (hdef : t.overrun = false) (hshort : p.sectionLength off ≤ maxShortLength)
    (hcc : Consecutive p.continuity rest) :
    Completes t (.start p off :: nexts rest) (p.sectionLength off) ↔
      t.sectionWriteOffset = 0 ∨ ∃ x ∈ rest.head?, ¬ t.Accepts x.1 := by
  -- the section is parsed, and the buffer stays as it is
  obtain ⟨t', hstart, hcol, hdef', hcalls, hnext⟩ : ∃ t', t.start p off = t' ∧
      t'.collected = t.collected ∧ t'.overrun = false ∧
      t'.calls = t.calls ++
        [⟨p.sectionLength off, load p off (p.sectionLength off + 4)⟩] ∧
      t'.nextContinuity = t.nextContinuity := by
    refine ⟨_, rfl, ?_⟩
    rw [start]
    rw [if_pos hshort]
    exact ⟨rfl, hdef, rfl, rfl⟩
  have hfold : ∀ rest, (.start p off :: nexts rest).foldl feed t = (nexts rest).foldl feed t' := by
    intro rest
    rw [← hstart]
    rfl
  have hacc : ∀ q, t'.Accepts q ↔ t.Accepts q := by
    intro q
    simp only [Accepts, expected, hcol, hnext]
  by_cases hfree : t.collected = []
  · exact iff_of_true (completes_of_free rest (hfold rest) hdef' hcalls (hcol.trans hfree))
      (.inl (sectionWriteOffset_eq_zero.mpr hfree))
  · cases rest with
    | nil =>
      refine iff_of_false (fun hc => hfree ?_) (by simp [sectionWriteOffset_eq_zero, hfree])
      have hreset := sectionWriteOffset_eq_zero.mp hc.reset
      rw [hfold] at hreset
      exact hcol.symm.trans hreset
    | cons x rest =>
      by_cases hx : t.Accepts x.1
      · -- its bytes go to the other section
        refine iff_of_false (fun hc => ?_) (by simp [sectionWriteOffset_eq_zero, hfree, hx])
        have hspoiled : Spoiled (t.calls.length + 1) x.1.continuity (t'.append x.1 x.2) :=
          Spoiled.append x.1 x.2 _ (by simp [hcalls]) (by rwa [hcol])
        obtain ⟨k, hend⟩ := hspoiled.nexts hcc.2
        refine Spoiled.not_completes (k := k) ?_ hc
        rw [hfold]
        show Spoiled _ _ ((nexts rest).foldl feed (t'.next x.1 x.2))
        rw [next_of_accepts ((hacc x.1).mpr hx)]
        exact hend
      · refine iff_of_true ?_ (.inr ⟨x, rfl, hx⟩)
        obtain ⟨hcol', hcalls', hdef''⟩ := next_of_not_accepts (o := x.2) (mt (hacc x.1).mp hx)
        exact completes_of_free (u := t'.next x.1 x.2) rest (hfold (x :: rest))
          (hdef''.trans hdef') (hcalls'.trans hcalls) hcol'

/-! ## A long section -/

/-- **Collecting.** A section that fits the buffer is completed exactly when the
bytes behind the offsets are enough for what is missing. -/
theorem collect_completes_iff {rest : List Cut} : ∀ {t : TableInfo} {k : ℕ},
    t.overrun = false → t.collected ≠ [] → t.sectionWriteOffset < t.sectionLength + 4 →
    t.sectionLength + 4 ≤ maxSectionSize → t.nextContinuity = (k + 1) % 16 →
    Consecutive k rest →
      (Completes t (nexts rest) t.sectionLength ↔
        Covers (t.sectionLength + 4 - t.sectionWriteOffset) (rest.map Prod.snd)) := by
  induction rest with
  | nil =>
    intro t k _ hne _ _ _ _
    exact iff_of_false (fun hc => hne (sectionWriteOffset_eq_zero.mp hc.reset)) id
  | cons x rest ih =>
    intro t k hdef hne hlt hfit hnext hcc
    have hstep : (nexts (x :: rest)).foldl feed t = (nexts rest).foldl feed (t.append x.1 x.2) := by
      rw [← next_of_accepts (accepts_of_eq hne (hcc.1.trans hnext.symm))]
      rfl
    -- there is space for all that is missing
    have hcopy : t.copyLength x.2 =
        min ((t.sectionLength + 4 - t.sectionWriteOffset : ℕ) : ℤ) (188 - x.2) := by
      simp only [copyLength]
      omega
    have hlen : ∀ n : ℕ, (t.collected ++ load x.1 x.2 n).length = t.sectionWriteOffset + n := by
      intro n
      rw [List.length_append, length_load]
      rfl
    rcases append_cases t x.1 x.2 with ⟨hneg, hover, -⟩ | ⟨hpos, hdef', hwhole, hcalls, hcol⟩ |
      ⟨hpos, hdef', hpart, hcalls, hcol, hsec, hnext'⟩
    · -- the offset is behind the packet's end
      refine iff_of_false (fun hc => ?_) (fun hcov => ?_)
      · have hlast := hc.defined
        rw [hstep, foldl_nexts_overrun hover rest] at hlast
        cases hlast
      · have := hcov.1
        omega
    · rw [hlen] at hwhole
      refine iff_of_true ?_ ⟨by omega, .inl (by omega)⟩
      exact completes_of_free (u := t.append x.1 x.2) rest hstep (hdef'.trans hdef) hcalls hcol
    · rw [hlen] at hpart
      have hoff : (t.append x.1 x.2).sectionWriteOffset = t.sectionWriteOffset + (188 - x.2) := by
        rw [sectionWriteOffset, hcol, hlen]
        omega
      have hrest := ih (t := t.append x.1 x.2) (k := x.1.continuity) (hdef'.trans hdef)
        (by rw [hcol]; exact List.append_ne_nil_of_left_ne_nil hne _) (by omega) (by omega)
        hnext' hcc.2
      rw [hsec, hoff] at hrest
      rw [completes_congr hstep hcalls, hrest, List.map_cons, Covers, ← Nat.sub_sub]
      constructor
      · exact fun hcov => ⟨by omega, .inr hcov⟩
      · rintro ⟨-, henough | hcov⟩
        · omega
        · exact hcov

/-- A section that does not fit the buffer is never completed. -/
theorem not_completes_of_large {rest : List Cut} : ∀ {t : TableInfo} {k : ℕ},
    t.collected ≠ [] → t.sectionWriteOffset ≤ maxSectionSize →
    maxSectionSize < t.sectionLength + 4 → t.nextContinuity = (k + 1) % 16 →
    Consecutive k rest → ∀ len, ¬ Completes t (nexts rest) len := by
  induction rest with
  | nil =>
    intro t k hne _ _ _ _ len hc
    exact hne (sectionWriteOffset_eq_zero.mp hc.reset)
  | cons x rest ih =>
    intro t k hne hroom hlarge hnext hcc len
    have hstep : (nexts (x :: rest)).foldl feed t = (nexts rest).foldl feed (t.append x.1 x.2) := by
      rw [← next_of_accepts (accepts_of_eq hne (hcc.1.trans hnext.symm))]
      rfl
    have hspace : t.copyLength x.2 ≤ maxSectionSize - t.sectionWriteOffset := by
      simp only [copyLength]
      omega
    have hlen : (t.collected ++ load x.1 x.2 (t.copyLength x.2).toNat).length ≤
        max t.sectionWriteOffset maxSectionSize := by
      rw [List.length_append, length_load]
      show t.sectionWriteOffset + _ ≤ _
      omega
    rcases append_cases t x.1 x.2 with ⟨-, hover, -⟩ | ⟨-, -, hwhole, -⟩ |
      ⟨-, -, -, hcalls, hcol, hsec, hnext'⟩
    · intro hc
      have hlast := hc.defined
      rw [hstep, foldl_nexts_overrun hover rest] at hlast
      cases hlast
    · omega
    · rw [completes_congr hstep hcalls]
      refine ih (t := t.append x.1 x.2) (k := x.1.continuity)
        (by rw [hcol]; exact List.append_ne_nil_of_left_ne_nil hne _) ?_ (by omega) hnext' hcc.2 len
      rw [sectionWriteOffset, hcol]
      omega

/-- **A long section** is completed when it fits the buffer and the bytes behind
the offsets are enough. -/
theorem long_completes_iff {t : TableInfo} {p : Packet} {off : ℕ} {rest : List Cut}
    (hdef : t.overrun = false) (hlong : maxShortLength < p.sectionLength off)
    (hoff : off < 188) (hstart : 4 ≤ off) (hcc : Consecutive p.continuity rest) :
    Completes t (.start p off :: nexts rest) (p.sectionLength off) ↔
      p.sectionLength off + 4 ≤ maxSectionSize ∧
        Covers (p.sectionLength off + 4 - (188 - off)) (rest.map Prod.snd) := by
  obtain ⟨t', ht', hcol, hdef', hcalls, hsec, hnext⟩ : ∃ t', t.start p off = t' ∧
      t'.collected = load p off (188 - off) ∧ t'.overrun = false ∧ t'.calls = t.calls ∧
      t'.sectionLength = p.sectionLength off ∧
      t'.nextContinuity = (p.continuity + 1) % 16 := by
    refine ⟨_, rfl, ?_⟩
    rw [start]
    rw [if_neg (by omega), if_neg (by omega)]
    exact ⟨congrArg (load p off) (by omega), hdef, rfl, rfl, rfl⟩
  have hfold : (.start p off :: nexts rest).foldl feed t = (nexts rest).foldl feed t' := by
    rw [← ht']
    rfl
  have hwrite : t'.sectionWriteOffset = 188 - off := by
    rw [sectionWriteOffset, hcol, length_load]
  have hne : t'.collected ≠ [] := fun h => by
    have := sectionWriteOffset_eq_zero.mpr h
    omega
  have hmin : maxShortLength = 180 := rfl
  have hmax : maxSectionSize = 1021 := rfl
  rw [completes_congr hfold hcalls, ← hsec, ← hwrite]
  rcases Nat.lt_or_ge maxSectionSize (t'.sectionLength + 4) with hlarge | hfit
  · exact iff_of_false
      (not_completes_of_large hne (by omega) hlarge hnext hcc _) fun h => by omega
  · rw [collect_completes_iff hdef' hne (by omega) hfit hnext hcc]
    exact (and_iff_right hfit).symm

end TableInfo

/-! ## Sections in a stream -/

namespace Tables

open TableInfo

/-- A table's inputs along a run are those of one section: its payload-start
packet with the section's header, and continuation packets with consecutive
counters whose payloads hold the rest. -/
structure Carries (T : Table) (s : Tables) (events : List TsEvent) (p : Packet)
    (rest : List Cut) : Prop where
  inputs_eq : s.inputs T events = .start p p.payload :: nexts rest
  header : p.payload + 4 ≤ 188
  legal : p.sectionLength p.payload ≤ maxSectionSize
  consecutive : Consecutive p.continuity rest
  payloads : ∀ x ∈ rest, x.1.payload ≤ 188
  holds : p.sectionLength p.payload + 4 ≤
    (188 - p.payload) + (rest.map fun x => 188 - x.1.payload).sum

/-- When the section is completed. -/
def CompletesWhen (T : Table) (s : Tables) (p : Packet) (rest : List Cut) : Prop :=
  if p.sectionLength p.payload ≤ maxShortLength then
    (s.table T).sectionWriteOffset = 0 ∨ ∃ x ∈ rest.head?, ¬ (s.table T).Accepts x.1
  else
    p.sectionLength p.payload + 4 ≤ maxSectionSize ∧
      (T = .scte35 →
        Covers (p.sectionLength p.payload + 4 - (188 - p.payload)) (rest.map Prod.snd))

/-- The continuation packets of a PMT are cut at their own payload, and so they
cover it. -/
theorem Carries.covers_pmt {s : Tables} {events : List TsEvent} {p : Packet} {rest : List Cut}
    (h : Carries .pmt s events p rest) (hlong : maxShortLength < p.sectionLength p.payload) :
    Covers (p.sectionLength p.payload + 4 - (188 - p.payload)) (rest.map Prod.snd) := by
  have hmin : maxShortLength = 180 := rfl
  have hfour := p.four_le_payload
  have hown : ∀ x ∈ rest, x.2 = x.1.payload := by
    intro x hx
    have hin : .next x.1 x.2 ∈ s.inputs .pmt events := by
      rw [h.inputs_eq]
      exact List.mem_cons_of_mem _ (List.mem_map_of_mem hx)
    exact inputs_pmt_offset hin
  have hoffsets : rest.map Prod.snd = rest.map fun x => x.1.payload :=
    List.map_congr_left hown
  have hholds := h.holds
  rw [hoffsets]
  refine covers_of_sum (fun o ho => ?_) (by omega) ?_
  · obtain ⟨x, hx, rfl⟩ := List.mem_map.mp ho
    exact h.payloads x hx
  · rw [List.map_map]
    exact Nat.sub_le_iff_le_add'.mpr hholds

/-- **Completion.** A section of legal length, carried by consecutive packets, is
parsed exactly once and leaves the buffer free if and only if it is short and
comes when the buffer is free (or is freed by its next packet), or it is at most
1017 bytes long and, for SCTE-35, the offsets left by other packets leave
enough bytes. -/
theorem section_completes_iff {T : Table} {s : Tables} {events : List TsEvent} {p : Packet}
    {rest : List Cut} (hdef : (s.table T).overrun = false) (h : Carries T s events p rest) :
    Completes (s.table T) (s.inputs T events) (p.sectionLength p.payload) ↔
      CompletesWhen T s p rest := by
  have hheader := h.header
  rw [h.inputs_eq, CompletesWhen]
  rcases Nat.lt_or_ge maxShortLength (p.sectionLength p.payload) with hlong | hshort
  · rw [if_neg (by omega), long_completes_iff hdef hlong (by omega) p.four_le_payload h.consecutive]
    refine and_congr_right fun _ => ?_
    cases T with
    | pmt => exact iff_of_true (h.covers_pmt hlong) fun hT => by cases hT
    | scte35 => exact (imp_iff_right rfl).symm
  · rw [if_pos hshort]
    exact short_completes_iff hdef hshort h.consecutive

/-- A processor that knows the PMT's PID from the PAT. -/
def knowsPid : Tables := { initial with havePAT := true, program := 1, pmtPid := 0x100 }

/-- Nothing but tables is looked at. -/
def tablesOnly : Mode where
  triggerEnable := false
  triggerPids := fun _ => false
  videoPid := -1
  audioPid := -1
  frameDetectEnable := false
  filteringAudio := false
  determineNetAC3FrameSizeDuration := false

/-- The first packet of a PMT section, with the two bytes of its length field. -/
def pmtStart (high low : UInt8) : Packet :=
  packetOf [0x47, 0x41, 0x00, 0x10, 0x00, 0x02, high, low, 0x00, 0x01, 0xC1]

/-- A packet after it. -/
def pmtNext (counter : UInt8) : Packet := packetOf [0x47, 0x01, 0x00, 0x10 ||| counter]

/-- A PMT section of 300 bytes in two packets. -/
theorem pmt_completes_twoPackets :
    Completes (knowsPid.table .pmt) (knowsPid.inputs .pmt
      [.packet tablesOnly (pmtStart 0xB1 0x2C), .packet tablesOnly (pmtNext 1)]) 300 := by
  have hcarries : Carries .pmt knowsPid
      [.packet tablesOnly (pmtStart 0xB1 0x2C), .packet tablesOnly (pmtNext 1)]
      (pmtStart 0xB1 0x2C) [(pmtNext 1, 4)] :=
    ⟨rfl, by decide, by decide, by decide, by decide, by decide⟩
  refine (section_completes_iff rfl hcarries).mpr ?_
  rw [CompletesWhen, if_neg (by decide)]
  exact ⟨by decide, by decide⟩

/-- A PMT section of 1018 bytes, which is a legal length, in six packets: the
buffer is too small for the four bytes in front of what is counted. -/
theorem longPmt_not_completed : ∃ p rest events,
    Carries .pmt knowsPid events p rest ∧ p.sectionLength p.payload = 1018 ∧
      ¬ Completes (knowsPid.table .pmt) (knowsPid.inputs .pmt events) 1018 := by
  let rest : List Cut := [1, 2, 3, 4, 5].map fun c => (pmtNext c, 4)
  refine ⟨pmtStart 0xB3 0xFA, rest, .packet tablesOnly (pmtStart 0xB3 0xFA) ::
      rest.map fun x => .packet tablesOnly x.1,
    ⟨rfl, by decide, by decide, by decide, by decide, by decide⟩, by decide, ?_⟩
  intro hc
  have hlong : Completes (knowsPid.table .pmt) (.start (pmtStart 0xB3 0xFA) 4 :: nexts rest)
      ((pmtStart 0xB3 0xFA).sectionLength 4) := hc
  have hfits := (long_completes_iff rfl (by decide) (by decide) (by decide) (by decide)).mp hlong
  exact absurd hfits.1 (by decide)

end Tables

end MediaFramework
