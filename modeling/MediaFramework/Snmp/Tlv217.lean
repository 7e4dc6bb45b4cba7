import MediaFramework.Snmp.TlvReceivers

/-!
# TLV 217 as it is parsed

The parser of assignments, and then a configuration of TLVs of all types. Each TLV adds its entry, or
nothing, to the lists; the object changes in no other way but by the events that are reported, and
the parse goes on at the next TLV.
-/

namespace MediaFramework

open VlByteStream Tlv Tlv217

variable {s : VlByteStream}

/-! ## Assignments (11) -/

theorem vlGetSnmpVarBind_of_ahead {value : List UInt8} (h : s.Ahead value) {oid : Tlv}
    {inner : List Tlv} (hvalue : value = encodeAll (oid :: inner))
    (hinner : oid.tag = 6 → inner ≠ []) (c : TlvConfig) :
    ∃ bind events, vlGetSnmpVarBind c s value.length = some (bind, c.report events) ∧
      (if bind.OIDmib = [] then none else some bind) = objectValue (oid :: inner) := by
  have hchild := h.child.1
  nth_rewrite 2 [hvalue] at hchild
  rw [encodeAll_cons] at hchild
  obtain ⟨htag, hlength, hrest⟩ := vlParseByte_of_ahead_encode hchild
  obtain ⟨hoid, hrest⟩ := hrest.append
  simp only [vlGetSnmpVarBind, htag, hlength, vlSnmpProcessTlv217Field_of_ahead hoid oid.length_lt,
    vlGetAsnEncodedOidParseBuff_eq_arcs, Option.bind_eq_bind, Option.bind_some]
  have h6 : oid.tag.toNat = 6 ↔ oid.tag = 6 := UInt8.toNat_inj (b := 6)
  split_ifs with htag6
  · rcases inner with _ | ⟨v, inner⟩
    · exact absurd rfl (hinner (h6.mp htag6))
    · obtain ⟨htag, hlength, hrest⟩ := vlParseByte_of_ahead_encode hrest
      simp only [htag, hlength, vlSnmpProcessTlv217Field_of_ahead hrest.append.1 v.length_lt,
        Option.bind_some]
      refine ⟨_, [], by rw [TlvConfig.report_nil]; rfl, ?_⟩
      rcases harcs : arcs oid.value <;> simp [objectValue, h6.mp htag6, harcs]
  · refine ⟨_, _, rfl, ?_⟩
    rcases inner <;> simp [objectValue, mt h6.mpr htag6]

/-- What a TLV of type 11 adds. -/
theorem TlvConfig.hold_11 {t : Tlv} (htag : t.tag = 11) (c : TlvConfig) :
    c.hold [t] = { c with
      SNMPmibObjectList := ((assignment t).map
        (addNew (sameAssignment .asBuilt) c.SNMPmibObjectList)).getD c.SNMPmibObjectList } := by
  rcases hentry : assignment t with _ | x <;>
    simp [hold, lists, coexistence, accessView, receiver, htag, hentry]

/-- A request is made, and at most reported. -/
theorem processTlv217SnmpSetRequest_eq (agent : SnmpAgent) (c : TlvConfig)
    (soFar : List VlTlvSnmpVarBind) (bind : VlTlvSnmpVarBind) :
    ∃ events, processTlv217SnmpSetRequest agent c soFar bind = c.report events := by
  rw [processTlv217SnmpSetRequest]
  split_ifs
  · split
    · split
      all_goals first | exact ⟨_, rfl⟩ | exact ⟨[], c.report_nil.symm⟩
    all_goals first | exact ⟨_, rfl⟩ | exact ⟨[], c.report_nil.symm⟩
  · exact ⟨_, rfl⟩

theorem vlSNMPmibObjectParse_of_ahead (agent : SnmpAgent) {t : Tlv} (h : s.Ahead t.value)
    (htag : t.tag = 11) (hformed : WellFormed t) (c : TlvConfig) :
    ∃ events, vlSNMPmibObjectParse agent c s t.value.length =
      some ((c.hold [t]).report events, s.advanceBuf t.value.length) := by
  rw [WellFormed, htag] at hformed
  obtain ⟨seq, rest, hvalue, hseq⟩ := hformed
  have hchild := h.child.1
  nth_rewrite 2 [hvalue] at hchild
  obtain ⟨hhead, hlength, hrest⟩ := vlParseByte_of_ahead_encode hchild
  obtain ⟨hahead, _⟩ := hrest.append
  have h30 : seq.tag.toNat = 0x30 ↔ seq.tag = 0x30 := UInt8.toNat_inj (b := 0x30)
  have hentry : assignment t =
      if seq.tag = 0x30 then (split seq.value).bind objectValue else none := by
    rw [assignment, if_pos htag, hvalue, split_encodeAll]
    rfl
  simp only [vlSNMPmibObjectParse, hhead, hlength,
    vlSnmpProcessTlv217Field_of_ahead hahead seq.length_lt, Option.bind_eq_bind, Option.bind_some]
  rw [TlvConfig.hold_11 htag, hentry]
  split_ifs with htag30 hseq30 hseq30
  · obtain ⟨oid, inner, hinner, hmore⟩ := hseq hseq30
    obtain ⟨bind, events, hbind, hobject⟩ := vlGetSnmpVarBind_of_ahead hahead hinner hmore c
    rw [hbind, Option.bind_some, hinner, split_encodeAll, Option.bind_some, ← hobject]
    by_cases hempty : bind.OIDmib = []
    · refine ⟨events, ?_⟩
      rw [if_neg (by rw [hempty]; exact Nat.lt_irrefl 0), if_pos hempty]
      rfl
    · obtain ⟨events', hduplicates⟩ := TlvConfig.checkForDuplicates_eq (·.OIDmib == bind.OIDmib)
        .I411_2 c.SNMPmibObjectList (c.report events)
      have hlist : (c.report events).SNMPmibObjectList = c.SNMPmibObjectList := rfl
      have hsame : c.SNMPmibObjectList.any (·.OIDmib == bind.OIDmib) =
        c.SNMPmibObjectList.any (sameAssignment .asBuilt · bind) := rfl
      rw [if_pos (List.length_pos_of_ne_nil hempty), hlist, hduplicates, if_neg hempty,
        Option.map_some, Option.getD_some, addNew, ← hsame]
      split_ifs
      · exact ⟨events ++ events', by rw [← TlvConfig.report_report]; rfl⟩
      · obtain ⟨events'', hset⟩ := processTlv217SnmpSetRequest_eq agent
          { (c.report events).report events' with
            SNMPmibObjectList := c.SNMPmibObjectList ++ [bind] } c.SNMPmibObjectList bind
        refine ⟨events ++ events' ++ events'', ?_⟩
        rw [hset, ← TlvConfig.report_report, ← TlvConfig.report_report]
        rfl
  · exact absurd (h30.mp htag30) hseq30
  · exact absurd (h30.mpr hseq30) htag30
  · exact ⟨_, rfl⟩

/-! ## All of them -/

/-- A TLV of another type adds nothing. -/
theorem TlvConfig.hold_other {t : Tlv} (h53 : t.tag.toNat ≠ 53) (h54 : t.tag.toNat ≠ 54)
    (h11 : t.tag.toNat ≠ 11) (h38 : t.tag.toNat ≠ 38) (c : TlvConfig) : c.hold [t] = c := by
  have hne : ∀ {b : UInt8}, t.tag.toNat ≠ b.toNat → t.tag ≠ b := fun h heq => h (congrArg _ heq)
  simp [hold, lists, coexistence, accessView, receiver, assignment, hne (b := 53) h53,
    hne (b := 54) h54, hne (b := 11) h11, hne (b := 38) h38]

theorem tlv217Case_of_ahead (agent : SnmpAgent) {t : Tlv} (h : s.Ahead t.value)
    (hformed : WellFormed t) (c : TlvConfig) :
    ∃ events, tlv217Case agent t.tag.toNat t.value.length c s =
      some (.inr ((c.hold [t]).report events, s.advanceBuf t.value.length)) := by
  unfold tlv217Case
  split
  · rename_i htag
    obtain ⟨events, hparse⟩ :=
      vlSNMPv1v2cParse_of_ahead h (UInt8.toNat_inj.mp htag) hformed c
    exact ⟨events, by rw [hparse]; rfl⟩
  · rename_i htag
    obtain ⟨events, hparse⟩ :=
      vlSNMPv3AccessViewConfigParse_of_ahead h (UInt8.toNat_inj.mp htag) hformed c
    exact ⟨events, by rw [hparse]; rfl⟩
  · rename_i htag
    obtain ⟨events, hparse⟩ :=
      vlSNMPmibObjectParse_of_ahead agent h (UInt8.toNat_inj.mp htag) hformed c
    exact ⟨events, by rw [hparse]; rfl⟩
  · rename_i htag
    rw [WellFormed, htag] at hformed
    exact hformed.elim
  · rename_i htag
    rw [WellFormed, htag] at hformed
    exact hformed.elim
  · rename_i htag
    rw [WellFormed, htag] at hformed
    exact hformed.elim
  · rename_i htag
    obtain ⟨events, hparse⟩ :=
      vlSNMPv3NotificationReceiverParse_of_ahead h (UInt8.toNat_inj.mp htag) hformed c
    exact ⟨events, by rw [hparse]; rfl⟩
  · rename_i h53 h54 h11 h1 h8 h43 h38
    rw [vlSnmpProcessTlv217Field_of_ahead h t.length_lt, TlvConfig.hold_other h53 h54 h11 h38]
    exact ⟨_, rfl⟩

theorem checkEventlistInTlv217list_eq (c : TlvConfig) :
    ∃ events, checkEventlistInTlv217list c = c.report events := by
  rw [checkEventlistInTlv217list]
  rcases c.IpModeControlList with _ | ⟨ipMode, _⟩
  · exact ⟨[], c.report_nil.symm⟩
  · dsimp only
    generalize c.v3NotificationReceiver_list = receivers
    induction receivers generalizing c with
    | nil => exact ⟨[], c.report_nil.symm⟩
    | cons receiver receivers ih =>
      rw [List.foldl_cons]
      split_ifs
      · obtain ⟨events, hevents⟩ := ih (c.report [(.I438_4, -1)])
        exact ⟨_, hevents.trans (TlvConfig.report_report _ events)⟩
      · exact ih c

/-- A configuration is parsed to its end, into the entries that it has by the rules; nothing else
changes but that events are reported. -/
def ParsedAs (R : Tlv217Rules) (agent : SnmpAgent) (config : List Tlv) (c : TlvConfig)
    (s : VlByteStream) : Prop :=
  ∃ events, vlSnmpParseTlv217Data agent c s (encodeAll config).length =
    some ({ c with
        toTlv217Lists := lists R config c.toTlv217Lists
        events := c.events ++ events }, s.advanceBuf (encodeAll config).length)

/-- **The lists hold the entries of the TLVs of a configuration**, however many there are and in
whatever order, as the code reads the rules. -/
theorem parsedAs_asBuilt (agent : SnmpAgent) (config : List Tlv)
    (hformed : ∀ t ∈ config, WellFormed t) (c : TlvConfig) (s : VlByteStream)
    (h : s.Ahead (encodeAll config)) : ParsedAs .asBuilt agent config c s := by
  have hrun := tlvLoop_of_holds (tlv217Case agent) checkEventlistInTlv217list
    (R := fun done x => ∃ events, x = (c.hold done).report events)
    (Q := fun r => ∃ events, r = (c.hold config).report events)
    config ?_ ?_ config [] ((encodeAll config).length + 1) c (s.child (encodeAll config).length) rfl
    ⟨[], by rw [TlvConfig.report_nil]; rfl⟩ h.child
    (Nat.lt_succ_of_le (length_le_encodeAll config))
  · obtain ⟨r, hr, events, rfl⟩ := hrun
    refine ⟨events, ?_⟩
    rw [vlSnmpParseTlv217Data, hr]
    rfl
  · rintro done t ts x s hall ⟨events, rfl⟩ ht
    have hmem : t ∈ config := by
      rw [hall]
      exact List.mem_append_right _ List.mem_cons_self
    obtain ⟨events', hcase⟩ := tlv217Case_of_ahead agent ht (hformed t hmem)
      ((c.hold done).report events)
    refine .inr ⟨_, hcase, events ++ events', ?_⟩
    rw [TlvConfig.hold_report, TlvConfig.report_report, TlvConfig.hold_hold]
  · rintro x ⟨events, rfl⟩
    obtain ⟨events', hevents⟩ := checkEventlistInTlv217list_eq ((c.hold config).report events)
    exact ⟨events ++ events', by rw [hevents, TlvConfig.report_report]⟩

/-! ## Where the rules could be read otherwise -/

/-- A TLV, of octets that fit. -/
def tlv (tag : UInt8) (value : List UInt8) : Tlv :=
  if h : value.length < 256 then ⟨tag, value, h⟩ else ⟨tag, [], Nat.zero_lt_succ 255⟩

/-- A receiver with two trap types and two filters, the first of which is no object identifier; an
entry with two transports; and two values for one object. -/
def ambiguous : List Tlv := [
  tlv 38 (encodeAll [tlv 1 [10, 0, 0, 1], tlv 3 [1], tlv 3 [2], tlv 6 [4, 1, 43],
    tlv 6 [6, 2, 43, 6]]),
  tlv 53 (encodeAll [tlv 1 [97], tlv 2 (encodeAll [tlv 1 [10, 0, 0, 1]]),
    tlv 2 (encodeAll [tlv 1 [10, 0, 0, 2]])]),
  tlv 11 (encodeAll [tlv 0x30 (encodeAll [tlv 6 [43, 6, 1], tlv 2 [1]])]),
  tlv 11 (encodeAll [tlv 0x30 (encodeAll [tlv 6 [43, 6, 1], tlv 2 [2]])])]

/-- A stream of them. -/
def ambiguousStream : VlByteStream := inst (encodeAll ambiguous) (encodeAll ambiguous).length

/-- An agent that accepts everything. -/
def compliant : SnmpAgent := ⟨fun _ _ => .success, fun _ _ => .success⟩

/-- **The rules as they are claimed are not those of the code**, and each of them alone is not. -/
theorem not_parsedAs_ambiguous :
    ¬ ParsedAs .asClaimed compliant ambiguous {} ambiguousStream ∧
      ∀ R, ParsedAs R compliant ambiguous {} ambiguousStream → R = .asBuilt := by
  have hlists : ∀ R, ParsedAs R compliant ambiguous {} ambiguousStream →
      (vlSnmpParseTlv217Data compliant {} ambiguousStream
        (encodeAll ambiguous).length).map (·.1.toTlv217Lists) = some (lists R ambiguous {}) := by
    rintro R ⟨events, hparse⟩
    rw [hparse]
    rfl
  have hall : ∀ R, ParsedAs R compliant ambiguous {} ambiguousStream →
      R = .asBuilt := by
    intro R hR
    have hlists := hlists R hR
    rcases R with ⟨_ | _, _ | _, _ | _, _ | _⟩
    case true.true.true.true => rfl
    all_goals exact absurd hlists (by decide +kernel)
  exact ⟨fun h => Bool.false_ne_true (congrArg Tlv217Rules.byObject (hall _ h)), hall⟩

/-- They are well-formed TLVs, though. -/
theorem parsedAs_asBuilt_ambiguous :
    (∀ t ∈ ambiguous, WellFormed t) ∧
      ParsedAs .asBuilt compliant ambiguous {} ambiguousStream := by
  have hformed : ∀ t ∈ ambiguous, WellFormed t := by
    simp only [ambiguous, List.forall_mem_cons, List.not_mem_nil, IsEmpty.forall_iff,
      implies_true, and_true]
    refine ⟨⟨_, rfl, ?_⟩, ⟨_, rfl, ?_⟩, ⟨_, [], rfl, fun _ => ⟨_, _, rfl, fun _ => by simp⟩⟩,
      ⟨_, [], rfl, fun _ => ⟨_, _, rfl, fun _ => by simp⟩⟩⟩
    · intro value hvalue
      have hmem : value ∈ [[4, 1, 43], [6, 2, 43, 6]] := hvalue
      rcases hmem with _ | ⟨_, _ | ⟨_, h⟩⟩
      · exact ⟨4, 1, [43], rfl, nofun⟩
      · exact ⟨6, 2, [43, 6], rfl, fun _ _ _ => by decide +kernel⟩
      · cases h
    · intro value hvalue
      have hmem : value ∈ [encodeAll [tlv 1 [10, 0, 0, 1]], encodeAll [tlv 1 [10, 0, 0, 2]]] :=
        hvalue
      rcases hmem with _ | ⟨_, _ | ⟨_, h⟩⟩
      · exact ⟨_, rfl⟩
      · exact ⟨_, rfl⟩
      · cases h
  exact ⟨hformed, parsedAs_asBuilt compliant ambiguous hformed {} _ (holds_inst _).1⟩

end MediaFramework
