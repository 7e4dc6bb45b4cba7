import MediaFramework.Snmp.TlvValues
import Mathlib.Data.List.ReduceOption

/-!
# TLVs as they are parsed

What the local variables of a parser are after some of the nested TLVs (`after`), one lemma for the
cases of its loop, and by the run rule what it adds to the lists in the end.
-/

namespace MediaFramework

open VlByteStream Tlv Tlv217

variable {s : VlByteStream}

namespace TlvConfig

/-- The lists hold what some TLVs add to them. -/
def hold (c : TlvConfig) (ts : List Tlv) : TlvConfig :=
  { c with toTlv217Lists := lists .asBuilt ts c.toTlv217Lists }

@[simp] theorem hold_report (c : TlvConfig) (ts : List Tlv) (events : List (ErrorCode × ℤ)) :
    (c.report events).hold ts = (c.hold ts).report events := rfl

theorem hold_hold (c : TlvConfig) (ts ts' : List Tlv) :
    (c.hold ts).hold ts' = c.hold (ts ++ ts') := by
  simp only [hold, lists, List.filterMap_append, List.foldl_append]

end TlvConfig

/-! ## Transports (53.2) -/

/-- After some nested TLVs. -/
def TransportParse.after (done : List Tlv) : TransportParse where
  TranpsortAddandMask := {
    TpAddress := (first 1 done).getD []
    TpMask := ((first 2 done).or ((first 1 done).map defaultMask)).getD [] }
  b_53_2_1_present := (first 1 done).isSome
  b_53_2_2_present := (first 2 done).isSome

theorem transportCase_of_ahead {t : Tlv} (h : s.Ahead t.value) (done : List Tlv) (c : TlvConfig) :
    ∃ events, transportCase t.tag.toNat t.value.length (.after done, c) s =
      some (.inr ((.after (done ++ [t]), c.report events), s.advanceBuf t.value.length)) := by
  unfold transportCase
  simp only [vlSnmpProcessTlv217Field_of_ahead h t.length_lt, Option.bind_eq_bind,
    Option.bind_some]
  split
  · rename_i htag
    rcases h1 : first 1 done with _ | address
    · refine ⟨[], ?_⟩
      rcases h2 : first 2 done with _ | mask <;>
        simp [TransportParse.after, first_concat, htag, h1, h2, defaultMask]
    · refine ⟨[(.I453_3, -1)], ?_⟩
      simp [TransportParse.after, first_concat, htag, h1, TlvConfig.edocsDevEventhandling_eq]
  · rename_i htag
    rcases h2 : first 2 done with _ | mask
    · refine ⟨[], ?_⟩
      simp [TransportParse.after, first_concat, htag, h2]
    · refine ⟨[(.I453_3, -1)], ?_⟩
      simp [TransportParse.after, first_concat, htag, h2, TlvConfig.edocsDevEventhandling_eq]
  · rename_i h1 h2
    refine ⟨[(.I401_1, 53)], ?_⟩
    simp [TransportParse.after, first_concat, if_neg h1, if_neg h2,
      TlvConfig.edocsDevEventhandling_eq]

/-- A transport is parsed. One without an address comes out without an address. -/
theorem vlSNMPv1v2cTransportAddressAccessParse_of_ahead {value : List UInt8} {inner : List Tlv}
    (h : s.Ahead value) (hinner : value = encodeAll inner) (c : TlvConfig) :
    ∃ transport events, vlSNMPv1v2cTransportAddressAccessParse c s value.length =
        some (transport, c.report events, s.advanceBuf value.length) ∧
      (if transport.TpAddress = [] then none else some transport) = Tlv217.transport value := by
  have hrun := tlvLoop_of_holds transportCase transportEnd
    (R := fun done x => ∃ events, x = (TransportParse.after done, c.report events))
    (Q := fun r => ∃ transport events, r = (transport, c.report events) ∧
      (if transport.TpAddress = [] then none else some transport) = Tlv217.transport value)
    inner ?_ ?_ inner [] (value.length + 1) ({}, c) (s.child value.length) rfl ⟨[], by simp; rfl⟩
    (hinner ▸ h.child) (by have := length_le_encodeAll inner; rw [hinner]; omega)
  · obtain ⟨r, hr, transport, events, rfl, htransport⟩ := hrun
    refine ⟨transport, events, ?_, htransport⟩
    rw [vlSNMPv1v2cTransportAddressAccessParse, hr]
    rfl
  · rintro done t ts x s - ⟨events, rfl⟩ ht
    obtain ⟨events', hcase⟩ := transportCase_of_ahead ht done (c.report events)
    exact .inr ⟨_, hcase, events ++ events', by rw [TlvConfig.report_report]⟩
  · rintro x ⟨events, rfl⟩
    rw [Tlv217.transport, hinner, split_encodeAll]
    rcases h1 : first 1 inner with _ | address
    · exact ⟨{}, events ++ [(ErrorCode.I453_2, -1)],
        by simp [transportEnd, TransportParse.after, h1, TlvConfig.edocsDevEventhandling_eq],
        by simp [h1]⟩
    · refine ⟨(TransportParse.after inner).TranpsortAddandMask, events, ?_, ?_⟩
      · simp [transportEnd, TransportParse.after, h1]
      · rcases h2 : first 2 inner <;> simp [TransportParse.after, h1, h2]

/-! ## Coexistence of SNMP versions (53) -/

/-- After some nested TLVs, for an entry of that place. -/
def V1v2cParse.after (place : ℕ) (done : List Tlv) : V1v2cParse where
  objtvl217 := placed {
    strCommunity := ((first 1 done).map text).getD []
    AVTransportAddressList := ((values 2 done).map Tlv217.transport).reduceOption
    strAccessViewName := ((first 4 done).map text).getD []
    eAccessViewType := ((first 3 done).bind accessType).getD 1 } place
  b_53_1_present := (first 1 done).isSome
  b_53_2_present := decide (((values 2 done).map Tlv217.transport).reduceOption ≠ [])
  b_53_3_present := (first 3 done).isSome
  b_53_4_present := (first 4 done).isSome

/-- The entry that is looked for and added in the end. -/
theorem V1v2cParse.completed_after (place : ℕ) (done : List Tlv) :
    (V1v2cParse.after place done).completed = (V1v2cParse.after place done).objtvl217 := by
  rcases h3 : first 3 done <;> simp [V1v2cParse.completed, V1v2cParse.after, placed, h3]

theorem v1v2cCase_of_ahead {t : Tlv} (h : s.Ahead t.value) {done : List Tlv} {c : TlvConfig}
    (hinner : t.tag.toNat = 2 → ∃ inner, t.value = encodeAll inner) (hlegal : FirstLegal accessType 3 done) :
    ∃ events,
      (v1v2cCase t.tag.toNat t.value.length (.after c.Tlv217loopList.length done, c) s =
          some (.inl (c.report events)) ∧ ¬ FirstLegal accessType 3 (done ++ [t])) ∨
        (v1v2cCase t.tag.toNat t.value.length (.after c.Tlv217loopList.length done, c) s =
          some (.inr ((.after c.Tlv217loopList.length (done ++ [t]), c.report events),
            s.advanceBuf t.value.length)) ∧ FirstLegal accessType 3 (done ++ [t])) := by
  unfold v1v2cCase
  simp only [vlSnmpProcessTlv217Field_of_ahead h t.length_lt, Option.bind_eq_bind,
    Option.bind_some, vlGetCharParseBuff_eq, vlGetIntTypeParseBuff_eq]
  split
  · rename_i htag
    have hlegal' : FirstLegal accessType 3 (done ++ [t]) := hlegal.concat_of_ne (by omega)
    rcases h1 : first 1 done with _ | community
    · refine ⟨[], .inr ⟨?_, hlegal'⟩⟩
      simp [V1v2cParse.after, placed, first_concat, values_concat, htag, h1]
    · refine ⟨[(.I453_3, -1)], .inr ⟨?_, hlegal'⟩⟩
      simp [V1v2cParse.after, placed, first_concat, values_concat, htag, h1,
        TlvConfig.edocsDevEventhandling_eq]
  · rename_i htag
    have hlegal' : FirstLegal accessType 3 (done ++ [t]) := hlegal.concat_of_ne (by omega)
    obtain ⟨inner, hinner⟩ := hinner htag
    obtain ⟨transport, events, hparse, htransport⟩ :=
      vlSNMPv1v2cTransportAddressAccessParse_of_ahead h hinner c
    refine ⟨events, .inr ⟨?_, hlegal'⟩⟩
    rw [hparse, Option.bind_some]
    rcases haddr : transport.TpAddress with _ | ⟨b, address⟩
    · rw [haddr, if_pos rfl] at htransport
      simp [V1v2cParse.after, placed, first_concat, values_concat, htag, ← htransport,
        List.reduceOption_append]
    · simp [V1v2cParse.after, placed, first_concat, values_concat, htag, ← htransport, haddr,
        List.reduceOption_append]
  · rename_i htag
    rcases h3 : first 3 done with _ | type
    · by_cases hvalue : intValue t.value = 1 ∨ intValue t.value = 2
      · have htype : accessType t.value = some (intValue t.value) := if_pos hvalue
        refine ⟨[], .inr ⟨?_, (firstLegal_concat_iff htag h3).mpr (by rw [htype]; rfl)⟩⟩
        simp [V1v2cParse.after, placed, first_concat, values_concat, htag, h3, hvalue, htype]
      · have htype : accessType t.value = none := if_neg hvalue
        refine ⟨[(.I453_4, -1)], .inl ⟨?_, ?_⟩⟩
        · simp [V1v2cParse.after, h3, hvalue, TlvConfig.edocsDevEventhandling_eq]
        · rw [firstLegal_concat_iff htag h3, htype]
          exact Bool.false_ne_true
    · refine ⟨[(.I453_3, -1)], .inr ⟨?_, hlegal.concat_of_some h3⟩⟩
      simp [V1v2cParse.after, placed, first_concat, values_concat, htag, h3,
        TlvConfig.edocsDevEventhandling_eq]
  · rename_i htag
    have hlegal' : FirstLegal accessType 3 (done ++ [t]) := hlegal.concat_of_ne (by omega)
    rcases h4 : first 4 done with _ | name
    · refine ⟨[], .inr ⟨?_, hlegal'⟩⟩
      simp [V1v2cParse.after, placed, first_concat, values_concat, htag, h4]
    · refine ⟨[(.I453_3, -1)], .inr ⟨?_, hlegal'⟩⟩
      simp [V1v2cParse.after, placed, first_concat, values_concat, htag, h4,
        TlvConfig.edocsDevEventhandling_eq]
  · rename_i h1 h2 h3 h4
    refine ⟨[(.I401_1, 53)], .inr ⟨?_, hlegal.concat_of_ne h3⟩⟩
    simp [V1v2cParse.after, placed, first_concat, values_concat, if_neg h1, if_neg h2, if_neg h3,
      if_neg h4, TlvConfig.edocsDevEventhandling_eq]

/-- What a TLV of type 53 adds. -/
theorem TlvConfig.hold_53 {t : Tlv} (htag : t.tag = 53) (c : TlvConfig) :
    c.hold [t] = { c with Tlv217loopList :=
      ((coexistence .asBuilt t).map fun x => addNew Tlv53V1V2Config.same c.Tlv217loopList
        (placed x c.Tlv217loopList.length)).getD c.Tlv217loopList } := by
  rcases hentry : coexistence .asBuilt t with _ | x <;>
    simp [hold, lists, accessView, receiver, assignment, htag, hentry]

theorem vlSNMPv1v2cParse_of_ahead {t : Tlv} (h : s.Ahead t.value) (htag : t.tag = 53)
    (hformed : WellFormed t) (c : TlvConfig) :
    ∃ events, vlSNMPv1v2cParse c s t.value.length =
      some ((c.hold [t]).report events, s.advanceBuf t.value.length) := by
  rw [WellFormed, htag] at hformed
  obtain ⟨subs, hsubs, htransports⟩ := hformed
  have hrun := tlvLoop_of_holds v1v2cCase v1v2cEnd
    (R := fun done x => (∃ events,
      x = (V1v2cParse.after c.Tlv217loopList.length done, c.report events)) ∧ FirstLegal accessType 3 done)
    (Q := fun r => ∃ events, r = (c.hold [t]).report events)
    subs ?_ ?_ subs [] (t.value.length + 1) ({}, c) (s.child t.value.length) rfl
    ⟨⟨[], by simp; rfl⟩, firstLegal_nil⟩ (hsubs ▸ h.child)
    (by have := length_le_encodeAll subs; rw [hsubs]; omega)
  · obtain ⟨r, hr, events, rfl⟩ := hrun
    refine ⟨events, ?_⟩
    rw [vlSNMPv1v2cParse, hr]
    rfl
  · rintro done u ts x s hall ⟨⟨events, rfl⟩, hlegal⟩ hu
    have hinner : u.tag.toNat = 2 → ∃ inner, u.value = encodeAll inner := by
      intro h2
      refine htransports u.value (h2 ▸ mem_values ?_)
      rw [hall]
      exact List.mem_append_right _ List.mem_cons_self
    obtain ⟨events', ⟨hcase, hillegal⟩ | ⟨hcase, hlegal'⟩⟩ :=
      v1v2cCase_of_ahead (c := c.report events) hu hinner hlegal
    · -- the TLV is rejected, and has no entry
      refine .inl ⟨_, hcase, events ++ events', ?_⟩
      have hbad : ¬ FirstLegal accessType 3 subs := by
        rw [hall, List.append_cons]
        exact fun h => hillegal h.of_append
      rw [TlvConfig.report_report, TlvConfig.hold_53 htag, coexistence, if_pos htag, hsubs,
        split_encodeAll]
      rcases h1 : first 1 subs <;> simp [h1, getD_of_not_firstLegal hbad]
    · exact .inr ⟨_, hcase, ⟨events ++ events', by rw [TlvConfig.report_report]; rfl⟩, hlegal'⟩
  · rintro x ⟨⟨events, rfl⟩, hlegal⟩
    rw [TlvConfig.hold_53 htag, coexistence, if_pos htag, hsubs, split_encodeAll]
    rcases htransports : ((values 2 subs).map Tlv217.transport).reduceOption with _ | ⟨x, xs⟩
    · -- no transport, no entry
      rcases h1 : first 1 subs with _ | community
      · refine ⟨events ++ [(ErrorCode.I453_1, -1), (ErrorCode.I453_2, -1)], ?_⟩
        simp [v1v2cEnd, V1v2cParse.after, h1, htransports, TlvConfig.edocsDevEventhandling_eq]
      · refine ⟨events ++ [(ErrorCode.I453_2, -1)], ?_⟩
        simp [v1v2cEnd, V1v2cParse.after, h1, htransports, Tlv217Rules.asBuilt, Tlv217Rules.count,
          TlvConfig.edocsDevEventhandling_eq, hlegal.getD]
    · rcases h1 : first 1 subs with _ | community
      · refine ⟨events ++ [(ErrorCode.I453_1, -1)], ?_⟩
        simp [v1v2cEnd, V1v2cParse.after, h1, htransports, TlvConfig.edocsDevEventhandling_eq]
      · obtain ⟨events', hduplicates⟩ := TlvConfig.checkForDuplicates_eq
          (·.same (V1v2cParse.after c.Tlv217loopList.length subs).objtvl217) .I453_6
          c.Tlv217loopList (c.report events)
        have hpresent : (V1v2cParse.after c.Tlv217loopList.length subs).b_53_1_present = true ∧
            (V1v2cParse.after c.Tlv217loopList.length subs).b_53_2_present = true := by
          simp [V1v2cParse.after, h1, htransports]
        have hentry : (V1v2cParse.after c.Tlv217loopList.length subs).objtvl217 = placed {
            strCommunity := text community
            AVTransportAddressList := x :: xs
            strAccessViewName := ((first 4 subs).map text).getD []
            eAccessViewType := ((first 3 subs).bind accessType).getD 1 } c.Tlv217loopList.length := by
          simp [V1v2cParse.after, h1, htransports]
        have hlist : (c.report events).Tlv217loopList = c.Tlv217loopList := rfl
        refine ⟨events ++ events', ?_⟩
        dsimp only [v1v2cEnd]
        rw [if_pos hpresent, if_pos hpresent.1, if_pos hpresent.2, V1v2cParse.completed_after,
          hlist, hduplicates, hentry]
        simp only [Tlv217Rules.asBuilt, Tlv217Rules.count, hlegal.getD, h1, htransports,
          Option.bind_eq_bind, Option.bind_some, if_true, reduceCtorEq, if_false, Option.pure_def,
          Option.map_some, Option.getD_some, addNew]
        split_ifs <;> simp [TlvConfig.report]

/-! ## Access views (54) -/

/-- After some nested TLVs. -/
def AccessViewParse.after (done : List Tlv) : AccessViewParse where
  objV3accesitems := {
    strAccessViewName := ((first 1 done).map text).getD []
    v3AccessViewSubtree := ((first 2 done).bind objectId).getD []
    v3AccessViewMask := ((first 3 done).getD []).map UInt8.toNat
    v3AccessViewType := ((first 4 done).bind accessType).getD 1 }
  b_54_1_present := (first 1 done).isSome
  b_54_2_present := (first 2 done).isSome
  b_54_3_present := (first 3 done).isSome
  b_54_4_present := (first 4 done).isSome

/-- The first subtree and the first type of access are legal. -/
def LegalView (done : List Tlv) : Prop := FirstLegal objectId 2 done ∧ FirstLegal accessType 4 done

theorem accessViewCase_of_ahead {t : Tlv} (h : s.Ahead t.value) {done : List Tlv}
    (hoid : t.tag.toNat = 2 → OidFormed t.value) (hlegal : LegalView done) (c : TlvConfig) :
    ∃ events,
      (accessViewCase t.tag.toNat t.value.length (.after done, c) s =
          some (.inl (c.report events)) ∧ ¬ LegalView (done ++ [t])) ∨
        (accessViewCase t.tag.toNat t.value.length (.after done, c) s =
          some (.inr ((.after (done ++ [t]), c.report events), s.advanceBuf t.value.length)) ∧
            LegalView (done ++ [t])) := by
  unfold accessViewCase
  simp only [vlSnmpProcessTlv217Field_of_ahead h t.length_lt, Option.bind_eq_bind,
    Option.bind_some, vlGetCharParseBuff_eq, vlGetIntTypeParseBuff_eq,
    mapM_octet t.value t.length_lt]
  split
  · rename_i htag
    have hlegal' : LegalView (done ++ [t]) :=
      ⟨hlegal.1.concat_of_ne (by omega), hlegal.2.concat_of_ne (by omega)⟩
    rcases h1 : first 1 done with _ | name
    · refine ⟨[], .inr ⟨?_, hlegal'⟩⟩
      simp [AccessViewParse.after, first_concat, htag, h1]
    · refine ⟨[(.I454_2, -1)], .inr ⟨?_, hlegal'⟩⟩
      simp [AccessViewParse.after, first_concat, htag, h1, TlvConfig.edocsDevEventhandling_eq]
  · rename_i htag
    have hlegal4 : FirstLegal accessType 4 (done ++ [t]) := hlegal.2.concat_of_ne (by omega)
    obtain ⟨oid, events, hparse, hobject⟩ := vlGetTlvOid_of_ahead h t.length_lt (hoid htag) c 54
    rw [hparse, Option.bind_some]
    rcases h2 : first 2 done with _ | subtree
    · by_cases hmany : 1 < oid.length
      · rw [if_pos hmany] at hobject
        refine ⟨events, .inr ⟨?_,
          (firstLegal_concat_iff htag h2).mpr (by rw [← hobject]; rfl), hlegal4⟩⟩
        simp [AccessViewParse.after, first_concat, htag, h2, hmany, ← hobject]
      · rw [if_neg hmany] at hobject
        refine ⟨events, .inl ⟨?_, ?_⟩⟩
        · simp [AccessViewParse.after, h2, hmany]
        · rw [LegalView, firstLegal_concat_iff htag h2, ← hobject]
          exact fun h => Bool.false_ne_true h.1
    · refine ⟨events ++ [(ErrorCode.I454_2, -1)], .inr ⟨?_, hlegal.1.concat_of_some h2, hlegal4⟩⟩
      simp [AccessViewParse.after, first_concat, htag, h2, TlvConfig.edocsDevEventhandling_eq]
  · rename_i htag
    have hlegal' : LegalView (done ++ [t]) :=
      ⟨hlegal.1.concat_of_ne (by omega), hlegal.2.concat_of_ne (by omega)⟩
    rcases h3 : first 3 done with _ | mask
    · refine ⟨[], .inr ⟨?_, hlegal'⟩⟩
      simp [AccessViewParse.after, first_concat, htag, h3]
    · refine ⟨[(.I454_2, -1)], .inr ⟨?_, hlegal'⟩⟩
      simp [AccessViewParse.after, first_concat, htag, h3, TlvConfig.edocsDevEventhandling_eq]
  · rename_i htag
    have hlegal2 : FirstLegal objectId 2 (done ++ [t]) := hlegal.1.concat_of_ne (by omega)
    rcases h4 : first 4 done with _ | type
    · by_cases hvalue : intValue t.value = 1 ∨ intValue t.value = 2
      · have htype : accessType t.value = some (intValue t.value) := if_pos hvalue
        refine ⟨[], .inr ⟨?_, hlegal2, (firstLegal_concat_iff htag h4).mpr (by rw [htype]; rfl)⟩⟩
        simp [AccessViewParse.after, first_concat, htag, h4, hvalue, htype]
      · have htype : accessType t.value = none := if_neg hvalue
        refine ⟨[(.I454_3, -1)], .inl ⟨?_, ?_⟩⟩
        · simp [AccessViewParse.after, h4, hvalue, TlvConfig.edocsDevEventhandling_eq]
        · rw [LegalView, firstLegal_concat_iff htag h4, htype]
          exact fun h => Bool.false_ne_true h.2
    · refine ⟨[(.I454_2, -1)], .inr ⟨?_, hlegal2, hlegal.2.concat_of_some h4⟩⟩
      simp [AccessViewParse.after, first_concat, htag, h4, TlvConfig.edocsDevEventhandling_eq]
  · rename_i h1 h2 h3 h4
    refine ⟨[(.I401_1, 54)], .inr ⟨?_, hlegal.1.concat_of_ne h2, hlegal.2.concat_of_ne h4⟩⟩
    simp [AccessViewParse.after, first_concat, if_neg h1, if_neg h2, if_neg h3, if_neg h4,
      TlvConfig.edocsDevEventhandling_eq]

/-- What a TLV of type 54 adds. -/
theorem TlvConfig.hold_54 {t : Tlv} (htag : t.tag = 54) (c : TlvConfig) :
    c.hold [t] = { c with V3AccviewLs :=
      ((accessView t).map (addNew V3AccessviewList.same c.V3AccviewLs)).getD c.V3AccviewLs } := by
  rcases hentry : accessView t with _ | x <;>
    simp [hold, lists, coexistence, receiver, assignment, htag, hentry]

/-- A TLV whose first subtree or type of access is illegal has no entry. -/
theorem accessView_of_not_legal {t : Tlv} {subs : List Tlv} (hsubs : t.value = encodeAll subs)
    (hlegal : ¬ LegalView subs) : accessView t = none := by
  rw [accessView, hsubs, split_encodeAll]
  rw [LegalView, not_and_or] at hlegal
  rcases hlegal with hlegal | hlegal
  · rcases h1 : first 1 subs <;> simp [h1, getD_of_not_firstLegal hlegal]
  · rcases h1 : first 1 subs <;> simp [h1, getD_of_not_firstLegal hlegal]

/-- The entry that is looked for and added in the end. -/
theorem accessView_of_legal {t : Tlv} (htag : t.tag = 54) {subs : List Tlv}
    (hsubs : t.value = encodeAll subs) (hlegal : LegalView subs) :
    accessView t =
      if first 1 subs = none then none else some (AccessViewParse.after subs).completed := by
  rw [accessView, if_pos htag, hsubs, split_encodeAll]
  rcases h1 : first 1 subs with _ | name
  · simp [h1]
  · simp only [h1, hlegal.1.getD, hlegal.2.getD, Option.bind_eq_bind, Option.bind_some,
      Option.pure_def, reduceCtorEq, if_false]
    rcases h2 : first 2 subs with _ | value
    · rcases h3 : first 3 subs <;> rcases h4 : first 4 subs <;>
        simp [h1, h2, h3, h4, AccessViewParse.completed, AccessViewParse.after]
    · obtain ⟨oid, hoid⟩ := Option.isSome_iff_exists.mp (hlegal.1 value h2)
      rcases h3 : first 3 subs <;> rcases h4 : first 4 subs <;>
        simp [h1, h2, h3, h4, hoid, AccessViewParse.completed, AccessViewParse.after]

theorem vlSNMPv3AccessViewConfigParse_of_ahead {t : Tlv} (h : s.Ahead t.value) (htag : t.tag = 54)
    (hformed : WellFormed t) (c : TlvConfig) :
    ∃ events, vlSNMPv3AccessViewConfigParse c s t.value.length =
      some ((c.hold [t]).report events, s.advanceBuf t.value.length) := by
  rw [WellFormed, htag] at hformed
  obtain ⟨subs, hsubs, hoids⟩ := hformed
  have hrun := tlvLoop_of_holds accessViewCase accessViewEnd
    (R := fun done x => (∃ events, x = (AccessViewParse.after done, c.report events)) ∧
      LegalView done)
    (Q := fun r => ∃ events, r = (c.hold [t]).report events)
    subs ?_ ?_ subs [] (t.value.length + 1) ({}, c) (s.child t.value.length) rfl
    ⟨⟨[], by simp; rfl⟩, firstLegal_nil, firstLegal_nil⟩ (hsubs ▸ h.child)
    (by have := length_le_encodeAll subs; rw [hsubs]; omega)
  · obtain ⟨r, hr, events, rfl⟩ := hrun
    refine ⟨events, ?_⟩
    rw [vlSNMPv3AccessViewConfigParse, hr]
    rfl
  · rintro done u ts x s hall ⟨⟨events, rfl⟩, hlegal⟩ hu
    have hoid : u.tag.toNat = 2 → OidFormed u.value := by
      intro h2
      refine hoids u.value (h2 ▸ mem_values ?_)
      rw [hall]
      exact List.mem_append_right _ List.mem_cons_self
    obtain ⟨events', ⟨hcase, hillegal⟩ | ⟨hcase, hlegal'⟩⟩ :=
      accessViewCase_of_ahead hu hoid hlegal (c.report events)
    · refine .inl ⟨_, hcase, events ++ events', ?_⟩
      have hbad : ¬ LegalView subs := by
        rw [hall, List.append_cons]
        exact fun h => hillegal ⟨h.1.of_append, h.2.of_append⟩
      rw [TlvConfig.report_report, TlvConfig.hold_54 htag, accessView_of_not_legal hsubs hbad]
      rfl
    · exact .inr ⟨_, hcase, ⟨events ++ events', by rw [TlvConfig.report_report]⟩, hlegal'⟩
  · rintro x ⟨⟨events, rfl⟩, hlegal⟩
    rw [TlvConfig.hold_54 htag, accessView_of_legal htag hsubs hlegal]
    rcases h1 : first 1 subs with _ | name
    · refine ⟨events ++ [(ErrorCode.I454_1, -1)], ?_⟩
      simp [accessViewEnd, AccessViewParse.after, h1, TlvConfig.edocsDevEventhandling_eq]
    · have hpresent : (AccessViewParse.after subs).b_54_1_present = true := by
        simp [AccessViewParse.after, h1]
      obtain ⟨events', hduplicates⟩ := TlvConfig.checkForDuplicates_eq
        (·.same (AccessViewParse.after subs).completed) .I454_5 c.V3AccviewLs (c.report events)
      have hlist : (c.report events).V3AccviewLs = c.V3AccviewLs := rfl
      refine ⟨events ++ events', ?_⟩
      dsimp only [accessViewEnd]
      rw [if_pos hpresent, if_pos hpresent, hlist, hduplicates, if_neg (Option.some_ne_none name),
        Option.map_some, Option.getD_some, addNew, ← TlvConfig.report_report]
      split_ifs <;> rfl

end MediaFramework
