import MediaFramework.Snmp.TlvParsers

/-!
# Notification receivers as they are parsed (38)

No nested TLV leads to a rejection here: a filter that is illegal is passed over, and a receiver only
needs an address. Of the trap types all are kept, and the one that is preferred is found on the way.
-/

namespace MediaFramework

open VlByteStream Tlv Tlv217

variable {s : VlByteStream}

/-- One more trap type. -/
theorem preferred_concat (types : List ℤ) (type : ℤ) : preferred (types ++ [type]) =
    if types = [] then type
    else if type = notifyTrapV2c then notifyTrapV2c else preferred types := by
  rcases types with _ | ⟨first, others⟩
  · rfl
  · simp only [List.cons_append, preferred, List.mem_append, List.mem_singleton, reduceCtorEq,
      if_false]
    by_cases hothers : notifyTrapV2c ∈ others
    · rw [if_pos (.inl hothers), if_pos hothers, ite_self]
    · simp only [hothers, false_or, if_false, eq_comm]

/-- The filters of some nested TLVs. -/
def filters (ts : List Tlv) : List (List ℕ) := ((values 6 ts).map objectId).reduceOption

/-- After some nested TLVs. -/
def NotificationReceiverParse.after (done : List Tlv) : NotificationReceiverParse where
  objV3NotificationReceiver := {
    v3ipV4address := (first 1 done).getD []
    nV3UdpPortNumber := ((first 2 done).map intValue).getD 162
    eV3TrapType := preferred ((values 3 done).map intValue)
    anV3TrapTypes := (values 3 done).map intValue
    nV3Timeout := ((first 4 done).map intValue).getD 1500
    nV3Retries := ((first 5 done).map intValue).getD 3
    v3FilterOID := (filters done).head?.getD []
    v3securityName := ((first 7 done).map text).getD []
    v3ipV6address := (first 8 done).getD [] }
  b_38_1_present := (first 1 done).isSome
  b_38_2_present := (first 2 done).isSome
  b_38_3_present := (first 3 done).isSome
  b_38_4_present := (first 4 done).isSome
  b_38_5_present := (first 5 done).isSome
  b_38_6_present := (filters done).head?.isSome
  b_38_7_present := (first 7 done).isSome
  b_38_8_present := (first 8 done).isSome

theorem filters_concat (done : List Tlv) (t : Tlv) : filters (done ++ [t]) =
    if t.tag.toNat = 6 then filters done ++ (objectId t.value).toList else filters done := by
  rw [filters, values_concat]
  split_ifs with h
  · rw [List.map_append, List.reduceOption_append, filters, List.map_singleton]
    rcases objectId t.value <;> rfl
  · rfl

theorem notificationReceiverCase_of_ahead {t : Tlv} (h : s.Ahead t.value) (done : List Tlv)
    (hoid : t.tag.toNat = 6 → OidFormed t.value) (c : TlvConfig) :
    ∃ events, notificationReceiverCase t.tag.toNat t.value.length (.after done, c) s =
      some (.inr ((.after (done ++ [t]), c.report events), s.advanceBuf t.value.length)) := by
  unfold notificationReceiverCase
  simp only [vlSnmpProcessTlv217Field_of_ahead h t.length_lt,
    Option.bind_eq_bind, Option.bind_some, vlGetCharParseBuff_eq, vlGetIntTypeParseBuff_eq]
  split
  · rename_i htag
    refine ⟨[], ?_⟩
    rcases h1 : first 1 done <;>
      simp [NotificationReceiverParse.after, first_concat, values_concat, filters_concat, htag, h1]
  · rename_i htag
    refine ⟨[], ?_⟩
    rcases h2 : first 2 done <;>
      simp [NotificationReceiverParse.after, first_concat, values_concat, filters_concat, htag, h2]
  · rename_i htag
    refine ⟨[], ?_⟩
    rcases h3 : values 3 done with _ | ⟨value, others⟩
    · have hfirst : first 3 done = none := by rw [first, h3, List.head?_nil]
      simp [NotificationReceiverParse.after, first_concat, values_concat, filters_concat, htag, h3,
        hfirst, preferred]
    · have hfirst : first 3 done = some value := by rw [first, h3, List.head?_cons]
      have hpreferred := preferred_concat ((value :: others).map intValue) (intValue t.value)
      by_cases hv2c : intValue t.value = notifyTrapV2c
      · simpa [NotificationReceiverParse.after, first_concat, values_concat, filters_concat, htag,
          h3, hfirst, hv2c] using hpreferred.symm
      · simpa [NotificationReceiverParse.after, first_concat, values_concat, filters_concat, htag,
          h3, hfirst, hv2c] using hpreferred.symm
  · rename_i htag
    refine ⟨[], ?_⟩
    rcases h4 : first 4 done <;>
      simp [NotificationReceiverParse.after, first_concat, values_concat, filters_concat, htag, h4]
  · rename_i htag
    refine ⟨[], ?_⟩
    rcases h5 : first 5 done <;>
      simp [NotificationReceiverParse.after, first_concat, values_concat, filters_concat, htag, h5]
  · rename_i htag
    obtain ⟨oid, events, hparse, hobject⟩ := vlGetTlvOid_of_ahead h t.length_lt (hoid htag) c 38
    refine ⟨events, ?_⟩
    rw [hparse, Option.bind_some]
    by_cases hmany : 1 < oid.length
    · rcases h6 : filters done <;>
        simp [NotificationReceiverParse.after, first_concat, values_concat, filters_concat, htag,
          h6, hmany, ← hobject]
    · rcases h6 : filters done <;>
        simp [NotificationReceiverParse.after, first_concat, values_concat, filters_concat, htag,
          h6, hmany, ← hobject]
  · rename_i htag
    refine ⟨[], ?_⟩
    rcases h7 : first 7 done <;>
      simp [NotificationReceiverParse.after, first_concat, values_concat, filters_concat, htag, h7]
  · rename_i htag
    refine ⟨[], ?_⟩
    rcases h8 : first 8 done <;>
      simp [NotificationReceiverParse.after, first_concat, values_concat, filters_concat, htag, h8]
  · rename_i h1 h2 h3 h4 h5 h6 h7 h8
    refine ⟨[(.I401_1, 38)], ?_⟩
    simp [NotificationReceiverParse.after, first_concat, values_concat, filters_concat, if_neg h1,
      if_neg h2, if_neg h3, if_neg h4, if_neg h5, if_neg h6, if_neg h7, if_neg h8,
      TlvConfig.edocsDevEventhandling_eq]

/-- What a TLV of type 38 adds. -/
theorem TlvConfig.hold_38 {t : Tlv} (htag : t.tag = 38) (c : TlvConfig) :
    c.hold [t] = { c with
      v3NotificationReceiver_list := ((receiver .asBuilt t).map
        (addNew V3NotificationReceiver.same c.v3NotificationReceiver_list)).getD
          c.v3NotificationReceiver_list } := by
  rcases hentry : receiver .asBuilt t with _ | x <;>
    simp [hold, lists, coexistence, accessView, assignment, htag, hentry]

/-- The entry that is looked for and added in the end. -/
theorem receiver_eq {t : Tlv} (htag : t.tag = 38) {subs : List Tlv}
    (hsubs : t.value = encodeAll subs) :
    receiver .asBuilt t = if first 1 subs = none ∧ first 8 subs = none then none
      else some (NotificationReceiverParse.after subs).completed := by
  rw [receiver, if_pos htag, hsubs, split_encodeAll]
  rcases h2 : first 2 subs <;>
    simp [h2, Tlv217Rules.asBuilt, Tlv217Rules.count, NotificationReceiverParse.completed,
      NotificationReceiverParse.after, filters]

theorem vlSNMPv3NotificationReceiverParse_of_ahead {t : Tlv} (h : s.Ahead t.value)
    (htag : t.tag = 38) (hformed : WellFormed t) (c : TlvConfig) :
    ∃ events, vlSNMPv3NotificationReceiverParse c s t.value.length =
      some ((c.hold [t]).report events, s.advanceBuf t.value.length) := by
  rw [WellFormed, htag] at hformed
  obtain ⟨subs, hsubs, hoids⟩ := hformed
  have hrun := tlvLoop_of_holds notificationReceiverCase notificationReceiverEnd
    (R := fun done x => ∃ events, x = (NotificationReceiverParse.after done, c.report events))
    (Q := fun r => ∃ events, r = (c.hold [t]).report events)
    subs ?_ ?_ subs [] (t.value.length + 1) ({}, c) (s.child t.value.length) rfl
    ⟨[], by simp; rfl⟩ (hsubs ▸ h.child) (by have := length_le_encodeAll subs; rw [hsubs]; omega)
  · obtain ⟨r, hr, events, rfl⟩ := hrun
    refine ⟨events, ?_⟩
    rw [vlSNMPv3NotificationReceiverParse, hr]
    rfl
  · rintro done u ts x s hall ⟨events, rfl⟩ hu
    have hoid : u.tag.toNat = 6 → OidFormed u.value := by
      intro h6
      refine hoids u.value (h6 ▸ mem_values ?_)
      rw [hall]
      exact List.mem_append_right _ List.mem_cons_self
    obtain ⟨events', hcase⟩ := notificationReceiverCase_of_ahead hu done hoid (c.report events)
    exact .inr ⟨_, hcase, events ++ events', by rw [TlvConfig.report_report]⟩
  · rintro x ⟨events, rfl⟩
    rw [TlvConfig.hold_38 htag, receiver_eq htag hsubs]
    by_cases hnone : first 1 subs = none ∧ first 8 subs = none
    · rcases h3 : first 3 subs with _ | type
      · refine ⟨events ++ [(ErrorCode.I438_2, -1), (ErrorCode.I438_3, -1)], ?_⟩
        simp [notificationReceiverEnd, NotificationReceiverParse.after, hnone.1, hnone.2, h3,
          TlvConfig.edocsDevEventhandling_eq]
      · refine ⟨events ++ [(ErrorCode.I438_2, -1)], ?_⟩
        simp [notificationReceiverEnd, NotificationReceiverParse.after, hnone.1, hnone.2, h3,
          TlvConfig.edocsDevEventhandling_eq]
    · have hpresent : (NotificationReceiverParse.after subs).b_38_1_present = true ∨
          (NotificationReceiverParse.after subs).b_38_8_present = true := by
        rw [not_and_or, ← Ne, ← Ne, Option.ne_none_iff_isSome, Option.ne_none_iff_isSome] at hnone
        exact hnone
      obtain ⟨events', hduplicates⟩ := TlvConfig.checkForDuplicates_eq
        (·.same (NotificationReceiverParse.after subs).completed) .I438_1
        c.v3NotificationReceiver_list (c.report events)
      have hlist : (c.report events).v3NotificationReceiver_list =
        c.v3NotificationReceiver_list := rfl
      have hadded : (if c.v3NotificationReceiver_list.any
            (·.same (NotificationReceiverParse.after subs).completed) then
          (c.report events).report events'
        else { (c.report events).report events' with
          v3NotificationReceiver_list :=
            ((c.report events).report events').v3NotificationReceiver_list ++
              [(NotificationReceiverParse.after subs).completed] }) =
          { c with
            v3NotificationReceiver_list := addNew V3NotificationReceiver.same
              c.v3NotificationReceiver_list (NotificationReceiverParse.after subs).completed
            : TlvConfig }.report (events ++ events') := by
        rw [addNew, ← TlvConfig.report_report]
        split_ifs <;> rfl
      dsimp only [notificationReceiverEnd]
      rw [if_pos hpresent, hlist, hduplicates, if_neg hnone, Option.map_some, Option.getD_some]
      rw [hadded]
      split_ifs with h3 hv2c hv2c
      · exact ⟨_, TlvConfig.report_report _ [(.I438_3, -1)]⟩
      · exact ⟨_, rfl⟩
      · exact absurd hv2c.1 h3
      · exact ⟨_, TlvConfig.report_report _ [(.I438_3, -1)]⟩

end MediaFramework
