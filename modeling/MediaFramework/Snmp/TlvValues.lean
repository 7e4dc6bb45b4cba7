import MediaFramework.Lib.Bits
import MediaFramework.Snmp.TlvEntries

/-!
# Values as they are parsed

Each of the parsers of a value takes the octets that are ahead of its stream, leaves the stream
behind them, and finds what `Tlv217` says that they stand for. The object itself only changes by the
events it reports.
-/

namespace MediaFramework

open VlByteStream Tlv217

namespace TlvConfig

variable {t : TlvConfig}

/-- Some events have been reported. -/
def report (t : TlvConfig) (events : List (ErrorCode × ℤ)) : TlvConfig :=
  { t with events := t.events ++ events }

theorem edocsDevEventhandling_eq (nEventId : ErrorCode) (eType : ℤ) :
    t.edocsDevEventhandling nEventId eType = t.report [(nEventId, eType)] := rfl

@[simp] theorem report_nil : t.report [] = t := by
  rw [report, List.append_nil]

@[simp] theorem report_report (events events' : List (ErrorCode × ℤ)) :
    (t.report events).report events' = t.report (events ++ events') := by
  rw [report, report, report, List.append_assoc]

@[simp] theorem report_lists (events : List (ErrorCode × ℤ)) :
    (t.report events).toTlv217Lists = t.toTlv217Lists := rfl

/-- Duplicates are found, and reported. -/
theorem checkForDuplicates_eq {α : Type} (same : α → Bool) (nEventId : ErrorCode)
    (list : List α) (t : TlvConfig) :
    ∃ events, t.checkForDuplicates same nEventId list = (t.report events, list.any same) := by
  have hall : ∀ (list : List α) (t : TlvConfig) (found : Bool), ∃ events,
      list.foldl (fun (y : TlvConfig × Bool) x =>
        if same x then (y.1.edocsDevEventhandling nEventId (-1), true) else (y.1, y.2))
        (t, found) = (t.report events, found || list.any same) := by
    intro list
    induction list with
    | nil =>
      intro t found
      exact ⟨[], by simp⟩
    | cons x list ih =>
      intro t found
      rcases hx : same x with _ | _
      · obtain ⟨events, hevents⟩ := ih t found
        exact ⟨events, by simpa [hx] using hevents⟩
      · obtain ⟨events, hevents⟩ := ih (t.report [(nEventId, -1)]) true
        refine ⟨[(nEventId, -1)] ++ events, ?_⟩
        simpa [hx, edocsDevEventhandling_eq] using hevents
  exact hall list t false

end TlvConfig

variable {s : VlByteStream} {value : List UInt8}

/-! ## Octets, texts and numbers -/

theorem vlSnmpProcessTlv217Field_of_ahead (h : s.Ahead value) (hlt : value.length < 256) :
    vlSnmpProcessTlv217Field s value.length = some (value, s.advanceBuf value.length) := by
  have hle : value.length ≤ (List.replicate maxTlv217Size (0 : UInt8)).length := by
    rw [List.length_replicate, maxTlv217Size]
    omega
  rw [vlSnmpProcessTlv217Field, vlParseBuffer_of_ahead h.child.1 hle, Option.bind_eq_bind,
    Option.bind_some, Nat.min_eq_left (by rw [maxTlv217Size]; omega)]
  dsimp only
  rw [List.take_left]
  rfl

theorem mapM_range_getElem {α β : Type} (f : α → β) (l : List α) :
    (List.range l.length).mapM (fun i => (l[i]?).map f) = some (l.map f) := by
  induction l with
  | nil => rfl
  | cons a l ih =>
    have hrest : (List.range l.length).mapM ((fun i => ((a :: l)[i]?).map f) ∘ Nat.succ) =
        some (l.map f) := ih
    rw [List.length_cons, List.range_succ_eq_map, List.mapM_cons, List.mapM_map, hrest]
    rfl

theorem vlGetCharParseBuff_eq (value : List UInt8) :
    vlGetCharParseBuff value value.length = some (text value) :=
  mapM_range_getElem vlDumpBufferChar value

theorem asInt_mod (n : ℕ) : asInt (n % 2 ^ 64) = asInt n := by
  rw [asInt, asInt]
  congr 1
  apply BitVec.eq_of_toNat_eq
  rw [BitVec.toNat_ofNat, BitVec.toNat_ofNat]
  omega

/-- As many of the octets as fit into the 64 bits count. -/
theorem foldl_eq_ofOctets_mod (value : List UInt8) :
    value.foldl (fun val b => val <<< 8 % 2 ^ 64 ||| b.toNat) 0 = ofOctets value % 2 ^ 64 := by
  induction value using List.reverseRecOn with
  | nil => rfl
  | append_singleton value b ih =>
    have hb := b.toNat_lt
    rw [List.foldl_append, ih, ofOctets_concat, List.foldl_cons, List.foldl_nil, Nat.shiftLeft_eq,
      or_eq_add 8 (by omega) (by omega)]
    omega

theorem vlGetIntTypeParseBuff_eq (value : List UInt8) :
    vlGetIntTypeParseBuff value = some (intValue value) := by
  rw [vlGetIntTypeParseBuff, vlParseNByteLong_of_ahead (holds_inst value).1, Option.bind_eq_bind,
    Option.bind_some, foldl_eq_ofOctets_mod]
  dsimp only
  rw [asInt_mod]
  rfl

theorem mapM_octet (value : List UInt8) (hlt : value.length < 256) :
    (List.range (min value.length apiChrmax)).mapM (octet value) =
      some (value.map UInt8.toNat) := by
  rw [Nat.min_eq_left (by rw [apiChrmax]; omega)]
  exact mapM_range_getElem UInt8.toNat value

/-! ## Object identifiers -/

theorem vlGetAsnEncodedOidParseBuff_eq_arcs (encoded : List UInt8) :
    AsnOid.vlGetAsnEncodedOidParseBuff encoded encoded.length = some (arcs encoded) := by
  rw [arcs, AsnOid.vlGetAsnEncodedOidParseBuff_eq, Option.getD_some]

/-- An identifier of more than one number has been decoded just if it is legal. -/
theorem vlGetTlvOid_of_ahead (h : s.Ahead value) (hlt : value.length < 256)
    (hformed : OidFormed value) (t : TlvConfig) (eTlvType : ℤ) :
    ∃ oid events, vlGetTlvOid t s value.length eTlvType =
        some (oid, t.report events, s.advanceBuf value.length) ∧
      (if 1 < oid.length then some oid else none) = objectId value := by
  obtain ⟨tag, length, encoded, rfl, hlegal⟩ := hformed
  obtain ⟨htag, hlength⟩ := vlParseByte_of_ahead h.child.1
  obtain ⟨hlength, hencoded⟩ := vlParseByte_of_ahead hlength
  have hrem : (((s.child (tag :: length :: encoded).length).advanceBuf 1).advanceBuf 1).remainder =
      encoded.length := by
    simp only [VlByteStream.child, inst, advanceBuf, remainder, List.length_cons]
    omega
  have h6 : tag.toNat = 6 ↔ tag = 6 := UInt8.toNat_inj (b := 6)
  rw [vlGetTlvOid, htag, Option.bind_eq_bind, Option.bind_some]
  dsimp only
  rw [hlength, Option.bind_eq_bind, Option.bind_some]
  rw [hrem]
  by_cases hlen : length.toNat = encoded.length
  · have hlt' : encoded.length < 256 := by
      rw [List.length_cons, List.length_cons] at hlt
      omega
    rw [if_neg (by rw [hlen]; exact fun h => h rfl), hlen]
    by_cases htag6 : tag = 6
    · have hprefix := hlegal htag6 hlen
      rw [if_pos (h6.mpr htag6), vlSnmpProcessTlv217Field_of_ahead hencoded hlt',
        Option.bind_eq_bind, Option.bind_some]
      rw [vlGetAsnEncodedOidParseBuff_eq_arcs, Option.bind_some]
      by_cases hmany : 1 < (arcs encoded).length
      · obtain ⟨rest, hrest⟩ := hprefix hmany
        have hfirst : (arcs encoded)[0]? = some 1 ∧ (arcs encoded)[1]? = some 3 := by
          rw [← hrest]
          exact ⟨rfl, rfl⟩
        rw [if_pos hmany, if_pos hfirst]
        exact ⟨arcs encoded, [], by rw [TlvConfig.report_nil]; rfl,
          (if_pos hmany).trans (if_pos ⟨htag6, hlen, hprefix hmany⟩).symm⟩
      · rw [if_neg hmany]
        exact ⟨arcs encoded, [], by rw [TlvConfig.report_nil]; rfl,
          (if_neg hmany).trans (if_neg fun h => hmany h.2.2.length_le).symm⟩
    · rw [if_neg (mt h6.mp htag6)]
      exact ⟨[], _, rfl, (if_neg (Nat.not_lt_zero 1)).trans (if_neg fun h => htag6 h.1).symm⟩
  · rw [if_pos (by exact_mod_cast hlen)]
    exact ⟨[], _, rfl, (if_neg (Nat.not_lt_zero 1)).trans (if_neg fun h => hlen h.2.1).symm⟩

end MediaFramework
