import MediaFramework.Dsg.DcdLayout

/-!
# What the parser makes of a well-formed DCD

Each loop takes the parts of its TLV one after another (`dsgLoop_of_good`). A part is not good if its
round goes astray: the id and the priority of a classifier are read with a width of their own, and a
list of UCIDs may have no room. Where all parts are good, what the parser leaves is a fold over the
DCD, and the fields of a fold are compared with what the DCD says.
-/

namespace MediaFramework

open BufStream DcdPart

section Reads

variable {β : Type} {mem xs : List UInt8} {s : BufStream}

theorem parseNumber_of_ahead (h : s.Ahead mem xs) (hxs : xs.length ≤ 8) (set : ℕ → β) :
    parseNumber mem xs.length set s = some (set (ofOctets xs), s.advanceBuf xs.length, []) := by
  rw [parseNumber, vlParseNByteLong_of_ahead h hxs]
  rfl

theorem discard_of_ahead (h : s.Ahead mem xs) (x : β) :
    discard mem xs.length x s = some (x, s.advanceBuf xs.length, []) := by
  rw [discard, vlParseBuffer_of_ahead h]
  rfl

/-- A read of a width other than what is ahead does not end where that ends. -/
theorem currentBuf_advanceBuf_ne (h : s.Ahead mem xs) {k : ℕ} (hk : k < 2 ^ 31)
    (hne : k ≠ xs.length) : (s.advanceBuf k).currentBuf ≠ s.currentBuf + xs.length := by
  intro heq
  have hlt := length_lt_of_ahead h
  have hposition : int32 (s.iPosition + k) = s.iPosition + xs.length := by
    have : s.pBuffer + int32 (s.iPosition + k) = s.pBuffer + s.iPosition + xs.length := heq
    omega
  have hmod : (s.iPosition + k) % (2 ^ 32 : ℕ) = (s.iPosition + xs.length) % (2 ^ 32 : ℕ) := by
    rw [← hposition, int32, Int.bmod_emod]
  omega

theorem eq_of_readNByteLong {n v : ℕ} {s' : BufStream} (h : s.readNByteLong mem n = some (v, s')) :
    s' = s.advanceBuf n := by
  rw [readNByteLong] at h
  split_ifs at h
  · obtain ⟨bytes, -, hread⟩ := Option.bind_eq_some_iff.mp h
    exact ((Prod.mk.inj (Option.some.inj hread)).2).symm
  · exact ((Prod.mk.inj (Option.some.inj h)).2).symm

/-- A value that is read with a width of its own. -/
theorem diverge_of_width {k : ℕ} (hk : k < 2 ^ 31) (hne : xs.length ≠ k) (h : s.Ahead mem xs)
    (place : ℤ) : Diverge ([] ++ [(place, s.currentBuf + xs.length)])
      ([] ++ [(place, (s.advanceBuf k).currentBuf)]) :=
  Diverge.of_ne fun heq => currentBuf_advanceBuf_ne h hk hne.symm (Prod.mk.inj heq).2.symm

end Reads

/-! ## The parts -/

section Parts

variable (m : DataModel)

/-- What a TLV gives to an IP CPE. -/
def DsgIpCpe.given (c : DsgIpCpe) (t : DsgTlv) : DsgIpCpe :=
  if t.lTag 0x1709 = 0x170903 then { c with srcIpAddress := t.number % 2 ^ m.longBits }
  else if t.lTag 0x1709 = 0x170904 then { c with srcIpMask := t.number % 2 ^ m.longBits }
  else if t.lTag 0x1709 = 0x170905 then { c with destIpAddress := t.number % 2 ^ m.longBits }
  else if t.lTag 0x1709 = 0x170909 then { c with nPortStart := t.number % 2 ^ 16 }
  else if t.lTag 0x1709 = 0x17090A then { c with nPortEnd := t.number % 2 ^ 16 }
  else c

/-- What a TLV gives to a configuration. -/
def DsgConfig.given (c : DsgConfig) (t : DsgTlv) : DsgConfig :=
  if t.lTag 0x33 = 0x3301 then { c with
    nRxFrequencies := c.nRxFrequencies + 1
    aRxFrequency :=
      Function.update c.aRxFrequency (safeArrayIndex c.nRxFrequencies) (t.number % 2 ^ m.longBits) }
  else if t.lTag 0x33 = 0x3302 then { c with nInitTimeout := t.number % 2 ^ 16 }
  else if t.lTag 0x33 = 0x3303 then { c with nOperTimeout := t.number % 2 ^ 16 }
  else if t.lTag 0x33 = 0x3304 then { c with nTwoWayTimeout := t.number % 2 ^ 16 }
  else if t.lTag 0x33 = 0x3305 then { c with nOneWayTimeout := t.number % 2 ^ 16 }
  else c

/-- What a client id gives to a rule. -/
def DsgRule.givenClient (r : DsgRule) (c : DcdClient) : DsgRule := { r with
  nClients := r.nClients + 1
  aClients := Function.update r.aClients (safeArrayIndex r.nClients) c.value }

/-- What a TLV gives to a rule. -/
def DsgRule.given (r : DsgRule) (t : DsgTlv) : DsgRule :=
  if t.lTag 0x32 = 0x3201 then { r with nId := t.number % 2 ^ 8 }
  else if t.lTag 0x32 = 0x3202 then { r with nPriority := t.number % 2 ^ 8 }
  else if t.lTag 0x32 = 0x3203 then
    { r with nUCIDs := t.value.length, aUCIDs := fun i => t.value.getD i (r.aUCIDs i) }
  else if t.lTag 0x32 = 0x3205 then { r with dsgMacAddress := t.number }
  else if t.lTag 0x32 = 0x3206 then { r with nClassifierId := t.number % 2 ^ 16 }
  else r

/-- What a TLV gives to a classifier. -/
def DsgClassifier.given (c : DsgClassifier) (t : DsgTlv) : DsgClassifier :=
  if t.lTag 0x17 = 0x1702 then { c with nId := t.number }
  else if t.lTag 0x17 = 0x1705 then { c with nPriority := t.number }
  else c

/-- A TLV with nothing nested in it, as a part. -/
def DsgTlv.part {β : Type} (t : DsgTlv) (given : β → DsgTlv → β) (good : Prop) : DcdPart β :=
  tlvPart t.tag t.size t.value (given · t) (fun _ => []) good

def ipCpePart (t : DsgTlv) : DcdPart DsgIpCpe := t.part (DsgIpCpe.given m) True

def configPart (t : DsgTlv) : DcdPart DsgConfig := t.part (DsgConfig.given m) True

def clientPart (c : DcdClient) : DcdPart DsgRule where
  bytes := c.bytes
  given r := r.givenClient c
  inner _ := []
  good := True

/-- The widths that an id and a priority are read with. -/
def DsgTlv.WidthRight (t : DsgTlv) : Prop :=
  (t.lTag 0x17 = 0x1702 → t.value.length = 2) ∧ (t.lTag 0x17 = 0x1705 → t.value.length = 1)

instance (t : DsgTlv) : Decidable t.WidthRight := inferInstanceAs (Decidable (_ ∧ _))

/-- UCIDs that there is room for. -/
def DsgTlv.UcidsFit (t : DsgTlv) : Prop :=
  t.lTag 0x32 = 0x3203 → t.value.length ≤ maxDsgEntries

def ClassifierItem.part : ClassifierItem → DcdPart DsgClassifier
  | plain t => t.part DsgClassifier.given t.WidthRight
  | ipCpe size ts => tlvPart 0x09 size (ts.flatMap DsgTlv.bytes)
      (fun c => { c with ipCpe := givenAll (ts.map (ipCpePart m)) {} })
      (spansAll (ts.map (ipCpePart m))) True

def RuleItem.part : RuleItem → DcdPart DsgRule
  | plain t => t.part DsgRule.given t.UcidsFit
  | clients size cs => tlvPart 0x04 size (cs.flatMap DcdClient.bytes)
      (givenAll (cs.map clientPart)) (spansAll (cs.map clientPart)) True

def DcdItem.part : DcdItem → DcdPart DsgDcd
  | plain t => t.part (fun d _ => d) True
  | classifier size items => tlvPart 0x17 size (ClassifierItem.valueOf items)
      (fun d => { d with
        nClassifiers := d.nClassifiers + 1
        aClassifiers := Function.update d.aClassifiers (safeArrayIndex d.nClassifiers)
          (givenAll (items.map (ClassifierItem.part m)) {}) })
      (spansAll (items.map (ClassifierItem.part m))) (∀ it ∈ items, (it.part m).good)
  | rule size items => tlvPart 0x32 size (RuleItem.valueOf items)
      (fun d => { d with
        nRules := d.nRules + 1
        aRules := Function.update d.aRules (safeArrayIndex d.nRules)
          (givenAll (items.map RuleItem.part) {}) })
      (spansAll (items.map RuleItem.part)) (∀ it ∈ items, it.part.good)
  | config size ts => tlvPart 0x33 size (ts.flatMap DsgTlv.bytes)
      (fun d => { d with Config := givenAll (ts.map (configPart m)) {} })
      (spansAll (ts.map (configPart m))) True

end Parts

/-! ## What the loops make of them -/

section Loops

variable {mem bytes : List UInt8} {m : DataModel} {s : BufStream} {fuel : ℕ}

section Items

variable {ι β : Type} {items : List ι} {part : ι → DcdPart β} {round : DsgRound β}

theorem dsgLoop_items (hbytes : bytesAll (items.map part) = bytes)
    (hmet : ∀ it ∈ items, (part it).MetBy mem round) (hgood : ∀ it ∈ items, (part it).good)
    (hfuel : bytes.length < fuel) (h : s.Ahead mem bytes) (x : β) :
    dsgLoop round bytes.length s.currentBuf fuel x s =
      some (givenAll (items.map part) x, s.advanceBuf bytes.length,
        spansAll (items.map part) s.currentBuf) := by
  subst hbytes
  have hps : ∀ p ∈ items.map part, p.MetBy mem round := List.forall_mem_map.mpr hmet
  have hcount := length_le_bytesAll fun p hp => (hps p hp).bytes_ne
  exact dsgLoop_of_good hps (List.forall_mem_map.mpr hgood) (by omega) h rfl

theorem diverge_of_items (hbytes : bytesAll (items.map part) = bytes)
    (hmet : ∀ it ∈ items, (part it).MetBy mem round) (hbad : ¬ ∀ it ∈ items, (part it).good)
    (h : s.Ahead mem bytes) {x : β} {y : β × BufStream × DsgSpans}
    (hloop : dsgLoop round bytes.length s.currentBuf fuel x s = some y) :
    Diverge (spansAll (items.map part) s.currentBuf) y.2.2 := by
  subst hbytes
  exact diverge_of_dsgLoop (List.forall_mem_map.mpr hmet)
    (fun hall => hbad (List.forall_mem_map.mp hall)) h rfl hloop

end Items

variable {ts : List DsgTlv} {t : DsgTlv}

theorem DsgTlv.part_metBy {β : Type} {lPrefix : ℕ} {onTag : ℕ → ℤ → DsgRound β}
    {given : β → DsgTlv → β} {good : Prop}
    (hreads : good → ∀ x s, s.Ahead mem t.value → onTag (t.lTag lPrefix) t.value.length x s =
      some (given x t, s.advanceBuf t.value.length, []))
    (hstrays : ¬ good → ∀ x s y, s.Ahead mem t.value →
      onTag (t.lTag lPrefix) t.value.length x s = some y → ∀ place,
        Diverge ([] ++ [(place, s.currentBuf + t.value.length)])
          (y.2.2 ++ [(place, y.2.1.currentBuf)])) :
    (t.part given good).MetBy mem (dsgTlvRound mem lPrefix onTag) :=
  tlvPart_metBy t.fits hreads hstrays

theorem DsgTlv.part_metBy_of_reads {β : Type} {lPrefix : ℕ} {onTag : ℕ → ℤ → DsgRound β}
    {given : β → DsgTlv → β} (hreads : ∀ x s, s.Ahead mem t.value →
      onTag (t.lTag lPrefix) t.value.length x s =
        some (given x t, s.advanceBuf t.value.length, [])) :
    (t.part given True).MetBy mem (dsgTlvRound mem lPrefix onTag) :=
  tlvPart_metBy_of_reads t.fits hreads

theorem bytesAll_tlvs {β : Type} {given : β → DsgTlv → β} {good : Prop} (ts : List DsgTlv) :
    bytesAll (ts.map fun t => t.part given good) = ts.flatMap DsgTlv.bytes := List.flatMap_map ..

theorem ipCpePart_metBy
    (hfit : t.NumberFits 0x1709 [0x170903, 0x170904, 0x170905, 0x170909, 0x17090A]) :
    (ipCpePart m t).MetBy mem (dsgTlvRound mem 0x1709 (ipCpeOnTag mem m)) := by
  refine DsgTlv.part_metBy_of_reads fun c s h => ?_
  rw [ipCpeOnTag, DsgIpCpe.given]
  split_ifs with hsrc hmask hdest hstart hend
  · exact parseNumber_of_ahead h (hfit (by simp [hsrc])).2 _
  · exact parseNumber_of_ahead h (hfit (by simp [hmask])).2 _
  · exact parseNumber_of_ahead h (hfit (by simp [hdest])).2 _
  · exact parseNumber_of_ahead h (hfit (by simp [hstart])).2 _
  · exact parseNumber_of_ahead h (hfit (by simp [hend])).2 _
  · exact discard_of_ahead h c

theorem configPart_metBy
    (hfit : t.NumberFits 0x33 [0x3301, 0x3302, 0x3303, 0x3304, 0x3305]) :
    (configPart m t).MetBy mem (dsgTlvRound mem 0x33 (configOnTag mem m)) := by
  refine DsgTlv.part_metBy_of_reads fun c s h => ?_
  rw [configOnTag, DsgConfig.given]
  split_ifs with hchannel hinit hoper htwo hone
  · exact parseNumber_of_ahead h (hfit (by simp [hchannel])).2 _
  · exact parseNumber_of_ahead h (hfit (by simp [hinit])).2 _
  · exact parseNumber_of_ahead h (hfit (by simp [hoper])).2 _
  · exact parseNumber_of_ahead h (hfit (by simp [htwo])).2 _
  · exact parseNumber_of_ahead h (hfit (by simp [hone])).2 _
  · exact discard_of_ahead h c

theorem clientPart_metBy (c : DcdClient) : (clientPart c).MetBy mem (clientRound mem) where
  bytes_ne := List.cons_ne_nil _ _
  reads _ r s h := by
    have hlength := c.length_encodedId
    obtain ⟨htype, hrest⟩ := h.append [c.eEncodingType]
    obtain ⟨hsize, hid⟩ := hrest.append [UInt8.ofNat c.encodedId.length]
    have hsmall : (UInt8.ofNat c.encodedId.length).toNat = c.encodedId.length :=
      UInt8.toNat_ofNat_of_lt' (show c.encodedId.length < 256 by omega)
    have hparse : vlParseDsgClientId mem s =
        some (c.value, s.advanceBuf c.bytes.length) := by
      rw [List.length_singleton, Int.natCast_one] at hsize hid
      rw [List.length_singleton, Int.natCast_one] at hid
      rw [vlParseDsgClientId, vlParseByte_of_ahead htype]
      dsimp only [Option.bind_eq_bind, Option.bind_some]
      rw [vlParseByte_of_ahead hsize, Option.bind_some, hsmall,
        vlParseNByteLong_of_ahead hid hlength, advanceBuf_advanceBuf, advanceBuf_advanceBuf,
        DcdClient.bytes, List.length_cons, List.length_cons, Int.natCast_add, Int.natCast_add,
        Int.natCast_one, show (1 : ℤ) + (1 + c.encodedId.length) = c.encodedId.length + 1 + 1 by
          omega]
      rfl
    rw [clientRound, hparse]
    rfl
  strays hbad := absurd trivial hbad

/-! ## Classifiers, rules and the whole -/

theorem parseUcids_of_ahead (h : s.Ahead mem bytes) (hle : bytes.length ≤ maxDsgEntries)
    (r : DsgRule) : parseUcids mem bytes.length r s =
      some ({ r with nUCIDs := bytes.length, aUCIDs := fun i => bytes.getD i (r.aUCIDs i) },
        s.advanceBuf bytes.length, []) := by
  rw [parseUcids, vlParseBuffer_of_ahead h, if_pos rfl]
  dsimp only [Option.bind_eq_bind, Option.bind_some]
  rw [if_pos hle]
  rfl

theorem parseUcids_of_long (h : s.Ahead mem bytes) (hlt : ¬ bytes.length ≤ maxDsgEntries)
    (r : DsgRule) : parseUcids mem bytes.length r s = none := by
  rw [parseUcids, vlParseBuffer_of_ahead h, if_pos rfl]
  dsimp only [Option.bind_eq_bind, Option.bind_some]
  rw [if_neg hlt]

theorem ClassifierItem.bytesAll_part (items : List ClassifierItem) :
    bytesAll (items.map (ClassifierItem.part m)) = ClassifierItem.valueOf items := by
  rw [bytesAll, List.flatMap_map]
  exact congrArg (items.flatMap ·) (funext fun it => by cases it <;> rfl)

theorem RuleItem.bytesAll_part (items : List RuleItem) :
    bytesAll (items.map RuleItem.part) = RuleItem.valueOf items := by
  rw [bytesAll, List.flatMap_map]
  exact congrArg (items.flatMap ·) (funext fun it => by cases it <;> rfl)

theorem DcdItem.bytesAll_part (items : List DcdItem) :
    bytesAll (items.map (DcdItem.part m)) = DcdItem.valueOf items := by
  rw [bytesAll, List.flatMap_map]
  exact congrArg (items.flatMap ·) (funext fun it => by cases it <;> rfl)

theorem length_lt_of_tlvBytes_le {tag : UInt8} {size : Option ℕ} {value : List UInt8}
    (h : (tlvBytes tag size value).length ≤ fuel) : value.length < fuel := by
  rw [tlvBytes, tlvHeader, List.cons_append, List.length_cons, List.length_append] at h
  omega

theorem length_bytes_le {ι β : Type} {part : ι → DcdPart β} {items : List ι} {it : ι}
    (hmem : it ∈ items) (hfuel : (bytesAll (items.map part)).length ≤ fuel) :
    (part it).bytes.length ≤ fuel := by
  have hpart : (part it).bytes ∈ (items.map part).map DcdPart.bytes :=
    List.mem_map_of_mem (List.mem_map_of_mem hmem)
  have hsub := List.sublist_flatten_of_mem hpart
  exact Nat.le_trans hsub.length_le hfuel

theorem ClassifierItem.part_metBy {it : ClassifierItem} (hwf : it.WellFormed)
    (hfuel : (it.part m).bytes.length ≤ fuel) :
    (it.part m).MetBy mem (dsgTlvRound mem 0x17 (classifierOnTag mem m fuel)) := by
  cases it with
  | plain t =>
    obtain ⟨hplain, hfit⟩ := hwf
    refine DsgTlv.part_metBy (fun hgood c s h => ?_) fun hbad c s y h hread place => ?_
    · rw [classifierOnTag, DsgClassifier.given]
      split_ifs with hid hpriority
      · have hread := readNByteLong_of_ahead h
        rw [hgood.1 hid] at hread ⊢
        rw [vlParseShort, hread]
        rfl
      · have hread := readNByteLong_of_ahead h
        rw [hgood.2 hpriority] at hread ⊢
        rw [vlParseByte, hread]
        rfl
      · exact discard_of_ahead h c
    · rw [classifierOnTag] at hread
      split_ifs at hread with hid hpriority
      · obtain ⟨⟨v, s'⟩, hv, hy⟩ := Option.bind_eq_some_iff.mp hread
        cases hy
        obtain rfl := eq_of_readNByteLong hv
        refine diverge_of_width (by decide) (fun hwidth => hbad ⟨fun _ => hwidth, ?_⟩) h place
        rw [hid]
        exact fun h => absurd h (by decide)
      · obtain ⟨⟨v, s'⟩, hv, hy⟩ := Option.bind_eq_some_iff.mp hread
        cases hy
        obtain rfl := eq_of_readNByteLong hv
        refine diverge_of_width (by decide) (fun hwidth => hbad ⟨?_, fun _ => hwidth⟩) h place
        rw [hpriority]
        exact fun h => absurd h (by decide)
      · exact absurd ⟨fun h => absurd h hid, fun h => absurd h hpriority⟩ hbad
  | ipCpe size ts =>
    obtain ⟨hfits, hnumbers⟩ := hwf
    refine tlvPart_metBy_of_reads hfits fun c s h => ?_
    have hlt := length_lt_of_tlvBytes_le hfuel
    have hmet : ∀ t ∈ ts, (ipCpePart m t).MetBy mem (dsgTlvRound mem 0x1709 (ipCpeOnTag mem m)) :=
      fun t ht => ipCpePart_metBy (hnumbers t ht)
    have hloop := dsgLoop_items (bytesAll_tlvs ts) hmet (fun _ _ => trivial) hlt h {}
    show classifierOnTag mem m fuel 0x1709 (ts.flatMap DsgTlv.bytes).length c s = _
    rw [classifierOnTag, if_neg (by decide), if_neg (by decide), if_pos rfl, vlParseDsgIpCpe, hloop]
    rfl

theorem RuleItem.part_metBy {it : RuleItem} (hwf : it.WellFormed)
    (hfuel : it.part.bytes.length ≤ fuel) :
    it.part.MetBy mem (dsgTlvRound mem 0x32 (ruleOnTag mem fuel)) := by
  cases it with
  | plain t =>
    obtain ⟨hplain, hfit⟩ := hwf
    refine DsgTlv.part_metBy (fun hgood r s h => ?_) fun hbad r s y h hread place => ?_
    · rw [ruleOnTag, DsgRule.given]
      split_ifs with hid hpriority hucids hmac hclassifier
      · exact parseNumber_of_ahead h (hfit (by simp [hid])).2 _
      · exact parseNumber_of_ahead h (hfit (by simp [hpriority])).2 _
      · exact parseUcids_of_ahead h (hgood hucids) r
      · exact parseNumber_of_ahead h (hfit (by simp [hmac])).2 _
      · exact parseNumber_of_ahead h (hfit (by simp [hclassifier])).2 _
      · exact discard_of_ahead h r
    · rw [ruleOnTag] at hread
      obtain ⟨hucids, hlong⟩ := Classical.not_imp.mp hbad
      rw [if_neg (by rw [hucids]; decide), if_neg (by rw [hucids]; decide), if_pos hucids,
        parseUcids_of_long h hlong] at hread
      cases hread
  | clients size cs =>
    refine tlvPart_metBy_of_reads hwf fun r s h => ?_
    have hlt := length_lt_of_tlvBytes_le hfuel
    have hbytes : bytesAll (cs.map clientPart) = cs.flatMap DcdClient.bytes := List.flatMap_map ..
    have hloop := dsgLoop_items hbytes (fun c _ => clientPart_metBy c) (fun _ _ => trivial) hlt h r
    show ruleOnTag mem fuel 0x3204 (cs.flatMap DcdClient.bytes).length r s = _
    rw [ruleOnTag, if_neg (by decide), if_neg (by decide), if_neg (by decide), if_pos rfl,
      vlParseDsgClientIdList, hloop]

theorem DcdItem.part_metBy {it : DcdItem} (hwf : it.WellFormed)
    (hfuel : (it.part m).bytes.length ≤ fuel) :
    (it.part m).MetBy mem (dsgTlvRound mem 0 (dcdOnTag mem m fuel)) := by
  cases it with
  | plain t =>
    show (t.part (fun d _ => d) True).MetBy mem _
    refine DsgTlv.part_metBy_of_reads fun d s h => ?_
    have htag : t.lTag 0 ∉ [0x17, 0x32, 0x33] := hwf
    simp only [List.mem_cons, List.not_mem_nil, or_false, not_or] at htag
    rw [dcdOnTag, if_neg htag.1, if_neg htag.2.1, if_neg htag.2.2]
    exact discard_of_ahead h d
  | classifier size items =>
    obtain ⟨hfits, hitems⟩ := hwf
    have hlt := length_lt_of_tlvBytes_le hfuel
    have hbytes := ClassifierItem.bytesAll_part (m := m) items
    have hmet : ∀ it ∈ items,
        (it.part m).MetBy mem (dsgTlvRound mem 0x17 (classifierOnTag mem m fuel)) := fun it hit =>
      ClassifierItem.part_metBy (hitems it hit) (length_bytes_le hit (by rw [hbytes]; omega))
    refine tlvPart_metBy hfits (fun hgood d s h => ?_) fun hbad d s y h hread place => ?_
    · show dcdOnTag mem m fuel 0x17 (ClassifierItem.valueOf items).length d s = _
      rw [dcdOnTag, if_pos rfl, vlParseDsgClassifier, dsgLoop_items hbytes hmet hgood hlt h]
      rfl
    · change dcdOnTag mem m fuel 0x17 (ClassifierItem.valueOf items).length d s = some y at hread
      obtain ⟨z, hloop, hy⟩ := Option.bind_eq_some_iff.mp hread
      cases hy
      exact (diverge_of_items hbytes hmet hbad h hloop).append _ _
  | rule size items =>
    obtain ⟨hfits, hitems⟩ := hwf
    have hlt := length_lt_of_tlvBytes_le hfuel
    have hbytes := RuleItem.bytesAll_part items
    have hmet : ∀ it ∈ items,
        it.part.MetBy mem (dsgTlvRound mem 0x32 (ruleOnTag mem fuel)) := fun it hit =>
      RuleItem.part_metBy (hitems it hit) (length_bytes_le hit (by rw [hbytes]; omega))
    refine tlvPart_metBy hfits (fun hgood d s h => ?_) fun hbad d s y h hread place => ?_
    · show dcdOnTag mem m fuel 0x32 (RuleItem.valueOf items).length d s = _
      rw [dcdOnTag, if_neg (by decide), if_pos rfl, vlParseDsgRule,
        dsgLoop_items hbytes hmet hgood hlt h]
      rfl
    · change dcdOnTag mem m fuel 0x32 (RuleItem.valueOf items).length d s = some y at hread
      obtain ⟨z, hloop, hy⟩ := Option.bind_eq_some_iff.mp hread
      cases hy
      exact (diverge_of_items hbytes hmet hbad h hloop).append _ _
  | config size ts =>
    obtain ⟨hfits, hnumbers⟩ := hwf
    have hlt := length_lt_of_tlvBytes_le hfuel
    refine tlvPart_metBy_of_reads hfits fun d s h => ?_
    have hmet : ∀ t ∈ ts, (configPart m t).MetBy mem (dsgTlvRound mem 0x33 (configOnTag mem m)) :=
      fun t ht => configPart_metBy (hnumbers t ht)
    have hloop := dsgLoop_items (bytesAll_tlvs ts) hmet (fun _ _ => trivial) hlt h {}
    show dcdOnTag mem m fuel 0x33 (ts.flatMap DsgTlv.bytes).length d s = _
    rw [dcdOnTag, if_neg (by decide), if_neg (by decide), if_pos rfl, vlParseDsgConfig, hloop]
    rfl

end Loops

end MediaFramework
