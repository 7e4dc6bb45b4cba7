import MediaFramework.Dsg.DcdRead

/-!
# What is left of a DCD

What the parser leaves is a fold, and each field of a fold is told by what a single step does to it:
the last number of a type (`foldl_lastNumber`), the entries of a list (`foldl_entries`), or the last
of several structures (`foldl_lastOf`).

An IP CPE and the configuration are zeroed before each of their TLVs, so that only the last one
counts; a list goes on counting when its array is full; and a number is cut to its field. So a DCD is
interpreted well if the widths of ids and priorities are the ones that are read, the numbers fit their
fields, no list is too long, and the last of several TLVs repeats what those before it say.
-/

namespace MediaFramework

open DcdPart

/-! ## Folds -/

section Folds

variable {σ ι α : Type} {f : σ → ι → σ} {items : List ι}

theorem lastNumber_concat (lPrefix lTag : ℕ) (ts : List DsgTlv) (t : DsgTlv) :
    lastNumber lPrefix lTag (ts ++ [t]) =
      if t.lTag lPrefix = lTag then t.number else lastNumber lPrefix lTag ts := by
  rw [lastNumber, numbers, List.filterMap_append]
  split_ifs with h
  · simp [h]
  · simp [h, lastNumber, numbers]

/-- A field that each number of a type is put into. -/
theorem foldl_lastNumber {π : σ → ℕ} {tlv? : ι → Option DsgTlv} {lPrefix lTag w : ℕ}
    (hstep : ∀ it ∈ items, ∀ x, π (f x it) = match tlv? it with
      | some t => if t.lTag lPrefix = lTag then t.number % w else π x
      | none => π x) {x : σ} (hx : π x = 0) :
    π (items.foldl f x) = lastNumber lPrefix lTag (items.filterMap tlv?) % w := by
  induction items using List.reverseRecOn with
  | nil =>
    rw [List.foldl_nil, hx]
    exact (Nat.zero_mod w).symm
  | append_singleton items it ih =>
    have hlast := hstep it (List.mem_append_right _ (List.mem_singleton_self it)) (items.foldl f x)
    have hbefore := ih fun it' hit' => hstep it' (List.mem_append_left _ hit')
    rw [List.foldl_append, List.foldl_cons, List.foldl_nil, hlast, List.filterMap_append]
    rcases htlv : tlv? it with _ | t
    · rw [List.filterMap_cons_none htlv, List.filterMap_nil, List.append_nil]
      exact hbefore
    · rw [List.filterMap_cons_some htlv, List.filterMap_nil, lastNumber_concat]
      dsimp only
      split_ifs
      · rfl
      · exact hbefore

/-- A field that some of the steps replace. -/
theorem foldl_lastOf {γ : Type} {π : σ → α} {sel : ι → Option γ} {g : γ → α}
    (hstep : ∀ it ∈ items, ∀ x, π (f x it) = ((sel it).map g).getD (π x)) {x : σ} {c : γ}
    (hx : π x = g c) : π (items.foldl f x) = g ((items.filterMap sel).getLastD c) := by
  induction items using List.reverseRecOn with
  | nil => exact hx
  | append_singleton items it ih =>
    have hlast := hstep it (List.mem_append_right _ (List.mem_singleton_self it)) (items.foldl f x)
    have hbefore := ih fun it' hit' => hstep it' (List.mem_append_left _ hit')
    rw [List.foldl_append, List.foldl_cons, List.foldl_nil, hlast, List.filterMap_append]
    rcases hsel : sel it with _ | a
    · rw [List.filterMap_cons_none hsel, List.filterMap_nil, List.append_nil, ← hbefore]
      rfl
    · rw [List.filterMap_cons_some hsel, List.filterMap_nil, List.getLastD_concat]
      rfl

/-- An entry behind those that are there. -/
def pushEntry (p : ℕ × DsgArray α) (x : α) : ℕ × DsgArray α :=
  (p.1 + 1, Function.update p.2 (safeArrayIndex p.1) x)

/-- A list that the steps append to. -/
theorem foldl_entries {π : σ → ℕ × DsgArray α} {sel : ι → List α}
    (hstep : ∀ it ∈ items, ∀ x, π (f x it) = (sel it).foldl pushEntry (π x)) (x : σ) :
    π (items.foldl f x) = (items.flatMap sel).foldl pushEntry (π x) := by
  induction items generalizing x with
  | nil => rfl
  | cons it items ih =>
    rw [List.foldl_cons, ih (fun it' hit' => hstep it' (List.mem_cons_of_mem _ hit')),
      hstep it (List.mem_cons_self ..), List.flatMap_cons, List.foldl_append]

theorem foldl_pushEntry (xs : List α) (a : DsgArray α) :
    (xs.foldl pushEntry (0, a)).1 = xs.length ∧ (xs.length ≤ maxDsgEntries →
      ∀ (i : Fin maxDsgEntries) (x : α), xs[i.val]? = some x →
        (xs.foldl pushEntry (0, a)).2 i = x) := by
  induction xs using List.reverseRecOn with
  | nil => exact ⟨rfl, fun _ i x h => by cases h⟩
  | append_singleton xs y ih =>
    obtain ⟨hcount, hentries⟩ := ih
    rw [List.foldl_append, List.foldl_cons, List.foldl_nil, List.length_append,
      List.length_singleton]
    refine ⟨congrArg (· + 1) hcount, fun hle i x hx => ?_⟩
    have hindex : (safeArrayIndex xs.length).val = xs.length := Nat.min_eq_left (by omega)
    rw [pushEntry, hcount]
    dsimp only
    by_cases hi : i = safeArrayIndex xs.length
    · rw [hi, hindex, List.getElem?_append_right (Nat.le_refl _), Nat.sub_self] at hx
      rw [hi, Function.update_self]
      exact Option.some.inj hx
    · have hlt : i.val < xs.length := by
        have := (List.getElem?_eq_some_iff.mp hx).1
        rw [List.length_append, List.length_singleton] at this
        omega
      rw [List.getElem?_append_left hlt] at hx
      rw [Function.update_of_ne hi]
      exact hentries (by omega) i x hx

end Folds

section Entries

variable {α β : Type} {n : ℤ} {a : DsgArray α}

/-- An array holds the first entries of a list, if it holds just these. -/
theorem entries_eq_iff {xs : List α} (ys : List α) (hn : n = xs.length) (ha : xs.length ≤ maxDsgEntries →
    ∀ (i : Fin maxDsgEntries) (x : α), xs[i.val]? = some x → a i = x) :
    Entries (· = ·) n a ys ↔ ys.take maxDsgEntries = xs := by
  constructor
  · rintro ⟨hcount, hentries⟩
    refine List.ext_getElem (by rw [List.length_take]; omega) fun i hi hi' => ?_
    have hx := ha (by omega) ⟨i, by omega⟩ _ (List.getElem?_eq_getElem hi')
    have hy := hentries ⟨i, by omega⟩ _ (List.getElem?_eq_getElem (show i < ys.length by omega))
    rw [List.getElem_take]
    exact hy.symm.trans hx
  · rintro rfl
    have hlength : (ys.take maxDsgEntries).length = min maxDsgEntries ys.length := List.length_take
    refine ⟨by omega, fun i y hy => ha (by omega) i y ?_⟩
    rw [List.getElem?_take_of_lt i.isLt]
    exact hy

/-- The same, where the entries are not the same but hold what the others say. -/
theorem entries_iff {R : α → β → Prop} {g : β → α} (ys : List β) (a : DsgArray α) :
    Entries R ((ys.map g).foldl pushEntry (0, a)).1 ((ys.map g).foldl pushEntry (0, a)).2 ys ↔
      ys.length ≤ maxDsgEntries ∧ ∀ y ∈ ys, R (g y) y := by
  obtain ⟨hcount, hentries⟩ := foldl_pushEntry (ys.map g) a
  have hlength : (ys.map g).length = ys.length := List.length_map g
  have hget : ∀ (i : ℕ) y, ys[i]? = some y → (ys.map g)[i]? = some (g y) := by
    intro i y hy
    rw [List.getElem?_map, hy, Option.map_some]
  constructor
  · rintro ⟨hn, hall⟩
    have hle : ys.length ≤ maxDsgEntries := by omega
    refine ⟨hle, fun y hy => ?_⟩
    obtain ⟨i, hi, rfl⟩ := List.getElem_of_mem hy
    have hy := List.getElem?_eq_getElem hi
    have hR := hall ⟨i, by omega⟩ _ hy
    rwa [hentries (by omega) ⟨i, by omega⟩ _ (hget i _ hy)] at hR
  · rintro ⟨hle, hall⟩
    refine ⟨by omega, fun i y hy => ?_⟩
    rw [hentries (by omega) i _ (hget i y hy)]
    exact hall y (List.mem_of_getElem? hy)

end Entries

/-! ## Structures without others in them -/

section Fields

variable {ts ts' : List DsgTlv}

theorem givenAll_map {ι β : Type} (part : ι → DcdPart β) (items : List ι) (x : β) :
    givenAll (items.map part) x = items.foldl (fun x it => (part it).given x) x := List.foldl_map

/-- What the TLVs give to an IP CPE. -/
def ipCpeOf (m : DataModel) (ts : List DsgTlv) : DsgIpCpe := ts.foldl (fun c t => c.given m t) {}

/-- What the TLVs give to the configuration. -/
def configOf (m : DataModel) (ts : List DsgTlv) : DsgConfig := ts.foldl (fun c t => c.given m t) {}

/-- A number of a structure that is all TLVs. -/
theorem foldl_number {β : Type} {given : β → DsgTlv → β} {π : β → ℕ} {lPrefix lTag w : ℕ}
    (hstep : ∀ (c : β) (t : DsgTlv), π (given c t) =
      if t.lTag lPrefix = lTag then t.number % w else π c) {c : β} (hc : π c = 0) :
    π (ts.foldl given c) = lastNumber lPrefix lTag ts % w := by
  have hlast : π (ts.foldl given c) = lastNumber lPrefix lTag (ts.filterMap some) % w :=
    foldl_lastNumber (fun t _ c => hstep c t) hc
  rwa [List.filterMap_some] at hlast

theorem ipCpeOf_numbers (m : DataModel) (ts : List DsgTlv) :
    (ipCpeOf m ts).srcIpAddress = lastNumber 0x1709 0x170903 ts % 2 ^ m.longBits ∧
    (ipCpeOf m ts).srcIpMask = lastNumber 0x1709 0x170904 ts % 2 ^ m.longBits ∧
    (ipCpeOf m ts).destIpAddress = lastNumber 0x1709 0x170905 ts % 2 ^ m.longBits ∧
    (ipCpeOf m ts).nPortStart = lastNumber 0x1709 0x170909 ts % 2 ^ 16 ∧
    (ipCpeOf m ts).nPortEnd = lastNumber 0x1709 0x17090A ts % 2 ^ 16 := by
  refine ⟨foldl_number ?_ rfl, foldl_number ?_ rfl, foldl_number ?_ rfl, foldl_number ?_ rfl,
    foldl_number ?_ rfl⟩
  all_goals
    intro c t
    rw [DsgIpCpe.given]
    split_ifs <;> first | rfl | omega

theorem channels_eq_flatMap (m : DataModel) (ts : List DsgTlv) :
    (channels ts).map (· % 2 ^ m.longBits) =
      ts.flatMap fun t => if t.lTag 0x33 = 0x3301 then [t.number % 2 ^ m.longBits] else [] := by
  induction ts with
  | nil => rfl
  | cons t ts ih =>
    rw [List.flatMap_cons, ← ih, channels, channels, numbers, numbers, List.filterMap_cons]
    split_ifs <;> rfl

/-- The list of a configuration. -/
def DsgConfig.entries (c : DsgConfig) : ℕ × DsgArray ℕ := (c.nRxFrequencies, c.aRxFrequency)

theorem configOf_entries (m : DataModel) (ts : List DsgTlv) : (configOf m ts).entries =
    ((channels ts).map (· % 2 ^ m.longBits)).foldl pushEntry (0, fun _ => 0) := by
  rw [channels_eq_flatMap]
  refine foldl_entries (fun t _ c => ?_) ({} : DsgConfig)
  rw [DsgConfig.given]
  split_ifs <;> rfl

theorem configOf_timeouts (m : DataModel) (ts : List DsgTlv) :
    (configOf m ts).nInitTimeout = lastNumber 0x33 0x3302 ts % 2 ^ 16 ∧
    (configOf m ts).nOperTimeout = lastNumber 0x33 0x3303 ts % 2 ^ 16 ∧
    (configOf m ts).nTwoWayTimeout = lastNumber 0x33 0x3304 ts % 2 ^ 16 ∧
    (configOf m ts).nOneWayTimeout = lastNumber 0x33 0x3305 ts % 2 ^ 16 := by
  refine ⟨foldl_number ?_ rfl, foldl_number ?_ rfl, foldl_number ?_ rfl, foldl_number ?_ rfl⟩
  all_goals
    intro c t
    rw [DsgConfig.given]
    split_ifs <;> first | rfl | omega

/-- Fields of a structure: the type of the numbers that are put into each, and the first number that
is too large for it. -/
abbrev DsgFields := List (ℕ × ℕ)

/-- The last numbers fit their fields. -/
def NumbersFit (lPrefix : ℕ) (fields : DsgFields) (ts : List DsgTlv) : Prop :=
  ∀ k ∈ fields, lastNumber lPrefix k.1 ts < k.2

instance (lPrefix : ℕ) (fields : DsgFields) (ts : List DsgTlv) :
    Decidable (NumbersFit lPrefix fields ts) := inferInstanceAs (Decidable (∀ k ∈ fields, _))

/-- Some TLVs say the same as others, as far as the fields show it. -/
def SaySame (lPrefix : ℕ) (fields : DsgFields) (ts ts' : List DsgTlv) : Prop :=
  ∀ k ∈ fields, lastNumber lPrefix k.1 ts % k.2 = lastNumber lPrefix k.1 ts' % k.2

instance (lPrefix : ℕ) (fields : DsgFields) (ts ts' : List DsgTlv) :
    Decidable (SaySame lPrefix fields ts ts') := inferInstanceAs (Decidable (∀ k ∈ fields, _))

/-- What is left of some numbers are others just if these fit, and the cut does not tell them apart. -/
theorem cut_iff {lPrefix : ℕ} {fields : DsgFields} (hpos : ∀ k ∈ fields, 0 < k.2) :
    (∀ k ∈ fields, lastNumber lPrefix k.1 ts % k.2 = lastNumber lPrefix k.1 ts') ↔
      NumbersFit lPrefix fields ts' ∧ SaySame lPrefix fields ts ts' := by
  constructor
  · intro h
    refine ⟨fun k hk => ?_, fun k hk => ?_⟩
    · rw [← h k hk]
      exact Nat.mod_lt _ (hpos k hk)
    · rw [← h k hk, Nat.mod_mod]
  · rintro ⟨hfit, hsame⟩ k hk
    rw [hsame k hk, Nat.mod_eq_of_lt (hfit k hk)]

/-- The fields of an IP CPE. -/
def ipCpeFields (m : DataModel) : DsgFields :=
  [(0x170903, 2 ^ m.longBits), (0x170904, 2 ^ m.longBits), (0x170905, 2 ^ m.longBits),
    (0x170909, 2 ^ 16), (0x17090A, 2 ^ 16)]

/-- The timeouts of a configuration. -/
def configFields : DsgFields :=
  [(0x3302, 2 ^ 16), (0x3303, 2 ^ 16), (0x3304, 2 ^ 16), (0x3305, 2 ^ 16)]

/-- The fields of a rule that a number is cut for. -/
def ruleFields : DsgFields := [(0x3201, 2 ^ 8), (0x3202, 2 ^ 8), (0x3206, 2 ^ 16)]

/-- The IP CPE of some TLVs holds others if these fit and say the same. -/
theorem ipCpeOf_holds_iff {m : DataModel} : (ipCpeOf m ts).Holds ts' ↔
    NumbersFit 0x1709 (ipCpeFields m) ts' ∧ SaySame 0x1709 (ipCpeFields m) ts ts' := by
  obtain ⟨hsrc, hmask, hdest, hstart, hend⟩ := ipCpeOf_numbers m ts
  have hlong : 0 < 2 ^ m.longBits := Nat.two_pow_pos m.longBits
  rw [DsgIpCpe.Holds, hsrc, hmask, hdest, hstart, hend, ← cut_iff]
  · simp only [ipCpeFields, List.mem_cons, List.not_mem_nil, or_false, forall_eq_or_imp, forall_eq]
  · simp only [ipCpeFields, List.mem_cons, List.not_mem_nil, or_false, forall_eq_or_imp, forall_eq]
    exact ⟨hlong, hlong, hlong, by decide, by decide⟩

theorem configOf_holds_iff {m : DataModel} : (configOf m ts).Holds ts' ↔
    (channels ts').take maxDsgEntries = (channels ts).map (· % 2 ^ m.longBits) ∧
      NumbersFit 0x33 configFields ts' ∧ SaySame 0x33 configFields ts ts' := by
  obtain ⟨hinit, hoper, htwo, hone⟩ := configOf_timeouts m ts
  obtain ⟨hcount, hentries⟩ := foldl_pushEntry ((channels ts).map (· % 2 ^ m.longBits)) fun _ => 0
  rw [← configOf_entries] at hcount hentries
  rw [DsgConfig.Holds, hinit, hoper, htwo, hone, ← cut_iff (by decide)]
  refine and_congr (entries_eq_iff _ (congrArg Int.ofNat hcount) hentries) ?_
  simp only [configFields, List.mem_cons, List.not_mem_nil, or_false, forall_eq_or_imp, forall_eq]

end Fields

/-! ## Classifiers and rules -/

/-- A classifier that is interpreted well. -/
structure ClassifierSuits (m : DataModel) (items : List ClassifierItem) : Prop where
  /-- ids of two bytes, priorities of one -/
  widths : ∀ t ∈ items.filterMap ClassifierItem.tlv?, t.WidthRight
  /-- the last numbers of the IP CPEs fit -/
  fits : NumbersFit 0x1709 (ipCpeFields m) (items.filterMap ClassifierItem.ipCpe?).flatten
  /-- the last IP CPE says the same as all of them -/
  ipCpes : SaySame 0x1709 (ipCpeFields m) ((items.filterMap ClassifierItem.ipCpe?).getLastD [])
    (items.filterMap ClassifierItem.ipCpe?).flatten

/-- A rule that is interpreted well. -/
structure RuleSuits (items : List RuleItem) : Prop where
  /-- the last numbers fit -/
  fits : NumbersFit 0x32 ruleFields (items.filterMap RuleItem.tlv?)
  /-- each list of UCIDs has room in the array -/
  ucids_le : ∀ ucids ∈ items.filterMap RuleItem.ucids?, ucids.length ≤ maxDsgEntries
  /-- the last list of UCIDs says the same as all of them -/
  ucids : (items.filterMap RuleItem.ucids?).flatten.take maxDsgEntries =
    (items.filterMap RuleItem.ucids?).getLastD []
  /-- all client ids have room in the array -/
  clients_le : (items.flatMap RuleItem.clientsOf).length ≤ maxDsgEntries

/-- Configurations that are interpreted well: the last one says the same as all of them. -/
structure ConfigsSuit (m : DataModel) (configs : List (List DsgTlv)) : Prop where
  /-- the first channels of all are those that the last one leaves -/
  channels : (channels configs.flatten).take maxDsgEntries =
    (channels (configs.getLastD [])).map (· % 2 ^ m.longBits)
  /-- the last timeouts fit -/
  fits : NumbersFit 0x33 configFields configs.flatten
  /-- the last configuration gives the same timeouts as all of them -/
  timeouts : SaySame 0x33 configFields (configs.getLastD []) configs.flatten

section Items

/-- What the items give to a classifier. -/
def classifierOf (m : DataModel) (items : List ClassifierItem) : DsgClassifier :=
  items.foldl (fun c it => (it.part m).given c) {}

/-- The id and the priority are not cut, which a remainder by 0 says. -/
theorem DsgClassifier.given_numbers (c : DsgClassifier) (t : DsgTlv) :
    (c.given t).nId = (if t.lTag 0x17 = 0x1702 then t.number % 0 else c.nId) ∧
    (c.given t).nPriority = if t.lTag 0x17 = 0x1705 then t.number % 0 else c.nPriority := by
  rw [DsgClassifier.given, Nat.mod_zero]
  refine ⟨?_, ?_⟩
  all_goals split_ifs <;> first | rfl | omega

theorem classifierOf_numbers (m : DataModel) (items : List ClassifierItem) :
    (classifierOf m items).nId = lastNumber 0x17 0x1702 (items.filterMap ClassifierItem.tlv?) ∧
    (classifierOf m items).nPriority =
      lastNumber 0x17 0x1705 (items.filterMap ClassifierItem.tlv?) := by
  rw [← Nat.mod_zero (lastNumber 0x17 0x1702 _), ← Nat.mod_zero (lastNumber 0x17 0x1705 _)]
  refine ⟨foldl_lastNumber (fun it _ c => ?_) rfl, foldl_lastNumber (fun it _ c => ?_) rfl⟩
  · cases it with
    | plain t => exact (c.given_numbers t).1
    | ipCpe size ts => rfl
  · cases it with
    | plain t => exact (c.given_numbers t).2
    | ipCpe size ts => rfl

theorem classifierOf_ipCpe (m : DataModel) (items : List ClassifierItem) :
    (classifierOf m items).ipCpe =
      ipCpeOf m ((items.filterMap ClassifierItem.ipCpe?).getLastD []) := by
  refine foldl_lastOf (fun it hit c => ?_) rfl
  cases it with
  | plain t =>
    show (c.given t).ipCpe = c.ipCpe
    rw [DsgClassifier.given]
    split_ifs <;> rfl
  | ipCpe size ts => exact givenAll_map (ipCpePart m) ts {}

/-- **A classifier.** -/
theorem classifierOf_holds_iff {m : DataModel} {items : List ClassifierItem}
    (hwidths : ∀ t ∈ items.filterMap ClassifierItem.tlv?, t.WidthRight) :
    (classifierOf m items).Holds items ↔ ClassifierSuits m items := by
  obtain ⟨hid, hpriority⟩ := classifierOf_numbers m items
  rw [DsgClassifier.Holds, classifierOf_ipCpe, ipCpeOf_holds_iff]
  constructor
  · rintro ⟨-, -, hfits, hsame⟩
    exact ⟨hwidths, hfits, hsame⟩
  · intro h
    exact ⟨hid, hpriority, h.fits, h.ipCpes⟩

/-- What the items give to a rule. -/
def ruleOf (items : List RuleItem) : DsgRule := items.foldl (fun r it => it.part.given r) {}

/-- The clients of a rule. -/
def DsgRule.clientEntries (r : DsgRule) : ℕ × DsgArray DsgClientId := (r.nClients, r.aClients)

theorem givenAll_clients (cs : List DcdClient) (r : DsgRule) :
    (givenAll (cs.map clientPart) r).clientEntries =
      (cs.map DcdClient.value).foldl pushEntry r.clientEntries := by
  rw [givenAll_map]
  induction cs generalizing r with
  | nil => rfl
  | cons c cs ih => exact ih (r.givenClient c)

/-- Client ids give nothing but clients. -/
theorem givenAll_clients_frame {γ : Type} {π : DsgRule → γ}
    (hπ : ∀ r n a, π { r with nClients := n, aClients := a } = π r) (cs : List DcdClient)
    (r : DsgRule) : π (givenAll (cs.map clientPart) r) = π r := by
  rw [givenAll_map]
  induction cs generalizing r with
  | nil => rfl
  | cons c cs ih => exact (ih (r.givenClient c)).trans (hπ r _ _)

theorem DsgRule.given_numbers (r : DsgRule) (t : DsgTlv) :
    (r.given t).nId = (if t.lTag 0x32 = 0x3201 then t.number % 2 ^ 8 else r.nId) ∧
    (r.given t).nPriority = (if t.lTag 0x32 = 0x3202 then t.number % 2 ^ 8 else r.nPriority) ∧
    (r.given t).dsgMacAddress =
      (if t.lTag 0x32 = 0x3205 then t.number % 0 else r.dsgMacAddress) ∧
    (r.given t).nClassifierId =
      if t.lTag 0x32 = 0x3206 then t.number % 2 ^ 16 else r.nClassifierId := by
  rw [DsgRule.given, Nat.mod_zero]
  refine ⟨?_, ?_, ?_, ?_⟩
  all_goals split_ifs <;> first | rfl | omega

theorem ruleOf_numbers (items : List RuleItem) :
    (ruleOf items).nId = lastNumber 0x32 0x3201 (items.filterMap RuleItem.tlv?) % 2 ^ 8 ∧
    (ruleOf items).nPriority = lastNumber 0x32 0x3202 (items.filterMap RuleItem.tlv?) % 2 ^ 8 ∧
    (ruleOf items).dsgMacAddress = lastNumber 0x32 0x3205 (items.filterMap RuleItem.tlv?) % 0 ∧
    (ruleOf items).nClassifierId =
      lastNumber 0x32 0x3206 (items.filterMap RuleItem.tlv?) % 2 ^ 16 := by
  refine ⟨foldl_lastNumber (fun it _ r => ?_) rfl, foldl_lastNumber (fun it _ r => ?_) rfl,
    foldl_lastNumber (fun it _ r => ?_) rfl, foldl_lastNumber (fun it _ r => ?_) rfl⟩
  · cases it with
    | plain t => exact (r.given_numbers t).1
    | clients size cs => exact givenAll_clients_frame (fun _ _ _ => rfl) cs r
  · cases it with
    | plain t => exact (r.given_numbers t).2.1
    | clients size cs => exact givenAll_clients_frame (fun _ _ _ => rfl) cs r
  · cases it with
    | plain t => exact (r.given_numbers t).2.2.1
    | clients size cs => exact givenAll_clients_frame (fun _ _ _ => rfl) cs r
  · cases it with
    | plain t => exact (r.given_numbers t).2.2.2
    | clients size cs => exact givenAll_clients_frame (fun _ _ _ => rfl) cs r

theorem ruleOf_clients (items : List RuleItem) : (ruleOf items).clientEntries =
    ((items.flatMap RuleItem.clientsOf).map DcdClient.value).foldl pushEntry (0, fun _ => {}) := by
  rw [List.map_flatMap]
  refine foldl_entries (fun it _ r => ?_) ({} : DsgRule)
  cases it with
  | plain t =>
    show (r.given t).clientEntries = r.clientEntries
    rw [DsgRule.given]
    split_ifs <;> rfl
  | clients size cs => exact givenAll_clients cs r

/-- The last list of UCIDs is what is there. -/
theorem ruleOf_ucids (items : List RuleItem) :
    (ruleOf items).nUCIDs = ((items.filterMap RuleItem.ucids?).getLastD []).length ∧
    ∀ (i : Fin maxDsgEntries) (x : UInt8),
      ((items.filterMap RuleItem.ucids?).getLastD [])[i.val]? = some x →
        (ruleOf items).aUCIDs i = x := by
  induction items using List.reverseRecOn with
  | nil => exact ⟨rfl, fun i x h => by cases h⟩
  | append_singleton items it ih =>
    have hfold : ruleOf (items ++ [it]) = it.part.given (ruleOf items) := List.foldl_append
    rw [hfold, List.filterMap_append]
    cases it with
    | clients size cs =>
      have hnone : [RuleItem.clients size cs].filterMap RuleItem.ucids? = [] := rfl
      have hframe : ((RuleItem.clients size cs).part.given (ruleOf items)).nUCIDs =
          (ruleOf items).nUCIDs ∧ ((RuleItem.clients size cs).part.given (ruleOf items)).aUCIDs =
            (ruleOf items).aUCIDs :=
        ⟨givenAll_clients_frame (fun _ _ _ => rfl) cs _,
          givenAll_clients_frame (fun _ _ _ => rfl) cs _⟩
      rw [hnone, List.append_nil, hframe.1, hframe.2]
      exact ih
    | plain t =>
      show ((ruleOf items).given t).nUCIDs = _ ∧ ∀ _ _, _ → ((ruleOf items).given t).aUCIDs _ = _
      by_cases hucids : t.lTag 0x32 = 0x3203
      · have hsome : [RuleItem.plain t].filterMap RuleItem.ucids? = [t.value] :=
          List.filterMap_cons_some (if_pos hucids)
        rw [hsome, List.getLastD_concat, DsgRule.given, if_neg (by omega), if_neg (by omega),
          if_pos hucids]
        refine ⟨rfl, fun i x hx => ?_⟩
        show t.value.getD i _ = x
        rw [List.getD_eq_getElem?_getD, hx, Option.getD_some]
      · have hnone : [RuleItem.plain t].filterMap RuleItem.ucids? = [] :=
          List.filterMap_cons_none (if_neg hucids)
        have hframe : ((ruleOf items).given t).nUCIDs = (ruleOf items).nUCIDs ∧
            ((ruleOf items).given t).aUCIDs = (ruleOf items).aUCIDs := by
          rw [DsgRule.given, if_neg hucids]
          split_ifs <;> exact ⟨rfl, rfl⟩
        rw [hnone, List.append_nil, hframe.1, hframe.2]
        exact ih

/-- **A rule.** -/
theorem ruleOf_holds_iff {items : List RuleItem}
    (hucids : ∀ ucids ∈ items.filterMap RuleItem.ucids?, ucids.length ≤ maxDsgEntries) :
    (ruleOf items).Holds items ↔ RuleSuits items := by
  obtain ⟨hid, hpriority, hmac, hclassifier⟩ := ruleOf_numbers items
  obtain ⟨hcount, hentries⟩ := ruleOf_ucids items
  have hclients := entries_iff (R := fun id c => id = c.value) (g := DcdClient.value)
    (items.flatMap RuleItem.clientsOf) fun _ => {}
  rw [← ruleOf_clients] at hclients
  have hlists := entries_eq_iff (items.filterMap RuleItem.ucids?).flatten hcount fun _ => hentries
  rw [DsgRule.Holds, hid, hpriority, hclassifier, hmac, Nat.mod_zero]
  constructor
  · rintro ⟨hid, hpriority, hu, hc, -, hclassifier⟩
    refine ⟨?_, hucids, hlists.mp hu, (hclients.mp hc).1⟩
    simp only [NumbersFit, ruleFields, List.mem_cons, List.not_mem_nil, or_false, forall_eq_or_imp,
      forall_eq]
    omega
  · rintro ⟨hfits, -, hu, hc⟩
    have hid := hfits (0x3201, 2 ^ 8) (by decide)
    have hpriority := hfits (0x3202, 2 ^ 8) (by decide)
    have hclassifier := hfits (0x3206, 2 ^ 16) (by decide)
    exact ⟨Nat.mod_eq_of_lt hid, Nat.mod_eq_of_lt hpriority, hlists.mpr hu,
      hclients.mpr ⟨hc, fun _ _ => rfl⟩, rfl, Nat.mod_eq_of_lt hclassifier⟩

end Items

/-- **A DCD that is interpreted well.** -/
structure Dcd.Suits (m : DataModel) (dcd : Dcd) : Prop where
  classifiers_le : dcd.classifiers.length ≤ maxDsgEntries
  classifiers : ∀ items ∈ dcd.classifiers, ClassifierSuits m items
  rules_le : dcd.rules.length ≤ maxDsgEntries
  rules : ∀ items ∈ dcd.rules, RuleSuits items
  configs : ConfigsSuit m dcd.configs

/-! ## The whole -/

section Whole

variable (m : DataModel)

/-- What the items give to a DCD. -/
def dcdOf (items : List DcdItem) : DsgDcd := items.foldl (fun d it => (it.part m).given d) {}

/-- The lists of a DCD. -/
def DsgDcd.classifierEntries (d : DsgDcd) : ℕ × DsgArray DsgClassifier :=
  (d.nClassifiers, d.aClassifiers)

def DsgDcd.ruleEntries (d : DsgDcd) : ℕ × DsgArray DsgRule := (d.nRules, d.aRules)

theorem flatMap_toList_map {ι β γ : Type} {sel : ι → Option γ} {g : γ → β} (items : List ι) :
    items.flatMap (fun it => ((sel it).map g).toList) = (items.filterMap sel).map g := by
  induction items with
  | nil => rfl
  | cons it items ih =>
    rw [List.flatMap_cons, ih]
    rcases hsel : sel it with _ | a
    · rw [List.filterMap_cons_none hsel]
      rfl
    · rw [List.filterMap_cons_some hsel]
      rfl

theorem dcdOf_classifiers (items : List DcdItem) : (dcdOf m items).classifierEntries =
    ((items.filterMap DcdItem.classifier?).map (classifierOf m)).foldl pushEntry (0, fun _ => {}) := by
  rw [← flatMap_toList_map]
  refine foldl_entries (fun it _ d => ?_) ({} : DsgDcd)
  cases it with
  | classifier size items =>
    exact congrArg (pushEntry d.classifierEntries) (givenAll_map (ClassifierItem.part m) items {})
  | plain t => rfl
  | rule size items => rfl
  | config size ts => rfl

theorem dcdOf_rules (items : List DcdItem) : (dcdOf m items).ruleEntries =
    ((items.filterMap DcdItem.rule?).map ruleOf).foldl pushEntry (0, fun _ => {}) := by
  rw [← flatMap_toList_map]
  refine foldl_entries (fun it _ d => ?_) ({} : DsgDcd)
  cases it with
  | rule size items =>
    exact congrArg (pushEntry d.ruleEntries) (givenAll_map RuleItem.part items {})
  | plain t => rfl
  | classifier size items => rfl
  | config size ts => rfl

theorem dcdOf_config (items : List DcdItem) :
    (dcdOf m items).Config = configOf m ((items.filterMap DcdItem.config?).getLastD []) := by
  refine foldl_lastOf (fun it _ d => ?_) rfl
  cases it with
  | config size ts => exact givenAll_map (configPart m) ts {}
  | plain t => rfl
  | classifier size items => rfl
  | rule size items => rfl

theorem classifier_good_iff (items : List ClassifierItem) : (∀ it ∈ items, (it.part m).good) ↔
    ∀ t ∈ items.filterMap ClassifierItem.tlv?, t.WidthRight := by
  constructor
  · intro h t ht
    obtain ⟨it, hit, hsome⟩ := List.mem_filterMap.mp ht
    cases it with
    | plain t' =>
      cases hsome
      exact h _ hit
    | ipCpe size ts => cases hsome
  · intro h it hit
    cases it with
    | plain t => exact h t (List.mem_filterMap.mpr ⟨_, hit, rfl⟩)
    | ipCpe size ts => trivial

theorem rule_good_iff (items : List RuleItem) : (∀ it ∈ items, it.part.good) ↔
    ∀ ucids ∈ items.filterMap RuleItem.ucids?, ucids.length ≤ maxDsgEntries := by
  constructor
  · intro h ucids hucids
    obtain ⟨it, hit, hsome⟩ := List.mem_filterMap.mp hucids
    cases it with
    | plain t =>
      rw [RuleItem.ucids?, Option.ite_none_right_eq_some] at hsome
      obtain ⟨htag, hvalue⟩ := hsome
      cases hvalue
      exact h _ hit htag
    | clients size cs => cases hsome
  · intro h it hit
    cases it with
    | plain t => exact fun htag => h t.value (List.mem_filterMap.mpr ⟨_, hit, if_pos htag⟩)
    | clients size cs => trivial

/-- All parts are good if those of the classifiers and the rules are. -/
theorem Dcd.good_iff (dcd : Dcd) : (∀ it ∈ dcd.items, (it.part m).good) ↔
    (∀ items ∈ dcd.classifiers, ∀ t ∈ items.filterMap ClassifierItem.tlv?, t.WidthRight) ∧
    ∀ items ∈ dcd.rules, ∀ ucids ∈ items.filterMap RuleItem.ucids?,
      ucids.length ≤ maxDsgEntries := by
  constructor
  · intro h
    refine ⟨fun items hitems => ?_, fun items hitems => ?_⟩
    · obtain ⟨it, hit, hsome⟩ := List.mem_filterMap.mp hitems
      cases it with
      | classifier size items' =>
        obtain rfl := Option.some.inj hsome
        exact (classifier_good_iff m items').mp (h _ hit)
      | _ => cases hsome
    · obtain ⟨it, hit, hsome⟩ := List.mem_filterMap.mp hitems
      cases it with
      | rule size items' =>
        obtain rfl := Option.some.inj hsome
        exact (rule_good_iff items').mp (h _ hit)
      | _ => cases hsome
  · rintro ⟨hclassifiers, hrules⟩ it hit
    cases it with
    | classifier size items =>
      exact (classifier_good_iff m items).mpr
        (hclassifiers items (List.mem_filterMap.mpr ⟨_, hit, rfl⟩))
    | rule size items =>
      exact (rule_good_iff items).mpr (hrules items (List.mem_filterMap.mpr ⟨_, hit, rfl⟩))
    | plain t => trivial
    | config size ts => trivial

/-- **What is left of a DCD**, where all of its parts are good. -/
theorem dcdOf_holds_iff {m : DataModel} {dcd : Dcd} (hgood : ∀ it ∈ dcd.items, (it.part m).good) :
    (dcdOf m dcd.items).Holds dcd ↔ dcd.Suits m := by
  obtain ⟨hwidths, hucids⟩ := (dcd.good_iff m).mp hgood
  have hclassifiers := entries_iff (R := DsgClassifier.Holds) (g := classifierOf m)
    dcd.classifiers fun _ => {}
  have hrules := entries_iff (R := DsgRule.Holds) (g := ruleOf) dcd.rules fun _ => {}
  rw [Dcd.classifiers, ← dcdOf_classifiers] at hclassifiers
  rw [Dcd.rules, ← dcdOf_rules] at hrules
  rw [DsgDcd.Holds, dcdOf_config, configOf_holds_iff]
  constructor
  · rintro ⟨hc, hr, hchannels, hfits, htimeouts⟩
    obtain ⟨hclassifiers_le, hheld⟩ := hclassifiers.mp hc
    obtain ⟨hrules_le, hheld'⟩ := hrules.mp hr
    exact ⟨hclassifiers_le,
      fun items h => (classifierOf_holds_iff (hwidths items h)).mp (hheld items h), hrules_le,
      fun items h => (ruleOf_holds_iff (hucids items h)).mp (hheld' items h), hchannels, hfits,
      htimeouts⟩
  · intro h
    exact ⟨hclassifiers.mpr ⟨h.classifiers_le,
        fun items hi => (classifierOf_holds_iff (hwidths items hi)).mpr (h.classifiers items hi)⟩,
      hrules.mpr ⟨h.rules_le,
        fun items hi => (ruleOf_holds_iff (hucids items hi)).mpr (h.rules items hi)⟩,
      h.configs.channels, h.configs.fits, h.configs.timeouts⟩

/-- **A DCD is interpreted well.** Each TLV is met at its own place, and the stream stands behind it
when it is parsed; and what was given is held. -/
def Dcd.Interpreted (dcd : Dcd) (mem : List UInt8) (fuel : ℕ) (s : BufStream) : Prop :=
  ∃ d : DsgDcd, d.Holds dcd ∧
    vlParseDsgDCD mem m fuel s.remainder s.currentBuf s =
      some (d, s.advanceBuf dcd.bytes.length, spansAll (dcd.items.map (DcdItem.part m)) s.currentBuf)

/-- **A DCD is interpreted well** just if it suits the parser. -/
theorem Dcd.interpreted_iff (dcd : Dcd) {mem : List UInt8} {fuel : ℕ} {s : BufStream}
    (h : s.Ahead mem dcd.bytes) (hend : s.iPosition + dcd.bytes.length = s.nCapacity)
    (hfuel : dcd.bytes.length < fuel) : dcd.Interpreted m mem fuel s ↔ dcd.Suits m := by
  have hbytes : bytesAll (dcd.items.map (DcdItem.part m)) = dcd.bytes :=
    DcdItem.bytesAll_part dcd.items
  have hlt := length_lt_of_ahead h
  have hremainder : s.remainder = dcd.bytes.length := by
    have hroom : s.nCapacity - s.iPosition = dcd.bytes.length := by omega
    rw [BufStream.remainder, hroom]
    exact BufStream.int32_of_range (by omega) (by omega)
  have hmet : ∀ it ∈ dcd.items, (it.part m).MetBy mem (dsgTlvRound mem 0 (dcdOnTag mem m fuel)) :=
    fun it hit => DcdItem.part_metBy (dcd.wellFormed it hit)
      (length_bytes_le hit (by rw [hbytes]; exact Nat.le_of_lt hfuel))
  rw [Interpreted, hremainder, vlParseDsgDCD]
  by_cases hgood : ∀ it ∈ dcd.items, (it.part m).good
  · rw [dsgLoop_items hbytes hmet hgood hfuel h, givenAll_map, ← dcdOf_holds_iff hgood]
    constructor
    · rintro ⟨d, hholds, hparse⟩
      obtain rfl := (Prod.mk.inj (Option.some.inj hparse)).1
      exact hholds
    · exact fun hholds => ⟨_, hholds, rfl⟩
  · constructor
    · rintro ⟨d, -, hparse⟩
      exact absurd rfl (diverge_of_items hbytes hmet hgood h hparse).ne
    · intro hsuits
      exact absurd ((dcd.good_iff m).mpr ⟨fun items hi => (hsuits.classifiers items hi).widths,
        fun items hi => (hsuits.rules items hi).ucids_le⟩) hgood

/-- A classifier with an id of two bytes and a priority, and a configuration with a channel. -/
def channelDcd : Dcd where
  items := [
    .classifier none [.plain ⟨0x02, none, [0, 5], by decide⟩, .plain ⟨0x05, none, [7], by decide⟩],
    .config none [⟨0x01, none, [0x0B, 0xEB, 0xC2, 0x00], by decide⟩]]
  wellFormed := by decide

theorem Dcd.interpreted_channelDcd :
    channelDcd.Interpreted .ilp32 channelDcd.bytes 20 (BufStream.inst channelDcd.bytes) := by
  refine (Dcd.interpreted_iff .ilp32 channelDcd (BufStream.ahead_inst (by decide)) (by decide)
    (by decide)).mpr ⟨by decide, fun items hitems => ?_, by decide, nofun, by decide, by decide,
      by decide⟩
  obtain rfl := List.mem_singleton.mp hitems
  exact ⟨by decide, by decide, by decide⟩

/-- **An id of one byte.** It is read with the tag of the priority behind it. -/
def shortIdDcd : Dcd where
  items := [
    .classifier none [.plain ⟨0x02, none, [5], by decide⟩, .plain ⟨0x05, none, [7], by decide⟩]]
  wellFormed := by decide

/-- The TLV behind the id is looked for at another place than its own. -/
theorem Dcd.not_interpreted_shortIdDcd :
    ¬ shortIdDcd.Interpreted .ilp32 shortIdDcd.bytes 9 (BufStream.inst shortIdDcd.bytes) ∧
    ¬ shortIdDcd.Interpreted .lp64 shortIdDcd.bytes 9 (BufStream.inst shortIdDcd.bytes) := by
  refine ⟨fun ⟨d, _, hparse⟩ => ?_, fun ⟨d, _, hparse⟩ => ?_⟩
  all_goals
    have hspans := congrArg (Option.map fun y => y.2.2) hparse
    simp only [Option.map_some] at hspans
    revert hspans
    decide

end Whole

end MediaFramework
