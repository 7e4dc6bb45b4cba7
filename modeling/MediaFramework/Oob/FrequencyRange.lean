import Mathlib.Algebra.Group.Nat.Defs
import Mathlib.Data.List.TakeWhile
import Mathlib.Order.Fin.Basic
import MediaFramework.Lib.Extremes
import MediaFramework.Lib.Run

/-!
# The range of the carrier frequencies (`rmf_oobsicache.cpp`)

The frequencies that are signalled in a NIT are stored by their indices, and zero is where there is
none. The range of them is computed up to the first zero: from index 0 on after a NIT, although no
NIT has that index, and from index 1 on after the cache was loaded. It is the range of the usable
frequencies only if those in front of the first zero span the others, in both cases.
-/

namespace MediaFramework

/-- A frequency, in 32 bits. -/
abbrev Frequency := Fin (2 ^ 32)

/-- `MAX_FREQUENCIES` -/
abbrev maxFrequencies : ℕ := 255

/-- What `SetCarrierFrequencies` is called with. -/
structure CarrierCall where
  /-- What is at the pointer, if it is not `NULL` -/
  frequency : Option (ℕ → Frequency)
  offset : UInt8
  length : UInt8

/-- `g_frequency` -/
abbrev FrequencyTable := List Frequency

namespace FrequencyTable

/-- The table of a new cache. The loop of the constructor starts at index 1, and what is at index 0
is what the memory had there. -/
def created (junk : Frequency) : FrequencyTable := junk :: List.replicate maxFrequencies 0

/-- A frequency is written, which has no result outside the table. -/
def write (g : FrequencyTable) (i : ℕ) (f : Frequency) : Option FrequencyTable :=
  if i < g.length then some (g.set i f) else none

/-- The loop of `SetCarrierFrequencies`, with its counters. -/
def writeFrom (frequency : ℕ → Frequency) (length i j : UInt8) (g : FrequencyTable) :
    Option FrequencyTable :=
  if j < length then do
    let g ← g.write i.toNat (frequency j.toNat)
    writeFrom frequency length (i + 1) (j + 1) g
  else
    some g
termination_by length.toNat - j.toNat
decreasing_by
  rename_i hj
  have hlt := UInt8.lt_iff_toNat_lt.mp hj
  have hlen := length.toNat_lt
  rw [UInt8.toNat_add, UInt8.toNat_one, Nat.mod_eq_of_lt (by omega)]
  omega

/-- `SetCarrierFrequencies`. Whether the parameters were valid is returned with the table. -/
def setCarrierFrequencies (g : FrequencyTable) (c : CarrierCall) : Option (Bool × FrequencyTable) :=
  match c.frequency with
  | none => some (false, g)
  | some frequency =>
    if c.offset.toNat + c.length.toNat > maxFrequencies + 1 ∨ c.length = 0 then some (false, g)
    else (g.writeFrom frequency c.length c.offset 0).map (true, ·)

/-- The loop of `get_frequency_range`. -/
def scanFrom (freqArr : List Frequency) (count i : ℕ) (range : Frequency × Frequency) :
    Option (Frequency × Frequency) :=
  if i < count then do
    let f ← freqArr[i]?
    if f = 0 then return range
    scanFrom freqArr count (i + 1)
      (if range.2 < f then (range.1, f) else if f < range.1 then (f, range.2) else range)
  else
    return range
termination_by count - i

/-- `get_frequency_range` -/
def getFrequencyRange (freqArr : List Frequency) (count : ℕ) : Option (Frequency × Frequency) :=
  if count = 0 then
    return (0, 0)
  else do
    let f ← freqArr[0]?
    if f = 0 then return (0, 0)
    scanFrom freqArr count 1 (f, f)

/-- `SortCDSFreqList`, which passes the table. -/
def sortCDSFreqList (g : FrequencyTable) : Option (Frequency × Frequency) :=
  getFrequencyRange g 255

/-- The end of `load_si_entries_Post114`, which passes the table from index 1 on. -/
def loadSiEntries (g : FrequencyTable) : Option (Frequency × Frequency) :=
  getFrequencyRange (g.drop 1) 255

/-- The check that a frequency is invalid. -/
def OutOfRange (range : Frequency × Frequency) (f : Frequency) : Prop :=
  (range.1 ≠ 0 ∧ f < range.1) ∨ (range.2 ≠ 0 ∧ f > range.2)

/-- The calls one after the other. -/
def step (g : FrequencyTable) (c : CarrierCall) : Option FrequencyTable :=
  (g.setCarrierFrequencies c).map Prod.snd

/-! ## What is signalled -/

/-- The frequencies by their indices. -/
abbrev Carriers := ℕ → Frequency

/-- The frequencies at some indices are new. -/
def Carriers.overlay (t : Carriers) (offset length : ℕ) (frequency : ℕ → Frequency) : Carriers :=
  fun n => if offset ≤ n ∧ n < offset + length then frequency (n - offset) else t n

/-- What a call signals, if it is accepted. -/
def Carriers.signal (t : Carriers) (c : CarrierCall) : Carriers :=
  match c.frequency with
  | none => t
  | some frequency =>
    if c.offset.toNat + c.length.toNat ≤ maxFrequencies + 1 then
      t.overlay c.offset.toNat c.length.toNat frequency
    else t

/-- What the calls signal. -/
def signalled (junk : Frequency) (calls : List CarrierCall) : Carriers :=
  calls.foldl Carriers.signal fun n => if n = 0 then junk else 0

/-- The frequencies at the usable indices. -/
def Carriers.usable (t : Carriers) : List Frequency :=
  ((List.range' 1 maxFrequencies).map t).filter (· ≠ 0)

/-- The frequencies in front of the first zero, from an index on. -/
def Carriers.leading (t : Carriers) (i : ℕ) : List Frequency :=
  ((List.range' i maxFrequencies).map t).takeWhile (· ≠ 0)

/-- The least and the greatest, or zeros where there is no frequency. -/
def IsCarrierRange (l : List Frequency) (range : Frequency × Frequency) : Prop :=
  if l = [] then range = (0, 0) else IsRange l range

/-- The calls write to the table only, and then both ranges are the same, those of the usable
frequencies, none of which is invalid. -/
def RangesAgree (junk : Frequency) (calls : List CarrierCall) : Prop :=
  ∃ g range, runFrom step (created junk) calls = some g ∧
    sortCDSFreqList g = some range ∧ loadSiEntries g = some range ∧
    IsCarrierRange (signalled junk calls).usable range ∧
    ∀ f ∈ (signalled junk calls).usable, ¬OutOfRange range f

/-- The frequencies in front of the first zero span the usable ones, and one at index 0 is spanned
by them. -/
def Dense (t : Carriers) : Prop :=
  Spans (t.leading 0) t.usable ∧ Spans (t.leading 1) t.usable ∧ (t 0 ≠ 0 → Spans t.usable [t 0])

/-! ## The calls -/

/-- The table with these frequencies. -/
def ofCarriers (t : Carriers) : FrequencyTable := (List.range (maxFrequencies + 1)).map t

variable {t : Carriers} {frequency : ℕ → Frequency}

theorem write_ofCarriers {i : ℕ} (hi : i < 256) (f : Frequency) :
    (ofCarriers t).write i f = some (ofCarriers (Function.update t i f)) := by
  have hlength : (ofCarriers t).length = maxFrequencies + 1 := by simp [ofCarriers]
  rw [write, if_pos (hlength ▸ hi)]
  refine congrArg some (List.ext_getElem (by simp [ofCarriers]) fun n hn hn' => ?_)
  rw [List.getElem_set]
  by_cases heq : i = n
  · simp [heq, ofCarriers]
  · simp [heq, Ne.symm heq, ofCarriers]

theorem overlay_succ (offset n : ℕ) :
    Function.update (t.overlay offset n frequency) (offset + n) (frequency n) =
      t.overlay offset (n + 1) frequency := by
  funext m
  by_cases heq : m = offset + n
  · rw [heq, Function.update_self, Carriers.overlay, if_pos (by omega), Nat.add_sub_cancel_left]
  · rw [Function.update_of_ne heq, Carriers.overlay, Carriers.overlay]
    exact if_congr (by omega) rfl rfl

/-- **The loop**, after `j` rounds. -/
theorem writeFrom_ofCarriers (offset length i j : UInt8)
    (hfits : offset.toNat + length.toNat ≤ 256) (hj : j.toNat ≤ length.toNat)
    (hi : j < length → i.toNat = offset.toNat + j.toNat) :
    writeFrom frequency length i j (ofCarriers (t.overlay offset.toNat j.toNat frequency)) =
      some (ofCarriers (t.overlay offset.toNat length.toNat frequency)) := by
  induction hk : length.toNat - j.toNat generalizing i j with
  | zero =>
    have heq : j.toNat = length.toNat := by omega
    rw [writeFrom, if_neg (fun hlt => absurd (UInt8.lt_iff_toNat_lt.mp hlt) (by omega)), heq]
  | succ k ih =>
    have hlt : j < length := UInt8.lt_iff_toNat_lt.mpr (by omega)
    have hi := hi hlt
    have hlength := length.toNat_lt
    have hsucc : (j + 1).toNat = j.toNat + 1 := by
      rw [UInt8.toNat_add, UInt8.toNat_one, Nat.mod_eq_of_lt (by omega)]
    rw [writeFrom, if_pos hlt, write_ofCarriers (by omega), hi, overlay_succ, ← hsucc]
    refine ih (i + 1) (j + 1) (by omega) (fun hlt' => ?_) (by omega)
    have hlt' := UInt8.lt_iff_toNat_lt.mp hlt'
    rw [UInt8.toNat_add, UInt8.toNat_one, Nat.mod_eq_of_lt (by omega)]
    omega

theorem overlay_zero (offset : ℕ) : t.overlay offset 0 frequency = t := by
  funext n
  exact if_neg (by omega)

/-- A call stores what it signals. -/
theorem step_ofCarriers (c : CarrierCall) :
    step (ofCarriers t) c = some (ofCarriers (t.signal c)) := by
  rw [step, setCarrierFrequencies, Carriers.signal]
  cases c.frequency with
  | none => rfl
  | some frequency =>
    dsimp only
    by_cases hfits : c.offset.toNat + c.length.toNat ≤ maxFrequencies + 1
    · rw [if_pos hfits]
      by_cases hzero : c.length = 0
      · rw [if_pos (.inr hzero), hzero, UInt8.toNat_zero, overlay_zero]
        rfl
      · have hwrite : writeFrom frequency c.length c.offset 0 (ofCarriers
            (t.overlay c.offset.toNat (0 : UInt8).toNat frequency)) = _ :=
          writeFrom_ofCarriers c.offset c.length c.offset 0 hfits (Nat.zero_le _) fun _ => rfl
        rw [UInt8.toNat_zero, overlay_zero] at hwrite
        rw [if_neg (not_or.mpr ⟨Nat.not_lt.mpr hfits, hzero⟩), hwrite]
        rfl
    · rw [if_pos (.inl (Nat.lt_of_not_le hfits)), if_neg hfits]
      rfl

theorem created_eq (junk : Frequency) :
    created junk = ofCarriers fun n => if n = 0 then junk else 0 := by
  rw [created, ofCarriers, List.range_succ_eq_map, List.map_cons, List.map_map, if_pos rfl]
  refine congrArg (junk :: ·) (List.eq_replicate_iff.mpr ⟨by simp, fun f hf => ?_⟩).symm
  obtain ⟨n, -, rfl⟩ := List.mem_map.mp hf
  simp

/-- **The calls** store what they signal. -/
theorem run_created (junk : Frequency) (calls : List CarrierCall) :
    runFrom step (created junk) calls = some (ofCarriers (signalled junk calls)) := by
  rw [created_eq, signalled]
  generalize (fun n => if n = 0 then junk else 0 : Carriers) = t
  induction calls generalizing t with
  | nil => rfl
  | cons c calls ih =>
    rw [runFrom_cons, step_ofCarriers, Option.bind_some, ih, List.foldl_cons]

/-! ## The ranges -/

/-- The range of the frequencies, a frequency at a time. -/
def rangeOf : List Frequency → Frequency × Frequency
  | [] => (0, 0)
  | f :: l => l.foldl widen (f, f)

variable {freqArr l l' : List Frequency} {count : ℕ}

theorem scanFrom_eq (hcount : count ≤ freqArr.length) (i : ℕ) (range : Frequency × Frequency) :
    scanFrom freqArr count i range =
      some ((((freqArr.take count).drop i).takeWhile (· ≠ 0)).foldl widen range) := by
  induction hk : count - i generalizing i range with
  | zero =>
    have hnil : (freqArr.take count).drop i = [] := List.drop_eq_nil_of_le (by
      rw [List.length_take]
      omega)
    rw [scanFrom, if_neg (by omega), hnil]
    rfl
  | succ k ih =>
    have hi : i < (freqArr.take count).length := by
      rw [List.length_take]
      omega
    have hget : freqArr[i]? = some ((freqArr.take count)[i]) := by
      rw [List.getElem_take, List.getElem?_eq_getElem]
    rw [scanFrom, if_pos (by omega), hget, List.drop_eq_getElem_cons hi]
    generalize (freqArr.take count)[i] = f
    by_cases hzero : f = 0
    · simp [hzero]
    · have hrest := ih (i + 1) (widen range f) (by omega)
      rw [List.takeWhile_cons_of_pos (by simp [hzero]), List.foldl_cons, ← hrest]
      exact if_neg hzero

theorem getFrequencyRange_eq (hcount : count ≤ freqArr.length) :
    getFrequencyRange freqArr count = some (rangeOf ((freqArr.take count).takeWhile (· ≠ 0))) := by
  rw [getFrequencyRange]
  by_cases hzero : count = 0
  · simp [hzero, rangeOf]
  · obtain ⟨n, rfl⟩ := Nat.exists_eq_succ_of_ne_zero hzero
    cases freqArr with
    | nil => cases hcount
    | cons f freqArr =>
      rw [if_neg hzero]
      by_cases hf : f = 0
      · simp [hf, rangeOf]
      · have hscan := scanFrom_eq hcount 1 (f, f)
        simpa [hf, rangeOf] using hscan

theorem sortCDSFreqList_ofCarriers :
    sortCDSFreqList (ofCarriers t) = some (rangeOf (t.leading 0)) := by
  have hlength : (ofCarriers t).length = maxFrequencies + 1 := by simp [ofCarriers]
  rw [sortCDSFreqList, getFrequencyRange_eq (by rw [hlength]; decide), Carriers.leading, ofCarriers,
    ← List.map_take, List.take_range, ← List.range_eq_range']
  rfl

theorem loadSiEntries_ofCarriers :
    loadSiEntries (ofCarriers t) = some (rangeOf (t.leading 1)) := by
  have hlength : (ofCarriers t).length = maxFrequencies + 1 := by simp [ofCarriers]
  have hdrop : (ofCarriers t).drop 1 = (List.range' 1 maxFrequencies).map t := by
    rw [ofCarriers, List.range_eq_range', ← List.map_drop]
    rfl
  rw [loadSiEntries, getFrequencyRange_eq (by rw [List.length_drop, hlength]; decide), hdrop,
    List.take_of_length_le (by simp)]
  rfl

/-- The range of some frequencies is the range of others just if they span each other. -/
theorem isCarrierRange_rangeOf_iff (hl : 0 ∉ l) (hl' : 0 ∉ l') :
    IsCarrierRange l' (rangeOf l) ↔ Spans l l' ∧ Spans l' l := by
  rw [IsCarrierRange]
  cases l with
  | nil =>
    by_cases hnil : l' = []
    · rw [if_pos hnil, hnil]
      exact iff_of_true rfl ⟨spans_nil_iff.mpr rfl, spans_nil_iff.mpr rfl⟩
    · rw [if_neg hnil]
      exact iff_of_false (fun h => hl' h.least_mem) fun h => hnil (spans_nil_iff.mp h.1)
  | cons f l =>
    have hrange := isRange_foldl f l
    by_cases hnil : l' = []
    · rw [if_pos hnil, hnil]
      refine iff_of_false (fun h => hl ?_) fun h => List.cons_ne_nil f l (spans_nil_iff.mp h.2)
      have hmem := hrange.least_mem
      rwa [show l.foldl widen (f, f) = (0, 0) from h] at hmem
    · rw [if_neg hnil]
      exact hrange.iff_spans

theorem zero_not_mem_leading (i : ℕ) : 0 ∉ t.leading i := fun hmem => by
  simpa using List.mem_takeWhile_imp hmem

theorem zero_not_mem_usable : 0 ∉ t.usable := fun hmem => by
  simpa using (List.mem_filter.mp hmem).2

theorem mem_usable {f : Frequency} :
    f ∈ t.usable ↔ ∃ n, 1 ≤ n ∧ n ≤ maxFrequencies ∧ t n = f ∧ f ≠ 0 := by
  simp only [Carriers.usable, List.mem_filter, List.mem_map, List.mem_range'_1, decide_eq_true_eq]
  constructor
  · rintro ⟨⟨n, ⟨hn, hn'⟩, rfl⟩, hf⟩
    exact ⟨n, hn, by omega, rfl, hf⟩
  · rintro ⟨n, hn, hn', rfl, hf⟩
    exact ⟨⟨n, ⟨hn, by omega⟩, rfl⟩, hf⟩

/-- The frequencies from index 1 on are usable. -/
theorem leading_one_subset : t.leading 1 ⊆ t.usable := fun f hf => by
  have hmem := (List.takeWhile_sublist _).subset hf
  have hne : f ≠ 0 := by simpa using List.mem_takeWhile_imp hf
  exact List.mem_filter.mpr ⟨hmem, decide_eq_true hne⟩

theorem leading_zero_eq : t.leading 0 =
    if t 0 = 0 then [] else t 0 :: ((List.range' 1 254).map t).takeWhile (· ≠ 0) := by
  change ((t 0 :: (List.range' 1 254).map t).takeWhile (· ≠ 0)) = _
  by_cases hzero : t 0 = 0 <;> simp [hzero]

/-- From index 0 on, the first one may not be. -/
theorem spans_leading_zero_iff :
    Spans t.usable (t.leading 0) ↔ (t 0 ≠ 0 → Spans t.usable [t 0]) := by
  rw [leading_zero_eq]
  by_cases hzero : t 0 = 0
  · rw [if_pos hzero]
    exact iff_of_true (fun f hf => by cases hf) fun h => absurd hzero h
  · rw [if_neg hzero, spans_cons_iff]
    refine ⟨fun h _ => h.1, fun h => ⟨h hzero, Spans.of_subset fun f hf => ?_⟩⟩
    have hmem := List.mem_map.mp ((List.takeWhile_sublist _).subset hf)
    obtain ⟨n, hn, rfl⟩ := hmem
    have hn := List.mem_range'_1.mp hn
    have hne := List.mem_takeWhile_imp hf
    exact mem_usable.mpr ⟨n, hn.1, Nat.le_of_lt hn.2, rfl, by simpa using hne⟩

theorem not_outOfRange {range : Frequency × Frequency} (h : IsCarrierRange l range) :
    ∀ f ∈ l, ¬OutOfRange range f := by
  intro f hf hout
  rw [IsCarrierRange, if_neg (List.ne_nil_of_mem hf)] at h
  rcases hout with ⟨-, hlt⟩ | ⟨-, hlt⟩
  · exact absurd (h.least_le f hf) (not_le.mpr hlt)
  · exact absurd (h.le_greatest f hf) (not_le.mpr hlt)

theorem IsCarrierRange.unique {range range' : Frequency × Frequency} (h : IsCarrierRange l range)
    (h' : IsCarrierRange l range') : range = range' := by
  rw [IsCarrierRange] at h h'
  by_cases hnil : l = []
  · rw [if_pos hnil] at h h'
    exact h.trans h'.symm
  · rw [if_neg hnil] at h h'
    exact Prod.ext (le_antisymm (h.least_le _ h'.least_mem) (h'.least_le _ h.least_mem))
      (le_antisymm (h'.le_greatest _ h.greatest_mem) (h.le_greatest _ h'.greatest_mem))

/-- Both ranges, from what was signalled. -/
theorem rangesAgree_iff_isCarrierRange {junk : Frequency} {calls : List CarrierCall}
    (ht : signalled junk calls = t) : RangesAgree junk calls ↔
      IsCarrierRange t.usable (rangeOf (t.leading 0)) ∧
      IsCarrierRange t.usable (rangeOf (t.leading 1)) := by
  subst ht
  constructor
  · rintro ⟨g, range, hg, hsort, hload, hrange, -⟩
    obtain rfl := Option.some.inj ((run_created junk calls).symm.trans hg)
    rw [sortCDSFreqList_ofCarriers] at hsort
    rw [loadSiEntries_ofCarriers] at hload
    rw [Option.some.inj hsort, Option.some.inj hload]
    exact ⟨hrange, hrange⟩
  · rintro ⟨hsort, hload⟩
    refine ⟨_, _, run_created junk calls, sortCDSFreqList_ofCarriers, ?_, hsort,
      not_outOfRange hsort⟩
    rw [loadSiEntries_ofCarriers, hload.unique hsort]

/-- **When both ranges are right.** -/
theorem rangesAgree_iff (junk : Frequency) (calls : List CarrierCall) :
    RangesAgree junk calls ↔ Dense (signalled junk calls) := by
  have hspans : Spans (signalled junk calls).usable ((signalled junk calls).leading 1) :=
    Spans.of_subset leading_one_subset
  rw [rangesAgree_iff_isCarrierRange rfl,
    isCarrierRange_rangeOf_iff (zero_not_mem_leading 0) zero_not_mem_usable,
    isCarrierRange_rangeOf_iff (zero_not_mem_leading 1) zero_not_mem_usable,
    spans_leading_zero_iff, Dense]
  constructor
  · rintro ⟨⟨hzero, hjunk⟩, hone, -⟩
    exact ⟨hzero, hone, hjunk⟩
  · rintro ⟨hzero, hone, hjunk⟩
    exact ⟨⟨hzero, hjunk⟩, hone, hspans⟩

/-- One frequency is signalled, at index 1, and nothing is at index 0. -/
theorem not_rangesAgree_oneCarrier :
    ¬RangesAgree 0 [⟨some fun _ => 57000000, 1, 1⟩] := by
  intro h
  have hsort := ((rangesAgree_iff_isCarrierRange rfl).mp h).1
  have hone : 57000000 ∈ (signalled 0 [⟨some fun _ => 57000000, 1, 1⟩]).usable :=
    mem_usable.mpr ⟨1, Nat.le_refl 1, by decide, rfl, by decide⟩
  rw [isCarrierRange_rangeOf_iff (zero_not_mem_leading 0) zero_not_mem_usable] at hsort
  rw [leading_zero_eq, if_pos (by rfl), spans_nil_iff] at hsort
  rw [hsort.1] at hone
  cases hone

end FrequencyTable

end MediaFramework
