import Mathlib.Data.BitVec
import MediaFramework.Lib.Buckets
import MediaFramework.Lib.Run

/-!
# The map of the OSAL (`vlMap.cpp`)

A hash table of numbers. A key is rotated and taken modulo the number of buckets, each bucket is a
vector of the items with that remainder, and beside the buckets there is a count of the items of all
of them, which `clear` checks.

The count is kept by all operations but one: `removeAllEntriesOfElement` takes items away and leaves
it. So the table is a map as long as that call finds nothing to take away; what the calls return is
right in any case (`replies_right`).
-/

namespace MediaFramework

/-- `vlMapItem`: `KEY` and `ELEMENT` are an `unsigned long`, of `w` bits. -/
structure VlMapItem (w : ℕ) where
  key : BitVec w
  element : BitVec w
  deriving DecidableEq

/-- `vlMap` -/
structure VlMap (w : ℕ) where
  /-- `m_Table` -/
  table : List (List (VlMapItem w))
  /-- `m_nCount` -/
  count : ℤ

namespace VlMap

variable {w : ℕ}

/-! ## The operations -/

/-- The remainder of a rotated key. -/
def slot (nTableSize : ℕ) (key : BitVec w) : ℕ :=
  ((key <<< 28 &&& 0xF0000000#w) ||| (key >>> 4 &&& 0x0FFFFFFF#w)).toNat % nTableSize

/-- `vlMap::vlMap` -/
def new (nTableSize : ℤ) : VlMap w := ⟨List.replicate nTableSize.toNat [], 0⟩

/-- `locateElementInBucket`: where the item is, by its element or by its key. -/
def locateElementInBucket (bucket : List (VlMapItem w)) (element key : BitVec w)
    (bElement : Bool) : Option ℕ :=
  bucket.findIdx? fun item =>
    bElement && item.element == element || !bElement && item.key == key

/-- `locateItemInBucket` -/
def locateItemInBucket (bucket : List (VlMapItem w)) (key : BitVec w) : Option ℕ :=
  locateElementInBucket bucket 0 key false

variable (m : VlMap w)

/-- `map`: without a bucket it divides by zero. -/
def map (key : BitVec w) : Option ℕ :=
  if m.table.length = 0 then none else some (slot m.table.length key)

/-- `getBucket`, with the index of the bucket. -/
def getBucket (key : BitVec w) : Option (ℕ × List (VlMapItem w)) := do
  let iBucket ← m.map key
  let bucket ← m.table[iBucket]?
  return (iBucket, bucket)

/-- `locate` -/
def locate (key : BitVec w) : Option (Option (VlMapItem w)) := do
  let (_, bucket) ← m.getBucket key
  return (locateItemInBucket bucket key).bind fun iItem => bucket[iItem]?

/-- `setElementAt` -/
def setElementAt (key element : BitVec w) : Option (BitVec w × VlMap w) := do
  let (iBucket, bucket) ← m.getBucket key
  match locateItemInBucket bucket key with
  | some iItem =>
    return (element, { m with
      table := m.table.set iBucket (bucket.modify iItem ({ · with element := element })) })
  | none =>
    return (element, ⟨m.table.set iBucket (bucket ++ [⟨key, element⟩]), m.count + 1⟩)

/-- `getOrCreateElementAt` -/
def getOrCreateElementAt (key : BitVec w) : Option (BitVec w × VlMap w) := do
  match ← m.locate key with
  | some item => return (item.element, m)
  | none => m.setElementAt key 0

/-- `removeElementAt` -/
def removeElementAt (key : BitVec w) : Option (Bool × VlMap w) := do
  let (iBucket, bucket) ← m.getBucket key
  match locateItemInBucket bucket key with
  | some iItem => return (true, ⟨m.table.set iBucket (bucket.eraseIdx iItem), m.count - 1⟩)
  | none => return (false, m)

/-- The loop of `removeAllEntriesOfElement` over one bucket, for so many rounds. -/
def removeEntries (element : BitVec w) :
    ℕ → List (VlMapItem w) → Bool × List (VlMapItem w)
  | 0, bucket => (false, bucket)
  | n + 1, bucket =>
    match locateElementInBucket bucket element 0 true with
    | some iItem => (true, (removeEntries element n (bucket.eraseIdx iItem)).2)
    | none => (false, bucket)

/-- `removeAllEntriesOfElement`: each round of the loop makes the bucket shorter. -/
def removeAllEntriesOfElement (element : BitVec w) : Bool × VlMap w :=
  let buckets := m.table.map fun bucket => removeEntries element bucket.length bucket
  (buckets.any Prod.fst, { m with table := buckets.map Prod.snd })

/-- `clear`, with its `assert`. -/
def clear : Option (VlMap w) :=
  let nCount := (m.table.map List.length).sum
  if (nCount : ℤ) = m.count then some ⟨m.table.map fun _ => [], 0⟩ else none

/-- `getElementAt` -/
def getElementAt (key : BitVec w) : Option (BitVec w) := do
  return ((← m.locate key).map VlMapItem.element).getD 0

/-- `isKeyPresent` -/
def isKeyPresent (key : BitVec w) : Option Bool := do
  return (← m.locate key).isSome

/-- The loop of `getFirstKeyForElement`. -/
def firstItem (element : BitVec w) : Option (VlMapItem w) :=
  m.table.findSome? fun bucket =>
    (locateElementInBucket bucket element 0 true).bind fun iItem => bucket[iItem]?

/-- `getFirstKeyForElement`, with `rKey`. -/
def getFirstKeyForElement (element : BitVec w) : Bool × BitVec w :=
  match m.firstItem element with
  | some item => (true, item.key)
  | none => (false, 0)

/-- The loop of `getElementAtIntegerIndex`, behind `nPrevCount` items. -/
def itemAt (iElement : ℤ) : ℤ → List (List (VlMapItem w)) → Option (VlMapItem w)
  | _, [] => none
  | nPrevCount, bucket :: buckets =>
    let nCurCount := nPrevCount + bucket.length
    if nPrevCount ≤ iElement ∧ iElement < nCurCount then bucket[(iElement - nPrevCount).toNat]?
    else itemAt iElement nCurCount buckets

/-- `getElementAtIntegerIndex`, with `rKey`. -/
def getElementAtIntegerIndex (iElement : ℤ) : BitVec w × BitVec w :=
  match itemAt iElement 0 m.table with
  | some item => (item.element, item.key)
  | none => (0, 0)

end VlMap

/-- A call of the interface. -/
inductive VlMapOp (w : ℕ)
  | setElementAt (key element : BitVec w)
  | getOrCreateElementAt (key : BitVec w)
  | removeElementAt (key : BitVec w)
  | removeAllEntriesOfElement (element : BitVec w)
  | clear
  | getElementAt (key : BitVec w)
  | isKeyPresent (key : BitVec w)
  | getFirstKeyForElement (element : BitVec w)

/-- What is returned. -/
inductive VlMapReply (w : ℕ)
  | element (e : BitVec w)
  | flag (b : Bool)
  | key (found : Bool) (k : BitVec w)
  | done
  deriving DecidableEq

namespace VlMap

variable {w : ℕ} (m : VlMap w)

/-- One call. -/
def call : VlMapOp w → Option (VlMapReply w × VlMap w)
  | .setElementAt key element => (m.setElementAt key element).map fun r => (.element r.1, r.2)
  | .getOrCreateElementAt key => (m.getOrCreateElementAt key).map fun r => (.element r.1, r.2)
  | .removeElementAt key => (m.removeElementAt key).map fun r => (.flag r.1, r.2)
  | .removeAllEntriesOfElement element =>
    let r := m.removeAllEntriesOfElement element
    some (.flag r.1, r.2)
  | .clear => m.clear.map fun m' => (.done, m')
  | .getElementAt key => (m.getElementAt key).map fun e => (.element e, m)
  | .isKeyPresent key => (m.isKeyPresent key).map fun b => (.flag b, m)
  | .getFirstKeyForElement element =>
    let r := m.getFirstKeyForElement element
    some (.key r.1 r.2, m)

/-! ## What a map is -/

/-- A finite map from keys to elements. -/
abbrev Entries (w : ℕ) := BitVec w → Option (BitVec w)

/-- The entries after a call. -/
def entriesAfter (f : Entries w) : VlMapOp w → Entries w
  | .setElementAt key element => Function.update f key (some element)
  | .getOrCreateElementAt key => Function.update f key (some ((f key).getD 0))
  | .removeElementAt key => Function.update f key none
  | .removeAllEntriesOfElement element => fun k => (f k).filter fun e => e ≠ element
  | .clear => fun _ => none
  | .getElementAt _ | .isKeyPresent _ | .getFirstKeyForElement _ => f

/-- The reply is one that the entries allow. Which of the keys of an element is found first is not
said. -/
def Answers (f : Entries w) : VlMapOp w → VlMapReply w → Prop
  | .setElementAt _ element, r => r = .element element
  | .getOrCreateElementAt key, r => r = .element ((f key).getD 0)
  | .removeElementAt key, r => r = .flag (f key).isSome
  | .removeAllEntriesOfElement element, r => ∃ b, r = .flag b ∧ (b = true ↔ ∃ k, f k = some element)
  | .clear, r => r = .done
  | .getElementAt key, r => r = .element ((f key).getD 0)
  | .isKeyPresent key, r => r = .flag (f key).isSome
  | .getFirstKeyForElement element, r =>
    (∃ k, r = .key true k ∧ f k = some element) ∨
      (r = .key false 0 ∧ ∀ k, f k ≠ some element)

/-- The items, bucket after bucket. -/
def items : List (VlMapItem w) := m.table.flatten

/-- **The table holds the entries.** -/
structure Holds (f : Entries w) : Prop where
  unique : (m.items.map VlMapItem.key).Nodup
  placed : ∀ i bucket, m.table[i]? = some bucket → ∀ item ∈ bucket, m.map item.key = some i
  count : m.count = m.items.length
  entries : ∀ k e, f k = some e ↔ ⟨k, e⟩ ∈ m.items
  /-- the enumeration meets each key once -/
  enumerated : ∀ k e, f k = some e →
    ∃! i : ℕ, (i : ℤ) < m.count ∧ m.getElementAtIntegerIndex i = (e, k)
  inside : ∀ i : ℕ, (i : ℤ) < m.count → ∃ k e, f k = some e ∧ m.getElementAtIntegerIndex i = (e, k)

/-- A call, with the entries beside the table. -/
def step (p : VlMap w × Entries w) (op : VlMapOp w) : Option (VlMap w × Entries w) :=
  (p.1.call op).map fun r => (r.2, entriesAfter p.2 op)

/-- Its reply is allowed. -/
def Replies (p : VlMap w × Entries w) (op : VlMapOp w) : Prop :=
  ∀ r ∈ p.1.call op, Answers p.2 op r.1

/-- **A table that is a map**, in every state of a run and with every reply: no `assert` fails, and
nothing is divided by zero. -/
def IsMap (nTableSize : ℤ) (ops : List (VlMapOp w)) : Prop :=
  Throughout step (fun p => p.1.Holds p.2) (new nTableSize, fun _ => none) ops ∧
    EachStep step Replies (new nTableSize, fun _ => none) ops

/-- **The condition on a call.** There is a bucket where a key is looked for, and no entry with the
element where all of them are to be removed. -/
def Orderly (p : VlMap w × Entries w) : VlMapOp w → Prop
  | .removeAllEntriesOfElement element => ∀ k, p.2 k ≠ some element
  | .clear | .getFirstKeyForElement _ => True
  | .setElementAt _ _ | .getOrCreateElementAt _ | .removeElementAt _ | .getElementAt _
  | .isKeyPresent _ => p.1.table ≠ []

/-! ## The items and the entries -/

variable {m : VlMap w} {f : Entries w} {k e : BitVec w}

/-- The item with a key. -/
abbrev itemFor (m : VlMap w) (k : BitVec w) : Option (VlMapItem w) :=
  Buckets.find VlMapItem.key (slot m.table.length) k m.table

/-- The table and the entries fit together. -/
abbrev Mapped (m : VlMap w) (f : Entries w) : Prop :=
  Buckets.Maps VlMapItem.key VlMapItem.element (slot m.table.length) m.table f

/-- The table, its count and the entries fit together. -/
structure Inv (m : VlMap w) (f : Entries w) : Prop where
  maps : Buckets.Maps VlMapItem.key VlMapItem.element (slot m.table.length) m.table f
  count : m.count = m.items.length

/-- The enumeration goes through the items. -/
theorem itemAt_eq (table : List (List (VlMapItem w))) (n i : ℕ) :
    itemAt ((n + i : ℕ) : ℤ) n table = table.flatten[i]? := by
  induction table generalizing n i with
  | nil => rfl
  | cons bucket buckets ih =>
    rw [itemAt, List.flatten_cons]
    by_cases hi : i < bucket.length
    · rw [if_pos (by omega), List.getElem?_append_left hi]
      congr 1
      omega
    · obtain ⟨j, rfl⟩ := Nat.exists_eq_add_of_le (Nat.le_of_not_lt hi)
      rw [if_neg (by omega), List.getElem?_append_right (Nat.le_add_right _ _),
        Nat.add_sub_cancel_left, ← ih (n + bucket.length) j, Int.natCast_add n bucket.length]
      congr 1
      omega

theorem getElementAtIntegerIndex_eq {i : ℕ} (h : i < m.items.length) :
    m.getElementAtIntegerIndex i = (m.items[i].element, m.items[i].key) := by
  have hitem : itemAt (i : ℤ) 0 m.table = some m.items[i] := by
    have := itemAt_eq m.table 0 i
    rw [Nat.zero_add, Nat.cast_zero] at this
    rw [this]
    exact List.getElem?_eq_getElem h
  rw [getElementAtIntegerIndex, hitem]

theorem Mapped.entry_iff (h : m.Mapped f) : f k = some e ↔ ⟨k, e⟩ ∈ m.items := by
  refine h.eq_some_iff.trans ⟨fun ⟨item, hitem, hk, he⟩ => ?_, fun hitem => ?_⟩
  · obtain rfl := hk
    obtain rfl := he
    exact hitem
  · exact ⟨_, hitem, rfl, rfl⟩

theorem Inv.mapped (h : m.Inv f) : m.Mapped f := h.maps

theorem Inv.holds (h : m.Inv f) : m.Holds f where
  unique := h.maps.sorted.distinct_flatten
  placed := fun i bucket hi item hitem => by
    have hlt := (List.getElem?_eq_some_iff.mp hi).1
    rw [map, if_neg (by omega), h.maps.sorted.placed i bucket hi item hitem]
  count := h.count
  entries := fun k e => h.mapped.entry_iff
  enumerated := fun k e hke => by
    obtain ⟨i, hi, hitem⟩ := List.mem_iff_getElem.mp (h.mapped.entry_iff.mp hke)
    refine ⟨i, ⟨by rw [h.count]; exact_mod_cast hi, ?_⟩, fun j ⟨hj, hjtem⟩ => ?_⟩
    · rw [getElementAtIntegerIndex_eq hi, hitem]
    · rw [h.count] at hj
      have hj : j < m.items.length := by exact_mod_cast hj
      rw [getElementAtIntegerIndex_eq hj] at hjtem
      have hkeys : (m.items.map VlMapItem.key)[j]? = (m.items.map VlMapItem.key)[i]? := by
        rw [List.getElem?_map, List.getElem?_map, List.getElem?_eq_getElem hj,
          List.getElem?_eq_getElem hi, hitem]
        exact congrArg some (Prod.ext_iff.mp hjtem).2
      exact (List.getElem?_inj (by rwa [List.length_map]) h.maps.sorted.distinct_flatten).mp hkeys
  inside := fun i hi => by
    rw [h.count] at hi
    have hi : i < m.items.length := by exact_mod_cast hi
    exact ⟨_, _, h.mapped.entry_iff.mpr (List.getElem_mem hi), getElementAtIntegerIndex_eq hi⟩

theorem Holds.inv (h : m.Holds f) : m.Inv f := by
  have hsorted : Buckets.Sorted VlMapItem.key (slot m.table.length) m.table :=
    { placed := fun i bucket hi item hitem => by
        have hmap := h.placed i bucket hi item hitem
        rw [map] at hmap
        split_ifs at hmap
        exact Option.some.inj hmap
      distinct := fun bucket hbucket =>
        h.unique.sublist ((List.sublist_flatten_of_mem hbucket).map _) }
  refine ⟨⟨hsorted, fun k => Option.ext fun e => ?_⟩, h.count⟩
  rw [Option.map_eq_some_iff]
  refine (h.entries k e).trans ?_
  rw [items, hsorted.mem_flatten_iff]
  refine ⟨fun hitem => ⟨_, hitem, rfl⟩, fun ⟨item, hitem, he⟩ => ?_⟩
  obtain rfl := Buckets.key_of_find hitem
  obtain rfl := he
  exact hitem

/-- By how much the count is above the number of items. -/
def surplus (m : VlMap w) : ℤ := m.count - m.items.length

theorem inv_new (nTableSize : ℤ) : (new nTableSize : VlMap w).Inv fun _ => none where
  maps := Buckets.maps_replicate _
  count := by simp [new, items]

/-! ## One bucket -/

theorem locateItemInBucket_eq (bucket : List (VlMapItem w)) :
    locateItemInBucket bucket k = bucket.findIdx? fun item => item.key = k := by
  simp [locateItemInBucket, locateElementInBucket, beq_eq_decide]

theorem locateElementInBucket_eq (bucket : List (VlMapItem w)) :
    locateElementInBucket bucket e 0 true = bucket.findIdx? fun item => item.element = e := by
  simp [locateElementInBucket, beq_eq_decide]

theorem getBucket_of_nil (h : m.table = []) : m.getBucket k = none := by
  simp [getBucket, map, h]

theorem exists_bucket (h : m.table ≠ []) :
    ∃ bucket, m.table[slot m.table.length k]? = some bucket ∧
      m.getBucket k = some (slot m.table.length k, bucket) := by
  have hpos := List.length_pos_iff.mpr h
  have hlt : slot m.table.length k < m.table.length := Nat.mod_lt _ hpos
  have hbucket := List.getElem?_eq_getElem hlt
  refine ⟨_, hbucket, ?_⟩
  simp [getBucket, map, Nat.ne_of_gt hpos, hbucket]

theorem locate_eq (h : m.table ≠ []) : m.locate k = some (m.itemFor k) := by
  obtain ⟨bucket, hbucket, hget⟩ := exists_bucket (k := k) h
  rw [itemFor, Buckets.find_of_getElem? hbucket, ← KeyedList.findIdx?_bind, locate, hget,
    ← locateItemInBucket_eq]
  rfl

/-- Another bucket in place of one, and the count changed as the bucket is. -/
theorem surplus_set {bucket bucket' : List (VlMapItem w)} {i : ℕ} {count : ℤ}
    (hold : m.table[i]? = some bucket)
    (hcount : count + bucket.length = m.count + bucket'.length) :
    (VlMap.mk (m.table.set i bucket') count).surplus = m.surplus := by
  have hlength := Buckets.length_flatten_set hold bucket'
  rw [surplus, surplus, items, items]
  dsimp only
  omega

/-! ## The calls -/

theorem Mapped.setElementAt (h : m.Mapped f) (ht : m.table ≠ []) :
    ∃ m', m.setElementAt k e = some (e, m') ∧ m'.Mapped (Function.update f k (some e)) ∧
      m'.surplus = m.surplus := by
  obtain ⟨bucket, hbucket, hget⟩ := exists_bucket (k := k) ht
  -- both branches change the item with the key or append one
  have hmaps := h.upsert hbucket ({ · with element := e }) ⟨k, e⟩ (fun _ => rfl) rfl
    (fun _ => rfl) rfl
  rcases hplace : locateItemInBucket bucket k with _ | iItem
  · have hnone : KeyedList.lookup VlMapItem.key k bucket = none := by
      rw [← KeyedList.findIdx?_eq_none_iff, ← locateItemInBucket_eq, hplace]
    rw [KeyedList.upsert_of_none hnone] at hmaps
    refine ⟨⟨m.table.set (slot m.table.length k) (bucket ++ [⟨k, e⟩]), m.count + 1⟩,
      by simp [VlMap.setElementAt, hget, hplace], ?_, surplus_set hbucket ?_⟩
    · rwa [Mapped, List.length_set]
    · rw [List.length_append, List.length_singleton, Nat.cast_add, Nat.cast_one]
      omega
  · have hidx := (locateItemInBucket_eq bucket).symm.trans hplace
    obtain ⟨item, hitem⟩ := KeyedList.exists_lookup hidx
    rw [KeyedList.upsert_of_some hitem, ← KeyedList.modify_eq_modify hidx] at hmaps
    refine ⟨⟨m.table.set (slot m.table.length k)
        (bucket.modify iItem ({ · with element := e })), m.count⟩,
      by simp [VlMap.setElementAt, hget, hplace], ?_, surplus_set hbucket ?_⟩
    · rwa [Mapped, List.length_set]
    · rw [List.length_modify]

theorem Mapped.getOrCreateElementAt (h : m.Mapped f) (ht : m.table ≠ []) :
    ∃ m', m.getOrCreateElementAt k = some ((f k).getD 0, m') ∧
      m'.Mapped (Function.update f k (some ((f k).getD 0))) ∧ m'.surplus = m.surplus := by
  have hf : f k = (m.itemFor k).map VlMapItem.element := h.entries k
  rcases hitem : m.itemFor k with _ | item
  · have hnone : f k = none := by
      rw [hf, hitem]
      rfl
    obtain ⟨m', hset, hmaps⟩ := h.setElementAt (k := k) (e := 0) ht
    refine ⟨m', ?_, hnone ▸ hmaps⟩
    rw [VlMap.getOrCreateElementAt, locate_eq ht, hitem, hnone]
    exact hset
  · have hsome : f k = some item.element := by
      rw [hf, hitem]
      rfl
    refine ⟨m, ?_, ?_, rfl⟩
    · simp [VlMap.getOrCreateElementAt, locate_eq ht, hitem, hsome]
    · rw [hsome, Option.getD_some, ← hsome, Function.update_eq_self]
      exact h

theorem Mapped.removeElementAt (h : m.Mapped f) (ht : m.table ≠ []) :
    ∃ m', m.removeElementAt k = some ((f k).isSome, m') ∧
      m'.Mapped (Function.update f k none) ∧ m'.surplus = m.surplus := by
  obtain ⟨bucket, hbucket, hget⟩ := exists_bucket (k := k) ht
  have hf := h.eq_lookup hbucket
  rcases hplace : locateItemInBucket bucket k with _ | iItem
  · have hnone : f k = none := by
      rw [hf, Option.map_eq_none_iff, ← KeyedList.findIdx?_eq_none_iff, ← locateItemInBucket_eq,
        hplace]
    refine ⟨m, by simp [VlMap.removeElementAt, hget, hplace, hnone], ?_, rfl⟩
    rw [← hnone, Function.update_eq_self]
    exact h
  · have hidx := (locateItemInBucket_eq bucket).symm.trans hplace
    obtain ⟨item, hitem⟩ := KeyedList.exists_lookup hidx
    have hd := h.distinct hbucket
    have hlength := KeyedList.length_others hd hitem
    have hmaps := h.remove hbucket
    rw [← KeyedList.eraseIdx_eq_others hd hidx] at hmaps hlength
    rw [hitem] at hf
    refine ⟨⟨m.table.set (slot m.table.length k) (bucket.eraseIdx iItem), m.count - 1⟩,
      by simp [VlMap.removeElementAt, hget, hplace, hf], ?_, surplus_set hbucket ?_⟩
    · rwa [Mapped, List.length_set]
    · omega

/-- The loop drops the items with the element. -/
theorem removeEntries_eq {n : ℕ} {bucket : List (VlMapItem w)} (h : bucket.length ≤ n) :
    removeEntries e n bucket = ((KeyedList.lookup VlMapItem.element e bucket).isSome,
      KeyedList.others VlMapItem.element e bucket) := by
  induction n generalizing bucket with
  | zero =>
    obtain rfl := List.eq_nil_of_length_eq_zero (Nat.le_zero.mp h)
    rfl
  | succ n ih =>
    rw [removeEntries, locateElementInBucket_eq]
    cases hidx : bucket.findIdx? (fun item => item.element = e) with
    | none =>
      rw [KeyedList.findIdx?_eq_none_iff] at hidx
      simp [hidx, KeyedList.others_of_lookup_none]
    | some iItem =>
      obtain ⟨front, a, back, rfl, rfl, ha, hfront⟩ := KeyedList.exists_split hidx
      rw [List.length_append, List.length_cons] at h
      dsimp only
      rw [List.eraseIdx_append_of_length_le (Nat.le_refl _), Nat.sub_self, List.eraseIdx_zero,
        List.tail_cons, ih (by rw [List.length_append]; omega), KeyedList.lookup_split hfront ha]
      simp [KeyedList.others, ha]

theorem removeAllEntriesOfElement_eq : m.removeAllEntriesOfElement e =
    ((KeyedList.lookup VlMapItem.element e m.items).isSome,
      { m with table := m.table.map (KeyedList.others VlMapItem.element e) }) := by
  have hentries : (fun bucket : List (VlMapItem w) => removeEntries e bucket.length bucket) =
      fun bucket => ((KeyedList.lookup VlMapItem.element e bucket).isSome,
        KeyedList.others VlMapItem.element e bucket) :=
    funext fun bucket => removeEntries_eq (Nat.le_refl _)
  rw [removeAllEntriesOfElement, hentries, items, ← KeyedList.findSome?_lookup]
  simp only [List.map_map, List.any_map, Function.comp_def, List.isSome_findSome?]

theorem firstItem_eq : m.firstItem e = KeyedList.lookup VlMapItem.element e m.items := by
  rw [items, ← KeyedList.findSome?_lookup, firstItem]
  congr 1
  funext bucket
  rw [locateElementInBucket_eq, KeyedList.findIdx?_bind]

/-- Some item has the element. -/
theorem Mapped.exists_lookup_iff (h : m.Mapped f) :
    (∃ item, KeyedList.lookup VlMapItem.element e m.items = some item) ↔ ∃ k, f k = some e := by
  refine ⟨fun ⟨item, hitem⟩ => ⟨item.key, ?_⟩, fun ⟨k, hk⟩ => ?_⟩
  · rw [h.entry_iff, ← KeyedList.key_of_lookup hitem]
    exact KeyedList.mem_of_lookup hitem
  · refine Option.ne_none_iff_exists'.mp fun hnone => ?_
    exact KeyedList.lookup_eq_none_iff.mp hnone (List.mem_map.mpr ⟨_, h.entry_iff.mp hk, rfl⟩)

theorem Mapped.removeAllEntriesOfElement (h : m.Mapped f) (e : BitVec w) :
    (m.removeAllEntriesOfElement e).2.Mapped fun k => (f k).filter fun e' => e' ≠ e := by
  have hmaps := h.filter fun e' => e' ≠ e
  rw [removeAllEntriesOfElement_eq]
  rwa [← List.length_map (List.filter fun item : VlMapItem w => item.element ≠ e)] at hmaps

/-- **The count is wrong behind the removal of an element** that an item has, and of no other. -/
theorem Mapped.surplus_removeAllEntriesOfElement_iff (h : m.Mapped f) :
    (m.removeAllEntriesOfElement e).2.surplus = m.surplus ↔ ∀ k, f k ≠ some e := by
  have hlength : (m.removeAllEntriesOfElement e).2.items.length =
      (KeyedList.others VlMapItem.element e m.items).length := by
    rw [removeAllEntriesOfElement_eq, items, items, KeyedList.others, List.filter_flatten]
    rfl
  have hlist : (KeyedList.others VlMapItem.element e m.items).length = m.items.length ↔
      ∀ k, f k ≠ some e := by
    rw [KeyedList.others, List.length_filter_eq_length_iff]
    refine ⟨fun hall k hk => ?_, fun hnone item hitem => decide_eq_true fun he => ?_⟩
    · exact of_decide_eq_true (hall _ (h.entry_iff.mp hk)) rfl
    · exact hnone item.key (h.entry_iff.mpr (he ▸ hitem))
  rw [← hlist, surplus, surplus, hlength, removeAllEntriesOfElement_eq]
  dsimp only
  omega

/-! ## A call -/

/-- What becomes of a call: there is no bucket, or `clear` finds the count wrong; or the reply is
right, and a count that is right stays so exactly if the call is orderly. -/
def Comes (m : VlMap w) (f : Entries w) (op : VlMapOp w) : Prop :=
  (m.call op = none ∧ (m.surplus = 0 → ¬ Orderly (m, f) op)) ∨
    ∃ r m', m.call op = some (r, m') ∧ Answers f op r ∧ m'.Mapped (entriesAfter f op) ∧
      (m.surplus = 0 → (m'.surplus = 0 ↔ Orderly (m, f) op))

/-- **Each call.** -/
theorem Mapped.comes (h : m.Mapped f) (op : VlMapOp w) : m.Comes f op := by
  -- a call that looks for a key
  have hkeyed : (m.table = [] → m.call op = none) → (Orderly (m, f) op ↔ m.table ≠ []) →
      (m.table ≠ [] → ∃ r m', m.call op = some (r, m') ∧ Answers f op r ∧
        m'.Mapped (entriesAfter f op) ∧ m'.surplus = m.surplus) → m.Comes f op := by
    intro hnil horderly hcons
    by_cases ht : m.table = []
    · exact .inl ⟨hnil ht, fun _ ho => horderly.mp ho ht⟩
    · obtain ⟨r, m', hcall, hr, hmaps, hsurplus⟩ := hcons ht
      exact .inr ⟨r, m', hcall, hr, hmaps, fun h₀ =>
        iff_of_true (hsurplus.trans h₀) (horderly.mpr ht)⟩
  cases op with
  | setElementAt key element =>
    refine hkeyed (fun ht => ?_) Iff.rfl fun ht => ?_
    · simp [VlMap.call, VlMap.setElementAt, getBucket_of_nil ht]
    · obtain ⟨m', hset, hm'⟩ := h.setElementAt ht
      exact ⟨_, m', by rw [VlMap.call, hset]; rfl, rfl, hm'⟩
  | getOrCreateElementAt key =>
    refine hkeyed (fun ht => ?_) Iff.rfl fun ht => ?_
    · simp [VlMap.call, VlMap.getOrCreateElementAt, locate, getBucket_of_nil ht]
    · obtain ⟨m', hget, hm'⟩ := h.getOrCreateElementAt ht
      exact ⟨_, m', by rw [VlMap.call, hget]; rfl, rfl, hm'⟩
  | removeElementAt key =>
    refine hkeyed (fun ht => ?_) Iff.rfl fun ht => ?_
    · simp [VlMap.call, VlMap.removeElementAt, getBucket_of_nil ht]
    · obtain ⟨m', hremove, hm'⟩ := h.removeElementAt ht
      exact ⟨_, m', by rw [VlMap.call, hremove]; rfl, rfl, hm'⟩
  | removeAllEntriesOfElement element =>
    refine .inr ⟨_, _, rfl, ⟨_, rfl, ?_⟩, h.removeAllEntriesOfElement element, fun h₀ => ?_⟩
    · rw [removeAllEntriesOfElement_eq, Option.isSome_iff_exists]
      exact h.exists_lookup_iff
    · rw [← h₀]
      exact h.surplus_removeAllEntriesOfElement_iff
  | clear =>
    rw [Comes, VlMap.call, VlMap.clear, ← List.length_flatten]
    split_ifs with hcount
    · have hempty := inv_new (w := w) m.table.length
      rw [new, Int.toNat_natCast, ← List.map_const'] at hempty
      refine .inr ⟨_, _, rfl, rfl, hempty.maps, fun _ => iff_of_true ?_ trivial⟩
      exact sub_eq_zero.mpr hempty.count
    · exact .inl ⟨rfl, fun h₀ => absurd (sub_eq_zero.mp h₀).symm hcount⟩
  | getElementAt key =>
    refine hkeyed (fun ht => ?_) Iff.rfl fun ht => ?_
    · simp [VlMap.call, getElementAt, locate, getBucket_of_nil ht]
    · refine ⟨_, m, ?_, rfl, h, rfl⟩
      rw [VlMap.call, getElementAt, locate_eq ht, h.entries]
      rfl
  | isKeyPresent key =>
    refine hkeyed (fun ht => ?_) Iff.rfl fun ht => ?_
    · simp [VlMap.call, isKeyPresent, locate, getBucket_of_nil ht]
    · refine ⟨_, m, ?_, rfl, h, rfl⟩
      rw [VlMap.call, isKeyPresent, locate_eq ht, h.entries, Option.isSome_map]
      rfl
  | getFirstKeyForElement element =>
    refine .inr ⟨_, m, rfl, ?_, h, fun h₀ => iff_of_true h₀ trivial⟩
    rw [getFirstKeyForElement, firstItem_eq]
    rcases hitem : KeyedList.lookup VlMapItem.element element m.items with _ | item
    · refine Or.inr ⟨rfl, fun k hk => ?_⟩
      obtain ⟨item, hsome⟩ := h.exists_lookup_iff.mpr ⟨k, hk⟩
      cases hitem.symm.trans hsome
    · refine Or.inl ⟨item.key, rfl, ?_⟩
      rw [h.entry_iff, ← KeyedList.key_of_lookup hitem]
      exact KeyedList.mem_of_lookup hitem

theorem Mapped.holds_iff (h : m.Mapped f) : m.Holds f ↔ m.surplus = 0 :=
  ⟨fun hholds => sub_eq_zero.mpr hholds.count, fun h₀ => Inv.holds ⟨h, sub_eq_zero.mp h₀⟩⟩

/-- **A call on a table that is a map.** -/
theorem step_iff (p : VlMap w × Entries w) (op : VlMapOp w) (h : p.1.Holds p.2) :
    (Replies p op ∧ ∃ p', step p op = some p' ∧ p'.1.Holds p'.2) ↔ Orderly p op := by
  obtain ⟨m, f⟩ := p
  have h₀ := h.inv.mapped.holds_iff.mp h
  obtain ⟨hcall, horderly⟩ | ⟨r, m', hcall, hr, hmaps, horderly⟩ := h.inv.mapped.comes op
  · refine iff_of_false (fun ⟨_, _, hstep, _⟩ => ?_) (horderly h₀)
    rw [step, hcall] at hstep
    cases hstep
  · rw [← horderly h₀, ← hmaps.holds_iff]
    refine ⟨fun ⟨_, p', hstep, hp'⟩ => ?_, fun hm' => ⟨fun r' hr' => ?_, (m', _), ?_, hm'⟩⟩
    · rw [step, hcall] at hstep
      cases hstep
      exact hp'
    · cases hcall.symm.trans hr'
      exact hr
    · exact congrArg (Option.map _) hcall

/-- **Each reply is right in every run**, though the count need not be: whatever is called, the
table answers as a finite map does. -/
theorem replies_right (nTableSize : ℤ) (ops : List (VlMapOp w)) :
    EachStep step Replies (new nTableSize, fun _ => none) ops := by
  have hcases : ∀ {p : VlMap w × Entries w} {op r}, p.1.Mapped p.2 → p.1.call op = some r →
      Answers p.2 op r.1 ∧ r.2.Mapped (entriesAfter p.2 op) := by
    intro p op r h hr
    obtain ⟨hcall, -⟩ | ⟨r', m', hcall, hanswers, hmaps, -⟩ := h.comes op
    · cases hcall.symm.trans hr
    · cases hcall.symm.trans hr
      exact ⟨hanswers, hmaps⟩
  refine (EachStep.unconditional.and_invariant (I := fun p => p.1.Mapped p.2)
    (fun p op p' h _ hstep => ?_) (inv_new nTableSize).maps).mono
      fun p op h r hr => (hcases h.1 hr).1
  obtain ⟨r, hcall, rfl⟩ := Option.map_eq_some_iff.mp hstep
  exact (hcases h hcall).2

/-- **When the table is a map.** Through every run of calls, exactly when there is a bucket for
every key that is looked for and `removeAllEntriesOfElement` is only called for elements that no
entry has. -/
theorem isMap_iff (nTableSize : ℤ) (ops : List (VlMapOp w)) :
    IsMap nTableSize ops ↔ EachStep step Orderly (new nTableSize, fun _ => none) ops :=
  Throughout.and_eachStep_iff step_iff (inv_new nTableSize).holds

/-- An entry is made and its element removed: the count stays, and the next `clear` does not pass
its `assert`. -/
theorem not_isMap_removed : ¬ IsMap (w := 32) 17
    [.setElementAt 1 5, .removeAllEntriesOfElement 5, .clear] := by
  intro h
  obtain ⟨t, ht, -⟩ := h.1 _ [] (List.append_nil _).symm
  have hnone : (runFrom step (new (w := 32) 17, fun _ => none)
    [.setElementAt 1 5, .removeAllEntriesOfElement 5, .clear]).isNone = true := by decide
  rw [ht] at hnone
  cases hnone

end VlMap

end MediaFramework
