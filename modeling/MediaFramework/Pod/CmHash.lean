import Mathlib.Algebra.CharP.Defs
import Mathlib.Data.Int.ConditionallyCompleteOrder
import MediaFramework.Lib.Buckets
import MediaFramework.Lib.CString
import MediaFramework.Lib.Run

/-!
# The hash table of the pod server (`cmhash.cpp`)

`CMHash` keeps texts under texts. A key is hashed to one of the buckets, and a bucket is a chain of
nodes that is searched with `strcmp`. `set_value` gives the node of the key another value or puts a
new node at the end of the chain, `remove` unlinks the node.

The number of keys is counted beside the nodes, by `set_value` alone. So the values are always those
that were set last, and the count is the number of keys as long as no key is removed.
-/

namespace MediaFramework

/-- `CMHashNode`; what it is linked to is the rest of the chain. -/
structure CMHashNode where
  key : CString
  /-- the memory at `value` -/
  value : List UInt8
  deriving DecidableEq

/-- `CMHash`, without the alternate table. -/
structure CMHash where
  /-- the chains, as many as `buckets` -/
  nodes : List (List CMHashNode)
  keys : ℤ
  deriving DecidableEq

namespace CMHash

/-! ## The operations -/

section Operations

-- `LONGBITS`, and what a `char` is as an `unsigned long`
variable {w : ℕ} (widen : UInt8 → BitVec w)

/-- `CMHash::hash` -/
def hash (buckets : ℕ) (key : CString) : ℕ :=
  let hash := key.bytes.foldl
    (fun (hash : BitVec w) c => (hash <<< 4) + (hash >>> (w - 4 - 1)) + widen c) 0
  (hash &&& ~~~(1#w <<< (w - 1))).toNat % buckets

/-- `CMHash::CMHash` -/
def new (size : ℕ) : CMHash := ⟨List.replicate size [], 0⟩

variable (h : CMHash) (key : CString)

/-- `nodes[hash(key)]`, with the index: without a bucket `hash` divides by zero. -/
def chain : Option (ℕ × List CMHashNode) := do
  let i ← if h.nodes.length = 0 then none else some (hash widen h.nodes.length key)
  let nodes ← h.nodes[i]?
  return (i, nodes)

/-- `find_node` -/
def findNode : Option (Option CMHashNode) := do
  let (_, nodes) ← h.chain widen key
  return nodes.find? fun node => node.key = key

/-- `set_value` -/
def setValue (ptr : List UInt8) : Option CMHash := do
  let (i, nodes) ← h.chain widen key
  match ← h.findNode widen key with
  | some _ =>
    -- the node that was found
    let nodes := KeyedList.modify CMHashNode.key key ({ · with value := ptr }) nodes
    return { h with nodes := h.nodes.set i nodes }
  | none => return ⟨h.nodes.set i (nodes ++ [⟨key, ptr⟩]), h.keys + 1⟩

/-- `get_value` -/
def getValue : Option (Option (List UInt8)) := do
  return (← h.findNode widen key).map CMHashNode.value

/-- `remove` -/
def remove : Option CMHash := do
  let (i, nodes) ← h.chain widen key
  return { h with nodes := h.nodes.set i (nodes.eraseP fun node => node.key = key) }

/-- `write`, of a number of bytes. -/
def write (bytes : List UInt8) : Option CMHash := h.setValue widen key (bytes ++ [0])

/-- `write`, of a text. -/
def writeText (string : CString) : Option CMHash := h.write widen key (string.bytes ++ [0])

end Operations

/-- A call that changes the table. -/
inductive Op
  | setValue (key : CString) (ptr : List UInt8)
  | write (key : CString) (bytes : List UInt8)
  | writeText (key : CString) (string : CString)
  | remove (key : CString)

/-! ## What a table is -/

/-- What was set last under each key, and not removed. -/
abbrev Values := CString → Option (List UInt8)

/-- The values after a call. -/
def valuesAfter (f : Values) : Op → Values
  | .setValue key ptr => Function.update f key (some ptr)
  | .write key bytes => Function.update f key (some (bytes ++ [0]))
  | .writeText key string => Function.update f key (some (string.bytes ++ [0] ++ [0]))
  | .remove key => Function.update f key none

section Runs

variable {w : ℕ} (widen : UInt8 → BitVec w) (h : CMHash) (f : Values)

/-- Each call of `get_value` finds what was set last. -/
def Finds : Prop := ∀ key, h.getValue widen key = some (f key)

/-- **The table holds the values**: they are found, and the keys are counted. -/
structure Holds : Prop where
  finds : h.Finds widen f
  count : h.keys = {key | f key ≠ none}.ncard

/-- One call. -/
def call : Op → Option CMHash
  | .setValue key ptr => h.setValue widen key ptr
  | .write key bytes => h.write widen key bytes
  | .writeText key string => h.writeText widen key string
  | .remove key => h.remove widen key

/-- A call, with the values beside the table. -/
def step (p : CMHash × Values) (op : Op) : Option (CMHash × Values) :=
  (p.1.call widen op).map fun h => (h, valuesAfter p.2 op)

/-- No key is removed that is there. -/
def Keeps (p : CMHash × Values) : Op → Prop
  | .remove key => p.2 key = none
  | .setValue _ _ | .write _ _ | .writeText _ _ => True

end Runs

/-! ## The nodes and the values -/

variable {w : ℕ} {widen : UInt8 → BitVec w} {h : CMHash} {f : Values} {key : CString}

/-- There is a bucket, and the nodes are where they are looked for. -/
structure Inv (widen : UInt8 → BitVec w) (h : CMHash) (f : Values) : Prop where
  bucket : h.nodes ≠ []
  maps : Buckets.Maps CMHashNode.key CMHashNode.value (hash widen h.nodes.length) h.nodes f

theorem inv_new {size : ℕ} (hsize : 0 < size) : (new size).Inv widen fun _ => none where
  bucket := List.ne_nil_of_length_pos (by rwa [new, List.length_replicate])
  maps := Buckets.maps_replicate size

theorem chain_of_nil (hnil : h.nodes = []) : h.chain widen key = none := by
  simp [chain, hnil]

theorem Inv.exists_chain (hinv : h.Inv widen f) (key : CString) :
    ∃ nodes, h.nodes[hash widen h.nodes.length key]? = some nodes ∧
      h.chain widen key = some (hash widen h.nodes.length key, nodes) := by
  have hpos := List.length_pos_iff.mpr hinv.bucket
  have hlt : hash widen h.nodes.length key < h.nodes.length := Nat.mod_lt _ hpos
  have hnodes := List.getElem?_eq_getElem hlt
  refine ⟨_, hnodes, ?_⟩
  simp [chain, Nat.ne_of_gt hpos, hnodes]

theorem Inv.finds (hinv : h.Inv widen f) : h.Finds widen f := by
  intro key
  obtain ⟨nodes, hnodes, hchain⟩ := hinv.exists_chain key
  rw [hinv.maps.eq_lookup hnodes, ← KeyedList.find?_eq_lookup]
  simp [getValue, findNode, hchain]

/-- **A value is set.** The keys are one more when the key is new. -/
theorem Inv.setValue (hinv : h.Inv widen f) (key : CString) (ptr : List UInt8) :
    ∃ h', h.setValue widen key ptr = some h' ∧
      h'.Inv widen (Function.update f key (some ptr)) ∧
      h'.keys - h.keys = h'.nodes.flatten.length - h.nodes.flatten.length := by
  obtain ⟨nodes, hnodes, hchain⟩ := hinv.exists_chain key
  have hmaps := hinv.maps.upsert hnodes ({ · with value := ptr }) ⟨key, ptr⟩ (fun _ => rfl) rfl
    (fun _ => rfl) rfl
  rcases hnode : KeyedList.lookup CMHashNode.key key nodes with _ | node
  · rw [KeyedList.upsert_of_none hnode] at hmaps
    have hlength := Buckets.length_flatten_set hnodes (nodes ++ [⟨key, ptr⟩])
    rw [List.length_append, List.length_singleton] at hlength
    refine ⟨⟨h.nodes.set (hash widen h.nodes.length key) (nodes ++ [⟨key, ptr⟩]), h.keys + 1⟩,
      ?_, ⟨?_, ?_⟩, ?_⟩
    · simp [CMHash.setValue, findNode, hchain, KeyedList.find?_eq_lookup, hnode]
    · simpa using hinv.bucket
    · rwa [List.length_set]
    · dsimp only
      omega
  · rw [KeyedList.upsert_of_some hnode] at hmaps
    have hlength := Buckets.length_flatten_set hnodes
      (KeyedList.modify CMHashNode.key key ({ · with value := ptr }) nodes)
    rw [KeyedList.length_modify] at hlength
    refine ⟨⟨h.nodes.set (hash widen h.nodes.length key)
      (KeyedList.modify CMHashNode.key key ({ · with value := ptr }) nodes), h.keys⟩,
      ?_, ⟨?_, ?_⟩, ?_⟩
    · simp [CMHash.setValue, findNode, hchain, KeyedList.find?_eq_lookup, hnode]
    · simpa using hinv.bucket
    · rwa [List.length_set]
    · dsimp only
      omega

/-- **A key is removed.** The keys are counted as before, and there is one node less when the key
was there. -/
theorem Inv.remove (hinv : h.Inv widen f) (key : CString) :
    ∃ h', h.remove widen key = some h' ∧ h'.Inv widen (Function.update f key none) ∧
      h'.keys = h.keys ∧
      h'.nodes.flatten.length + (if f key = none then 0 else 1) = h.nodes.flatten.length := by
  obtain ⟨nodes, hnodes, hchain⟩ := hinv.exists_chain key
  have hd := hinv.maps.distinct hnodes
  have hmaps := hinv.maps.remove hnodes
  have hlength := Buckets.length_flatten_set hnodes (KeyedList.others CMHashNode.key key nodes)
  refine ⟨⟨h.nodes.set (hash widen h.nodes.length key)
    (KeyedList.others CMHashNode.key key nodes), h.keys⟩, ?_, ⟨?_, ?_⟩, rfl, ?_⟩
  · simp [CMHash.remove, hchain, KeyedList.eraseP_eq_others hd]
  · simpa using hinv.bucket
  · rwa [List.length_set]
  · rw [hinv.maps.eq_lookup hnodes]
    rcases hnode : KeyedList.lookup CMHashNode.key key nodes with _ | node
    · rw [KeyedList.others_of_lookup_none hnode] at hlength ⊢
      simpa using hlength
    · have := KeyedList.length_others hd hnode
      rw [if_neg (by simp)]
      dsimp only
      omega

/-- Every call of a table with a bucket can be made. -/
theorem Inv.call (hinv : h.Inv widen f) (op : Op) :
    ∃ h', h.call widen op = some h' ∧ h'.Inv widen (valuesAfter f op) := by
  cases op with
  | setValue key ptr =>
    obtain ⟨h', hcall, hinv', -⟩ := hinv.setValue key ptr
    exact ⟨h', hcall, hinv'⟩
  | write key bytes =>
    obtain ⟨h', hcall, hinv', -⟩ := hinv.setValue key (bytes ++ [0])
    exact ⟨h', hcall, hinv'⟩
  | writeText key string =>
    obtain ⟨h', hcall, hinv', -⟩ := hinv.setValue key (string.bytes ++ [0] ++ [0])
    exact ⟨h', hcall, hinv'⟩
  | remove key =>
    obtain ⟨h', hcall, hinv', -⟩ := hinv.remove key
    exact ⟨h', hcall, hinv'⟩

theorem holds_iff (hinv : h.Inv widen f) : h.Holds widen f ↔ h.keys = h.nodes.flatten.length := by
  refine ⟨fun hholds => ?_, fun hcount => ⟨hinv.finds, ?_⟩⟩
  · rw [hholds.count, hinv.maps.ncard]
  · rw [hcount, hinv.maps.ncard]

/-- **One call and the count.** -/
theorem Inv.holds_call_iff (hinv : h.Inv widen f) (hholds : h.Holds widen f) {op : Op} {h' : CMHash}
    (hcall : h.call widen op = some h') :
    h'.Holds widen (valuesAfter f op) ↔ Keeps (h, f) op := by
  have hcount := (holds_iff hinv).mp hholds
  -- with a value set, the keys go with the nodes
  have hset : ∀ {key ptr}, h.setValue widen key ptr = some h' →
      h'.Holds widen (Function.update f key (some ptr)) := by
    intro key ptr hset
    obtain ⟨h'', hset', hinv', hkeys⟩ := hinv.setValue key ptr
    obtain rfl := Option.some.inj (hset.symm.trans hset')
    exact (holds_iff hinv').mpr (by omega)
  cases op with
  | setValue key ptr => exact iff_of_true (hset hcall) trivial
  | write key bytes => exact iff_of_true (hset hcall) trivial
  | writeText key string => exact iff_of_true (hset hcall) trivial
  | remove key =>
    obtain ⟨h'', hremove, hinv', hkeys, hlength⟩ := hinv.remove key
    obtain rfl := Option.some.inj (hcall.symm.trans hremove)
    refine (holds_iff hinv').trans ?_
    rw [hkeys, hcount, ← hlength]
    refine ⟨fun heq => ?_, fun hnone => ?_⟩
    · by_contra hsome
      rw [if_neg (show f key ≠ none from hsome)] at heq
      omega
    · rw [if_pos (show f key = none from hnone), Nat.add_zero]

/-- **When the keys are counted.** Through every run of calls, the values set last are found and
the count is the number of keys, exactly when there is a bucket and no key is removed that is
there. -/
theorem counted_iff (size : ℕ) (ops : List Op) :
    Throughout (step widen) (fun p => p.1.Holds widen p.2) (new size, fun _ => none) ops ↔
      0 < size ∧ EachStep (step widen) Keeps (new size, fun _ => none) ops := by
  rcases Nat.eq_zero_or_pos size with rfl | hsize
  · refine iff_of_false (fun h => ?_) fun h => Nat.lt_irrefl 0 h.1
    obtain ⟨p, hp, hholds⟩ := h [] ops rfl
    obtain rfl := Option.some.inj hp
    have hfound := hholds.finds ⟨[], by simp⟩
    rw [getValue, findNode, chain_of_nil rfl] at hfound
    cases hfound
  · have hinv : (new size).Inv widen fun _ => none := inv_new hsize
    have hnew : (new size).Holds widen fun _ => none :=
      (holds_iff hinv).mpr (by simp [new])
    rw [and_iff_right hsize, ← Throughout.and_eachStep_iff_of (Q := fun _ _ => True)
      (I := fun p : CMHash × Values => p.1.Holds widen p.2) (J := fun p => p.1.Inv widen p.2)
      (fun p op hholds hinv hkeeps => ?_) (fun p op p' hholds hinv _ hstep hholds' => ?_) hnew hinv]
    · exact (and_iff_left (EachStep.of_forall fun _ _ => trivial)).symm
    · obtain ⟨h', hcall, hinv'⟩ := hinv.call op
      exact ⟨trivial, _, congrArg (Option.map _) hcall,
        (hinv.holds_call_iff hholds hcall).mpr hkeeps, hinv'⟩
    · obtain ⟨h', hcall, rfl⟩ := Option.map_eq_some_iff.mp hstep
      exact (hinv.holds_call_iff hholds hcall).mp hholds'

theorem nulFree_k : ∀ b ∈ ascii "k", b ≠ 0 := List.forall_mem_singleton.mpr (by decide)

/-- The key `k` is set and removed again: it is still counted. -/
theorem not_counted_removed :
    ¬ Throughout (step fun c => c.toBitVec.signExtend 32)
      (fun p => p.1.Holds (fun c => c.toBitVec.signExtend 32) p.2) (new 127, fun _ => none)
      [.setValue ⟨ascii "k", nulFree_k⟩ [0], .remove ⟨ascii "k", nulFree_k⟩] := by
  intro h
  have hinv : (new 127).Inv (fun c => c.toBitVec.signExtend 32) fun _ => none :=
    inv_new (by decide)
  obtain ⟨h₁, hset, hinv₁⟩ := hinv.call (.setValue ⟨ascii "k", nulFree_k⟩ [0])
  obtain ⟨h₂, hremove, -⟩ := hinv₁.call (.remove ⟨ascii "k", nulFree_k⟩)
  obtain ⟨t, ht, hholds₁⟩ := h [_] [_] rfl
  obtain ⟨u, hu, hholds₂⟩ := h [_, _] [] rfl
  rw [runFrom_cons, step, hset] at ht hu
  obtain rfl := Option.some.inj ht
  rw [Option.map_some, Option.bind_some, runFrom_cons, step, hremove] at hu
  obtain rfl := Option.some.inj hu
  have hkeeps := (hinv₁.holds_call_iff hholds₁ hremove).mp hholds₂
  simp [Keeps, valuesAfter] at hkeeps

/-- No call makes the count less than the nodes. -/
theorem Inv.length_le_keys (hinv : h.Inv widen f) (hle : h.nodes.flatten.length ≤ h.keys) {op : Op}
    {h' : CMHash} (hcall : h.call widen op = some h') : h'.nodes.flatten.length ≤ h'.keys := by
  have hset : ∀ {key ptr}, h.setValue widen key ptr = some h' →
      h'.nodes.flatten.length ≤ h'.keys := by
    intro key ptr hset
    obtain ⟨h'', hset', -, hkeys⟩ := hinv.setValue key ptr
    cases hset.symm.trans hset'
    omega
  cases op with
  | setValue key ptr | write key bytes | writeText key string => exact hset hcall
  | remove key =>
    obtain ⟨h'', hremove, -, hkeys, hlength⟩ := hinv.remove key
    cases hcall.symm.trans hremove
    have := Nat.le.intro hlength
    omega

/-- **What is found in every run**, if there is a bucket: every call can be made, what was set last
is found, and at least the keys that are there are counted. -/
theorem finds_last {size : ℕ} (hsize : 0 < size) (ops : List Op) :
    ∃ p, runFrom (step widen) (new size, fun _ => none) ops = some p ∧ p.1.Finds widen p.2 ∧
      {key | p.2 key ≠ none}.ncard ≤ p.1.keys := by
  have heach : EachStep (step widen) _ (new size, fun _ => none) ops := EachStep.unconditional
  have hkeep : ∀ (p : CMHash × Values) (op : Op),
      p.1.Inv widen p.2 ∧ p.1.nodes.flatten.length ≤ p.1.keys → True →
        ∃ p', step widen p op = some p' ∧
          p'.1.Inv widen p'.2 ∧ p'.1.nodes.flatten.length ≤ p'.1.keys := by
    rintro p op ⟨hinv, hle⟩ -
    obtain ⟨h', hcall, hinv'⟩ := hinv.call op
    exact ⟨_, congrArg (Option.map _) hcall, hinv', hinv.length_le_keys hle hcall⟩
  obtain ⟨p, hrun, hinv, hle⟩ := heach.total hkeep ⟨inv_new hsize, by simp [new]⟩
  exact ⟨p, hrun, hinv.finds, hinv.maps.ncard ▸ hle⟩

theorem finds_last_removed : ∃ p, runFrom (step UInt8.toBitVec) (new 2, fun _ => none)
      [.setValue ⟨[1], by simp⟩ [5], .write ⟨[3], by simp⟩ [], .remove ⟨[1], by simp⟩] =
        some p ∧
    p.1.Finds UInt8.toBitVec p.2 ∧ ({key | p.2 key ≠ none}.ncard : ℤ) ≤ p.1.keys :=
  finds_last (by decide) _

end CMHash

end MediaFramework
