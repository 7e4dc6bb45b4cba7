import Mathlib.Data.Set.Card
import MediaFramework.Lib.KeyedList

/-!
# Buckets

A hash table as a list of buckets. An item lies in the bucket with the number that `index` gives for
its key, and in there it is searched by the key, so a table whose items are where they belong
(`Sorted`) is one list of items, taken bucket after bucket, with distinct keys.

An operation on one key takes the bucket of the key and puts another one in its place. What it does
is said by what is found in the new bucket and by the items with the other keys; and what the table
is then, as a map from the keys (`Maps`), is the old map with one entry changed.
-/

namespace MediaFramework

universe u v w

namespace Buckets

open KeyedList

variable {α : Type u} {κ : Type v}

/-- Each item is in the bucket of its key, and no other item there has the key. -/
structure Sorted (key : α → κ) (index : κ → ℕ) (t : List (List α)) : Prop where
  placed : ∀ i b, t[i]? = some b → ∀ e ∈ b, index (key e) = i
  distinct : ∀ b ∈ t, Distinct key b

variable {key : α → κ} {index : κ → ℕ} {t : List (List α)} {b b' : List α} {i : ℕ} {k : κ} {e : α}

theorem sorted_replicate (n : ℕ) : Sorted key index (List.replicate n []) where
  placed := fun i b hb e he => by
    obtain ⟨-, rfl⟩ := List.mem_replicate.mp (List.mem_of_getElem? hb)
    cases he
  distinct := fun b hb => by
    obtain ⟨-, rfl⟩ := List.mem_replicate.mp hb
    exact List.nodup_nil

/-- **The table is one list with distinct keys.** -/
theorem Sorted.distinct_flatten (h : Sorted key index t) : Distinct key t.flatten := by
  rw [Distinct, List.map_flatten, List.nodup_flatten]
  refine ⟨fun l hl => ?_, List.pairwise_iff_getElem.mpr fun i j hi hj hij => ?_⟩
  · obtain ⟨b, hb, rfl⟩ := List.mem_map.mp hl
    exact h.distinct b hb
  · intro k hki hkj
    rw [List.getElem_map] at hki hkj
    rw [List.length_map] at hi hj
    obtain ⟨e, he, rfl⟩ := List.mem_map.mp hki
    obtain ⟨e', he', hkey⟩ := List.mem_map.mp hkj
    have hplace := h.placed i _ (List.getElem?_eq_getElem hi) e he
    have hplace' := h.placed j _ (List.getElem?_eq_getElem hj) e' he'
    rw [hkey, hplace] at hplace'
    omega

/-- Another bucket in place of one. -/
theorem Sorted.set (h : Sorted key index t) (hb : Distinct key b)
    (hplaced : ∀ e ∈ b, index (key e) = i) : Sorted key index (t.set i b) where
  placed := fun j c hc e he => by
    rw [List.getElem?_set] at hc
    split_ifs at hc with hij hlt
    · cases hc
      exact (hplaced e he).trans hij
    · exact h.placed j c hc e he
  distinct := fun c hc => by
    rcases List.mem_or_eq_of_mem_set hc with hc | rfl
    · exact h.distinct c hc
    · exact hb

/-- How many items there are then. -/
theorem length_flatten_set (hold : t[i]? = some b) (b' : List α) :
    (t.set i b').flatten.length + b.length = t.flatten.length + b'.length := by
  induction t generalizing i with
  | nil => cases hold
  | cons c t ih =>
    cases i with
    | zero =>
      cases hold
      rw [List.set_cons_zero, List.flatten_cons, List.flatten_cons, List.length_append,
        List.length_append]
      omega
    | succ i =>
      have := ih hold
      rw [List.set_cons_succ, List.flatten_cons, List.flatten_cons, List.length_append,
        List.length_append]
      omega

/-! ## Finding -/

section Find

variable [DecidableEq κ]

/-- The item with the key `k`. -/
def find (key : α → κ) (index : κ → ℕ) (k : κ) (t : List (List α)) : Option α :=
  t[index k]?.bind (lookup key k)

theorem find_of_getElem? (h : t[index k]? = some b) : find key index k t = lookup key k b := by
  rw [find, h]
  rfl

theorem Sorted.mem_flatten_iff (h : Sorted key index t) :
    e ∈ t.flatten ↔ find key index (key e) t = some e := by
  refine ⟨fun he => ?_, fun he => ?_⟩
  · obtain ⟨b, hb, he⟩ := List.mem_flatten.mp he
    obtain ⟨i, hi⟩ := List.mem_iff_getElem?.mp hb
    obtain rfl := h.placed i b hi e he
    rw [find_of_getElem? hi]
    exact lookup_of_mem (h.distinct b hb) he
  · obtain ⟨b, hb, he⟩ := Option.bind_eq_some_iff.mp he
    exact List.mem_flatten.mpr ⟨b, List.mem_of_getElem? hb, mem_of_lookup he⟩

theorem key_of_find (h : find key index k t = some e) : key e = k := by
  obtain ⟨b, -, hb⟩ := Option.bind_eq_some_iff.mp h
  exact key_of_lookup hb

/-- The items of the new bucket with another key than `k` are those of the old one. -/
theorem Sorted.set_of_others (h : Sorted key index t) (hold : t[index k]? = some b)
    (hothers : others key k b' = others key k b) (hnew : Distinct key b') :
    Sorted key index (t.set (index k) b') := by
  refine h.set hnew fun e he => ?_
  by_cases hk : key e = k
  · rw [hk]
  · have hmem : e ∈ others key k b := by
      rw [← hothers]
      exact List.mem_filter.mpr ⟨he, decide_eq_true hk⟩
    exact h.placed _ b hold e (List.mem_filter.mp hmem).1

theorem find_set_self (h : index k < t.length) :
    find key index k (t.set (index k) b) = lookup key k b :=
  find_of_getElem? (List.getElem?_set_self h)

/-- Under another key the same is found as before. -/
theorem find_set_ne {k' : κ} (hold : t[index k]? = some b)
    (hothers : others key k b' = others key k b) (hk : k' ≠ k) :
    find key index k' (t.set (index k) b') = find key index k' t := by
  by_cases hindex : index k' = index k
  · have hnew : (t.set (index k) b')[index k']? = some b' := by
      rw [hindex]
      exact List.getElem?_set_self (List.getElem?_eq_some_iff.mp hold).1
    rw [find_of_getElem? hnew, find_of_getElem? (hindex ▸ hold), lookup_eq_of_others hk hothers]
  · rw [find, find, List.getElem?_set_ne (Ne.symm hindex)]

/-! ## The map that a table is -/

variable {β : Type w} {val : α → β} {f : κ → Option β} {v : β}

/-- **The table is a map**: under each key there is what is found with it. -/
structure Maps (key : α → κ) (val : α → β) (index : κ → ℕ) (t : List (List α))
    (f : κ → Option β) : Prop where
  sorted : Sorted key index t
  entries : ∀ k, f k = (find key index k t).map val

theorem maps_replicate (n : ℕ) : Maps key val index (List.replicate n []) fun _ => none where
  sorted := sorted_replicate n
  entries := fun k => by
    rw [find, List.getElem?_replicate]
    split_ifs
    · rfl
    · rfl

namespace Maps

theorem distinct (h : Maps key val index t f) (hold : t[i]? = some b) : Distinct key b :=
  h.sorted.distinct b (List.mem_of_getElem? hold)

theorem eq_lookup (h : Maps key val index t f) (hold : t[index k]? = some b) :
    f k = (lookup key k b).map val := by
  rw [h.entries, find_of_getElem? hold]

/-- An entry for each item, and an item for each entry. -/
theorem eq_some_iff (h : Maps key val index t f) :
    f k = some v ↔ ∃ e ∈ t.flatten, key e = k ∧ val e = v := by
  rw [h.entries, Option.map_eq_some_iff]
  refine ⟨fun ⟨e, he, hv⟩ => ?_, fun ⟨e, he, hk, hv⟩ => ?_⟩
  · obtain rfl := key_of_find he
    exact ⟨e, h.sorted.mem_flatten_iff.mpr he, rfl, hv⟩
  · obtain rfl := hk
    exact ⟨e, h.sorted.mem_flatten_iff.mp he, hv⟩

/-- There are as many entries as items. -/
theorem ncard (h : Maps key val index t f) : {k | f k ≠ none}.ncard = t.flatten.length := by
  have hset : {k | f k ≠ none} = (t.flatten.map key).toFinset := by
    ext k
    rw [Set.mem_ofPred_eq, Option.ne_none_iff_exists', Finset.mem_coe, List.mem_toFinset,
      List.mem_map]
    refine ⟨fun ⟨v, hv⟩ => ?_, fun ⟨e, he, hk⟩ => ⟨val e, h.eq_some_iff.mpr ⟨e, he, hk, rfl⟩⟩⟩
    obtain ⟨e, he, hk, -⟩ := h.eq_some_iff.mp hv
    exact ⟨e, he, hk⟩
  rw [hset, Set.ncard_coe_finset, List.toFinset_card_of_nodup h.sorted.distinct_flatten,
    List.length_map]

/-- **Another bucket** in place of the one of `k`, with the same items under the other keys. -/
theorem set (h : Maps key val index t f) (hold : t[index k]? = some b)
    (hothers : others key k b' = others key k b) (hnew : Distinct key b') :
    Maps key val index (t.set (index k) b')
      (Function.update f k ((lookup key k b').map val)) where
  sorted := h.sorted.set_of_others hold hothers hnew
  entries := fun k' => by
    by_cases hk : k' = k
    · rw [hk, Function.update_self, find_set_self (List.getElem?_eq_some_iff.mp hold).1]
    · rw [Function.update_of_ne hk, find_set_ne hold hothers hk, h.entries]

/-- The entry of `k` is changed or made. -/
theorem upsert (h : Maps key val index t f) (hold : t[index k]? = some b) (g : α → α) (new : α)
    (hg : ∀ a, key (g a) = key a) (hnew : key new = k) (hgv : ∀ a, val (g a) = v)
    (hv : val new = v) :
    Maps key val index (t.set (index k) (KeyedList.upsert key k g new b))
      (Function.update f k (some v)) := by
  have hset := h.set hold (others_upsert hg hnew) ((h.distinct hold).upsert hg hnew)
  rw [lookup_upsert_self hg hnew, Option.map_some] at hset
  rcases hk : lookup key k b with _ | a
  · rw [hk, Option.elim_none, hv] at hset
    exact hset
  · rw [hk, Option.elim_some, hgv] at hset
    exact hset

/-- The entry of `k` is taken away. -/
theorem remove (h : Maps key val index t f) (hold : t[index k]? = some b) :
    Maps key val index (t.set (index k) (others key k b)) (Function.update f k none) := by
  have hset := h.set hold others_others (h.distinct hold).others
  rw [lookup_others_self] at hset
  exact hset

/-- Only the entries with some of the values are left. -/
theorem filter (h : Maps key val index t f) (q : β → Bool) :
    Maps key val index (t.map (List.filter fun e => q (val e))) fun k => (f k).filter q where
  sorted :=
    { placed := fun i b hb e he => by
        rw [List.getElem?_map, Option.map_eq_some_iff] at hb
        obtain ⟨c, hc, rfl⟩ := hb
        exact h.sorted.placed i c hc e (List.mem_filter.mp he).1
      distinct := fun b hb => by
        obtain ⟨c, hc, rfl⟩ := List.mem_map.mp hb
        exact (h.sorted.distinct c hc).sublist (List.filter_sublist.map _) }
  entries := fun k => by
    have hkey : ∀ a b, Option.guard (fun e => q (val e)) a = some b → key b = key a := by
      intro a b hab
      rw [(Option.guard_eq_some_iff.mp hab).1]
    rw [h.entries, find, find, List.getElem?_map]
    rcases hb : t[index k]? with _ | b
    · rfl
    · rw [Option.map_some, Option.bind_some, Option.bind_some, ← List.filterMap_eq_filter,
        lookup_filterMap hkey (h.distinct hb)]
      rcases lookup key k b with _ | a
      · rfl
      · cases hq : q (val a) <;> simp [Option.guard, hq]

end Maps

end Find

end Buckets

end MediaFramework
