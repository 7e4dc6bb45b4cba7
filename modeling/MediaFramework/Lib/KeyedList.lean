import Mathlib.Data.List.Basic
import Mathlib.Data.List.Nodup

/-!
# Lists searched by a key

A list whose elements are found by a key, as programs keep them when a map
would be too much: `lookup` finds an element by its key, `modify` changes the element with a
key, `upsert` does so or appends a new one, and `eraseWalk` is the loop

    for (it = begin; it != end; ++it)
       if (key(*it) == k) { change *it; if (dead(*it)) it = erase(it); }

that erases from the list it walks. `erase` returns the position after the
erased element and the loop then increments it: the element after the erased
one is stepped over, and when the erased element was the last one the program
increments the past-the-end position, which has no defined meaning (`none`).

When the keys are distinct, what these do is said by `lookup` at the key and by
`others`, the list without that key.
-/

namespace MediaFramework

universe u v w

namespace KeyedList

variable {α : Type u} {κ : Type v} [DecidableEq κ]

/-- No two elements have the same key. -/
def Distinct (key : α → κ) (l : List α) : Prop := (l.map key).Nodup

/-- The first element with key `k`. -/
def lookup (key : α → κ) (k : κ) : List α → Option α
  | [] => none
  | e :: l => if key e = k then some e else lookup key k l

/-- The elements whose key is not `k`, in order. -/
def others (key : α → κ) (k : κ) (l : List α) : List α := l.filter fun e => key e ≠ k

/-- Change the first element with key `k`, or append `new` where there is none. -/
def upsert (key : α → κ) (k : κ) (f : α → α) (new : α) : List α → List α
  | [] => [new]
  | e :: l => if key e = k then f e :: l else e :: upsert key k f new l

/-- Change the first element with key `k`, if there is one. -/
def modify (key : α → κ) (k : κ) (f : α → α) : List α → List α
  | [] => []
  | e :: l => if key e = k then f e :: l else e :: modify key k f l

/-- Walk the list, change every element with key `k` and erase those that are
then `dead`, incrementing the position after an erasure as after any other
element. -/
def eraseWalk (key : α → κ) (k : κ) (f : α → α) (dead : α → Bool) :
    List α → Option (List α)
  | [] => some []
  | [e] =>
    if key e = k then
      -- `erase` returned `end()`; the loop increments it
      if dead (f e) then none else some [f e]
    else some [e]
  | e :: e' :: l =>
    if key e = k then
      -- `erase` returned the position of `e'`; the loop steps over it
      if dead (f e) then (eraseWalk key k f dead l).map (e' :: ·)
      else (eraseWalk key k f dead (e' :: l)).map (f e :: ·)
    else (eraseWalk key k f dead (e' :: l)).map (e :: ·)

variable {key : α → κ} {k : κ} {f : α → α} {dead : α → Bool} {l l' : List α} {e new : α}

attribute [local simp] modify eraseWalk upsert

/-! ## Looking up -/

@[simp] theorem lookup_nil : lookup key k [] = none := rfl

theorem lookup_cons_self (h : key e = k) : lookup key k (e :: l) = some e := if_pos h

theorem lookup_cons_ne (h : key e ≠ k) : lookup key k (e :: l) = lookup key k l := if_neg h

/-- What is found has the key it was looked up by. -/
theorem key_of_lookup (h : lookup key k l = some e) : key e = k := by
  induction l with
  | nil => cases h
  | cons a l ih =>
    by_cases ha : key a = k
    · rw [lookup_cons_self ha] at h
      exact Option.some.inj h ▸ ha
    · rw [lookup_cons_ne ha] at h
      exact ih h

theorem find?_eq_lookup : l.find? (fun a => key a = k) = lookup key k l := by
  induction l with
  | nil => rfl
  | cons a l ih =>
    by_cases ha : key a = k
    · rw [List.find?_cons_of_pos (by simpa using ha), lookup_cons_self ha]
    · rw [List.find?_cons_of_neg (by simpa using ha), lookup_cons_ne ha, ih]

theorem lookup_eq_none_iff : lookup key k l = none ↔ k ∉ l.map key := by
  induction l with
  | nil => simp
  | cons a l ih =>
    by_cases ha : key a = k
    · simp [lookup_cons_self ha, ha]
    · rw [lookup_cons_ne ha, ih, List.map_cons, List.mem_cons, not_or]
      exact ⟨fun h => ⟨fun hk => ha hk.symm, h⟩, fun h => h.2⟩

/-- Under another key, only the other elements matter. -/
theorem lookup_others {k' : κ} (h : k' ≠ k) :
    lookup key k' (others key k l) = lookup key k' l := by
  induction l with
  | nil => rfl
  | cons a l ih =>
    unfold others at ih ⊢
    by_cases ha : key a = k
    · have hne : key a ≠ k' := fun hk => h (hk.symm.trans ha)
      rw [List.filter_cons_of_neg (by simp [ha]), ih, lookup_cons_ne hne]
    · rw [List.filter_cons_of_pos (by simp [ha])]
      by_cases hk : key a = k'
      · rw [lookup_cons_self hk, lookup_cons_self hk]
      · rw [lookup_cons_ne hk, lookup_cons_ne hk, ih]

/-- Lists with the same other elements agree under every other key. -/
theorem lookup_eq_of_others {k' : κ} (hk : k' ≠ k)
    (h : others key k l' = others key k l) : lookup key k' l' = lookup key k' l := by
  rw [← lookup_others hk, h, lookup_others hk]

theorem others_cons_self (h : key e = k) : others key k (e :: l) = others key k l :=
  List.filter_cons_of_neg (by simp [h])

theorem others_cons_ne (h : key e ≠ k) : others key k (e :: l) = e :: others key k l :=
  List.filter_cons_of_pos (by simp [h])

theorem others_of_lookup_none (h : lookup key k l = none) : others key k l = l := by
  refine List.filter_eq_self.mpr fun a ha => ?_
  have hk : key a ≠ k := fun hk =>
    lookup_eq_none_iff.mp h (List.mem_map.mpr ⟨a, ha, hk⟩)
  simpa using hk

/-! ## Distinct keys -/

theorem distinct_cons :
    Distinct key (e :: l) ↔ lookup key (key e) l = none ∧ Distinct key l := by
  rw [lookup_eq_none_iff]
  exact List.nodup_cons

/-- With distinct keys every element is found. -/
theorem lookup_of_mem (h : Distinct key l) (he : e ∈ l) : lookup key (key e) l = some e := by
  induction l with
  | nil => cases he
  | cons a l ih =>
    obtain ⟨hnone, hl⟩ := distinct_cons.mp h
    rcases List.mem_cons.mp he with rfl | he
    · exact lookup_cons_self rfl
    · have ha : key a ≠ key e := by
        intro ha
        rw [ha, ih hl he] at hnone
        cases hnone
      rw [lookup_cons_ne ha]
      exact ih hl he

theorem mem_of_lookup (h : lookup key k l = some e) : e ∈ l := by
  induction l with
  | nil => cases h
  | cons a l ih =>
    by_cases ha : key a = k
    · rw [lookup_cons_self ha] at h
      exact Option.some.inj h ▸ List.mem_cons_self
    · rw [lookup_cons_ne ha] at h
      exact List.mem_cons_of_mem a (ih h)

/-! ## Changing one element -/

theorem lookup_modify_self (hf : ∀ a, key (f a) = key a) :
    lookup key k (modify key k f l) = (lookup key k l).map f := by
  induction l with
  | nil => rfl
  | cons a l ih =>
    by_cases ha : key a = k
    · rw [modify, if_pos ha, lookup_cons_self ((hf a).trans ha), lookup_cons_self ha]
      rfl
    · rw [modify, if_neg ha, lookup_cons_ne ha, lookup_cons_ne ha, ih]

theorem lookup_modify_ne (hf : ∀ a, key (f a) = key a) {k' : κ} (hk : k' ≠ k) :
    lookup key k' (modify key k f l) = lookup key k' l := by
  induction l with
  | nil => rfl
  | cons a l ih =>
    by_cases ha : key a = k
    · have hne : key a ≠ k' := fun h => hk (h.symm.trans ha)
      rw [modify, if_pos ha, lookup_cons_ne hne, lookup_cons_ne (hf a ▸ hne)]
    · by_cases ha' : key a = k'
      · rw [modify, if_neg ha, lookup_cons_self ha', lookup_cons_self ha']
      · rw [modify, if_neg ha, lookup_cons_ne ha', lookup_cons_ne ha', ih]

/-- What the change keeps of an element it keeps of the list. -/
theorem map_modify_eq {β : Type w} {g : α → β} (hg : ∀ a, g (f a) = g a) :
    (modify key k f l).map g = l.map g := by
  induction l with
  | nil => rfl
  | cons a l ih =>
    by_cases ha : key a = k
    · rw [modify, if_pos ha, List.map_cons, List.map_cons, hg]
    · rw [modify, if_neg ha, List.map_cons, List.map_cons, ih]

@[simp] theorem map_modify (hf : ∀ a, key (f a) = key a) :
    (modify key k f l).map key = l.map key := map_modify_eq hf

theorem Distinct.modify (hf : ∀ a, key (f a) = key a) (h : Distinct key l) :
    Distinct key (KeyedList.modify key k f l) := by
  unfold Distinct
  rw [map_modify hf]
  exact h

/-- Nothing is changed where what is found is as it should be. -/
theorem modify_eq_self (h : ∀ a, lookup key k l = some a → f a = a) : modify key k f l = l := by
  induction l with
  | nil => rfl
  | cons a l ih =>
    by_cases ha : key a = k
    · rw [modify, if_pos ha, h a (lookup_cons_self ha)]
    · rw [lookup_cons_ne ha] at h
      rw [modify, if_neg ha, ih h]

/-- Two changes, one after the other. -/
theorem modify_modify {g : α → α} (hf : ∀ a, key (f a) = key a) :
    modify key k g (modify key k f l) = modify key k (fun a => g (f a)) l := by
  induction l with
  | nil => rfl
  | cons a l ih =>
    by_cases ha : key a = k
    · rw [modify, if_pos ha, modify, if_pos ((hf a).trans ha), modify, if_pos ha]
    · rw [modify, if_neg ha, modify, if_neg ha, ih, modify, if_neg ha]

@[simp] theorem length_modify : (modify key k f l).length = l.length := by
  induction l with
  | nil => rfl
  | cons a l ih =>
    by_cases ha : key a = k
    · rw [modify, if_pos ha]
      rfl
    · rw [modify, if_neg ha, List.length_cons, List.length_cons, ih]

/-- What is appended is found behind everything else. -/
theorem lookup_append : lookup key k (l ++ l') = (lookup key k l).or (lookup key k l') := by
  induction l with
  | nil => rfl
  | cons a l ih =>
    rw [List.cons_append]
    by_cases ha : key a = k
    · rw [lookup_cons_self ha, lookup_cons_self ha]
      rfl
    · rw [lookup_cons_ne ha, lookup_cons_ne ha, ih]

theorem findSome?_lookup {t : List (List α)} :
    t.findSome? (lookup key k) = lookup key k t.flatten := by
  induction t with
  | nil => rfl
  | cons l t ih =>
    rw [List.findSome?_cons, List.flatten_cons, lookup_append, ih]
    cases lookup key k l with
    | none => rfl
    | some a => rfl

theorem modify_append_of_none (h : lookup key k l = none) :
    modify key k f (l ++ l') = l ++ modify key k f l' := by
  induction l with
  | nil => rfl
  | cons a l ih =>
    have ha : key a ≠ k := by
      intro ha
      rw [lookup_cons_self ha] at h
      cases h
    rw [lookup_cons_ne ha] at h
    rw [List.cons_append, modify, if_neg ha, ih h, List.cons_append]

theorem modify_append_of_some (h : lookup key k l = some e) :
    modify key k f (l ++ l') = modify key k f l ++ l' := by
  induction l with
  | nil => cases h
  | cons a l ih =>
    by_cases ha : key a = k
    · rw [List.cons_append, modify, if_pos ha, modify, if_pos ha, List.cons_append]
    · rw [lookup_cons_ne ha] at h
      rw [List.cons_append, modify, if_neg ha, ih h, modify, if_neg ha, List.cons_append]

/-! ## Changing or dropping every element -/

/-- **A sweep.** With distinct keys, what is found after each element is changed or dropped is
what becomes of what was found before. -/
theorem lookup_filterMap {g : α → Option α} (hg : ∀ a b, g a = some b → key b = key a)
    (h : Distinct key l) : lookup key k (l.filterMap g) = (lookup key k l).bind g := by
  induction l with
  | nil => rfl
  | cons a l ih =>
    obtain ⟨hnone, hl⟩ := distinct_cons.mp h
    rcases hga : g a with _ | b
    · rw [List.filterMap_cons_none hga, ih hl]
      by_cases ha : key a = k
      · rw [← ha, hnone, lookup_cons_self rfl, Option.bind_some, hga]
        rfl
      · rw [lookup_cons_ne ha]
    · rw [List.filterMap_cons_some hga]
      by_cases ha : key a = k
      · rw [lookup_cons_self ha, lookup_cons_self ((hg a b hga).trans ha)]
        exact hga.symm
      · rw [lookup_cons_ne ha, lookup_cons_ne (hg a b hga ▸ ha), ih hl]

theorem Distinct.filterMap {g : α → Option α} (hg : ∀ a b, g a = some b → key b = key a)
    (h : Distinct key l) : Distinct key (l.filterMap g) := by
  induction l with
  | nil => exact List.nodup_nil
  | cons a l ih =>
    obtain ⟨hnone, hl⟩ := distinct_cons.mp h
    rcases hga : g a with _ | b
    · rw [List.filterMap_cons_none hga]
      exact ih hl
    · rw [List.filterMap_cons_some hga]
      refine distinct_cons.mpr ⟨?_, ih hl⟩
      rw [lookup_filterMap hg hl, hg a b hga, hnone]
      rfl

/-! ## Upsert -/

theorem lookup_upsert_self (hf : ∀ a, key (f a) = key a) (hnew : key new = k) :
    lookup key k (upsert key k f new l) = some ((lookup key k l).elim new f) := by
  induction l with
  | nil => exact lookup_cons_self hnew
  | cons a l ih =>
    by_cases ha : key a = k
    · rw [upsert, if_pos ha, lookup_cons_self ((hf a).trans ha), lookup_cons_self ha]
      rfl
    · rw [upsert, if_neg ha, lookup_cons_ne ha, lookup_cons_ne ha, ih]

theorem others_upsert (hf : ∀ a, key (f a) = key a) (hnew : key new = k) :
    others key k (upsert key k f new l) = others key k l := by
  induction l with
  | nil => exact others_cons_self hnew
  | cons a l ih =>
    by_cases ha : key a = k
    · rw [upsert, if_pos ha, others_cons_self ((hf a).trans ha), others_cons_self ha]
    · rw [upsert, if_neg ha, others_cons_ne ha, others_cons_ne ha, ih]

theorem Distinct.upsert (hf : ∀ a, key (f a) = key a) (hnew : key new = k)
    (h : Distinct key l) : Distinct key (upsert key k f new l) := by
  induction l with
  | nil => exact List.nodup_singleton _
  | cons a l ih =>
    obtain ⟨hnone, hl⟩ := distinct_cons.mp h
    by_cases ha : key a = k
    · rw [KeyedList.upsert, if_pos ha]
      exact distinct_cons.mpr ⟨(hf a).symm ▸ hnone, hl⟩
    · rw [KeyedList.upsert, if_neg ha]
      refine distinct_cons.mpr ⟨?_, ih hl⟩
      rw [lookup_eq_of_others ha (others_upsert hf hnew)]
      exact hnone

theorem upsert_of_none (h : lookup key k l = none) : upsert key k f new l = l ++ [new] := by
  induction l with
  | nil => rfl
  | cons a l ih =>
    have ha : key a ≠ k := fun ha => by
      rw [lookup_cons_self ha] at h
      cases h
    rw [lookup_cons_ne ha] at h
    rw [upsert, if_neg ha, ih h, List.cons_append]

theorem upsert_of_some (h : lookup key k l = some e) :
    upsert key k f new l = modify key k f l := by
  induction l with
  | nil => cases h
  | cons a l ih =>
    by_cases ha : key a = k
    · rw [upsert, if_pos ha, modify, if_pos ha]
    · rw [lookup_cons_ne ha] at h
      rw [upsert, if_neg ha, modify, if_neg ha, ih h]

/-! ## By the place in the list -/

section Place

variable {front : List α} {i : ℕ}

theorem findIdx?_eq_none_iff :
    l.findIdx? (fun a => key a = k) = none ↔ lookup key k l = none := by
  rw [List.findIdx?_eq_none_iff, lookup_eq_none_iff, List.mem_map, not_exists]
  exact forall_congr' fun a => by rw [decide_eq_false_iff_not, not_and]

/-- The list around the first element with the key. -/
theorem exists_split (h : l.findIdx? (fun a => key a = k) = some i) :
    ∃ front a back, l = front ++ a :: back ∧ front.length = i ∧ key a = k ∧
      lookup key k front = none := by
  obtain ⟨hlt, ha, hbefore⟩ := List.findIdx?_eq_some_iff_getElem.mp h
  refine ⟨l.take i, l[i], l.drop (i + 1), ?_, List.length_take_of_le (Nat.le_of_lt hlt),
    of_decide_eq_true ha, ?_⟩
  · rw [List.getElem_cons_drop, List.take_append_drop]
  · rw [lookup_eq_none_iff, List.mem_map]
    rintro ⟨a, ha, hk⟩
    obtain ⟨j, hj, rfl⟩ := List.mem_iff_getElem.mp ha
    rw [List.length_take] at hj
    rw [List.getElem_take] at hk
    exact hbefore j (by omega) (decide_eq_true hk)

theorem lookup_split (hfront : lookup key k front = none) (he : key e = k) :
    lookup key k (front ++ e :: l) = some e := by
  rw [lookup_append, hfront, lookup_cons_self he]
  rfl

theorem exists_lookup (h : l.findIdx? (fun a => key a = k) = some i) :
    ∃ a, lookup key k l = some a := by
  obtain ⟨front, a, back, rfl, -, ha, hfront⟩ := exists_split h
  exact ⟨a, lookup_split hfront ha⟩

theorem others_split (hd : Distinct key (front ++ e :: l)) (hfront : lookup key k front = none)
    (he : key e = k) : others key k (front ++ e :: l) = front ++ l := by
  have hback : lookup key k l = none := by
    rw [Distinct, List.map_append] at hd
    rw [← he]
    exact (distinct_cons.mp hd.of_append_right).1
  rw [others, List.filter_append]
  exact congrArg₂ _ (others_of_lookup_none hfront)
    ((others_cons_self he).trans (others_of_lookup_none hback))

/-- The element with the key is erased by its place. -/
theorem eraseIdx_eq_others (hd : Distinct key l)
    (h : l.findIdx? (fun a => key a = k) = some i) : l.eraseIdx i = others key k l := by
  obtain ⟨front, a, back, rfl, rfl, ha, hfront⟩ := exists_split h
  rw [others_split hd hfront ha, List.eraseIdx_append_of_length_le (Nat.le_refl _), Nat.sub_self]
  rfl

theorem eraseP_eq_others (hd : Distinct key l) :
    l.eraseP (fun a => key a = k) = others key k l := by
  induction l with
  | nil => rfl
  | cons a l ih =>
    obtain ⟨hnone, hl⟩ := distinct_cons.mp hd
    by_cases ha : key a = k
    · rw [List.eraseP_cons_of_pos (by simpa using ha), others_cons_self ha,
        others_of_lookup_none (ha ▸ hnone)]
    · rw [List.eraseP_cons_of_neg (by simpa using ha), others_cons_ne ha, ih hl]

/-- The element with the key is changed by its place. -/
theorem modify_eq_modify (h : l.findIdx? (fun a => key a = k) = some i) :
    List.modify l i f = modify key k f l := by
  obtain ⟨front, a, back, rfl, rfl, ha, hfront⟩ := exists_split h
  rw [modify_append_of_none hfront, modify, if_pos ha, List.modify_eq_take_cons_drop (by simp)]
  simp

/-- What is at the place of the key. -/
theorem findIdx?_bind : (l.findIdx? fun a => key a = k).bind (l[·]?) = lookup key k l := by
  rcases h : l.findIdx? (fun a => key a = k) with _ | i
  · exact (findIdx?_eq_none_iff.mp h).symm
  · obtain ⟨front, a, back, rfl, rfl, ha, hfront⟩ := exists_split h
    rw [lookup_split hfront ha, Option.bind_some, List.getElem?_append_right (Nat.le_refl _),
      Nat.sub_self]
    rfl

theorem lookup_others_self : lookup key k (others key k l) = none := by
  rw [lookup_eq_none_iff, List.mem_map]
  rintro ⟨a, ha, hk⟩
  exact of_decide_eq_true (List.mem_filter.mp ha).2 hk

theorem others_others : others key k (others key k l) = others key k l :=
  others_of_lookup_none lookup_others_self

theorem Distinct.others (h : Distinct key l) : Distinct key (others key k l) :=
  h.sublist (List.filter_sublist.map key)

theorem length_others (hd : Distinct key l) (h : lookup key k l = some e) :
    (others key k l).length + 1 = l.length := by
  induction l with
  | nil => cases h
  | cons a l ih =>
    obtain ⟨hnone, hl⟩ := distinct_cons.mp hd
    by_cases ha : key a = k
    · rw [ha] at hnone
      rw [others_cons_self ha, others_of_lookup_none hnone, List.length_cons]
    · rw [lookup_cons_ne ha] at h
      rw [others_cons_ne ha, List.length_cons, List.length_cons, ih hl h]

end Place

/-! ## The erasing walk -/

/-- Without the key, the walk changes nothing. -/
theorem eraseWalk_of_lookup_none (h : lookup key k l = none) :
    eraseWalk key k f dead l = some l := by
  induction l with
  | nil => rfl
  | cons a l ih =>
    have ha : key a ≠ k := fun ha => by
      rw [lookup_cons_self ha] at h
      cases h
    rw [lookup_cons_ne ha] at h
    cases l with
    | nil => exact if_neg ha
    | cons b l =>
      rw [eraseWalk, if_neg ha, ih h]
      rfl

/-- **The erasing walk.** With distinct keys, a walk that completes changes the
element with the key, drops it if it is then dead, and leaves every other
element where it was. -/
theorem eraseWalk_spec (hf : ∀ a, key (f a) = key a) :
    ∀ {l l' : List α}, Distinct key l → eraseWalk key k f dead l = some l' →
      Distinct key l' ∧ others key k l' = others key k l ∧
      lookup key k l' = ((lookup key k l).map f).filter fun a => !dead a := by
  intro l
  induction l with
  | nil =>
    intro l' _ h
    obtain rfl : [] = l' := Option.some.inj h
    exact ⟨List.nodup_nil, rfl, rfl⟩
  | cons a l ih =>
    intro l' hd h
    obtain ⟨hnone, hl⟩ := distinct_cons.mp hd
    by_cases ha : key a = k
    · -- the element with the key; there is none further on
      rw [ha] at hnone
      rw [others_cons_self ha, lookup_cons_self ha, others_of_lookup_none hnone]
      by_cases hdead : dead (f a) = true
      · have hrest : l' = l := by
          cases l with
          | nil =>
            rw [eraseWalk, if_pos ha, if_pos hdead] at h
            cases h
          | cons b l =>
            have hb : key b ≠ k := fun hb => by
              rw [lookup_cons_self hb] at hnone
              cases hnone
            rw [lookup_cons_ne hb] at hnone
            rw [eraseWalk, if_pos ha, if_pos hdead, eraseWalk_of_lookup_none hnone] at h
            exact (Option.some.inj h).symm
        subst hrest
        refine ⟨hl, others_of_lookup_none hnone, ?_⟩
        rw [hnone, Option.map_some, Option.filter_some, if_neg (by simp [hdead])]
      · have hrest : l' = f a :: l := by
          cases l with
          | nil =>
            rw [eraseWalk, if_pos ha, if_neg hdead] at h
            exact (Option.some.inj h).symm
          | cons b l =>
            rw [eraseWalk, if_pos ha, if_neg hdead, eraseWalk_of_lookup_none hnone] at h
            exact (Option.some.inj h).symm
        have hfa : key (f a) = k := (hf a).trans ha
        subst hrest
        refine ⟨distinct_cons.mpr ⟨hfa.symm ▸ hnone, hl⟩, ?_, ?_⟩
        · rw [others_cons_self hfa, others_of_lookup_none hnone]
        · rw [lookup_cons_self hfa, Option.map_some, Option.filter_some,
            if_pos (by simp [hdead])]
    · -- some other element: it is kept, and the walk goes on
      have hstep : ∃ m, eraseWalk key k f dead l = some m ∧ l' = a :: m := by
        cases l with
        | nil =>
          rw [eraseWalk, if_neg ha] at h
          exact ⟨[], rfl, (Option.some.inj h).symm⟩
        | cons b l =>
          rw [eraseWalk, if_neg ha] at h
          obtain ⟨m, hm, hl'⟩ := Option.map_eq_some_iff.mp h
          exact ⟨m, hm, hl'.symm⟩
      obtain ⟨m, hm, rfl⟩ := hstep
      obtain ⟨hdm, hom, hlm⟩ := ih hl hm
      refine ⟨distinct_cons.mpr ⟨?_, hdm⟩, ?_, ?_⟩
      · rw [lookup_eq_of_others ha hom]
        exact hnone
      · rw [others_cons_ne ha, others_cons_ne ha, hom]
      · rw [lookup_cons_ne ha, lookup_cons_ne ha, hlm]

/-- The walk gets stuck exactly when it erases the last element. -/
theorem eraseWalk_eq_none_iff (hd : Distinct key l) :
    eraseWalk key k f dead l = none ↔ ∃ a ∈ l.getLast?, key a = k ∧ dead (f a) = true := by
  induction l with
  | nil => simp [eraseWalk]
  | cons a l ih =>
    obtain ⟨hnone, hl⟩ := distinct_cons.mp hd
    cases l with
    | nil =>
      by_cases ha : key a = k
      · by_cases hdead : dead (f a) = true
        · simp [eraseWalk, ha, hdead]
        · simp [eraseWalk, ha, hdead]
      · simp [eraseWalk, ha]
    | cons b l =>
      rw [List.getLast?_cons_cons]
      by_cases ha : key a = k
      · -- the key is not in the rest, so the walk goes through it
        rw [ha] at hnone
        have habs : ¬ ∃ c ∈ (b :: l).getLast?, key c = k ∧ dead (f c) = true := by
          rintro ⟨c, hc, hck, -⟩
          exact lookup_eq_none_iff.mp hnone
            (List.mem_map.mpr ⟨c, List.mem_of_getLast? hc, hck⟩)
        have hb : key b ≠ k := fun hb => by
          rw [lookup_cons_self hb] at hnone
          cases hnone
        have hnone' := hnone
        rw [lookup_cons_ne hb] at hnone'
        refine ⟨fun h => ?_, fun h => absurd h habs⟩
        by_cases hdead : dead (f a) = true
        · rw [eraseWalk, if_pos ha, if_pos hdead, eraseWalk_of_lookup_none hnone'] at h
          cases h
        · rw [eraseWalk, if_pos ha, if_neg hdead, eraseWalk_of_lookup_none hnone] at h
          cases h
      · rw [eraseWalk, if_neg ha, Option.map_eq_none_iff]
        exact ih hl

end KeyedList

end MediaFramework
