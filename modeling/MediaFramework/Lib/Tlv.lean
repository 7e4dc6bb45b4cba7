import Mathlib.Data.Nat.Notation
import Mathlib.Tactic.Common
import Mathlib.Tactic.Push

/-!
# Types, lengths and values

Values of fewer than 256 octets each, behind their types and lengths (`encodeAll`). `split` takes
octets apart again, and `split_eq_some_iff` says that it does so in the only way there is. Types may
be repeated: `values` are all the values of a type, in their order.
-/

namespace MediaFramework

/-- A type with its value. -/
structure Tlv where
  tag : UInt8
  value : List UInt8
  /-- the length takes one octet -/
  length_lt : value.length < 256
  deriving DecidableEq

namespace Tlv

/-- The octets of one. -/
def encode (t : Tlv) : List UInt8 := t.tag :: UInt8.ofNat t.value.length :: t.value

/-- The octets of several. -/
def encodeAll (ts : List Tlv) : List UInt8 := ts.flatMap encode

theorem length_take_lt (length : UInt8) (rest : List UInt8) :
    (rest.take length.toNat).length < 256 := by
  rw [List.length_take]
  exact Nat.lt_of_le_of_lt (Nat.min_le_left _ _) length.toNat_lt

/-- Takes up to so many of them apart. -/
def splitN : ℕ → List UInt8 → Option (List Tlv)
  | _, [] => some []
  | n + 1, tag :: length :: rest =>
    if length.toNat ≤ rest.length then
      (splitN n (rest.drop length.toNat)).map
        (⟨tag, rest.take length.toNat, length_take_lt length rest⟩ :: ·)
    else none
  | _, _ => none

/-- Takes octets apart. -/
def split (bytes : List UInt8) : Option (List Tlv) := splitN bytes.length bytes

theorem toNat_length (t : Tlv) : (UInt8.ofNat t.value.length).toNat = t.value.length :=
  UInt8.toNat_ofNat_of_lt' t.length_lt

@[simp] theorem length_encode (t : Tlv) : t.encode.length = t.value.length + 2 := rfl

@[simp] theorem encodeAll_nil : encodeAll [] = [] := rfl

@[simp] theorem encodeAll_cons (t : Tlv) (ts : List Tlv) :
    encodeAll (t :: ts) = t.encode ++ encodeAll ts := rfl

theorem length_le_encodeAll (ts : List Tlv) : ts.length ≤ (encodeAll ts).length := by
  induction ts with
  | nil => exact Nat.le_refl _
  | cons t ts ih =>
    rw [encodeAll_cons, List.length_cons, List.length_append, length_encode]
    omega

theorem splitN_encodeAll (ts : List Tlv) : ∀ n, ts.length ≤ n →
    splitN n (encodeAll ts) = some ts := by
  induction ts with
  | nil =>
    intro n _
    cases n <;> rfl
  | cons t ts ih =>
    intro n hn
    obtain ⟨n, rfl⟩ : ∃ k, n = k + 1 := ⟨n - 1, by rw [List.length_cons] at hn; omega⟩
    have hlen := toNat_length t
    rw [encodeAll_cons, encode, List.cons_append, List.cons_append, splitN,
      if_pos (by rw [hlen, List.length_append]; omega)]
    simp only [hlen, List.drop_left, List.take_left, ih n (Nat.le_of_succ_le_succ hn),
      Option.map_some]

theorem encodeAll_of_splitN : ∀ (n : ℕ) {bytes : List UInt8} {ts : List Tlv},
    splitN n bytes = some ts → encodeAll ts = bytes := by
  intro n
  induction n with
  | zero =>
    intro bytes ts h
    rcases bytes with _ | ⟨a, _⟩
    · cases h
      rfl
    · simp [splitN] at h
  | succ n ih =>
    intro bytes ts h
    match bytes, h with
    | [], h =>
      cases h
      rfl
    | tag :: length :: rest, h =>
      rw [splitN] at h
      split_ifs at h with hle
      obtain ⟨ts', hts', rfl⟩ := Option.map_eq_some_iff.mp h
      rw [encodeAll_cons, ih hts', encode, List.length_take, Nat.min_eq_left hle,
        UInt8.ofNat_toNat]
      simp only [List.cons_append, List.take_append_drop]

/-- **Octets are taken apart in one way at most**, into what they are the octets of. -/
theorem split_eq_some_iff {bytes : List UInt8} {ts : List Tlv} :
    split bytes = some ts ↔ encodeAll ts = bytes := by
  constructor
  · exact encodeAll_of_splitN _
  · rintro rfl
    exact splitN_encodeAll ts _ (length_le_encodeAll ts)

@[simp] theorem split_encodeAll (ts : List Tlv) : split (encodeAll ts) = some ts :=
  split_eq_some_iff.mpr rfl

/-! ## Values by their type -/

/-- The values of a type. -/
def values (tag : ℕ) (ts : List Tlv) : List (List UInt8) :=
  ts.filterMap fun t => if t.tag.toNat = tag then some t.value else none

/-- The first value of a type. -/
def first (tag : ℕ) (ts : List Tlv) : Option (List UInt8) := (values tag ts).head?

variable {tag : ℕ} {ts : List Tlv} {t : Tlv}

theorem values_append (ts ts' : List Tlv) :
    values tag (ts ++ ts') = values tag ts ++ values tag ts' := List.filterMap_append

/-- The first value is among the first TLVs, if they have one. -/
theorem first_append (ts ts' : List Tlv) :
    first tag (ts ++ ts') = (first tag ts).or (first tag ts') := by
  rw [first, values_append, List.head?_append, first, first]

theorem values_concat : values tag (ts ++ [t]) =
    if t.tag.toNat = tag then values tag ts ++ [t.value] else values tag ts := by
  rw [values_append]
  split_ifs with h
  · simp [values, h]
  · simp [values, h]

/-- One more, behind others of its type or none. -/
theorem first_concat : first tag (ts ++ [t]) =
    if t.tag.toNat = tag then some ((first tag ts).getD t.value) else first tag ts := by
  rw [first, values_concat]
  split_ifs with h
  · rw [List.head?_append, ← first]
    rcases first tag ts with _ | v <;> rfl
  · rfl

/-- The first value of a type, if there is one, is legal: something can be made of it. -/
def FirstLegal {α : Type} (f : List UInt8 → Option α) (tag : ℕ) (ts : List Tlv) : Prop :=
  ∀ value, first tag ts = some value → (f value).isSome

section FirstLegal

variable {α : Type} {f : List UInt8 → Option α}

theorem firstLegal_nil : FirstLegal f tag [] := nofun

theorem FirstLegal.of_append {ts' : List Tlv} (h : FirstLegal f tag (ts ++ ts')) :
    FirstLegal f tag ts := by
  intro value hvalue
  exact h value (by rw [first_append, hvalue, Option.some_or])

theorem FirstLegal.concat_of_ne (h : FirstLegal f tag ts) (hne : t.tag.toNat ≠ tag) :
    FirstLegal f tag (ts ++ [t]) := by
  rw [FirstLegal, first_concat, if_neg hne]
  exact h

/-- Behind another one of the type it does not matter. -/
theorem FirstLegal.concat_of_some (h : FirstLegal f tag ts) {value : List UInt8}
    (hfirst : first tag ts = some value) : FirstLegal f tag (ts ++ [t]) := by
  intro value' hvalue'
  rw [first_append, hfirst, Option.some_or] at hvalue'
  exact h value' (hfirst.trans hvalue')

/-- The first one of the type. -/
theorem firstLegal_concat_iff (htag : t.tag.toNat = tag) (hfirst : first tag ts = none) :
    FirstLegal f tag (ts ++ [t]) ↔ (f t.value).isSome := by
  rw [FirstLegal, first_concat, if_pos htag, hfirst]
  constructor
  · exact fun h => h t.value rfl
  · rintro h value ⟨⟩
    exact h

/-- What is made of the first value, or said where there is none. -/
theorem FirstLegal.getD (h : FirstLegal f tag ts) (x : α) :
    ((first tag ts).map f).getD (some x) = some (((first tag ts).bind f).getD x) := by
  rcases hfirst : first tag ts with _ | value
  · rfl
  · obtain ⟨y, hy⟩ := Option.isSome_iff_exists.mp (h value hfirst)
    rw [Option.map_some, Option.getD_some, Option.bind_some, hy, Option.getD_some]

theorem getD_of_not_firstLegal (h : ¬ FirstLegal f tag ts) (x : α) :
    ((first tag ts).map f).getD (some x) = none := by
  rw [FirstLegal] at h
  push Not at h
  obtain ⟨value, hfirst, hvalue⟩ := h
  rw [hfirst, Option.map_some, Option.getD_some]
  exact Option.not_isSome_iff_eq_none.mp hvalue

end FirstLegal

theorem mem_values (h : t ∈ ts) : t.value ∈ values t.tag.toNat ts :=
  List.mem_filterMap.mpr ⟨t, h, if_pos rfl⟩

end Tlv

end MediaFramework
