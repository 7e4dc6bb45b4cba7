import Mathlib.Algebra.Group.Nat.Defs
import MediaFramework.Lib.Cells
import MediaFramework.Lib.Run

/-!
# The vectors of the OSAL (`vlVector.cpp`)

Three classes with the same text but for the type of the elements: `vlVector` of words, `vlByteVector`
and `vlShortVector`. The elements are in an array that has room for one more than the capacity, and
an element is taken out by moving those behind it.

How many bytes are moved is written as `sizeof(void*)` for each element, in all three classes. In the
two with the smaller elements that is more than there is to move. And it is `memcpy` that moves them,
for which the two places must not overlap; only `remove` and `removeElement` of the words use
`memmove`. An access outside the array, and such an overlap, is undefined (`none`).
-/

namespace MediaFramework

universe u

/-- The classes. -/
inductive VectorClass
  | vlVector
  | vlByteVector
  | vlShortVector
  deriving DecidableEq

namespace VectorClass

/-- `sizeof(void*)`, on a machine with wide pointers or not. -/
def pointerSize (wide : Bool) : ℕ := if wide then 8 else 4

/-- `sizeof(element)`; a word is as long as a pointer. -/
def elementSize (wide : Bool) : VectorClass → ℕ
  | vlVector => pointerSize wide
  | vlByteVector => 1
  | vlShortVector => 2

/-- The elements that are moved where `sizeof(void*) * n` bytes are moved. -/
def moved (wide : Bool) (c : VectorClass) (n : ℕ) : ℕ := pointerSize wide * n / c.elementSize wide

/-- `remove` and `removeElement` of the class use `memmove`. -/
def moves : VectorClass → Bool
  | vlVector => true
  | vlByteVector | vlShortVector => false

end VectorClass

/-- `INT_MAX` -/
abbrev vectorIntMax : ℕ := 2 ^ 31 - 1

/-- A vector. There are `capacity + 1` cells. -/
structure VlVector (α : Type u) where
  elements : ℕ → α
  capacity : ℕ
  increment : ℕ
  size : ℕ
  /-- a full vector gets more room -/
  grows : 0 < increment

namespace VlVector

variable {α : Type u}

/-! ## The operations -/

section Operations

-- what is in the cells of a new array
variable (fresh : ℕ → α) (wide : Bool) (c : VectorClass)

/-- The constructor. -/
def new (capacity increment : ℤ) : Option (VlVector α) :=
  let capacity := if capacity ≤ 0 then 1 else capacity
  -- `allocMemory`: `new element[m_capacity + 1]`
  if capacity + 1 ≤ vectorIntMax then
    some ⟨fresh, capacity.toNat, (if increment ≤ 0 then 1 else increment).toNat, 0, by split <;> omega⟩
  else none

variable (v : VlVector α)

/-- The elements are moved by `memmove` or `memcpy`, as many as are moved for `n` of them. -/
def shift (byMemmove : Bool) (dst src n : ℕ) : Option (VlVector α) :=
  let cells := c.moved wide n
  if cells = 0 then some v
  else if dst + cells ≤ v.capacity + 1 ∧ src + cells ≤ v.capacity + 1 ∧
      (byMemmove ∨ dst + cells ≤ src ∨ src + cells ≤ dst) then
    some { v with elements := store v.elements dst (load v.elements src cells) }
  else none

/-- `elements[m_size++] = ele` -/
def put (ele : α) : Option (VlVector α) :=
  if v.size < v.capacity + 1 then
    some { v with elements := Function.update v.elements v.size ele, size := v.size + 1 }
  else none

/-- `add`; the sum of the capacity and the increment is an `int`. -/
def add (ele : α) : Option (VlVector α) :=
  if v.size = v.capacity then
    let newCapacity := v.capacity + v.increment
    if newCapacity + 1 ≤ vectorIntMax then
      put { v with elements := store fresh 0 (load v.elements 0 v.size), capacity := newCapacity } ele
    else none
  else v.put ele

/-- `remove` -/
def remove (index : ℤ) : Option (Bool × VlVector α) := do
  if v.size = 0 then return (false, v)
  else if index < 0 ∨ v.size ≤ index then return (false, v)
  else
    let i := index.toNat
    let v' ← v.shift wide c c.moves i (i + 1) (v.size - i - 1)
    return (true, { v' with size := v.size - 1 })

/-- `removeElement` -/
def removeElement [DecidableEq α] (ele : α) : Option (Bool × VlVector α) := do
  if v.size = 0 then return (false, v)
  else
    match (load v.elements 0 v.size).findIdx? fun x => x = ele with
    | none => return (false, v)
    | some i =>
      let v' ← v.shift wide c c.moves i (i + 1) (v.size - i - 1)
      return (true, { v' with size := v.size - 1 })

/-- `erase`, at an iterator. An iterator is given as the place in `elements` that it points to, and
one that points elsewhere by a number that is none. -/
def erase (it : ℤ) : Option (ℕ × VlVector α) := do
  if 0 ≤ it ∧ it < v.size then
    let i := it.toNat
    let v' ← v.shift wide c false i (i + 1) (v.size - i - 1)
    return (i, { v' with size := v.size - 1 })
  else return (v.size, v)

/-- `erase`, of a range. The second iterator is looked for behind the first one. -/
def eraseRange (first last : ℤ) : Option (ℕ × VlVector α) := do
  if 0 ≤ first ∧ first < v.size then
    let i := first.toNat
    let j := if first + 1 ≤ last ∧ last < v.size then last.toNat else v.size
    let v' ← v.shift wide c false i j (v.size - j)
    return (i, { v' with size := v.size - (j - i) })
  else return (v.size, v)

end Operations

/-- A call of the interface. -/
inductive Op (α : Type u)
  | add (ele : α)
  | remove (index : ℤ)
  | removeElement (ele : α)
  | erase (it : ℤ)
  | eraseRange (first last : ℤ)

/-- What is returned: nothing, whether something was removed, or where an iterator points to. -/
inductive Reply
  | done
  | flag (b : Bool)
  | place (i : ℕ)
  deriving DecidableEq

section Runs

variable [DecidableEq α] (fresh : ℕ → α) (wide : Bool) (c : VectorClass)

/-- One call. -/
def call (v : VlVector α) : Op α → Option (Reply × VlVector α)
  | .add ele => (v.add fresh ele).map fun v => (.done, v)
  | .remove index => (v.remove wide c index).map fun r => (.flag r.1, r.2)
  | .removeElement ele => (v.removeElement wide c ele).map fun r => (.flag r.1, r.2)
  | .erase it => (v.erase wide c it).map fun r => (.place r.1, r.2)
  | .eraseRange first last => (v.eraseRange wide c first last).map fun r => (.place r.1, r.2)

/-! ## The list operations -/

/-- The place `p` is one of a list's. -/
abbrev IsPlace (l : List α) (p : ℤ) : Prop := 0 ≤ p ∧ p < l.length

/-- The end of a range that begins at `first`. An iterator that does not point to it or behind it is
taken for the end of the list. -/
def rangeEnd (l : List α) (first last : ℤ) : ℕ :=
  if first ≤ last ∧ last < l.length then last.toNat else l.length

/-- The operation on lists, and what it returns. -/
def listCall (l : List α) : Op α → Reply × List α
  | .add ele => (.done, l ++ [ele])
  | .remove index =>
    if IsPlace l index then (.flag true, l.eraseIdx index.toNat) else (.flag false, l)
  | .removeElement ele => (.flag (decide (ele ∈ l)), l.erase ele)
  | .erase it =>
    if IsPlace l it then (.place it.toNat, l.eraseIdx it.toNat) else (.place l.length, l)
  | .eraseRange first last =>
    if IsPlace l first then
      (.place first.toNat, l.take first.toNat ++ l.drop (rangeEnd l first last))
    else (.place l.length, l)

/-- What is in the vector. -/
def contents (v : VlVector α) : List α := load v.elements 0 v.size

/-- A call, with the list beside the vector. -/
def step (p : VlVector α × List α) (op : Op α) : Option (VlVector α × List α) :=
  (p.1.call fresh wide c op).map fun r => (r.2, (listCall p.2 op).2)

/-- It returns what the operation on lists does. -/
def Replies (p : VlVector α × List α) (op : Op α) : Prop :=
  ∀ r ∈ p.1.call fresh wide c op, r.1 = (listCall p.2 op).1

/-- The vector has the contents of the list, and they are inside the array. -/
structure Holds (p : VlVector α × List α) : Prop where
  contents : p.1.contents = p.2
  inside : p.1.size ≤ p.1.capacity

/-- **The vector refines the list**: through every run of calls it has the contents of the list and
returns what the list operations return, and no access is undefined. -/
def Refines (capacity increment : ℤ) (ops : List (Op α)) : Prop :=
  ∃ v, new fresh capacity increment = some v ∧
    Throughout (step fresh wide c) Holds (v, []) ops ∧
    EachStep (step fresh wide c) (Replies fresh wide c) (v, []) ops

/-- The elements from the place `j` on can be moved to the place `i`: there are none, or those that
`sizeof(void*)` counts are in the array and, for `memcpy`, not more than the places between. -/
def CanShift (v : VlVector α) (byMemmove : Bool) (i j : ℕ) : Prop :=
  j = v.size ∨ j + c.moved wide (v.size - j) ≤ v.capacity + 1 ∧
    (byMemmove ∨ i + c.moved wide (v.size - j) ≤ j)

/-- **The condition on a call.** -/
def Fits (p : VlVector α × List α) : Op α → Prop
  | .add _ => p.1.size = p.1.capacity → p.1.capacity + p.1.increment + 1 ≤ vectorIntMax
  | .remove index => IsPlace p.2 index →
    p.1.CanShift wide c c.moves index.toNat (index.toNat + 1)
  | .removeElement ele => ∀ i ∈ p.2.findIdx? (fun x => x = ele),
    p.1.CanShift wide c c.moves i (i + 1)
  | .erase it => IsPlace p.2 it → p.1.CanShift wide c false it.toNat (it.toNat + 1)
  | .eraseRange first last => IsPlace p.2 first →
    first ≠ last ∧ p.1.CanShift wide c false first.toNat (rangeEnd p.2 first last)

end Runs

/-! ## Moving the elements -/

theorem le_moved (wide : Bool) (c : VectorClass) (n : ℕ) : n ≤ c.moved wide n := by
  cases c <;> cases wide <;>
    simp only [VectorClass.moved, VectorClass.elementSize, VectorClass.pointerSize, if_true,
      Bool.false_eq_true, if_false] <;> omega

theorem moved_zero (wide : Bool) (c : VectorClass) : c.moved wide 0 = 0 := by
  rw [VectorClass.moved, Nat.mul_zero, Nat.zero_div]

variable {wide : Bool} {c : VectorClass} {v : VlVector α} {l : List α} {b : Bool} {i j : ℕ}

/-- **The elements are moved**, or it is undefined. -/
theorem shift_cases (wide : Bool) (c : VectorClass) (b : Bool) (hij : i < j) (hj : j ≤ v.size) :
    (v.CanShift wide c b i j ∧ ∃ elements, v.shift wide c b i j (v.size - j) =
        some { v with elements := elements } ∧
      load elements 0 (i + (v.size - j)) = load v.elements 0 i ++ load v.elements j (v.size - j)) ∨
      (¬v.CanShift wide c b i j ∧ v.shift wide c b i j (v.size - j) = none) := by
  have hle := le_moved wide c (v.size - j)
  rw [shift, CanShift]
  by_cases hend : j = v.size
  · refine Or.inl ⟨Or.inl hend, v.elements, ?_, ?_⟩
    · rw [hend, Nat.sub_self, moved_zero]
      rfl
    · rw [hend, Nat.sub_self, load_zero, List.append_nil, Nat.add_zero]
  · rw [if_neg (by omega)]
    split_ifs with hinside
    · refine Or.inl ⟨Or.inr ⟨hinside.2.1, hinside.2.2.imp_right fun h => by omega⟩, _, rfl, ?_⟩
      have hload : load (store v.elements i (load v.elements j (c.moved wide (v.size - j)))) 0
          (i + c.moved wide (v.size - j)) = _ := load_store_append length_load
      have htake := congrArg (List.take (i + (v.size - j))) hload
      rw [take_load, Nat.min_eq_left (Nat.add_le_add_left hle i), List.take_append, length_load,
        List.take_of_length_le (by rw [length_load]; omega), Nat.add_sub_cancel_left, take_load,
        Nat.min_eq_left hle] at htake
      exact htake
    · refine Or.inr ⟨fun h => ?_, rfl⟩
      rcases h with h | ⟨h₁, h₂⟩
      · exact hend h
      · exact hinside ⟨by omega, h₁, h₂.imp_right fun h => Or.inl h⟩

/-- The list without the elements from `i` on to `j`. -/
theorem contents_shift (hl : v.contents = l) (hi : i ≤ v.size) (hj : j ≤ v.size) :
    load v.elements 0 i ++ load v.elements j (v.size - j) = l.take i ++ l.drop j := by
  have htake : l.take i = load v.elements 0 i := by
    rw [← hl, contents, take_load, Nat.min_eq_left hi]
  have hdrop : l.drop j = load v.elements j (v.size - j) := by
    have hadd : v.contents = load v.elements 0 j ++ load v.elements (0 + j) (v.size - j) := by
      rw [← load_add, contents, Nat.add_sub_of_le hj]
    rw [← hl, hadd, List.drop_left' length_load, Nat.zero_add]
  rw [htake, hdrop]

theorem length_eq (hl : v.contents = l) : l.length = v.size := by
  rw [← hl, contents, length_load]

/-! ## A call -/

section Step

variable [DecidableEq α] {fresh : ℕ → α} {op : Op α}

/-- A call that does what the operation on lists does. -/
theorem right_of_call {v' : VlVector α} (hcall : v.call fresh wide c op = some ((listCall l op).1, v'))
    (hcontents : v'.contents = (listCall l op).2) (hinside : v'.size ≤ v'.capacity) :
    Replies fresh wide c (v, l) op ∧
      ∃ p', step fresh wide c (v, l) op = some p' ∧ Holds p' := by
  refine ⟨fun r hr => ?_, _, congrArg (Option.map _) hcall, hcontents, hinside⟩
  obtain rfl := Option.some.inj (hcall.symm.trans hr)
  rfl

/-- A call that cannot be made. -/
theorem not_right_of_none (hcall : v.call fresh wide c op = none) :
    ¬(Replies fresh wide c (v, l) op ∧
      ∃ p', step fresh wide c (v, l) op = some p' ∧ Holds p') := by
  rintro ⟨-, p', hstep, -⟩
  rw [step, hcall] at hstep
  cases hstep

/-- **An element is taken out** at a place of the list. -/
theorem erase_iff (h : Holds (v, l)) (hi : i < v.size) (r : Reply)
    (hcall : v.call fresh wide c op = (v.shift wide c b i (i + 1) (v.size - i - 1)).map
      fun v' => (r, { v' with size := v.size - 1 }))
    (hlist : listCall l op = (r, l.eraseIdx i)) :
    (Replies fresh wide c (v, l) op ∧ ∃ p', step fresh wide c (v, l) op = some p' ∧ Holds p') ↔
      v.CanShift wide c b i (i + 1) := by
  obtain ⟨hl, hinside⟩ := h
  rw [Nat.sub_sub] at hcall
  rcases shift_cases wide c b (Nat.lt_succ_self i) hi with
    ⟨hcan, elements, hshift, hload⟩ | ⟨hcannot, hshift⟩
  · rw [hshift] at hcall
    refine iff_of_true (right_of_call (by rw [hlist]; exact hcall) ?_ ?_) hcan
    · rw [hlist, List.eraseIdx_eq_take_drop_succ, ← contents_shift hl (Nat.le_of_lt hi) hi, ← hload]
      rw [contents]
      congr 1
      dsimp only
      omega
    · exact Nat.le_trans (Nat.sub_le _ _) hinside
  · rw [hshift] at hcall
    exact iff_of_false (not_right_of_none hcall) hcannot

/-- A call that changes nothing. -/
theorem right_of_unchanged (h : Holds (v, l)) {r : Reply} (hcall : v.call fresh wide c op = some (r, v))
    (hlist : listCall l op = (r, l)) :
    Replies fresh wide c (v, l) op ∧
      ∃ p', step fresh wide c (v, l) op = some p' ∧ Holds p' :=
  right_of_call (by rw [hlist]; exact hcall) (by rw [hlist]; exact h.contents) h.inside

/-- The element that is added is behind the others. -/
theorem right_of_add (hl : v.contents = l) (ele : α) {elements : ℕ → α} (capacity : ℕ)
    (helements : load elements 0 v.size = load v.elements 0 v.size) (hcapacity : v.size < capacity)
    (hcall : v.add fresh ele = some { v with
      elements := Function.update elements v.size ele, capacity := capacity, size := v.size + 1 }) :
    Replies fresh wide c (v, l) (.add ele) ∧
      ∃ p', step fresh wide c (v, l) (.add ele) = some p' ∧ Holds p' := by
  refine right_of_call (congrArg (Option.map _) hcall) ?_ hcapacity
  rw [listCall, ← hl, contents, contents, load_concat]
  dsimp only
  rw [Nat.zero_add, Function.update_self, load_update (Or.inr (Nat.le_of_eq (Nat.zero_add _))),
    helements]

theorem add_iff (h : Holds (v, l)) (ele : α) :
    (Replies fresh wide c (v, l) (.add ele) ∧
      ∃ p', step fresh wide c (v, l) (.add ele) = some p' ∧ Holds p') ↔
      Fits wide c (v, l) (.add ele) := by
  obtain ⟨hl, hinside⟩ := h
  dsimp only at hl hinside
  rw [Fits]
  by_cases hfull : v.size = v.capacity
  · by_cases hmax : v.capacity + v.increment + 1 ≤ vectorIntMax
    · have hload : load (store fresh 0 (load v.elements 0 v.size)) 0 v.size =
          load v.elements 0 v.size := load_store_of_length length_load
      have hincrement := v.grows
      refine iff_of_true (right_of_add hl ele (v.capacity + v.increment) hload ?_ ?_)
        fun _ => hmax
      · omega
      · rw [add, if_pos hfull, if_pos hmax, put]
        dsimp only
        rw [if_pos (by omega)]
    · refine iff_of_false (not_right_of_none ?_) fun h => hmax (h hfull)
      rw [call, add, if_pos hfull, if_neg hmax]
      rfl
  · refine iff_of_true (right_of_add hl ele v.capacity rfl (Nat.lt_of_le_of_ne hinside hfull) ?_)
      fun h => absurd h hfull
    rw [add, if_neg hfull, put, if_pos (by omega)]

theorem eraseRange_iff (h : Holds (v, l)) {first last : ℤ} (hfirst : 0 ≤ first ∧ first < v.size) :
    (Replies fresh wide c (v, l) (.eraseRange first last) ∧
      ∃ p', step fresh wide c (v, l) (.eraseRange first last) = some p' ∧ Holds p') ↔
      first ≠ last ∧ v.CanShift wide c false first.toNat (rangeEnd l first last) := by
  obtain ⟨hl, hinside⟩ := h
  dsimp only at hl hinside
  have hlength := length_eq hl
  have hlist : listCall l (.eraseRange first last) =
      (.place first.toNat, l.take first.toNat ++ l.drop (rangeEnd l first last)) :=
    if_pos (by rw [IsPlace, hlength]; exact hfirst)
  by_cases hlast : first = last
  · -- nothing is in the range, and everything behind it is taken out
    refine iff_of_false ?_ fun h => h.1 hlast
    rintro ⟨-, p', hstep, hholds⟩
    rw [step, call, eraseRange, if_pos hfirst] at hstep
    dsimp only at hstep
    have hshift : v.shift wide c false first.toNat v.size (v.size - v.size) = some v := by
      rw [shift, Nat.sub_self, moved_zero]
      rfl
    rw [if_neg (by omega), hshift] at hstep
    cases hstep
    have hsize := length_eq hholds.contents
    have hend : rangeEnd l first last = first.toNat := by
      rw [rangeEnd, if_pos (by omega), hlast]
    rw [hlist, hend, List.take_append_drop] at hsize
    dsimp only at hsize
    omega
  · rw [and_iff_right hlast]
    have hend : (if first + 1 ≤ last ∧ last < (v.size : ℤ) then last.toNat else v.size) =
        rangeEnd l first last := by
      rw [rangeEnd, hlength]
      exact if_congr (by omega) rfl rfl
    have hj : first.toNat < rangeEnd l first last ∧ rangeEnd l first last ≤ v.size := by
      rw [← hend]
      split_ifs <;> omega
    have hcall : v.call fresh wide c (.eraseRange first last) =
        (v.shift wide c false first.toNat (rangeEnd l first last)
          (v.size - rangeEnd l first last)).map fun v' => (.place first.toNat,
            { v' with size := v.size - (rangeEnd l first last - first.toNat) }) := by
      rw [call, eraseRange, if_pos hfirst]
      dsimp only
      rw [hend]
      cases v.shift wide c false first.toNat (rangeEnd l first last)
        (v.size - rangeEnd l first last) <;> rfl
    rcases shift_cases wide c false hj.1 hj.2 with
      ⟨hcan, elements, hshift, hload⟩ | ⟨hcannot, hshift⟩
    · rw [hshift] at hcall
      refine iff_of_true (right_of_call (by rw [hlist]; exact hcall) ?_ ?_) hcan
      · rw [hlist, ← contents_shift hl (by omega) hj.2, ← hload, contents]
        congr 1
        dsimp only
        omega
      · exact Nat.le_trans (Nat.sub_le _ _) hinside
    · rw [hshift] at hcall
      exact iff_of_false (not_right_of_none hcall) hcannot

/-- **One call.** -/
theorem step_iff (p : VlVector α × List α) (op : Op α) (h : Holds p) :
    (Replies fresh wide c p op ∧ ∃ p', step fresh wide c p op = some p' ∧ Holds p') ↔
      Fits wide c p op := by
  obtain ⟨v, l⟩ := p
  have hlength : l.length = v.size := length_eq h.contents
  cases op with
  | add ele => exact add_iff h ele
  | remove index =>
    rw [Fits]
    by_cases hplace : IsPlace l index
    · have hindex := hplace
      rw [imp_iff_right hplace]
      refine erase_iff h (by omega) (.flag true) ?_ (if_pos hplace)
      rw [call, remove, if_neg (by omega), if_neg (by omega)]
      dsimp only
      cases v.shift wide c c.moves index.toNat (index.toNat + 1) (v.size - index.toNat - 1) <;> rfl
    · refine iff_of_true (right_of_unchanged h (r := .flag false) ?_ (if_neg hplace))
        fun hp => absurd hp hplace
      rw [call, remove]
      split_ifs with hzero hout
      · rfl
      · rfl
      · omega
  | removeElement ele =>
    rw [Fits]
    have hcontents : load v.elements 0 v.size = l := h.contents
    rcases hfind : l.findIdx? (fun x => x = ele) with _ | i
    · have hmem : ele ∉ l := fun hmem => by
        have := List.findIdx?_eq_none_iff.mp hfind ele hmem
        simp at this
      refine iff_of_true (right_of_unchanged h (r := .flag false) ?_ ?_) fun i hi => by cases hi
      · rw [call, removeElement, hcontents, hfind]
        split_ifs
        · rfl
        · rfl
      · rw [listCall, List.erase_of_not_mem hmem, decide_eq_false hmem]
    · have hlt : i < l.length := (List.findIdx?_eq_some_iff_getElem.mp hfind).1
      have hmem : ele ∈ l := by
        obtain ⟨hlt, hi, -⟩ := List.findIdx?_eq_some_iff_getElem.mp hfind
        exact of_decide_eq_true hi ▸ List.getElem_mem hlt
      refine Iff.trans (erase_iff h (hlength ▸ hlt) (.flag true) ?_ ?_)
        ⟨fun hcan i' hi' => Option.some.inj hi' ▸ hcan, fun hcan => hcan i rfl⟩
      · rw [call, removeElement, if_neg (by omega), hcontents, hfind]
        dsimp only
        cases v.shift wide c c.moves i (i + 1) (v.size - i - 1) <;> rfl
      · have hidx : l.findIdx? (fun x => x == ele) = some i := by
          rw [← hfind]
          exact congrArg (l.findIdx? ·) (funext fun x => beq_eq_decide x ele)
        rw [listCall, decide_eq_true hmem, List.erase_eq_eraseP', List.eraseP_eq_eraseIdx, hidx]
  | erase it =>
    rw [Fits]
    by_cases hplace : IsPlace l it
    · have hit := hplace
      rw [IsPlace, hlength] at hit
      rw [imp_iff_right hplace]
      refine erase_iff h (by omega) (.place it.toNat) ?_ (if_pos hplace)
      rw [call, erase, if_pos hit]
      dsimp only
      cases v.shift wide c false it.toNat (it.toNat + 1) (v.size - it.toNat - 1) <;> rfl
    · refine iff_of_true (right_of_unchanged h (r := .place l.length) ?_ (if_neg hplace))
        fun hp => absurd hp hplace
      rw [IsPlace, hlength] at hplace
      rw [call, erase, if_neg hplace, hlength]
      rfl
  | eraseRange first last =>
    rw [Fits]
    by_cases hplace : IsPlace l first
    · have hfirst := hplace
      rw [IsPlace, hlength] at hfirst
      rw [imp_iff_right hplace]
      exact eraseRange_iff h hfirst
    · refine iff_of_true (right_of_unchanged h (r := .place l.length) ?_ (if_neg hplace))
        fun hp => absurd hp hplace
      rw [IsPlace, hlength] at hplace
      rw [call, eraseRange, if_neg hplace, hlength]
      rfl

end Step

/-- **When a vector refines the list.** Through every run of calls, exactly when there are cells for
the capacity at the start and each call fits. -/
theorem refines_iff [DecidableEq α] (fresh : ℕ → α) (wide : Bool) (c : VectorClass)
    (capacity increment : ℤ) (ops : List (Op α)) :
    Refines fresh wide c capacity increment ops ↔
      ∃ v, new fresh capacity increment = some v ∧
        EachStep (step fresh wide c) (Fits wide c) (v, []) ops := by
  rw [Refines]
  refine exists_congr fun v => and_congr_right fun hv => ?_
  refine Throughout.and_eachStep_iff step_iff ?_
  obtain ⟨-, hv⟩ := Option.ite_none_right_eq_some.mp hv
  obtain rfl := Option.some.inj hv
  exact ⟨rfl, Nat.zero_le _⟩

/-- Three bytes, and the first one is taken out: two bytes are to be moved by one place, and
`memcpy` is called for eight. -/
theorem not_refines_removed : ¬Refines (fun _ => 0) false .vlByteVector 4 1
    [.add (1 : ℕ), .add 2, .add 3, .remove 0] := by
  rintro ⟨v, hv, hrun, -⟩
  obtain ⟨p, hp, -⟩ := hrun _ [] (List.append_nil _).symm
  have hnone : ((new (fun _ => 0) 4 1).bind fun v => runFrom (step (fun _ => 0) false .vlByteVector)
    (v, []) [.add (1 : ℕ), .add 2, .add 3, .remove 0]).isNone = true := by decide
  rw [hv, Option.bind_some, hp] at hnone
  cases hnone

end VlVector

end MediaFramework
