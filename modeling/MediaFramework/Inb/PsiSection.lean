import Mathlib.Data.List.Basic
import Mathlib.Algebra.GroupWithZero.Nat

/-!
# The sections of the in-band tables

`parse_and_update_PAT` and `parse_and_update_PMT` get a section as a pointer and a size, and read it
octet by octet through structures laid over it. A read past the size is none of the section's bytes;
what is found there the code does not control, so such a read ends a call in `PsiStop.outside`.
-/

namespace MediaFramework

/-- A section as it is delivered: `section_data`, of `section_size` bytes. -/
structure PsiSection where
  bytes : List UInt8
  /-- the size is a `uint32_t` -/
  size_lt : bytes.length < 2 ^ 32
  deriving DecidableEq

/-- Why a parser stops short of the end of its section. -/
inductive PsiStop where
  /-- memory outside the section, or outside a local buffer, is used -/
  | outside
  /-- it is left for `PARSING_DONE`, with an error code -/
  | error (code : ℕ)
  deriving DecidableEq

/-- `GETBITS`: the bits of `source` from `msBit` down to `lsBit`, which are counted from 1. -/
def getBits (source msBit lsBit : ℕ) : ℕ :=
  (((1 <<< (msBit - lsBit + 1) - 1) <<< (lsBit - 1)) &&& source) >>> (lsBit - 1)

/-- Subtraction of `uint32_t`s: it wraps around. -/
def minus (n k : ℕ) : ℕ := if k ≤ n then n - k else n + 2 ^ 32 - k

theorem minus_of_le {n k : ℕ} (h : k ≤ n) : minus n k = n - k := if_pos h

theorem minus_of_lt {n k : ℕ} (h : n < k) : minus n k = n + 2 ^ 32 - k :=
  if_neg (Nat.not_le_of_lt h)

namespace PsiSection

/-- `section_size`. -/
def size (s : PsiSection) : ℕ := s.bytes.length

/-- The byte `offset` bytes into the section. -/
def byte (s : PsiSection) (offset : ℕ) : Except PsiStop ℕ :=
  match s.bytes[offset]? with
  | some b => .ok b.toNat
  | none => .error .outside

/-- The octets of the header structures are counted from 1. -/
def octet (s : PsiSection) (k : ℕ) : Except PsiStop ℕ := s.byte (k - 1)

/-- Two octets as one number, the first of them the high one. -/
def word (s : PsiSection) (offset : ℕ) : Except PsiStop ℕ := do
  let high ← s.byte offset
  let low ← s.byte (offset + 1)
  return high <<< 8 ||| low

/-- The CRC_32 at the end of a table. -/
def crc (s : PsiSection) (offset : ℕ) : Except PsiStop ℕ := do
  let b₁ ← s.byte offset
  let b₂ ← s.byte (offset + 1)
  let b₃ ← s.byte (offset + 2)
  let b₄ ← s.byte (offset + 3)
  return b₁ <<< 24 ||| b₂ <<< 16 ||| b₃ <<< 8 ||| b₄

/-- A byte of the section; 0 outside. -/
def value (s : PsiSection) (offset : ℕ) : ℕ := (s.bytes[offset]?.map UInt8.toNat).getD 0

/-- `version_number` -/
def version (s : PsiSection) : ℕ := getBits (s.value 5) 6 2

/-- `section_number` -/
def sectionNumber (s : PsiSection) : ℕ := s.value 6

/-- `last_section_number` -/
def lastSectionNumber (s : PsiSection) : ℕ := s.value 7

/-- The CRC_32 of a section: its last four bytes. -/
def crc32 (s : PsiSection) : ℕ :=
  s.value (s.size - 4) <<< 24 ||| s.value (s.size - 3) <<< 16 ||| s.value (s.size - 2) <<< 8 |||
    s.value (s.size - 1)

/-- Reading on, after a part of a parser that is done. -/
theorem ok_bind {α β : Type} (a : α) (f : α → Except PsiStop β) :
    ((.ok a : Except PsiStop α) >>= f) = f a := rfl

/-- A part of a parser that stops is the end of it. -/
theorem error_bind {α β : Type} (stop : PsiStop) (f : α → Except PsiStop β) :
    ((.error stop : Except PsiStop α) >>= f) = .error stop := rfl

/-- A parser that comes to its end has come through each of its parts. -/
theorem bind_eq_ok {α β : Type} {x : Except PsiStop α} {f : α → Except PsiStop β} {b : β}
    (h : (x >>= f) = .ok b) : ∃ a, x = .ok a ∧ f a = .ok b := by
  rcases x with stop | a
  · cases h
  · exact ⟨a, rfl, h⟩

/-- Whatever error code the parser may stop with meets `P`. -/
def Raises {α : Type} (P : ℕ → Prop) (x : Except PsiStop α) : Prop :=
  ∀ code, x = .error (.error code) → P code

section Raises

variable {α β : Type} {P : ℕ → Prop}

theorem raises_ok (a : α) : Raises P (.ok a) := by
  intro code h
  cases h

theorem raises_error {code : ℕ} (h : P code) : Raises P (.error (.error code) : Except PsiStop α) := by
  intro code' hcode
  cases hcode
  exact h

/-- Two parts of a parser, one after the other. -/
theorem Raises.bind {x : Except PsiStop α} {f : α → Except PsiStop β} (hx : Raises P x)
    (hf : ∀ a, Raises P (f a)) : Raises P (x >>= f) := by
  intro code h
  rcases x with stop | a
  · exact hx code (by cases h; rfl)
  · exact hf a code h

theorem Raises.ite {c : Prop} [Decidable c] {x y : Except PsiStop α} (hx : Raises P x)
    (hy : Raises P y) : Raises P (if c then x else y) := by
  by_cases hc : c
  · rw [if_pos hc]
    exact hx
  · rw [if_neg hc]
    exact hy

/-- A read has no error code of its own. -/
theorem raises_byte (s : PsiSection) (offset : ℕ) : Raises P (s.byte offset) := by
  intro code h
  rw [byte] at h
  rcases hb : s.bytes[offset]? with _ | b
  · rw [hb] at h
    cases h
  · rw [hb] at h
    cases h

end Raises

variable {s : PsiSection} {offset : ℕ}

theorem byte_ok {b : UInt8} (h : s.bytes[offset]? = some b) : s.byte offset = .ok b.toNat := by
  rw [byte, h]

theorem byte_overread (h : s.size ≤ offset) : s.byte offset = .error .outside := by
  rw [byte, List.getElem?_eq_none h]

/-- A byte is there exactly within the size. -/
theorem exists_byte (h : offset < s.size) : ∃ b : UInt8, s.byte offset = .ok b.toNat :=
  ⟨s.bytes[offset], byte_ok (List.getElem?_eq_getElem h)⟩

/-- A read fails only by lying outside the section. -/
theorem byte_cases (s : PsiSection) (offset : ℕ) :
    (offset < s.size ∧ ∃ n, s.byte offset = .ok n) ∨
      (s.size ≤ offset ∧ s.byte offset = .error .outside) := by
  rcases Nat.lt_or_ge offset s.size with h | h
  · obtain ⟨b, hb⟩ := exists_byte h
    exact .inl ⟨h, _, hb⟩
  · exact .inr ⟨h, byte_overread h⟩

theorem byte_eq_value {offset : ℕ} (h : offset < s.size) : s.byte offset = .ok (s.value offset) := by
  have hget := List.getElem?_eq_getElem (show offset < s.bytes.length from h)
  rw [byte_ok hget, value, hget]
  rfl

/-- What is read is in the section. -/
theorem byte_eq_ok {n : ℕ} (h : s.byte offset = .ok n) : offset < s.size ∧ n = s.value offset := by
  rcases byte_cases s offset with ⟨hlt, -⟩ | ⟨-, hout⟩
  · rw [byte_eq_value hlt] at h
    exact ⟨hlt, (Except.ok.inj h).symm⟩
  · rw [hout] at h
    cases h

theorem byte_lt {n : ℕ} (h : s.byte offset = .ok n) : n < 256 := by
  rw [byte] at h
  rcases hb : s.bytes[offset]? with _ | b
  · rw [hb] at h
    cases h
  · rw [hb] at h
    obtain rfl := Except.ok.inj h
    exact b.toNat_lt

/-- The bytes a pointer is at, one by one. -/
theorem byte_of_drop {pos k : ℕ} {l : List UInt8} {b : UInt8} (h : s.bytes.drop pos = l)
    (hb : l[k]? = some b) : s.byte (pos + k) = .ok b.toNat := by
  refine byte_ok ?_
  rw [← hb, ← h, List.getElem?_drop]

theorem octet_eq_value {k : ℕ} (h : k - 1 < s.size) : s.octet k = .ok (s.value (k - 1)) :=
  byte_eq_value h

theorem octet_overread {k : ℕ} (h : s.size ≤ k - 1) : s.octet k = .error .outside :=
  byte_overread h

theorem crc_eq {pos : ℕ} (h : s.size = pos + 4) : s.crc pos = .ok s.crc32 := by
  rw [crc, byte_eq_value (by omega), byte_eq_value (by omega), byte_eq_value (by omega),
    byte_eq_value (by omega), crc32, h]
  rfl

end PsiSection

end MediaFramework
