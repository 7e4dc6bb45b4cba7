import Mathlib.Data.List.Infix
import Mathlib.Data.List.TakeWhile

/-!
# C strings

A `CString` is the contents of a NUL-terminated `char` buffer: the bytes before
the terminator, none of which is zero. `strcmp` is equality of these bytes, and
`strncpy` into a zeroed buffer keeps a prefix of them.
-/

namespace MediaFramework

/-- A NUL-terminated string: its bytes, without the terminator. -/
structure CString where
  /-- the bytes before the terminator -/
  bytes : List UInt8
  /-- the terminator is the first zero byte -/
  nulFree : ∀ b ∈ bytes, b ≠ 0
  deriving DecidableEq

/-- The bytes of a string constant. -/
def ascii (s : String) : List UInt8 := s.toList.map fun c => UInt8.ofNat c.toNat

namespace CString

/-- The string in a buffer: its bytes up to the first zero. -/
def ofBuffer (buffer : List UInt8) : CString :=
  ⟨buffer.takeWhile (· ≠ 0), fun _ hb => by simpa using List.mem_takeWhile_imp hb⟩

/-- `strstr(s, pattern) != NULL`. -/
def contains (s : CString) (pattern : List UInt8) : Bool := decide (pattern <:+: s.bytes)

/-- `strncmp(s, pattern, strlen(pattern)) == 0`. -/
def startsWith (s : CString) (pattern : List UInt8) : Bool := pattern.isPrefixOf s.bytes

/-- `strtok(s, delimiters)`, the first time. -/
def strtok (s : CString) (delimiters : List UInt8) : Option (List UInt8) :=
  match (s.bytes.dropWhile (· ∈ delimiters)).takeWhile (· ∉ delimiters) with
  | [] => none
  | token => some token

/-- `strlen`. -/
def length (s : CString) : ℕ := s.bytes.length

/-- The string left in a zeroed buffer by `strncpy(buffer, s, n)`, for a buffer
of more than `n` bytes: the first `n` bytes of `s`. -/
def strncpy (n : ℕ) (s : CString) : CString :=
  ⟨s.bytes.take n, fun b hb => s.nulFree b (List.mem_of_mem_take hb)⟩

/-- A string that fits is copied whole. -/
theorem strncpy_of_le {n : ℕ} {s : CString} (h : s.length ≤ n) : s.strncpy n = s := by
  obtain ⟨bs, hbs⟩ := s
  simp only [strncpy, CString.mk.injEq]
  exact List.take_of_length_le h

/-- What is behind the terminator does not matter. -/
theorem ofBuffer_terminated (front back : List UInt8) :
    ofBuffer (front ++ 0 :: back) = ofBuffer front := by
  have htext : (front ++ 0 :: back).takeWhile (· ≠ 0) = front.takeWhile (· ≠ 0) := by
    induction front with
    | nil => rfl
    | cons c front ih => rw [List.cons_append, List.takeWhile_cons, List.takeWhile_cons, ih]
  simp only [ofBuffer, htext]

@[simp] theorem ofBuffer_bytes (s : CString) : ofBuffer s.bytes = s := by
  obtain ⟨bs, hbs⟩ := s
  simp only [ofBuffer, CString.mk.injEq]
  exact List.takeWhile_eq_self_iff.mpr fun b hb => by simpa using hbs b hb

end CString

end MediaFramework
