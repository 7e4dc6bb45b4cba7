import MediaFramework.Lib.BitNumber
import MediaFramework.Lib.CString
import MediaFramework.Lib.Loop

/-!
# Bytes as text (`vlPrintBytesToString`, `vlPrintLongToString`)

Bytes, or those of a number, are printed in hexadecimal digits behind `0x`, into a buffer of which
the size is given. The loop goes on while there is a place for the first digit and one more
character, so the two digits always fit. The terminator comes behind the last digit, wherever that
is: in a buffer of an even size the digits of as many bytes as there is room for leave no place for
it.
-/

namespace MediaFramework

namespace HexString

/-! ## The functions -/

/-- `ToHex` -/
def toHex (c : UInt8) : UInt8 := if c ≤ 9 then c + 48 else c + 55

/-- A character is written to the destination, which has only so many. -/
def put (pszString : List UInt8) (i : ℕ) (c : UInt8) : Option (List UInt8) :=
  if i < pszString.length then some (pszString.set i c) else none

/-- `strcpy(pszString, "0x")` -/
def putPrefix (pszString : List UInt8) : Option (List UInt8) := do
  put (← put (← put pszString 0 48) 1 120) 2 0

/-- The two digits of a character. -/
def putDigits (pszString : List UInt8) (ix : ℕ) (c : UInt8) : Option (List UInt8) := do
  put (← put pszString (ix * 2 + 2) (toHex ((c >>> 4) &&& 0x0F))) (ix * 2 + 3)
    (toHex ((c >>> 0) &&& 0x0F))

/-- A round of the loop, with the terminator when it is over. -/
def round (limit : ℤ) (charAt : ℕ → Option UInt8) :
    ℕ × List UInt8 → Option (List UInt8) ⊕ (ℕ × List UInt8)
  | (ix, pszString) =>
    if (ix : ℤ) < limit ∧ (ix : ℤ) * 2 < pszString.length - 3 then
      match (charAt ix).bind (putDigits pszString ix) with
      | none => .inl none
      | some pszString => .inr (ix + 1, pszString)
    else .inl (put pszString (ix * 2 + 2) 0)

/-- Both functions: at most `limit` characters, each from where `charAt` has it. There are no more
rounds than characters in the destination. -/
def print (limit : ℤ) (charAt : ℕ → Option UInt8) (pszString : List UInt8) :
    Option (List UInt8) := do
  let pszString ← putPrefix pszString
  (iterate (round limit charAt) pszString.length (0, pszString)).join

/-- `vlPrintBytesToString`: `nStrSize` is the length of the destination. -/
def vlPrintBytesToString (nBytes : ℤ) (pBytes : List UInt8) (pszString : List UInt8) :
    Option (List UInt8) :=
  print nBytes (fun ix => pBytes[ix]?) pszString

/-- The character of a number. It cannot be shifted by more bits than it has. -/
def longChar (nBytes : ℤ) (nLong : BitVec 64) (ix : ℕ) : Option UInt8 :=
  let bits := (nBytes - (ix + 1)) * 8
  if 0 ≤ bits ∧ bits < 64 then some (UInt8.ofNat (nLong.toNat >>> bits.toNat &&& 0xFF)) else none

/-- `vlPrintLongToString`: not more characters than `sizeof(nLong)`. -/
def vlPrintLongToString (nBytes : ℤ) (nLong : BitVec 64) (pszString : List UInt8) :
    Option (List UInt8) :=
  print (min nBytes 8) (longChar nBytes nLong) pszString

/-! ## What should be printed -/

/-- The digits, in upper case. -/
def digit (k : ℕ) : UInt8 := (ascii "0123456789ABCDEF").getD k 0

/-- Bytes as text, without the terminator. -/
def text (bytes : List UInt8) : List UInt8 :=
  ascii "0x" ++ bytes.flatMap fun b => [digit (b.toNat / 16), digit (b.toNat % 16)]

/-- The longest part at the front whose text fits, with the terminator. -/
structure LongestFitting (size : ℕ) (bytes part : List UInt8) : Prop where
  front : part <+: bytes
  fits : (text part).length < size
  longest : ∀ other, other <+: bytes → (text other).length < size → other.length ≤ part.length

/-- Into every destination of the size the text of what fits is printed. Nothing is written outside
it, nor behind the terminator. -/
def Prints (print : List UInt8 → Option (List UInt8)) (size : ℕ) (bytes : List UInt8) : Prop :=
  ∀ pszString : List UInt8, pszString.length = size → ∃ part, LongestFitting size bytes part ∧
    print pszString = some (text part ++ 0 :: pszString.drop ((text part).length + 1))

/-! ## The loop -/

variable {limit nBytes : ℤ} {charAt : ℕ → Option UInt8} {size n : ℕ} {bytes tail : List UInt8}
  {b : UInt8}

@[simp] theorem length_text (bytes : List UInt8) : (text bytes).length = 2 * bytes.length + 2 := by
  have hprefix : (ascii "0x").length = 2 := rfl
  induction bytes with
  | nil => rfl
  | cons b bytes ih =>
    simp only [text, List.length_append, hprefix, List.flatMap_cons, List.length_cons,
      List.length_nil] at ih ⊢
    omega

theorem text_concat (bytes : List UInt8) (b : UInt8) :
    text (bytes ++ [b]) = text bytes ++ [digit (b.toNat / 16), digit (b.toNat % 16)] := by
  simp [text, List.flatMap_append]

theorem toHex_eq (k : Fin 16) : toHex (UInt8.ofNat k) = digit k := by
  revert k
  decide

theorem toHex_high (b : UInt8) : toHex ((b >>> 4) &&& 0x0F) = digit (b.toNat / 16) := by
  have hlt : b.toNat / 16 < 16 := by
    have := b.toNat_lt
    omega
  have hnibble : (b >>> 4) &&& 0x0F = UInt8.ofNat (b.toNat / 16) := by
    refine UInt8.toNat_inj.mp ?_
    rw [UInt8.toNat_and, UInt8.toNat_shiftRight, UInt8.toNat_ofNat']
    show b.toNat >>> 4 &&& 15 = _
    rw [Nat.and_two_pow_sub_one_eq_mod _ 4, Nat.shiftRight_eq_div_pow]
    omega
  rw [hnibble]
  exact toHex_eq ⟨_, hlt⟩

theorem toHex_low (b : UInt8) : toHex ((b >>> 0) &&& 0x0F) = digit (b.toNat % 16) := by
  have hnibble : (b >>> 0) &&& 0x0F = UInt8.ofNat (b.toNat % 16) := by
    refine UInt8.toNat_inj.mp ?_
    rw [UInt8.toNat_and, UInt8.toNat_shiftRight, UInt8.toNat_ofNat']
    show b.toNat >>> 0 &&& 15 = _
    rw [Nat.and_two_pow_sub_one_eq_mod _ 4, Nat.shiftRight_zero]
    omega
  rw [hnibble]
  exact toHex_eq ⟨_, Nat.mod_lt _ (by decide)⟩

theorem putPrefix_eq {pszString : List UInt8} (h : 3 ≤ pszString.length) :
    putPrefix pszString = some (text [] ++ 0 :: pszString.drop 3) := by
  match pszString, h with
  | a :: b :: c :: rest, _ =>
    simp [putPrefix, put]
    rfl

/-- A character is written behind a text. -/
theorem put_behind (xs : List UInt8) (a c : UInt8) (tail : List UInt8) :
    put (xs ++ a :: tail) xs.length c = some (xs ++ c :: tail) := by
  simp [put]

theorem putDigits_eq (bytes : List UInt8) (b a c : UInt8) (tail : List UInt8) :
    putDigits (text bytes ++ a :: c :: tail) bytes.length b =
      some (text (bytes ++ [b]) ++ tail) := by
  have hfirst : bytes.length * 2 + 2 = (text bytes).length := by
    rw [length_text]
    omega
  have hsecond : bytes.length * 2 + 3 = (text bytes ++ [digit (b.toNat / 16)]).length := by
    rw [List.length_append, length_text, List.length_singleton]
    omega
  have hput := put_behind (text bytes ++ [digit (b.toNat / 16)]) c (digit (b.toNat % 16)) tail
  rw [List.append_assoc, List.singleton_append] at hput
  rw [putDigits, toHex_high, toHex_low, hfirst, put_behind, Option.bind_eq_bind, Option.bind_some,
    hsecond, hput, text_concat, List.append_assoc, List.append_assoc]
  rfl

/-- **A round** prints a character. -/
theorem round_digits (hlimit : (bytes.length : ℤ) < limit) (hchar : charAt bytes.length = some b)
    (a c : UInt8) (tail : List UInt8) :
    round limit charAt (bytes.length, text bytes ++ a :: c :: tail) =
      .inr ((bytes ++ [b]).length, text (bytes ++ [b]) ++ tail) := by
  have hroom : (bytes.length : ℤ) * 2 < (text bytes ++ a :: c :: tail).length - 3 := by
    simp only [List.length_append, length_text, List.length_cons]
    omega
  rw [round, if_pos ⟨hlimit, hroom⟩, hchar, Option.bind_some, putDigits_eq, List.length_append]
  rfl

/-- **The rounds** print characters, as long as there are two places for each. -/
theorem iterate_digits (bytes tail : List UInt8) (hroom : 2 * bytes.length ≤ tail.length)
    (hchar : ∀ i < bytes.length, (i : ℤ) < limit ∧ charAt i = bytes[i]?) (n : ℕ) :
    iterate (round limit charAt) (n + bytes.length) (0, text [] ++ tail) =
      iterate (round limit charAt) n
        (bytes.length, text bytes ++ tail.drop (2 * bytes.length)) := by
  induction bytes using List.reverseRecOn generalizing n with
  | nil => rfl
  | append_singleton bytes b ih =>
    have hlength : (bytes ++ [b]).length = bytes.length + 1 := List.length_append
    obtain ⟨hlimit, hfirst⟩ := hchar bytes.length (by omega)
    rw [List.getElem?_concat_length] at hfirst
    have hbefore : ∀ i < bytes.length, (i : ℤ) < limit ∧ charAt i = bytes[i]? := fun i hi => by
      have hget : (bytes ++ [b])[i]? = bytes[i]? := List.getElem?_append_left hi
      exact hget ▸ hchar i (by omega)
    obtain ⟨a, c, rest, htail⟩ : ∃ a c rest, tail.drop (2 * bytes.length) = a :: c :: rest := by
      match hdrop : tail.drop (2 * bytes.length) with
      | a :: c :: rest => exact ⟨a, c, rest, rfl⟩
      | [] | [_] =>
        have := congrArg List.length hdrop
        rw [List.length_drop] at this
        simp only [List.length_cons, List.length_nil] at this
        omega
    have hdrop : tail.drop (2 * (bytes ++ [b]).length) = rest := by
      have htwo : (tail.drop (2 * bytes.length)).drop 2 = rest := by rw [htail]; rfl
      rwa [List.drop_drop, show 2 * bytes.length + 2 = 2 * (bytes ++ [b]).length by omega] at htwo
    rw [hdrop, hlength, ← Nat.add_assoc, Nat.add_right_comm, ih (by omega) hbefore, htail,
      iterate_round (round_digits hlimit hfirst a c rest), hlength]

/-- **What is printed**, or that the terminator has no place: the loop is over behind the part. -/
theorem print_eq {pszString part : List UInt8} (hsize : 3 ≤ pszString.length)
    (hroom : 2 * part.length + 2 ≤ pszString.length)
    (hchar : ∀ i < part.length, (i : ℤ) < limit ∧ charAt i = part[i]?)
    (hover : limit ≤ part.length ∨ pszString.length ≤ 2 * part.length + 3) :
    print limit charAt pszString =
      if 2 * part.length + 2 < pszString.length then
        some (text part ++ 0 :: pszString.drop ((text part).length + 1))
      else none := by
  obtain ⟨tail, htail⟩ : ∃ tail, tail = (0 :: pszString.drop 3 : List UInt8) := ⟨_, rfl⟩
  have hlength : tail.length = pszString.length - 2 := by
    rw [htail, List.length_cons, List.length_drop]
    omega
  have hrest : (tail.drop (2 * part.length)).length = pszString.length - (2 * part.length + 2) := by
    rw [List.length_drop]
    omega
  have hdest : (text part ++ tail.drop (2 * part.length)).length = pszString.length := by
    rw [List.length_append, length_text, hrest]
    omega
  have hguard : ¬ ((part.length : ℤ) < limit ∧
      (part.length : ℤ) * 2 < (text part ++ tail.drop (2 * part.length)).length - 3) := by
    rw [hdest]
    omega
  have hround : round limit charAt (part.length, text part ++ tail.drop (2 * part.length)) =
      .inl (put (text part ++ tail.drop (2 * part.length)) (part.length * 2 + 2) 0) := if_neg hguard
  obtain ⟨n, hn⟩ : ∃ n, pszString.length = n + 1 + part.length :=
    ⟨pszString.length - part.length - 1, by omega⟩
  have hstart : (text [] ++ tail).length = n + 1 + part.length := by
    rw [List.length_append, length_text, List.length_nil]
    omega
  rw [print, putPrefix_eq hsize, Option.bind_eq_bind, Option.bind_some, ← htail, hstart,
    iterate_digits part tail (by omega) hchar, iterate_leave hround, Option.join_some]
  have hplace : part.length * 2 + 2 = (text part).length := by
    rw [length_text]
    omega
  rw [hplace]
  split_ifs with hfits
  · have hbehind : tail.drop (2 * part.length) =
        tail[2 * part.length] :: pszString.drop ((text part).length + 1) := by
      rw [List.drop_eq_getElem_cons (by omega)]
      congr 1
      rw [htail, List.drop_succ_cons, List.drop_drop, length_text]
      congr 1
      omega
    rw [hbehind, put_behind]
  · exact if_neg (by rw [hdest, length_text]; omega)

/-- The part that fits has as many bytes as there are two places for. -/
theorem longestFitting_iff {part : List UInt8} (hsize : 3 ≤ size) :
    LongestFitting size bytes part ↔ part = bytes.take ((size - 3) / 2) := by
  constructor
  · rintro ⟨hfront, hfits, hlongest⟩
    have hother := hlongest (bytes.take ((size - 3) / 2)) (List.take_prefix _ _) (by
      rw [length_text, List.length_take]
      omega)
    rw [length_text] at hfits
    rw [List.length_take] at hother
    rw [List.prefix_iff_eq_take.mp hfront, List.take_eq_take_iff]
    omega
  · rintro rfl
    refine ⟨List.take_prefix _ _, ?_, fun other hother hfits => ?_⟩
    · rw [length_text, List.length_take]
      omega
    · have hle := hother.length_le
      rw [length_text] at hfits
      rw [List.length_take]
      omega

/-- **When the text is printed.** The terminator has no place just if the size is even and the
digits of the characters take all of it. -/
theorem prints_print_iff (hsize : 3 ≤ size) (hlength : bytes.length = limit.toNat)
    (hchar : ∀ i < bytes.length, charAt i = bytes[i]?) :
    Prints (print limit charAt) size bytes ↔ size % 2 = 1 ∨ 2 * limit + 2 < size := by
  obtain ⟨part, hpart⟩ : ∃ part, part = bytes.take ((size - 2) / 2) := ⟨_, rfl⟩
  have hcount : part.length = min ((size - 2) / 2) bytes.length := by rw [hpart, List.length_take]
  have hprint : ∀ pszString : List UInt8, pszString.length = size → print limit charAt pszString =
      if 2 * part.length + 2 < size then
        some (text part ++ 0 :: pszString.drop ((text part).length + 1))
      else none := by
    rintro pszString rfl
    refine print_eq hsize (by omega) (fun i hi => ⟨by omega, ?_⟩) (by omega)
    rw [hchar i (by omega), hpart, List.getElem?_take_of_lt (by omega)]
  constructor
  · intro h
    obtain ⟨other, -, hother⟩ := h (List.replicate size 0) List.length_replicate
    rw [hprint _ List.length_replicate] at hother
    split_ifs at hother with hfits
    omega
  · intro h pszString hpsz
    refine ⟨part, (longestFitting_iff hsize).mpr ?_, ?_⟩
    · rw [hpart, List.take_eq_take_iff]
      omega
    · rw [hprint pszString hpsz, if_pos (by omega)]

theorem prints_bytes_iff {pBytes : List UInt8} (hsize : 3 ≤ size)
    (hbytes : nBytes ≤ pBytes.length) :
    Prints (vlPrintBytesToString nBytes pBytes) size (pBytes.take nBytes.toNat) ↔
      size % 2 = 1 ∨ 2 * nBytes + 2 < size := by
  refine prints_print_iff hsize ?_ fun i hi => ?_
  · rw [List.length_take]
    omega
  · rw [List.length_take] at hi
    exact (List.getElem?_take_of_lt (by omega)).symm

/-- The characters of a number are its lowest octets. -/
theorem longChar_eq {i : ℕ} (nLong : BitVec 64) (hmax : nBytes ≤ 8) (hi : i < nBytes.toNat) :
    longChar nBytes nLong i = (toOctets nBytes.toNat nLong.toNat)[i]? := by
  have hbits : ((nBytes - (i + 1)) * 8).toNat = 8 * (nBytes.toNat - 1 - i) := by omega
  have hoctet : nLong.toNat >>> (8 * (nBytes.toNat - 1 - i)) &&& 0xFF =
      nLong.toNat / 256 ^ (nBytes.toNat - 1 - i) % 256 := by
    rw [Nat.and_two_pow_sub_one_eq_mod _ 8, Nat.shiftRight_eq_div_pow, Nat.pow_mul]
  rw [getElem?_toOctets _ hi, longChar, if_pos (by omega), hbits, hoctet]
  congr 1
  refine UInt8.toNat_inj.mp ?_
  rw [UInt8.toNat_ofNat', UInt8.toNat_ofNat', Nat.mod_mod]

/-- Three places are for the prefix and the terminator. -/
theorem prints_three (limit : ℤ) (charAt : ℕ → Option UInt8) (bytes : List UInt8) :
    Prints (print limit charAt) 3 bytes := by
  intro pszString hpsz
  have hprint := print_eq hpsz.ge (by rw [hpsz]; decide)
    (fun i hi => absurd hi (Nat.not_lt_zero i) :
      ∀ i < ([] : List UInt8).length, (i : ℤ) < limit ∧ charAt i = [][i]?)
    (.inr (by rw [hpsz]; decide))
  rw [hpsz, if_pos (by decide)] at hprint
  exact ⟨[], (longestFitting_iff (Nat.le_refl 3)).mpr rfl, hprint⟩

/-- Without the first character nothing is printed. -/
theorem print_eq_none {pszString : List UInt8} (hsize : 3 < pszString.length) (hlimit : 0 < limit)
    (hchar : charAt 0 = none) : print limit charAt pszString = none := by
  obtain ⟨tail, htail⟩ : ∃ tail, tail = (text [] ++ 0 :: pszString.drop 3 : List UInt8) := ⟨_, rfl⟩
  obtain ⟨n, hn⟩ : ∃ n, tail.length = n + 1 := ⟨pszString.length - 1, by
    rw [htail, List.length_append, length_text, List.length_cons, List.length_nil, List.length_drop]
    omega⟩
  have hroom : ((0 : ℕ) : ℤ) < limit ∧ ((0 : ℕ) : ℤ) * 2 < tail.length - 3 := by
    rw [htail, List.length_append, length_text, List.length_cons, List.length_nil, List.length_drop]
    omega
  have hround : round limit charAt (0, tail) = .inl none := by
    rw [round, if_pos hroom, hchar]
    rfl
  rw [print, putPrefix_eq hsize.le, Option.bind_eq_bind, Option.bind_some, ← htail, hn,
    iterate_leave hround]
  rfl

theorem prints_long_iff {nLong : BitVec 64} (hsize : 3 ≤ size) :
    Prints (vlPrintLongToString nBytes nLong) size (toOctets nBytes.toNat nLong.toNat) ↔
      size = 3 ∨ nBytes ≤ 8 ∧ (size % 2 = 1 ∨ 2 * nBytes + 2 < size) := by
  by_cases hmax : nBytes ≤ 8
  · have hmin : min nBytes 8 = nBytes := min_eq_left hmax
    have hprints : Prints (vlPrintLongToString nBytes nLong) size
        (toOctets nBytes.toNat nLong.toNat) ↔ size % 2 = 1 ∨ 2 * nBytes + 2 < size := by
      refine Iff.trans (prints_print_iff hsize ?_ fun i hi => ?_) (by rw [hmin])
      · rw [length_toOctets, hmin]
      · rw [length_toOctets] at hi
        exact longChar_eq nLong hmax hi
    rw [hprints]
    omega
  · rcases Nat.eq_or_lt_of_le hsize with rfl | hlt
    · exact iff_of_true (prints_three _ _ _) (.inl rfl)
    · -- the first character would be shifted by 64 bits or more
      have hfirst : longChar nBytes nLong 0 = none := if_neg (by omega)
      refine iff_of_false (fun h => ?_) (by omega)
      obtain ⟨part, -, hpart⟩ := h (List.replicate size 0) List.length_replicate
      rw [vlPrintLongToString, print_eq_none (by rwa [List.length_replicate]) (by omega) hfirst]
        at hpart
      cases hpart

/-- **The texts are printed** into a buffer of an odd size, and into one of an even size as long as
the digits do not take all of it; of a number, moreover, no more bytes may be asked for than it
has. -/
theorem prints_iff {pBytes : List UInt8} {nLong : BitVec 64} (hsize : 3 ≤ size)
    (hbytes : nBytes ≤ pBytes.length) :
    (Prints (vlPrintBytesToString nBytes pBytes) size (pBytes.take nBytes.toNat) ↔
      size % 2 = 1 ∨ 2 * nBytes + 2 < size) ∧
    (Prints (vlPrintLongToString nBytes nLong) size (toOctets nBytes.toNat nLong.toNat) ↔
      size = 3 ∨ nBytes ≤ 8 ∧ (size % 2 = 1 ∨ 2 * nBytes + 2 < size)) :=
  ⟨prints_bytes_iff hsize hbytes, prints_long_iff hsize⟩

theorem prints_iff_address :
    (Prints (vlPrintBytesToString 2 [0xC0, 0xA8]) 7 [0xC0, 0xA8] ↔
      7 % 2 = 1 ∨ 2 * (2 : ℤ) + 2 < 7) ∧
    (Prints (vlPrintLongToString 2 0xC0A8) 7 (toOctets 2 0xC0A8) ↔
      7 = 3 ∨ (2 : ℤ) ≤ 8 ∧ (7 % 2 = 1 ∨ 2 * (2 : ℤ) + 2 < 7)) :=
  prints_iff (by decide) (by decide)

/-- One byte in a buffer of four characters: the terminator is written behind it. -/
theorem not_prints_fourChars : ¬ Prints (vlPrintBytesToString 1 [0x41]) 4 [0x41] := by
  intro h
  obtain ⟨part, -, hpart⟩ := h [0, 0, 0, 0] rfl
  cases (show vlPrintBytesToString 1 [0x41] [0, 0, 0, 0] = none by decide).symm.trans hpart

example : vlPrintBytesToString 2 [0x3F, 0xA0] [9, 9, 9, 9, 9, 9, 9, 9] =
    some (ascii "0x3FA0" ++ [0, 9]) := by decide

end HexString

end MediaFramework
