import Mathlib.Algebra.Order.Ring.Star
import Mathlib.Data.Nat.Cast.Order.Ring
import Mathlib.Data.Nat.SuccPred
import Mathlib.Order.Lattice.Nat
import MediaFramework.Lib.CString

/-!
# Base64 (`base64_encode`)

Three octets make four characters. Whatever is left at the end, three octets are read for it, and
then only the characters that are all padding are left out: the last one that is not has the highest
bits of whatever is behind the octets to encode. So the text is right just if nothing is left at the
end.
-/

namespace MediaFramework

namespace Base64

/-! ## The functions -/

/-- `b64_encoded_size`, for a `size_t` of `w` bits. -/
def b64EncodedSize (w inlen : ℕ) : ℕ :=
  (if inlen % 3 ≠ 0 then (inlen + (3 - inlen % 3)) % 2 ^ w else inlen) / 3 * 4 % 2 ^ w

/-- The character of an index. -/
def indexChar (index : ℕ) : UInt8 :=
  if index < 26 then UInt8.ofNat (index + 65)
  else if index < 52 then UInt8.ofNat (index + (97 - 26))
  else if index < 62 then UInt8.ofNat (index + 48 - 52)
  else if index = 62 then 43
  else 47

/-- `output[3]` to `output[0]`, the last one first. -/
def groupChars (len : ℕ) : ℕ → ℕ → List UInt8
  | 0, _ => []
  | i + 1, tmp =>
    groupChars len i (tmp >>> 6) ++ [if len < i then 61 else indexChar (tmp &&& 0x3F)]

/-- `base64_encode`: the characters that are written. What is read behind the end of the memory has
no value. -/
def base64Encode : List UInt8 → ℕ → Option (List UInt8)
  | _, 0 => some []
  | a :: b :: c :: input, remsize + 1 => do
    let len := min 3 (remsize + 1)
    let tmp := (a.toNat <<< 8 ||| b.toNat) <<< 8 ||| c.toNat
    return groupChars len 4 tmp ++ (← base64Encode input (remsize + 1 - len))
  | _, _ + 1 => none

/-! ## What a text should be -/

/-- The characters of the alphabet, by their value. -/
def alphabet : List UInt8 :=
  ascii "ABCDEFGHIJKLMNOPQRSTUVWXYZabcdefghijklmnopqrstuvwxyz0123456789+/"

/-- The character of a value. -/
def char (k : ℕ) : UInt8 := alphabet.getD k 0

/-- The value of a character. -/
def value (c : UInt8) : Option ℕ := alphabet.findIdx? (· == c)

/-- The text of some octets. The bits that are missing at the end are zero. -/
def text : List UInt8 → List UInt8
  | [] => []
  | [a] => [char (a.toNat / 4), char (a.toNat % 4 * 16), 61, 61]
  | [a, b] =>
    [char (a.toNat / 4), char (a.toNat % 4 * 16 + b.toNat / 16), char (b.toNat % 16 * 4), 61]
  | a :: b :: c :: s =>
    [char (a.toNat / 4), char (a.toNat % 4 * 16 + b.toNat / 16),
      char (b.toNat % 16 * 4 + c.toNat / 64), char (c.toNat % 64)] ++ text s

/-- The octets of a text: the values of four characters make three octets, and `=` stands only at
the end, with zero bits in front of it. -/
def decode : List UInt8 → Option (List UInt8)
  | [] => some []
  | a :: b :: c :: d :: s => do
    let x ← value a
    let y ← value b
    if c = 61 ∧ d = 61 ∧ s = [] then
      if y % 16 = 0 then some [UInt8.ofNat (x * 4 + y / 16)] else none
    else
      let z ← value c
      if d = 61 ∧ s = [] then
        if z % 4 = 0 then some [UInt8.ofNat (x * 4 + y / 16), UInt8.ofNat (y % 16 * 16 + z / 4)]
        else none
      else
        let u ← value d
        return [UInt8.ofNat (x * 4 + y / 16), UInt8.ofNat (y % 16 * 16 + z / 4),
          UInt8.ofNat (z % 4 * 64 + u)] ++ (← decode s)
  | _ => none

/-- The octets are encoded well: to a text that only they make, wherever they are in memory and also
with nothing behind them, of the size that was computed; and it is the text of the octets, with `=`
just if some are left at the end. -/
def EncodesWell (w : ℕ) (s : List UInt8) : Prop :=
  ∃ out, (∀ rest, base64Encode (s ++ rest) s.length = some out) ∧
    out.length = b64EncodedSize w s.length ∧ out = text s ∧ decode out = some s ∧
    (61 ∈ out ↔ s.length % 3 ≠ 0)

/-! ## The text of octets -/

theorem alphabet_spec : ∀ k : Fin 64,
    indexChar k = char k ∧ value (char k) = some k.val ∧ char k ≠ 61 := by
  decide +kernel

variable {w : ℕ} {a b c : UInt8} {s : List UInt8}

theorem indexChar_of_lt {k : ℕ} (h : k < 64) : indexChar k = char k := (alphabet_spec ⟨k, h⟩).1

theorem value_of_lt {k : ℕ} (h : k < 64) : value (char k) = some k := (alphabet_spec ⟨k, h⟩).2.1

theorem ne_pad_of_lt {k : ℕ} (h : k < 64) : char k ≠ 61 := (alphabet_spec ⟨k, h⟩).2.2

theorem ofNat_of_eq {k : ℕ} (h : k = a.toNat) : UInt8.ofNat k = a := by
  rw [h, UInt8.ofNat_toNat]

/-- **The text is decoded.** -/
theorem decode_text (s : List UInt8) : decode (text s) = some s := by
  fun_induction text s with
  | case1 => rfl
  | case2 a =>
    have ha := a.toNat_lt
    have hfirst : UInt8.ofNat (a.toNat / 4 * 4 + a.toNat % 4 * 16 / 16) = a :=
      ofNat_of_eq (by omega)
    have hzero : a.toNat % 4 * 16 % 16 = 0 := Nat.mul_mod_left _ _
    rw [decode, value_of_lt (by omega), value_of_lt (by omega)]
    simp only [Option.bind_eq_bind, Option.bind_some, and_self, if_true, hzero, hfirst]
  | case3 a b =>
    have ha := a.toNat_lt
    have hb := b.toNat_lt
    have hfirst : UInt8.ofNat (a.toNat / 4 * 4 + (a.toNat % 4 * 16 + b.toNat / 16) / 16) = a :=
      ofNat_of_eq (by omega)
    have hsecond : UInt8.ofNat ((a.toNat % 4 * 16 + b.toNat / 16) % 16 * 16 +
        b.toNat % 16 * 4 / 4) = b := ofNat_of_eq (by omega)
    have hpad : char (b.toNat % 16 * 4) ≠ 61 := ne_pad_of_lt (by omega)
    have hzero : b.toNat % 16 * 4 % 4 = 0 := Nat.mul_mod_left _ _
    rw [decode, value_of_lt (by omega), value_of_lt (by omega), value_of_lt (by omega)]
    simp only [Option.bind_eq_bind, Option.bind_some, hpad, false_and, and_self, if_true, if_false,
      hzero, hfirst, hsecond]
  | case4 a b c s ih =>
    have ha := a.toNat_lt
    have hb := b.toNat_lt
    have hc := c.toNat_lt
    have hfirst : UInt8.ofNat (a.toNat / 4 * 4 + (a.toNat % 4 * 16 + b.toNat / 16) / 16) = a :=
      ofNat_of_eq (by omega)
    have hsecond : UInt8.ofNat ((a.toNat % 4 * 16 + b.toNat / 16) % 16 * 16 +
        (b.toNat % 16 * 4 + c.toNat / 64) / 4) = b := ofNat_of_eq (by omega)
    have hthird : UInt8.ofNat ((b.toNat % 16 * 4 + c.toNat / 64) % 4 * 64 + c.toNat % 64) = c :=
      ofNat_of_eq (by omega)
    have hpad : char (c.toNat % 64) ≠ 61 := ne_pad_of_lt (by omega)
    rw [List.cons_append, List.cons_append, List.cons_append, List.cons_append, List.nil_append,
      decode, value_of_lt (by omega), value_of_lt (by omega), value_of_lt (by omega),
      value_of_lt (by omega), ih]
    simp only [Option.bind_eq_bind, Option.bind_some, hpad, false_and, and_false, if_false, hfirst,
      hsecond, hthird]
    rfl

theorem char_inj {j k : ℕ} (hj : j < 64) (hk : k < 64) : char j = char k ↔ j = k := by
  refine ⟨fun h => ?_, fun h => by rw [h]⟩
  have hvalue := congrArg value h
  rwa [value_of_lt hj, value_of_lt hk, Option.some_inj] at hvalue

theorem length_text (s : List UInt8) : (text s).length = (s.length + 2) / 3 * 4 := by
  fun_induction text s with
  | case1 | case2 | case3 => simp
  | case4 a b c s ih =>
    simp only [List.length_append, List.length_cons, List.length_nil, ih]
    omega

/-- **The padding.** -/
theorem pad_mem_text_iff (s : List UInt8) : 61 ∈ text s ↔ s.length % 3 ≠ 0 := by
  fun_induction text s with
  | case1 => simp
  | case2 a => simp
  | case3 a b => simp
  | case4 a b c s ih =>
    have ha := a.toNat_lt
    have hb := b.toNat_lt
    have hc := c.toNat_lt
    have hfirst := ne_pad_of_lt (k := a.toNat / 4) (by omega)
    have hsecond := ne_pad_of_lt (k := a.toNat % 4 * 16 + b.toNat / 16) (by omega)
    have hthird := ne_pad_of_lt (k := b.toNat % 16 * 4 + c.toNat / 64) (by omega)
    have hfourth := ne_pad_of_lt (k := c.toNat % 64) (by omega)
    have hlength : (a :: b :: c :: s).length % 3 = s.length % 3 := by
      simp only [List.length_cons]
      omega
    rw [hlength, ← ih]
    simp [hfirst.symm, hsecond.symm, hthird.symm, hfourth.symm]

/-! ## What is written -/

/-- **A group**, of which the first `len` octets are to be encoded. -/
theorem groupChars_eq (len : ℕ) (a b c : UInt8) (hlen : 0 < len) :
    groupChars len 4 ((a.toNat <<< 8 ||| b.toNat) <<< 8 ||| c.toNat) =
      [char (a.toNat / 4), char (a.toNat % 4 * 16 + b.toNat / 16),
        if len < 2 then 61 else char (b.toNat % 16 * 4 + c.toNat / 64),
        if len < 3 then 61 else char (c.toNat % 64)] := by
  have ha := a.toNat_lt
  have hb := b.toNat_lt
  have hc := c.toNat_lt
  obtain ⟨tmp, htmp⟩ : ∃ tmp, tmp = (a.toNat <<< 8 ||| b.toNat) <<< 8 ||| c.toNat := ⟨_, rfl⟩
  have hsum : tmp = (a.toNat * 256 + b.toNat) * 256 + c.toNat := by
    rw [htmp, ← Nat.shiftLeft_add_eq_or_of_lt hb, ← Nat.shiftLeft_add_eq_or_of_lt hc,
      Nat.shiftLeft_eq, Nat.shiftLeft_eq]
  have hindex : ∀ k, k &&& 0x3F = k % 64 := fun k => Nat.and_two_pow_sub_one_eq_mod k 6
  have hchar : ∀ k j, k % 64 = j → indexChar (k &&& 0x3F) = char j := by
    rintro k j rfl
    rw [hindex, indexChar_of_lt (Nat.mod_lt _ (by decide))]
  have hshift : ∀ k : ℕ, k >>> 6 = k / 64 := fun k => Nat.shiftRight_eq_div_pow k 6
  rw [← htmp]
  simp only [groupChars, List.nil_append, List.cons_append, hshift]
  rw [if_neg (Nat.not_lt_zero _), if_neg (show ¬ len < 1 by omega),
    hchar _ (a.toNat / 4) (by omega), hchar _ (a.toNat % 4 * 16 + b.toNat / 16) (by omega),
    hchar _ (b.toNat % 16 * 4 + c.toNat / 64) (by omega), hchar _ (c.toNat % 64) (by omega)]

/-- What is behind the octets is there to be read, and its bits that come into the text are zero. -/
def ClearBehind (n : ℕ) (rest : List UInt8) : Prop :=
  (n % 3 = 1 → 2 ≤ rest.length ∧ (rest.getD 0 0).toNat < 16) ∧
    (n % 3 = 2 → 1 ≤ rest.length ∧ (rest.getD 0 0).toNat < 64)

/-- **What is behind the octets.** The text is the right one just if nothing is left at the end, or
what is read behind it is clear. -/
theorem base64Encode_eq_text_iff (s rest : List UInt8) :
    base64Encode (s ++ rest) s.length = some (text s) ↔ ClearBehind s.length rest := by
  fun_induction text s with
  | case1 => simp [base64Encode, ClearBehind]
  | case2 a =>
    match rest with
    | [] | [_] => simp [base64Encode, ClearBehind]
    | x :: y :: rest =>
      have hx := x.toNat_lt
      have hsecond : char (a.toNat % 4 * 16 + x.toNat / 16) = char (a.toNat % 4 * 16) ↔
          x.toNat < 16 := by
        rw [char_inj (by omega) (by omega)]
        omega
      simp [base64Encode, groupChars_eq, ClearBehind, hsecond]
  | case3 a b =>
    match rest with
    | [] => simp [base64Encode, ClearBehind]
    | x :: rest =>
      have hx := x.toNat_lt
      have hthird : char (b.toNat % 16 * 4 + x.toNat / 64) = char (b.toNat % 16 * 4) ↔
          x.toNat < 64 := by
        rw [char_inj (by omega) (by omega)]
        omega
      simp [base64Encode, groupChars_eq, ClearBehind, hthird]
  | case4 a b c s ih =>
    have hlength : (a :: b :: c :: s).length % 3 = s.length % 3 := by
      simp only [List.length_cons]
      omega
    have hclear : ClearBehind (a :: b :: c :: s).length rest ↔ ClearBehind s.length rest := by
      rw [ClearBehind, hlength, ClearBehind]
    have hremsize : (a :: b :: c :: s).length = s.length + 2 + 1 := rfl
    rw [hclear, ← ih, hremsize]
    cases hrest : base64Encode (s ++ rest) s.length <;> simp [base64Encode, groupChars_eq, hrest]

/-- **The octets are encoded well** just if none are left at the end behind groups of three. -/
theorem encodesWell_iff (w : ℕ) (s : List UInt8) :
    EncodesWell w s ↔ s.length % 3 = 0 ∧ s.length / 3 * 4 < 2 ^ w := by
  have hsize : s.length % 3 = 0 →
      ((text s).length = b64EncodedSize w s.length ↔ s.length / 3 * 4 < 2 ^ w) := fun h => by
    have hgroups : (s.length + 2) / 3 = s.length / 3 := by omega
    rw [length_text, hgroups, b64EncodedSize, if_neg (not_not.mpr h)]
    exact ⟨fun h => h ▸ Nat.mod_lt _ (Nat.two_pow_pos w), fun h => (Nat.mod_eq_of_lt h).symm⟩
  constructor
  · rintro ⟨out, hout, hlength, rfl, -, -⟩
    -- with nothing behind them, what is left at the end cannot be read
    have hnone := (base64Encode_eq_text_iff s []).mp (hout [])
    have hgroups : s.length % 3 = 0 := by
      have hone : s.length % 3 ≠ 1 := fun h => absurd (hnone.1 h).1 (by decide)
      have htwo : s.length % 3 ≠ 2 := fun h => absurd (hnone.2 h).1 (by decide)
      omega
    exact ⟨hgroups, (hsize hgroups).mp hlength⟩
  · rintro ⟨hgroups, hlt⟩
    have hclear : ∀ rest, ClearBehind s.length rest := fun rest =>
      ⟨fun h => by omega, fun h => by omega⟩
    exact ⟨text s, fun rest => (base64Encode_eq_text_iff s rest).mpr (hclear rest),
      (hsize hgroups).mpr hlt, rfl, decode_text s, pad_mem_text_iff s⟩

/-- A single octet in front of others: their bits come into the text. -/
theorem not_encodesWell_oneOctet : ¬ EncodesWell 32 [0x41] := by
  rintro ⟨out, hout, -, rfl, -⟩
  have hbits : base64Encode [0x41, 0xFF, 0xFF] 1 = some (ascii "Qf==") := by decide
  have htext : text [0x41] = ascii "QQ==" := by decide
  have := hbits.symm.trans (hout [0xFF, 0xFF])
  rw [htext] at this
  cases this

example : base64Encode (ascii "spot-1") 6 = some (ascii "c3BvdC0x") := by decide

end Base64

end MediaFramework
