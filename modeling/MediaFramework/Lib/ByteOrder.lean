import MediaFramework.Lib.BitNumber

/-!
# The machine's byte order

A machine keeps a number in adjacent bytes, the highest first or the lowest first. Which of the two
it is does not matter to what reads its own numbers back (`ByteOrder.value_bytes`); the bytes are
the number's octets, from one end or the other.
-/

namespace MediaFramework

/-- Which end of a number its first byte is. -/
inductive ByteOrder
  | big
  | little
deriving DecidableEq, Repr

namespace ByteOrder

/-- The bytes in which a number is kept. -/
def bytes (o : ByteOrder) (k n : ℕ) : List UInt8 :=
  match o with
  | big => toOctets k n
  | little => (toOctets k n).reverse

/-- The number that bytes keep. -/
def value (o : ByteOrder) (bytes : List UInt8) : ℕ :=
  match o with
  | big => ofOctets bytes
  | little => ofOctets bytes.reverse

variable {o : ByteOrder} {k n : ℕ}

@[simp] theorem length_bytes : (o.bytes k n).length = k := by
  cases o <;> simp [bytes]

/-- A number is read back as it was kept. -/
theorem value_bytes (h : n < 256 ^ k) : o.value (o.bytes k n) = n := by
  cases o with
  | big => exact ofOctets_toOctets k n h
  | little =>
    rw [value, bytes, List.reverse_reverse]
    exact ofOctets_toOctets k n h

theorem value_lt (xs : List UInt8) : o.value xs < 256 ^ xs.length := by
  cases o with
  | big => exact ofOctets_lt xs
  | little =>
    rw [← List.length_reverse]
    exact ofOctets_lt xs.reverse

/-- As many bytes that keep one number are the same. -/
theorem eq_of_value_eq {xs ys : List UInt8} (hlen : xs.length = ys.length)
    (h : o.value xs = o.value ys) : xs = ys := by
  cases o with
  | big => exact eq_of_ofOctets_eq hlen h
  | little =>
    apply List.reverse_injective
    exact eq_of_ofOctets_eq (by simpa using hlen) h

/-- The bytes of 0. -/
@[simp] theorem bytes_zero : o.bytes k 0 = List.replicate k 0 := by
  have hzero : toOctets k 0 = List.replicate k 0 := by
    induction k with
    | zero => rfl
    | succ k ih =>
      rw [toOctets, Nat.zero_div, ih, List.replicate_succ']
      rfl
  cases o with
  | big => exact hzero
  | little => rw [bytes, hzero, List.reverse_replicate]

end ByteOrder

end MediaFramework
