import MediaFramework.Lib.ByteOrder

/-!
# Messages with a length field

A message on a stream of bytes is a head, the number of the bytes that follow, and these bytes. A
reader gets some first bytes of the stream, however many there were at the time.

`eq_message`: when the length field of what was read says that it ends where the reading ended, it
is the whole message that the stream begins with, no matter what of the stream had been written.
-/

namespace MediaFramework.Framing

/-- A message: its head, the length of its payload in `k` bytes, and the payload. -/
def message (o : ByteOrder) (k : ℕ) (head payload : List UInt8) : List UInt8 :=
  head ++ o.bytes k payload.length ++ payload

/-- The number in the `k` bytes from `i` on. -/
def lengthField (o : ByteOrder) (i k : ℕ) (bytes : List UInt8) : ℕ :=
  o.value ((bytes.drop i).take k)

/-- What was read ends where its length field says. -/
def IsWhole (o : ByteOrder) (i k : ℕ) (bytes : List UInt8) : Prop :=
  i + k ≤ bytes.length ∧ bytes.length = i + k + lengthField o i k bytes

instance (o : ByteOrder) (i k : ℕ) (bytes : List UInt8) : Decidable (IsWhole o i k bytes) :=
  inferInstanceAs (Decidable (_ ∧ _))

variable {o : ByteOrder} {i k : ℕ} {head payload bytes xs ys : List UInt8}

@[simp] theorem length_message :
    (message o k head payload).length = head.length + k + payload.length := by
  simp [message, Nat.add_assoc]

/-- The length field of what a message begins, or what begins with it. -/
theorem lengthField_append (h : i + k ≤ xs.length) :
    lengthField o i k (xs ++ ys) = lengthField o i k xs := by
  have hlen : k ≤ (xs.drop i).length := by
    rw [List.length_drop]
    omega
  rw [lengthField, List.drop_append_of_le_length (by omega), List.take_append_of_le_length hlen]
  rfl

theorem lengthField_message (h : payload.length < 256 ^ k) :
    lengthField o head.length k (message o k head payload) = payload.length := by
  rw [lengthField, message, List.append_assoc, List.drop_left, List.take_left' (by simp)]
  exact ByteOrder.value_bytes h

theorem isWhole_message (h : payload.length < 256 ^ k) :
    IsWhole o head.length k (message o k head payload) := by
  refine ⟨by simp, ?_⟩
  rw [lengthField_message h, length_message]

/-- **What is read whole.** Of two lists the one begins the other, the one is a message and the
other is whole: then they are the same. -/
theorem eq_message (h : payload.length < 256 ^ k)
    (hfix : bytes <+: message o k head payload ∨ message o k head payload <+: bytes)
    (hwhole : IsWhole o head.length k bytes) : bytes = message o k head payload := by
  obtain ⟨hle, hlen⟩ := hwhole
  obtain ⟨-, hmsg⟩ : IsWhole o head.length k (message o k head payload) := isWhole_message h
  rcases hfix with ⟨zs, hzs⟩ | ⟨zs, hzs⟩
  · rw [← hzs, lengthField_append hle, ← hlen, List.length_append] at hmsg
    have hnil : zs = [] := List.eq_nil_of_length_eq_zero (by omega)
    rw [← hzs, hnil, List.append_nil]
  · rw [← hzs, lengthField_append (by simp), ← hmsg, List.length_append] at hlen
    have hnil : zs = [] := List.eq_nil_of_length_eq_zero (by omega)
    rw [← hzs, hnil, List.append_nil]

end MediaFramework.Framing
