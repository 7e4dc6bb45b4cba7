import MediaFramework.Rbi.TsPacket

/-!
# PES packets in the payload of TS packets

A PES packet begins with a header that says in its ninth byte how many bytes more it has; what is
behind it belongs to the elementary stream.
-/

namespace MediaFramework

/-- The length of the header a PES packet begins with. -/
def pesHeaderLength (bytes : List UInt8) : ℕ := 9 + (bytes.getD 8 0).toNat

/-- The header is there from end to end. -/
def HeaderComplete (bytes : List UInt8) : Prop := pesHeaderLength bytes ≤ bytes.length

instance (bytes : List UInt8) : Decidable (HeaderComplete bytes) :=
  inferInstanceAs (Decidable (_ ≤ _))

namespace Packet

variable (p : Packet)

/-- The payload of a packet that has one. -/
def content : List UInt8 := if p.hasPayload then p.payloadBytes else []

/-- A PES packet begins in the packet. -/
def startsPES : Bool := p.hasPayload && p.payloadStart

/-- Where the elementary stream begins in a packet that has a PES header. -/
def elementaryOffset : ℕ := p.payload + pesHeaderLength p.content

variable {p}

theorem content_of_hasPayload (h : p.hasPayload = true) : p.content = p.payloadBytes := if_pos h

theorem length_content (h : p.hasPayload = true) : p.content.length = 188 - p.payload := by
  rw [content_of_hasPayload h, payloadBytes, length_load]

/-- A byte of the payload. -/
theorem content_getD (h : p.hasPayload = true) {i : ℕ} (hi : i < p.content.length) (d : UInt8) :
    p.content.getD i d = p (p.payload + i) := by
  rw [length_content h] at hi
  rw [content_of_hasPayload h, payloadBytes, load, List.getD_eq_getElem?_getD, List.getElem?_map,
    List.getElem?_range hi]
  rfl

end Packet

end MediaFramework
