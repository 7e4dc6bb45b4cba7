import MediaFramework.Lib.Bits
import MediaFramework.Lib.Run
import Mathlib.Data.List.Basic

/-!
# Messages to and from the tuner reservation manager

The connection carries messages, each a header of sixteen bytes, the last four of them the length of
the payload, and the payload. `TunerReservationHelperThread` reads a header by one call of `read` and
a payload by another one, and takes what a call returns for the whole of it; `url_request_post` writes
a message by one call of `write`, and takes any count but zero for success.

`Reader` is the thread, with what is in the connection: bytes that were sent and not read.
`Reader.aligned_iff` is what it needs of each `read`.
-/

namespace MediaFramework

/-! ## Messages -/

/-- `MAX_PAYLOAD_LEN` -/
def maxPayloadLen : ℕ := 32767

/-- `header_length` -/
def headerLength : ℕ := 16

/-- A number in four octets, the highest first. -/
def bigEndian (n : ℕ) : List UInt8 :=
  [UInt8.ofNat (n / 2 ^ 24), UInt8.ofNat (n / 2 ^ 16), UInt8.ofNat (n / 2 ^ 8), UInt8.ofNat n]

/-- The four octets as they are written. -/
def octets32 (n : ℕ) : List UInt8 :=
  [UInt8.ofNat ((n &&& 0xFF000000) >>> 24), UInt8.ofNat ((n &&& 0x00FF0000) >>> 16),
    UInt8.ofNat ((n &&& 0x0000FF00) >>> 8), UInt8.ofNat ((n &&& 0x000000FF) >>> 0)]

/-- A byte of a buffer. -/
def byteAt (buf : List UInt8) (i : ℕ) : ℕ := (buf[i]?.map UInt8.toNat).getD 0

/-- `payload_length`, as it is read from a header. -/
def payloadLength (buf : List UInt8) : ℕ :=
  byteAt buf 12 <<< 24 ||| byteAt buf 13 <<< 16 ||| byteAt buf 14 <<< 8 ||| byteAt buf 15 <<< 0

/-- A message of the server. -/
structure TrmMessage where
  /-- the magic word, the type and the connection -/
  head : List UInt8
  payload : List UInt8
  length_head : head.length = 12
  payload_lt : payload.length < maxPayloadLen
  deriving DecidableEq

/-- What the server sends of it. -/
def TrmMessage.octets (m : TrmMessage) : List UInt8 :=
  m.head ++ bigEndian m.payload.length ++ m.payload

theorem octets32_eq (n : ℕ) : octets32 n = bigEndian n := by
  have h₁ : n &&& 0xFF000000 = n / 2 ^ 24 % 2 ^ 8 * 2 ^ 24 := and_mask n 8 24
  have h₂ : n &&& 0x00FF0000 = n / 2 ^ 16 % 2 ^ 8 * 2 ^ 16 := and_mask n 8 16
  have h₃ : n &&& 0x0000FF00 = n / 2 ^ 8 % 2 ^ 8 * 2 ^ 8 := and_mask n 8 8
  have h₄ : n &&& 0x000000FF = n % 2 ^ 8 := and_low n 8
  have hoctet : ∀ k, UInt8.ofNat (k % 2 ^ 8) = UInt8.ofNat k := by
    intro k
    exact UInt8.toNat_inj.mp (by simp)
  rw [octets32, bigEndian, h₁, h₂, h₃, h₄, Nat.shiftRight_eq_div_pow, Nat.shiftRight_eq_div_pow,
    Nat.shiftRight_eq_div_pow, Nat.mul_div_cancel _ (by decide), Nat.mul_div_cancel _ (by decide),
    Nat.mul_div_cancel _ (by decide), Nat.shiftRight_zero, hoctet, hoctet, hoctet, hoctet]

/-- **The length in a header.** The reader's formula undoes the writer's. -/
theorem payloadLength_bigEndian {head rest : List UInt8} {n : ℕ} (hhead : head.length = 12)
    (h : n < 2 ^ 32) : payloadLength (head ++ bigEndian n ++ rest) = n := by
  have hbyte : ∀ i, i < 4 → byteAt (head ++ bigEndian n ++ rest) (12 + i) =
      byteAt (bigEndian n) i := by
    intro i hi
    rw [byteAt, byteAt, List.append_assoc, List.getElem?_append_right (by omega), hhead,
      Nat.add_sub_cancel_left, List.getElem?_append_left (by simpa [bigEndian] using hi)]
  have h₀ : byteAt (head ++ bigEndian n ++ rest) 12 = n / 2 ^ 24 % 2 ^ 8 :=
    (hbyte 0 (by decide)).trans UInt8.toNat_ofNat'
  have h₁ : byteAt (head ++ bigEndian n ++ rest) 13 = n / 2 ^ 16 % 2 ^ 8 :=
    (hbyte 1 (by decide)).trans UInt8.toNat_ofNat'
  have h₂ : byteAt (head ++ bigEndian n ++ rest) 14 = n / 2 ^ 8 % 2 ^ 8 :=
    (hbyte 2 (by decide)).trans UInt8.toNat_ofNat'
  have h₃ : byteAt (head ++ bigEndian n ++ rest) 15 = n % 2 ^ 8 :=
    (hbyte 3 (by decide)).trans UInt8.toNat_ofNat'
  rw [payloadLength, h₀, h₁, h₂, h₃, Nat.shiftLeft_eq, Nat.shiftLeft_eq, Nat.shiftLeft_eq,
    Nat.shiftLeft_zero,
    @or_eq_add 24 (n / 2 ^ 24 % 2 ^ 8 * 2 ^ 24) (n / 2 ^ 16 % 2 ^ 8 * 2 ^ 16) (by omega) (by omega),
    @or_eq_add 16 _ (n / 2 ^ 8 % 2 ^ 8 * 2 ^ 8) (by omega) (by omega),
    @or_eq_add 8 _ (n % 2 ^ 8) (by omega) (by omega)]
  omega

namespace TrmMessage

@[simp] theorem length_octets (m : TrmMessage) : m.octets.length = 16 + m.payload.length := by
  rw [octets, List.length_append, List.length_append, m.length_head]
  rfl

theorem take_octets (m : TrmMessage) (rest : List UInt8) :
    (m.octets ++ rest).take headerLength = m.head ++ bigEndian m.payload.length := by
  rw [octets, List.append_assoc]
  refine List.take_left' ?_
  rw [List.length_append, m.length_head]
  rfl

theorem drop_octets (m : TrmMessage) (rest : List UInt8) :
    (m.octets ++ rest).drop headerLength = m.payload ++ rest := by
  rw [octets, List.append_assoc]
  refine List.drop_left' ?_
  rw [List.length_append, m.length_head]
  rfl

theorem payloadLength_octets (m : TrmMessage) (rest : List UInt8) :
    payloadLength ((m.octets ++ rest).take headerLength) = m.payload.length := by
  have h := m.payload_lt
  rw [maxPayloadLen] at h
  rw [take_octets, ← List.append_nil (m.head ++ _)]
  exact payloadLength_bigEndian m.length_head (by omega)

end TrmMessage

/-! ## The thread -/

/-- What a call of `read` comes to. -/
inductive ReadResult where
  /-- so many bytes of those that are there and were asked for -/
  | bytes (k : ℕ)
  /-- 0: the server has closed the connection, and everything was read -/
  | endOfFile
  /-- -1 -/
  | failed
  deriving DecidableEq

/-- `TunerReservationHelperThread`, and its connection. -/
structure Reader where
  is_connected : Bool
  /-- `payload_length`, when the payload is what is read next -/
  awaits : Option ℕ
  /-- sent and not read -/
  pending : List UInt8
  /-- what `processBuffer` was called with; `none` for a length of -1 -/
  calls : List (Option (List UInt8))
  /-- all that the server has sent -/
  sent : List TrmMessage
  deriving DecidableEq

/-- What can happen next. -/
inductive TrmEvent where
  /-- the server sends a message -/
  | send (m : TrmMessage)
  /-- `connect_to_trm` -/
  | connect (ok : Bool)
  /-- the thread's `read` returns -/
  | read (result : ReadResult)
  deriving DecidableEq

namespace Reader

/-- Before the first connection. -/
def start : Reader := ⟨false, none, [], [], []⟩

/-- How much the next `read` asks for. -/
def asked (r : Reader) : ℕ := r.awaits.getD headerLength

/-- The connection is given up: `connect_to_trm` closes it before it makes another one, and what is
in it is lost. -/
def disconnect (r : Reader) : Reader :=
  { r with is_connected := false, awaits := none, pending := [] }

/-- A header, or what was read of one. -/
def readHeader (r : Reader) (got : List UInt8) : Reader :=
  let buf := got ++ List.replicate (headerLength - got.length) 0
  if got.length = headerLength then
    if 0 < payloadLength buf ∧ payloadLength buf < maxPayloadLen then
      { r with awaits := some (payloadLength buf), pending := r.pending.drop headerLength }
    else r.disconnect
  else r.disconnect

/-- A payload, or what was read of one. -/
def readPayload (r : Reader) (got : List UInt8) : Reader :=
  { r with
    awaits := none
    pending := r.pending.drop got.length
    calls := r.calls ++ [some got] }

/-- Some bytes are read. With no bytes there the call does not return. -/
def readBytes (r : Reader) (k : ℕ) : Reader :=
  let got := r.pending.take (min k r.asked)
  if got = [] then r
  else if r.awaits = none then r.readHeader got else r.readPayload got

/-- `read` returns. -/
def read (r : Reader) : ReadResult → Reader
  | .bytes k => r.readBytes k
  | .endOfFile => if r.pending = [] then r.disconnect else r
  | .failed =>
    if r.awaits = none then r.disconnect
    else { r with awaits := none, calls := r.calls ++ [none] }

/-- One event. -/
def step (r : Reader) : TrmEvent → Reader
  | .send m =>
    if r.is_connected then { r with pending := r.pending ++ m.octets, sent := r.sent ++ [m] } else r
  | .connect ok => if r.is_connected then r else { r with is_connected := ok }
  | .read result => if r.is_connected then r.read result else r

/-- As a step of a run. -/
def receive (r : Reader) (e : TrmEvent) : Option Reader := some (r.step e)

/-- Where the thread is among the messages it has not passed on. -/
def Before (r : Reader) (rest : List TrmMessage) : Prop :=
  match r.awaits with
  | none => r.pending = rest.flatMap TrmMessage.octets ∧ (r.is_connected = false → rest = [])
  | some n => r.is_connected = true ∧ ∃ m more, rest = m :: more ∧ m.payload ≠ [] ∧
      n = m.payload.length ∧ r.pending = m.payload ++ more.flatMap TrmMessage.octets

/-- **Aligned.** The payloads that were passed on are those of the messages that were sent, one by
one, up to some message; and what is read next is the header of the message after it, or its payload. -/
def Aligned (r : Reader) : Prop :=
  ∃ done rest, r.sent = done ++ rest ∧ r.calls = done.map (fun m => some m.payload) ∧ r.Before rest

/-- What an event must be like. A `read` that returns bytes returns all that it was asked for, and
the payload that a header announces is not empty; and no `read` fails while there is something to
read. -/
def Whole (r : Reader) : TrmEvent → Prop
  | .read (.bytes k) => r.is_connected = true → r.pending ≠ [] → k ≠ 0 →
      r.asked ≤ k ∧ (r.awaits = none → 0 < payloadLength (r.pending.take headerLength))
  | .read .failed => r.is_connected = true → r.awaits = none ∧ r.pending = []
  | _ => True

instance (r : Reader) : ∀ e, Decidable (r.Whole e)
  | .read (.bytes _) => inferInstanceAs (Decidable (_ → _ → _ → _ ∧ (_ → _)))
  | .read .failed => inferInstanceAs (Decidable (_ → _ ∧ _))
  | .read .endOfFile => isTrue trivial
  | .send _ => isTrue trivial
  | .connect _ => isTrue trivial

/-! ## What the thread needs of its reads -/

variable {r : Reader} {rest : List TrmMessage}

theorem before_header (h : r.awaits = none) : r.Before rest ↔
    r.pending = rest.flatMap TrmMessage.octets ∧ (r.is_connected = false → rest = []) := by
  rw [Before, h]

theorem before_payload {n : ℕ} (h : r.awaits = some n) : r.Before rest ↔
    r.is_connected = true ∧ ∃ m more, rest = m :: more ∧ m.payload ≠ [] ∧ n = m.payload.length ∧
      r.pending = m.payload ++ more.flatMap TrmMessage.octets := by
  rw [Before, h]

theorem aligned_start : start.Aligned := ⟨[], [], rfl, rfl, rfl, fun _ => rfl⟩

/-- Nothing is in the connection only if nothing is left. -/
theorem rest_eq_nil (h : rest.flatMap TrmMessage.octets = []) : rest = [] := by
  rcases rest with _ | ⟨m, rest⟩
  · rfl
  · rw [List.flatMap_cons, List.append_eq_nil_iff] at h
    have := congrArg List.length h.1
    rw [m.length_octets, List.length_nil] at this
    omega

/-- Before a header, giving up is right exactly when nothing is left. -/
theorem aligned_disconnect (hat : r.awaits = none) (h : r.Aligned) :
    r.disconnect.Aligned ↔ r.pending = [] := by
  obtain ⟨done, rest, hsent, hcalls, hbefore⟩ := h
  obtain ⟨hpending, -⟩ := (before_header hat).mp hbefore
  constructor
  · rintro ⟨done', rest', hsent', hcalls', -, hrest'⟩
    obtain rfl := hrest' rfl
    -- as many payloads were passed on as messages sent
    have h₁ := congrArg List.length (hcalls.symm.trans hcalls')
    have h₂ := congrArg List.length (hsent.symm.trans hsent')
    rw [List.length_map, List.length_map] at h₁
    rw [List.length_append, List.length_append, List.length_nil] at h₂
    obtain rfl := List.length_eq_zero_iff.mp (show rest.length = 0 by omega)
    exact hpending
  · intro hnil
    obtain rfl := rest_eq_nil (hpending.symm.trans hnil)
    exact ⟨done, [], hsent, hcalls, rfl, fun _ => rfl⟩

/-- **A header.** The thread stays aligned exactly when it is read whole and announces a payload. -/
theorem aligned_readHeader {k : ℕ} (hconn : r.is_connected = true) (hat : r.awaits = none)
    (hk : k ≠ 0) (hne : r.pending ≠ []) (h : r.Aligned) : (r.readBytes k).Aligned ↔
      headerLength ≤ k ∧ 0 < payloadLength (r.pending.take headerLength) := by
  have hgive := (aligned_disconnect hat h).not.mpr hne
  obtain ⟨done, rest, hsent, hcalls, hbefore⟩ := h
  obtain ⟨hpending, -⟩ := (before_header hat).mp hbefore
  rcases rest with _ | ⟨m, more⟩
  · exact absurd hpending hne
  · rw [List.flatMap_cons] at hpending
    have hlen := congrArg List.length hpending
    rw [List.length_append, m.length_octets] at hlen
    have hasked : r.asked = headerLength := by rw [asked, hat, Option.getD_none]
    have hgot : (r.pending.take (min k headerLength)).length = min k headerLength := by
      rw [List.length_take, headerLength]
      omega
    have hsome : r.pending.take (min k headerLength) ≠ [] := by
      intro hnil
      rw [hnil, headerLength, List.length_nil] at hgot
      omega
    rw [readBytes, hasked, if_neg hsome, if_pos hat, readHeader, hgot]
    by_cases hwhole : headerLength ≤ k
    · have htake : r.pending.take (min k headerLength) = r.pending.take headerLength := by
        rw [Nat.min_eq_right hwhole]
      have hlength : payloadLength (r.pending.take headerLength) = m.payload.length := by
        rw [hpending, m.payloadLength_octets]
      rw [htake, Nat.min_eq_right hwhole, Nat.sub_self, List.replicate_zero, List.append_nil,
        if_pos rfl, hlength]
      by_cases hpay : 0 < m.payload.length
      · rw [if_pos ⟨hpay, m.payload_lt⟩]
        refine iff_of_true ⟨done, m :: more, hsent, hcalls, hconn, m, more, rfl,
          List.length_pos_iff.mp hpay, rfl, ?_⟩ ⟨hwhole, hpay⟩
        rw [hpending, m.drop_octets]
      · rw [if_neg fun h => hpay h.1]
        exact iff_of_false hgive fun h => hpay h.2
    · rw [if_neg (by omega)]
      exact iff_of_false hgive fun h => hwhole h.1

/-- What was passed on last is a payload, whole. -/
theorem last_call {done rest done' rest' : List TrmMessage} {m : TrmMessage}
    {call : Option (List UInt8)} (hsent : done ++ m :: rest = done' ++ rest')
    (hcalls : (done.map fun m => some m.payload) ++ [call] = done'.map fun m => some m.payload) :
    call = some m.payload ∧ rest' = rest := by
  have hlen := congrArg List.length hcalls
  rw [List.length_append, List.length_map, List.length_map, List.length_singleton] at hlen
  have hsent' : (done ++ [m]) ++ rest = done' ++ rest' := by
    rw [List.append_assoc]
    exact hsent
  obtain ⟨rfl, hrest⟩ := List.append_inj hsent' (by
    rw [List.length_append, List.length_singleton]
    exact hlen)
  rw [List.map_append] at hcalls
  exact ⟨List.singleton_inj.mp (List.append_cancel_left hcalls), hrest.symm⟩

/-- **A payload.** The thread stays aligned exactly when it is read whole. -/
theorem aligned_readPayload {k n : ℕ} (hat : r.awaits = some n) (hk : k ≠ 0) (h : r.Aligned) :
    (r.readBytes k).Aligned ↔ n ≤ k := by
  obtain ⟨done, rest, hsent, hcalls, hbefore⟩ := h
  obtain ⟨hconn, m, more, rfl, hpay, rfl, hpending⟩ := (before_payload hat).mp hbefore
  have hasked : r.asked = m.payload.length := by rw [asked, hat, Option.getD_some]
  have hgot : r.pending.take (min k m.payload.length) = m.payload.take k := by
    rw [hpending, List.take_append_of_le_length (Nat.min_le_right _ _),
      ← List.take_eq_take_min]
  have hsome : m.payload.take k ≠ [] := by
    have := List.length_pos_iff.mpr hpay
    rw [← List.length_pos_iff, List.length_take]
    omega
  have hnone : r.awaits ≠ none := by
    rw [hat]
    exact Option.some_ne_none _
  rw [readBytes, hasked, hgot, if_neg hsome, if_neg hnone]
  constructor
  · rintro ⟨done', rest', hsent', hcalls', -⟩
    have hcalls' : r.calls ++ [some (m.payload.take k)] = done'.map fun m => some m.payload :=
      hcalls'
    rw [hcalls] at hcalls'
    obtain ⟨hcall, -⟩ := last_call (hsent.symm.trans hsent') hcalls'
    have := congrArg List.length (Option.some.inj hcall)
    rw [List.length_take] at this
    omega
  · intro hwhole
    rw [List.take_of_length_le hwhole]
    refine ⟨done ++ [m], more, ?_, ?_, ?_, fun hoff => ?_⟩
    · rw [List.append_assoc]
      exact hsent
    · rw [List.map_append, ← hcalls]
      rfl
    · refine (congrArg (List.drop _) hpending).trans ?_
      exact List.drop_left
    · exact absurd hoff (by rw [show (r.readPayload m.payload).is_connected = true from hconn]; decide)

/-- **A failure.** It is right exactly when nothing is left to read. -/
theorem aligned_failed (h : r.Aligned) :
    (r.read .failed).Aligned ↔ r.awaits = none ∧ r.pending = [] := by
  rw [read]
  rcases hat : r.awaits with _ | n
  · rw [if_pos rfl, aligned_disconnect hat h]
    exact (and_iff_right rfl).symm
  · rw [if_neg (by exact Option.some_ne_none n)]
    refine iff_of_false ?_ fun h => Option.some_ne_none n h.1
    obtain ⟨done, rest, hsent, hcalls, hbefore⟩ := h
    obtain ⟨-, m, more, rfl, -⟩ := (before_payload hat).mp hbefore
    rintro ⟨done', rest', hsent', hcalls', -⟩
    rw [hcalls] at hcalls'
    cases (last_call (hsent.symm.trans hsent') hcalls').1

theorem aligned_endOfFile (h : r.Aligned) : (r.read .endOfFile).Aligned := by
  rw [read]
  by_cases hnil : r.pending = []
  · rw [if_pos hnil]
    rcases hat : r.awaits with _ | n
    · exact (aligned_disconnect hat h).mpr hnil
    · obtain ⟨done, rest, -, -, hbefore⟩ := h
      obtain ⟨-, m, more, -, hpay, -, hpending⟩ := (before_payload hat).mp hbefore
      rw [hnil] at hpending
      exact absurd (List.append_eq_nil_iff.mp hpending.symm).1 hpay
  · rw [if_neg hnil]
    exact h

theorem aligned_send (m : TrmMessage) (h : r.Aligned) : (r.step (.send m)).Aligned := by
  rw [step]
  rcases hconn : r.is_connected with _ | _
  · exact h
  · rw [if_pos rfl]
    obtain ⟨done, rest, hsent, hcalls, hbefore⟩ := h
    refine ⟨done, rest ++ [m], ?_, hcalls, ?_⟩
    · rw [hsent, List.append_assoc]
    · rcases hat : r.awaits with _ | n
      · obtain ⟨hpending, -⟩ := (before_header hat).mp hbefore
        refine ⟨?_, fun hoff => Bool.noConfusion hoff⟩
        rw [hpending, List.flatMap_append, List.flatMap_singleton]
      · obtain ⟨-, m', more, rfl, hpay, hn, hpending⟩ := (before_payload hat).mp hbefore
        refine ⟨rfl, m', more ++ [m], rfl, hpay, hn, ?_⟩
        rw [hpending, List.flatMap_append, List.flatMap_singleton, List.append_assoc]

theorem aligned_connect (ok : Bool) (h : r.Aligned) : (r.step (.connect ok)).Aligned := by
  rw [step]
  rcases hconn : r.is_connected with _ | _
  · rw [if_neg Bool.false_ne_true]
    obtain ⟨done, rest, hsent, hcalls, hbefore⟩ := h
    refine ⟨done, rest, hsent, hcalls, ?_⟩
    rcases hat : r.awaits with _ | n
    · obtain ⟨hpending, hrest⟩ := (before_header hat).mp hbefore
      exact ⟨hpending, fun _ => hrest hconn⟩
    · obtain ⟨hon, -⟩ := (before_payload hat).mp hbefore
      exact absurd (hconn.symm.trans hon) (by decide)
  · exact h

/-- **One event.** The thread stays aligned exactly when the event is as it must be. -/
theorem aligned_step {e : TrmEvent} (h : r.Aligned) : (r.step e).Aligned ↔ r.Whole e := by
  cases e with
  | send m => exact iff_of_true (aligned_send m h) trivial
  | connect ok => exact iff_of_true (aligned_connect ok h) trivial
  | read result =>
    rw [step]
    rcases hconn : r.is_connected with _ | _
    · rw [if_neg Bool.false_ne_true]
      refine iff_of_true h ?_
      cases result with
      | bytes k => exact fun hon => absurd (hconn.symm.trans hon) (by decide)
      | failed => exact fun hon => absurd (hconn.symm.trans hon) (by decide)
      | endOfFile => trivial
    · rw [if_pos rfl]
      cases result with
      | endOfFile => exact iff_of_true (aligned_endOfFile h) trivial
      | failed => exact (aligned_failed h).trans ⟨fun hright _ => hright, fun hwhole => hwhole hconn⟩
      | bytes k =>
        by_cases hread : r.pending ≠ [] ∧ k ≠ 0
        · obtain ⟨hne, hk⟩ := hread
          have hwhole : r.Whole (.read (.bytes k)) ↔ r.asked ≤ k ∧
              (r.awaits = none → 0 < payloadLength (r.pending.take headerLength)) :=
            ⟨fun h => h hconn hne hk, fun h _ _ _ => h⟩
          rw [hwhole, read]
          rcases hat : r.awaits with _ | n
          · rw [aligned_readHeader hconn hat hk hne h, asked, hat, Option.getD_none]
            exact and_congr_right fun _ => ⟨fun h _ => h, fun h => h rfl⟩
          · rw [aligned_readPayload hat hk h, asked, hat, Option.getD_some]
            exact ⟨fun h => ⟨h, fun hnone => absurd hnone (Option.some_ne_none n)⟩, fun h => h.1⟩
        · -- nothing is there: the call does not return
          have hnil : r.pending.take (min k r.asked) = [] := by
            rcases not_and_or.mp hread with hnil | hk
            · rw [not_not.mp hnil, List.take_nil]
            · rw [not_not.mp hk, Nat.zero_min, List.take_zero]
          rw [read, readBytes, if_pos hnil]
          exact iff_of_true h fun _ hne hk => absurd ⟨hne, hk⟩ hread

/-- **The thread.** It is aligned throughout a run exactly when every event is as it must be. -/
theorem aligned_iff (events : List TrmEvent) :
    Throughout receive Aligned start events ↔ EachStep receive Whole start events := by
  refine Throughout.iff_eachStep (fun r e hr => ?_) aligned_start
  rw [← aligned_step hr]
  exact ⟨fun ⟨s, hs, h⟩ => Option.some.inj hs ▸ h, fun h => ⟨_, rfl, h⟩⟩

end Reader

/-! ## Writing a message -/

/-- What a call of `write` comes to. -/
inductive WriteResult where
  /-- so many bytes of those that were to be written -/
  | bytes (k : ℕ)
  /-- -1 -/
  | failed
  deriving DecidableEq

/-- A payload to be sent; with the header it has an `int` for its length. -/
structure TrmRequest where
  payload : List UInt8
  length_lt : payload.length + headerLength < 2 ^ 31

/-- `UNKNOWN` -/
def unknownType : ℕ := 0x1401

/-- `recorder_connection_id` -/
def recorderConnectionId : ℕ := 0xFFFFFF00

/-- The header in front of a payload. -/
def requestHeader (payload_length : ℕ) : List UInt8 :=
  [0x54, 0x52, 0x4D, 0x53] ++ octets32 unknownType ++ octets32 recorderConnectionId ++
    octets32 payload_length

/-- What `url_request_post` leaves. -/
structure Posted where
  ret : Bool
  is_connected : Bool
  /-- what went out -/
  written : List UInt8
  deriving DecidableEq

/-- `url_request_post`, after `connect_to_trm`. -/
def urlRequestPost (is_connected : Bool) (request : TrmRequest) (write : WriteResult) : Posted :=
  if is_connected = true then
    if request.payload.length ≠ 0 then
      let buf := requestHeader request.payload.length ++ request.payload
      match write with
      | .failed => ⟨true, true, []⟩
      | .bytes k =>
        if buf.take k = [] then ⟨false, false, []⟩ else ⟨true, true, buf.take k⟩
    else ⟨false, true, []⟩
  else ⟨false, false, []⟩

/-- A message that is written at all is written whole. -/
def WholeWrite (is_connected : Bool) (request : TrmRequest) (write : WriteResult) : Prop :=
  is_connected = true → request.payload ≠ [] →
    ∃ k, write = .bytes k ∧ (k = 0 ∨ headerLength + request.payload.length ≤ k)

theorem length_requestHeader (n : ℕ) : (requestHeader n).length = headerLength := rfl

/-- The reader's formula, of a header that is written. -/
theorem payloadLength_requestHeader {n : ℕ} (h : n < 2 ^ 32) :
    payloadLength (requestHeader n) = n := by
  rw [requestHeader, octets32_eq n, ← List.append_nil (_ ++ bigEndian n)]
  exact payloadLength_bigEndian rfl h

/-- **Success is reported.** It means that the message is written exactly when what is written is
written whole. -/
theorem written_iff (is_connected : Bool) (request : TrmRequest) (write : WriteResult) :
    ((urlRequestPost is_connected request write).ret = true →
      (urlRequestPost is_connected request write).written =
        requestHeader request.payload.length ++ request.payload) ↔
      WholeWrite is_connected request write := by
  rw [urlRequestPost]
  by_cases hwrite : is_connected = true ∧ request.payload ≠ []
  · obtain ⟨hconn, hpay⟩ := hwrite
    have hwhole : WholeWrite is_connected request write ↔
        ∃ k, write = .bytes k ∧ (k = 0 ∨ headerLength + request.payload.length ≤ k) :=
      ⟨fun h => h hconn hpay, fun h _ _ => h⟩
    have hlen : (requestHeader request.payload.length ++ request.payload).length =
        headerLength + request.payload.length := by
      rw [List.length_append, length_requestHeader]
    have hne : requestHeader request.payload.length ++ request.payload ≠ [] := by
      rw [← List.length_pos_iff, hlen, headerLength]
      omega
    rw [hwhole, if_pos hconn, if_pos (fun h => hpay (List.length_eq_zero_iff.mp h))]
    cases write with
    | failed =>
      refine iff_of_false (fun h => hne (h rfl).symm) ?_
      rintro ⟨k, hk, -⟩
      cases hk
    | bytes k =>
      dsimp only
      by_cases hk : k = 0
      · rw [hk, List.take_zero, if_pos rfl]
        exact iff_of_true (fun h => absurd h Bool.false_ne_true) ⟨0, rfl, .inl rfl⟩
      · have hsome : (requestHeader request.payload.length ++ request.payload).take k ≠ [] := by
          rw [← List.length_pos_iff, List.length_take, hlen, headerLength]
          omega
        rw [if_neg hsome]
        constructor
        · intro h
          have := congrArg List.length (h rfl)
          rw [List.length_take, hlen] at this
          exact ⟨k, rfl, .inr (by omega)⟩
        · rintro ⟨k', hk', h⟩ -
          obtain rfl : k = k' := WriteResult.bytes.inj hk'
          rcases h with h | h
          · exact absurd h hk
          · exact List.take_of_length_le (by rw [hlen]; exact h)
  · refine iff_of_true ?_ fun hconn hpay => absurd ⟨hconn, hpay⟩ hwrite
    split_ifs with hconn hlen
    · exact absurd ⟨hconn, fun hnil => hlen (List.length_eq_zero_iff.mpr hnil)⟩ hwrite
    · exact False.elim
    · exact False.elim

/-! ## Both ways -/

/-- **What is expected of the framing.** The thread passes on each message's payload once and stays
aligned; a request is reported as sent only if all of it was written; and the reader's formula finds
the length in its header. -/
structure Frames (events : List TrmEvent) (is_connected : Bool) (request : TrmRequest)
    (write : WriteResult) : Prop where
  aligned : Throughout Reader.receive Reader.Aligned Reader.start events
  reported : (urlRequestPost is_connected request write).ret = true →
    (urlRequestPost is_connected request write).written =
      requestHeader request.payload.length ++ request.payload
  decoded : payloadLength (requestHeader request.payload.length) = request.payload.length

/-- **The framing.** It is as expected exactly when every read and the write are of the whole header,
payload or message, and every payload that is announced is there. -/
theorem frames_iff (events : List TrmEvent) (is_connected : Bool) (request : TrmRequest)
    (write : WriteResult) : Frames events is_connected request write ↔
      EachStep Reader.receive Reader.Whole Reader.start events ∧
        WholeWrite is_connected request write := by
  rw [← Reader.aligned_iff, ← written_iff]
  constructor
  · rintro ⟨haligned, hreported, -⟩
    exact ⟨haligned, hreported⟩
  · rintro ⟨haligned, hreported⟩
    have hlt := request.length_lt
    exact ⟨haligned, hreported, payloadLength_requestHeader (by omega)⟩

/-- A message with a payload of two bytes. -/
def twoByteMessage : TrmMessage where
  head := [0x54, 0x52, 0x4D, 0x53, 0x00, 0x00, 0x18, 0x00, 0x00, 0x00, 0x00, 0x01]
  payload := [0x7B, 0x7D]
  length_head := rfl
  payload_lt := by decide

/-- A payload read in two parts is passed on in two parts. -/
theorem not_frames_shortRead :
    ¬ ∀ events is_connected request write, Frames events is_connected request write := by
  intro h
  have haligned := (h [.connect true, .send twoByteMessage, .read (.bytes 16), .read (.bytes 1)]
    true ⟨[0x7B, 0x7D], by decide⟩ (.bytes 18)).aligned
  have := (Reader.aligned_iff _).mp haligned
  revert this
  decide +kernel

end MediaFramework
