import MediaFramework.Lib.Cells
import MediaFramework.Lib.Framing

/-!
# The buffers of the IPC

A client talks to a server in another process of the same machine through an `IPCBuf`; at the server
an `IPCServerBuf` is made for each connection. Both send from one array and receive into another:

    | version | command | payload length | payload |
      1 byte    4 bytes   2 bytes          up to 2048 bytes

* `Sender`, the array and the length of what has been added so far; `Sender.Holds` says which
  message it is, and each call that changes the array keeps it (`Sender.Holds.addData`, `clearBuf`);
* `Receiver`, the array and the two lengths that `collectData` goes by; `Receiver.Holds` says which
  payload it is and how much of it has been collected (`Receiver.Holds.collectData`);
* `IPCBuf` and `IPCServerBuf`, which both are one of each, and their flags. What a read of a whole
  message leaves behind is in `IPCBuf.sendCmdRead_of_isWhole` and `IPCServerBuf.recvCmd_isWhole`.

A read outside the array has no result. `assert` is taken to do nothing, as in a build without it:
with it, the call that has -2 as its result ends the program instead.
-/

namespace MediaFramework.Ipc

open Framing

/-- `IPC_VERSION` -/
abbrev version : UInt8 := 0x10

/-- `IPC_MAX_BUF_LEN` -/
abbrev maxBufLen : ℕ := 2048

/-- `IPC_COMMNAD_OFFSET` -/
abbrev commandOffset : ℕ := 1

/-- `IPC_PAYLOAD_LEN_OFFSET` -/
abbrev payloadLenOffset : ℕ := 5

/-- `IPC_DATA_OFFSET` -/
abbrev dataOffset : ℕ := 7

/-- `IPC_BUF_SIZE` -/
abbrev bufSize : ℕ := 2055

/-- The version and the command, or the response in its place. -/
def head (o : ByteOrder) (v : UInt8) (code : UInt32) : List UInt8 := v :: o.bytes 4 code.toNat

@[simp] theorem length_head (o : ByteOrder) (v : UInt8) (code : UInt32) :
    (head o v code).length = 5 := by simp [head]

/-- The array that is sent from. -/
structure Sender where
  sendBuff : ℕ → UInt8
  sendPayloadLen : ℕ

/-- The array that is received into. -/
structure Receiver where
  recvBuff : ℕ → UInt8
  recvdPayloadLen : ℕ
  toBeCollected : ℕ

namespace Sender

variable (o : ByteOrder) (s : Sender)

/-- `clearBuf`: as many bytes as there are in the payload, and one, from the length on. -/
def clearBuf : Sender where
  sendBuff := store s.sendBuff payloadLenOffset (List.replicate (s.sendPayloadLen + 1) 0)
  sendPayloadLen := 0

/-- `addData`, of both classes. -/
def addData (data : List UInt8) : ℤ × Sender :=
  if s.sendPayloadLen + data.length > maxBufLen then (-1, s)
  else
    let added := store s.sendBuff (dataOffset + s.sendPayloadLen) data
    let len := s.sendPayloadLen + data.length
    (len, ⟨store added payloadLenOffset (o.bytes 2 len), len⟩)

/-- The command of the message, or the response. -/
def setCode (code : UInt32) : Sender :=
  { s with sendBuff := store s.sendBuff commandOffset (o.bytes 4 code.toNat) }

/-- What `write` is given. -/
def written : List UInt8 := load s.sendBuff 0 (s.sendPayloadLen + dataOffset)

/-- The array holds the message with this payload. -/
structure Holds (v : UInt8) (code : UInt32) (data : List UInt8) : Prop where
  version : load s.sendBuff 0 1 = [v]
  code : load s.sendBuff 1 4 = o.bytes 4 code.toNat
  length : load s.sendBuff 5 2 = o.bytes 2 data.length
  payload : load s.sendBuff 7 data.length = data
  len : s.sendPayloadLen = data.length
  le : data.length ≤ 2048

namespace Holds

variable {o s} {v : UInt8} {code : UInt32} {data : List UInt8}

theorem written_eq (h : s.Holds o v code data) : s.written = message o 2 (head o v code) data := by
  have hhead : load s.sendBuff 0 5 = head o v code := by
    rw [head, ← List.singleton_append, ← h.version, ← h.code]
    exact load_add (m := 1) (n := 4)
  have hfront : load s.sendBuff 0 7 = head o v code ++ o.bytes 2 data.length := by
    rw [← hhead, ← h.length]
    exact load_add (m := 5) (n := 2)
  rw [written, h.len, Nat.add_comm, load_add, hfront, Nat.zero_add, h.payload, message]

theorem addData (h : s.Holds o v code data) (more : List UInt8) :
    (s.addData o more).2.Holds o v code
      (if (s.addData o more).1 < 0 then data else data ++ more) := by
  by_cases hle : s.sendPayloadLen + more.length > maxBufLen
  · simpa [Sender.addData, hle] using h
  · have hle' : data.length + more.length ≤ 2048 := by
      rw [← h.len]
      exact Nat.le_of_not_lt hle
    have hlen : (data ++ more).length = s.sendPayloadLen + more.length := by
      rw [List.length_append, h.len]
    have hret : ¬((s.sendPayloadLen + more.length : ℕ) : ℤ) < 0 :=
      Int.not_lt.mpr (Int.natCast_nonneg _)
    have hbefore {i : ℕ} (hi : i ≤ dataOffset) : i ≤ dataOffset + s.sendPayloadLen :=
      Nat.le_add_right_of_le hi
    simp only [Sender.addData, if_neg hle, if_neg hret]
    refine ⟨?_, ?_, ?_, ?_, hlen.symm, by rwa [List.length_append]⟩
    · refine (load_store_elsewhere (Or.inl (by simp))).trans ?_
      exact (load_store_elsewhere (Or.inl (hbefore (by decide)))).trans h.version
    · refine (load_store_elsewhere (Or.inl (by simp))).trans ?_
      exact (load_store_elsewhere (Or.inl (hbefore (by decide)))).trans h.code
    · rw [hlen]
      exact load_store_of_length (by simp)
    · refine (load_store_elsewhere (Or.inr (by simp))).trans ?_
      rw [List.length_append, load_add, load_store_elsewhere (Or.inl (by rw [h.len])), h.payload,
        h.len, load_store]

theorem clearBuf (h : s.Holds o v code data) : s.clearBuf.Holds o v code [] := by
  refine ⟨?_, ?_, ?_, rfl, rfl, Nat.zero_le _⟩
  · rw [← h.version]
    exact load_store_elsewhere (Or.inl (by simp))
  · rw [← h.code]
    exact load_store_elsewhere (Or.inl (by simp))
  · rw [List.length_nil, ByteOrder.bytes_zero]
    cases hn : s.sendPayloadLen with
    | zero =>
      -- the byte cleared is the first of the length, and the other one is 0 as it is
      have hzero : load s.sendBuff 5 2 = [0, 0] := by
        rw [h.length, ← h.len, hn, ByteOrder.bytes_zero]
        rfl
      simp [load, List.range_succ] at hzero
      simp [Sender.clearBuf, hn, load, List.range_succ, store, hzero]
    | succ n => simp [Sender.clearBuf, hn, load, List.range_succ, store]

theorem setCode (h : s.Holds o v code data) (code' : UInt32) :
    (s.setCode o code').Holds o v code' data := by
  refine ⟨?_, load_store_of_length (by simp), ?_, ?_, h.len, h.le⟩
  · rw [← h.version]
    exact load_store_elsewhere (Or.inl (by simp))
  · rw [← h.length]
    exact load_store_elsewhere (Or.inr (by simp))
  · refine Eq.trans ?_ h.payload
    exact load_store_elsewhere (Or.inr (by simp))

end Holds

/-- An array of zeroes with a version and a command. -/
theorem holds_zero (v : UInt8) (code : UInt32) :
    (Sender.setCode o ⟨store (fun _ => 0) 0 [v], 0⟩ code).Holds o v code [] := by
  have h : Holds o ⟨store (fun _ => 0) 0 [v], 0⟩ v 0 [] := by
    refine ⟨load_store_of_length rfl, ?_, ?_, rfl, rfl, Nat.zero_le _⟩
    · refine (load_store_elsewhere (Or.inr (by simp))).trans ?_
      rw [load]
      simp
    · refine (load_store_elsewhere (Or.inr (by simp))).trans ?_
      rw [load]
      simp
  exact h.setCode code

end Sender

namespace Receiver

variable (o : ByteOrder) (r : Receiver)

/-- Where `collectData` copies from. -/
def first : ℤ := dataOffset + ((r.recvdPayloadLen : ℤ) - r.toBeCollected)

/-- `collectData`: its result, and what it has copied. -/
def collectData (len : ℕ) : Option (ℤ × List UInt8 × Receiver) :=
  if r.recvdPayloadLen < len then some (-1, [], r)
  else if r.toBeCollected < len then some (-2, [], r)
  else if 0 ≤ r.first ∧ r.first + len ≤ bufSize then
    let left := r.toBeCollected - len
    some (left, load r.recvBuff r.first.toNat len, { r with toBeCollected := left })
  else none

/-- The command or the response that was received. -/
def code : ℕ := o.value (load r.recvBuff commandOffset 4)

/-- What of the payload has been collected, and that the rest is in the bytes that were read. -/
structure Collecting (payload collected : List UInt8) (read : ℕ) : Prop where
  rest : ∃ rest, payload = collected ++ rest ∧ rest.length = r.toBeCollected
  len : r.recvdPayloadLen = payload.length
  after : dataOffset ≤ r.first
  before : r.first + r.toBeCollected ≤ read

/-- The array holds this payload, of which a part has been collected. -/
structure Holds (payload collected : List UInt8) : Prop where
  buff : load r.recvBuff 7 payload.length = payload
  len : r.recvdPayloadLen = payload.length
  rest : ∃ rest, payload = collected ++ rest ∧ rest.length = r.toBeCollected
  le : payload.length ≤ 2048

namespace Holds

variable {r} {payload collected : List UInt8}

theorem first_eq (h : r.Holds payload collected) : r.first = (7 + collected.length : ℕ) := by
  obtain ⟨rest, hrest, hleft⟩ := h.rest
  have hlen := congrArg List.length hrest
  rw [List.length_append] at hlen
  have hoff : (dataOffset : ℤ) = 7 := rfl
  rw [first, h.len, ← hleft, hoff]
  omega

theorem collecting (h : r.Holds payload collected) :
    r.Collecting payload collected (7 + payload.length) := by
  obtain ⟨rest, hrest, hleft⟩ := h.rest
  refine ⟨h.rest, h.len, ?_, ?_⟩
  · rw [h.first_eq]
    exact Int.ofNat_le.mpr (Nat.le_add_right 7 _)
  · rw [h.first_eq, ← hleft, hrest, List.length_append]
    omega

/-- **One collection.** It has a result, and what it copies comes next in the payload. -/
theorem collectData (h : r.Holds payload collected) (len : ℕ) :
    ∃ ret out r', r.collectData len = some (ret, out, r') ∧ r'.recvBuff = r.recvBuff ∧
      r'.Holds payload (collected ++ out) := by
  rw [Receiver.collectData]
  split_ifs with hmore hleft hin
  · exact ⟨-1, [], r, rfl, rfl, by rwa [List.append_nil]⟩
  · exact ⟨-2, [], r, rfl, rfl, by rwa [List.append_nil]⟩
  · obtain ⟨rest, hrest, hrestLen⟩ := h.rest
    have hlen : len ≤ rest.length := by omega
    have hout : load r.recvBuff r.first.toNat len = rest.take len := by
      have hload : load r.recvBuff 7 (collected.length + rest.length) = collected ++ rest := by
        rw [← List.length_append, ← hrest, h.buff]
      rw [load_add] at hload
      have hrestLoad := (List.append_inj hload (by simp)).2
      rw [h.first_eq, Int.toNat_natCast, ← hrestLoad, take_load, Nat.min_eq_left hlen]
    refine ⟨_, _, _, rfl, rfl, h.buff, h.len, ⟨rest.drop len, ?_, ?_⟩, h.le⟩
    · rw [hout, List.append_assoc, List.take_append_drop, hrest]
    · rw [List.length_drop, hrestLen]
  · refine absurd ⟨?_, ?_⟩ hin
    · rw [h.first_eq]
      exact Int.natCast_nonneg _
    · obtain ⟨rest, hrest, hrestLen⟩ := h.rest
      have hall := h.le
      rw [hrest, List.length_append] at hall
      rw [h.first_eq]
      exact_mod_cast (by omega : 7 + collected.length + len ≤ 2055)

end Holds

/-- The receiver when a whole message has been read. -/
def filled (bytes : List UInt8) : Receiver :=
  ⟨store r.recvBuff 0 bytes, Framing.lengthField o 5 2 bytes, Framing.lengthField o 5 2 bytes⟩

variable {o r} {bytes data : List UInt8} {v : UInt8} {code : UInt32}

/-- The length of what has been read. -/
theorem value_load_store (h : 7 ≤ bytes.length) :
    o.value (load (store r.recvBuff 0 bytes) 5 2) = Framing.lengthField o 5 2 bytes := by
  rw [load_store_of_le h, Framing.lengthField]

theorem holds_filled (hle : data.length ≤ 2048) :
    (r.filled o (message o 2 (head o v code) data)).Holds data [] := by
  have hlen : Framing.lengthField o 5 2 (message o 2 (head o v code) data) = data.length := by
    rw [← length_head o v code]
    exact lengthField_message (Nat.lt_of_le_of_lt hle (by decide))
  refine ⟨?_, hlen, ⟨data, rfl, hlen.symm⟩, hle⟩
  refine (load_store_of_le (by simp)).trans ?_
  rw [message, List.drop_left' (by simp), List.take_length]

theorem code_filled : (r.filled o (message o 2 (head o v code) data)).code o = code.toNat := by
  have hload : load (store r.recvBuff 0 (message o 2 (head o v code) data)) 1 4 =
      o.bytes 4 code.toNat := by
    refine (load_store_of_le (by simp; omega)).trans ?_
    rw [message, head, List.append_assoc, List.cons_append, List.drop_one, List.tail_cons,
      List.take_left' (by simp)]
  rw [Receiver.code, filled, hload]
  exact ByteOrder.value_bytes code.toNat_lt

end Receiver

/-- The client's buffer. -/
structure IPCBuf where
  sender : Sender
  receiver : Receiver
  receivable : Bool

namespace IPCBuf

variable (o : ByteOrder)

/-- The constructor. -/
def new (command : UInt32) : IPCBuf where
  sender := Sender.setCode o ⟨store (fun _ => 0) 0 [version], 0⟩ command
  receiver := ⟨fun _ => 0, 0, 0⟩
  receivable := false

variable (b : IPCBuf)

def clearBuf : IPCBuf := { b with sender := b.sender.clearBuf }

def addData (data : List UInt8) : ℤ × IPCBuf :=
  let (ret, sender) := b.sender.addData o data
  (ret, { b with sender, receivable := false })

def getResponse : ℤ × Option ℕ :=
  if b.receivable then (b.receiver.recvdPayloadLen, some (b.receiver.code o)) else (-1, none)

def collectData (len : ℕ) : Option (ℤ × List UInt8 × IPCBuf) :=
  if b.receivable then
    (b.receiver.collectData len).map fun (ret, out, receiver) => (ret, out, { b with receiver })
  else some (-1, [], b)

/-- `sendCmd`, from its `read` on: the bytes that this has put into the array, or nothing when it
failed. -/
def sendCmdRead : Option (List UInt8) → ℤ × IPCBuf
  | none => (-1, b)
  | some bytes =>
    let recvBuff := store b.receiver.recvBuff 0 bytes
    if bytes.length < dataOffset then
      (-5, { b with receiver.recvBuff := fun _ => 0 })
    else
      let len := o.value (load recvBuff payloadLenOffset 2)
      let receiver := { b.receiver with recvBuff, recvdPayloadLen := len }
      if bytes.length ≠ dataOffset + len then (-6, { b with receiver })
      else (0, { b with receiver := { receiver with toBeCollected := len }, receivable := true })

variable {o b}

theorem holds_new (command : UInt32) :
    (new o command).sender.Holds o version command [] := Sender.holds_zero o version command

/-- **After the read.** Either this was a whole message, which is in the array now; or it was not,
and whether something can be received is as before. -/
theorem sendCmdRead_cases (read : Option (List UInt8)) :
    (∃ bytes ∈ read, IsWhole o 5 2 bytes ∧ b.sendCmdRead o read =
      (0, { b with receiver := b.receiver.filled o bytes, receivable := true })) ∨
    ((∀ bytes ∈ read, ¬IsWhole o 5 2 bytes) ∧ (b.sendCmdRead o read).1 < 0 ∧
      (b.sendCmdRead o read).2.sender = b.sender ∧
      (b.sendCmdRead o read).2.receivable = b.receivable) := by
  cases read with
  | none => exact Or.inr ⟨by simp, by simp [sendCmdRead], rfl, rfl⟩
  | some bytes =>
    by_cases hlt : bytes.length < dataOffset
    · refine Or.inr ⟨?_, by simp [sendCmdRead, hlt], by simp [sendCmdRead, hlt],
        by simp [sendCmdRead, hlt]⟩
      intro bytes' hbytes hwhole
      cases hbytes
      exact absurd hwhole.1 (Nat.not_le_of_lt hlt)
    · have hlen := Receiver.value_load_store (o := o) (r := b.receiver) (Nat.le_of_not_lt hlt)
      by_cases heq : bytes.length = dataOffset + Framing.lengthField o 5 2 bytes
      · refine Or.inl ⟨bytes, rfl, ⟨Nat.le_of_not_lt hlt, heq⟩, ?_⟩
        simp only [sendCmdRead, if_neg hlt, hlen, ne_eq, if_neg (not_not_intro heq)]
        rfl
      · refine Or.inr ⟨?_, ?_⟩
        · intro bytes' hbytes hwhole
          cases hbytes
          exact heq hwhole.2
        · simp [sendCmdRead, hlt, hlen, heq]

end IPCBuf

/-- The server's buffer of one connection. -/
structure IPCServerBuf where
  sender : Sender
  receiver : Receiver
  sendable : Bool
  cmd : ℕ

namespace IPCServerBuf

variable (o : ByteOrder)

/-- The constructor. -/
def new : IPCServerBuf where
  sender := ⟨fun _ => 0, 0⟩
  receiver := ⟨fun _ => 0, 0, 0⟩
  sendable := false
  cmd := 0

variable (b : IPCServerBuf)

/-- `recvCmd`, from its `read` on; a failed one is the same as one of no bytes. -/
def recvCmd (bytes : List UInt8) : ℤ × IPCServerBuf :=
  let recvBuff := store b.receiver.recvBuff 0 bytes
  if bytes.length = 0 then (-2, b)
  else if bytes.length < dataOffset then (-3, { b with receiver.recvBuff := fun _ => 0 })
  else
    let len := o.value (load recvBuff payloadLenOffset 2)
    let receiver := { b.receiver with recvBuff, recvdPayloadLen := len }
    if len > maxBufLen then (-5, { b with receiver })
    else
      let cmd := o.value (load recvBuff commandOffset 4)
      if bytes.length ≠ dataOffset + len then (-4, { b with receiver, cmd })
      else (len, { b with receiver := { receiver with toBeCollected := len }, cmd })

def clearBuf : IPCServerBuf := { b with sender := b.sender.clearBuf }

def addData (data : List UInt8) : ℤ × IPCServerBuf :=
  let (ret, sender) := b.sender.addData o data
  (ret, { b with sender })

def collectData (len : ℕ) : Option (ℤ × List UInt8 × IPCServerBuf) :=
  (b.receiver.collectData len).map fun (ret, out, receiver) => (ret, out, { b with receiver })

def addResponse (response : UInt32) : IPCServerBuf :=
  { b with sender := b.sender.setCode o response, sendable := true }

/-- `sendResponse`, when `write` takes `n` bytes at most: its result, and what has been written. -/
def sendResponse (n : ℕ) : ℤ × List UInt8 × IPCServerBuf :=
  if !b.sendable then (-1, [], b)
  else
    let sent := b.sender.written.take n
    if sent.length ≠ b.sender.sendPayloadLen + dataOffset then (-4, sent, b)
    else (sent.length, sent, { b with sendable := false })

variable {o b} {bytes : List UInt8}

theorem holds_new : (new).sender.Holds o 0 0 [] := by
  refine ⟨rfl, ?_, ?_, rfl, rfl, Nat.zero_le _⟩
  · simp [new, load]
  · simp [new, load]

/-- **A command that is received** is a whole message, which is in the array now. -/
theorem recvCmd_isWhole (h : ¬(b.recvCmd o bytes).1 < 0) :
    IsWhole o 5 2 bytes ∧ (b.recvCmd o bytes).2 = { b with
      receiver := b.receiver.filled o bytes
      cmd := (b.receiver.filled o bytes).code o } := by
  by_cases hzero : bytes.length = 0
  · simp [recvCmd, hzero] at h
  by_cases hlt : bytes.length < dataOffset
  · simp [recvCmd, hzero, hlt] at h
  have hlen := Receiver.value_load_store (o := o) (r := b.receiver) (Nat.le_of_not_lt hlt)
  by_cases hmax : Framing.lengthField o 5 2 bytes > maxBufLen
  · simp [recvCmd, hzero, hlt, hlen, hmax] at h
  by_cases heq : bytes.length = dataOffset + Framing.lengthField o 5 2 bytes
  · refine ⟨⟨Nat.le_of_not_lt hlt, heq⟩, ?_⟩
    simp only [recvCmd, if_neg hzero, if_neg hlt, hlen, if_neg hmax, ne_eq,
      if_neg (not_not_intro heq)]
    rfl
  · simp [recvCmd, hzero, hlt, hlen, hmax, heq] at h

/-- **A response that is sent** goes out from its beginning on, and whole where the result says so;
what is to be sent and what was received stay. -/
theorem sendResponse_spec (n : ℕ) :
    (b.sendResponse n).2.1 <+: b.sender.written ∧
    (¬(b.sendResponse n).1 < 0 → (b.sendResponse n).2.1 = b.sender.written) ∧
    ∃ sendable, (b.sendResponse n).2.2 = { b with sendable } := by
  have hneg (i : ℕ) : ¬¬Int.negSucc i < 0 := not_not_intro (Int.negSucc_lt_zero i)
  by_cases hsend : b.sendable = true
  · by_cases hshort : (b.sender.written.take n).length = b.sender.sendPayloadLen + dataOffset
    · simp only [sendResponse, hsend, Bool.not_true, Bool.false_eq_true, if_false, ne_eq,
        if_neg (not_not_intro hshort)]
      refine ⟨List.take_prefix n _, fun _ => ?_, false, rfl⟩
      refine (List.take_prefix n _).eq_of_length ?_
      rw [hshort, Sender.written, length_load]
    · simp only [sendResponse, hsend, Bool.not_true, Bool.false_eq_true, if_false, ne_eq, hshort,
        not_false_eq_true, if_true]
      exact ⟨List.take_prefix n _, fun h => absurd h (hneg 3), b.sendable, rfl⟩
  · simp only [sendResponse, Bool.not_eq_true _ ▸ hsend, Bool.not_false, if_true]
    exact ⟨List.nil_prefix, fun h => absurd h (hneg 0), b.sendable, rfl⟩

end IPCServerBuf

end MediaFramework.Ipc
