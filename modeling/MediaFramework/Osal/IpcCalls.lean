import MediaFramework.Lib.Run
import MediaFramework.Osal.IpcBuffers

/-!
# The calls of an IPC client

One client uses one buffer for one command after another. Each `sendCmd` connects anew, writes the
message and reads once; the server makes a buffer for the connection, reads once, and hands it to
the application if a command was received, which collects the payload, adds a response and sends it.
A stream gives a reader some first bytes of what was written to it, and a write may be cut.

A client that cannot have a response any more is to have none: but it is `addData` that makes the
last response unreceivable, and not a `sendCmd` that fails. The lengths and the array are then those
of different messages. And a response that is sent once more after a write that was cut begins anew
behind what had been written.

* `Right` is what the two ends may rely on;
* `Good` is the invariant, kept by every step that meets `Careful` (`Good.step`);
* `right_of_careful` is about whole runs, in any order of the calls and the reads of the two ends.
-/

namespace MediaFramework.Ipc

open Framing

/-- A response and the bytes that come with it. -/
structure Reply where
  response : UInt32
  data : List UInt8

/-- The message of a response. The version is 0 in it. -/
def Reply.message (o : ByteOrder) (r : Reply) : List UInt8 :=
  Framing.message o 2 (head o 0 r.response) r.data

/-- A connection: what the client wrote, the server's buffer, and what this wrote. The other fields
record what the two ends have done and are not in the code. -/
structure Connection where
  up : List UInt8
  accepted : Bool
  server : Option IPCServerBuf
  down : List UInt8
  /-- what the client had added when it sent the command -/
  sent : List UInt8
  /-- how many bytes the server has read -/
  read : ℕ
  /-- what the server has collected -/
  collected : List UInt8
  /-- the response as it is set, and what has been added to it since the last `clearBuf` -/
  response : UInt32
  added : List UInt8
  /-- the response that was written first -/
  reply : Option Reply
  /-- a write of a response was cut -/
  torn : Bool

/-- What a server's application may call. `write` takes `n` bytes at most. -/
inductive ServerCall
  | addData (data : List UInt8)
  | clearBuf
  | collectData (len : ℕ)
  | addResponse (response : UInt32)
  | sendResponse (n : ℕ)

namespace Connection

variable (o : ByteOrder) (c : Connection)

/-- A connection to which the client has written. -/
def opened (up sent : List UInt8) : Connection where
  up := up
  accepted := false
  server := none
  down := []
  sent := sent
  read := 0
  collected := []
  response := 0
  added := []
  reply := none
  torn := false

/-- `listen_request`: the connection is accepted, and its buffer deleted unless it has a command. -/
def recvCmd (n : ℕ) : Connection :=
  if c.accepted then c
  else
    let bytes := c.up.take (min n bufSize)
    let (ret, b) := IPCServerBuf.new.recvCmd o bytes
    { c with accepted := true, server := if ret < 0 then none else some b, read := bytes.length }

/-- A response has been sent, or not: the result, what was written, and the buffer. -/
def responded : ℤ × List UInt8 × IPCServerBuf → Connection
  | (ret, out, b) =>
    { c with
      server := some b
      down := c.down ++ out
      reply := if c.down = [] then some ⟨c.response, c.added⟩ else c.reply
      torn := c.torn || (decide (ret < 0) && !out.isEmpty) }

/-- A call of the server's application. -/
def call (b : IPCServerBuf) : ServerCall → Option Connection
  | .addData data =>
    let (ret, b') := b.addData o data
    some { c with server := some b', added := if ret < 0 then c.added else c.added ++ data }
  | .clearBuf => some { c with server := some b.clearBuf, added := [] }
  | .collectData len =>
    (b.collectData len).map fun (_, out, b') =>
      { c with server := some b', collected := c.collected ++ out }
  | .addResponse response =>
    some { c with server := some (b.addResponse o response), response := response }
  | .sendResponse n => some (c.responded (b.sendResponse n))

end Connection

/-- A client and its connections. The other fields record what has happened. -/
structure State where
  client : IPCBuf
  /-- the connection whose response `sendCmd` waits for -/
  pending : Option ℕ
  conn : ℕ → Option Connection
  /-- what has been added since the last `clearBuf` -/
  added : List UInt8
  /-- the response of the last `sendCmd` that succeeded, and what of it has been collected -/
  last : Option Reply
  collected : List UInt8
  /-- how many bytes the client has read -/
  read : ℕ
  /-- the last `sendCmd` has failed -/
  failed : Bool

/-- What the client may call: `sendCmd` may fail before it writes, or connect anew and write `n`
bytes at most. -/
inductive ClientCall
  | addData (data : List UInt8)
  | clearBuf
  | getResponse
  | collectData (len : ℕ)
  | sendFails
  | sendWrites (k n : ℕ)

/-- A call of the client; its `sendCmd` reads, `n` bytes at most, or fails to; a server accepts and
reads, `n` bytes at most; a call of the server's application, and the last one of them. -/
inductive Event
  | client (call : ClientCall)
  | sendReads (n : Option ℕ)
  | recvCmd (k n : ℕ)
  | server (k : ℕ) (call : ServerCall)
  | disposeBuf (k : ℕ)

namespace State

variable (o : ByteOrder) (s : State)

/-- The start: a client's new buffer. -/
def start (command : UInt32) : State where
  client := IPCBuf.new o command
  pending := none
  conn := fun _ => none
  added := []
  last := none
  collected := []
  read := 0
  failed := false

def setConn (k : ℕ) (c : Connection) : State :=
  { s with conn := Function.update s.conn k (some c) }

/-- What a read of the client gives. -/
def arrived (n : Option ℕ) : Option (List UInt8) :=
  n.map fun m => (((s.pending.bind s.conn).map Connection.down).getD []).take (min m bufSize)

/-- A call of the client when it is in no other. -/
def clientCall : ClientCall → Option State
  | .addData data =>
    let (ret, client) := s.client.addData o data
    some { s with client, added := if ret < 0 then s.added else s.added ++ data }
  | .clearBuf => some { s with client := s.client.clearBuf, added := [] }
  | .getResponse => some s
  | .collectData len =>
    (s.client.collectData len).map fun (_, out, client) =>
      { s with client, collected := s.collected ++ out }
  | .sendFails => some { s with failed := true }
  | .sendWrites k n =>
    if (s.conn k).isSome then some s
    else
      let out := s.client.sender.written.take n
      let s' := s.setConn k (.opened out s.added)
      if out.length ≠ s.client.sender.sendPayloadLen + dataOffset then
        some { s' with failed := true }
      else some { s' with pending := some k }

/-- The end of `sendCmd`. -/
def sendReads (n : Option ℕ) : State :=
  let (ret, client) := s.client.sendCmdRead o (s.arrived n)
  { s with
    client
    pending := none
    last := if ret < 0 then s.last else (s.pending.bind s.conn).bind Connection.reply
    collected := if ret < 0 then s.collected else []
    read := ((s.arrived n).getD []).length
    failed := decide (ret < 0) }

/-- One step. What cannot happen where it stands changes nothing. -/
def step : Event → Option State
  | .client call => if s.pending.isSome then some s else s.clientCall o call
  | .sendReads n => if s.pending.isSome then some (s.sendReads o n) else some s
  | .recvCmd k n =>
    match s.conn k with
    | none => some s
    | some c => some (s.setConn k (c.recvCmd o n))
  | .server k call =>
    match s.conn k with
    | none => some s
    | some c =>
      match c.server with
      | none => some s
      | some b => (c.call o b call).map (s.setConn k)
  | .disposeBuf k =>
    match s.conn k with
    | none => some s
    | some c => some (s.setConn k { c with server := none })

end State

/-- **What both ends may rely on.** A server that has the command has collected the first bytes of
what the client had added, and can collect the rest. The client has collected the first bytes of the
response of the last `sendCmd` that succeeded, and, while there is something to receive, can collect
the rest and has the response that the server had set; after a `sendCmd` that failed there is
nothing to receive. Both find all this in the bytes that they have read. -/
structure Right (o : ByteOrder) (command : UInt32) (s : State) : Prop where
  server : ∀ k, ∀ c ∈ s.conn k, ∀ b ∈ c.server,
    b.receiver.Collecting c.sent c.collected c.read ∧ b.cmd = command.toNat
  client : s.client.receivable = true → ∃ reply ∈ s.last,
    s.client.receiver.Collecting reply.data s.collected s.read ∧
      s.client.getResponse o = ((reply.data.length : ℤ), some reply.response.toNat)
  belongs : s.collected <+: (s.last.map Reply.data).getD []
  failed : s.failed = true → s.client.receivable = false

/-- A `sendCmd` while there is something to receive succeeds; and no response is sent on a
connection on which the write of one was cut. -/
def Careful (o : ByteOrder) (s : State) : Event → Prop
  | .client .sendFails => s.client.receivable = false
  | .client (.sendWrites _ n) =>
    s.client.receivable = false ∨ s.client.sender.sendPayloadLen + dataOffset ≤ n
  | .sendReads n => s.client.receivable = false ∨ ∃ bytes ∈ s.arrived n, IsWhole o 5 2 bytes
  | .server k (.sendResponse _) => ∀ c ∈ s.conn k, c.torn = false
  | _ => True

instance Careful.decidable (o : ByteOrder) (s : State) : ∀ e, Decidable (Careful o s e)
  | .client .sendFails => inferInstanceAs (Decidable (_ = _))
  | .client (.sendWrites _ _) => inferInstanceAs (Decidable (_ ∨ _))
  | .sendReads n =>
    inferInstanceAs (Decidable (_ ∨ ∃ bytes ∈ s.arrived n, IsWhole o 5 2 bytes))
  | .server k (.sendResponse _) => inferInstanceAs (Decidable (∀ c ∈ s.conn k, c.torn = false))
  | .client (.addData _) | .client .clearBuf | .client .getResponse | .client (.collectData _)
  | .recvCmd _ _ | .server _ (.addData _) | .server _ .clearBuf | .server _ (.collectData _)
  | .server _ (.addResponse _) | .disposeBuf _ => isTrue trivial

/-! ## The invariant -/

/-- What holds of a connection. -/
structure Connection.Good (o : ByteOrder) (command : UInt32) (c : Connection) : Prop where
  sent : c.sent.length ≤ 2048
  up : c.up <+: message o 2 (head o version command) c.sent
  sender : ∀ b ∈ c.server, b.sender.Holds o 0 c.response c.added
  receiver : ∀ b ∈ c.server, b.receiver.Holds c.sent c.collected
  cmd : ∀ b ∈ c.server, b.cmd = command.toNat ∧ c.read = 7 + c.sent.length
  down : c.down = [] ∨ ∃ reply ∈ c.reply, reply.data.length ≤ 2048 ∧
    (c.down <+: reply.message o ∨ reply.message o <+: c.down) ∧
    (c.torn = false → reply.message o <+: c.down)
  fresh : c.accepted = false →
    c.server = none ∧ c.collected = [] ∧ c.response = 0 ∧ c.added = []

namespace Connection.Good

variable {o : ByteOrder} {command : UInt32} {c : Connection}

theorem opened {up sent : List UInt8} (hsent : sent.length ≤ 2048)
    (hup : up <+: message o 2 (head o version command) sent) :
    (Connection.opened up sent).Good o command where
  sent := hsent
  up := hup
  sender := by simp [Connection.opened]
  receiver := by simp [Connection.opened]
  cmd := by simp [Connection.opened]
  down := Or.inl rfl
  fresh := fun _ => ⟨rfl, rfl, rfl, rfl⟩

/-- A server that stays as it is, or goes. -/
theorem disposed (h : c.Good o command) : Connection.Good o command { c with server := none } :=
  ⟨h.sent, h.up, by simp, by simp, by simp, h.down, fun hacc => ⟨rfl, (h.fresh hacc).2⟩⟩

theorem recvCmd (h : c.Good o command) (n : ℕ) : (c.recvCmd o n).Good o command := by
  rw [Connection.recvCmd]
  split_ifs with haccepted
  · exact h
  set bytes := c.up.take (min n bufSize) with hbytes
  by_cases hneg : (IPCServerBuf.new.recvCmd o bytes).1 < 0
  · simp only [if_pos hneg]
    exact ⟨h.sent, h.up, by simp, by simp, by simp, h.down, by simp⟩
  · simp only [if_neg hneg]
    obtain ⟨hwhole, hb⟩ := IPCServerBuf.recvCmd_isWhole hneg
    have hfix : bytes <+: message o 2 (head o version command) c.sent :=
      (List.take_prefix _ _).trans h.up
    rw [← length_head o version command] at hwhole
    have heq := eq_message (Nat.lt_of_le_of_lt h.sent (by decide)) (Or.inl hfix) hwhole
    obtain ⟨-, hcollected, hresponse, hadded⟩ := h.fresh (Bool.not_eq_true _ ▸ haccepted)
    refine ⟨h.sent, h.up, ?_, ?_, ?_, h.down, by simp⟩
    · intro b hb'
      cases hb'
      rw [hb, hresponse, hadded]
      exact IPCServerBuf.holds_new
    · intro b hb'
      cases hb'
      rw [hb, hcollected, heq]
      exact Receiver.holds_filled h.sent
    · intro b hb'
      cases hb'
      rw [hb, heq]
      exact ⟨Receiver.code_filled, by simp⟩

/-- A server whose buffer has changed. -/
theorem changed (h : c.Good o command) {b : IPCServerBuf} (hb : c.server = some b)
    (b' : IPCServerBuf) {collected added : List UInt8} {response : UInt32}
    (hsender : b'.sender.Holds o 0 response added)
    (hreceiver : b'.receiver.Holds c.sent collected) (hcmd : b'.cmd = b.cmd) :
    Connection.Good o command { c with server := some b', collected, response, added } where
  sent := h.sent
  up := h.up
  sender := by
    intro b'' hb''
    cases hb''
    exact hsender
  receiver := by
    intro b'' hb''
    cases hb''
    exact hreceiver
  cmd := by
    intro b'' hb''
    cases hb''
    rw [hcmd]
    exact h.cmd b hb
  down := h.down
  fresh := by
    intro hacc
    have hnone := (h.fresh hacc).1
    rw [hb] at hnone
    cases hnone

/-- A server that writes its response behind what it wrote before, or a part of it. -/
theorem responded (h : c.Good o command) (htorn : c.torn = false) {b b' : IPCServerBuf}
    (hb : c.server = some b) {ret : ℤ} {out : List UInt8}
    (hout : out <+: (Reply.mk c.response c.added).message o)
    (hwhole : ¬ret < 0 → out = (Reply.mk c.response c.added).message o)
    (hb' : ∃ sendable, b' = { b with sendable }) : (c.responded (ret, out, b')).Good o command := by
  obtain ⟨sendable, rfl⟩ := hb'
  have hsender := h.sender b hb
  have hsame := h.changed hb { b with sendable } hsender (h.receiver b hb) rfl
  refine ⟨h.sent, h.up, hsame.sender, hsame.receiver, hsame.cmd, ?_, hsame.fresh⟩
  rw [Connection.responded]
  rcases h.down with hnil | ⟨reply, hreply, hle, -, hmessage⟩
  · -- the first that is written
    simp only [hnil, List.nil_append, if_true, htorn, Bool.false_or]
    by_cases hempty : out = []
    · exact Or.inl hempty
    · refine Or.inr ⟨_, rfl, hsender.le, Or.inl hout, fun hcut => ?_⟩
      have hret : ¬ret < 0 := by simpa [hempty] using hcut
      exact (hwhole hret).symm ▸ List.prefix_rfl
  · have hmessage := hmessage htorn
    have hne : c.down ≠ [] := by
      intro hnil
      rw [hnil] at hmessage
      have := hmessage.length_le
      simp [Reply.message] at this
    have hfront := hmessage.trans (List.prefix_append c.down out)
    simp only [if_neg hne]
    exact Or.inr ⟨reply, hreply, hle, Or.inr hfront, fun _ => hfront⟩

/-- **A call of the server's application** that is no response behind one that was cut. -/
theorem call (h : c.Good o command) {b : IPCServerBuf} (hb : c.server = some b) (call : ServerCall)
    (htorn : ∀ n, call = .sendResponse n → c.torn = false) :
    ∃ c', c.call o b call = some c' ∧ c'.Good o command := by
  have hsender := h.sender b hb
  have hreceiver := h.receiver b hb
  cases call with
  | addData data => exact ⟨_, rfl, h.changed hb _ (hsender.addData data) hreceiver rfl⟩
  | clearBuf => exact ⟨_, rfl, h.changed hb _ hsender.clearBuf hreceiver rfl⟩
  | collectData len =>
    obtain ⟨ret, out, r', hr', -, hholds⟩ := hreceiver.collectData len
    refine ⟨_, ?_, h.changed hb { b with receiver := r' } hsender hholds rfl⟩
    rw [Connection.call, IPCServerBuf.collectData, hr']
    rfl
  | addResponse response =>
    exact ⟨_, rfl, h.changed hb _ (hsender.setCode response) hreceiver rfl⟩
  | sendResponse n =>
    obtain ⟨hout, hwhole, hb'⟩ := b.sendResponse_spec n
    rw [hsender.written_eq] at hout hwhole
    exact ⟨_, rfl, h.responded (htorn n rfl) hb hout hwhole hb'⟩

end Connection.Good

/-- What holds in every state. -/
structure Good (o : ByteOrder) (command : UInt32) (s : State) : Prop where
  sender : s.client.sender.Holds o version command s.added
  conn : ∀ k, ∀ c ∈ s.conn k, c.Good o command
  client : s.client.receivable = true → ∃ reply ∈ s.last,
    s.client.receiver.Holds reply.data s.collected ∧
      s.client.receiver.code o = reply.response.toNat ∧ s.read = 7 + reply.data.length
  belongs : s.collected <+: (s.last.map Reply.data).getD []
  failed : s.failed = true → s.client.receivable = false

namespace Good

variable {o : ByteOrder} {command : UInt32} {s : State}

theorem right (h : Good o command s) : Right o command s where
  server := by
    intro k c hc b hb
    have hgood := h.conn k c hc
    obtain ⟨hcmd, hread⟩ := hgood.cmd b hb
    refine ⟨?_, hcmd⟩
    rw [hread]
    exact (hgood.receiver b hb).collecting
  client := by
    intro hrecv
    obtain ⟨reply, hlast, hholds, hcode, hread⟩ := h.client hrecv
    refine ⟨reply, hlast, ?_, ?_⟩
    · rw [hread]
      exact hholds.collecting
    · rw [IPCBuf.getResponse, if_pos hrecv, hholds.len, hcode]
  belongs := h.belongs
  failed := h.failed

theorem start : Good o command (State.start o command) where
  sender := IPCBuf.holds_new command
  conn := by simp [State.start]
  client := by simp [State.start, IPCBuf.new]
  belongs := List.nil_prefix
  failed := by simp [State.start]

/-- A connection that has changed, or a new one. -/
theorem setConn (h : Good o command s) {k : ℕ} {c : Connection} (hc : c.Good o command) :
    Good o command (s.setConn k c) where
  sender := h.sender
  conn := by
    intro j c' hc'
    simp only [State.setConn] at hc'
    rcases eq_or_ne j k with rfl | hne
    · rw [Function.update_self] at hc'
      cases hc'
      exact hc
    · rw [Function.update_of_ne hne] at hc'
      exact h.conn j c' hc'
  client := h.client
  belongs := h.belongs
  failed := h.failed

/-- **A call of the client.** If it is a `sendCmd` that fails, there is nothing to receive. -/
theorem clientCall (h : Good o command s) (call : ClientCall) (hcare : Careful o s (.client call)) :
    ∃ s', s.clientCall o call = some s' ∧ Good o command s' := by
  cases call with
  | addData data =>
    exact ⟨_, rfl, h.sender.addData data, h.conn, by simp, h.belongs, fun _ => rfl⟩
  | clearBuf => exact ⟨_, rfl, h.sender.clearBuf, h.conn, h.client, h.belongs, h.failed⟩
  | getResponse => exact ⟨s, rfl, h⟩
  | collectData len =>
    by_cases hrecv : s.client.receivable = true
    · obtain ⟨reply, hlast, hholds, hcode, hread⟩ := h.client hrecv
      obtain ⟨ret, out, r', hr', hbuff, hholds'⟩ := hholds.collectData len
      refine ⟨{ s with client.receiver := r', collected := s.collected ++ out }, ?_, h.sender,
        h.conn, fun _ => ⟨reply, hlast, hholds', ?_, hread⟩, ?_, h.failed⟩
      · simp only [State.clientCall, IPCBuf.collectData, if_pos hrecv, hr']
        rfl
      · rw [← hcode, Receiver.code, Receiver.code, hbuff]
      · obtain ⟨rest, hrest, -⟩ := hholds'.rest
        rw [hlast]
        exact ⟨rest, hrest.symm⟩
    · refine ⟨s, ?_, h⟩
      simp [State.clientCall, IPCBuf.collectData, hrecv]
  | sendFails => exact ⟨_, rfl, h.sender, h.conn, h.client, h.belongs, fun _ => hcare⟩
  | sendWrites k n =>
    rw [State.clientCall]
    by_cases hsome : (s.conn k).isSome = true
    · exact ⟨s, if_pos hsome, h⟩
    have hgood := h.setConn (k := k) (Connection.Good.opened h.sender.le (List.take_prefix n _))
    rw [← h.sender.written_eq] at hgood
    rw [if_neg hsome]
    by_cases hfull : (s.client.sender.written.take n).length =
        s.client.sender.sendPayloadLen + dataOffset
    · refine ⟨_, if_neg (not_not_intro hfull), ?_⟩
      exact ⟨hgood.sender, hgood.conn, hgood.client, hgood.belongs, hgood.failed⟩
    · refine ⟨_, if_pos hfull, hgood.sender, hgood.conn, hgood.client, hgood.belongs, fun _ => ?_⟩
      refine hcare.resolve_right fun hle => hfull ?_
      rw [List.length_take, Sender.written, length_load, Nat.min_eq_right hle]

/-- What a read gives begins the response that was written first, or this begins what it gives. -/
theorem arrived_of_isWhole (h : Good o command s) {n : Option ℕ} {bytes : List UInt8}
    (hbytes : bytes ∈ s.arrived n) (hwhole : IsWhole o 5 2 bytes) :
    ∃ reply ∈ (s.pending.bind s.conn).bind Connection.reply,
      reply.data.length ≤ 2048 ∧ bytes = reply.message o := by
  obtain ⟨m, -, rfl⟩ := Option.map_eq_some_iff.mp hbytes
  rcases hconn : s.pending.bind s.conn with _ | c
  · simp [hconn, IsWhole] at hwhole
  · simp only [hconn, Option.map_some, Option.getD_some, Option.bind_some] at hwhole ⊢
    obtain ⟨k, -, hk⟩ := Option.bind_eq_some_iff.mp hconn
    rcases (h.conn k c hk).down with hnil | ⟨reply, hreply, hle, hfix, -⟩
    · simp [hnil, IsWhole] at hwhole
    · refine ⟨reply, hreply, hle, ?_⟩
      rw [← length_head o 0 reply.response] at hwhole
      refine eq_message (Nat.lt_of_le_of_lt hle (by decide)) ?_ hwhole
      have htake := List.take_prefix (min m bufSize) c.down
      rcases hfix with hdown | hdown
      · exact Or.inl (htake.trans hdown)
      · exact List.prefix_or_prefix_of_prefix htake hdown

/-- **The end of `sendCmd`.** If it fails, there is nothing to receive. -/
theorem sendReads (h : Good o command s) (n : Option ℕ) (hcare : Careful o s (.sendReads n)) :
    Good o command (s.sendReads o n) := by
  rcases s.client.sendCmdRead_cases (o := o) (s.arrived n) with ⟨bytes, hbytes, hwhole, hread⟩ |
    ⟨hnot, hneg, hsender, hrecv⟩
  · obtain ⟨reply, hreply, hle, rfl⟩ := h.arrived_of_isWhole hbytes hwhole
    have hlen : ((s.arrived n).getD []).length = 7 + reply.data.length := by
      rw [hbytes]
      simp [Reply.message]
    have hnonneg : ¬(0 : ℤ) < 0 := Int.lt_irrefl 0
    simp only [State.sendReads, hread, if_neg hnonneg, hlen]
    refine ⟨h.sender, h.conn, fun _ => ⟨reply, hreply, ?_, ?_, rfl⟩, List.nil_prefix, by simp⟩
    · exact Receiver.holds_filled hle
    · exact Receiver.code_filled
  · have hnone : s.client.receivable = false := by
      refine hcare.resolve_right fun hwhole => ?_
      obtain ⟨bytes, hbytes, hwhole⟩ := hwhole
      exact hnot bytes hbytes hwhole
    simp only [State.sendReads, if_pos hneg]
    refine ⟨?_, h.conn, ?_, h.belongs, fun _ => hrecv.trans hnone⟩
    · rw [hsender]
      exact h.sender
    · intro hsome
      rw [hrecv, hnone] at hsome
      cases hsome

/-- **One step** that meets `Careful` keeps the invariant. -/
theorem step (h : Good o command s) (e : Event) (hcare : Careful o s e) :
    ∃ s', s.step o e = some s' ∧ Good o command s' := by
  cases e with
  | client call =>
    rw [State.step]
    split_ifs with hpending
    · exact ⟨s, rfl, h⟩
    · exact h.clientCall call hcare
  | sendReads n =>
    rw [State.step]
    split_ifs with hpending
    · exact ⟨_, rfl, h.sendReads n hcare⟩
    · exact ⟨s, rfl, h⟩
  | recvCmd k n =>
    rcases hc : s.conn k with _ | c
    · exact ⟨s, by rw [State.step, hc], h⟩
    · exact ⟨_, by rw [State.step, hc], h.setConn ((h.conn k c hc).recvCmd n)⟩
  | server k call =>
    rcases hc : s.conn k with _ | c
    · exact ⟨s, by rw [State.step, hc], h⟩
    rcases hb : c.server with _ | b
    · exact ⟨s, by simp only [State.step, hc, hb], h⟩
    have htorn : ∀ n, call = .sendResponse n → c.torn = false := by
      rintro n rfl
      exact hcare c hc
    obtain ⟨c', hc', hgood⟩ := (h.conn k c hc).call hb call htorn
    refine ⟨s.setConn k c', ?_, h.setConn hgood⟩
    simp only [State.step, hc, hb, hc', Option.map_some]
  | disposeBuf k =>
    rcases hc : s.conn k with _ | c
    · exact ⟨s, by rw [State.step, hc], h⟩
    · exact ⟨_, by rw [State.step, hc], h.setConn (h.conn k c hc).disposed⟩

end Good

/-- **Runs.** Where a `sendCmd` with a response still there succeeds, and no response is sent once
more behind one that was cut, every call has a result, and both ends have what they may rely on at
all times, whatever the order of the calls, however the reads are cut. -/
theorem right_of_careful (o : ByteOrder) (command : UInt32) {events : List Event}
    (hcare : EachStep (State.step o) (Careful o) (State.start o command) events) :
    Throughout (State.step o) (Right o command) (State.start o command) events := by
  rintro front back rfl
  obtain ⟨s, hrun, hgood⟩ := EachStep.total (fun s e hgood hcare => Good.step hgood e hcare)
    hcare.left Good.start
  exact ⟨s, hrun, hgood.right⟩

/-- A command with two bytes, and its response with one; the next `sendCmd` finds no server. -/
def oneCall : List Event :=
  [.client (.addData [1, 2]), .client (.sendWrites 0 9), .recvCmd 0 9, .server 0 (.collectData 1),
    .server 0 (.collectData 1), .server 0 (.addResponse 5), .server 0 (.addData [3]),
    .server 0 (.sendResponse 8), .sendReads (some 8), .client (.collectData 1),
    .client (.addData [4]), .client .sendFails]

theorem right_oneCall :
    Throughout (State.step .little) (Right .little 7) (State.start .little 7) oneCall :=
  right_of_careful .little 7 (by decide +kernel)

/-- The same command twice. Of the second response, which is longer, a byte is not read. -/
def shortRead : List Event :=
  [.client (.sendWrites 0 7), .recvCmd 0 7, .server 0 (.addResponse 5), .server 0 (.addData [1, 2]),
    .server 0 (.sendResponse 9), .sendReads (some 9), .client (.sendWrites 1 7), .recvCmd 1 7,
    .server 1 (.addResponse 5), .server 1 (.addData [3, 4, 5]), .server 1 (.sendResponse 10),
    .sendReads (some 9), .client (.collectData 2)]

/-- After it the client still collects: a byte of the second response, which it does not have, and
one that was never received. -/
theorem not_right_shortRead :
    ¬Throughout (State.step .little) (Right .little 7) (State.start .little 7) shortRead := by
  intro h
  obtain ⟨s, hrun, hright⟩ := h shortRead [] (List.append_nil _).symm
  have hseen : (runFrom (State.step .little) (State.start .little 7) shortRead).map
      (fun s => (s.collected, (s.last.map Reply.data).getD [])) = some ([4, 0], [1, 2]) := by
    decide +kernel
  rw [hrun, Option.map_some, Option.some.injEq, Prod.mk.injEq] at hseen
  have hbelongs := hright.belongs
  rw [hseen.1, hseen.2] at hbelongs
  revert hbelongs
  decide

end MediaFramework.Ipc
