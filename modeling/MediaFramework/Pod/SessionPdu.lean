import MediaFramework.Pod.LengthField

/-!
# The session layer's frames

An APDU that goes to the card gets the session number in front (`session_CreateSPDU`) and in front
of that the header of the transport layer (`trans_CreateTPDU`); the caller copies the APDU behind
them. The card's frames are taken apart by `trans_ParseInputTPDU` and `session_ProcessSPDU`, and
they end with four status bytes.

All sizes are 16 bits, and none of the sums is checked. An APDU of more than 65522 bytes makes
`trans_GetTpduSize` wrap, and one of more than 65526 bytes the size of the memory that is
allocated.
-/

namespace MediaFramework

/-! ## Building -/

/-- `vl_gCardType` -/
inductive PodMode
  | mcard
  | scard
  deriving DecidableEq

/-- `POD_BUFFER`; both pointers are about the memory that was allocated. -/
structure PodBuffer where
  /-- what is at `pOrigin` -/
  pOrigin : List UInt8 := []
  /-- where `pData` points, if it was set -/
  pData : Option ℕ := none
  lSize : ℕ := 0
  deriving DecidableEq

/-- `vlCardManager_PodMemAllocate`; whether there is memory, and what is in it, comes from
outside. -/
def podMem (memory : Option (ℕ → UInt8)) (size : ℕ) : Option (List UInt8) :=
  memory.map fun garbage => (List.range size).map garbage

/-- `TRANS_TAG_DATA_LAST` -/
abbrev transTagDataLast : UInt8 := 0xA0

/-- `TRANS_TAG_SB` -/
abbrev transTagSb : UInt8 := 0x80

/-- `trans_CreateTPDU`, undefined where it leaves the memory. -/
def transCreateTPDU (vl_gCardType : PodMode) (memory : Option (ℕ → UInt8)) (bTag TcId : UInt8)
    (lPayloadSize : UInt16) (buffer : PodBuffer) : Option (Bool × PodBuffer) :=
  let n := lPayloadSize.toNat
  match vl_gCardType with
  | .mcard =>
    match podMem memory n with
    | none => some (false, buffer)
    | some mem => some (true, ⟨mem, if n ≠ 0 then some 0 else buffer.pData, n⟩)
  | .scard =>
    let pLengthField := ciSetLength (n + 1)
    let bLengthFieldSize := pLengthField.length
    match podMem memory ((1 + bLengthFieldSize + 1 + n) % 2 ^ 16) with
    | none => some (false, buffer)
    | some mem => do
      let mem ← writeAt mem 0 [if bTag = 0 then transTagDataLast else bTag]
      let mem ← writeAt mem 1 pLengthField
      let mem ← writeAt mem (1 + bLengthFieldSize : ℕ) [TcId]
      return (true,
        ⟨mem, if n ≠ 0 then some (1 + bLengthFieldSize + 1) else buffer.pData,
          (1 + bLengthFieldSize + 1 + n) % 2 ^ 16⟩)

/-- `SESS_TAG_SESSION_NUMBER` -/
abbrev sessTagSessionNumber : UInt8 := 0x90

/-- `session_CreateSPDU`, undefined also where `pData` was not set. -/
def sessionCreateSPDU (vl_gCardType : PodMode) (memory : Option (ℕ → UInt8)) (TcId : UInt8)
    (wSessionNb lPayloadSize : UInt16) (buffer : PodBuffer) : Option (Bool × PodBuffer) := do
  let (ok, buffer) ← transCreateTPDU vl_gCardType memory 0 TcId (1 + 1 + 2 + lPayloadSize) buffer
  if ok then
    let pData ← buffer.pData
    let mem ← writeAt buffer.pOrigin pData (sessTagSessionNumber :: 0x02 ::
      byteStreamPutWord wSessionNb.toNat)
    return (true, { buffer with pOrigin := mem, pData := some (pData + 4) })
  else return (false, buffer)

/-- The bytes of an APDU. -/
def apduBytes (pApdu : ℕ → UInt8) (Length : UInt16) : List UInt8 :=
  (List.range Length.toNat).map pApdu

/-- The loop of `AM_APDU_FROM_HOST` that copies the APDU. -/
def PodBuffer.copyApdu (buffer : PodBuffer) (pApdu : ℕ → UInt8) (Length : UInt16) :
    Option PodBuffer := do
  let pData ← buffer.pData
  let mem ← writeAt buffer.pOrigin pData (apduBytes pApdu Length)
  return { buffer with pOrigin := mem }

/-! ## Taking apart -/

/-- `T_TPDU_IN` -/
structure TpduIn where
  bTag : ℕ
  TcId : ℕ
  lDataSize : ℕ
  /-- what lies from `pData` on -/
  pData : Option (List UInt8)
  bDA : Bool

/-- `trans_ParseInputTPDU`; it returns `FALSE` for a null pointer only. -/
def transParseInputTPDU (pData : List UInt8) : Option TpduIn := do
  let bTag ← octet pData 0
  if bTag ≠ transTagSb.toNat then
    let (len, bSizeLength) ← bGetTLVLength (pData.drop 1)
    let lDataSize := (len + (2 ^ 16 - 1)) % 2 ^ 16
    let TcId ← octet pData (1 + bSizeLength)
    let bTCStatus ← octet pData (1 + bSizeLength + 1 + lDataSize + 3)
    return ⟨bTag, TcId, lDataSize, some (pData.drop (1 + bSizeLength + 1)), bTCStatus.testBit 7⟩
  else
    let TcId ← octet pData 2
    let bTCStatus ← octet pData 3
    return ⟨bTag, TcId, 0, none, bTCStatus.testBit 7⟩

/-- `trans_GetTpduSize` -/
def transGetTpduSize (pData : List UInt8) : Option ℕ := do
  let bTag ← octet pData 0
  if bTag = transTagSb.toNat then return 4
  let (lPayloadSize, bSizeLength) ← bGetTLVLength (pData.drop 1)
  return (1 + bSizeLength + lPayloadSize + 4) % 2 ^ 16

/-- What `session_ProcessSPDU` calls. -/
inductive SpduCall
  /-- `AM_OPEN_SS_REQ` -/
  | openSsReq (lResourceId TcId : ℕ)
  /-- `session_HandleCloseReq`, for the session -/
  | handleCloseReq (wSessionNb TcId : ℕ)
  /-- `AM_SS_CLOSED` -/
  | ssClosed (wSessionNb : ℕ)
  /-- `AM_APDU_FROM_POD`, with what lies from its pointer on -/
  | apduFromPod (wSessionNb : ℕ) (pData : List UInt8) (lSize : ℕ)
  | nothing

/-- `session_ProcessSPDU`: from `pSPDU` on, with the size that the buffer has. -/
def sessionProcessSPDU (pSPDU : List UInt8) (lSize TcId : ℕ) : Option SpduCall := do
  let tag ← octet pSPDU 0
  if tag = 0x91 then
    let lResourceId ← number pSPDU 2 4
    return .openSsReq lResourceId TcId
  else if tag = 0x94 then return .nothing
  else if tag = 0x95 then
    let wSessionNb ← byteStreamGetWord pSPDU 2
    return .handleCloseReq wSessionNb TcId
  else if tag = 0x96 then
    let (_, bLengthFieldSize) ← bGetTLVLength (pSPDU.drop 1)
    let wSessionNb ← byteStreamGetWord pSPDU (1 + bLengthFieldSize)
    return .ssClosed wSessionNb
  else if tag = sessTagSessionNumber.toNat then
    let (_, bLengthFieldSize) ← bGetTLVLength (pSPDU.drop 1)
    let wSessionNb ← byteStreamGetWord pSPDU (1 + bLengthFieldSize)
    return .apduFromPod wSessionNb (pSPDU.drop (1 + bLengthFieldSize + 2))
      ((lSize + (2 ^ 16 - (1 + bLengthFieldSize + 2))) % 2 ^ 16)
  else return .nothing

/-! ## There and back -/

/-- The size of a TPDU, where nothing wraps. -/
def tpduSize (lPayloadSize : ℕ) : ℕ :=
  1 + (if lPayloadSize + 1 < 0x80 then 1 else 3) + 1 + lPayloadSize

/-- What is sent, with any status behind it, gives back the connection, the session and the
APDU. -/
def ReadsBack (TcId : UInt8) (wSessionNb Length : UInt16) (pApdu : ℕ → UInt8)
    (sent : List UInt8) : Prop :=
  ∀ s₀ s₁ s₂ s₃ : UInt8, ∃ tpdu pSPDU pData,
    transParseInputTPDU (sent ++ [s₀, s₁, s₂, s₃]) = some tpdu ∧
    tpdu.TcId = TcId.toNat ∧ tpdu.pData = some pSPDU ∧
    sessionProcessSPDU pSPDU tpdu.lDataSize tpdu.TcId =
      some (.apduFromPod wSessionNb.toNat pData Length.toNat) ∧
    apduBytes pApdu Length <+: pData

/-- **An APDU comes back.** There is room for it, what is sent gives it back, and the size that is
found is that of what is sent and the four bytes of the status. -/
def ComesBack (TcId : UInt8) (wSessionNb Length : UInt16) (pApdu : ℕ → UInt8)
    (built : PodBuffer) : Prop :=
  ∃ sent, built.copyApdu pApdu Length = some sent ∧ sent.lSize = sent.pOrigin.length ∧
    ReadsBack TcId wSessionNb Length pApdu sent.pOrigin ∧
    ∀ status : List UInt8, transGetTpduSize (sent.pOrigin ++ status) = some (sent.lSize + 4)

/-- **The frames are right.** `session_CreateSPDU` refuses, or the APDU comes back and no size
wraps. -/
def FramesWell (memory : Option (ℕ → UInt8)) (TcId : UInt8) (wSessionNb Length : UInt16)
    (pApdu : ℕ → UInt8) (buffer : PodBuffer) : Prop :=
  ∃ ok built, sessionCreateSPDU .scard memory TcId wSessionNb Length buffer = some (ok, built) ∧
    (ok = true → ComesBack TcId wSessionNb Length pApdu built) ∧
    (2 ^ 16 ≤ tpduSize (4 + Length.toNat) + 4 → ok = false)

section Frames

variable {memory : Option (ℕ → UInt8)} {garbage : ℕ → UInt8} {TcId : UInt8}
variable {wSessionNb Length : UInt16} {pApdu : ℕ → UInt8} {buffer built : PodBuffer}

/-- A write behind what was written. -/
theorem writeAt_next {done rest zs : List UInt8} {a : ℤ} (ha : a = done.length)
    (hzs : zs.length ≤ rest.length) :
    writeAt (done ++ rest) a zs = some (done ++ zs ++ rest.drop zs.length) := by
  have hsplit : writeAt (done ++ (rest.take zs.length ++ rest.drop zs.length)) a zs = _ :=
    BufStream.writeAt_split ha (List.length_take_of_le hzs)
  rwa [List.take_append_drop, ← List.append_assoc] at hsplit

/-! ## The transport layer -/

/-- What stands in front of the payload of a TPDU. -/
def tpduHeader (bTag TcId : UInt8) (n : ℕ) : List UInt8 := bTag :: ciSetLength (n + 1) ++ [TcId]

theorem length_ciSetLength (n : ℕ) : (ciSetLength n).length = if n < 0x80 then 1 else 3 := by
  rw [ciSetLength]
  split_ifs <;> rfl

theorem length_tpduHeader (bTag TcId : UInt8) (n : ℕ) :
    (tpduHeader bTag TcId n).length = 1 + (ciSetLength (n + 1)).length + 1 := by
  rw [tpduHeader, List.length_append, List.length_cons, List.length_singleton,
    Nat.add_comm 1 (ciSetLength (n + 1)).length]

/-- **A TPDU is built**, where its size fits in 16 bits. -/
theorem transCreateTPDU_scard {lPayloadSize : UInt16} {n : ℕ} (hn : lPayloadSize.toNat = n)
    (hsize : tpduSize n < 2 ^ 16) :
    ∃ rest : List UInt8, rest.length = n ∧
      transCreateTPDU .scard (some garbage) 0 TcId lPayloadSize buffer =
        some (true, ⟨tpduHeader transTagDataLast TcId n ++ rest,
          if n ≠ 0 then some (tpduHeader transTagDataLast TcId n).length else buffer.pData,
          tpduSize n⟩) := by
  have htotal : 1 + (ciSetLength (n + 1)).length + 1 + n = tpduSize n := by
    rw [tpduSize, length_ciSetLength]
  obtain ⟨mem, hmem⟩ : ∃ mem, (List.range (tpduSize n)).map garbage = mem := ⟨_, rfl⟩
  have hlength : mem.length = 1 + (ciSetLength (n + 1)).length + 1 + n := by
    rw [← hmem, List.length_map, List.length_range, htotal]
  have htag : writeAt mem 0 [transTagDataLast] = some ([transTagDataLast] ++ mem.drop 1) :=
    writeAt_next (show 0 = (([] : List UInt8).length : ℤ) from rfl)
      (by rw [List.length_singleton]; omega)
  have hfield : writeAt ([transTagDataLast] ++ mem.drop 1) 1 (ciSetLength (n + 1)) =
      some ([transTagDataLast] ++ ciSetLength (n + 1) ++
        (mem.drop 1).drop (ciSetLength (n + 1)).length) :=
    writeAt_next rfl (by rw [List.length_drop]; omega)
  have hTcId : writeAt ([transTagDataLast] ++ ciSetLength (n + 1) ++
      (mem.drop 1).drop (ciSetLength (n + 1)).length) (1 + (ciSetLength (n + 1)).length : ℕ)
      [TcId] = some ([transTagDataLast] ++ ciSetLength (n + 1) ++ [TcId] ++
        ((mem.drop 1).drop (ciSetLength (n + 1)).length).drop 1) := by
    refine writeAt_next ?_ ?_
    · rw [List.length_append, List.length_singleton]
    · rw [List.length_drop, List.length_drop, List.length_singleton]
      omega
  refine ⟨((mem.drop 1).drop (ciSetLength (n + 1)).length).drop 1, ?_, ?_⟩
  · simp only [List.length_drop]
    omega
  · rw [transCreateTPDU, hn, htotal, Nat.mod_eq_of_lt hsize, podMem, Option.map_some, hmem,
      if_pos rfl]
    dsimp only
    rw [htag]
    dsimp only [Option.bind_eq_bind, Option.bind_some]
    rw [hfield]
    dsimp only [Option.bind_some]
    rw [hTcId, length_tpduHeader]
    rfl

theorem encodes_tpduLength {n : ℕ} (h : tpduSize n < 2 ^ 16) :
    Encodes (n + 1) (ciSetLength (n + 1)) := by
  rw [tpduSize] at h
  exact encodes_ciSetLength (by omega)

/-- **A TPDU is taken apart.** -/
theorem transParseInputTPDU_tpdu {n : ℕ} {payload : List UInt8} (hn : payload.length = n)
    (hsize : tpduSize n < 2 ^ 16) (s₀ s₁ s₂ s₃ : UInt8) :
    transParseInputTPDU (tpduHeader transTagDataLast TcId n ++ payload ++ [s₀, s₁, s₂, s₃]) =
      some ⟨transTagDataLast.toNat, TcId.toNat, n, some (payload ++ [s₀, s₁, s₂, s₃]),
        s₃.toNat.testBit 7⟩ := by
  have hframe : tpduHeader transTagDataLast TcId n ++ payload ++ [s₀, s₁, s₂, s₃] =
      transTagDataLast :: (ciSetLength (n + 1) ++ (TcId :: (payload ++ [s₀, s₁, s₂, s₃]))) := by
    simp only [tpduHeader, List.cons_append, List.append_assoc, List.nil_append]
  have hTcId : octet (transTagDataLast :: (ciSetLength (n + 1) ++
      (TcId :: (payload ++ [s₀, s₁, s₂, s₃])))) (1 + (ciSetLength (n + 1)).length) =
        some TcId.toNat := by
    rw [← List.cons_append, octet_behind (i := 0) (by rw [List.length_cons]; omega)]
    rfl
  have hstatus : octet (tpduHeader transTagDataLast TcId n ++ payload ++ [s₀, s₁, s₂, s₃])
      (1 + (ciSetLength (n + 1)).length + 1 + n + 3) = some s₃.toNat := by
    rw [octet_behind (i := 3) (by rw [List.length_append, length_tpduHeader, hn])]
    rfl
  have hdata : (tpduHeader transTagDataLast TcId n ++ payload ++ [s₀, s₁, s₂, s₃]).drop
      (1 + (ciSetLength (n + 1)).length + 1) = payload ++ [s₀, s₁, s₂, s₃] := by
    rw [← length_tpduHeader transTagDataLast TcId, List.append_assoc, List.drop_left]
  rw [hframe] at hstatus hdata
  have hlen : n + 1 + (2 ^ 16 - 1) = n + 2 ^ 16 := by omega
  have hsmall : n < 2 ^ 16 := by
    rw [tpduSize] at hsize
    omega
  rw [hframe, transParseInputTPDU, octet_cons_zero]
  dsimp only [Option.bind_eq_bind, Option.bind_some]
  rw [if_pos (by decide), List.drop_one, List.tail_cons,
    bGetTLVLength_of_encodes (encodes_tpduLength hsize)]
  dsimp only [Option.bind_some]
  rw [hlen, Nat.add_mod_right, Nat.mod_eq_of_lt hsmall, hTcId]
  rw [hstatus, hdata]
  rfl

/-- The size that `trans_GetTpduSize` finds. -/
theorem transGetTpduSize_tpdu {n : ℕ} {payload : List UInt8} (hsize : tpduSize n < 2 ^ 16) :
    transGetTpduSize (tpduHeader transTagDataLast TcId n ++ payload) =
      some ((tpduSize n + 4) % 2 ^ 16) := by
  have hframe : tpduHeader transTagDataLast TcId n ++ payload =
      transTagDataLast :: (ciSetLength (n + 1) ++ (TcId :: payload)) := by
    simp only [tpduHeader, List.cons_append, List.append_assoc, List.nil_append]
  rw [hframe, transGetTpduSize, octet_cons_zero]
  dsimp only [Option.bind_eq_bind, Option.bind_some]
  rw [if_neg (by decide), List.drop_one, List.tail_cons,
    bGetTLVLength_of_encodes (encodes_tpduLength hsize)]
  rw [length_ciSetLength, tpduSize, Nat.add_right_comm _ 1 n, Nat.add_assoc _ n 1]
  rfl

/-! ## The session layer -/

/-- What stands in front of the APDU. -/
def spduHeader (wSessionNb : UInt16) : List UInt8 :=
  sessTagSessionNumber :: 0x02 :: byteStreamPutWord wSessionNb.toNat

theorem length_spduHeader (wSessionNb : UInt16) : (spduHeader wSessionNb).length = 4 := rfl

theorem toNat_payloadSize (h : 4 + Length.toNat < 2 ^ 16) :
    (1 + 1 + 2 + Length : UInt16).toNat = 4 + Length.toNat := by
  rw [UInt16.toNat_add]
  exact Nat.mod_eq_of_lt h

/-- **An SPDU is built**, where its size fits in 16 bits. -/
theorem sessionCreateSPDU_scard (hsize : tpduSize (4 + Length.toNat) < 2 ^ 16) :
    ∃ rest : List UInt8, rest.length = Length.toNat ∧
      sessionCreateSPDU .scard (some garbage) TcId wSessionNb Length buffer =
        some (true, ⟨tpduHeader transTagDataLast TcId (4 + Length.toNat) ++ spduHeader wSessionNb ++
          rest, some ((tpduHeader transTagDataLast TcId (4 + Length.toNat)).length + 4),
          tpduSize (4 + Length.toNat)⟩) := by
  have hpayload : (1 + 1 + 2 + Length : UInt16).toNat = 4 + Length.toNat := by
    refine toNat_payloadSize ?_
    rw [tpduSize] at hsize
    omega
  obtain ⟨rest, hrest, hcreate⟩ : ∃ rest : List UInt8, rest.length = 4 + Length.toNat ∧
      transCreateTPDU .scard (some garbage) 0 TcId (1 + 1 + 2 + Length) buffer = some _ :=
    transCreateTPDU_scard hpayload hsize
  have hwrite : writeAt (tpduHeader transTagDataLast TcId (4 + Length.toNat) ++ rest)
      (tpduHeader transTagDataLast TcId (4 + Length.toNat)).length (spduHeader wSessionNb) =
        some _ :=
    writeAt_next rfl (by rw [hrest, length_spduHeader]; omega)
  refine ⟨rest.drop 4, by rw [List.length_drop]; omega, ?_⟩
  rw [sessionCreateSPDU, hcreate, if_pos (by omega)]
  dsimp only [Option.bind_eq_bind, Option.bind_some]
  rw [if_pos rfl]
  show (writeAt (tpduHeader transTagDataLast TcId (4 + Length.toNat) ++ rest)
    (tpduHeader transTagDataLast TcId (4 + Length.toNat)).length (spduHeader wSessionNb)).bind _ = _
  rw [hwrite]
  rfl

/-- **The APDU is found.** -/
theorem sessionProcessSPDU_spdu {rest : List UInt8} {n : ℕ} (hn : n < 2 ^ 16) :
    sessionProcessSPDU (spduHeader wSessionNb ++ rest) (4 + n) TcId.toNat =
      some (.apduFromPod wSessionNb.toNat rest n) := by
  show some (SpduCall.apduFromPod ((UInt8.ofNat (wSessionNb.toNat >>> 8)).toNat <<< 8 |||
    (UInt8.ofNat wSessionNb.toNat).toNat) rest ((4 + n + (2 ^ 16 - 4)) % 2 ^ 16)) = _
  have hsum : 4 + n + (2 ^ 16 - 4) = n + 2 ^ 16 := by omega
  rw [word_of_bytes wSessionNb.toNat_lt, hsum, Nat.add_mod_right, Nat.mod_eq_of_lt hn]

/-- **What is sent and what comes back**, where the size of the TPDU fits in 16 bits. -/
theorem readsBack_of_size (garbage pApdu : ℕ → UInt8) (TcId : UInt8) (wSessionNb Length : UInt16)
    (buffer : PodBuffer) (hsize : tpduSize (4 + Length.toNat) < 2 ^ 16) :
    ∃ built sent, sessionCreateSPDU .scard (some garbage) TcId wSessionNb Length buffer =
        some (true, built) ∧ built.copyApdu pApdu Length = some sent ∧
      sent.lSize = tpduSize (4 + Length.toNat) ∧ sent.lSize = sent.pOrigin.length ∧
      ReadsBack TcId wSessionNb Length pApdu sent.pOrigin ∧
      ∀ status : List UInt8,
        transGetTpduSize (sent.pOrigin ++ status) = some ((sent.lSize + 4) % 2 ^ 16) := by
  have hlength : (apduBytes pApdu Length).length = Length.toNat := by
    rw [apduBytes, List.length_map, List.length_range]
  obtain ⟨rest, hrest, hcreate⟩ : ∃ rest : List UInt8, rest.length = Length.toNat ∧
      sessionCreateSPDU .scard (some garbage) TcId wSessionNb Length buffer = some _ :=
    sessionCreateSPDU_scard hsize
  let front := tpduHeader transTagDataLast TcId (4 + Length.toNat) ++ spduHeader wSessionNb
  have hfront : front.length =
      (tpduHeader transTagDataLast TcId (4 + Length.toNat)).length + 4 := List.length_append
  have hcopy : writeAt (front ++ rest)
      ((tpduHeader transTagDataLast TcId (4 + Length.toNat)).length + 4 : ℕ)
      (apduBytes pApdu Length) = some (front ++ apduBytes pApdu Length) := by
    rw [writeAt_next (by rw [hfront]) (by omega), hlength, ← hrest, List.drop_length,
      List.append_nil]
  have hsent : front ++ apduBytes pApdu Length =
      tpduHeader transTagDataLast TcId (4 + Length.toNat) ++
        (spduHeader wSessionNb ++ apduBytes pApdu Length) := List.append_assoc ..
  refine ⟨_, ⟨front ++ apduBytes pApdu Length,
    some ((tpduHeader transTagDataLast TcId (4 + Length.toNat)).length + 4),
    tpduSize (4 + Length.toNat)⟩, hcreate, ?_, rfl, ?_, ?_, ?_⟩
  · rw [PodBuffer.copyApdu]
    dsimp only [Option.bind_eq_bind, Option.bind_some]
    rw [hcopy]
    rfl
  · dsimp only
    rw [List.length_append, hfront, length_tpduHeader, length_ciSetLength, hlength, tpduSize]
    omega
  · intro s₀ s₁ s₂ s₃
    have hpayload : (spduHeader wSessionNb ++ apduBytes pApdu Length).length =
        4 + Length.toNat := by
      rw [List.length_append, length_spduHeader, hlength]
    have hparse : transParseInputTPDU (tpduHeader transTagDataLast TcId (4 + Length.toNat) ++
        (spduHeader wSessionNb ++ apduBytes pApdu Length) ++ [s₀, s₁, s₂, s₃]) = some _ :=
      transParseInputTPDU_tpdu hpayload hsize s₀ s₁ s₂ s₃
    rw [← hsent] at hparse
    refine ⟨_, _, _, hparse, rfl, rfl, ?_, List.prefix_append _ [s₀, s₁, s₂, s₃]⟩
    rw [List.append_assoc]
    exact sessionProcessSPDU_spdu Length.toNat_lt
  · intro status
    rw [hsent, List.append_assoc]
    exact transGetTpduSize_tpdu hsize

/-! ## What does not fit -/

theorem length_writeAt {mem mem' bytes : List UInt8} {a : ℕ} (h : writeAt mem a bytes = some mem')
    (hne : bytes ≠ []) : a + bytes.length ≤ mem.length ∧ mem'.length = mem.length := by
  rw [writeAt, if_neg hne] at h
  split_ifs at h with hplace
  cases h
  refine ⟨hplace.2, ?_⟩
  simp only [List.length_append, List.length_take, List.length_drop]
  omega

/-- Its header is in the memory. -/
theorem length_of_transCreateTPDU {bTag : UInt8} {lPayloadSize : UInt16} {ok : Bool} {n : ℕ}
    (hn : lPayloadSize.toNat = n)
    (h : transCreateTPDU .scard (some garbage) bTag TcId lPayloadSize buffer = some (ok, built)) :
    ok = true ∧ built.pOrigin.length = tpduSize n % 2 ^ 16 ∧
      tpduSize n - n ≤ built.pOrigin.length ∧
      (n ≠ 0 → built.pData = some (tpduSize n - n)) := by
  have htotal : 1 + (ciSetLength (n + 1)).length + 1 + n = tpduSize n := by
    rw [tpduSize, length_ciSetLength]
  rw [transCreateTPDU, hn, htotal, podMem, Option.map_some] at h
  simp only [Option.bind_eq_bind, Option.bind_eq_some_iff] at h
  obtain ⟨mem₁, htag, mem₂, hfield, mem₃, hTcId, hbuilt⟩ := h
  obtain ⟨rfl, rfl⟩ := Prod.mk.inj (Option.some.inj hbuilt)
  obtain ⟨-, hlength₁⟩ := length_writeAt (a := 0) htag (List.cons_ne_nil _ _)
  obtain ⟨-, hlength₂⟩ := length_writeAt (a := 1) hfield (by
    rw [ciSetLength]
    split_ifs <;> exact List.cons_ne_nil _ _)
  obtain ⟨hplace, hlength₃⟩ := length_writeAt hTcId (List.cons_ne_nil _ _)
  rw [List.length_map, List.length_range] at hlength₁
  rw [List.length_singleton] at hplace
  have hheader : 1 + (ciSetLength (n + 1)).length + 1 = tpduSize n - n := by omega
  have hmem : mem₃.length = tpduSize n % 2 ^ 16 := by omega
  refine ⟨rfl, hmem, (show tpduSize n - n ≤ mem₃.length by omega), fun hpos => ?_⟩
  rw [← hheader]
  exact if_pos hpos

/-- **What is not refused fits**, or the memory is left. -/
theorem tpduSize_of_sessionCreateSPDU {ok : Bool}
    (h : sessionCreateSPDU .scard (some garbage) TcId wSessionNb Length buffer =
      some (ok, built)) : ok = true ∧ tpduSize (4 + Length.toNat) < 2 ^ 16 := by
  rw [sessionCreateSPDU] at h
  simp only [Option.bind_eq_bind, Option.bind_eq_some_iff] at h
  obtain ⟨⟨ok', header⟩, hcreate, h⟩ := h
  obtain ⟨rfl, hlength, hheader, hpData⟩ := length_of_transCreateTPDU rfl hcreate
  simp only [if_true, Option.bind_eq_some_iff] at h
  obtain ⟨pData, hset, mem, hwrite, hbuilt⟩ := h
  obtain ⟨hplace, -⟩ := length_writeAt hwrite (List.cons_ne_nil _ _)
  refine ⟨(congrArg Prod.fst (Option.some.inj hbuilt)).symm, ?_⟩
  have hsize : (1 + 1 + 2 + Length : UInt16).toNat = (4 + Length.toNat) % 2 ^ 16 :=
    UInt16.toNat_add ..
  have hLength := Length.toNat_lt
  rw [hsize] at hlength hheader hpData
  rw [List.length_cons, List.length_cons, byteStreamPutWord, List.length_cons,
    List.length_singleton] at hplace
  by_contra hlarge
  by_cases hzero : (4 + Length.toNat) % 2 ^ 16 = 0
  · rw [hzero] at hlength
    rw [hlength] at hplace
    exact absurd hplace (by
      rw [show tpduSize 0 % 2 ^ 16 = 3 from rfl]
      omega)
  · obtain rfl := Option.some.inj (hset.symm.trans (hpData hzero))
    unfold tpduSize at *
    split_ifs at * <;> omega

/-- **The frames**: they are right where there is no memory, and for an APDU of up to 65522
bytes. -/
theorem framesWell_iff : FramesWell memory TcId wSessionNb Length pApdu buffer ↔
    memory = none ∨ Length.toNat ≤ 65522 := by
  constructor
  · rintro ⟨ok, built, hcreate, -, hwrap⟩
    cases memory with
    | none => exact .inl rfl
    | some garbage =>
      obtain ⟨rfl, hsize⟩ := tpduSize_of_sessionCreateSPDU hcreate
      refine .inr ?_
      by_contra hlong
      refine absurd (hwrap ?_) (by decide)
      rw [tpduSize]
      split_ifs <;> omega
  · rintro (rfl | hshort)
    · exact ⟨false, _, rfl, (by intro h; cases h), fun _ => rfl⟩
    · cases memory with
      | none => exact ⟨false, _, rfl, (by intro h; cases h), fun _ => rfl⟩
      | some garbage =>
        have hsize : tpduSize (4 + Length.toNat) + 4 < 2 ^ 16 := by
          rw [tpduSize]
          split_ifs <;> omega
        obtain ⟨built, sent, hcreate, hcopy, hlSize, hlength, hback, hget⟩ :=
          readsBack_of_size garbage pApdu TcId wSessionNb Length buffer (by omega)
        refine ⟨true, built, hcreate, fun _ => ⟨sent, hcopy, hlength, hback, fun status => ?_⟩,
          fun hwrap => absurd hsize (Nat.not_lt_of_le hwrap)⟩
        rw [hget, hlSize, Nat.mod_eq_of_lt hsize]

/-- An APDU of 65532 bytes: three bytes are allocated, and `pData` is not set. -/
theorem framesWell_65532 : ¬ FramesWell (some fun _ => 0) 1 1 65532 (fun _ => 0) {} := by
  rintro ⟨ok, built, hcreate, -⟩
  cases hcreate

end Frames

end MediaFramework
