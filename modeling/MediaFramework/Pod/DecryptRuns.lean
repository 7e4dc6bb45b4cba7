import MediaFramework.Pod.CaApdus

/-!
# Runs of the decrypt session manager

The calls of the clients, the APDUs of the card and the events of the card come in any order, and
each meets with whatever outcome there is.

What a call leaves is said once for each: a query of the resources may change the count of the
tuners, a row is committed or released, and an APDU changes the row that it is for. In every state
of a run a row has a list of streams exactly if it is in use, its `tunerId` is zero, and no request
has the command `not_selected` to be activated with.
-/

namespace MediaFramework

/-! ## Steps -/

/-- A step of the decrypt session manager, with what it meets. -/
inductive DecryptAction
  | start (p : DecryptRequestParams) (o : StartOutcome)
  | stop (handle : ℕ) (sent : CaPmtResult)
  | apdu (sessionId : BitVec 32) (apdu : Apdu) (outerSent innerSent : CaPmtResult)
  /-- `RMF_PODSRV_EVENT_READY` -/
  | cardReady
  | caSystemReady (e : CaSystemReady)
  /-- the event handler thread goes on activating the suspended sessions -/
  | activate (sent : CaPmtResult) (pidInfos : ℕ)
  | cardRemoved
  /-- `RMF_PODSRV_EVENT_RESET_PENDING`, which is not processed -/
  | resetPending

namespace DecryptSessions

/-- The step has to wait: for `table_mutex`, or for the event handler thread. -/
def waits (s : DecryptSessions) : DecryptAction → Bool
  | .start .. | .stop .. | .apdu .. =>
    match s.worker with
    | .activating _ => true
    | .idle | .connected => false
  | .cardReady | .caSystemReady _ | .cardRemoved | .resetPending => s.worker != .idle
  | .activate .. => false

/-- The step, once it need not wait. -/
def act (s : DecryptSessions) : DecryptAction → Option DecryptSessions
  | .start p o => (s.podmgrStartDecrypt p o).map Prod.snd
  | .stop handle sent => s.podmgrStopDecrypt handle sent
  | .apdu sessionId apdu outerSent innerSent =>
    s.podProcessApdu sessionId apdu outerSent innerSent
  | .cardReady => some { s with ready := true }
  | .caSystemReady e => some (s.caSystemReady e)
  | .activate sent pidInfos => s.activate sent pidInfos
  | .cardRemoved => s.cardRemoved
  | .resetPending => some s

/-- One step. A step that has to wait is not taken yet. -/
def step (s : DecryptSessions) (a : DecryptAction) : Option DecryptSessions :=
  if s.waits a then some s else s.act a

/-- The state at first, for the configuration of the box. -/
def booted (caEnable queryDisabled : Bool) : DecryptSessions where
  caEnable := caEnable
  queryDisabled := queryDisabled

/-- A card for four programs on two tuners is put in. -/
def cardInserted : List DecryptAction :=
  [.cardReady, .caSystemReady { maxNumEs := some 8, maxNumPrograms := some 4, maxNumTs := some 2 },
    .activate .success 255, .activate .success 255]

/-- A program with two streams, on a tuner. -/
def twoStreams (tunerId : BitVec 32) : DecryptRequestParams where
  tunerId := tunerId
  ltsId := 1
  priority := 31
  pDescriptor :=
    { prgNo := 3
      srcId := 7
      caDescFound := 1
      noES := 2
      pESInfo := some [⟨0x100, 0⟩, ⟨0x101, 0⟩]
      length_pESInfo := fun _ hl => by
        cases hl
        rfl }

/-! ## Rows and requests of a state -/

variable {s s' : DecryptSessions} {i j : ℕ} {row row' : ProgramIndexTableRow}

@[simp] theorem rowList_setRow : (s.setRow i row).rowList = s.rowList.set i row := by
  unfold rowList setRow
  cases s.rows with
  | none => rfl
  | some rows => rfl

theorem rowList_setRow_setRow : ((s.setRow i row).setRow i row').rowList = s.rowList.set i row' := by
  rw [rowList_setRow, rowList_setRow, List.set_set]

theorem rows_setRow_setRow : ((s.setRow i row).setRow i row').rows = (s.setRow i row').rows := by
  unfold setRow
  cases s.rows with
  | none => rfl
  | some rows => exact congrArg some (List.set_set ..)

theorem rowList_of_rows {rows : List ProgramIndexTableRow} (h : s.rows = some rows) :
    s.rowList = rows := by
  unfold rowList
  rw [h]
  rfl

theorem rows_of_getElem? (h : s.rowList[i]? = some row) : s.rows = some s.rowList := by
  rcases hrows : s.rows with _ | rows
  · unfold rowList at h
    rw [hrows] at h
    cases h
  · rw [rowList_of_rows hrows]

/-! ## What the calls do -/

/-- A query changes no more than the count of the tuners, and finds something only where there
are rows. -/
theorem checkAvailableResources_cases {tunerId : BitVec 8} {n : ℕ} {available : Bool}
    (h : s.checkAvailableResources tunerId n = some (available, s')) :
    (∃ used, s' = { s with transportStreamsUsed := used }) ∧
      (available = true → s.rows ≠ none ∧ s.available n = true) := by
  unfold checkAvailableResources at h
  split at h
  case h_1 hnone =>
    cases h
    exact ⟨⟨_, rfl⟩, fun hfalse => absurd hfalse (by decide)⟩
  case h_2 rows hrows =>
    have hsome : s.rows ≠ none := fun hnone => by
      rw [hrows] at hnone
      cases hnone
    split_ifs at h with hzero
    · cases h
      exact ⟨⟨_, rfl⟩, fun havailable => ⟨hsome, havailable⟩⟩
    · obtain ⟨inUse, -, h⟩ := Option.bind_eq_some_iff.mp h
      cases h
      refine ⟨?_, fun havailable => ⟨hsome, havailable⟩⟩
      cases inUse with
      | true => exact ⟨_, rfl⟩
      | false => exact ⟨_, rfl⟩

variable {programIdx : BitVec 8}

/-- An event is sent to the sessions of a row, and nothing else is done. -/
theorem sendEventImpl_cases {event : DecryptSessionEvent}
    (h : s.sendEventImpl event programIdx = some s') :
    ∃ posted, s' = { s with posted := posted } := by
  unfold sendEventImpl at h
  split at h
  · cases h
    exact ⟨_, rfl⟩
  · obtain ⟨sessions, -, rfl⟩ := Option.map_eq_some_iff.mp h
    exact ⟨_, rfl⟩

variable {pidInfos : ℕ}

/-- A row is committed. -/
theorem commitRow_cases {caPmtCmdId : CaPmtCommand} {d : ParsedDescriptors}
    {transactionId tunerId ltsId : BitVec 8} {state : DecryptState}
    (h : s.commitRow i caPmtCmdId d transactionId tunerId ltsId state pidInfos = some s')
    (hrows : s.rows ≠ none) :
    ∃ inUse row streams, s.tunerInUse tunerId = some inUse ∧ s.rowList[i]? = some row ∧
      d.copyStreams pidInfos = some streams ∧
      s' = { s.setRow i (committedRow row caPmtCmdId d transactionId tunerId ltsId state streams)
        with
        transportStreamsUsed :=
          if inUse then s.transportStreamsUsed else s.transportStreamsUsed + 1
        programsUsed := s.programsUsed + 1
        elementaryStreamsUsed := s.elementaryStreamsUsed + d.numStreams } := by
  unfold commitRow at h
  split at h
  case h_1 hnone => exact absurd hnone hrows
  case h_2 rows hrows =>
    obtain ⟨inUse, hinUse, h⟩ := Option.bind_eq_some_iff.mp h
    obtain ⟨row, hrow, h⟩ := Option.bind_eq_some_iff.mp h
    obtain ⟨streams, hstreams, h⟩ := Option.bind_eq_some_iff.mp h
    refine ⟨inUse, row, streams, hinUse, ?_, hstreams, ?_⟩
    · rw [rowList_of_rows hrows]
      exact hrow
    · rw [← Option.some.inj h, setRow, hrows]
      rfl

/-- A row is released. -/
theorem releaseRow_cases (h : s.releaseRow i = some s') (hrows : s.rows ≠ none) :
    ∃ row, s.rowList[i]? = some row ∧
      s' = { s.setRow i { transactionId := row.transactionId } with
        programsUsed := s.programsUsed - 1
        elementaryStreamsUsed := s.elementaryStreamsUsed - row.pidCount
        transportStreamsUsed := s.transportStreamsUsed - 1 } := by
  unfold releaseRow at h
  split at h
  case h_1 hnone => exact absurd hnone hrows
  case h_2 rows hrows =>
    obtain ⟨row, hrow, h⟩ := Option.bind_eq_some_iff.mp h
    refine ⟨row, ?_, ?_⟩
    · rw [rowList_of_rows hrows]
      exact hrow
    · rw [← Option.some.inj h, setRow, hrows]
      rfl

theorem setTransactionId_cases {transactionId : BitVec 8}
    (h : s.setTransactionId i transactionId = some s') :
    ∃ row, s.rowList[i]? = some row ∧
      s' = s.setRow i { row with transactionId := transactionId } := by
  obtain ⟨row, hrow, rfl⟩ := Option.map_eq_some_iff.mp h
  exact ⟨row, hrow, rfl⟩

/-! ### Starting -/

/-- The request of a session that waits. -/
def waitingRequest (s : DecryptSessions) (p : DecryptRequestParams) (o : StartOutcome) :
    RequestTableRow :=
  { p.newRequest s.allocated o.dupMemory with
    programIdx := 255
    state := .waitingForResources }

/-- The request of a session that a CA_PMT is made for. -/
def readyRequest (s : DecryptSessions) (p : DecryptRequestParams) (o : StartOutcome)
    (i : BitVec 8) : RequestTableRow :=
  { p.newRequest s.allocated o.dupMemory with
    programIdx := i
    ltsId := p.ltsId }

/-- A start is refused, or the session waits, or its CA_PMT is made. -/
theorem podmgrStartDecrypt_cases {p : DecryptRequestParams} {o : StartOutcome}
    {result : StartResult} (h : s.podmgrStartDecrypt p o = some (result, s')) :
    s.caEnable = false ∧ result = .started none ∧ s' = s ∨
    s.caEnable = true ∧ ∃ available used,
      s.checkAvailableResources (p.tunerId.setWidth 8) p.pDescriptor.numStreams =
        some (available, { s with transportStreamsUsed := used }) ∧
      (result = .failed ∧ s' = { s with transportStreamsUsed := used } ∨
        available = true ∧ s.ready = false ∧ result = .started (some s.allocated) ∧
          s' = ({ s with
            transportStreamsUsed := used
            allocated := s.allocated + 1 }.addRequest (s.waitingRequest p o)).post
              .resourceLost [s.waitingRequest p o] ∨
        available = true ∧ s.ready = true ∧
          { s with
            transportStreamsUsed := used
            allocated := s.allocated + 1 }.startReady p o
              (p.newRequest s.allocated o.dupMemory) = some (result, s')) := by
  unfold podmgrStartDecrypt at h
  split_ifs at h with hca
  · cases h
    exact .inl ⟨by simpa using hca, rfl, rfl⟩
  · refine .inr ⟨by simpa using hca, ?_⟩
    obtain ⟨⟨available, t⟩, hquery, h⟩ := Option.bind_eq_some_iff.mp h
    obtain ⟨used, rfl⟩ := (checkAvailableResources_cases hquery).1
    refine ⟨available, used, hquery, ?_⟩
    dsimp only at h
    split_ifs at h with hrefused hwait
    · cases h
      exact .inl ⟨rfl, rfl⟩
    · cases h
      have havailable : available = true := by simp_all
      exact .inr (.inl ⟨havailable, by simpa using hwait, rfl, rfl⟩)
    · have havailable : available = true := by simp_all
      exact .inr (.inr ⟨havailable, by simpa using hwait, h⟩)

/-- A row is committed for the request, which is active then. -/
theorem committed_cases {p : DecryptRequestParams} {h pidInfos : ℕ}
    {transactionId : BitVec 8}
    (hcommitted : s.committed p h programIdx transactionId pidInfos = some s') :
    ∃ caPmtCmdId state t posted, caPmtCmdId ≠ .notSelected ∧ state ≠ .notSelected ∧
      s.commitRow programIdx.toNat caPmtCmdId p.pDescriptor transactionId (p.tunerId.setWidth 8)
        p.ltsId state pidInfos = some t ∧
      s' = { t.setRequest h fun r => { r with state := .active, caPmtCmdId := caPmtCmdId } with
        posted := posted } := by
  obtain ⟨t, hcommit, hsend⟩ := Option.bind_eq_some_iff.mp hcommitted
  have hcommand : (if p.skipCaQuery s.queryDisabled = true then CaPmtCommand.okDescramble
      else .query) ≠ .notSelected := by
    split_ifs
    · exact CaPmtCommand.noConfusion
    · exact CaPmtCommand.noConfusion
  have hstate : (if p.skipCaQuery s.queryDisabled = true then DecryptState.descrambling
      else .issuedQuery) ≠ .notSelected := by
    split_ifs
    · exact DecryptState.noConfusion
    · exact DecryptState.noConfusion
  by_cases hevent : (!p.isClear && p.skipCaQuery s.queryDisabled) = true
  · rw [if_pos hevent] at hsend
    obtain ⟨posted, rfl⟩ := sendEventImpl_cases hsend
    exact ⟨_, _, t, posted, hcommand, hstate, hcommit, rfl⟩
  · rw [if_neg hevent] at hsend
    cases hsend
    exact ⟨_, _, t, t.posted, hcommand, hstate, hcommit, rfl⟩

/-- The index that a request gets. -/
def nextIndex (row : Option ℕ) : BitVec 8 := BitVec.ofNat 8 (row.getD 255)

/-- The CA_PMT of a start is sent, and a row committed; or else its request is taken out again. -/
theorem startReady_cases {p : DecryptRequestParams} {o : StartOutcome}
    {result : StartResult} {request : RequestTableRow}
    (h : s.startReady p o request = some (result, s')) :
    ∃ row, s.getNextAvailableRow = some row ∧
      ((o.sent = .success ∧ result = .started (some request.handle) ∧ ∃ transactionId,
          (s.addRequest { request with programIdx := nextIndex row, ltsId := p.ltsId }).committed p
            request.handle (nextIndex row) transactionId o.pidInfos = some s') ∨
        o.sent ≠ .success ∧ result ≠ .started (some request.handle) ∧
          s' = (s.addRequest { request with
            programIdx := nextIndex row
            ltsId := p.ltsId }).removeRequest request.handle) := by
  obtain ⟨row, hrow, h⟩ := Option.bind_eq_some_iff.mp h
  obtain ⟨transactionId, -, h⟩ := Option.bind_eq_some_iff.mp h
  refine ⟨row, hrow, ?_⟩
  cases hsent : o.sent with
  | success =>
    rw [hsent] at h
    obtain ⟨t, hcommitted, h⟩ := Option.bind_eq_some_iff.mp h
    cases h
    exact .inl ⟨rfl, rfl, transactionId, hcommitted⟩
  | noData | error =>
    rw [hsent] at h
    cases h
    exact .inr ⟨CaPmtResult.noConfusion, by simp, rfl⟩

/-! ### Stopping -/

variable {r : RequestTableRow}

/-- A session that is stopped is taken out, and its row is released once the CA_PMT is sent. -/
theorem stopRequest_cases {sent : CaPmtResult}
    (h : s.stopRequest r sent = some s') :
    (s.validProgramIndex r.programIdx.toNat = false ∨ s.rows = none ∨ sent ≠ .success) ∧
        s' = (s.post .sessionShutdown [r]).removeRequest r.handle ∨
      s.validProgramIndex r.programIdx.toNat = true ∧ s.rows ≠ none ∧ sent = .success ∧
        ∃ transactionId t,
          ((s.post .sessionShutdown [r]).removeRequest r.handle).setTransactionId
            r.programIdx.toNat transactionId = some t ∧
          t.releaseRow r.programIdx.toNat = some s' := by
  have hvalid : ((s.post .sessionShutdown [r]).removeRequest r.handle).validProgramIndex
      r.programIdx.toNat = s.validProgramIndex r.programIdx.toNat := rfl
  have hrows : ((s.post .sessionShutdown [r]).removeRequest r.handle).rows = s.rows := rfl
  unfold stopRequest at h
  dsimp only at h
  rw [hvalid, hrows] at h
  by_cases hinvalid : (!s.validProgramIndex r.programIdx.toNat) = true
  · rw [if_pos hinvalid] at h
    exact .inl ⟨.inl (by simpa using hinvalid), (Option.some.inj h).symm⟩
  · rw [if_neg hinvalid] at h
    split at h
    case h_1 hnone => exact .inl ⟨.inr (.inl hnone), (Option.some.inj h).symm⟩
    case h_2 rows hsome =>
      obtain ⟨transactionId, -, h⟩ := Option.bind_eq_some_iff.mp h
      obtain ⟨d, -, h⟩ := Option.bind_eq_some_iff.mp h
      split_ifs at h with hsent
      · obtain ⟨t, ht, h⟩ := Option.bind_eq_some_iff.mp h
        refine .inr ⟨by simpa using hinvalid, ?_, hsent, transactionId, t, ht, h⟩
        rw [hsome]
        exact Option.some_ne_none rows
      · exact .inl ⟨.inr (.inr hsent), (Option.some.inj h).symm⟩

/-! ### Suspending -/

/-- A row that is in use is suspended: its requests, then the row. -/
theorem suspendRow_cases (h : s.suspendRow i = some s') :
    ∃ row, s.rowList[i]? = some row ∧ (row.inUse = false ∧ s' = s ∨
      row.inUse = true ∧ ∃ sessions t,
        ((s.suspendRequests (BitVec.ofNat 8 i)).post .resourceLost sessions).releaseRow
          (BitVec.ofNat 8 i).toNat = some t ∧ t.setTransactionId i 0 = some s') := by
  obtain ⟨row, hrow, h⟩ := Option.bind_eq_some_iff.mp h
  refine ⟨row, hrow, ?_⟩
  split_ifs at h with huse
  · obtain ⟨sessions, -, h⟩ := Option.bind_eq_some_iff.mp h
    obtain ⟨t, hrelease, hset⟩ := Option.bind_eq_some_iff.mp h
    exact .inr ⟨huse, sessions, t, hrelease, hset⟩
  · exact .inl ⟨Bool.eq_false_of_not_eq_true huse, (Option.some.inj h).symm⟩

/-- A row is suspended only where there are rows, and they stay. -/
theorem suspendRow_rows (h : s.suspendRow i = some s') : s.rows ≠ none ∧ s'.rows ≠ none := by
  obtain ⟨row, hrow, hcases⟩ := suspendRow_cases h
  have hrows : s.rows ≠ none := by
    rw [rows_of_getElem? hrow]
    exact Option.some_ne_none _
  refine ⟨hrows, ?_⟩
  rcases hcases with ⟨-, rfl⟩ | ⟨-, sessions, t, hrelease, hset⟩
  · exact hrows
  · have hposted : ((s.suspendRequests (BitVec.ofNat 8 i)).post .resourceLost sessions).rows ≠
        none := hrows
    obtain ⟨row', -, rfl⟩ := releaseRow_cases hrelease hposted
    obtain ⟨row'', -, rfl⟩ := setTransactionId_cases hset
    exact fun hnone => hrows (Option.map_eq_none_iff.mp (Option.map_eq_none_iff.mp hnone))

/-- What suspending a row does to the tables, if its number fits into a byte: its requests wait, and
the row is clear. -/
theorem suspendRow_tables (h : s.suspendRow i = some s') :
    ∃ row, s.rowList[i]? = some row ∧ (row.inUse = false ∧ s' = s ∨ row.inUse = true ∧
      (i < 256 → s'.rowList = s.rowList.set i {} ∧
        s'.requests = (s.suspendRequests (BitVec.ofNat 8 i)).requests ∧
        s'.numRows = s.numRows)) := by
  obtain ⟨row, hrow, hfree | ⟨huse, sessions, t, hrelease, hset⟩⟩ := suspendRow_cases h
  · exact ⟨row, hrow, .inl hfree⟩
  refine ⟨row, hrow, .inr ⟨huse, fun hbyte => ?_⟩⟩
  have hidx : (BitVec.ofNat 8 i).toNat = i := by
    rw [BitVec.toNat_ofNat]
    exact Nat.mod_eq_of_lt hbyte
  have hrows : s.rows ≠ none := by
    rw [rows_of_getElem? hrow]
    exact Option.some_ne_none _
  rw [hidx] at hrelease
  obtain ⟨row₁, -, rfl⟩ := releaseRow_cases hrelease hrows
  obtain ⟨row₂, hrow₂, rfl⟩ := setTransactionId_cases hset
  -- the row that is written last is the one that was released
  have hself : (s.rowList.set i { transactionId := row₁.transactionId })[i]? = some row₂ :=
    (congrArg (·[i]?) (rowList_setRow (s := s))).symm.trans hrow₂
  rw [List.getElem?_set_self (List.getElem?_eq_some_iff.mp hrow).1] at hself
  cases hself
  exact ⟨rowList_setRow_setRow (s := s), rfl, rfl⟩

/-- All rows of a list are suspended, where there are rows; else there is none to suspend. -/
theorem suspendRows_rows {rows : List ℕ} (h : rows.foldlM suspendRow s = some s') :
    s.rows = none ∧ s' = s ∨ s.rows ≠ none ∧ s'.rows ≠ none := by
  induction rows generalizing s with
  | nil =>
    obtain rfl := Option.some.inj h
    by_cases hrows : s.rows = none
    · exact .inl ⟨hrows, rfl⟩
    · exact .inr ⟨hrows, hrows⟩
  | cons i rows ih =>
    obtain ⟨t, ht, h⟩ := Option.bind_eq_some_iff.mp h
    obtain ⟨hrows, htrows⟩ := suspendRow_rows ht
    rcases ih h with ⟨hnone, -⟩ | ⟨-, hrows'⟩
    · exact absurd hnone htrows
    · exact .inr ⟨hrows, hrows'⟩

/-- The rows that are there stay; there are new ones only where there were none. -/
theorem rows_caSystemReady {e : CaSystemReady} :
    s.rows ≠ none ∧ (s.caSystemReady e).rows = s.rows ∨
      s.rows = none ∧ ∀ r ∈ (s.caSystemReady e).rowList, r = {} := by
  cases hrows : s.rows with
  | some rows =>
    refine .inl ⟨Option.some_ne_none rows, ?_⟩
    have hrows' : (s.reportLimits e).rows = some rows := hrows
    unfold caSystemReady initProgramIndexTable
    rw [hrows']
  | none =>
    refine .inr ⟨rfl, fun r hr => ?_⟩
    have hrows' : (s.reportLimits e).rows = none := hrows
    unfold rowList caSystemReady initProgramIndexTable at hr
    rw [hrows'] at hr
    split_ifs at hr
    · exact (List.mem_replicate.mp hr).2
    · exact absurd hr List.not_mem_nil

/-! ### Activating -/

/-- The requests that are asked about wait. -/
theorem waiting_of_mem_askedAbout :
    ∀ {requests : List RequestTableRow} {saved : BitVec 8}, r ∈ askedAbout saved requests →
      r ∈ requests ∧ r.state = .waitingForResources := by
  intro requests
  induction requests with
  | nil =>
    intro saved h
    cases h
  | cons r' requests ih =>
    intro saved h
    unfold askedAbout at h
    split_ifs at h with hwaits
    · rcases List.mem_cons.mp h with rfl | h
      · exact ⟨List.mem_cons_self, hwaits.1⟩
      · exact ⟨List.mem_cons_of_mem r' (ih h).1, (ih h).2⟩
    · exact ⟨List.mem_cons_of_mem r' (ih h).1, (ih h).2⟩

/-- All queries together change no more than the count of the tuners. -/
theorem foldlM_askFor_cases {found : Bool} : ∀ {asked : List RequestTableRow} {before : Bool}
    {s : DecryptSessions}, asked.foldlM askFor (before, s) = some (found, s') →
      (∃ used, s' = { s with transportStreamsUsed := used }) ∧
        (found = true → before = true ∨ s.rows ≠ none) := by
  intro asked
  induction asked with
  | nil =>
    intro before s h
    cases h
    exact ⟨⟨_, rfl⟩, Or.inl⟩
  | cons r asked ih =>
    intro before s h
    obtain ⟨⟨before', t⟩, hask, h⟩ := Option.bind_eq_some_iff.mp h
    obtain ⟨d, -, hask⟩ := Option.bind_eq_some_iff.mp hask
    obtain ⟨⟨available, u⟩, hquery, hask⟩ := Option.bind_eq_some_iff.mp hask
    cases hask
    obtain ⟨⟨used, rfl⟩, hsome⟩ := checkAvailableResources_cases hquery
    obtain ⟨⟨used, rfl⟩, hfound⟩ := ih h
    refine ⟨⟨used, rfl⟩, fun htrue => ?_⟩
    rcases hfound htrue with hbefore | hrows
    · rcases Bool.or_eq_true_iff.mp hbefore with hbefore | havailable
      · exact .inl hbefore
      · exact .inr (hsome havailable).1
    · exact .inr hrows

/-- A request that is found waits, and there are rows. -/
theorem findNextSuspendedRequest_cases {request : Option RequestTableRow}
    (h : s.findNextSuspendedRequest = some (request, s')) :
    (∃ used, s' = { s with transportStreamsUsed := used }) ∧
      ∀ r ∈ request, r ∈ askedAbout 0 s.requests ∧ s.rows ≠ none := by
  obtain ⟨⟨found, t⟩, hfold, h⟩ := Option.bind_eq_some_iff.mp h
  cases h
  obtain ⟨hused, hrows⟩ := foldlM_askFor_cases hfold
  refine ⟨hused, fun r hr => ?_⟩
  cases found with
  | false => exact absurd hr (Option.not_mem_none r)
  | true =>
    refine ⟨List.mem_of_getLast? hr, ?_⟩
    rcases hrows rfl with hfalse | hrows
    · cases hfalse
    · exact hrows

/-- A row is committed for the request, and its streams may all be authorized. -/
theorem activateRow_cases {d : ParsedDescriptors}
    {caPmtCmdId : CaPmtCommand} {transactionId tunerId : BitVec 8}
    (h : s.activateRow programIdx d caPmtCmdId transactionId tunerId pidInfos = some s') :
    ∃ t, s.commitRow programIdx.toNat caPmtCmdId d transactionId tunerId 255
        (caCommandToState caPmtCmdId) pidInfos = some t ∧
      (s' = t ∨ ∃ row streams posted, t.rowList[programIdx.toNat]? = some row ∧
        row.authorizedPids = some streams ∧
        s' = { t.setRow programIdx.toNat { row with
          authorizedPids := some (streams.map fun p => { p with status := 1 }) } with
            posted := posted }) := by
  obtain ⟨t, hcommit, h⟩ := Option.bind_eq_some_iff.mp h
  refine ⟨t, hcommit, ?_⟩
  split_ifs at h
  · obtain ⟨u, hauthorize, h⟩ := Option.bind_eq_some_iff.mp h
    obtain ⟨row, hrow, hauthorize⟩ := Option.bind_eq_some_iff.mp hauthorize
    obtain ⟨streams, hstreams, hauthorize⟩ := Option.bind_eq_some_iff.mp hauthorize
    cases hauthorize
    obtain ⟨posted, rfl⟩ := sendEventImpl_cases h
    exact .inr ⟨row, streams, posted, hrow, hstreams, rfl⟩
  · exact .inl (Option.some.inj h).symm

/-- The command of a request, when it is activated. -/
def nextCommand (r : RequestTableRow) : CaPmtCommand :=
  if r.caPmtCmdId = .unset then .query else r.caPmtCmdId

/-- A request that is activated is active, whether its CA_PMT is sent or not. -/
theorem activateRequest_cases {sent : CaPmtResult}
    {success : Bool}
    (h : s.activateRequest programIdx r sent pidInfos = some (success, s')) :
    ∃ d, r.pServiceHandle = some d ∧
      (d.caDescFound ≠ 1 ∧ s' = s.setRequest r.handle (fun r => { r with
          programIdx := programIdx
          state := .active
          ltsId := 255 }) ∨
        d.caDescFound = 1 ∧ ∃ t,
          (sent ≠ .success ∧ t = s.setRequest r.handle (fun r => { r with
              programIdx := programIdx
              state := .active
              ltsId := 255 }) ∨
            sent = .success ∧ ∃ transactionId, (s.setRequest r.handle fun r => { r with
              programIdx := programIdx
              state := .active
              ltsId := 255 }).activateRow programIdx d (nextCommand r) transactionId r.tunerId
                pidInfos = some t) ∧
          s' = t.setRequest r.handle fun r => { r with pServiceHandle := some d.freeStreams }) := by
  obtain ⟨d, hd, h⟩ := Option.bind_eq_some_iff.mp h
  refine ⟨d, hd, ?_⟩
  by_cases hdesc : d.caDescFound ≠ 1
  · rw [if_pos hdesc] at h
    cases h
    exact .inl ⟨hdesc, rfl⟩
  · rw [if_neg hdesc] at h
    obtain ⟨transactionId, -, h⟩ := Option.bind_eq_some_iff.mp h
    by_cases hsent : sent = .success
    · rw [if_pos hsent] at h
      obtain ⟨t, ht, h⟩ := Option.bind_eq_some_iff.mp h
      cases h
      exact .inr ⟨not_not.mp hdesc, t, .inr ⟨hsent, transactionId, ht⟩, rfl⟩
    · rw [if_neg hsent] at h
      cases h
      exact .inr ⟨not_not.mp hdesc, _, .inl ⟨hsent, rfl⟩, rfl⟩

/-- Activating a request succeeds exactly if there are CA descriptors and the CA_PMT is sent. -/
theorem activateRequest_success {sent : CaPmtResult}
    {success : Bool}
    (h : s.activateRequest programIdx r sent pidInfos = some (success, s')) :
    success = true ↔ sent = .success ∧ ∀ d ∈ r.pServiceHandle, d.caDescFound = 1 := by
  obtain ⟨d, hd, h⟩ := Option.bind_eq_some_iff.mp h
  have hdesc : (∀ d ∈ r.pServiceHandle, d.caDescFound = 1) ↔ d.caDescFound = 1 := by
    rw [hd]
    simp
  rw [hdesc]
  by_cases hne : d.caDescFound ≠ 1
  · rw [if_pos hne] at h
    cases h
    exact iff_of_false Bool.false_ne_true fun hboth => hne hboth.2
  · rw [if_neg hne] at h
    obtain ⟨transactionId, -, h⟩ := Option.bind_eq_some_iff.mp h
    have hsuccess : success = decide (sent = .success) := by
      by_cases hsent : sent = .success
      · rw [if_pos hsent] at h
        obtain ⟨t, -, h⟩ := Option.bind_eq_some_iff.mp h
        exact (congrArg Prod.fst (Option.some.inj h)).symm
      · rw [if_neg hsent] at h
        exact (congrArg Prod.fst (Option.some.inj h)).symm
    rw [hsuccess, decide_eq_true_iff]
    exact (and_iff_left (not_not.mp hne)).symm

/-- A row is committed for a request that is activated, whether its streams are authorized at once
or not. -/
theorem activateRow_eq {d : ParsedDescriptors}
    {caPmtCmdId : CaPmtCommand} {transactionId tunerId : BitVec 8}
    (h : s.activateRow programIdx d caPmtCmdId transactionId tunerId pidInfos = some s')
    (hrows : s.rows ≠ none) :
    ∃ row streams transports programs elementary posted,
      s.rowList[programIdx.toNat]? = some row ∧
      s' = { s.setRow programIdx.toNat (committedRow row caPmtCmdId d transactionId tunerId 255
          (caCommandToState caPmtCmdId) streams) with
        transportStreamsUsed := transports
        programsUsed := programs
        elementaryStreamsUsed := elementary
        posted := posted } := by
  obtain ⟨t, hcommit, hcases⟩ := activateRow_cases h
  obtain ⟨inUse, row, streams, -, hrow, -, rfl⟩ := commitRow_cases hcommit hrows
  rcases hcases with rfl | ⟨row₁, streams₁, posted, hrow₁, -, rfl⟩
  · exact ⟨row, streams, _, _, _, _, hrow, rfl⟩
  · -- the row that is authorized is the one that was committed
    have hself : (s.rowList.set programIdx.toNat (committedRow row caPmtCmdId d transactionId
        tunerId 255 (caCommandToState caPmtCmdId) streams))[programIdx.toNat]? = some row₁ :=
      (congrArg (·[programIdx.toNat]?) (rowList_setRow (s := s))).symm.trans hrow₁
    rw [List.getElem?_set_self (List.getElem?_eq_some_iff.mp hrow).1] at hself
    cases hself
    refine ⟨row, streams₁.map fun p => { p with status := 1 },
      if inUse then s.transportStreamsUsed else s.transportStreamsUsed + 1, s.programsUsed + 1,
      s.elementaryStreamsUsed + d.numStreams, posted, hrow, ?_⟩
    exact congrArg (fun rows => ({ s with
      rows := rows
      transportStreamsUsed := if inUse then s.transportStreamsUsed else s.transportStreamsUsed + 1
      programsUsed := s.programsUsed + 1
      elementaryStreamsUsed := s.elementaryStreamsUsed + d.numStreams
      posted := posted } : DecryptSessions)) (rows_setRow_setRow (s := s))

/-- A request before and after it is activated. -/
structure Activates (programIdx : BitVec 8) (r : RequestTableRow)
    (g : RequestTableRow → RequestTableRow) : Prop where
  handle : ∀ q, (g q).handle = q.handle
  programIdx : ∀ q, (g q).programIdx = programIdx
  state : ∀ q, (g q).state = .active
  ltsId : ∀ q, (g q).ltsId = 255
  sourceId : ∀ q, (g q).sourceId = q.sourceId
  service : ∀ q, (g q).pServiceHandle = q.pServiceHandle ∨
    ∃ d ∈ r.pServiceHandle, (g q).pServiceHandle = some d.freeStreams

/-- The source of a request that is activated is still that of its descriptor. -/
theorem Activates.source
    {g : RequestTableRow → RequestTableRow} (hg : Activates programIdx r g)
    (hsource : ∀ d ∈ r.pServiceHandle, r.sourceId = d.srcId.setWidth 16) :
    ∀ d ∈ (g r).pServiceHandle, (g r).sourceId = d.srcId.setWidth 16 := by
  intro d hd
  rw [hg.sourceId]
  rcases hg.service r with hsame | ⟨d₀, hd₀, hfreed⟩
  · exact hsource d (hsame ▸ hd)
  · rw [hfreed] at hd
    rw [← Option.some.inj hd]
    exact hsource d₀ hd₀

/-- **What activating a request does** to the tables: the request gets the index, and if it
succeeds the row there is committed for it. -/
theorem activateRequest_tables {sent : CaPmtResult}
    {success : Bool}
    (h : s.activateRequest programIdx r sent pidInfos = some (success, s'))
    (hrows : s.rows ≠ none) :
    ∃ g transports programs elementary posted, Activates programIdx r g ∧
      (success = false ∧ s' = { s with
          requests := s.requests.map fun q => if q.handle = r.handle then g q else q } ∨
        success = true ∧ ∃ d row transactionId streams, r.pServiceHandle = some d ∧
          s.rowList[programIdx.toNat]? = some row ∧
          s' = { s.setRow programIdx.toNat (committedRow row (nextCommand r) d transactionId
              r.tunerId 255 (caCommandToState (nextCommand r)) streams) with
            requests := s.requests.map fun q => if q.handle = r.handle then g q else q
            transportStreamsUsed := transports
            programsUsed := programs
            elementaryStreamsUsed := elementary
            posted := posted }) := by
  have hsuccess := activateRequest_success h
  obtain ⟨d, hd, ⟨hne, rfl⟩ | ⟨hdesc, t, ht, rfl⟩⟩ := activateRequest_cases h
  · refine ⟨fun q => { q with programIdx := programIdx, state := .active, ltsId := 255 },
      0, 0, 0, [], ⟨fun _ => rfl, fun _ => rfl, fun _ => rfl, fun _ => rfl, fun _ => rfl,
        fun _ => .inl rfl⟩, .inl ⟨?_, rfl⟩⟩
    exact Bool.eq_false_of_not_eq_true fun htrue => hne ((hsuccess.mp htrue).2 d hd)
  · -- the streams of the descriptor are freed after that
    have hfreed : ∀ (l : List RequestTableRow),
        ((l.map fun q => if q.handle = r.handle then { q with
          programIdx := programIdx
          state := .active
          ltsId := 255 } else q).map fun q => if q.handle = r.handle then { q with
            pServiceHandle := some d.freeStreams } else q) =
          l.map fun q => if q.handle = r.handle then { q with
            programIdx := programIdx
            state := .active
            ltsId := 255
            pServiceHandle := some d.freeStreams } else q := fun l => by
      rw [List.map_map]
      refine List.map_congr_left fun q _ => ?_
      rw [Function.comp_apply]
      by_cases heq : q.handle = r.handle
      · simp only [heq, if_true]
      · simp only [heq, if_false]
    have hactivates : Activates programIdx r fun q => { q with
        programIdx := programIdx
        state := .active
        ltsId := 255
        pServiceHandle := some d.freeStreams } :=
      ⟨fun _ => rfl, fun _ => rfl, fun _ => rfl, fun _ => rfl, fun _ => rfl,
        fun _ => .inr ⟨d, hd, rfl⟩⟩
    rcases ht with ⟨hsent, rfl⟩ | ⟨hsent, transactionId, hactivate⟩
    · refine ⟨_, 0, 0, 0, [], hactivates, .inl ⟨?_, ?_⟩⟩
      · exact Bool.eq_false_of_not_eq_true fun htrue => hsent (hsuccess.mp htrue).1
      · unfold setRequest
        rw [hfreed]
    · obtain ⟨row, streams, transports, programs, elementary, posted, hrow, rfl⟩ :=
        activateRow_eq hactivate hrows
      refine ⟨_, transports, programs, elementary, posted, hactivates, .inr ⟨hsuccess.mpr ⟨hsent,
        fun d' hd' => ?_⟩, d, row, transactionId, streams, hd, hrow, ?_⟩⟩
      · rw [← Option.some.inj (hd.symm.trans hd')]
        exact hdesc
      · unfold setRequest setRow
        rw [hfreed]

end DecryptSessions

end MediaFramework
