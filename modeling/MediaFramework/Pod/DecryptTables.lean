import MediaFramework.Pod.CaReplies

/-!
# Requests and rows

A request that is active should have a row of its own that names its session, a row in use should
have a request, and a request that waits should have none. A start that fails and a stop should
leave the tables as if the session had not been started.

Each request and the row that it has are changed one after the other, and where something fails in
between they are left apart: a stop takes the request out and keeps the row if its CA_PMT is not
sent; the loop over the suspended sessions makes a request active before there is a row for it, and
takes the row of another request for it. An index is a byte, with 255 for none; a card with 255
programs or more has such rows.

The rows are allocated once, but the limit up to which they are read is reported again and again. A
larger limit has steps read rows that are not there, and so have a start that finds no free row and
an APDU that is cut off. The condition on a step says that what it reads is there.
-/

namespace MediaFramework

/-! ## What the tables should be -/

/-- The row names the session of the request. -/
structure ProgramIndexTableRow.Names (row : ProgramIndexTableRow) (r : RequestTableRow) :
    Prop where
  sourceId : row.sourceId = r.sourceId
  ltsid : row.ltsid = r.ltsId
  programNum : ∀ d ∈ r.pServiceHandle, row.programNum = d.prgNo.setWidth 16

/-- The streams that a descriptor counts are there. -/
def ParsedDescriptors.Listed (d : ParsedDescriptors) : Prop := d.pESInfo = none → d.numStreams = 0

instance (d : ParsedDescriptors) : Decidable d.Listed := inferInstanceAs (Decidable (_ → _))

namespace DecryptSessions

/-- The request has a row, which is in use and names it. -/
def HasRow (s : DecryptSessions) (r : RequestTableRow) : Prop :=
  ∃ row, s.rowList[r.programIdx.toNat]? = some row ∧ row.inUse = true ∧ row.Names r

/-- **Requests and rows are linked.** -/
structure Linked (s : DecryptSessions) : Prop where
  active : ∀ r ∈ s.requests, r.state = .active → s.HasRow r
  inUse : ∀ (i : ℕ) (row : ProgramIndexTableRow), s.rowList[i]? = some row → row.inUse = true →
    ∃ r ∈ s.requests, r.programIdx.toNat = i
  waiting : ∀ r ∈ s.requests, r.state = .waitingForResources → r.programIdx = 255

/-- The session is not there any more: its request is taken out, and its row is clear, but for the
transaction id, which is kept for the next session. -/
structure Undone (s s' : DecryptSessions) (handle : ℕ) : Prop where
  requests : s'.requests = s.requests.filter fun r => r.handle ≠ handle
  length : s'.rowList.length = s.rowList.length
  released : ∀ r ∈ s.requests, r.handle = handle → r.state = .active →
    ∀ row' ∈ s'.rowList[r.programIdx.toNat]?, row' = { transactionId := row'.transactionId }
  others : ∀ i : ℕ, (∀ r ∈ s.requests, r.handle = handle → r.state = .active →
    r.programIdx.toNat ≠ i) → s'.rowList[i]? = s.rowList[i]?

/-- **A start that fails and a stop undo the session.** -/
def Undoes (s : DecryptSessions) (a : DecryptAction) : Prop :=
  s.waits a = false → match a with
  | .start p o => ∀ result s', s.podmgrStartDecrypt p o = some (result, s') →
      (∀ handle, result ≠ .started (some handle)) →
        s'.requests = s.requests ∧ s'.rows = s.rows
  | .stop handle sent => ∃ s', s.podmgrStopDecrypt handle sent = some s' ∧ s.Undone s' handle
  | _ => True

/-! ## The condition

It is about the state before the step: that the row it takes is there, that the CA_PMT is sent, and
that no limit is reported beyond the rows.
-/

/-- A start with resources finds a free row with an index below 255, and the streams that its
descriptor counts, if its CA_PMT is sent. If it is not sent, the index that the request gets has a
row to read the transaction id of. -/
def FindsRow (s : DecryptSessions) (p : DecryptRequestParams) (o : StartOutcome) : Prop :=
  s.caEnable = true → s.ready = true → s.available p.pDescriptor.numStreams = true →
    ∀ found ∈ s.getNextAvailableRow,
      (o.sent = .success → (∃ i ∈ found, i < 255) ∧ p.pDescriptor.Listed) ∧
        (o.sent ≠ .success → (nextIndex found).toNat < s.rowList.length)

instance (s : DecryptSessions) (p : DecryptRequestParams) (o : StartOutcome) :
    Decidable (s.FindsRow p o) :=
  inferInstanceAs (Decidable (_ → _ → _ → ∀ found ∈ s.getNextAvailableRow,
    (_ → (∃ i ∈ found, i < 255) ∧ _) ∧ (_ → _)))

/-- The session of a request can be stopped: its CA_PMT can be made and is sent, and its row is
within the limit of the card; and if it waits, its index is not within the limit. -/
def Stoppable (s : DecryptSessions) (sent : CaPmtResult) (r : RequestTableRow) : Prop :=
  r.state = .active ∧ sent = .success ∧ r.pServiceHandle.isSome = true ∧
      s.validProgramIndex r.programIdx.toNat = true ∨
    r.state ≠ .active ∧ (s.validProgramIndex r.programIdx.toNat = false ∨ s.rows.isNone = true)

instance (s : DecryptSessions) (sent : CaPmtResult) (r : RequestTableRow) :
    Decidable (s.Stoppable sent r) := inferInstanceAs (Decidable (_ ∧ _ ∧ _ ∧ _ ∨ _ ∧ (_ ∨ _)))

/-- The session that is stopped, if it is there, can be stopped. -/
def Stops (s : DecryptSessions) (handle : ℕ) (sent : CaPmtResult) : Prop :=
  ∀ r ∈ s.requests.find? fun r => r.handle = handle, s.Stoppable sent r

instance (s : DecryptSessions) (handle : ℕ) (sent : CaPmtResult) :
    Decidable (s.Stops handle sent) :=
  inferInstanceAs (Decidable (∀ r ∈ s.requests.find? fun r => r.handle = handle,
    s.Stoppable sent r))

/-- The row that the loop over the suspended sessions has come to. -/
def roundRow (s : DecryptSessions) : Option ℕ :=
  match s.worker with
  | .activating i => if i < s.numRows then some i else none
  | .idle | .connected => none

/-- A row is free. -/
def FreeRow (s : DecryptSessions) (i : ℕ) : Prop := ∀ row ∈ s.rowList[i]?, row.inUse = false

instance (s : DecryptSessions) (i : ℕ) : Decidable (s.FreeRow i) :=
  inferInstanceAs (Decidable (∀ row ∈ s.rowList[i]?, row.inUse = false))

/-- The requests that the loop asks about have descriptors; and if it finds one, its row is free and
has an index below 255, and the CA_PMT is made, with all streams, and sent. -/
def FillsRow (s : DecryptSessions) (sent : CaPmtResult) : Prop :=
  ∀ i ∈ s.roundRow, (∀ r ∈ askedAbout 0 s.requests, r.pServiceHandle.isSome = true) ∧
    ∀ found ∈ s.findNextSuspendedRequest, ∀ r ∈ found.1,
      i < 255 ∧ s.FreeRow i ∧ sent = .success ∧
        ∀ d ∈ r.pServiceHandle, d.caDescFound = 1 ∧ d.Listed

instance (s : DecryptSessions) (sent : CaPmtResult) : Decidable (s.FillsRow sent) :=
  inferInstanceAs (Decidable (∀ i ∈ s.roundRow,
    (∀ r ∈ askedAbout 0 s.requests, r.pServiceHandle.isSome = true) ∧
      ∀ found ∈ s.findNextSuspendedRequest, ∀ r ∈ found.1, i < 255 ∧ s.FreeRow i ∧
        sent = .success ∧ ∀ d ∈ r.pServiceHandle, d.caDescFound = 1 ∧ d.Listed))

/-- There are rows for all programs that the card reports: those of before, or new ones. -/
def RowsEnough (s : DecryptSessions) (e : CaSystemReady) : Prop :=
  (s.reportLimits e).maxPrograms ≤ s.rowList.length ∨ s.rows.isNone = true ∧ e.rowMemory = true

instance (s : DecryptSessions) (e : CaSystemReady) : Decidable (s.RowsEnough e) :=
  inferInstanceAs (Decidable (_ ∨ _ ∧ _))

/-- What an APDU is read from is there: its header, and if it is accepted its `ca_enable`s, and for
these a row that has streams and sessions. -/
def Readable (s : DecryptSessions) (sessionId : BitVec 32) (apdu : Apdu) : Prop :=
  ∃ found, s.accepted sessionId apdu = some found ∧ ∀ programIdx ∈ found,
    ∃ outer streams, apdu.outerCaEnable = some outer ∧ apdu.innerCaEnables = some streams ∧
      s.Takes programIdx outer streams

/-- **An APDU is processed** just if it can be read. -/
theorem readable_iff (s : DecryptSessions) (sessionId : BitVec 32) (apdu : Apdu)
    (outerSent innerSent : CaPmtResult) : s.Readable sessionId apdu ↔
      (s.podProcessApdu sessionId apdu outerSent innerSent).isSome = true := by
  rw [podProcessApdu_eq, Option.isSome_iff_exists]
  constructor
  · rintro ⟨found, hfound, hread⟩
    rw [hfound, Option.bind_some]
    cases found with
    | none => exact ⟨s, rfl⟩
    | some programIdx =>
      obtain ⟨outer, streams, houter, hstreams, htakes⟩ := hread programIdx rfl
      exact exists_processCaEnables outerSent innerSent houter hstreams htakes
  · rintro ⟨s', h⟩
    obtain ⟨found, hfound, h⟩ := Option.bind_eq_some_iff.mp h
    refine ⟨found, hfound, fun programIdx hi => ?_⟩
    obtain rfl := Option.mem_def.mp hi
    obtain ⟨outer, streams, houter, hstreams, hcases⟩ := processCaEnables_cases h
    refine ⟨outer, streams, houter, hstreams, ?_⟩
    rcases hcases with ⟨hset, hnil, -⟩ | ⟨hupdates, -⟩
    · exact .inl ⟨hset, hnil⟩
    · exact .inr hupdates

instance (s : DecryptSessions) (sessionId : BitVec 32) (apdu : Apdu) :
    Decidable (s.Readable sessionId apdu) :=
  decidable_of_iff _ (s.readable_iff sessionId apdu .success .success).symm

/-- **The condition on a step**, which does not have to wait. When the card is removed, the rows in
use are within the limit. -/
def OrderlyTables (s : DecryptSessions) (a : DecryptAction) : Prop :=
  s.waits a = false → match a with
  | .start p o => s.FindsRow p o
  | .stop handle sent => s.Stops handle sent
  | .apdu sessionId apdu _ _ => s.Readable sessionId apdu
  | .caSystemReady e => s.RowsEnough e
  | .activate sent _ => s.FillsRow sent
  | .cardRemoved => ∀ row ∈ s.rowList.drop s.numRows, row.inUse = false
  | .cardReady | .resetPending => True

instance (s : DecryptSessions) : ∀ a, Decidable (s.OrderlyTables a)
  | .start p o => inferInstanceAs (Decidable (_ → s.FindsRow p o))
  | .stop handle sent => inferInstanceAs (Decidable (_ → s.Stops handle sent))
  | .apdu sessionId apdu _ _ => inferInstanceAs (Decidable (_ → s.Readable sessionId apdu))
  | .caSystemReady e => inferInstanceAs (Decidable (_ → s.RowsEnough e))
  | .activate sent _ => inferInstanceAs (Decidable (_ → s.FillsRow sent))
  | .cardRemoved => inferInstanceAs (Decidable (_ →
      ∀ row ∈ s.rowList.drop s.numRows, row.inUse = false))
  | .cardReady | .resetPending => isTrue fun _ => trivial

/-! ## The invariant

Between two steps an active request has a row of its own, and one that waits has no index.
-/

variable {s s' : DecryptSessions} {i : ℕ} {row row' : ProgramIndexTableRow} {r : RequestTableRow}

/-- The request is active and has a row, or it waits and has none. -/
def Placed (s : DecryptSessions) (r : RequestTableRow) : Prop :=
  r.state = .active ∧ r.programIdx ≠ 255 ∧ s.HasRow r ∨
    r.state = .waitingForResources ∧ r.programIdx = 255

/-- **Each request has its place.** -/
structure InPlace (s : DecryptSessions) : Prop where
  /-- without CA there are no requests -/
  enabled : s.caEnable = false → s.requests = []
  /-- handles are given out in order -/
  fresh : ∀ r ∈ s.requests, r.handle < s.allocated
  unique : ∀ r ∈ s.requests, ∀ r' ∈ s.requests, r.handle = r'.handle → r = r'
  source : ∀ r ∈ s.requests, ∀ d ∈ r.pServiceHandle, r.sourceId = d.srcId.setWidth 16
  placed : ∀ r ∈ s.requests, s.Placed r
  alone : ∀ r ∈ s.requests, ∀ r' ∈ s.requests, r.state = .active → r'.state = .active →
    r.programIdx = r'.programIdx → r = r'
  taken : ∀ (i : ℕ) (row : ProgramIndexTableRow), s.rowList[i]? = some row → row.inUse = true →
    ∃ r ∈ s.requests, r.state = .active ∧ r.programIdx.toNat = i

/-- The row that is committed for a request that is activated names it. -/
theorem Activates.names {programIdx transactionId : BitVec 8} {d : ParsedDescriptors}
    {streams : List StreamDecryptInfo} {state : DecryptState}
    {g : RequestTableRow → RequestTableRow} (hg : Activates programIdx r g)
    (hsource : ∀ d ∈ r.pServiceHandle, r.sourceId = d.srcId.setWidth 16)
    (hd : r.pServiceHandle = some d) :
    (committedRow row (nextCommand r) d transactionId r.tunerId 255 state streams).Names (g r) where
  sourceId := ((hg.sourceId r).trans (hsource d hd)).symm
  ltsid := (hg.ltsId r).symm
  programNum := fun d' hd' => by
    rcases hg.service r with hsame | ⟨d₀, hd₀, hfreed⟩
    · rw [hsame, hd] at hd'
      rw [← Option.some.inj hd']
      rfl
    · rw [hfreed] at hd'
      rw [← Option.some.inj hd', ← Option.some.inj (hd.symm.trans hd₀)]
      rfl

namespace InPlace

theorem linked (h : s.InPlace) : s.Linked where
  active := fun r hr hactive => by
    rcases h.placed r hr with ⟨-, -, hrow⟩ | ⟨hwaits, -⟩
    · exact hrow
    · rw [hactive] at hwaits
      cases hwaits
  inUse := fun i row hrow huse => by
    obtain ⟨r, hr, -, hi⟩ := h.taken i row hrow huse
    exact ⟨r, hr, hi⟩
  waiting := fun r hr hwaits => by
    rcases h.placed r hr with ⟨hactive, -⟩ | ⟨-, hnone⟩
    · rw [hwaits] at hactive
      cases hactive
    · exact hnone

theorem booted {caEnable queryDisabled : Bool} : (booted caEnable queryDisabled).InPlace where
  enabled := fun _ => rfl
  fresh := fun _ hr => absurd hr List.not_mem_nil
  unique := fun _ hr => absurd hr List.not_mem_nil
  source := fun _ hr => absurd hr List.not_mem_nil
  placed := fun _ hr => absurd hr List.not_mem_nil
  alone := fun _ hr => absurd hr List.not_mem_nil
  taken := fun _ _ hrow => by cases hrow

/-- A state with the same tables. -/
theorem of_tables (h : s.InPlace) (hrows : s'.rowList = s.rowList)
    (hrequests : s'.requests = s.requests) (hca : s'.caEnable = s.caEnable)
    (hallocated : s.allocated ≤ s'.allocated) : s'.InPlace where
  enabled := by
    rw [hca, hrequests]
    exact h.enabled
  fresh := by
    rw [hrequests]
    exact fun r hr => Nat.lt_of_lt_of_le (h.fresh r hr) hallocated
  unique := by
    rw [hrequests]
    exact h.unique
  source := by
    rw [hrequests]
    exact h.source
  placed := by
    unfold Placed HasRow
    rw [hrequests, hrows]
    exact h.placed
  alone := by
    rw [hrequests]
    exact h.alone
  taken := by
    rw [hrequests, hrows]
    exact h.taken

/-- **A session waits.** -/
theorem wait (h : s.InPlace) (hca : s.caEnable = true) (hhandle : r.handle = s.allocated)
    (hsource : ∀ d ∈ r.pServiceHandle, r.sourceId = d.srcId.setWidth 16)
    (hwaits : r.state = .waitingForResources) (hnone : r.programIdx = 255)
    (hrows : s'.rowList = s.rowList) (hrequests : s'.requests = s.requests ++ [r])
    (hca' : s'.caEnable = s.caEnable) (hallocated : s'.allocated = s.allocated + 1) :
    s'.InPlace := by
  have hmem : ∀ q ∈ s'.requests, q ∈ s.requests ∨ q = r := fun q hq => by
    rw [hrequests] at hq
    rcases List.mem_append.mp hq with hq | hq
    · exact .inl hq
    · exact .inr (List.mem_singleton.mp hq)
  have hactive : ∀ q ∈ s'.requests, q.state = .active → q ∈ s.requests := fun q hq hactive => by
    rcases hmem q hq with hq | rfl
    · exact hq
    · rw [hwaits] at hactive
      cases hactive
  refine ⟨fun hfalse => ?_, fun q hq => ?_, fun q hq q' hq' heq => ?_, fun q hq => ?_,
    fun q hq => ?_, fun q hq q' hq' ha ha' => ?_, fun i row hrow huse => ?_⟩
  · rw [hca', hca] at hfalse
    cases hfalse
  · rw [hallocated]
    rcases hmem q hq with hq | rfl
    · exact Nat.lt_succ_of_lt (h.fresh q hq)
    · rw [hhandle]
      exact Nat.lt_succ_self _
  · rcases hmem q hq with hq | rfl
    · rcases hmem q' hq' with hq' | rfl
      · exact h.unique q hq q' hq' heq
      · exact absurd (heq.trans hhandle) (Nat.ne_of_lt (h.fresh q hq))
    · rcases hmem q' hq' with hq' | rfl
      · exact absurd (heq.symm.trans hhandle) (Nat.ne_of_lt (h.fresh q' hq'))
      · rfl
  · rcases hmem q hq with hq | rfl
    · exact h.source q hq
    · exact hsource
  · rcases hmem q hq with hq | rfl
    · unfold Placed HasRow
      rw [hrows]
      exact h.placed q hq
    · exact .inr ⟨hwaits, hnone⟩
  · exact h.alone q (hactive q hq ha) q' (hactive q' hq' ha') ha ha'
  · rw [hrows] at hrow
    obtain ⟨q, hq, hstate, hi⟩ := h.taken i row hrow huse
    refine ⟨q, ?_, hstate, hi⟩
    rw [hrequests]
    exact List.mem_append_left _ hq

/-- **A waiting session gets a free row.** -/
theorem place (h : s.InPlace) {i : BitVec 8} {g : RequestTableRow → RequestTableRow}
    (hr : r ∈ s.requests) (hwaits : r.state = .waitingForResources) (hi : i ≠ 255)
    (hrow : s.rowList[i.toNat]? = some row) (hfree : row.inUse = false)
    (huse : row'.inUse = true) (hnames : row'.Names (g r)) (hhandle : (g r).handle = r.handle)
    (hsource : ∀ d ∈ (g r).pServiceHandle, (g r).sourceId = d.srcId.setWidth 16)
    (hactive : (g r).state = .active) (hidx : (g r).programIdx = i)
    (hrows : s'.rowList = s.rowList.set i.toNat row')
    (hrequests : s'.requests = s.requests.map fun q => if q.handle = r.handle then g q else q)
    (hca : s'.caEnable = s.caEnable) (hallocated : s'.allocated = s.allocated) : s'.InPlace := by
  have hmem : ∀ q ∈ s'.requests, q ∈ s.requests ∧ q.handle ≠ r.handle ∨ q = g r := by
    intro q hq
    rw [hrequests] at hq
    obtain ⟨q, hmem, rfl⟩ := List.mem_map.mp hq
    split_ifs with heq
    · rw [h.unique q hmem r hr heq]
      exact .inr rfl
    · exact .inl ⟨hmem, heq⟩
  have hself : g r ∈ s'.requests := by
    rw [hrequests]
    exact List.mem_map.mpr ⟨r, hr, if_pos rfl⟩
  have hkept : ∀ q ∈ s.requests, q.handle ≠ r.handle → q ∈ s'.requests := fun q hq hne => by
    rw [hrequests]
    exact List.mem_map.mpr ⟨q, hq, if_neg hne⟩
  -- the row is free, so no other request has it
  have hother : ∀ q ∈ s.requests, s.HasRow q → q.programIdx ≠ i := fun q hq hhas heq => by
    obtain ⟨row₀, hrow₀, huse₀, -⟩ := hhas
    rw [heq, hrow] at hrow₀
    cases hrow₀
    rw [hfree] at huse₀
    cases huse₀
  have hactiveOther : ∀ q ∈ s.requests, q.state = .active → q.programIdx ≠ i :=
    fun q hq ha => by
      rcases h.placed q hq with ⟨-, -, hhas⟩ | ⟨hw, -⟩
      · exact hother q hq hhas
      · rw [ha] at hw
        cases hw
  have hlt := (List.getElem?_eq_some_iff.mp hrow).1
  refine ⟨fun hfalse => ?_, fun q hq => ?_, fun q hq q' hq' heq => ?_, fun q hq => ?_,
    fun q hq => ?_, fun q hq q' hq' ha ha' heq => ?_, fun j row₀ hrow₀ huse₀ => ?_⟩
  · rw [hca] at hfalse
    rw [h.enabled hfalse] at hr
    exact absurd hr List.not_mem_nil
  · rw [hallocated]
    rcases hmem q hq with ⟨hq, -⟩ | rfl
    · exact h.fresh q hq
    · rw [hhandle]
      exact h.fresh r hr
  · rcases hmem q hq with ⟨hq, hne⟩ | rfl
    · rcases hmem q' hq' with ⟨hq', -⟩ | rfl
      · exact h.unique q hq q' hq' heq
      · exact absurd (heq.trans hhandle) hne
    · rcases hmem q' hq' with ⟨-, hne⟩ | rfl
      · exact absurd (heq.symm.trans hhandle) hne
      · rfl
  · rcases hmem q hq with ⟨hq, -⟩ | rfl
    · exact h.source q hq
    · exact hsource
  · rcases hmem q hq with ⟨hq, -⟩ | rfl
    · rcases h.placed q hq with ⟨ha, hne, hhas⟩ | hw
      · obtain ⟨row₀, hrow₀, huse₀, hnames₀⟩ := hhas
        have hne' : i.toNat ≠ q.programIdx.toNat := fun heq =>
          hactiveOther q hq ha (BitVec.eq_of_toNat_eq heq.symm)
        refine .inl ⟨ha, hne, row₀, ?_, huse₀, hnames₀⟩
        rw [hrows, List.getElem?_set_ne hne']
        exact hrow₀
      · exact .inr hw
    · refine .inl ⟨hactive, hidx ▸ hi, row', ?_, huse, hnames⟩
      rw [hrows, hidx]
      exact List.getElem?_set_self hlt
  · rcases hmem q hq with ⟨hq, -⟩ | rfl
    · rcases hmem q' hq' with ⟨hq', -⟩ | rfl
      · exact h.alone q hq q' hq' ha ha' heq
      · exact absurd (heq.trans hidx) (hactiveOther q hq ha)
    · rcases hmem q' hq' with ⟨hq', -⟩ | rfl
      · exact absurd (heq.symm.trans hidx) (hactiveOther q' hq' ha')
      · rfl
  · by_cases hj : i.toNat = j
    · exact ⟨g r, hself, hactive, by rw [hidx]; exact hj⟩
    · rw [hrows, List.getElem?_set_ne hj] at hrow₀
      obtain ⟨q, hq, ha, hqj⟩ := h.taken j row₀ hrow₀ huse₀
      refine ⟨q, hkept q hq fun heq => ?_, ha, hqj⟩
      rw [h.unique q hq r hr heq, hwaits] at ha
      cases ha

/-- **A session is taken out**, with its row if it has one. -/
theorem takeOut (h : s.InPlace) (hr : r ∈ s.requests)
    (hrequests : s'.requests = s.requests.filter fun q => q.handle ≠ r.handle)
    (hrows : r.state = .waitingForResources ∧ s'.rowList = s.rowList ∨
      ∃ row', row'.inUse = false ∧ s'.rowList = s.rowList.set r.programIdx.toNat row')
    (hca : s'.caEnable = s.caEnable) (hallocated : s'.allocated = s.allocated) : s'.InPlace := by
  have hmem : ∀ q ∈ s'.requests, q ∈ s.requests ∧ q.handle ≠ r.handle := fun q hq => by
    rw [hrequests] at hq
    obtain ⟨hq, hne⟩ := List.mem_filter.mp hq
    exact ⟨hq, of_decide_eq_true hne⟩
  have hkept : ∀ q ∈ s.requests, q ≠ r → q ∈ s'.requests := fun q hq hne => by
    rw [hrequests]
    exact List.mem_filter.mpr ⟨hq, decide_eq_true fun heq => hne (h.unique q hq r hr heq)⟩
  refine ⟨fun hfalse => ?_, fun q hq => ?_, fun q hq q' hq' => ?_, fun q hq => ?_, fun q hq => ?_,
    fun q hq q' hq' => ?_, fun j row₀ hrow₀ huse₀ => ?_⟩
  · rw [hca] at hfalse
    rw [hrequests, h.enabled hfalse]
    rfl
  · rw [hallocated]
    exact h.fresh q (hmem q hq).1
  · exact h.unique q (hmem q hq).1 q' (hmem q' hq').1
  · exact h.source q (hmem q hq).1
  · obtain ⟨hq, hne⟩ := hmem q hq
    rcases hrows with ⟨-, hrows⟩ | ⟨row', hfree, hrows⟩
    · unfold Placed HasRow
      rw [hrows]
      exact h.placed q hq
    · rcases h.placed q hq with ⟨ha, hidx, row₀, hrow₀, huse₀, hnames⟩ | hw
      · refine .inl ⟨ha, hidx, row₀, ?_, huse₀, hnames⟩
        rw [hrows, List.getElem?_set_ne fun heq => ?_]
        · exact hrow₀
        · -- the session that is taken out would have the same row
          rcases h.placed r hr with ⟨ha', -, -⟩ | ⟨-, hnone⟩
          · exact hne (congrArg _ (h.alone q hq r hr ha ha' (BitVec.eq_of_toNat_eq heq.symm)))
          · exact hidx ((BitVec.eq_of_toNat_eq heq.symm).trans hnone)
      · exact .inr hw
  · exact h.alone q (hmem q hq).1 q' (hmem q' hq').1
  · rcases hrows with ⟨hwaits, hrows⟩ | ⟨row', hfree, hrows⟩
    · rw [hrows] at hrow₀
      obtain ⟨q, hq, ha, hj⟩ := h.taken j row₀ hrow₀ huse₀
      refine ⟨q, hkept q hq fun heq => ?_, ha, hj⟩
      rw [heq, hwaits] at ha
      cases ha
    · rw [hrows, List.getElem?_set] at hrow₀
      split_ifs at hrow₀ with hj
      · cases hrow₀
        rw [hfree] at huse₀
        cases huse₀
      · obtain ⟨q, hq, ha, hqj⟩ := h.taken j row₀ hrow₀ huse₀
        refine ⟨q, hkept q hq fun heq => hj ?_, ha, hqj⟩
        rw [← heq]
        exact hqj

/-- **An APDU** leaves the requests with their rows. -/
theorem retells {f : List StreamDecryptInfo → List StreamDecryptInfo} (hs : s.Shaped)
    (h : s.InPlace) (hretells : s.Retells (Told f) i s') : s'.InPlace := by
  obtain ⟨row, row', g, posted, hrow, htold, hg, rfl⟩ := hretells
  obtain ⟨pids, hpids, -⟩ := htold.authorizedPids
  have huse : row.inUse = true := by
    rw [(hs.rows row (List.mem_of_getElem? hrow)).listed, hpids]
    rfl
  have hlist : (s.setRow i row').rowList = s.rowList.set i row' := rowList_setRow
  have hlt := (List.getElem?_eq_some_iff.mp hrow).1
  have hkeeps : ∀ q : RequestTableRow, (g q).handle = q.handle ∧ (g q).state = q.state ∧
      (g q).programIdx = q.programIdx ∧ (g q).pServiceHandle = q.pServiceHandle ∧
      (g q).sourceId = q.sourceId ∧ (g q).ltsId = q.ltsId := fun q => by
    rcases hg q with hq | hq
    · rw [hq]
      exact ⟨rfl, rfl, rfl, rfl, rfl, rfl⟩
    · rw [hq]
      exact ⟨rfl, rfl, rfl, rfl, rfl, rfl⟩
  have hhas : ∀ q, s.HasRow q → (s.setRow i row').HasRow (g q) := fun q hq => by
    obtain ⟨row₀, hrow₀, huse₀, hnames⟩ := hq
    obtain ⟨-, -, hidx, hservice, hsource, hlts⟩ := hkeeps q
    unfold HasRow
    rw [hidx, hlist]
    by_cases hj : i = q.programIdx.toNat
    · subst hj
      obtain rfl := Option.some.inj (hrow.symm.trans hrow₀)
      refine ⟨row', List.getElem?_set_self hlt, htold.inUse huse, ?_, ?_, ?_⟩
      · rw [htold.sourceId, hsource]
        exact hnames.sourceId
      · rw [htold.ltsid, hlts]
        exact hnames.ltsid
      · rw [htold.programNum, hservice]
        exact hnames.programNum
    · refine ⟨row₀, (List.getElem?_set_ne hj).trans hrow₀, huse₀, ?_, ?_, ?_⟩
      · rw [hsource]
        exact hnames.sourceId
      · rw [hlts]
        exact hnames.ltsid
      · rw [hservice]
        exact hnames.programNum
  refine ⟨fun hfalse => ?_, fun q hq => ?_, fun q hq q' hq' heq => ?_, fun q hq => ?_,
    fun q hq => ?_, fun q hq q' hq' ha ha' heq => ?_, fun j row₀ hrow₀ huse₀ => ?_⟩
  · exact (congrArg (List.map g) (h.enabled hfalse)).trans List.map_nil
  · obtain ⟨q, hmem, rfl⟩ := List.mem_map.mp hq
    rw [(hkeeps q).1]
    exact h.fresh q hmem
  · obtain ⟨q, hmem, rfl⟩ := List.mem_map.mp hq
    obtain ⟨q', hmem', rfl⟩ := List.mem_map.mp hq'
    rw [(hkeeps q).1, (hkeeps q').1] at heq
    rw [h.unique q hmem q' hmem' heq]
  · obtain ⟨q, hmem, rfl⟩ := List.mem_map.mp hq
    obtain ⟨-, -, -, hservice, hsource, -⟩ := hkeeps q
    rw [hservice, hsource]
    exact h.source q hmem
  · obtain ⟨q, hmem, rfl⟩ := List.mem_map.mp hq
    obtain ⟨-, hstate, hidx, -⟩ := hkeeps q
    rcases h.placed q hmem with ⟨ha, hne, hrow⟩ | ⟨hw, hnone⟩
    · exact .inl ⟨hstate.trans ha, hidx ▸ hne, hhas q hrow⟩
    · exact .inr ⟨hstate.trans hw, hidx.trans hnone⟩
  · obtain ⟨q, hmem, rfl⟩ := List.mem_map.mp hq
    obtain ⟨q', hmem', rfl⟩ := List.mem_map.mp hq'
    obtain ⟨-, hstate, hidx, -⟩ := hkeeps q
    obtain ⟨-, hstate', hidx', -⟩ := hkeeps q'
    rw [hstate] at ha
    rw [hstate'] at ha'
    rw [hidx, hidx'] at heq
    rw [h.alone q hmem q' hmem' ha ha' heq]
  · have hbefore : ∃ row₁, s.rowList[j]? = some row₁ ∧ row₁.inUse = true := by
      by_cases hj : i = j
      · subst hj
        exact ⟨row, hrow, huse⟩
      · have hsame : s.rowList[j]? = some row₀ :=
          (List.getElem?_set_ne hj).symm.trans ((congrArg (·[j]?) hlist.symm).trans hrow₀)
        exact ⟨row₀, hsame, huse₀⟩
    obtain ⟨row₁, hrow₁, huse₁⟩ := hbefore
    obtain ⟨q, hmem, ha, hqj⟩ := h.taken j row₁ hrow₁ huse₁
    obtain ⟨-, hstate, hidx, -⟩ := hkeeps q
    exact ⟨g q, List.mem_map_of_mem hmem, hstate.trans ha, hidx ▸ hqj⟩

/-! ### The steps

Each action is one of the ways above in which the tables change, or several of them.
-/

/-- A committed row names the session of the request that it is committed for. -/
theorem names_committedRow {caPmtCmdId : CaPmtCommand} {d : ParsedDescriptors}
    {transactionId tunerId : BitVec 8} {state : DecryptState} {streams : List StreamDecryptInfo}
    (hsource : r.sourceId = d.srcId.setWidth 16)
    (hprogram : ∀ d' ∈ r.pServiceHandle, d'.prgNo = d.prgNo) :
    (committedRow row caPmtCmdId d transactionId tunerId r.ltsId state streams).Names r where
  sourceId := hsource.symm
  ltsid := rfl
  programNum := fun d' hd' => by
    rw [hprogram d' hd']
    rfl

/-- The row that is found is free. -/
theorem of_getNextAvailableRow (h : s.getNextAvailableRow = some (some i))
    (hrow : s.rowList[i]? = some row) : row.inUse = false := by
  obtain ⟨-, row', hrow', hstate⟩ := of_scan_eq_some h
  obtain rfl := Option.some.inj (hrow.symm.trans hrow')
  refine Bool.eq_false_of_not_eq_true fun huse => ?_
  exact ProgramIndexTableRow.inUse_eq_true.mp huse (eq_of_beq hstate)

theorem map_setRequest_of_fresh (h : s.InPlace) (f : RequestTableRow → RequestTableRow) :
    (s.requests.map fun q => if q.handle = s.allocated then f q else q) = s.requests :=
  (List.map_congr_left fun q hq => if_neg (Nat.ne_of_lt (h.fresh q hq))).trans (List.map_id' _)

/-- A request that is added is the only one with its handle. -/
theorem map_setRequest_addRequest (h : s.InPlace) (hr : r.handle = s.allocated)
    (f : RequestTableRow → RequestTableRow) :
    ((s.requests ++ [r]).map fun q => if q.handle = s.allocated then f q else q) =
      s.requests ++ [f r] := by
  rw [List.map_append, h.map_setRequest_of_fresh, List.map_singleton, if_pos hr]

/-- A start whose CA_PMT is not sent takes its request out again. -/
theorem removeRequest_addRequest (h : s.InPlace) (hr : r.handle = s.allocated) :
    ((s.requests ++ [r]).filter fun q => q.handle ≠ s.allocated) = s.requests := by
  rw [List.filter_append, List.filter_eq_self.mpr fun q hq =>
    decide_eq_true (Nat.ne_of_lt (h.fresh q hq))]
  have hnone : ([r].filter fun q => q.handle ≠ s.allocated) = [] :=
    List.filter_eq_nil_iff.mpr fun q hq => by
      rw [List.mem_singleton.mp hq, hr]
      simp
  rw [hnone, List.append_nil]

theorem podmgrStartDecrypt {p : DecryptRequestParams} {o : StartOutcome} {result : StartResult}
    (h : s.InPlace) (horderly : s.FindsRow p o)
    (hstart : s.podmgrStartDecrypt p o = some (result, s')) : s'.InPlace := by
  obtain ⟨-, -, rfl⟩ | ⟨hca, available, used, hquery, hcases⟩ := podmgrStartDecrypt_cases hstart
  · exact h
  -- the session waits at first in any case
  have hwait : (({ s with
      transportStreamsUsed := used
      allocated := s.allocated + 1 } : DecryptSessions).addRequest
        (s.waitingRequest p o)).InPlace := by
    refine h.wait (r := s.waitingRequest p o) hca rfl (fun d hd => ?_) rfl rfl rfl rfl rfl rfl
    have hd : (if o.dupMemory then some p.pDescriptor else none) = some d := hd
    split_ifs at hd
    rw [← Option.some.inj hd]
    rfl
  obtain ⟨-, rfl⟩ | ⟨-, -, -, rfl⟩ | ⟨havailable, hready, hstart⟩ := hcases
  · exact h.of_tables rfl rfl rfl (Nat.le_refl _)
  · exact hwait.of_tables rfl rfl rfl (Nat.le_refl _)
  obtain ⟨hrows, hresources⟩ := (checkAvailableResources_cases hquery).2 havailable
  obtain ⟨found, hfound, ⟨hsent, -, transactionId, hcommitted⟩ | ⟨-, -, rfl⟩⟩ :=
    startReady_cases hstart
  · obtain ⟨⟨i, hi, hlt⟩, -⟩ := (horderly hca hready hresources found hfound).1 hsent
    obtain rfl := Option.mem_def.mp hi
    have hidx : (nextIndex (some i)).toNat = i := by
      unfold nextIndex
      rw [Option.getD_some, BitVec.toNat_ofNat]
      exact Nat.mod_eq_of_lt (by omega)
    obtain ⟨caPmtCmdId, state, t, posted, -, hstate, hcommit, rfl⟩ := committed_cases hcommitted
    obtain ⟨inUse, row, streams, -, hrow, -, rfl⟩ := commitRow_cases hcommit hrows
    have hfree : row.inUse = false := by
      refine of_getNextAvailableRow hfound ?_
      rw [← hidx]
      exact hrow
    refine hwait.place (r := s.waitingRequest p o) (i := nextIndex (some i))
      (g := fun q => { q with
        programIdx := nextIndex (some i)
        ltsId := p.ltsId
        state := .active
        caPmtCmdId := caPmtCmdId })
      (List.mem_append_right _ (List.mem_singleton_self _)) rfl (fun heq => ?_) hrow hfree
      (ProgramIndexTableRow.inUse_eq_true.mpr hstate) (names_committedRow rfl fun d hd => ?_) rfl
      (fun d hd => ?_) rfl rfl rowList_setRow ?_ rfl rfl
    · have hnone : i = 255 := hidx.symm.trans (congrArg BitVec.toNat heq)
      omega
    · have hd : (if o.dupMemory then some p.pDescriptor else none) = some d := hd
      split_ifs at hd
      rw [← Option.some.inj hd]
    · have hd : (if o.dupMemory then some p.pDescriptor else none) = some d := hd
      split_ifs at hd
      rw [← Option.some.inj hd]
      rfl
    · have hready := h.map_setRequest_addRequest (r := s.readyRequest p o (nextIndex (some i))) rfl
        fun q => { q with state := .active, caPmtCmdId := caPmtCmdId }
      have hwaiting := h.map_setRequest_addRequest (r := s.waitingRequest p o) rfl
        fun q => { q with
          programIdx := nextIndex (some i)
          ltsId := p.ltsId
          state := .active
          caPmtCmdId := caPmtCmdId }
      exact hready.trans hwaiting.symm
  · refine h.of_tables rfl ?_ rfl (Nat.le_succ _)
    exact h.removeRequest_addRequest rfl

/-- **A start that does not start a session** leaves both tables as they were. -/
theorem start_undoes {p : DecryptRequestParams} {o : StartOutcome} {result : StartResult}
    (h : s.InPlace) (hstart : s.podmgrStartDecrypt p o = some (result, s'))
    (hfailed : ∀ handle, result ≠ .started (some handle)) :
    s'.requests = s.requests ∧ s'.rows = s.rows := by
  obtain ⟨-, -, rfl⟩ | ⟨-, available, used, -, hcases⟩ := podmgrStartDecrypt_cases hstart
  · exact ⟨rfl, rfl⟩
  obtain ⟨-, rfl⟩ | ⟨-, -, hresult, -⟩ | ⟨-, -, hstart⟩ := hcases
  · exact ⟨rfl, rfl⟩
  · exact absurd hresult (hfailed _)
  · obtain ⟨row, -, ⟨-, hresult, -⟩ | ⟨-, -, rfl⟩⟩ := startReady_cases hstart
    · exact absurd hresult (hfailed _)
    · exact ⟨h.removeRequest_addRequest rfl, rfl⟩

theorem exists_releaseRow (hrow : s.rowList[i]? = some row) : ∃ s', s.releaseRow i = some s' := by
  unfold releaseRow
  rw [rows_of_getElem? hrow]
  dsimp only
  rw [hrow]
  exact ⟨_, rfl⟩

theorem exists_stopRequest {d : ParsedDescriptors}
    (hvalid : s.validProgramIndex r.programIdx.toNat = true)
    (hrow : s.rowList[r.programIdx.toNat]? = some row) (hd : r.pServiceHandle = some d) :
    ∃ s', s.stopRequest r .success = some s' := by
  have hrow' : ((s.post .sessionShutdown [r]).removeRequest r.handle).rowList[
      r.programIdx.toNat]? = some row := hrow
  have hvalid' : ((s.post .sessionShutdown [r]).removeRequest r.handle).validProgramIndex
      r.programIdx.toNat = true := hvalid
  obtain ⟨transactionId, htransaction⟩ := nextTransactionId_isSome hrow'
  have hset : ((s.post .sessionShutdown [r]).removeRequest r.handle).setTransactionId
      r.programIdx.toNat transactionId =
        some (((s.post .sessionShutdown [r]).removeRequest r.handle).setRow r.programIdx.toNat
          { row with transactionId := transactionId }) := by
    unfold setTransactionId
    rw [hrow', Option.map_some]
  have hself : (((s.post .sessionShutdown [r]).removeRequest r.handle).setRow r.programIdx.toNat
      { row with transactionId := transactionId }).rowList[r.programIdx.toNat]? =
        some { row with transactionId := transactionId } := by
    rw [rowList_setRow]
    exact List.getElem?_set_self (List.getElem?_eq_some_iff.mp hrow').1
  obtain ⟨s', hs'⟩ := exists_releaseRow hself
  refine ⟨s', ?_⟩
  unfold stopRequest
  simp only [hvalid', rows_of_getElem? hrow', htransaction, hd, hset, hs', bind, Option.bind_some,
    Bool.not_true, Bool.false_eq_true, if_false, if_true]

/-- **A stop** undoes the session. -/
theorem podmgrStopDecrypt {handle : ℕ} {sent : CaPmtResult} (h : s.InPlace)
    (horderly : s.Stops handle sent) :
    ∃ s', s.podmgrStopDecrypt handle sent = some s' ∧ s.Undone s' handle ∧ s'.InPlace := by
  -- where there is no such session, nothing is done
  have hnothing : (∀ r ∈ s.requests, r.handle ≠ handle) → s.Undone s handle := fun hnone =>
    { requests := (List.filter_eq_self.mpr fun q hq => decide_eq_true (hnone q hq)).symm
      length := rfl
      released := fun r hr heq => absurd heq (hnone r hr)
      others := fun _ _ => rfl }
  unfold DecryptSessions.podmgrStopDecrypt
  by_cases hca : s.caEnable = true
  swap
  · rw [Bool.eq_false_of_not_eq_true hca]
    refine ⟨s, rfl, hnothing fun r hr => ?_, h⟩
    rw [h.enabled (Bool.eq_false_of_not_eq_true hca)] at hr
    exact absurd hr List.not_mem_nil
  rw [hca]
  cases hfind : s.requests.find? fun r => r.handle = handle with
  | none =>
    refine ⟨s, rfl, hnothing fun r hr => ?_, h⟩
    simpa using List.find?_eq_none.mp hfind r hr
  | some r =>
    have hr : r ∈ s.requests := List.mem_of_find?_eq_some hfind
    have hhandle : r.handle = handle := by simpa using List.find?_some hfind
    subst hhandle
    have hunique : ∀ q ∈ s.requests, q.handle = r.handle → q = r := fun q hq heq =>
      h.unique q hq r hr heq
    rcases horderly r hfind with ⟨hactive, hsent, hservice, hvalid⟩ | ⟨hwaits, hinvalid⟩
    · -- the request is taken out and its row released
      obtain ⟨row, hrow, -⟩ := h.linked.active r hr hactive
      obtain ⟨d, hd⟩ := Option.isSome_iff_exists.mp hservice
      subst hsent
      obtain ⟨s', hstop⟩ := exists_stopRequest hvalid hrow hd
      obtain ⟨hfailed, -⟩ | ⟨-, hrows, -, transactionId, t, ht, hrelease⟩ :=
        stopRequest_cases hstop
      · rcases hfailed with hinvalid | hnone | hne
        · rw [hvalid] at hinvalid
          cases hinvalid
        · rw [rows_of_getElem? hrow] at hnone
          cases hnone
        · exact absurd rfl hne
      obtain ⟨row₁, hrow₁, rfl⟩ := setTransactionId_cases ht
      obtain ⟨row₂, hrow₂, rfl⟩ := releaseRow_cases hrelease
        (fun hnone => hrows (Option.map_eq_none_iff.mp hnone))
      have hlist : (((((s.post .sessionShutdown [r]).removeRequest r.handle).setRow
          r.programIdx.toNat { row₁ with transactionId := transactionId }).setRow
            r.programIdx.toNat { transactionId := row₂.transactionId })).rowList =
          s.rowList.set r.programIdx.toNat { transactionId := row₂.transactionId } :=
        rowList_setRow_setRow
      refine ⟨_, hstop, ⟨rfl, ?_, fun q hq heq ha row' hrow' => ?_, fun i hi => ?_⟩,
        h.takeOut hr rfl (.inr ⟨_, rfl, hlist⟩) rfl rfl⟩
      · exact (congrArg List.length hlist).trans (List.length_set ..)
      · obtain rfl := hunique q hq heq
        have hself : _ = some row' := (congrArg (·[q.programIdx.toNat]?) hlist).symm.trans hrow'
        rw [List.getElem?_set_self (List.getElem?_eq_some_iff.mp hrow).1] at hself
        rw [← Option.some.inj hself]
      · exact (congrArg (·[i]?) hlist).trans (List.getElem?_set_ne (hi r hr rfl hactive))
    · have hstate : r.state = .waitingForResources := by
        rcases h.placed r hr with ⟨hactive, -⟩ | ⟨hstate, -⟩
        · exact absurd hactive hwaits
        · exact hstate
      refine ⟨(s.post .sessionShutdown [r]).removeRequest r.handle, ?_, ?_, ?_⟩
      · have hvalid : ((s.post .sessionShutdown [r]).removeRequest r.handle).validProgramIndex
            r.programIdx.toNat = s.validProgramIndex r.programIdx.toNat := rfl
        unfold stopRequest
        dsimp only
        rw [hvalid]
        by_cases hbound : s.validProgramIndex r.programIdx.toNat = true
        · rcases hinvalid with hfalse | hrows
          · rw [hbound] at hfalse
            cases hfalse
          · have hrows' : ((s.post .sessionShutdown [r]).removeRequest r.handle).rows = none :=
              Option.isNone_iff_eq_none.mp hrows
            rw [hbound, hrows']
            rfl
        · rw [Bool.eq_false_of_not_eq_true hbound]
          rfl
      · refine ⟨rfl, rfl, fun q hq heq hactive => ?_, fun _ _ => rfl⟩
        rw [hunique q hq heq] at hactive
        exact absurd hactive hwaits
      · exact h.takeOut hr rfl (.inl ⟨hstate, rfl⟩) rfl rfl

/-- The rows before the one with the number are suspended; the others that are in use are those of
the requests that are left. -/
structure Suspending (limit n : ℕ) (s : DecryptSessions) : Prop where
  left : ∀ r ∈ s.requests, r.programIdx = 255 ∨ n ≤ r.programIdx.toNat ∧
    r.programIdx.toNat < limit ∧ ∃ row, s.rowList[r.programIdx.toNat]? = some row ∧
      row.inUse = true
  byte : ∀ (i : ℕ) (row : ProgramIndexTableRow), s.rowList[i]? = some row → row.inUse = true →
    i < 256

theorem Suspending.step {limit n : ℕ} (h : Suspending limit n s)
    (hsuspend : s.suspendRow n = some s') : Suspending limit (n + 1) s' := by
  obtain ⟨row, hrow, ⟨hfree, rfl⟩ | ⟨huse, hdone⟩⟩ := suspendRow_tables hsuspend
  · -- the row is free, so no request has it
    refine ⟨fun r hr => ?_, h.byte⟩
    rcases h.left r hr with hnone | ⟨hle, hlt, row₀, hrow₀, huse₀⟩
    · exact .inl hnone
    · refine .inr ⟨Nat.lt_of_le_of_ne hle fun heq => ?_, hlt, row₀, hrow₀, huse₀⟩
      rw [← heq, hrow] at hrow₀
      cases hrow₀
      rw [hfree] at huse₀
      cases huse₀
  · have hbyte := h.byte n row hrow huse
    have hidx : (BitVec.ofNat 8 n).toNat = n := by
      rw [BitVec.toNat_ofNat]
      exact Nat.mod_eq_of_lt hbyte
    obtain ⟨hlist, hrequests, -⟩ := hdone hbyte
    refine ⟨fun r hr => ?_, fun i row₀ hrow₀ huse₀ => ?_⟩
    · rw [hrequests] at hr
      obtain ⟨q, hq, rfl⟩ := List.mem_map.mp hr
      split_ifs with heq
      · exact .inl rfl
      rcases h.left q hq with hnone | ⟨hle, hbound, row₀, hrow₀, huse₀⟩
      · exact .inl hnone
      · have hne : n ≠ q.programIdx.toNat := fun hn =>
          heq (BitVec.eq_of_toNat_eq (hn.symm.trans hidx.symm))
        refine .inr ⟨Nat.lt_of_le_of_ne hle hne, hbound, row₀, ?_, huse₀⟩
        rw [hlist, List.getElem?_set_ne hne]
        exact hrow₀
    · rw [hlist, List.getElem?_set] at hrow₀
      split_ifs at hrow₀
      · -- the row that was suspended is clear
        rw [← Option.some.inj hrow₀] at huse₀
        cases huse₀
      · exact h.byte i row₀ hrow₀ huse₀

/-- **The card is removed**: no request and no row is left. -/
theorem cardRemoved (h : s.InPlace)
    (horderly : ∀ row ∈ s.rowList.drop s.numRows, row.inUse = false)
    (hremoved : s.cardRemoved = some s') : s'.InPlace := by
  obtain ⟨t, ht, hremoved⟩ := Option.bind_eq_some_iff.mp hremoved
  cases hremoved
  have hstart : Suspending s.numRows 0 s := by
    refine ⟨fun r hr => ?_, fun i row hrow huse => ?_⟩
    · rcases h.placed r hr with ⟨-, -, row, hrow, huse, -⟩ | ⟨-, hnone⟩
      · refine .inr ⟨Nat.zero_le _, Nat.lt_of_not_le fun hle => ?_, row, hrow, huse⟩
        have hmem : row ∈ s.rowList.drop s.numRows := by
          refine List.mem_of_getElem? (i := r.programIdx.toNat - s.numRows) ?_
          rw [List.getElem?_drop, Nat.add_sub_cancel' hle]
          exact hrow
        rw [horderly row hmem] at huse
        cases huse
      · exact .inl hnone
    · obtain ⟨r, -, -, rfl⟩ := h.taken i row hrow huse
      exact r.programIdx.isLt
  have hdone := foldlM_range_invariant (I := fun n t => Suspending s.numRows n t)
    (fun _ _ _ _ hI hsuspend => hI.step hsuspend) hstart ht
  have hrequests : t.removeUnusedRequests.requests = [] := by
    refine List.filter_eq_nil_iff.mpr fun r hr => ?_
    rcases hdone.left r hr with hnone | ⟨hle, hlt, -⟩
    · simp [hnone]
    · omega
  have hlist : t.removeUnusedRequests.freeRows.rowList = [] := by
    unfold freeRows rowList
    split
    case h_1 hnone => rw [hnone]; rfl
    case h_2 => rfl
  have hfreed : t.removeUnusedRequests.freeRows.requests = [] := by
    unfold freeRows
    split
    · exact hrequests
    · exact hrequests
  refine ⟨fun _ => hfreed, ?_, ?_, ?_, ?_, ?_, fun i row hrow => ?_⟩
  · exact fun r hr => absurd (hfreed ▸ hr) List.not_mem_nil
  · exact fun r hr => absurd (hfreed ▸ hr) List.not_mem_nil
  · exact fun r hr => absurd (hfreed ▸ hr) List.not_mem_nil
  · exact fun r hr => absurd (hfreed ▸ hr) List.not_mem_nil
  · exact fun r hr => absurd (hfreed ▸ hr) List.not_mem_nil
  · have hnil : ([] : List ProgramIndexTableRow)[i]? = some row :=
      (congrArg (·[i]?) hlist).symm.trans hrow
    cases hnil

/-- New rows come only where there were none, and are free. -/
theorem caSystemReady {e : CaSystemReady} (h : s.InPlace) : (s.caSystemReady e).InPlace := by
  rcases rows_caSystemReady (s := s) (e := e) with ⟨-, hrows⟩ | ⟨hnone, hclear⟩
  · exact h.of_tables (congrArg (Option.getD · []) hrows) rfl rfl (Nat.le_refl _)
  · have hwaits : ∀ r ∈ s.requests, r.state = .waitingForResources ∧ r.programIdx = 255 :=
      fun r hr => by
        rcases h.placed r hr with ⟨-, -, row, hrow, -⟩ | hwaits
        · rw [rows_of_getElem? hrow] at hnone
          cases hnone
        · exact hwaits
    refine ⟨h.enabled, h.fresh, h.unique, h.source, fun r hr => .inr (hwaits r hr),
      fun r hr r' _ hactive => ?_, fun i row hrow huse => ?_⟩
    · rw [(hwaits r hr).1] at hactive
      cases hactive
    · rw [hclear row (List.mem_of_getElem? hrow)] at huse
      cases huse

/-- **A suspended session is activated** with a free row, its CA_PMT sent. -/
theorem activateRequest {i : BitVec 8} {sent : CaPmtResult} {pidInfos : ℕ} {success : Bool}
    (hs : s.Shaped) (h : s.InPlace) (hr : r ∈ s.requests)
    (hwaits : r.state = .waitingForResources) (hrows : s.rows ≠ none) (hi : i ≠ 255)
    (hfree : s.FreeRow i.toNat) (hsent : sent = .success)
    (hdesc : ∀ d ∈ r.pServiceHandle, d.caDescFound = 1)
    (hactivate : s.activateRequest i r sent pidInfos = some (success, s')) : s'.InPlace := by
  obtain ⟨g, transports, programs, elementary, posted, hg, hcases⟩ :=
    activateRequest_tables hactivate hrows
  obtain ⟨hfalse, -⟩ | ⟨-, d, row, transactionId, streams, hd, hrow, rfl⟩ := hcases
  · rw [(activateRequest_success hactivate).mpr ⟨hsent, hdesc⟩] at hfalse
    cases hfalse
  · have hcommand := Shaped.caCommandToState_nextCommand (hs.requests r hr)
    exact h.place (g := g) hr hwaits hi hrow (hfree row hrow)
      (ProgramIndexTableRow.inUse_eq_true.mpr hcommand) (hg.names (h.source r hr) hd) (hg.handle r)
      (hg.source (h.source r hr)) (hg.state r) (hg.programIdx r) rowList_setRow rfl rfl rfl

theorem activate {sent : CaPmtResult} {pidInfos : ℕ} (hs : s.Shaped) (h : s.InPlace)
    (horderly : s.FillsRow sent) (hactivate : s.activate sent pidInfos = some s') :
    s'.InPlace := by
  unfold DecryptSessions.activate at hactivate
  split at hactivate
  case h_1 =>
    cases hactivate
    exact h
  case h_2 =>
    cases hactivate
    exact h.of_tables rfl rfl rfl (Nat.le_refl _)
  case h_3 i hworker =>
    split_ifs at hactivate with hlt
    · have hround : s.roundRow = some i := by
        unfold roundRow
        rw [hworker]
        exact if_pos hlt
      obtain ⟨⟨success, t⟩, hactivated, hactivate⟩ := Option.bind_eq_some_iff.mp hactivate
      cases hactivate
      obtain ⟨⟨request, u⟩, hfind, hactivated⟩ := Option.bind_eq_some_iff.mp hactivated
      obtain ⟨⟨used, rfl⟩, hfound⟩ := findNextSuspendedRequest_cases hfind
      cases request with
      | none =>
        cases hactivated
        exact h.of_tables rfl rfl rfl (Nat.le_refl _)
      | some r =>
        obtain ⟨hasked, hrows⟩ := hfound r rfl
        obtain ⟨hr, hwaits⟩ := waiting_of_mem_askedAbout hasked
        obtain ⟨hbyte, hfree, hsent, hdesc⟩ := (horderly i hround).2 _ hfind r rfl
        have hidx : (BitVec.ofNat 8 i).toNat = i := by
          rw [BitVec.toNat_ofNat]
          exact Nat.mod_eq_of_lt (by omega)
        have hne : BitVec.ofNat 8 i ≠ 255 := fun heq => by
          have hnone : i = 255 := hidx.symm.trans (congrArg BitVec.toNat heq)
          omega
        have hused : InPlace { s with transportStreamsUsed := used } :=
          h.of_tables rfl rfl rfl (Nat.le_refl _)
        have hshaped : Shaped { s with transportStreamsUsed := used } := hs.of_tables rfl rfl
        exact (hused.activateRequest hshaped hr hwaits hrows hne (hidx.symm ▸ hfree) hsent
          (fun d hd => (hdesc d hd).1) hactivated).of_tables rfl rfl rfl (Nat.le_refl _)
    · cases hactivate
      exact h.of_tables rfl rfl rfl (Nat.le_refl _)

/-- **One step** that meets the condition leaves each request in its place. -/
theorem step {a : DecryptAction} (hs : s.Shaped) (h : s.InPlace) (horderly : s.OrderlyTables a)
    (hstep : s.step a = some s') : s'.InPlace := by
  unfold DecryptSessions.step at hstep
  split_ifs at hstep with hwaits
  · cases hstep
    exact h
  have horderly := horderly (Bool.eq_false_of_not_eq_true hwaits)
  cases a with
  | start p o =>
    obtain ⟨⟨result, t⟩, hstart, rfl⟩ := Option.map_eq_some_iff.mp hstep
    exact h.podmgrStartDecrypt horderly hstart
  | stop handle sent =>
    obtain ⟨t, hstop, -, ht⟩ := h.podmgrStopDecrypt horderly
    obtain rfl := Option.some.inj (hstop.symm.trans hstep)
    exact ht
  | apdu sessionId apdu outerSent innerSent =>
    obtain rfl | ⟨programIdx, outer, streams, hretells⟩ := podProcessApdu_cases hstep
    · exact h
    · exact h.retells hs hretells
  | cardReady =>
    cases hstep
    exact h.of_tables rfl rfl rfl (Nat.le_refl _)
  | caSystemReady e =>
    cases hstep
    exact h.caSystemReady
  | activate sent pidInfos => exact h.activate hs horderly hstep
  | cardRemoved => exact h.cardRemoved horderly hstep
  | resetPending =>
    cases hstep
    exact h

/-- Of a step that meets the condition, a start that fails and a stop undo the session. -/
theorem undoes {a : DecryptAction} (h : s.InPlace) (horderly : s.OrderlyTables a) :
    s.Undoes a := by
  intro hwaits
  have horderly := horderly hwaits
  cases a with
  | start p o => exact fun result s' hstart hfailed => h.start_undoes hstart hfailed
  | stop handle sent =>
    obtain ⟨t, hstop, hundone, -⟩ := h.podmgrStopDecrypt horderly
    exact ⟨t, hstop, hundone⟩
  | apdu | cardReady | caSystemReady | activate | cardRemoved | resetPending => trivial

end InPlace

end DecryptSessions

end MediaFramework
