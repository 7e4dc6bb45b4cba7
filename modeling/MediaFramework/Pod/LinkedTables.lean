import MediaFramework.Pod.ResumedSessions

/-!
# Requests and rows stay linked

A run whose steps meet the condition is defined: what a step reads is there. There are rows up to
the limit that the card reports, since they are there when it is reported and none is freed before
the card is removed; and a row has no more than one session, so that its sessions fit into the array
they are gathered in.

In the state that such a run comes to, the requests and the rows are linked.
-/

namespace MediaFramework

namespace DecryptSessions

variable {s s' t : DecryptSessions} {i : ℕ} {r : RequestTableRow} {row : ProgramIndexTableRow}
  {programIdx : BitVec 8}

/-! ## The rows are there -/

/-- The rows that are looked at are there. -/
def RowsThere (s : DecryptSessions) : Prop := s.numRows ≤ s.rowList.length

/-- There are as many rows as before, and as many of them are looked at. -/
structure SameSize (s s' : DecryptSessions) : Prop where
  /-- how many rows are looked at -/
  numRows : s'.numRows = s.numRows
  /-- how many rows there are -/
  length : s'.rowList.length = s.rowList.length

namespace SameSize

theorem rowsThere (h : s.SameSize s') (hrows : s.RowsThere) : s'.RowsThere := by
  unfold RowsThere
  rw [h.numRows, h.length]
  exact hrows

theorem of_rowList (hnum : s'.numRows = s.numRows) (hlist : s'.rowList = s.rowList) :
    s.SameSize s' :=
  ⟨hnum, congrArg List.length hlist⟩

theorem of_set (hnum : s'.numRows = s.numRows) (hlist : s'.rowList = s.rowList.set i row) :
    s.SameSize s' :=
  ⟨hnum, (congrArg List.length hlist).trans (List.length_set ..)⟩

/-- A start keeps the rows, whatever comes of it. -/
theorem podmgrStartDecrypt {p : DecryptRequestParams} {o : StartOutcome} {result : StartResult}
    (h : s.podmgrStartDecrypt p o = some (result, s')) : s.SameSize s' := by
  obtain ⟨-, -, rfl⟩ | ⟨-, available, used, hquery, hcases⟩ := podmgrStartDecrypt_cases h
  · exact of_rowList rfl rfl
  obtain ⟨-, rfl⟩ | ⟨-, -, -, rfl⟩ | ⟨havailable, -, hready⟩ := hcases
  · exact of_rowList rfl rfl
  · exact of_rowList rfl rfl
  obtain ⟨found, -, ⟨-, -, transactionId, hcommitted⟩ | ⟨-, -, rfl⟩⟩ := startReady_cases hready
  · have hrows := ((checkAvailableResources_cases hquery).2 havailable).1
    obtain ⟨caPmtCmdId, state, u, posted, -, -, hcommit, rfl⟩ := committed_cases hcommitted
    obtain ⟨inUse, row, streams, -, -, -, rfl⟩ := commitRow_cases hcommit hrows
    exact of_set rfl (rowList_setRow (s := s))
  · exact of_rowList rfl rfl

theorem podmgrStopDecrypt {handle : ℕ} {sent : CaPmtResult}
    (h : s.podmgrStopDecrypt handle sent = some s') : s.SameSize s' := by
  unfold DecryptSessions.podmgrStopDecrypt at h
  split_ifs at h
  · cases h
    exact of_rowList rfl rfl
  split at h
  · cases h
    exact of_rowList rfl rfl
  case h_2 r _ =>
    obtain ⟨-, rfl⟩ | ⟨-, hrows, -, transactionId, u, hset, hrelease⟩ := stopRequest_cases h
    · exact of_rowList rfl rfl
    · obtain ⟨row₁, -, rfl⟩ := setTransactionId_cases hset
      obtain ⟨row₂, -, rfl⟩ := releaseRow_cases hrelease
        fun hnone => hrows (Option.map_eq_none_iff.mp hnone)
      exact of_set rfl (rowList_setRow_setRow (s := s))

theorem podProcessApdu {sessionId : BitVec 32} {apdu : Apdu} {outerSent innerSent : CaPmtResult}
    (h : s.podProcessApdu sessionId apdu outerSent innerSent = some s') : s.SameSize s' := by
  obtain rfl | ⟨programIdx, outer, streams, hretells⟩ := podProcessApdu_cases h
  · exact of_rowList rfl rfl
  · obtain ⟨row, row', f, posted, -, -, -, rfl⟩ := hretells
    exact of_set rfl (rowList_setRow (s := s))

theorem activate {sent : CaPmtResult} {pidInfos : ℕ} (h : s.activate sent pidInfos = some s') :
    s.SameSize s' := by
  unfold DecryptSessions.activate at h
  split at h
  · cases h
    exact of_rowList rfl rfl
  · cases h
    exact of_rowList rfl rfl
  split_ifs at h
  · obtain ⟨⟨success, u⟩, hround, h⟩ := Option.bind_eq_some_iff.mp h
    cases h
    obtain ⟨⟨request, v⟩, hfind, hround⟩ := Option.bind_eq_some_iff.mp hround
    obtain ⟨⟨used, rfl⟩, hfound⟩ := findNextSuspendedRequest_cases hfind
    cases request with
    | none =>
      cases hround
      exact of_rowList rfl rfl
    | some r =>
      obtain ⟨g, transports, programs, elementary, posted, -, hcases⟩ :=
        activateRequest_tables hround (hfound r rfl).2
      obtain ⟨-, rfl⟩ | ⟨-, d, row, transactionId, streams, -, -, rfl⟩ := hcases
      · exact of_rowList rfl rfl
      · exact of_set rfl (rowList_setRow (s := s))
  · cases h
    exact of_rowList rfl rfl

end SameSize

namespace RowsThere

theorem booted {caEnable queryDisabled : Bool} : (booted caEnable queryDisabled).RowsThere :=
  Nat.le_refl 0

/-- **A new limit** is one that there are rows for. -/
theorem caSystemReady {e : CaSystemReady} (henough : s.RowsEnough e) :
    (s.caSystemReady e).RowsThere := by
  have hrowList : (s.caSystemReady e).rowList = s.rows.getD
      (if e.rowMemory then List.replicate (s.reportLimits e).maxPrograms {} else []) := by
    unfold rowList DecryptSessions.caSystemReady initProgramIndexTable
    rw [show (s.reportLimits e).rows = s.rows from rfl]
    cases s.rows with
    | some rows => rfl
    | none =>
      dsimp only [Option.getD_none]
      split_ifs
      · rfl
      · rfl
  show (s.reportLimits e).maxPrograms ≤ (s.caSystemReady e).rowList.length
  rw [hrowList]
  cases hrows : s.rows with
  | some rows =>
    rcases henough with hle | ⟨hnone, -⟩
    · rwa [rowList_of_rows hrows] at hle
    · rw [hrows] at hnone
      cases hnone
  | none =>
    rw [Option.getD_none]
    rcases henough with hle | ⟨-, hmemory⟩
    · have hempty : s.rowList = [] := congrArg (Option.getD · []) hrows
      rw [hempty] at hle
      exact Nat.le_trans hle (Nat.zero_le _)
    · rw [if_pos hmemory, List.length_replicate]

/-- No row is looked at once the card is removed. -/
theorem cardRemoved (h : s.RowsThere) (hremoved : s.cardRemoved = some s') : s'.RowsThere := by
  obtain ⟨t, ht, hremoved⟩ := Option.bind_eq_some_iff.mp hremoved
  cases hremoved
  show t.removeUnusedRequests.freeRows.numRows ≤ t.removeUnusedRequests.freeRows.rowList.length
  unfold freeRows
  split
  case h_1 hnone =>
    obtain ⟨-, rfl⟩ | ⟨-, hrows⟩ := suspendRows_rows ht
    · exact h
    · exact absurd hnone hrows
  case h_2 => exact Nat.zero_le _

end RowsThere

theorem RowsThere.step {a : DecryptAction} (h : s.RowsThere) (horderly : s.OrderlyTables a)
    (hstep : s.step a = some s') : s'.RowsThere := by
  unfold DecryptSessions.step at hstep
  split_ifs at hstep with hwaits
  · cases hstep
    exact h
  have horderly := horderly (Bool.eq_false_of_not_eq_true hwaits)
  cases a with
  | start p o =>
    obtain ⟨⟨result, t⟩, hstart, rfl⟩ := Option.map_eq_some_iff.mp hstep
    exact (SameSize.podmgrStartDecrypt hstart).rowsThere h
  | stop handle sent => exact (SameSize.podmgrStopDecrypt hstep).rowsThere h
  | apdu sessionId apdu outerSent innerSent => exact (SameSize.podProcessApdu hstep).rowsThere h
  | cardReady =>
    cases hstep
    exact h
  | caSystemReady e =>
    cases hstep
    exact .caSystemReady horderly
  | activate sent pidInfos => exact (SameSize.activate hstep).rowsThere h
  | cardRemoved => exact h.cardRemoved hstep
  | resetPending =>
    cases hstep
    exact h

/-! ## A row has one session -/

/-- Of the requests with an index no more than one is there. -/
theorem InPlace.length_sessionsAt_le (h : s.InPlace) (hnumbered : s.Numbered)
    (hidx : programIdx ≠ 255) : (s.sessionsAt programIdx).length ≤ 1 := by
  have hactive : ∀ r ∈ s.sessionsAt programIdx, r ∈ s.requests ∧ r.state = .active ∧
      r.programIdx = programIdx := fun r hr => by
    obtain ⟨hmem, heq⟩ := List.mem_filter.mp hr
    have heq : r.programIdx = programIdx := of_decide_eq_true heq
    rcases h.placed r hmem with ⟨hactive, -⟩ | ⟨-, hnone⟩
    · exact ⟨hmem, hactive, heq⟩
    · exact absurd (heq.symm.trans hnone) hidx
  have hnodup : (s.sessionsAt programIdx).Nodup :=
    (List.Nodup.of_map _ hnumbered.nodup).filter _
  cases hsessions : s.sessionsAt programIdx with
  | nil => exact Nat.zero_le 1
  | cons r rest =>
    rw [hsessions] at hactive hnodup
    have hrest : rest = [] := List.eq_nil_iff_forall_not_mem.mpr fun q hq => by
      obtain ⟨hr, hr', hri⟩ := hactive r List.mem_cons_self
      obtain ⟨hq', hqa, hqi⟩ := hactive q (List.mem_cons_of_mem r hq)
      have heq := h.alone r hr q hq' hr' hqa (hri.trans hqi.symm)
      exact (List.nodup_cons.mp hnodup).1 (heq ▸ hq)
    rw [hrest]
    exact Nat.le_refl 1

/-- What is left of the state while the rows are suspended. -/
structure Removable (limit : ℕ) (s : DecryptSessions) : Prop where
  rows : limit ≤ s.rowList.length
  byte : ∀ (i : ℕ) (row : ProgramIndexTableRow), s.rowList[i]? = some row → row.inUse = true →
    i < 255
  sessions : ∀ programIdx, programIdx ≠ 255 → (s.sessionsAt programIdx).length ≤ 1

/-- **One row is suspended.** -/
theorem Removable.step {limit : ℕ} (h : Removable limit s) (hi : i < limit) :
    ∃ s', s.suspendRow i = some s' ∧ Removable limit s' := by
  obtain ⟨row, hrow⟩ : ∃ row, s.rowList[i]? = some row :=
    ⟨_, List.getElem?_eq_getElem (Nat.lt_of_lt_of_le hi h.rows)⟩
  by_cases huse : row.inUse = true
  swap
  · refine ⟨s, ?_, h⟩
    unfold suspendRow
    rw [hrow]
    exact if_neg huse
  have hbyte := h.byte i row hrow huse
  obtain ⟨s', hs'⟩ := exists_suspendRow hrow hbyte fun _ =>
    Nat.le_trans (h.sessions _ (ofNat_byte_ne hbyte)) (by decide)
  obtain ⟨row₁, hrow₁, ⟨hfree, -⟩ | ⟨-, hdone⟩⟩ := suspendRow_tables hs'
  · obtain rfl := Option.some.inj (hrow.symm.trans hrow₁)
    rw [huse] at hfree
    cases hfree
  obtain ⟨hlist, hrequests, -⟩ := hdone (by omega)
  refine ⟨s', hs', ?_, fun j row' hrow' huse' => ?_, fun programIdx hidx => ?_⟩
  · rw [hlist, List.length_set]
    exact h.rows
  · rw [hlist, List.getElem?_set] at hrow'
    split_ifs at hrow'
    · cases hrow'
      cases huse'
    · exact h.byte j row' hrow' huse'
  · -- no request gets another index than 255
    refine Nat.le_trans ?_ (h.sessions programIdx hidx)
    unfold sessionsAt
    rw [hrequests]
    unfold suspendRequests
    rw [List.filter_map, List.length_map]
    refine (List.monotone_filter_right _ fun r hr => ?_).length_le
    rw [Function.comp_apply, decide_eq_true_iff] at hr
    split_ifs at hr
    · exact absurd hr.symm hidx
    · exact decide_eq_true hr

/-- **The card can be removed.** -/
theorem InPlace.exists_cardRemoved (h : s.InPlace) (hnumbered : s.Numbered) (hrows : s.RowsThere) :
    ∃ s', s.cardRemoved = some s' := by
  have hstart : Removable s.numRows s := by
    refine ⟨hrows, fun i row hrow huse => ?_, fun _ => h.length_sessionsAt_le hnumbered⟩
    obtain ⟨r, hr, hactive, rfl⟩ := h.taken i row hrow huse
    rcases h.placed r hr with ⟨-, hne, -⟩ | ⟨hwaits, -⟩
    · have hlt := r.programIdx.isLt
      have : r.programIdx.toNat ≠ 255 := fun heq => hne (BitVec.eq_of_toNat_eq heq)
      omega
    · rw [hactive] at hwaits
      cases hwaits
  obtain ⟨t, ht, -⟩ := foldlM_range_total (I := fun _ => Removable s.numRows)
    (fun _ _ hi hI => hI.step hi) hstart
  exact ⟨_, Option.bind_eq_some_iff.mpr ⟨t, ht, rfl⟩⟩

/-! ## A step is defined -/

/-- The request of a start is one of no more than two with its index. -/
theorem InPlace.length_sessionsAt_addRequest (h : s.InPlace) (hnumbered : s.Numbered)
    (hidx : programIdx ≠ 255) : ((s.addRequest r).sessionsAt programIdx).length ≤ 2 := by
  unfold sessionsAt addRequest
  rw [List.filter_append, List.length_append]
  exact Nat.add_le_add (h.length_sessionsAt_le hnumbered hidx) (List.length_filter_le ..)

theorem length_sessionsAt_of_programIdx {handle : ℕ} {f : RequestTableRow → RequestTableRow}
    (hf : ∀ r, (f r).programIdx = r.programIdx) :
    ((s.setRequest handle f).sessionsAt programIdx).length = (s.sessionsAt programIdx).length := by
  unfold sessionsAt setRequest
  rw [List.filter_map, List.length_map]
  refine congrArg List.length (List.filter_congr fun r _ => ?_)
  rw [Function.comp_apply]
  split_ifs
  · rw [hf]
  · rfl

/-- A row is committed for a request, and its session may be told at once. -/
theorem exists_committed {p : DecryptRequestParams} (handle pidInfos : ℕ) (transactionId : BitVec 8)
    (hrows : s.RowsThere) (hrow : s.rowList[programIdx.toNat]? = some row)
    (hlisted : p.pDescriptor.Listed) (hsessions : (s.sessionsAt programIdx).length ≤ 10) :
    ∃ t, s.committed p handle programIdx transactionId pidInfos = some t := by
  obtain ⟨t, ht⟩ := exists_commitRow
    (if p.skipCaQuery s.queryDisabled then .okDescramble else .query) transactionId
    (p.tunerId.setWidth 8) p.ltsId
    (if p.skipCaQuery s.queryDisabled then .descrambling else .issuedQuery) pidInfos hrows hrow hlisted
  have hrequests : t.requests = s.requests := by
    obtain ⟨inUse, row', streams, -, -, -, rfl⟩ := commitRow_cases ht fun hnone => by
      rw [rows_of_getElem? hrow] at hnone
      cases hnone
    rfl
  have hsame : t.sessionsAt programIdx = s.sessionsAt programIdx := by
    unfold sessionsAt
    rw [hrequests]
  unfold committed
  dsimp only
  rw [ht]
  dsimp only [Option.bind_eq_bind, Option.bind_some]
  by_cases hevent : (!p.isClear && p.skipCaQuery s.queryDisabled) = true
  · rw [if_pos hevent]
    refine exists_sendEventImpl _ ?_
    refine Nat.le_trans (Nat.le_of_eq (length_sessionsAt_of_programIdx ?_)) (hsame ▸ hsessions)
    exact fun _ => rfl
  · rw [if_neg hevent]
    exact ⟨_, rfl⟩

/-- A start that has resources, with the row that it finds. -/
theorem exists_startReady {p : DecryptRequestParams} {o : StartOutcome} {found : Option ℕ}
    (hrows : s.RowsThere) (hfound : s.getNextAvailableRow = some found)
    (hrow : s.rowList[(nextIndex found).toNat]? = some row)
    (hsends : o.sent = .success → p.pDescriptor.Listed ∧ ((s.addRequest { r with
      programIdx := nextIndex found
      ltsId := p.ltsId }).sessionsAt (nextIndex found)).length ≤ 10) :
    ∃ result, s.startReady p o r = some result := by
  have hrow' : (s.addRequest { r with
      programIdx := nextIndex found
      ltsId := p.ltsId }).rowList[(nextIndex found).toNat]? = some row := hrow
  obtain ⟨transactionId, htransaction⟩ := nextTransactionId_isSome hrow'
  refine Option.isSome_iff_exists.mp ?_
  unfold startReady
  simp only [bind, hfound, Option.bind_some]
  change (Option.bind (nextTransactionId _ (nextIndex found).toNat) _).isSome = true
  simp only [nextIndex] at htransaction ⊢
  rw [htransaction, Option.bind_some]
  cases hsent : o.sent with
  | success =>
    obtain ⟨hlisted, hsessions⟩ := hsends hsent
    obtain ⟨t, ht⟩ := exists_committed r.handle o.pidInfos transactionId
      (s := s.addRequest { r with
        programIdx := nextIndex found
        ltsId := p.ltsId }) hrows hrow' hlisted hsessions
    simp only [nextIndex] at ht
    rw [ht]
    rfl
  | noData => rfl
  | error => rfl

/-- **A start** is defined. -/
theorem InPlace.exists_podmgrStartDecrypt {p : DecryptRequestParams} {o : StartOutcome}
    (h : s.InPlace) (hnumbered : s.Numbered) (hrows : s.RowsThere) (horderly : s.FindsRow p o) :
    ∃ result, s.podmgrStartDecrypt p o = some result := by
  unfold DecryptSessions.podmgrStartDecrypt
  split_ifs with hca
  · exact ⟨_, rfl⟩
  obtain ⟨⟨available, t⟩, hquery⟩ :=
    exists_checkAvailableResources hrows (p.tunerId.setWidth 8) p.pDescriptor.numStreams
  obtain ⟨⟨used, rfl⟩, havailable⟩ := checkAvailableResources_cases hquery
  rw [hquery]
  dsimp only [Option.bind_eq_bind, Option.bind_some]
  split_ifs with hrefused hwait
  · exact ⟨_, rfl⟩
  · exact ⟨_, rfl⟩
  have hresources : s.available p.pDescriptor.numStreams = true :=
    (havailable (by simp_all)).2
  obtain ⟨found, hfound⟩ := exists_scan (p := fun r : ProgramIndexTableRow => r.state == .notSelected)
    hrows
  obtain ⟨hsends, hfails⟩ := horderly (by simpa using hca) (by simpa using hwait) hresources found
    hfound
  have hrows' : RowsThere { s with
      transportStreamsUsed := used
      allocated := s.allocated + 1 } := hrows
  by_cases hsent : o.sent = .success
  · obtain ⟨⟨i, hi, hlt⟩, hlisted⟩ := hsends hsent
    obtain rfl := Option.mem_def.mp hi
    obtain ⟨-, row, hrow, -⟩ := of_scan_eq_some hfound
    have hthere : s.rowList[(nextIndex (some i)).toNat]? = some row := by
      rw [nextIndex, Option.getD_some, toNat_ofNat_byte hlt]
      exact hrow
    refine exists_startReady hrows' hfound hthere fun _ => ⟨hlisted, ?_⟩
    exact Nat.le_trans (h.length_sessionsAt_addRequest hnumbered (ofNat_byte_ne hlt)) (by decide)
  · exact exists_startReady hrows' hfound (List.getElem?_eq_getElem (hfails hsent))
      fun hsuccess => absurd hsuccess hsent

/-- **A round of the loop** over the suspended sessions is defined. -/
theorem InPlace.exists_activate {sent : CaPmtResult} (pidInfos : ℕ) (h : s.InPlace)
    (hnumbered : s.Numbered) (hrows : s.RowsThere) (horderly : s.FillsRow sent) :
    ∃ s', s.activate sent pidInfos = some s' := by
  unfold DecryptSessions.activate
  split
  · exact ⟨_, rfl⟩
  · exact ⟨_, rfl⟩
  case h_3 i hworker =>
    split_ifs with hlt
    swap
    · exact ⟨_, rfl⟩
    have hround : s.roundRow = some i := by
      unfold roundRow
      rw [hworker]
      exact if_pos hlt
    obtain ⟨hdescribed, hfills⟩ := horderly i hround
    obtain ⟨⟨available, t⟩, hask⟩ := exists_foldlM_askFor (askedAbout 0 s.requests) false hrows
      fun r hr => Option.isSome_iff_exists.mp (hdescribed r hr)
    have hfind : s.findNextSuspendedRequest = some
        (if available then (askedAbout 0 s.requests).getLast? else none, t) :=
      Option.bind_eq_some_iff.mpr ⟨(available, t), hask, rfl⟩
    obtain ⟨⟨used, rfl⟩, hfound⟩ := findNextSuspendedRequest_cases hfind
    suffices hactivated : ∃ result, s.activateSuspendedRequests i sent pidInfos = some result by
      obtain ⟨⟨success, u⟩, hactivated⟩ := hactivated
      exact ⟨_, Option.bind_eq_some_iff.mpr ⟨_, hactivated, rfl⟩⟩
    unfold activateSuspendedRequests
    rw [hfind]
    cases hrequest : (if available then (askedAbout 0 s.requests).getLast? else none) with
    | none => exact ⟨_, rfl⟩
    | some r =>
      rw [hrequest] at hfind hfound
      obtain ⟨hasked, -⟩ := hfound r rfl
      obtain ⟨hr, -⟩ := waiting_of_mem_askedAbout hasked
      obtain ⟨d, hd⟩ := Option.isSome_iff_exists.mp (hdescribed r hasked)
      obtain ⟨hbyte, -, -, hdesc⟩ := hfills _ hfind r rfl
      have hquery : s.Onward { s with transportStreamsUsed := used } := Onward.of_requests rfl rfl
      have hsessions := h.length_sessionsAt_le hnumbered (ofNat_byte_ne hbyte)
      exact exists_activateRequest (s := { s with transportStreamsUsed := used })
        (hquery.numbered hnumbered) hrows hlt hbyte hr hd (hdesc d hd).2
        (Nat.lt_of_le_of_lt hsessions (by decide))

/-- **A step that meets the condition** is defined. -/
theorem InPlace.exists_step {a : DecryptAction} (h : s.InPlace) (hnumbered : s.Numbered)
    (hrows : s.RowsThere) (horderly : s.OrderlyTables a) : ∃ s', s.step a = some s' := by
  unfold DecryptSessions.step
  split_ifs with hwaits
  · exact ⟨s, rfl⟩
  have horderly := horderly (Bool.eq_false_of_not_eq_true hwaits)
  cases a with
  | start p o =>
    obtain ⟨result, hstart⟩ := h.exists_podmgrStartDecrypt hnumbered hrows horderly
    exact ⟨result.2, congrArg (Option.map Prod.snd) hstart⟩
  | stop handle sent =>
    obtain ⟨t, hstop, -⟩ := h.podmgrStopDecrypt horderly
    exact ⟨t, hstop⟩
  | apdu sessionId apdu outerSent innerSent =>
    exact Option.isSome_iff_exists.mp ((readable_iff s sessionId apdu outerSent innerSent).mp horderly)
  | cardReady => exact ⟨_, rfl⟩
  | caSystemReady e => exact ⟨_, rfl⟩
  | activate sent pidInfos => exact h.exists_activate pidInfos hnumbered hrows horderly
  | cardRemoved => exact h.exists_cardRemoved hnumbered hrows
  | resetPending => exact ⟨s, rfl⟩

/-! ## Runs -/

/-- What a run keeps. -/
structure Sound (s : DecryptSessions) : Prop where
  /-- rows in use have streams -/
  shaped : s.Shaped
  /-- each request has its place -/
  inPlace : s.InPlace
  /-- each request has a handle of its own -/
  numbered : s.Numbered
  /-- the rows that are looked at are there -/
  rows : s.RowsThere

theorem Sound.booted {caEnable queryDisabled : Bool} : (booted caEnable queryDisabled).Sound :=
  ⟨Shaped.booted, InPlace.booted, Numbered.booted, RowsThere.booted⟩

theorem Sound.step {a : DecryptAction} (h : s.Sound) (horderly : s.OrderlyTables a)
    (hstep : s.step a = some s') : s'.Sound :=
  ⟨h.shaped.step hstep, h.inPlace.step h.shaped horderly hstep,
    (Onward.step hstep).numbered h.numbered, h.rows.step horderly hstep⟩

/-- **Requests and rows stay linked.** A run whose steps all meet the condition is defined, the
requests and the rows are linked in every state that it reaches, and each start that fails and each
stop undoes its session. -/
theorem tables_linked {caEnable queryDisabled : Bool} {acts : List DecryptAction}
    (horderly : EachStep step OrderlyTables (booted caEnable queryDisabled) acts) :
    (∃ s, runFrom step (booted caEnable queryDisabled) acts = some s ∧ s.Linked) ∧
      EachStep step Undoes (booted caEnable queryDisabled) acts := by
  have heach := horderly.and_invariant (I := Sound) (fun _ _ _ h ho hstep => h.step ho hstep)
    Sound.booted
  obtain ⟨s, hrun, hs⟩ := horderly.total (I := Sound) (fun s a h ho => by
    obtain ⟨s', hs'⟩ := h.inPlace.exists_step h.numbered h.rows ho
    exact ⟨s', hs', h.step ho hs'⟩) Sound.booted
  exact ⟨⟨s, hrun, hs.inPlace.linked⟩, heach.mono fun s a h => h.1.inPlace.undoes h.2⟩

theorem tables_linked_cardInserted :
    (∃ s, runFrom step (booted true false) (cardInserted ++
      [.start (twoStreams 5) {}, .start (twoStreams 6) {}, .stop 0 .success,
        .apdu 1 (replyWith [1, 0, 0x81, 1, 1, 0x81]) .success .success]) = some s ∧ s.Linked) ∧
    EachStep step Undoes (booted true false) (cardInserted ++
      [.start (twoStreams 5) {}, .start (twoStreams 6) {}, .stop 0 .success,
        .apdu 1 (replyWith [1, 0, 0x81, 1, 1, 0x81]) .success .success]) :=
  tables_linked (by decide +kernel)

/-- A stop whose CA_PMT is not sent leaves its row in use, without a request. -/
theorem row_left_in_use : ∃ s, runFrom step (booted true false)
    (cardInserted ++ [.start (twoStreams 5) {}, .stop 0 .error]) = some s ∧ ¬ s.Linked := by
  refine ⟨_, rfl, fun hlinked => ?_⟩
  obtain ⟨r, hr, -⟩ := hlinked.inUse 0 _ rfl rfl
  exact absurd hr List.not_mem_nil

end DecryptSessions

end MediaFramework
