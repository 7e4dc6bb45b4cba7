import MediaFramework.Pod.DecryptShape

/-!
# The handles of the decrypt sessions

The handle of a session is the address of its request. In whatever order the steps come and
whatever they meet with, no two requests have the same handle, a handle that is gone does not come
back, and a request that waits has no row.
-/

namespace MediaFramework

/-- A request that waits has no row, and the source of a request is that of its descriptor. -/
structure RequestTableRow.Sound (r : RequestTableRow) : Prop where
  waiting : r.state = .waitingForResources → r.programIdx = 255
  source : ∀ d ∈ r.pServiceHandle, r.sourceId = d.srcId.setWidth 16

namespace DecryptSessions

/-- The handles of the sessions that are there. -/
def handles (s : DecryptSessions) : List ℕ := s.requests.map RequestTableRow.handle

/-- **Each session has a handle of its own.** -/
structure Numbered (s : DecryptSessions) : Prop where
  fresh : ∀ h ∈ s.handles, h < s.allocated
  nodup : s.handles.Nodup
  sound : ∀ r ∈ s.requests, r.Sound

/-- What comes after a state: the handles stay right, and none comes back. -/
structure Onward (s s' : DecryptSessions) : Prop where
  allocated : s.allocated ≤ s'.allocated
  numbered : s.Numbered → s'.Numbered
  gone : ∀ h, h < s.allocated → h ∉ s.handles → h ∉ s'.handles

variable {s s' t : DecryptSessions} {i : ℕ} {r r' : RequestTableRow}

theorem mem_handles (hr : r ∈ s.requests) : r.handle ∈ s.handles := List.mem_map_of_mem hr

theorem Numbered.unique (h : s.Numbered) (hr : r ∈ s.requests) (hr' : r' ∈ s.requests)
    (heq : r.handle = r'.handle) : r = r' :=
  List.inj_on_of_nodup_map h.nodup hr hr' heq

theorem Numbered.booted {caEnable queryDisabled : Bool} :
    (booted caEnable queryDisabled).Numbered where
  fresh := fun _ hh => absurd hh List.not_mem_nil
  nodup := List.nodup_nil
  sound := fun _ hr => absurd hr List.not_mem_nil

namespace Onward

/-! ## Changes of the requests -/

/-- The handles stay. -/
theorem of_map {f : RequestTableRow → RequestTableRow} (hrequests : s'.requests = s.requests.map f)
    (hf : ∀ r, (f r).handle = r.handle)
    (hsound : s.Numbered → ∀ r ∈ s.requests, (f r).Sound)
    (hallocated : s'.allocated = s.allocated) : s.Onward s' := by
  have hsame : s'.handles = s.handles := by
    unfold handles
    rw [hrequests, List.map_map]
    exact List.map_congr_left fun r _ => hf r
  refine ⟨hallocated.ge, fun h => ⟨?_, ?_, fun r' hr' => ?_⟩, fun n _ hgone => ?_⟩
  · rw [hsame, hallocated]
    exact h.fresh
  · rw [hsame]
    exact h.nodup
  · rw [hrequests] at hr'
    obtain ⟨r, hr, rfl⟩ := List.mem_map.mp hr'
    exact hsound h r hr
  · rw [hsame]
    exact hgone

theorem of_requests (hrequests : s'.requests = s.requests)
    (hallocated : s'.allocated = s.allocated) : s.Onward s' :=
  of_map (f := id) (hrequests.trans (List.map_id _).symm) (fun _ => rfl) Numbered.sound hallocated

theorem refl (s : DecryptSessions) : s.Onward s := of_requests rfl rfl

theorem trans (h : s.Onward t) (h' : t.Onward s') : s.Onward s' where
  allocated := h.allocated.trans h'.allocated
  numbered := h'.numbered ∘ h.numbered
  gone := fun n hlt hgone =>
    h'.gone n (Nat.lt_of_lt_of_le hlt h.allocated) (h.gone n hlt hgone)

theorem setRow {row : ProgramIndexTableRow} : s.Onward (s.setRow i row) := of_requests rfl rfl

/-- One request is changed. -/
theorem setRequest {h : ℕ} {f : RequestTableRow → RequestTableRow}
    (hrequests : s'.requests = (s.setRequest h f).requests) (hf : ∀ r, (f r).handle = r.handle)
    (hsound : s.Numbered → ∀ r ∈ s.requests, r.handle = h → (f r).Sound)
    (hallocated : s'.allocated = s.allocated) : s.Onward s' := by
  refine of_map hrequests (fun r => ?_) (fun hnumbered r hr => ?_) hallocated
  · split_ifs
    · exact hf r
    · rfl
  · split_ifs with heq
    · exact hsound hnumbered r hr heq
    · exact hnumbered.sound r hr

/-- Requests are taken out. -/
theorem filter {p : RequestTableRow → Bool} (hrequests : s'.requests = s.requests.filter p)
    (hallocated : s'.allocated = s.allocated) : s.Onward s' := by
  have hsub : s'.handles.Sublist s.handles := by
    unfold handles
    rw [hrequests]
    exact List.filter_sublist.map _
  refine ⟨hallocated.ge, fun h => ⟨fun n hn => ?_, h.nodup.sublist hsub, fun r hr => ?_⟩,
    fun n _ hgone hmem => hgone (hsub.subset hmem)⟩
  · rw [hallocated]
    exact h.fresh n (hsub.subset hn)
  · rw [hrequests] at hr
    exact h.sound r (List.mem_filter.mp hr).1

/-- A session is new. -/
theorem addRequest (hrequests : s'.requests = s.requests ++ [r]) (hhandle : r.handle = s.allocated)
    (hallocated : s'.allocated = s.allocated + 1) (hsound : r.Sound) : s.Onward s' := by
  have hadded : s'.handles = s.handles ++ [s.allocated] := by
    unfold handles
    rw [hrequests, List.map_append, List.map_singleton, hhandle]
  refine ⟨?_, fun h => ⟨fun n hn => ?_, ?_, fun q hq => ?_⟩, fun n hlt hgone hmem => ?_⟩
  · rw [hallocated]
    exact Nat.le_succ _
  · rw [hadded] at hn
    rw [hallocated]
    rcases List.mem_append.mp hn with hn | hn
    · exact Nat.lt_succ_of_lt (h.fresh n hn)
    · rw [List.mem_singleton.mp hn]
      exact Nat.lt_succ_self _
  · rw [hadded]
    refine List.nodup_append.mpr ⟨h.nodup, List.nodup_singleton _, fun n hn m hm heq => ?_⟩
    have hlt := h.fresh n hn
    rw [heq, List.mem_singleton.mp hm] at hlt
    exact Nat.lt_irrefl _ hlt
  · rw [hrequests] at hq
    rcases List.mem_append.mp hq with hq | hq
    · exact h.sound q hq
    · rw [List.mem_singleton.mp hq]
      exact hsound
  · rw [hadded] at hmem
    rcases List.mem_append.mp hmem with hmem | hmem
    · exact hgone hmem
    · exact Nat.ne_of_lt hlt (List.mem_singleton.mp hmem)

/-! ## The steps -/

theorem commitRow {caPmtCmdId : CaPmtCommand} {d : ParsedDescriptors}
    {transactionId tunerId ltsId : BitVec 8} {state : DecryptState} {pidInfos : ℕ}
    (h : s.commitRow i caPmtCmdId d transactionId tunerId ltsId state pidInfos = some s') :
    s.Onward s' := by
  by_cases hrows : s.rows = none
  · unfold DecryptSessions.commitRow at h
    rw [hrows] at h
    cases h
    exact refl _
  · obtain ⟨inUse, row, streams, -, -, -, rfl⟩ := commitRow_cases h hrows
    exact of_requests rfl rfl

theorem sound_newRequest {p : DecryptRequestParams} {n : ℕ} {dupMemory : Bool}
    {programIdx : BitVec 8} {ltsId : BitVec 8} {state : DecryptRequestState}
    (hwaiting : state = .waitingForResources → programIdx = 255) :
    RequestTableRow.Sound { p.newRequest n dupMemory with
      programIdx := programIdx
      ltsId := ltsId
      state := state } where
  waiting := hwaiting
  source := fun d hd => by
    have hd : (if dupMemory then some p.pDescriptor else none) = some d := hd
    split_ifs at hd
    rw [← Option.some.inj hd]
    rfl

theorem podmgrStartDecrypt {p : DecryptRequestParams} {o : StartOutcome} {result : StartResult}
    (h : s.podmgrStartDecrypt p o = some (result, s')) : s.Onward s' := by
  obtain ⟨-, -, rfl⟩ | ⟨-, available, used, -, hcases⟩ := podmgrStartDecrypt_cases h
  · exact refl _
  obtain ⟨-, rfl⟩ | ⟨-, -, -, rfl⟩ | ⟨-, -, hstart⟩ := hcases
  · exact of_requests rfl rfl
  · exact addRequest (r := s.waitingRequest p o) rfl rfl rfl (sound_newRequest fun _ => rfl)
  obtain ⟨found, -, hstarted⟩ := startReady_cases hstart
  have hadd : s.Onward (({ s with
      transportStreamsUsed := used
      allocated := s.allocated + 1 } : DecryptSessions).addRequest
        (s.readyRequest p o (nextIndex found))) :=
    addRequest (r := s.readyRequest p o (nextIndex found)) rfl rfl rfl
      (sound_newRequest fun hwaits => by cases hwaits)
  obtain ⟨-, -, transactionId, hcommitted⟩ | ⟨-, -, rfl⟩ := hstarted
  · obtain ⟨caPmtCmdId, state, u, posted, -, -, hcommit, rfl⟩ := committed_cases hcommitted
    refine (hadd.trans (commitRow hcommit)).trans (setRequest (s := u) rfl (fun _ => rfl)
      (fun hnumbered r hr _ => ⟨fun hwaits => ?_, (hnumbered.sound r hr).source⟩) rfl)
    cases hwaits
  · exact hadd.trans (filter rfl rfl)

theorem releaseRow (h : s.releaseRow i = some s') : s.Onward s' := by
  by_cases hrows : s.rows = none
  · unfold DecryptSessions.releaseRow at h
    rw [hrows] at h
    cases h
    exact refl _
  · obtain ⟨row, -, rfl⟩ := releaseRow_cases h hrows
    exact of_requests rfl rfl

theorem podmgrStopDecrypt {handle : ℕ} {sent : CaPmtResult}
    (h : s.podmgrStopDecrypt handle sent = some s') : s.Onward s' := by
  unfold DecryptSessions.podmgrStopDecrypt at h
  split_ifs at h with hca
  · cases h
    exact refl _
  · split at h
    case h_1 =>
      cases h
      exact refl _
    case h_2 r hfind =>
      obtain ⟨-, rfl⟩ | ⟨-, -, -, transactionId, u, hset, hrelease⟩ := stopRequest_cases h
      · exact filter rfl rfl
      · obtain ⟨row, -, rfl⟩ := setTransactionId_cases hset
        have hremoved : s.Onward ((s.post .sessionShutdown [r]).removeRequest r.handle) :=
          filter rfl rfl
        exact (hremoved.trans setRow).trans (releaseRow hrelease)

theorem suspendRow (h : s.suspendRow i = some s') : s.Onward s' := by
  obtain ⟨row, -, ⟨-, rfl⟩ | ⟨-, sessions, u, hrelease, hset⟩⟩ := suspendRow_cases h
  · exact refl _
  · obtain ⟨row', -, rfl⟩ := setTransactionId_cases hset
    have hsuspend : s.Onward
        ((s.suspendRequests (BitVec.ofNat 8 i)).post .resourceLost sessions) := by
      refine of_map rfl (fun r => ?_) (fun hnumbered r hr => ?_) rfl
      · split_ifs
        · rfl
        · rfl
      · split_ifs
        · exact ⟨fun _ => rfl, (hnumbered.sound r hr).source⟩
        · exact hnumbered.sound r hr
    exact (hsuspend.trans (releaseRow hrelease)).trans setRow

theorem suspendActiveCASessions (h : s.suspendActiveCASessions = some s') : s.Onward s' :=
  foldlM_range_invariant (I := fun _ => s.Onward)
    (fun _ _ _ _ hI hsuspend => hI.trans (suspendRow hsuspend)) (refl s) h

theorem cardRemoved (h : s.cardRemoved = some s') : s.Onward s' := by
  obtain ⟨u, hu, h⟩ := Option.bind_eq_some_iff.mp h
  cases h
  refine (suspendActiveCASessions hu).trans
    ((filter rfl rfl : u.Onward u.removeUnusedRequests).trans (of_requests ?_ ?_))
  · unfold freeRows
    split
    · rfl
    · rfl
  · unfold freeRows
    split
    · rfl
    · rfl

theorem activateRequest {programIdx : BitVec 8} {sent : CaPmtResult} {pidInfos : ℕ}
    {success : Bool} (hr : r ∈ s.requests) (hrows : s.rows ≠ none)
    (h : s.activateRequest programIdx r sent pidInfos = some (success, s')) : s.Onward s' := by
  obtain ⟨g, transports, programs, elementary, posted, hg, hcases⟩ :=
    activateRequest_tables h hrows
  have hsound : s.Numbered → ∀ q ∈ s.requests, q.handle = r.handle → (g q).Sound := by
    intro hnumbered q hq heq
    obtain rfl := hnumbered.unique hq hr heq
    refine ⟨fun hwaits => ?_, hg.source (hnumbered.sound q hq).source⟩
    rw [hg.state] at hwaits
    cases hwaits
  obtain ⟨-, rfl⟩ | ⟨-, d, row, transactionId, streams, -, -, rfl⟩ := hcases
  · exact setRequest rfl hg.handle hsound rfl
  · exact setRequest rfl hg.handle hsound rfl

theorem activate {sent : CaPmtResult} {pidInfos : ℕ} (h : s.activate sent pidInfos = some s') :
    s.Onward s' := by
  unfold DecryptSessions.activate at h
  split at h
  case h_1 =>
    cases h
    exact refl _
  case h_2 =>
    cases h
    exact of_requests rfl rfl
  case h_3 i hworker =>
    split_ifs at h with hlt
    · obtain ⟨⟨success, u⟩, hactivated, h⟩ := Option.bind_eq_some_iff.mp h
      cases h
      obtain ⟨⟨request, v⟩, hfind, hactivated⟩ := Option.bind_eq_some_iff.mp hactivated
      obtain ⟨⟨used, rfl⟩, hfound⟩ := findNextSuspendedRequest_cases hfind
      cases request with
      | none =>
        cases hactivated
        exact of_requests rfl rfl
      | some r =>
        obtain ⟨hasked, hrows⟩ := hfound r rfl
        have hquery : s.Onward { s with transportStreamsUsed := used } := of_requests rfl rfl
        have hr : r ∈ s.requests := (waiting_of_mem_askedAbout hasked).1
        exact (hquery.trans (activateRequest hr hrows hactivated)).trans (of_requests rfl rfl)
    · cases h
      exact of_requests rfl rfl

theorem podProcessApdu {sessionId : BitVec 32} {apdu : Apdu} {outerSent innerSent : CaPmtResult}
    (h : s.podProcessApdu sessionId apdu outerSent innerSent = some s') : s.Onward s' := by
  obtain rfl | ⟨programIdx, outer, streams, row, row', f, posted, -, -, hf, rfl⟩ :=
    podProcessApdu_cases h
  · exact refl _
  · refine of_map rfl (fun r => ?_) (fun hnumbered r hr => ?_) rfl
    · rcases hf r with hsame | hsame
      · rw [hsame]
      · rw [hsame]
    · rcases hf r with hsame | hsame
      · rw [hsame]
        exact hnumbered.sound r hr
      · rw [hsame]
        exact ⟨(hnumbered.sound r hr).waiting, (hnumbered.sound r hr).source⟩

theorem step {a : DecryptAction} (h : s.step a = some s') : s.Onward s' := by
  unfold DecryptSessions.step at h
  split_ifs at h with hwaits
  · cases h
    exact refl _
  cases a with
  | start p o =>
    obtain ⟨⟨result, u⟩, hstart, rfl⟩ := Option.map_eq_some_iff.mp h
    exact podmgrStartDecrypt hstart
  | stop handle sent => exact podmgrStopDecrypt h
  | apdu sessionId apdu outerSent innerSent => exact podProcessApdu h
  | cardReady =>
    cases h
    exact of_requests rfl rfl
  | caSystemReady e =>
    cases h
    exact of_requests rfl rfl
  | activate sent pidInfos => exact activate h
  | cardRemoved => exact cardRemoved h
  | resetPending =>
    cases h
    exact refl _

/-- **What comes after a run.** -/
theorem run {acts : List DecryptAction} (h : runFrom DecryptSessions.step s acts = some s') :
    s.Onward s' :=
  EachStep.unconditional.invariant (I := s.Onward) (fun _ _ _ hI _ hs => hI.trans (step hs))
    (refl s) h

end Onward

/-- **In every run each session has a handle of its own.** -/
theorem Numbered.run {caEnable queryDisabled : Bool} {acts : List DecryptAction}
    (h : runFrom step (DecryptSessions.booted caEnable queryDisabled) acts = some s) :
    s.Numbered :=
  (Onward.run h).numbered Numbered.booted

/-- **What the tables look like in every run**, whatever the steps meet with. A row has a list of
streams just if it is in use, and its `tunerId` is never written; no request is for
`NOT_SELECTED`, one that waits has no row, and no two have the same handle. -/
theorem tables_run {caEnable queryDisabled : Bool} {acts : List DecryptAction}
    (h : runFrom step (DecryptSessions.booted caEnable queryDisabled) acts = some s) :
    s.Shaped ∧ s.Numbered :=
  ⟨Shaped.booted.run h, Numbered.run h⟩

theorem tables_run_cardInserted : ∃ s, runFrom step (DecryptSessions.booted true false)
      (cardInserted ++ [.start (twoStreams 5) {}]) = some s ∧
    s.Shaped ∧ s.Numbered :=
  let ⟨s, hrun⟩ := Option.isSome_iff_exists.mp (by decide +kernel)
  ⟨s, hrun, tables_run hrun⟩

end DecryptSessions

end MediaFramework
