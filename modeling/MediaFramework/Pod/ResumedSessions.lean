import MediaFramework.Lib.Selection
import MediaFramework.Pod.SuspendedSessions

/-!
# Sessions are activated again

The loop over the rows activates one suspended session in each round, until none is found or one
cannot be activated. The session that is found is one with the highest priority of those that wait,
so that the sessions are activated in the order of their priorities. It gets the row of the round,
or is left without one if its CA_PMT cannot be made or sent, which ends the loop.
-/

namespace MediaFramework

/-- What a round of the loop meets with. -/
structure RoundOutcome where
  sent : CaPmtResult := .success
  /-- how many streams there is memory for -/
  pidInfos : ℕ := 255

/-- The CA_PMT of the request can be made, and is sent. -/
def RoundOutcome.Sends (o : RoundOutcome) (r : RequestTableRow) : Prop :=
  o.sent = .success ∧ ∀ d ∈ r.pServiceHandle, d.caDescFound = 1

namespace DecryptSessions

/-! ## The loop -/

/-- The loop of `activateSuspendedCASessions` over `count` rows from row `i` on, which ends at the
first error; ghost: the requests that are found. -/
def activateRows (o : ℕ → RoundOutcome) : ℕ → ℕ → DecryptSessions →
    Option (List RequestTableRow × DecryptSessions)
  | 0, _, s => some ([], { s with worker := .idle })
  | count + 1, i, s => do
    let (request, s) ← s.findNextSuspendedRequest
    match request with
    | none => some ([], { s with worker := .idle })
    | some r =>
      let (success, s) ← s.activateRequest (BitVec.ofNat 8 i) r (o i).sent (o i).pidInfos
      if success then do
        let (found, s) ← activateRows o count (i + 1) { s with worker := .activating (i + 1) }
        some (r :: found, s)
      else some ([r], { s with worker := .idle })

/-- `activateSuspendedCASessions`. -/
def activateSuspendedCASessions (s : DecryptSessions) (o : ℕ → RoundOutcome) :
    Option (List RequestTableRow × DecryptSessions) :=
  activateRows o s.numRows 0 { s with worker := .activating 0 }

/-- The event handler thread goes on with the rounds from row `i` on, `count` of them. -/
def activateRounds (o : ℕ → RoundOutcome) (i count : ℕ) : List DecryptAction :=
  (List.range' i count).map fun j => .activate (o j).sent (o j).pidInfos

variable {s s' t v : DecryptSessions} {i j n : ℕ} {r q : RequestTableRow}
  {row : ProgramIndexTableRow} {o : ℕ → RoundOutcome} {found : List RequestTableRow}

/-- A round of the loop: nothing is found, or the request that is found cannot be activated, or the
loop goes on. -/
theorem activateRows_cases {count : ℕ} (h : activateRows o (count + 1) i s = some (found, v)) :
    ∃ request t, s.findNextSuspendedRequest = some (request, t) ∧
      (request = none ∧ found = [] ∧ v = { t with worker := .idle } ∨ ∃ r u, request = some r ∧
        (t.activateRequest (BitVec.ofNat 8 i) r (o i).sent (o i).pidInfos = some (false, u) ∧
            found = [r] ∧ v = { u with worker := .idle } ∨
          t.activateRequest (BitVec.ofNat 8 i) r (o i).sent (o i).pidInfos = some (true, u) ∧
            ∃ rest, found = r :: rest ∧
              activateRows o count (i + 1) { u with worker := .activating (i + 1) } =
                some (rest, v))) := by
  obtain ⟨⟨request, t⟩, hfind, h⟩ := Option.bind_eq_some_iff.mp h
  refine ⟨request, t, hfind, ?_⟩
  cases request with
  | none =>
    cases h
    exact .inl ⟨rfl, rfl, rfl⟩
  | some r =>
    obtain ⟨⟨success, u⟩, hactivate, h⟩ := Option.bind_eq_some_iff.mp h
    refine .inr ⟨r, u, rfl, ?_⟩
    cases success with
    | false =>
      cases h
      exact .inl ⟨hactivate, rfl, rfl⟩
    | true =>
      obtain ⟨⟨rest, w⟩, hrest, h⟩ := Option.bind_eq_some_iff.mp h
      cases h
      exact .inr ⟨hactivate, rest, rfl, hrest⟩

/-- No more rounds once the loop has ended. -/
theorem runFrom_activateRounds_of_idle (hidle : s.worker = .idle) (count i : ℕ) :
    runFrom step s (activateRounds o i count) = some s := by
  induction count generalizing i with
  | zero => rfl
  | succ count ih =>
    have hround : s.step (.activate (o i).sent (o i).pidInfos) = some s := by
      show s.activate (o i).sent (o i).pidInfos = some s
      unfold activate
      rw [hidle]
    unfold activateRounds
    rw [List.range'_succ, List.map_cons, runFrom_cons, hround]
    exact ih (i + 1)

/-- **The loop is what the event handler thread does**, one round after the other, and it has ended
after a round more than there are rows. -/
theorem runFrom_activateRounds {count : ℕ} (hworker : s.worker = .activating i)
    (hnum : i + count = s.numRows) (h : activateRows o count i s = some (found, v)) :
    runFrom step s (activateRounds o i (count + 1)) = some v ∧ v.worker = .idle := by
  induction count generalizing i s found with
  | zero =>
    cases h
    refine ⟨?_, rfl⟩
    show (s.activate (o i).sent (o i).pidInfos).bind _ = _
    unfold activate
    rw [hworker]
    dsimp only
    rw [if_neg (by omega)]
    rfl
  | succ count ih =>
    have hlt : i < s.numRows := by omega
    have hround : s.step (.activate (o i).sent (o i).pidInfos) =
        (s.activateSuspendedRequests i (o i).sent (o i).pidInfos).bind fun result =>
          some { result.2 with worker := if result.1 then .activating (i + 1) else .idle } := by
      show s.activate (o i).sent (o i).pidInfos = _
      unfold activate
      rw [hworker]
      exact if_pos hlt
    unfold activateRounds
    rw [List.range'_succ, List.map_cons, runFrom_cons, hround]
    unfold activateSuspendedRequests
    obtain ⟨request, t, hfind, hcases⟩ := activateRows_cases h
    rw [hfind]
    obtain ⟨rfl, rfl, rfl⟩ | ⟨r, u, rfl, hcases⟩ := hcases
    · exact ⟨runFrom_activateRounds_of_idle rfl _ _, rfl⟩
    obtain ⟨hactivate, rfl, rfl⟩ | ⟨hactivate, rest, rfl, hrest⟩ := hcases
    · refine ⟨?_, rfl⟩
      show ((t.activateRequest (BitVec.ofNat 8 i) r (o i).sent (o i).pidInfos).bind _).bind _ = _
      rw [hactivate]
      exact runFrom_activateRounds_of_idle rfl _ _
    · have hsame : u.numRows = s.numRows := by
        obtain ⟨⟨used, rfl⟩, hrows⟩ := findNextSuspendedRequest_cases hfind
        obtain ⟨g, transports, programs, elementary, posted, -, hdone⟩ :=
          activateRequest_tables hactivate (hrows r rfl).2
        obtain ⟨hfalse, -⟩ | ⟨-, d, row, transactionId, streams, -, -, rfl⟩ := hdone
        · cases hfalse
        · rfl
      have hleft : i + 1 + count = u.numRows := by omega
      obtain ⟨hrun, hidle⟩ := ih (s := { u with worker := .activating (i + 1) }) rfl hleft hrest
      refine ⟨?_, hidle⟩
      show ((t.activateRequest (BitVec.ofNat 8 i) r (o i).sent (o i).pidInfos).bind _).bind _ = _
      rw [hactivate]
      exact hrun

/-! ## The session that is found -/

/-- If no request is asked about, none has a priority above. -/
theorem priority_le_of_askedAbout_eq_nil : ∀ {requests : List RequestTableRow} {saved : BitVec 8},
    askedAbout saved requests = [] →
      ∀ q ∈ requests, q.state = .waitingForResources → q.priority ≤ saved := by
  intro requests
  induction requests with
  | nil =>
    intro saved _ q hq _
    exact absurd hq List.not_mem_nil
  | cons r requests ih =>
    intro saved h q hq hwaits
    unfold askedAbout at h
    split_ifs at h with hasks
    rcases List.mem_cons.mp hq with rfl | hq
    · exact BitVec.not_lt.mp fun hlt => hasks ⟨hwaits, hlt⟩
    · exact ih h q hq hwaits

/-- **The last request that is asked about** has the highest priority of those that wait. -/
theorem priority_le_getLast?_askedAbout : ∀ {requests : List RequestTableRow} {saved : BitVec 8},
    (askedAbout saved requests).getLast? = some r → saved < r.priority ∧
      ∀ q ∈ requests, q.state = .waitingForResources → q.priority ≤ r.priority := by
  intro requests
  induction requests with
  | nil =>
    intro saved h
    cases h
  | cons first requests ih =>
    intro saved h
    unfold askedAbout at h
    split_ifs at h with hasks
    · cases hrest : askedAbout first.priority requests with
      | nil =>
        -- the first one is the last
        rw [hrest] at h
        cases h
        refine ⟨hasks.2, fun q hq hwaits => ?_⟩
        rcases List.mem_cons.mp hq with rfl | hq
        · exact BitVec.le_refl _
        · exact priority_le_of_askedAbout_eq_nil hrest q hq hwaits
      | cons second rest =>
        rw [hrest, List.getLast?_cons_cons, ← hrest] at h
        obtain ⟨hlt, hmax⟩ := ih h
        refine ⟨BitVec.lt_trans hasks.2 hlt, fun q hq hwaits => ?_⟩
        rcases List.mem_cons.mp hq with rfl | hq
        · exact BitVec.le_of_lt hlt
        · exact hmax q hq hwaits
    · obtain ⟨hlt, hmax⟩ := ih h
      refine ⟨hlt, fun q hq hwaits => ?_⟩
      rcases List.mem_cons.mp hq with rfl | hq
      · have hle : q.priority ≤ saved := BitVec.not_lt.mp fun habove => hasks ⟨hwaits, habove⟩
        exact BitVec.le_trans hle (BitVec.le_of_lt hlt)
      · exact hmax q hq hwaits

/-- **The session that is found** waits, and none that waits has a higher priority. -/
theorem greatest_of_findNextSuspendedRequest
    (h : s.findNextSuspendedRequest = some (some r, s')) :
    s.Waits r ∧ ∀ q, s.Waits q → q.priority ≤ r.priority := by
  have hasked := ((findNextSuspendedRequest_cases h).2 r rfl).1
  obtain ⟨hr, hwaits⟩ := waiting_of_mem_askedAbout hasked
  obtain ⟨⟨available, u⟩, -, h⟩ := Option.bind_eq_some_iff.mp h
  cases available with
  | false => cases h
  | true =>
    have hlast : (askedAbout 0 s.requests).getLast? = some r :=
      congrArg Prod.fst (Option.some.inj h)
    exact ⟨⟨hr, hwaits⟩, fun q hq => (priority_le_getLast?_askedAbout hlast).2 q hq.mem hq.waiting⟩

/-! ## One round -/

theorem HasRow.of_getElem? (h : s.HasRow q)
    (hsame : t.rowList[q.programIdx.toNat]? = s.rowList[q.programIdx.toNat]?) : t.HasRow q := by
  obtain ⟨row, hrow, huse, hnames⟩ := h
  exact ⟨row, hsame.trans hrow, huse, hnames⟩

/-- **A session is activated** in the round with the number: its request is the only one that
changes, and if its CA_PMT is sent it has the row. -/
structure Activated (s : DecryptSessions) (i : ℕ) (r : RequestTableRow) (sends : Prop)
    (t : DecryptSessions) : Prop where
  waiting : ∀ q, t.Waits q ↔ s.Waits q ∧ q ≠ r
  handles : t.handles = s.handles
  numRows : t.numRows = s.numRows
  length : t.rowList.length = s.rowList.length
  others : ∀ q ∈ s.requests, q ≠ r → q ∈ t.requests
  sessions : ∀ programIdx, programIdx ≠ BitVec.ofNat 8 i →
    (t.sessionsAt programIdx).length ≤ (s.sessionsAt programIdx).length
  active : ∃ q ∈ t.requests, q.handle = r.handle ∧ q.state = .active ∧ q.programIdx.toNat = i ∧
    (sends → t.HasRow q)
  rows : ∀ j, j ≠ i → t.rowList[j]? = s.rowList[j]?
  row : ¬ sends → t.rowList[i]? = s.rowList[i]?

theorem Activated.enough {sends : Prop} (h : s.Activated i r sends t)
    (hrows : s.numRows ≤ s.rowList.length) : t.numRows ≤ t.rowList.length := by
  rw [h.numRows, h.length]
  exact hrows

/-- The requests after one of them is activated. -/
theorem waits_map_iff {g : RequestTableRow → RequestTableRow} {programIdx : BitVec 8}
    (hg : Activates programIdx r g) (hnumbered : s.Numbered) (hr : r ∈ s.requests)
    (hrequests : t.requests = s.requests.map fun q => if q.handle = r.handle then g q else q) :
    t.Waits q ↔ s.Waits q ∧ q ≠ r := by
  refine ⟨fun h => ?_, fun h => ⟨?_, h.1.waiting⟩⟩
  · have hq := h.mem
    rw [hrequests] at hq
    obtain ⟨p, hp, rfl⟩ := List.mem_map.mp hq
    have hwaits := h.waiting
    split_ifs at hwaits ⊢ with heq
    · rw [hg.state] at hwaits
      cases hwaits
    · exact ⟨⟨hp, hwaits⟩, fun hself => heq (congrArg RequestTableRow.handle hself)⟩
  · rw [hrequests]
    refine List.mem_map.mpr ⟨q, h.1.mem, if_neg fun heq => ?_⟩
    exact h.2 (hnumbered.unique h.1.mem hr heq)

theorem activateRequest_activated {outcome : RoundOutcome} {success : Bool} (hshaped : s.Shaped)
    (hnumbered : s.Numbered) (hbyte : i < 255) (hrows : s.rows ≠ none) (hr : s.Waits r)
    (h : s.activateRequest (BitVec.ofNat 8 i) r outcome.sent outcome.pidInfos =
      some (success, t)) :
    s.Activated i r (outcome.Sends r) t := by
  have hsuccess := activateRequest_success h
  have hidx : (BitVec.ofNat 8 i).toNat = i := toNat_ofNat_byte hbyte
  obtain ⟨g, transports, programs, elementary, posted, hg, hcases⟩ :=
    activateRequest_tables h hrows
  have hrequests : t.requests =
      s.requests.map fun q => if q.handle = r.handle then g q else q := by
    obtain ⟨-, rfl⟩ | ⟨-, d, row, transactionId, streams, -, -, rfl⟩ := hcases
    · rfl
    · rfl
  have hnum : t.numRows = s.numRows := by
    obtain ⟨-, rfl⟩ | ⟨-, d, row, transactionId, streams, -, -, rfl⟩ := hcases
    · rfl
    · rfl
  have hlength : t.rowList.length = s.rowList.length := by
    obtain ⟨-, rfl⟩ | ⟨-, d, row, transactionId, streams, -, -, rfl⟩ := hcases
    · rfl
    · exact (congrArg List.length (rowList_setRow (s := s))).trans (List.length_set ..)
  -- the row of the round is written only if the CA_PMT is sent
  have hrowsSame : ∀ j, j ≠ i → t.rowList[j]? = s.rowList[j]? := fun j hj => by
    obtain ⟨-, rfl⟩ | ⟨-, d, row, transactionId, streams, -, -, rfl⟩ := hcases
    · rfl
    · refine (congrArg (·[j]?) (rowList_setRow (s := s))).trans ?_
      rw [hidx]
      exact List.getElem?_set_ne hj.symm
  have hrowSame : ¬ outcome.Sends r → t.rowList[i]? = s.rowList[i]? := fun hfails => by
    obtain ⟨-, rfl⟩ | ⟨htrue, -⟩ := hcases
    · rfl
    · exact absurd (hsuccess.mp htrue) hfails
  have hself : outcome.Sends r → t.HasRow (g r) := fun hsends => by
    obtain ⟨hfalse, -⟩ | ⟨-, d, row, transactionId, streams, hd, hrow, rfl⟩ := hcases
    · rw [hsuccess.mpr hsends] at hfalse
      cases hfalse
    · refine ⟨committedRow row (nextCommand r) d transactionId r.tunerId 255
        (caCommandToState (nextCommand r)) streams, ?_,
        ProgramIndexTableRow.inUse_eq_true.mpr ?_, hg.names (hnumbered.sound r hr.mem).source hd⟩
      · rw [hg.programIdx]
        exact (congrArg (·[(BitVec.ofNat 8 i).toNat]?) (rowList_setRow (s := s))).trans
          (List.getElem?_set_self (List.getElem?_eq_some_iff.mp hrow).1)
      · exact Shaped.caCommandToState_nextCommand (hshaped.requests r hr.mem)
  refine ⟨fun q => waits_map_iff hg hnumbered hr.mem hrequests, ?_, hnum, hlength,
    fun q hq hne => ?_, fun programIdx hne => ?_, ⟨g r, ?_, hg.handle r, hg.state r, ?_, hself⟩,
    hrowsSame, hrowSame⟩
  · unfold handles
    rw [hrequests, List.map_map]
    refine List.map_congr_left fun q _ => ?_
    rw [Function.comp_apply]
    split_ifs
    · exact hg.handle q
    · rfl
  · rw [hrequests]
    exact List.mem_map.mpr ⟨q, hq, if_neg fun heq => hne (hnumbered.unique hq hr.mem heq)⟩
  · unfold sessionsAt
    rw [hrequests, List.filter_map, List.length_map]
    refine (List.monotone_filter_right _ fun q hq => ?_).length_le
    rw [Function.comp_apply, decide_eq_true_iff] at hq
    split_ifs at hq
    · exact absurd ((hg.programIdx q).symm.trans hq).symm hne
    · exact decide_eq_true hq
  · rw [hrequests]
    exact List.mem_map.mpr ⟨r, hr.mem, if_pos rfl⟩
  · rw [hg.programIdx, hidx]

/-- **One round** finds a session with the highest priority, and activates it. -/
theorem round_activated {outcome : RoundOutcome} {success : Bool} (worker : PodWorker)
    (hshaped : s.Shaped) (hnumbered : s.Numbered) (hbyte : i < 255)
    (hfind : s.findNextSuspendedRequest = some (some r, s'))
    (h : s'.activateRequest (BitVec.ofNat 8 i) r outcome.sent outcome.pidInfos =
      some (success, t)) :
    s.Activated i r (outcome.Sends r) { t with worker := worker } ∧
      Shaped { t with worker := worker } ∧ Numbered { t with worker := worker } := by
  obtain ⟨⟨used, rfl⟩, hrows⟩ := findNextSuspendedRequest_cases hfind
  have hwaits := (greatest_of_findNextSuspendedRequest hfind).1
  have hquery : s.Onward { s with transportStreamsUsed := used } := Onward.of_requests rfl rfl
  have hshaped' : Shaped { s with transportStreamsUsed := used } := hshaped.of_tables rfl rfl
  have hnumbered' := hquery.numbered hnumbered
  have hwaits' : Waits { s with transportStreamsUsed := used } r := ⟨hwaits.mem, hwaits.waiting⟩
  have hdone := activateRequest_activated hshaped' hnumbered' hbyte (hrows r rfl).2 hwaits' h
  have hnumberedDone := (Onward.activateRequest hwaits'.mem (hrows r rfl).2 h).numbered hnumbered'
  have hworker : t.Onward { t with worker := worker } := Onward.of_requests rfl rfl
  refine ⟨⟨fun q => ?_, hdone.handles, hdone.numRows, hdone.length, hdone.others, hdone.sessions,
    hdone.active, hdone.rows, hdone.row⟩,
    (hshaped'.activateRequest (hshaped.requests r hwaits.mem) h).of_tables rfl rfl,
    hworker.numbered hnumberedDone⟩
  exact ⟨fun hq => ⟨⟨((hdone.waiting q).mp ⟨hq.mem, hq.waiting⟩).1.mem, hq.waiting⟩,
      ((hdone.waiting q).mp ⟨hq.mem, hq.waiting⟩).2⟩,
    fun hq => ⟨((hdone.waiting q).mpr ⟨⟨hq.1.mem, hq.1.waiting⟩, hq.2⟩).mem, hq.1.waiting⟩⟩

/-! ## The rounds -/

/-- **What the rounds from row `i` on do.** The sessions that are found are picked by their
priorities, and each gets the row of its round if its CA_PMT is sent. -/
structure ActivatedFrom (o : ℕ → RoundOutcome) (i : ℕ) (s : DecryptSessions)
    (found : List RequestTableRow) (t : DecryptSessions) : Prop where
  picks : Picks (fun r : RequestTableRow => r.priority.toNat) {q | s.Waits q} found {q | t.Waits q}
  handles : t.handles = s.handles
  others : ∀ q ∈ s.requests, q ∉ found → q ∈ t.requests
  active : ∀ j r, found[j]? = some r → ∃ q ∈ t.requests, q.handle = r.handle ∧
    q.state = .active ∧ q.programIdx.toNat = i + j ∧ ((o (i + j)).Sends r → t.HasRow q)
  rows : ∀ k, k < i ∨ i + found.length ≤ k → t.rowList[k]? = s.rowList[k]?
  row : ∀ j r, found[j]? = some r → ¬ (o (i + j)).Sends r →
    t.rowList[i + j]? = s.rowList[i + j]?

theorem ActivatedFrom.nil (o : ℕ → RoundOutcome) (i : ℕ) (hrequests : t.requests = s.requests)
    (hrows : t.rowList = s.rowList) : ActivatedFrom o i s [] t where
  picks := by
    have hsame : {q | t.Waits q} = {q | s.Waits q} := Set.ext fun q =>
      ⟨fun h => ⟨hrequests ▸ h.mem, h.waiting⟩, fun h => ⟨hrequests ▸ h.mem, h.waiting⟩⟩
    rw [hsame]
    exact .nil _
  handles := congrArg (List.map _) hrequests
  others := fun q hq _ => hrequests ▸ hq
  active := fun j r hr => by cases hr
  rows := fun k _ => by rw [hrows]
  row := fun j r hr => by cases hr

/-- **One round, and those after it.** -/
theorem ActivatedFrom.cons (hr : s.Waits r)
    (hmax : ∀ q, s.Waits q → q.priority ≤ r.priority)
    (hactivated : s.Activated i r ((o i).Sends r) t)
    (h : ActivatedFrom o (i + 1) t found v) : ActivatedFrom o i s (r :: found) v := by
  have hpool : {q | t.Waits q} = {q | s.Waits q} \ {r} := Set.ext hactivated.waiting
  refine ⟨.cons hr (fun q hq => BitVec.le_def.mp (hmax q hq)) (hpool ▸ h.picks),
    h.handles.trans hactivated.handles, fun q hq hout => ?_, fun j p hp => ?_, fun k hk => ?_,
    fun j p hp hfails => ?_⟩
  · obtain ⟨hne, hout⟩ := not_or.mp (fun hin => hout (List.mem_cons.mpr hin))
    exact h.others q (hactivated.others q hq hne) hout
  · cases j with
    | zero =>
      cases hp
      obtain ⟨q, hq, hhandle, hactive, hidx, hrow⟩ := hactivated.active
      -- it is active, so that no later round finds it
      have hout : q ∉ found := fun hin => by
        have hwaits := (h.picks.mem_pool hin).waiting
        rw [hactive] at hwaits
        cases hwaits
      refine ⟨q, h.others q hq hout, hhandle, hactive, hidx, fun hsends => ?_⟩
      refine (hrow hsends).of_getElem? (h.rows _ (.inl ?_))
      rw [hidx]
      exact Nat.lt_succ_self i
    | succ j =>
      obtain ⟨q, hq, hhandle, hactive, hidx, hrow⟩ := h.active j p hp
      have hplace : i + 1 + j = i + (j + 1) := by omega
      rw [hplace] at hidx hrow
      exact ⟨q, hq, hhandle, hactive, hidx, hrow⟩
  · rw [List.length_cons] at hk
    exact (h.rows k (by omega)).trans (hactivated.rows k (by omega))
  · cases j with
    | zero =>
      cases hp
      exact (h.rows i (.inl (Nat.lt_succ_self i))).trans (hactivated.row hfails)
    | succ j =>
      have hplace : i + 1 + j = i + (j + 1) := by omega
      rw [← hplace] at hfails ⊢
      exact (h.row j p hp hfails).trans (hactivated.rows _ (by omega))

theorem activatedFrom_of_activateRows : ∀ {count i : ℕ} {s : DecryptSessions}
    {found : List RequestTableRow}, s.Shaped → s.Numbered → i + count ≤ 255 →
      activateRows o count i s = some (found, v) →
        ActivatedFrom o i s found v ∧ found.length ≤ count := by
  intro count
  induction count with
  | zero =>
    intro i s found _ _ _ h
    cases h
    exact ⟨.nil o i rfl rfl, Nat.le_refl 0⟩
  | succ count ih =>
    intro i s found hshaped hnumbered hlimit h
    obtain ⟨request, t, hfind, hcases⟩ := activateRows_cases h
    obtain ⟨-, rfl, rfl⟩ | ⟨r, u, rfl, hcases⟩ := hcases
    · obtain ⟨⟨used, rfl⟩, -⟩ := findNextSuspendedRequest_cases hfind
      exact ⟨.nil o i rfl rfl, Nat.zero_le _⟩
    obtain ⟨hwaits, hmax⟩ := greatest_of_findNextSuspendedRequest hfind
    obtain ⟨hactivate, rfl, rfl⟩ | ⟨hactivate, rest, rfl, hrest⟩ := hcases
    · obtain ⟨hactivated, -⟩ :=
        round_activated .idle hshaped hnumbered (by omega) hfind hactivate
      exact ⟨.cons hwaits hmax hactivated (.nil o (i + 1) rfl rfl),
        Nat.succ_le_succ (Nat.zero_le _)⟩
    · obtain ⟨hactivated, hshaped', hnumbered'⟩ :=
        round_activated (.activating (i + 1)) hshaped hnumbered (by omega) hfind hactivate
      obtain ⟨hrounds, hlength⟩ := ih hshaped' hnumbered' (by omega) hrest
      exact ⟨.cons hwaits hmax hactivated hrounds, Nat.succ_le_succ hlength⟩

/-! ## The loop ends -/

/-- **The sessions can be activated** from row `i` on: each that waits has a descriptor with its
streams, and one more session fits into the array for those of a row. -/
structure Activatable (s : DecryptSessions) (i : ℕ) : Prop where
  described : ∀ r, s.Waits r → ∃ d, r.pServiceHandle = some d ∧
    (d.pESInfo = none → d.numStreams = 0)
  sessions : ∀ j, i ≤ j → j < s.numRows → (s.sessionsAt (BitVec.ofNat 8 j)).length < 10

theorem Activatable.next {sends : Prop} (h : s.Activatable i) (hlimit : s.numRows ≤ 255)
    (hdone : s.Activated i r sends t) : t.Activatable (i + 1) where
  described := fun q hq => h.described q ((hdone.waiting q).mp hq).1
  sessions := fun j hle hlt => by
    rw [hdone.numRows] at hlt
    refine Nat.lt_of_le_of_lt (hdone.sessions _ fun heq => ?_) (h.sessions j (by omega) hlt)
    have hsame : j = i := by
      rw [← toNat_ofNat_byte (i := j) (by omega), heq, toNat_ofNat_byte (by omega)]
    omega

theorem exists_tunerInUse (hrows : s.numRows ≤ s.rowList.length) (tunerId : BitVec 8) :
    ∃ inUse, s.tunerInUse tunerId = some inUse := by
  obtain ⟨found, hfound⟩ := exists_scan
    (p := fun r : ProgramIndexTableRow => r.tunerId == 0 && r.tunerId == tunerId) hrows
  exact ⟨found.isSome, congrArg (Option.map Option.isSome) hfound⟩

theorem exists_checkAvailableResources (hrows : s.numRows ≤ s.rowList.length) (tunerId : BitVec 8)
    (numStreams : ℕ) : ∃ result, s.checkAvailableResources tunerId numStreams = some result := by
  unfold checkAvailableResources
  split
  · exact ⟨_, rfl⟩
  · split_ifs
    · exact ⟨_, rfl⟩
    · obtain ⟨inUse, hinUse⟩ := exists_tunerInUse hrows tunerId
      rw [hinUse]
      exact ⟨_, rfl⟩

theorem exists_foldlM_askFor : ∀ (asked : List RequestTableRow) (before : Bool)
    {s : DecryptSessions}, s.numRows ≤ s.rowList.length →
      (∀ r ∈ asked, ∃ d, r.pServiceHandle = some d) →
        ∃ result, asked.foldlM askFor (before, s) = some result := by
  intro asked
  induction asked with
  | nil => exact fun _ _ _ _ => ⟨_, rfl⟩
  | cons r asked ih =>
    intro before s hrows hdescribed
    obtain ⟨d, hd⟩ := hdescribed r List.mem_cons_self
    obtain ⟨⟨available, t⟩, hquery⟩ := exists_checkAvailableResources hrows r.tunerId d.numStreams
    have hask : askFor (before, s) r = some (before || available, t) := by
      unfold askFor
      rw [hd]
      exact (congrArg (Option.bind · _) hquery).trans rfl
    obtain ⟨⟨used, rfl⟩, -⟩ := checkAvailableResources_cases hquery
    obtain ⟨result, hresult⟩ := ih (before || available)
      (s := { s with transportStreamsUsed := used }) hrows
      fun q hq => hdescribed q (List.mem_cons_of_mem r hq)
    refine ⟨result, ?_⟩
    rw [List.foldlM_cons, hask]
    exact hresult

theorem Activatable.exists_findNextSuspendedRequest (h : s.Activatable i)
    (hrows : s.numRows ≤ s.rowList.length) :
    ∃ result, s.findNextSuspendedRequest = some result := by
  obtain ⟨result, hresult⟩ := exists_foldlM_askFor (askedAbout 0 s.requests)
    false hrows fun r hr => by
      obtain ⟨hmem, hwaits⟩ := waiting_of_mem_askedAbout hr
      obtain ⟨d, hd, -⟩ := h.described r ⟨hmem, hwaits⟩
      exact ⟨d, hd⟩
  unfold findNextSuspendedRequest
  dsimp only
  rw [hresult]
  exact ⟨_, rfl⟩

theorem exists_copyStreams {d : ParsedDescriptors} (h : d.pESInfo = none → d.numStreams = 0)
    (pidInfos : ℕ) : ∃ streams, d.copyStreams pidInfos = some streams := by
  unfold ParsedDescriptors.copyStreams
  split
  · exact ⟨_, rfl⟩
  · rename_i hnone
    rw [h hnone, Nat.zero_min, if_pos rfl]
    exact ⟨_, rfl⟩

theorem exists_commitRow {i : ℕ} {d : ParsedDescriptors} (caPmtCmdId : CaPmtCommand)
    (transactionId tunerId ltsId : BitVec 8) (state : DecryptState) (pidInfos : ℕ)
    (hrows : s.numRows ≤ s.rowList.length) (hrow : s.rowList[i]? = some row)
    (hstreams : d.pESInfo = none → d.numStreams = 0) :
    ∃ t, s.commitRow i caPmtCmdId d transactionId tunerId ltsId state pidInfos = some t := by
  obtain ⟨inUse, hinUse⟩ := exists_tunerInUse hrows tunerId
  obtain ⟨streams, hcopy⟩ := exists_copyStreams hstreams pidInfos
  unfold commitRow
  rw [rows_of_getElem? hrow]
  dsimp only
  rw [hinUse, hrow, hcopy]
  exact ⟨_, rfl⟩

theorem exists_sendEventImpl {programIdx : BitVec 8} (event : DecryptSessionEvent)
    (hsessions : (s.sessionsAt programIdx).length ≤ 10) :
    ∃ t, s.sendEventImpl event programIdx = some t := by
  unfold sendEventImpl
  split
  · exact ⟨_, rfl⟩
  · exact ⟨_, congrArg (Option.map _) (sessionsFor_eq hsessions)⟩

theorem exists_activateRow {programIdx : BitVec 8} {d : ParsedDescriptors}
    (caPmtCmdId : CaPmtCommand) (transactionId tunerId : BitVec 8) (pidInfos : ℕ)
    (hrows : s.numRows ≤ s.rowList.length) (hrow : s.rowList[programIdx.toNat]? = some row)
    (hstreams : d.pESInfo = none → d.numStreams = 0)
    (hsessions : (s.sessionsAt programIdx).length ≤ 10) :
    ∃ t, s.activateRow programIdx d caPmtCmdId transactionId tunerId pidInfos = some t := by
  obtain ⟨t, ht⟩ := exists_commitRow caPmtCmdId transactionId tunerId 255
    (caCommandToState caPmtCmdId) pidInfos hrows hrow hstreams
  obtain ⟨inUse', row', streams', -, hrow', -, hcommitted⟩ := commitRow_cases ht fun hnone => by
    rw [rows_of_getElem? hrow] at hnone
    cases hnone
  unfold activateRow
  rw [ht]
  show ∃ t', (if caPmtCmdId = .okDescramble then _ else some t) = some t'
  split_ifs
  · -- the row that was committed has its streams, and its sessions are those of before
    have hself : t.rowList[programIdx.toNat]? = some (committedRow row' caPmtCmdId d transactionId
        tunerId 255 (caCommandToState caPmtCmdId) streams') := by
      rw [hcommitted]
      exact (congrArg (·[programIdx.toNat]?) (rowList_setRow (s := s))).trans
        (List.getElem?_set_self (List.getElem?_eq_some_iff.mp hrow').1)
    have hauthorize : ∃ row'', t.authorizeAll programIdx.toNat =
        some (t.setRow programIdx.toNat row'') := by
      unfold authorizeAll
      rw [hself]
      exact ⟨_, rfl⟩
    obtain ⟨row'', hauthorize⟩ := hauthorize
    have hsame : (t.setRow programIdx.toNat row'').sessionsAt programIdx =
        s.sessionsAt programIdx := by
      rw [hcommitted]
      rfl
    obtain ⟨u, hu⟩ := exists_sendEventImpl .fullyAuthorized (hsame ▸ hsessions)
    exact ⟨u, Option.bind_eq_some_iff.mpr ⟨_, hauthorize, hu⟩⟩
  · exact ⟨t, rfl⟩

/-- One more request gets the index. -/
theorem length_sessionsAt_setRequest {f : RequestTableRow → RequestTableRow}
    {programIdx : BitVec 8} (hnumbered : s.Numbered) (hr : r ∈ s.requests) :
    ((s.setRequest r.handle f).sessionsAt programIdx).length ≤
      (s.sessionsAt programIdx).length + 1 := by
  unfold sessionsAt setRequest
  rw [List.filter_map, List.length_map]
  have hnodup : s.requests.Nodup := List.Nodup.of_map _ hnumbered.nodup
  refine (List.subperm_of_subset (hnodup.filter _)
    fun q hq => (?_ : q ∈ r :: s.sessionsAt programIdx)).length_le
  obtain ⟨hmem, hq⟩ := List.mem_filter.mp hq
  rw [Function.comp_apply, decide_eq_true_iff] at hq
  split_ifs at hq with heq
  · rw [hnumbered.unique hmem hr heq]
    exact List.mem_cons_self
  · exact List.mem_cons_of_mem r (List.mem_filter.mpr ⟨hmem, decide_eq_true hq⟩)

theorem exists_activateRequest {sent : CaPmtResult} {pidInfos : ℕ} {d : ParsedDescriptors}
    (hnumbered : s.Numbered) (hrows : s.numRows ≤ s.rowList.length) (hi : i < s.numRows)
    (hbyte : i < 255) (hr : r ∈ s.requests) (hd : r.pServiceHandle = some d)
    (hstreams : d.pESInfo = none → d.numStreams = 0)
    (hsessions : (s.sessionsAt (BitVec.ofNat 8 i)).length < 10) :
    ∃ result, s.activateRequest (BitVec.ofNat 8 i) r sent pidInfos = some result := by
  have hidx : (BitVec.ofNat 8 i).toNat = i := toNat_ofNat_byte hbyte
  have hrow : s.rowList[(BitVec.ofNat 8 i).toNat]? = some s.rowList[i] := by
    rw [hidx]
    exact List.getElem?_eq_getElem (by omega)
  obtain ⟨transactionId, htransaction⟩ := nextTransactionId_isSome
    (s := s.setRequest r.handle fun r => { r with
      programIdx := BitVec.ofNat 8 i
      state := .active
      ltsId := 255 }) hrow
  obtain ⟨t, ht⟩ := exists_activateRow (nextCommand r) transactionId r.tunerId pidInfos
    (s := s.setRequest r.handle fun r => { r with
      programIdx := BitVec.ofNat 8 i
      state := .active
      ltsId := 255 }) hrows hrow hstreams
    ((length_sessionsAt_setRequest hnumbered hr).trans hsessions)
  unfold activateRequest
  refine Option.isSome_iff_exists.mp ?_
  dsimp only [bind]
  rw [hd, Option.bind_some]
  by_cases hdesc : d.caDescFound ≠ 1
  · rw [if_pos hdesc]
    rfl
  · rw [if_neg hdesc, htransaction, Option.bind_some]
    by_cases hsent : sent = .success
    · rw [if_pos hsent]
      show ((activateRow _ _ d (nextCommand r) _ _ _).bind _).isSome = true
      rw [ht]
      rfl
    · rw [if_neg hsent]
      rfl

/-- **The loop ends**, whether the CA_PMTs are sent or not. -/
theorem Activatable.exists_activateRows : ∀ {count i : ℕ} {s : DecryptSessions}, s.Shaped →
    s.Numbered → s.Activatable i → s.numRows ≤ s.rowList.length → i + count ≤ s.numRows →
      s.numRows ≤ 255 → ∃ found v, activateRows o count i s = some (found, v) := by
  intro count
  induction count with
  | zero => exact fun _ _ _ _ _ _ => ⟨_, _, rfl⟩
  | succ count ih =>
    intro i s hshaped hnumbered h hrows hcount hlimit
    obtain ⟨⟨request, t⟩, hfind⟩ := h.exists_findNextSuspendedRequest hrows
    unfold activateRows
    rw [hfind]
    cases request with
    | none => exact ⟨_, _, rfl⟩
    | some r =>
      obtain ⟨hwaits, -⟩ := greatest_of_findNextSuspendedRequest hfind
      obtain ⟨d, hd, hstreams⟩ := h.described r hwaits
      have hlt : i < s.numRows := by omega
      have hactivate : ∃ result, t.activateRequest (BitVec.ofNat 8 i) r (o i).sent
          (o i).pidInfos = some result := by
        obtain ⟨⟨used, rfl⟩, -⟩ := findNextSuspendedRequest_cases hfind
        have hquery : s.Onward { s with transportStreamsUsed := used } :=
          Onward.of_requests rfl rfl
        exact exists_activateRequest (hquery.numbered hnumbered) hrows hlt (by omega)
          hwaits.mem hd hstreams (h.sessions i (Nat.le_refl i) hlt)
      obtain ⟨⟨success, u⟩, hactivate⟩ := hactivate
      show ∃ found v, ((t.activateRequest (BitVec.ofNat 8 i) r (o i).sent
        (o i).pidInfos).bind _) = some (found, v)
      rw [hactivate, Option.bind_some]
      cases success with
      | false => exact ⟨_, _, rfl⟩
      | true =>
        obtain ⟨hdone, hshaped', hnumbered'⟩ := round_activated (.activating (i + 1)) hshaped
          hnumbered (by omega) hfind hactivate
        have hnum := hdone.numRows
        obtain ⟨found, v, hrest⟩ := ih hshaped' hnumbered' (h.next hlimit hdone)
          (hdone.enough hrows) (by omega) (by omega)
        refine ⟨r :: found, v, ?_⟩
        exact Option.bind_eq_some_iff.mpr ⟨(found, v), hrest, rfl⟩

/-! ## The sessions after that -/

/-- The session is on the row, which is in use and names it. -/
def OnRow (s : DecryptSessions) (handle i : ℕ) : Prop :=
  ∃ q ∈ s.requests, q.handle = handle ∧ q.state = .active ∧ q.programIdx.toNat = i ∧ s.HasRow q

/-- The session is active on exactly one row, or waits. -/
def Resumed (s : DecryptSessions) (handle : ℕ) : Prop :=
  (∃! i, s.OnRow handle i) ∨ ∃ q, s.Waits q ∧ q.handle = handle

/-- **The sessions are activated again.** None is dropped, and none is activated twice; they are
activated in the order of their priorities, and none that is left has a higher one. Each still
waits, or is active on exactly one row if its CA_PMT is sent, and a row in use has one of them. -/
structure Resumes (s : DecryptSessions) (o : ℕ → RoundOutcome) (found : List RequestTableRow)
    (t : DecryptSessions) : Prop where
  handles : t.handles = s.handles
  once : found.Nodup
  order : found.Pairwise fun r r' => r'.priority ≤ r.priority
  first : ∀ r ∈ found, ∀ q, t.Waits q → q.priority ≤ r.priority
  sessions : ∀ r, s.Waits r → r ∉ found ∧ t.Waits r ∨
    ∃ i, found[i]? = some r ∧ ((o i).Sends r → ∃! j, t.OnRow r.handle j)
  rows : ∀ i, i < s.numRows → t.busy i = true → ∃ r, found[i]? = some r ∧ t.OnRow r.handle i
  ended : runFrom step { s with worker := .activating 0 } (activateRounds o 0 (s.numRows + 1)) =
    some t ∧ t.worker = .idle

/-- A session is on no other row than the one its request has. -/
theorem OnRow.unique (hnodup : s.handles.Nodup) {handle : ℕ} (h : s.OnRow handle i)
    (h' : s.OnRow handle j) : i = j := by
  obtain ⟨q, hq, hhandle, -, hidx, -⟩ := h
  obtain ⟨q', hq', hhandle', -, hidx', -⟩ := h'
  have hsame : q = q' := List.inj_on_of_nodup_map hnodup hq hq' (hhandle.trans hhandle'.symm)
  rw [← hidx, ← hidx', hsame]

theorem activateSuspendedCASessions_resumes (hshaped : s.Shaped) (hnumbered : s.Numbered)
    (hlimit : s.numRows ≤ 255) (hfree : ∀ i, i < s.numRows → s.busy i = false)
    (h : s.activateSuspendedCASessions o = some (found, t)) : s.Resumes o found t := by
  have hworker : s.Onward { s with worker := .activating 0 } := Onward.of_requests rfl rfl
  have hlast : 0 + s.numRows ≤ 255 := by omega
  obtain ⟨hrounds, -⟩ := activatedFrom_of_activateRows (s := { s with worker := .activating 0 })
    (hshaped.of_tables rfl rfl) (hworker.numbered hnumbered) hlast h
  have hnodup : t.handles.Nodup := by
    rw [hrounds.handles]
    exact hnumbered.nodup
  -- the session that was found in a round is on the row of the round
  have honRow : ∀ i r, found[i]? = some r → (o i).Sends r → t.OnRow r.handle i := by
    intro i r hi hsends
    obtain ⟨q, hq, hhandle, hactive, hidx, hrow⟩ := hrounds.active i r hi
    rw [Nat.zero_add] at hidx hrow
    exact ⟨q, hq, hhandle, hactive, hidx, hrow hsends⟩
  refine ⟨hrounds.handles, hrounds.picks.nodup, hrounds.picks.pairwise.imp BitVec.le_def.mpr,
    fun r hr q hq => BitVec.le_def.mpr (hrounds.picks.le_of_mem_rest hr hq), fun r hr => ?_,
    fun i hi hbusy => ?_, runFrom_activateRounds rfl (Nat.zero_add _) h⟩
  · by_cases hin : r ∈ found
    · obtain ⟨i, hi⟩ := List.mem_iff_getElem?.mp hin
      refine .inr ⟨i, hi, fun hsends => ⟨i, honRow i r hi hsends, fun j hj => ?_⟩⟩
      exact hj.unique hnodup (honRow i r hi hsends)
    · exact .inl ⟨hin, hrounds.picks.mem_rest_iff.mpr ⟨⟨hr.mem, hr.waiting⟩, hin⟩⟩
  · -- a row that was not written is still free
    have hwritten : t.rowList[i]? ≠ s.rowList[i]? := fun hsame => by
      have hstill := hfree i hi
      unfold busy at hbusy hstill
      rw [hsame, hstill] at hbusy
      cases hbusy
    rcases Nat.lt_or_ge i found.length with hlt | hge
    · refine ⟨found[i], List.getElem?_eq_getElem hlt, honRow i _ (List.getElem?_eq_getElem hlt) ?_⟩
      by_contra hfails
      have hrow := hrounds.row i _ (List.getElem?_eq_getElem hlt)
      rw [Nat.zero_add] at hrow
      exact hwritten (hrow hfails)
    · exact absurd (hrounds.rows i (.inr (by omega))) hwritten

/-- **What becomes of the sessions.** They are dropped when the card is removed. Where they are
suspended and activated again, they are resumed. -/
structure Accounted (s : DecryptSessions) : Prop where
  defined : s.Suspendable →
    (∃ s', s.cardRemoved = some s') ∧ ∃ t, s.suspendActiveCASessions = some t
  dropped : ∀ s', s.cardRemoved = some s' → s.DroppedWith s'
  suspended : ∀ t, s.suspendActiveCASessions = some t → s.Suspends t
  ends : ∀ t, s.suspendActiveCASessions = some t → t.Activatable 0 →
    ∀ o, ∃ found v, t.activateSuspendedCASessions o = some (found, v)
  resumed : ∀ t, s.suspendActiveCASessions = some t → ∀ o found v,
    t.activateSuspendedCASessions o = some (found, v) → t.Resumes o found v

/-- **The sessions are suspended and resumed**, in every state that is reached with a card for at
most 255 programs, whatever the activation meets with. -/
theorem sessions_resume {caEnable queryDisabled : Bool} {acts : List DecryptAction}
    (hrun : runFrom step (booted caEnable queryDisabled) acts = some s) (hlimit : s.numRows ≤ 255) :
    s.Accounted := by
  have hnumbered := Numbered.run hrun
  have hshaped := Shaped.booted.run hrun
  have hsuspended : ∀ t, s.suspendActiveCASessions = some t → t.Shaped ∧ t.Numbered ∧
      t.numRows ≤ 255 ∧ t.numRows ≤ t.rowList.length ∧
        ∀ i, i < t.numRows → t.busy i = false := fun t ht => by
    have hupTo := SuspendedUpTo.of_suspendActiveCASessions hlimit ht
    rw [hupTo.numRows, hupTo.length]
    exact ⟨hshaped.suspendRows ht, (Onward.suspendActiveCASessions ht).numbered hnumbered, hlimit,
      hupTo.rows, hupTo.free⟩
  refine ⟨fun h => ⟨exists_cardRemoved h hlimit, h.exists hlimit⟩,
    fun s' h => cardRemoved_droppedWith hnumbered hlimit h, fun t ht => ?_, fun t ht h o => ?_,
    fun t ht o found v h => ?_⟩
  · exact (SuspendedUpTo.of_suspendActiveCASessions hlimit ht).suspends hlimit hnumbered
  · obtain ⟨hshaped', hnumbered', hlimit', hrows, -⟩ := hsuspended t ht
    have hworker : t.Onward { t with worker := .activating 0 } := Onward.of_requests rfl rfl
    have hready : Activatable { t with worker := .activating 0 } 0 :=
      ⟨fun r hr => h.described r ⟨hr.mem, hr.waiting⟩, h.sessions⟩
    exact hready.exists_activateRows (hshaped'.of_tables rfl rfl) (hworker.numbered hnumbered')
      hrows (Nat.zero_add t.numRows).le hlimit'
  · obtain ⟨hshaped', hnumbered', hlimit', -, hfree⟩ := hsuspended t ht
    exact activateSuspendedCASessions_resumes hshaped' hnumbered' hlimit' hfree h

theorem sessions_resume_cardInserted : ∃ s, runFrom step (booted true false)
      (cardInserted ++ [.start (twoStreams 5) {}, .start (twoStreams 6) {}]) = some s ∧
    s.numRows ≤ 255 ∧ s.Accounted := by
  obtain ⟨s, hrun, hnum⟩ : ∃ s, runFrom step (booted true false)
      (cardInserted ++ [.start (twoStreams 5) {}, .start (twoStreams 6) {}]) = some s ∧
    s.numRows = 4 := ⟨_, rfl, rfl⟩
  have hlimit : s.numRows ≤ 255 := by omega
  exact ⟨s, hrun, hlimit, sessions_resume hrun hlimit⟩

/-- A session that runs when the card is removed is gone when a card is ready again. -/
theorem not_resumed_with_card : ¬ ∀ (caEnable queryDisabled : Bool) (acts : List DecryptAction)
    (s v : DecryptSessions), runFrom step (booted caEnable queryDisabled) acts = some s →
      runFrom step s (.cardRemoved :: cardInserted) = some v →
        ∀ r, s.Runs r → v.Resumed r.handle := by
  intro h
  have hresumed := h true false (cardInserted ++ [.start (twoStreams 5) {}]) _ _ rfl rfl _
    ⟨List.mem_singleton_self _, rfl, by decide, rfl⟩
  obtain ⟨i, ⟨q, hq, -⟩, -⟩ | ⟨q, hq, -⟩ := hresumed
  · exact absurd hq List.not_mem_nil
  · exact absurd hq.mem List.not_mem_nil

end DecryptSessions

end MediaFramework
