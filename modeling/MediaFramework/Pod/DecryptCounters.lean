import Mathlib.Data.List.Dedup
import MediaFramework.Pod.DecryptShape

/-!
# The counts of the decrypt session manager

The programs, elementary streams and transport streams that are used are counted where a row is
committed and where it is released, and the limits of the card are held against the counts. They
should be what the rows say: how many are in use, how many streams these have, and how many
tuners they are on.

The count of the transport streams is not. `tunerInUse` looks at a field of the rows that nothing
writes, so every program counts as one on a tuner of its own, or as none if its tuner is zero; and
the query whether there are resources adds one as well, unless the count is zero. So the counts
are right as long as there is one program at a time.
-/

namespace MediaFramework

namespace DecryptSessions

/-! ## What the counts should be -/

/-- The rows that are in use. -/
def usedRows (s : DecryptSessions) : List ProgramIndexTableRow :=
  s.rowList.filter ProgramIndexTableRow.inUse

/-- **The counts are right**, and within the limits of the card. -/
structure Counted (s : DecryptSessions) : Prop where
  programs : s.programsUsed = s.usedRows.length
  streams : s.elementaryStreamsUsed = tally ProgramIndexTableRow.pidCount s.usedRows
  tuners : s.transportStreamsUsed = (s.usedRows.map ProgramIndexTableRow.tuner).dedup.length
  programsLimit : s.programsUsed ≤ s.maxPrograms
  streamsLimit : s.elementaryStreamsUsed ≤ s.maxElemStreams
  tunersLimit : s.transportStreamsUsed ≤ s.maxTransportStreams

/-- The three counts are the same. -/
structure SameCounts (s s' : DecryptSessions) : Prop where
  programs : s'.programsUsed = s.programsUsed
  streams : s'.elementaryStreamsUsed = s.elementaryStreamsUsed
  tuners : s'.transportStreamsUsed = s.transportStreamsUsed

/-- A round of the loop is made that activates the suspended sessions. -/
def inRound (s : DecryptSessions) : Bool :=
  match s.worker with
  | .activating i => i < s.numRows
  | .idle | .connected => false

/-- **A query changes no count.** A start asks for resources, and so does a round of the loop that
activates the suspended sessions. -/
def AsksOnly (s : DecryptSessions) (a : DecryptAction) : Prop :=
  s.waits a = false → match a with
  | .start p _ => s.caEnable = true → ∀ available t,
      s.checkAvailableResources (p.tunerId.setWidth 8) p.pDescriptor.numStreams =
        some (available, t) → s.SameCounts t
  | .activate .. => s.inRound = true → ∀ request t,
      s.findNextSuspendedRequest = some (request, t) → s.SameCounts t
  | _ => True

/-- A query for the tuner adds no transport stream: there is none yet, or the tuner is found. -/
def HarmlessQuery (s : DecryptSessions) (tunerId : BitVec 8) : Prop :=
  s.transportStreamsUsed = 0 ∨ s.tunerInUse tunerId = some true

instance (s : DecryptSessions) (tunerId : BitVec 8) : Decidable (s.HarmlessQuery tunerId) :=
  inferInstanceAs (Decidable (_ ∨ _))

/-- A row can be committed: the tuner is not zero, there is memory for all streams, and the card
has a transport stream. -/
def SoundCommit (s : DecryptSessions) (tunerId : BitVec 8) (numStreams pidInfos : ℕ) : Prop :=
  tunerId ≠ 0 ∧ numStreams ≤ pidInfos ∧ 1 ≤ s.maxTransportStreams

instance (s : DecryptSessions) (tunerId : BitVec 8) (numStreams pidInfos : ℕ) :
    Decidable (s.SoundCommit tunerId numStreams pidInfos) :=
  inferInstanceAs (Decidable (_ ∧ _ ∧ _))

/-- The query of a start is harmless, and a row is committed only if it can be. -/
def SoundStart (s : DecryptSessions) (p : DecryptRequestParams) (o : StartOutcome) : Prop :=
  s.caEnable = true → s.HarmlessQuery (p.tunerId.setWidth 8) ∧
    (s.ready = true → o.sent = .success → s.available p.pDescriptor.numStreams = true →
      s.SoundCommit (p.tunerId.setWidth 8) p.pDescriptor.numStreams o.pidInfos)

instance (s : DecryptSessions) (p : DecryptRequestParams) (o : StartOutcome) :
    Decidable (s.SoundStart p o) := inferInstanceAs (Decidable (_ → _ ∧ (_ → _ → _ → _)))

/-- The row that a stop releases is in use, or no row is. -/
def SoundStop (s : DecryptSessions) (handle : ℕ) (sent : CaPmtResult) : Prop :=
  sent = .success → ∀ r ∈ s.requests.find? fun r => r.handle = handle,
    s.validProgramIndex r.programIdx.toNat = true →
      ∀ row ∈ s.rowList[r.programIdx.toNat]?, row.inUse = true ∨ s.programsUsed = 0

instance (s : DecryptSessions) (handle : ℕ) (sent : CaPmtResult) :
    Decidable (s.SoundStop handle sent) :=
  inferInstanceAs (Decidable (_ → ∀ r ∈ _, _ → ∀ row ∈ _, _ ∨ _))

/-- The limits that the card reports are not below what is used. -/
def SoundLimits (s : DecryptSessions) (e : CaSystemReady) : Prop :=
  s.programsUsed ≤ (s.reportLimits e).maxPrograms ∧
    s.elementaryStreamsUsed ≤ (s.reportLimits e).maxElemStreams ∧
    s.transportStreamsUsed ≤ (s.reportLimits e).maxTransportStreams

instance (s : DecryptSessions) (e : CaSystemReady) : Decidable (s.SoundLimits e) :=
  inferInstanceAs (Decidable (_ ∧ _ ∧ _))

/-- There are resources for a request whose CA_PMT is sent, and a row can be committed for it. -/
def SoundRequest (s : DecryptSessions) (sent : CaPmtResult) (pidInfos : ℕ)
    (r : RequestTableRow) : Prop :=
  ∀ d ∈ r.pServiceHandle, d.caDescFound = 1 → sent = .success →
    s.available d.numStreams = true ∧ s.SoundCommit r.tunerId d.numStreams pidInfos

instance (s : DecryptSessions) (sent : CaPmtResult) (pidInfos : ℕ) (r : RequestTableRow) :
    Decidable (s.SoundRequest sent pidInfos r) :=
  inferInstanceAs (Decidable (∀ d ∈ r.pServiceHandle, d.caDescFound = 1 → sent = .success →
    s.available d.numStreams = true ∧ s.SoundCommit r.tunerId d.numStreams pidInfos))

/-- The queries of a round of the loop are harmless, and so is the request that is found. -/
def SoundRound (s : DecryptSessions) (sent : CaPmtResult) (pidInfos : ℕ) : Prop :=
  s.inRound = true → (∀ r ∈ askedAbout 0 s.requests, s.HarmlessQuery r.tunerId) ∧
    ∀ found ∈ s.findNextSuspendedRequest, ∀ r ∈ found.1, s.SoundRequest sent pidInfos r

instance (s : DecryptSessions) (sent : CaPmtResult) (pidInfos : ℕ) :
    Decidable (s.SoundRound sent pidInfos) :=
  inferInstanceAs (Decidable (s.inRound = true →
    (∀ r ∈ askedAbout 0 s.requests, s.HarmlessQuery r.tunerId) ∧
      ∀ found ∈ s.findNextSuspendedRequest, ∀ r ∈ found.1, s.SoundRequest sent pidInfos r))

/-- **The condition on a step**, which does not have to wait. -/
def OrderlyCount (s : DecryptSessions) (a : DecryptAction) : Prop :=
  s.waits a = false → match a with
  | .start p o => s.SoundStart p o
  | .stop handle sent => s.SoundStop handle sent
  | .caSystemReady e => s.SoundLimits e
  | .activate sent pidInfos => s.SoundRound sent pidInfos
  | .apdu .. | .cardReady | .cardRemoved | .resetPending => True

instance (s : DecryptSessions) : ∀ a, Decidable (s.OrderlyCount a)
  | .start p o => inferInstanceAs (Decidable (_ → s.SoundStart p o))
  | .stop handle sent => inferInstanceAs (Decidable (_ → s.SoundStop handle sent))
  | .caSystemReady e => inferInstanceAs (Decidable (_ → s.SoundLimits e))
  | .activate sent pidInfos => inferInstanceAs (Decidable (_ → s.SoundRound sent pidInfos))
  | .apdu .. | .cardReady | .cardRemoved | .resetPending => isTrue fun _ => trivial

/-! ## The invariant -/

variable {s s' : DecryptSessions} {i : ℕ} {row row' : ProgramIndexTableRow}

/-- One for a row that is in use. -/
def rowsUsed (r : ProgramIndexTableRow) : ℕ := if r.inUse then 1 else 0

/-- The streams of a row that is in use. -/
def streamsUsed (r : ProgramIndexTableRow) : ℕ := if r.inUse then r.pidCount else 0

theorem rowsUsed_of_inUse (h : row.inUse = true) : rowsUsed row = 1 := if_pos h

theorem streamsUsed_of_inUse (h : row.inUse = true) : streamsUsed row = row.pidCount := if_pos h

theorem rowsUsed_of_free (h : row.inUse = false) : rowsUsed row = 0 := by
  unfold rowsUsed
  rw [h]
  rfl

theorem streamsUsed_of_free (h : row.inUse = false) : streamsUsed row = 0 := by
  unfold streamsUsed
  rw [h]
  rfl

/-- **The counts of one program.** No more than one row is in use, and all three counts are right
and within the limits. -/
structure Counts (s : DecryptSessions) : Prop where
  programs : s.programsUsed = tally rowsUsed s.rowList
  streams : s.elementaryStreamsUsed = tally streamsUsed s.rowList
  tuners : s.transportStreamsUsed = s.programsUsed
  single : s.programsUsed ≤ 1
  programsLimit : s.programsUsed ≤ s.maxPrograms
  streamsLimit : s.elementaryStreamsUsed ≤ s.maxElemStreams
  tunersLimit : s.transportStreamsUsed ≤ s.maxTransportStreams

namespace Counts

/-- With one row in use at most, there are as many tuners as rows in use. -/
theorem counted (h : s.Counts) : s.Counted where
  programs := by
    rw [h.programs, length_eq_tally]
    exact tally_filter.symm
  streams := by
    rw [h.streams]
    exact tally_filter.symm
  tuners := by
    have hlen : s.usedRows.length = s.programsUsed := by
      rw [h.programs, length_eq_tally]
      exact tally_filter
    have hsingle := h.single
    rw [h.tuners, ← hlen]
    rw [← hlen] at hsingle
    cases hrows : s.usedRows with
    | nil => rfl
    | cons row rows =>
      rw [hrows] at hsingle
      have hnil : rows = [] := List.eq_nil_of_length_eq_zero (by
        rw [List.length_cons] at hsingle
        omega)
      rw [hnil]
      rfl
  programsLimit := h.programsLimit
  streamsLimit := h.streamsLimit
  tunersLimit := h.tunersLimit

theorem booted {caEnable queryDisabled : Bool} : (booted caEnable queryDisabled).Counts :=
  ⟨rfl, rfl, rfl, Nat.zero_le 1, Nat.le_refl 0, Nat.le_refl 0, Nat.le_refl 0⟩

/-- While no transport stream is used, no row is in use. -/
theorem not_inUse (h : s.Counts) (hzero : s.programsUsed = 0) (hrow : s.rowList[i]? = some row) :
    row.inUse = false := by
  have hle : rowsUsed row ≤ tally rowsUsed s.rowList := le_tally hrow
  rw [← h.programs, hzero] at hle
  unfold rowsUsed at hle
  split_ifs at hle with huse
  · exact absurd hle (by decide)
  · exact Bool.eq_false_of_not_eq_true huse

/-- A state with the same rows, counts and limits. -/
theorem of_rows (h : s.Counts) (hrows : s'.rowList = s.rowList) (hcounts : s.SameCounts s')
    (hprograms : s'.maxPrograms = s.maxPrograms) (hstreams : s'.maxElemStreams = s.maxElemStreams)
    (htuners : s'.maxTransportStreams = s.maxTransportStreams) : s'.Counts := by
  obtain ⟨h₁, h₂, h₃⟩ := hcounts
  refine ⟨?_, ?_, ?_, ?_, ?_, ?_, ?_⟩
  · rw [h₁, hrows]
    exact h.programs
  · rw [h₂, hrows]
    exact h.streams
  · rw [h₁, h₃]
    exact h.tuners
  · rw [h₁]
    exact h.single
  · rw [h₁, hprograms]
    exact h.programsLimit
  · rw [h₂, hstreams]
    exact h.streamsLimit
  · rw [h₃, htuners]
    exact h.tunersLimit

/-- A row is replaced by one that counts for as much. -/
theorem setRow (h : s.Counts) (hrow : s.rowList[i]? = some row) (huse : row'.inUse = row.inUse)
    (hpids : row'.pidCount = row.pidCount) : (s.setRow i row').Counts := by
  have hone : rowsUsed row' = rowsUsed row := by
    unfold rowsUsed
    rw [huse]
  have hstreams : streamsUsed row' = streamsUsed row := by
    unfold streamsUsed
    rw [huse, hpids]
  refine ⟨?_, ?_, h.tuners, h.single, h.programsLimit, h.streamsLimit, h.tunersLimit⟩
  · have hset : tally rowsUsed (s.rowList.set i row') + rowsUsed row =
        tally rowsUsed s.rowList + rowsUsed row' := tally_set hrow
    rw [rowList_setRow]
    exact h.programs.trans (by omega)
  · have hset : tally streamsUsed (s.rowList.set i row') + streamsUsed row =
        tally streamsUsed s.rowList + streamsUsed row' := tally_set hrow
    rw [rowList_setRow]
    exact h.streams.trans (by omega)

end Counts

/-! ## Queries and rows -/

/-- Only the tuner zero is ever found. -/
theorem tunerInUse_of_ne_zero {tunerId : BitVec 8} {inUse : Bool} (hne : tunerId ≠ 0)
    (h : s.tunerInUse tunerId = some inUse) : inUse = false := by
  obtain ⟨found, hfound, rfl⟩ := Option.map_eq_some_iff.mp h
  cases found with
  | none => rfl
  | some j =>
    obtain ⟨-, r, -, hr⟩ := of_scan_eq_some hfound
    obtain ⟨hzero, heq⟩ := Bool.and_eq_true_iff.mp hr
    exact absurd ((eq_of_beq heq).symm.trans (eq_of_beq hzero)) hne

/-- **A harmless query changes nothing.** -/
theorem HarmlessQuery.eq {tunerId : BitVec 8} {n : ℕ} {available : Bool}
    (h : s.HarmlessQuery tunerId)
    (hquery : s.checkAvailableResources tunerId n = some (available, s')) : s' = s := by
  unfold checkAvailableResources at hquery
  split at hquery
  · cases hquery
    rfl
  · split_ifs at hquery with hzero
    · cases hquery
      rfl
    · rcases h with h | h
      · exact absurd h hzero
      · rw [h] at hquery
        cases hquery
        rfl

theorem foldlM_askFor_eq {found : Bool} : ∀ {asked : List RequestTableRow} {before : Bool},
    (∀ r ∈ asked, s.HarmlessQuery r.tunerId) →
      asked.foldlM askFor (before, s) = some (found, s') → s' = s := by
  intro asked
  induction asked with
  | nil =>
    intro before _ h
    cases h
    rfl
  | cons r asked ih =>
    intro before hharmless h
    obtain ⟨⟨before', t⟩, hask, h⟩ := Option.bind_eq_some_iff.mp h
    obtain ⟨d, -, hask⟩ := Option.bind_eq_some_iff.mp hask
    obtain ⟨⟨available, u⟩, hquery, hask⟩ := Option.bind_eq_some_iff.mp hask
    cases hask
    obtain rfl := (hharmless r List.mem_cons_self).eq hquery
    exact ih (fun r hr => hharmless r (List.mem_cons_of_mem _ hr)) h

/-- The queries of a round change nothing. -/
theorem findNextSuspendedRequest_eq {request : Option RequestTableRow}
    (hharmless : ∀ r ∈ askedAbout 0 s.requests, s.HarmlessQuery r.tunerId)
    (h : s.findNextSuspendedRequest = some (request, s')) : s' = s := by
  obtain ⟨⟨found, t⟩, hfold, h⟩ := Option.bind_eq_some_iff.mp h
  cases h
  exact foldlM_askFor_eq hharmless hfold

/-- All streams are copied, if there is memory. -/
theorem length_copyStreams {d : ParsedDescriptors} {pidInfos : ℕ}
    {streams : List StreamDecryptInfo} (hmemory : d.numStreams ≤ pidInfos)
    (h : d.copyStreams pidInfos = some streams) : streams.length = d.numStreams := by
  unfold ParsedDescriptors.copyStreams at h
  rw [Nat.min_eq_left hmemory] at h
  split at h
  case h_1 all hall =>
    cases h
    have hall : all.length = d.noES := d.length_pESInfo all hall
    have hle : d.numStreams ≤ d.noES := Nat.mod_le ..
    rw [List.length_take, hall]
    exact Nat.min_eq_left hle
  case h_2 =>
    split_ifs at h with hzero
    cases h
    exact hzero.symm

namespace Counts

/-- **A row is committed**, the first. -/
theorem commitRow {caPmtCmdId : CaPmtCommand} {d : ParsedDescriptors}
    {transactionId tunerId ltsId : BitVec 8} {state : DecryptState} {pidInfos : ℕ}
    (h : s.Counts) (hrows : s.rows ≠ none) (hharmless : s.HarmlessQuery tunerId)
    (hsound : s.SoundCommit tunerId d.numStreams pidInfos)
    (havailable : s.available d.numStreams = true) (hstate : state ≠ .notSelected)
    (hcommit : s.commitRow i caPmtCmdId d transactionId tunerId ltsId state pidInfos = some s') :
    s'.Counts := by
  obtain ⟨htuner, hmemory, hlimit⟩ := hsound
  obtain ⟨inUse, row, streams, hinUse, hrow, hstreams, rfl⟩ := commitRow_cases hcommit hrows
  obtain rfl := tunerInUse_of_ne_zero htuner hinUse
  -- as the tuner is not found, there is no transport stream in use, and so no row
  have hzero : s.transportStreamsUsed = 0 := by
    rcases hharmless with hzero | hfound
    · exact hzero
    · exact absurd (tunerInUse_of_ne_zero htuner hfound) (by decide)
  have hprograms : s.programsUsed = 0 := h.tuners.symm.trans hzero
  have hfree := h.not_inUse hprograms hrow
  have hnew : (committedRow row caPmtCmdId d transactionId tunerId ltsId state streams).inUse =
      true := ProgramIndexTableRow.inUse_eq_true.mpr hstate
  have hprogramsSet : tally rowsUsed (s.rowList.set i (committedRow row caPmtCmdId d transactionId
      tunerId ltsId state streams)) + rowsUsed row = tally rowsUsed s.rowList + rowsUsed _ :=
    tally_set hrow
  have hstreamsSet : tally streamsUsed (s.rowList.set i (committedRow row caPmtCmdId d
      transactionId tunerId ltsId state streams)) + streamsUsed row =
        tally streamsUsed s.rowList + streamsUsed _ := tally_set hrow
  have hcount : (committedRow row caPmtCmdId d transactionId tunerId ltsId state
      streams).pidCount = d.numStreams := length_copyStreams hmemory hstreams
  rw [rowsUsed_of_free hfree, rowsUsed_of_inUse hnew, ← h.programs] at hprogramsSet
  rw [streamsUsed_of_free hfree, streamsUsed_of_inUse hnew, hcount, ← h.streams] at hstreamsSet
  obtain ⟨hmaxPrograms, hmaxStreams⟩ := Bool.and_eq_true_iff.mp havailable
  refine ⟨?_, ?_, ?_, ?_, ?_, ?_, ?_⟩
  · exact hprogramsSet.symm.trans (congrArg (tally rowsUsed) rowList_setRow.symm)
  · exact hstreamsSet.symm.trans (congrArg (tally streamsUsed) rowList_setRow.symm)
  · exact congrArg (· + 1) h.tuners
  · exact Nat.succ_le_of_lt (by omega)
  · exact of_decide_eq_true hmaxPrograms
  · exact of_decide_eq_true hmaxStreams
  · exact Nat.le_trans (Nat.le_of_eq (congrArg (· + 1) hzero)) hlimit

/-- **A row is released**, the one in use, or none is. -/
theorem releaseRow (h : s.Counts) (hrows : s.rows ≠ none)
    (huse : ∀ row ∈ s.rowList[i]?, row.inUse = true ∨ s.programsUsed = 0)
    (hrelease : s.releaseRow i = some s') : s'.Counts := by
  obtain ⟨row, hrow, rfl⟩ := releaseRow_cases hrelease hrows
  have hclear : ProgramIndexTableRow.inUse { transactionId := row.transactionId } = false := rfl
  have hprogramsSet : tally rowsUsed (s.rowList.set i { transactionId := row.transactionId }) +
      rowsUsed row = tally rowsUsed s.rowList + rowsUsed _ := tally_set hrow
  have hstreamsSet : tally streamsUsed (s.rowList.set i { transactionId := row.transactionId }) +
      streamsUsed row = tally streamsUsed s.rowList + streamsUsed _ := tally_set hrow
  rw [rowsUsed_of_free hclear, ← h.programs] at hprogramsSet
  rw [streamsUsed_of_free hclear, ← h.streams] at hstreamsSet
  have hprograms : s.programsUsed - 1 =
      tally rowsUsed (s.rowList.set i { transactionId := row.transactionId }) := by
    cases hrowUse : row.inUse with
    | true =>
      rw [rowsUsed_of_inUse hrowUse] at hprogramsSet
      omega
    | false =>
      rw [rowsUsed_of_free hrowUse] at hprogramsSet
      rcases huse row hrow with htrue | hzero
      · rw [hrowUse] at htrue
        cases htrue
      · omega
  have hstreams : s.elementaryStreamsUsed - row.pidCount =
      tally streamsUsed (s.rowList.set i { transactionId := row.transactionId }) := by
    cases hrowUse : row.inUse with
    | true =>
      rw [streamsUsed_of_inUse hrowUse] at hstreamsSet
      omega
    | false =>
      rw [streamsUsed_of_free hrowUse] at hstreamsSet
      rcases huse row hrow with htrue | hzero
      · rw [hrowUse] at htrue
        cases htrue
      · have hnone : s.elementaryStreamsUsed = 0 := by
          rw [h.streams]
          refine tally_eq_zero fun r hr => ?_
          obtain ⟨j, hj⟩ := List.mem_iff_getElem?.mp hr
          exact streamsUsed_of_free (h.not_inUse hzero hj)
        omega
  refine ⟨?_, ?_, ?_, ?_, ?_, ?_, ?_⟩
  · exact hprograms.trans (congrArg (tally rowsUsed) rowList_setRow.symm)
  · exact hstreams.trans (congrArg (tally streamsUsed) rowList_setRow.symm)
  · exact congrArg (· - 1) h.tuners
  · exact Nat.le_trans (Nat.sub_le ..) h.single
  · exact Nat.le_trans (Nat.sub_le ..) h.programsLimit
  · exact Nat.le_trans (Nat.sub_le ..) h.streamsLimit
  · exact Nat.le_trans (Nat.sub_le ..) h.tunersLimit

theorem setTransactionId {transactionId : BitVec 8} (h : s.Counts)
    (hset : s.setTransactionId i transactionId = some s') : s'.Counts := by
  obtain ⟨row, hrow, rfl⟩ := setTransactionId_cases hset
  exact h.setRow hrow rfl rfl

/-- An APDU changes no count. -/
theorem retells {outer : BitVec 8} {streams : List StreamDecryptInfo} (hs : s.Shaped)
    (h : s.Counts) (hretells : s.Retells (Told (tell outer streams)) i s') : s'.Counts := by
  obtain ⟨row, row', f, posted, hrow, htold, -, rfl⟩ := hretells
  obtain ⟨pids, hpids, hpids'⟩ := htold.authorizedPids
  have huse : row.inUse = true := by
    rw [(hs.rows row (List.mem_of_getElem? hrow)).listed, hpids]
    rfl
  have hcount : row'.pidCount = row.pidCount := by
    unfold ProgramIndexTableRow.pidCount
    rw [hpids, hpids']
    exact length_tell
  exact (h.setRow hrow ((htold.inUse huse).trans huse.symm) hcount).of_rows rfl ⟨rfl, rfl, rfl⟩
    rfl rfl rfl

/-! ### The steps -/

theorem podmgrStartDecrypt {p : DecryptRequestParams} {o : StartOutcome} {result : StartResult}
    (h : s.Counts) (horderly : s.SoundStart p o)
    (hstart : s.podmgrStartDecrypt p o = some (result, s')) : s'.Counts := by
  obtain ⟨-, -, rfl⟩ | ⟨hca, available, used, hquery, hcases⟩ := podmgrStartDecrypt_cases hstart
  · exact h
  obtain ⟨hharmless, hcommits⟩ := horderly hca
  have hused : used = s.transportStreamsUsed :=
    congrArg transportStreamsUsed (hharmless.eq hquery)
  subst hused
  obtain ⟨-, rfl⟩ | ⟨-, -, -, rfl⟩ | ⟨havailable, hready, hstart⟩ := hcases
  · exact h
  · exact h.of_rows rfl ⟨rfl, rfl, rfl⟩ rfl rfl rfl
  · obtain ⟨hrows, hresources⟩ := (checkAvailableResources_cases hquery).2 havailable
    obtain ⟨row, -, ⟨hsent, -, transactionId, hcommitted⟩ | ⟨-, -, rfl⟩⟩ := startReady_cases hstart
    · obtain ⟨caPmtCmdId, state, t, posted, -, hstate, hcommit, rfl⟩ := committed_cases hcommitted
      have hadded : (({ s with
          transportStreamsUsed := s.transportStreamsUsed
          allocated := s.allocated + 1 } : DecryptSessions).addRequest
            (s.readyRequest p o (nextIndex row))).Counts :=
        h.of_rows rfl ⟨rfl, rfl, rfl⟩ rfl rfl rfl
      have hcommittedCounts : t.Counts := hadded.commitRow hrows hharmless
        (hcommits hready hsent hresources) hresources hstate hcommit
      exact hcommittedCounts.of_rows rfl ⟨rfl, rfl, rfl⟩ rfl rfl rfl
    · exact h.of_rows rfl ⟨rfl, rfl, rfl⟩ rfl rfl rfl

theorem podmgrStopDecrypt {handle : ℕ} {sent : CaPmtResult} (h : s.Counts)
    (horderly : s.SoundStop handle sent)
    (hstop : s.podmgrStopDecrypt handle sent = some s') : s'.Counts := by
  unfold DecryptSessions.podmgrStopDecrypt at hstop
  split_ifs at hstop
  · cases hstop
    exact h
  split at hstop
  · cases hstop
    exact h
  case h_2 r hr =>
    have hremoved : ((s.post .sessionShutdown [r]).removeRequest r.handle).Counts :=
      h.of_rows rfl ⟨rfl, rfl, rfl⟩ rfl rfl rfl
    obtain ⟨-, rfl⟩ | ⟨hvalid, hrows, hsent, transactionId, t, ht, hrelease⟩ :=
      stopRequest_cases hstop
    · exact hremoved
    · have hset := hremoved.setTransactionId ht
      obtain ⟨row, hrow, rfl⟩ := setTransactionId_cases ht
      have huse := horderly hsent r hr hvalid
      refine hset.releaseRow (fun hnone => hrows ?_) (fun row' hrow' => ?_) hrelease
      · exact Option.map_eq_none_iff.mp hnone
      · have hself : row' = { row with transactionId := transactionId } := by
          rw [rowList_setRow] at hrow'
          have hlt := (List.getElem?_eq_some_iff.mp hrow).1
          exact (Option.some.inj ((List.getElem?_set_self hlt).symm.trans hrow')).symm
        rw [hself]
        exact huse row hrow

/-- **No card, no counts.** -/
theorem cardRemoved (h : s.Counts) (hremoved : s.cardRemoved = some s') : s'.Counts := by
  obtain ⟨t, ht, hremoved⟩ := Option.bind_eq_some_iff.mp hremoved
  cases hremoved
  rcases suspendRows_rows ht with ⟨hnone, rfl⟩ | ⟨-, hrows⟩
  · have hlist : t.rowList = [] := by
      unfold rowList
      rw [hnone]
      rfl
    have hfreed : t.removeUnusedRequests.freeRows = t.removeUnusedRequests := by
      unfold freeRows
      have hnone' : t.removeUnusedRequests.rows = none := hnone
      rw [hnone']
    rw [hfreed]
    have hprograms : t.programsUsed = 0 := by
      rw [h.programs, hlist]
      rfl
    have hstreams : t.elementaryStreamsUsed = 0 := by
      rw [h.streams, hlist]
      rfl
    have htuners : t.transportStreamsUsed = 0 := h.tuners.trans hprograms
    exact ⟨h.programs, h.streams, h.tuners, h.single, Nat.le_of_eq hprograms,
      Nat.le_of_eq hstreams, Nat.le_of_eq htuners⟩
  · obtain ⟨rows, hrows⟩ := Option.ne_none_iff_exists'.mp hrows
    have hrows' : t.removeUnusedRequests.rows = some rows := hrows
    unfold freeRows
    rw [hrows']
    exact ⟨rfl, rfl, rfl, Nat.zero_le 1, Nat.le_refl 0, Nat.le_refl 0, Nat.le_refl 0⟩

theorem caSystemReady {e : CaSystemReady} (h : s.Counts) (horderly : s.SoundLimits e) :
    (s.caSystemReady e).Counts := by
  obtain ⟨hprograms, hstreams, htuners⟩ := horderly
  have htally : ∀ w : ProgramIndexTableRow → ℕ, w {} = 0 →
      tally w (s.caSystemReady e).rowList = tally w s.rowList := by
    intro w hw
    rcases rows_caSystemReady (e := e) with ⟨-, hrows⟩ | ⟨hnone, hclear⟩
    · exact congrArg (fun rows => tally w (Option.getD rows [])) hrows
    · have hlist : s.rowList = [] := congrArg (Option.getD · []) hnone
      rw [hlist]
      refine tally_eq_zero fun r hr => ?_
      rw [hclear r hr]
      exact hw
  exact ⟨h.programs.trans (htally rowsUsed rfl).symm, h.streams.trans (htally streamsUsed rfl).symm,
    h.tuners, h.single, hprograms, hstreams, htuners⟩

theorem activateRow {programIdx : BitVec 8} {d : ParsedDescriptors} {caPmtCmdId : CaPmtCommand}
    {transactionId tunerId : BitVec 8} {pidInfos : ℕ} (h : s.Counts) (hrows : s.rows ≠ none)
    (hharmless : s.HarmlessQuery tunerId) (hsound : s.SoundCommit tunerId d.numStreams pidInfos)
    (havailable : s.available d.numStreams = true)
    (hcommand : caCommandToState caPmtCmdId ≠ .notSelected)
    (hactivate : s.activateRow programIdx d caPmtCmdId transactionId tunerId pidInfos = some s') :
    s'.Counts := by
  obtain ⟨t, hcommit, rfl | ⟨row, streams, posted, hrow, hstreams, rfl⟩⟩ :=
    activateRow_cases hactivate
  · exact h.commitRow hrows hharmless hsound havailable hcommand hcommit
  · have hcommitted := h.commitRow hrows hharmless hsound havailable hcommand hcommit
    have hcount : ProgramIndexTableRow.pidCount { row with
        authorizedPids := some (streams.map fun p => { p with status := 1 }) } = row.pidCount := by
      unfold ProgramIndexTableRow.pidCount
      rw [hstreams]
      exact List.length_map _
    have hset : (t.setRow programIdx.toNat { row with
        authorizedPids := some (streams.map fun p => { p with status := 1 }) }).Counts :=
      hcommitted.setRow hrow rfl hcount
    exact hset.of_rows rfl ⟨rfl, rfl, rfl⟩ rfl rfl rfl

theorem activateRequest {programIdx : BitVec 8} {r : RequestTableRow} {sent : CaPmtResult}
    {pidInfos : ℕ} {success : Bool} (h : s.Counts) (hrows : s.rows ≠ none)
    (hr : r.caPmtCmdId ≠ .notSelected) (hharmless : s.HarmlessQuery r.tunerId)
    (hcommits : s.SoundRequest sent pidInfos r)
    (hactivate : s.activateRequest programIdx r sent pidInfos = some (success, s')) :
    s'.Counts := by
  have hactive : (s.setRequest r.handle fun r => { r with
      programIdx := programIdx
      state := .active
      ltsId := 255 }).Counts := h.of_rows rfl ⟨rfl, rfl, rfl⟩ rfl rfl rfl
  obtain ⟨d, hd, ⟨-, rfl⟩ | ⟨hdesc, t, ht, rfl⟩⟩ := activateRequest_cases hactivate
  · exact hactive
  · have htcounts : t.Counts := by
      rcases ht with ⟨-, rfl⟩ | ⟨hsent, transactionId, ht⟩
      · exact hactive
      · obtain ⟨havailable, hsound⟩ := hcommits d hd hdesc hsent
        exact hactive.activateRow hrows hharmless hsound havailable
          (Shaped.caCommandToState_nextCommand hr) ht
    exact htcounts.of_rows rfl ⟨rfl, rfl, rfl⟩ rfl rfl rfl

theorem activate {sent : CaPmtResult} {pidInfos : ℕ} (hs : s.Shaped) (h : s.Counts)
    (horderly : s.SoundRound sent pidInfos)
    (hactivate : s.activate sent pidInfos = some s') : s'.Counts := by
  unfold DecryptSessions.activate at hactivate
  split at hactivate
  case h_1 =>
    cases hactivate
    exact h
  case h_2 =>
    cases hactivate
    exact h.of_rows rfl ⟨rfl, rfl, rfl⟩ rfl rfl rfl
  case h_3 i hworker =>
    split_ifs at hactivate with hlt
    · have hround : s.inRound = true := by
        unfold inRound
        rw [hworker]
        exact decide_eq_true hlt
      obtain ⟨hharmless, hcommits⟩ := horderly hround
      obtain ⟨⟨success, t⟩, hround, hactivate⟩ := Option.bind_eq_some_iff.mp hactivate
      cases hactivate
      obtain ⟨⟨request, u⟩, hfind, hround⟩ := Option.bind_eq_some_iff.mp hround
      obtain rfl := findNextSuspendedRequest_eq hharmless hfind
      cases request with
      | none =>
        cases hround
        exact h.of_rows rfl ⟨rfl, rfl, rfl⟩ rfl rfl rfl
      | some r =>
        obtain ⟨hasked, hrows⟩ := (findNextSuspendedRequest_cases hfind).2 r rfl
        have hcommand := hs.requests r (waiting_of_mem_askedAbout hasked).1
        exact (h.activateRequest hrows hcommand (hharmless r hasked) (hcommits _ hfind r rfl)
          hround).of_rows rfl ⟨rfl, rfl, rfl⟩ rfl rfl rfl
    · cases hactivate
      exact h.of_rows rfl ⟨rfl, rfl, rfl⟩ rfl rfl rfl

/-- **One step** that meets the condition keeps the counts right. -/
theorem step {a : DecryptAction} (hs : s.Shaped) (h : s.Counts) (horderly : s.OrderlyCount a)
    (hstep : s.step a = some s') : s'.Counts := by
  unfold DecryptSessions.step at hstep
  split_ifs at hstep with hwaits
  · cases hstep
    exact h
  have horderly := horderly (Bool.eq_false_of_not_eq_true hwaits)
  cases a with
  | start p o =>
    obtain ⟨⟨result, t⟩, hstart, rfl⟩ := Option.map_eq_some_iff.mp hstep
    exact h.podmgrStartDecrypt horderly hstart
  | stop handle sent => exact h.podmgrStopDecrypt horderly hstep
  | apdu sessionId apdu outerSent innerSent =>
    obtain rfl | ⟨programIdx, outer, streams, hretells⟩ := podProcessApdu_cases hstep
    · exact h
    · exact h.retells hs hretells
  | cardReady =>
    cases hstep
    exact h.of_rows rfl ⟨rfl, rfl, rfl⟩ rfl rfl rfl
  | caSystemReady e =>
    cases hstep
    exact h.caSystemReady horderly
  | activate sent pidInfos => exact h.activate hs horderly hstep
  | cardRemoved => exact h.cardRemoved hstep
  | resetPending =>
    cases hstep
    exact h

end Counts

/-- Of a step that meets the condition, the queries change no count. -/
theorem OrderlyCount.asksOnly {a : DecryptAction} (h : s.OrderlyCount a) : s.AsksOnly a := by
  intro hwaits
  have h := h hwaits
  cases a with
  | start p o =>
    intro hca available t hquery
    obtain rfl := (h hca).1.eq hquery
    exact ⟨rfl, rfl, rfl⟩
  | activate sent pidInfos =>
    intro hround request t hfind
    obtain rfl := findNextSuspendedRequest_eq (h hround).1 hfind
    exact ⟨rfl, rfl, rfl⟩
  | stop | apdu | cardReady | caSystemReady | cardRemoved | resetPending => trivial

/-- **The counts are kept.** In a run whose steps all meet the condition, the counts are right in
every state that is reached, and no query changes one. -/
theorem counts_kept {caEnable queryDisabled : Bool} {acts : List DecryptAction}
    (hrun : runFrom step (booted caEnable queryDisabled) acts = some s)
    (horderly : EachStep step OrderlyCount (booted caEnable queryDisabled) acts) :
    s.Counted ∧ EachStep step AsksOnly (booted caEnable queryDisabled) acts := by
  refine ⟨?_, horderly.mono fun _ _ h => h.asksOnly⟩
  have hkeep : ∀ (s : DecryptSessions) (a : DecryptAction) (s' : DecryptSessions),
      s.Shaped ∧ s.Counts → s.OrderlyCount a → s.step a = some s' → s'.Shaped ∧ s'.Counts :=
    fun s a s' h horderly hstep => ⟨h.1.step hstep, h.2.step h.1 horderly hstep⟩
  exact (horderly.invariant (I := fun s : DecryptSessions => s.Shaped ∧ s.Counts) hkeep
    ⟨Shaped.booted, Counts.booted⟩ hrun).2.counted

theorem counts_kept_cardInserted : ∃ s, runFrom step (booted true false)
      (cardInserted ++ [.start (twoStreams 5) {}, .stop 0 .success, .start (twoStreams 6) {}]) =
        some s ∧
    s.Counted ∧ EachStep step AsksOnly (booted true false)
      (cardInserted ++ [.start (twoStreams 5) {}, .stop 0 .success, .start (twoStreams 6) {}]) :=
  let ⟨s, hrun⟩ := Option.isSome_iff_exists.mp (by decide +kernel)
  ⟨s, hrun, counts_kept hrun (by decide +kernel)⟩

/-- A second program on the same tuner is counted as two more transport streams. -/
theorem tuner_counted_again : ¬ ∀ (caEnable queryDisabled : Bool) (acts : List DecryptAction)
    (s : DecryptSessions), runFrom step (booted caEnable queryDisabled) acts = some s →
      s.Counted ∧ EachStep step AsksOnly (booted caEnable queryDisabled) acts := by
  intro h
  have hcounted := (h true false
    (cardInserted ++ [.start (twoStreams 5) {}, .start (twoStreams 5) {}]) _ rfl).1
  exact absurd hcounted.tuners (by decide)

end DecryptSessions

end MediaFramework
