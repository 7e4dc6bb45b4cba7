import Mathlib.Logic.Relation
import MediaFramework.Pod.DecryptRuns

/-!
# The shape of the decrypt tables

An APDU changes one row. Which program the row is for, how many streams it has and that it is in
use stay as they are; of the requests only the commands change.

With that, every step keeps the shape of the rows: a row has a list of streams exactly if it is in
use, and its `tunerId`, which nothing writes, is zero.
-/

namespace MediaFramework

/-! ## What an APDU changes -/

namespace ProgramIndexTableRow

/-- A row that is descrambled, or was asked to be. -/
def asked (r : ProgramIndexTableRow) : Bool :=
  r.state == .descrambling || r.caPmtCmdId == .okDescramble

/-- A row before and after a `ca_enable` is handled. -/
structure Handled (r r' : ProgramIndexTableRow) : Prop where
  ltsid : r'.ltsid = r.ltsid
  programNum : r'.programNum = r.programNum
  sourceId : r'.sourceId = r.sourceId
  tunerId : r'.tunerId = r.tunerId
  tuner : r'.tuner = r.tuner
  authorizedPids : r'.authorizedPids = r.authorizedPids
  inUse : r.inUse = true → r'.inUse = true

theorem Handled.refl (r : ProgramIndexTableRow) : r.Handled r :=
  ⟨rfl, rfl, rfl, rfl, rfl, rfl, id⟩

end ProgramIndexTableRow

/-- A CA_PMT is made to handle a `ca_enable`: for a dialog, and for a row that is to be descrambled
and was not asked to be. -/
def makesOne (asked : Bool) (enable : CaEnable) : Bool :=
  enable == 2 || enable == 3 || (enable == 1 && !asked)

theorem makesOne_eq_true {asked : Bool} {enable : CaEnable} :
    makesOne asked enable = true ↔ enable = 2 ∨ enable = 3 ∨ enable = 1 ∧ asked = false := by
  simp [makesOne, or_assoc]

/-- Whether the row was asked to be descrambled, after a `ca_enable` without a CA_PMT. -/
def askedAfter (asked : Bool) (enable : CaEnable) : Bool :=
  if enable = 1 then true else if enable = 0x71 ∨ enable = 0x73 then false else asked

/-- A CA_PMT is made when the `ca_enable`s are handled one after the other. -/
def makesCaPmt : Bool → List CaEnable → Bool
  | _, [] => false
  | asked, enable :: enables =>
    makesOne asked enable || makesCaPmt (askedAfter asked enable) enables

namespace DecryptSessions

variable {s s' t : DecryptSessions} {i : ℕ} {row row' : ProgramIndexTableRow}
  {R Q : ProgramIndexTableRow → ProgramIndexTableRow → Prop}

/-- **An APDU changes a row.** Of the requests only the command changes, and nothing else but the
events that are sent. -/
def Retells (R : ProgramIndexTableRow → ProgramIndexTableRow → Prop) (i : ℕ)
    (s s' : DecryptSessions) : Prop :=
  ∃ row row' f posted, s.rowList[i]? = some row ∧ R row row' ∧
    (∀ r : RequestTableRow, f r = r ∨ f r = { r with caPmtCmdId := .okDescramble }) ∧
    s' = { s with
      rows := s.rows.map fun rows => rows.set i row'
      requests := s.requests.map f
      posted := posted }

namespace Retells

theorem mono (hRQ : ∀ r r', R r r' → Q r r') (h : s.Retells R i s') : s.Retells Q i s' := by
  obtain ⟨row, row', f, posted, hrow, hR, hf, rfl⟩ := h
  exact ⟨row, row', f, posted, hrow, hRQ row row' hR, hf, rfl⟩

/-- The row that is there afterwards. -/
theorem getElem? (h : s.Retells R i s') :
    ∃ row row', s.rowList[i]? = some row ∧ R row row' ∧ s'.rowList = s.rowList.set i row' := by
  obtain ⟨row, row', f, posted, hrow, hR, -, rfl⟩ := h
  exact ⟨row, row', hrow, hR, rowList_setRow⟩

/-- One change after the other. -/
theorem comp (h : s.Retells R i t) (h' : t.Retells Q i s') :
    s.Retells (Relation.Comp R Q) i s' := by
  obtain ⟨row, row', f, posted, hrow, hR, hf, rfl⟩ := h
  obtain ⟨u, u', g, posted', hu, hQ, hg, rfl⟩ := h'
  have hlist : (rowList { s with
      rows := s.rows.map fun rows => rows.set i row'
      requests := s.requests.map f
      posted := posted }) = s.rowList.set i row' := rowList_setRow
  rw [hlist, List.getElem?_set_self (List.getElem?_eq_some_iff.mp hrow).1] at hu
  cases hu
  refine ⟨row, u', g ∘ f, posted', hrow, ⟨row', hR, hQ⟩, fun r => ?_, ?_⟩
  · rcases hf r with hfr | hfr
    · rw [Function.comp_apply, hfr]
      exact hg r
    · rw [Function.comp_apply, hfr]
      rcases hg { r with caPmtCmdId := .okDescramble } with hgr | hgr
      · exact .inr hgr
      · exact .inr hgr
  · rw [← List.map_map, Option.map_map]
    have hset : (fun rows : List ProgramIndexTableRow => (rows.set i row').set i u') =
        fun rows => rows.set i u' := funext fun rows => List.set_set ..
    rw [Function.comp_def, hset]

/-- Nothing changes but the events. -/
theorem post (event : DecryptSessionEvent) (sessions : List RequestTableRow)
    (hrow : s.rowList[i]? = some row) (hR : R row row) :
    s.Retells R i (s.post event sessions) := by
  refine ⟨row, row, id, (s.post event sessions).posted, hrow, hR, fun r => .inl rfl, ?_⟩
  have hrows : (s.rows.map fun rows => rows.set i row) = s.rows := by
    rw [rows_of_getElem? hrow, Option.map_some]
    obtain ⟨hlt, hget⟩ := List.getElem?_eq_some_iff.mp hrow
    rw [← hget, List.set_getElem_self hlt]
  rw [hrows, List.map_id]
  rfl

/-- Nothing changes. -/
theorem refl (hrow : s.rowList[i]? = some row) (hR : R row row) : s.Retells R i s := by
  have h := post .sessionShutdown [] hrow hR
  have hposted : s.post .sessionShutdown [] = s := by
    unfold DecryptSessions.post
    rw [List.map_nil, List.append_nil]
  rwa [hposted] at h

/-- The row is written. -/
theorem setRow (hrow : s.rowList[i]? = some row) (hR : R row row') :
    s.Retells R i (s.setRow i row') := by
  refine ⟨row, row', id, s.posted, hrow, hR, fun r => .inl rfl, ?_⟩
  rw [List.map_id]
  rfl

/-- The row is written for a request, which gets the command too. -/
theorem okDescramble (hrow : s.rowList[i]? = some row) {request : RequestTableRow}
    {transactionId : BitVec 8}
    (hR : R row { row with caPmtCmdId := .okDescramble, transactionId := transactionId }) :
    s.Retells R i (s.okDescramble i row request transactionId) := by
  refine ⟨row, _, _, s.posted, hrow, hR, fun r => ?_, rfl⟩
  split_ifs
  · exact .inr rfl
  · exact .inl rfl

/-- The sessions of the row stay what they are. -/
theorem sessions (h : s.Retells R i s') (programIdx : BitVec 8) :
    ∃ f : RequestTableRow → RequestTableRow, (∀ r, (f r).pServiceHandle = r.pServiceHandle) ∧
      (s'.requests.filter fun r => r.programIdx = programIdx) =
        (s.requests.filter fun r => r.programIdx = programIdx).map f := by
  obtain ⟨row, row', f, posted, -, -, hf, rfl⟩ := h
  refine ⟨f, fun r => ?_, ?_⟩
  · rcases hf r with hfr | hfr
    · rw [hfr]
    · rw [hfr]
  · rw [List.filter_map]
    refine congrArg (List.map f) (List.filter_congr fun r _ => ?_)
    rw [Function.comp_apply]
    rcases hf r with hfr | hfr
    · rw [hfr]
    · rw [hfr]

end Retells

/-! ## Handling a `ca_enable` -/

/-- The requests with the index of a row. -/
def sessionsAt (s : DecryptSessions) (programIdx : BitVec 8) : List RequestTableRow :=
  s.requests.filter fun r => r.programIdx = programIdx

variable {programIdx : BitVec 8}

theorem sessionsFor_eq (h : (s.sessionsAt programIdx).length ≤ 10) :
    s.sessionsFor programIdx = some (s.sessionsAt programIdx) := if_pos h

theorem of_sessionsFor {sessions : List RequestTableRow}
    (h : s.sessionsFor programIdx = some sessions) :
    (s.sessionsAt programIdx).length ≤ 10 ∧ sessions = s.sessionsAt programIdx := by
  unfold sessionsFor at h
  dsimp only at h
  split_ifs at h with hlen
  exact ⟨hlen, (Option.some.inj h).symm⟩

/-- The state of a row is set, and the events are sent. -/
theorem setState_retells (state : DecryptState)
    (event : DecryptSessionEvent) (hrow : s.rowList[programIdx.toNat]? = some row)
    (hlen : (s.sessionsAt programIdx).length ≤ 10) :
    ∃ s', s.setState programIdx state event = some s' ∧
      s.Retells (fun r r' => r' = { r with state := state }) programIdx.toNat s' := by
  have hset : (s.setRow programIdx.toNat { row with state := state }).rowList[programIdx.toNat]? =
      some { row with state := state } := by
    rw [rowList_setRow]
    exact List.getElem?_set_self (List.getElem?_eq_some_iff.mp hrow).1
  refine ⟨(s.setRow programIdx.toNat { row with state := state }).post event
    (s.sessionsAt programIdx), ?_, ?_⟩
  · have hfor : (s.setRow programIdx.toNat { row with state := state }).sessionsFor programIdx =
        some (s.sessionsAt programIdx) := sessionsFor_eq hlen
    unfold setState sendEventImpl
    simp only [hrow, Option.bind_some, rows_of_getElem? hset, hfor, Option.map_some, bind]
  · have hcomp := (Retells.setRow (R := fun r r' => r' = { r with state := state }) hrow rfl).comp
      (Retells.post (R := Eq) event (s.sessionsAt programIdx) hset rfl)
    exact hcomp.mono fun r r' h => by
      obtain ⟨m, rfl, rfl⟩ := h
      rfl

/-- What handling a `ca_enable` makes of a row. -/
def HandledBy (enable : CaEnable) (r r' : ProgramIndexTableRow) : Prop :=
  r.Handled r' ∧ (makesOne r.asked enable = false → r'.asked = askedAfter r.asked enable)

/-- A row that is in use is handled, if its state is set to another that is in use. -/
theorem handled_of_state {r : ProgramIndexTableRow} {state : DecryptState}
    {caPmtCmdId : CaPmtCommand} {transactionId : BitVec 8} (hstate : state ≠ .notSelected) :
    r.Handled { r with
      state := state
      caPmtCmdId := caPmtCmdId
      transactionId := transactionId } :=
  ⟨rfl, rfl, rfl, rfl, rfl, rfl, fun _ => by
    cases state with
    | notSelected => exact absurd rfl hstate
    | issuedQuery | issuedMmi | descrambling | failedDescrambling => rfl⟩

/-- The CA_PMT for a row was sent, and then its state is set. -/
theorem okDescramble_setState {state : DecryptState}
    (event : DecryptSessionEvent) (request : RequestTableRow) (transactionId : BitVec 8)
    (hstate : state ≠ .notSelected) (hrow : s.rowList[programIdx.toNat]? = some row)
    (hlen : (s.sessionsAt programIdx).length ≤ 10) :
    ∃ s', (s.okDescramble programIdx.toNat row request transactionId).setState programIdx state
        event = some s' ∧
      s.Retells (fun r r' => r.Handled r' ∧ r'.asked = true) programIdx.toNat s' := by
  have hsent : s.Retells (fun r r' => r' = { r with
      caPmtCmdId := .okDescramble
      transactionId := transactionId }) programIdx.toNat
        (s.okDescramble programIdx.toNat row request transactionId) := .okDescramble hrow rfl
  have hrow' : (s.okDescramble programIdx.toNat row request transactionId).rowList[
      programIdx.toNat]? = some { row with
        caPmtCmdId := .okDescramble
        transactionId := transactionId } :=
    (congrArg (·[programIdx.toNat]?) rowList_setRow).trans
      (List.getElem?_set_self (List.getElem?_eq_some_iff.mp hrow).1)
  have hlen' : ((s.okDescramble programIdx.toNat row request transactionId).sessionsAt
      programIdx).length ≤ 10 := by
    obtain ⟨f, -, hf⟩ := hsent.sessions programIdx
    unfold sessionsAt
    rw [hf, List.length_map]
    exact hlen
  obtain ⟨s', hs', hset⟩ := setState_retells state event hrow' hlen'
  refine ⟨s', hs', (hsent.comp hset).mono fun r r' h => ?_⟩
  obtain ⟨m, rfl, rfl⟩ := h
  exact ⟨handled_of_state hstate, Bool.or_true _⟩

theorem nextTransactionId_isSome (hrow : s.rowList[i]? = some row) :
    ∃ transactionId, s.nextTransactionId i = some transactionId := by
  unfold nextTransactionId
  rw [rows_of_getElem? hrow]
  exact ⟨_, congrArg (Option.map _) hrow⟩

variable {sent : CaPmtResult}

theorem handleDescrambling_retells
    (hrow : s.rowList[programIdx.toNat]? = some row)
    (hlen : (s.sessionsAt programIdx).length ≤ 10)
    (hfirst : makesOne row.asked 1 = true → firstSession (s.sessionsAt programIdx) ≠ none) :
    ∃ s', s.handleDescrambling programIdx row (s.sessionsAt programIdx) sent = some s' ∧
      s.Retells (HandledBy 1) programIdx.toNat s' := by
  have hset : ∃ s', s.setState programIdx .descrambling .fullyAuthorized = some s' ∧
      s.Retells (HandledBy 1) programIdx.toNat s' := by
    obtain ⟨s', hs', h⟩ := setState_retells .descrambling .fullyAuthorized hrow hlen
    refine ⟨s', hs', h.mono fun r r' hr => ?_⟩
    subst hr
    exact ⟨handled_of_state DecryptState.noConfusion, fun _ => rfl⟩
  unfold handleDescrambling
  by_cases hstate : row.state = .descrambling
  · rw [if_pos hstate]
    refine ⟨s, rfl, .refl hrow ⟨.refl row, fun _ => ?_⟩⟩
    unfold ProgramIndexTableRow.asked
    rw [hstate]
    rfl
  rw [if_neg hstate]
  by_cases hcommand : row.caPmtCmdId = .okDescramble
  · rw [if_pos hcommand]
    exact hset
  · have hasked : row.asked = false := by
      unfold ProgramIndexTableRow.asked
      simp [hstate, hcommand]
    obtain ⟨transactionId, htransaction⟩ := nextTransactionId_isSome hrow
    obtain ⟨request, hrequest⟩ := Option.ne_none_iff_exists'.mp (hfirst (by rw [hasked]; rfl))
    rw [if_neg hcommand, htransaction, hrequest]
    by_cases hsent : sent = .success
    · obtain ⟨s', hs', h⟩ := @okDescramble_setState s row programIdx .descrambling
        .fullyAuthorized request transactionId DecryptState.noConfusion hrow hlen
      refine ⟨s', ?_, h.mono fun r r' hr => ⟨hr.1, fun _ => hr.2⟩⟩
      simpa [hsent] using hs'
    · simpa [hsent] using hset

variable {enable : CaEnable}

theorem handleMmi_retells
    {event : DecryptSessionEvent} (henable : enable = 2 ∨ enable = 3)
    (hrow : s.rowList[programIdx.toNat]? = some row)
    (hlen : (s.sessionsAt programIdx).length ≤ 10)
    (hfirst : firstSession (s.sessionsAt programIdx) ≠ none) :
    ∃ s', s.handleMmi programIdx row (s.sessionsAt programIdx) sent event = some s' ∧
      s.Retells (HandledBy enable) programIdx.toNat s' := by
  have hmakes : ∀ asked, makesOne asked enable ≠ false := by
    rcases henable with rfl | rfl
    · decide
    · decide
  obtain ⟨transactionId, htransaction⟩ := nextTransactionId_isSome hrow
  obtain ⟨request, hrequest⟩ := Option.ne_none_iff_exists'.mp hfirst
  unfold handleMmi
  rw [htransaction, hrequest]
  by_cases hsent : sent = .success
  · obtain ⟨s', hs', h⟩ := @okDescramble_setState s row programIdx .issuedMmi event
      request transactionId DecryptState.noConfusion hrow hlen
    refine ⟨s', ?_, h.mono fun r r' hr => ⟨hr.1, fun hfalse => absurd hfalse (hmakes _)⟩⟩
    simpa [hsent] using hs'
  · refine ⟨s, ?_, .refl hrow ⟨.refl row, fun hfalse => absurd hfalse (hmakes _)⟩⟩
    simp [hsent]

theorem handleFailure_retells {event : DecryptSessionEvent}
    (henable : enable = 0x71 ∨ enable = 0x73)
    (hrow : s.rowList[programIdx.toNat]? = some row)
    (hlen : (s.sessionsAt programIdx).length ≤ 10) :
    ∃ s', s.handleFailure programIdx row event = some s' ∧
      s.Retells (HandledBy enable) programIdx.toNat s' := by
  have hafter : ∀ asked, askedAfter asked enable = false := by
    rcases henable with rfl | rfl
    · decide
    · decide
  have hwrite : s.Retells (fun r r' => r' = { r with caPmtCmdId := .unset }) programIdx.toNat
      (s.setRow programIdx.toNat { row with caPmtCmdId := .unset }) := .setRow hrow rfl
  have hrow' : (s.setRow programIdx.toNat { row with caPmtCmdId := .unset }).rowList[
      programIdx.toNat]? = some { row with caPmtCmdId := .unset } := by
    rw [rowList_setRow]
    exact List.getElem?_set_self (List.getElem?_eq_some_iff.mp hrow).1
  obtain ⟨s', hs', hset⟩ := setState_retells .failedDescrambling event
    hrow' hlen
  refine ⟨s', hs', (hwrite.comp hset).mono fun r r' h => ?_⟩
  obtain ⟨m, rfl, rfl⟩ := h
  refine ⟨handled_of_state DecryptState.noConfusion, fun _ => ?_⟩
  rw [hafter]
  rfl

/-- **A `ca_enable` is handled**, where the sessions of the row fit into the array, and there is
one if a CA_PMT is made. -/
theorem handleCaEnable_retells (enable : CaEnable) (sent : CaPmtResult)
    (hrow : s.rowList[programIdx.toNat]? = some row)
    (hlen : (s.sessionsAt programIdx).length ≤ 10)
    (hfirst : makesOne row.asked enable = true →
      firstSession (s.sessionsAt programIdx) ≠ none) :
    ∃ s', s.handleCaEnable enable programIdx sent = some s' ∧
      s.Retells (HandledBy enable) programIdx.toNat s' := by
  unfold handleCaEnable
  simp only [hrow, sessionsFor_eq hlen, Option.bind_some, bind]
  split_ifs with h₁ h₂ h₃ h₄ h₅
  · subst h₁
    exact handleDescrambling_retells hrow hlen hfirst
  · exact handleMmi_retells (.inl h₂) hrow hlen (hfirst (by subst h₂; rfl))
  · exact handleMmi_retells (.inr h₃) hrow hlen (hfirst (by subst h₃; rfl))
  · exact handleFailure_retells (.inl h₄) hrow hlen
  · exact handleFailure_retells (.inr h₅) hrow hlen
  · refine ⟨s, rfl, .refl hrow ⟨.refl row, fun _ => ?_⟩⟩
    unfold askedAfter
    rw [if_neg h₁, if_neg (not_or.mpr ⟨h₄, h₅⟩)]

/-- What there has to be for a `ca_enable` to be handled. -/
theorem of_handleCaEnable
    (h : s.handleCaEnable enable programIdx sent = some s') :
    ∃ row, s.rowList[programIdx.toNat]? = some row ∧ (s.sessionsAt programIdx).length ≤ 10 ∧
      (makesOne row.asked enable = true → firstSession (s.sessionsAt programIdx) ≠ none) := by
  obtain ⟨row, hrow, h⟩ := Option.bind_eq_some_iff.mp h
  obtain ⟨sessions, hsessions, h⟩ := Option.bind_eq_some_iff.mp h
  obtain ⟨hlen, rfl⟩ := of_sessionsFor hsessions
  refine ⟨row, hrow, hlen, fun hmakes hnone => ?_⟩
  have hmmi : ∀ event, s.handleMmi programIdx row (s.sessionsAt programIdx) sent event = none := by
    intro event
    unfold handleMmi
    rw [hnone]
    cases s.nextTransactionId programIdx.toNat <;> rfl
  split_ifs at h with h₁ h₂ h₃ h₄ h₅
  · have hasked : row.asked = false := by
      rcases makesOne_eq_true.mp hmakes with h | h | h
      · exact absurd (h₁.symm.trans h) (by decide)
      · exact absurd (h₁.symm.trans h) (by decide)
      · exact h.2
    obtain ⟨hstate, hcommand⟩ := Bool.or_eq_false_iff.mp hasked
    unfold handleDescrambling at h
    rw [if_neg (by simpa using hstate), if_neg (by simpa using hcommand), hnone] at h
    cases htransaction : s.nextTransactionId programIdx.toNat with
    | none =>
      rw [htransaction] at h
      cases h
    | some transactionId =>
      rw [htransaction] at h
      cases h
  · rw [hmmi] at h
    cases h
  · rw [hmmi] at h
    cases h
  · subst h₄
    cases hmakes
  · subst h₅
    cases hmakes
  · rcases makesOne_eq_true.mp hmakes with h | h | h
    · exact h₂ h
    · exact h₃ h
    · exact h₁ h.1

/-! ## Processing the `ca_enable`s -/

/-- A row before and after the `ca_enable`s of an APDU, with what they make of its streams. -/
structure Told (f : List StreamDecryptInfo → List StreamDecryptInfo)
    (r r' : ProgramIndexTableRow) : Prop where
  ltsid : r'.ltsid = r.ltsid
  programNum : r'.programNum = r.programNum
  sourceId : r'.sourceId = r.sourceId
  tunerId : r'.tunerId = r.tunerId
  tuner : r'.tuner = r.tuner
  inUse : r.inUse = true → r'.inUse = true
  authorizedPids : ∃ pids, r.authorizedPids = some pids ∧ r'.authorizedPids = some (f pids)

theorem Told.comp {f g : List StreamDecryptInfo → List StreamDecryptInfo}
    {r r' r'' : ProgramIndexTableRow} (h : Told f r r') (h' : Told g r' r'') :
    Told (fun pids => g (f pids)) r r'' where
  ltsid := h'.ltsid.trans h.ltsid
  programNum := h'.programNum.trans h.programNum
  sourceId := h'.sourceId.trans h.sourceId
  tunerId := h'.tunerId.trans h.tunerId
  tuner := h'.tuner.trans h.tuner
  inUse := fun hr => h'.inUse (h.inUse hr)
  authorizedPids := by
    obtain ⟨pids, hpids, hf⟩ := h.authorizedPids
    obtain ⟨pids', hpids', hg⟩ := h'.authorizedPids
    obtain rfl := Option.some.inj (hf.symm.trans hpids')
    exact ⟨pids, hpids, hg⟩

/-- The streams of a row are written, and then a `ca_enable` may be handled: what
`updatePODDecryptRequestAndResource` does for the program, and for the streams. -/
def updateWith (s : DecryptSessions) (programIdx : BitVec 8)
    (f : List StreamDecryptInfo → List StreamDecryptInfo) (enable : Option CaEnable)
    (sent : CaPmtResult) : Option DecryptSessions := do
  let s ← s.setPidArray programIdx.toNat f
  match enable with
  | none => some s
  | some enable => s.handleCaEnable enable programIdx sent

/-- A row before and after an update of it. -/
def ToldBy (f : List StreamDecryptInfo → List StreamDecryptInfo) (enable : Option CaEnable)
    (r r' : ProgramIndexTableRow) : Prop :=
  Told f r r' ∧ (makesCaPmt r.asked enable.toList = false →
    r'.asked = enable.toList.foldl askedAfter r.asked)

variable {f : List StreamDecryptInfo → List StreamDecryptInfo}

theorem setPidArray_retells
    {pids : List StreamDecryptInfo} (hrow : s.rowList[i]? = some row)
    (hpids : row.authorizedPids = some pids) :
    s.setPidArray i f = some (s.setRow i { row with authorizedPids := some (f pids) }) ∧
      s.Retells (ToldBy f none) i (s.setRow i { row with authorizedPids := some (f pids) }) := by
  refine ⟨?_, .setRow hrow ⟨⟨rfl, rfl, rfl, rfl, rfl, id, pids, hpids, rfl⟩, fun _ => rfl⟩⟩
  unfold setPidArray
  simp only [hrow, hpids, bind, Option.bind_some]

/-- What an update has to find. -/
structure Updates (s : DecryptSessions) (programIdx : BitVec 8) (enables : List CaEnable)
    (row : ProgramIndexTableRow) : Prop where
  there : s.rowList[programIdx.toNat]? = some row
  listed : row.authorizedPids ≠ none
  sessions : enables ≠ [] → (s.sessionsAt programIdx).length ≤ 10
  first : makesCaPmt row.asked enables = true → firstSession (s.sessionsAt programIdx) ≠ none

theorem makesCaPmt_cons {asked : Bool} {enables : List CaEnable} :
    makesCaPmt asked (enable :: enables) =
      (makesOne asked enable || makesCaPmt (askedAfter asked enable) enables) := rfl

theorem makesCaPmt_singleton {asked : Bool} :
    makesCaPmt asked [enable] = makesOne asked enable := Bool.or_false _

theorem updateWith_retells (f : List StreamDecryptInfo → List StreamDecryptInfo)
    {enable : Option CaEnable} (sent : CaPmtResult)
    (h : s.Updates programIdx enable.toList row) :
    ∃ s', s.updateWith programIdx f enable sent = some s' ∧
      s.Retells (ToldBy f enable) programIdx.toNat s' := by
  obtain ⟨pids, hpids⟩ := Option.ne_none_iff_exists'.mp h.listed
  obtain ⟨hset, hretells⟩ := setPidArray_retells (f := f) h.there hpids
  unfold updateWith
  rw [hset]
  cases enable with
  | none => exact ⟨_, rfl, hretells⟩
  | some enable =>
    have hrow : (s.setRow programIdx.toNat { row with authorizedPids := some (f pids) }).rowList[
        programIdx.toNat]? = some { row with authorizedPids := some (f pids) } := by
      rw [rowList_setRow]
      exact List.getElem?_set_self (List.getElem?_eq_some_iff.mp h.there).1
    obtain ⟨s', hs', hhandled⟩ := handleCaEnable_retells enable sent hrow
      (h.sessions (List.cons_ne_nil enable []))
      (fun hmakes => h.first (makesCaPmt_singleton.trans hmakes))
    refine ⟨s', hs', (hretells.comp hhandled).mono fun r r' hr => ?_⟩
    obtain ⟨m, ⟨htold, hm⟩, hmr, hasked⟩ := hr
    have hm : m.asked = r.asked := hm rfl
    obtain ⟨pids, hr, hpids⟩ := htold.authorizedPids
    refine ⟨⟨hmr.ltsid.trans htold.ltsid, hmr.programNum.trans htold.programNum,
      hmr.sourceId.trans htold.sourceId, hmr.tunerId.trans htold.tunerId,
      hmr.tuner.trans htold.tuner, fun huse => hmr.inUse (htold.inUse huse), pids, hr,
      hmr.authorizedPids.trans hpids⟩, fun hmakes => ?_⟩
    have hone : makesOne m.asked enable = false := by
      rw [hm]
      exact makesCaPmt_singleton.symm.trans hmakes
    exact (hasked hone).trans (congrArg (askedAfter · enable) hm)

theorem of_updateWith
    {enable : Option CaEnable}
    (h : s.updateWith programIdx f enable sent = some s') :
    ∃ row, s.Updates programIdx enable.toList row := by
  obtain ⟨t, hset, h⟩ := Option.bind_eq_some_iff.mp h
  obtain ⟨row, hrow, hset⟩ := Option.bind_eq_some_iff.mp hset
  obtain ⟨pids, hpids, hset⟩ := Option.bind_eq_some_iff.mp hset
  have hlisted : row.authorizedPids ≠ none := by
    rw [hpids]
    exact Option.some_ne_none pids
  cases enable with
  | none =>
    exact ⟨row, hrow, hlisted, fun hnil => absurd rfl hnil, fun hfalse => by cases hfalse⟩
  | some enable =>
    cases hset
    obtain ⟨row', hrow', hlen, hfirst⟩ := of_handleCaEnable h
    rw [rowList_setRow, List.getElem?_set_self (List.getElem?_eq_some_iff.mp hrow).1] at hrow'
    cases hrow'
    exact ⟨row, hrow, hlisted, fun _ => hlen, fun hmakes =>
      hfirst (makesCaPmt_singleton.symm.trans hmakes)⟩

theorem updateWith_cases
    {enable : Option CaEnable}
    (h : s.updateWith programIdx f enable sent = some s') :
    (∃ row, s.Updates programIdx enable.toList row) ∧
      s.Retells (ToldBy f enable) programIdx.toNat s' := by
  obtain ⟨row, hupdates⟩ := of_updateWith h
  obtain ⟨u, hu, hretells⟩ := updateWith_retells f sent hupdates
  obtain rfl := Option.some.inj (h.symm.trans hu)
  exact ⟨⟨row, hupdates⟩, hretells⟩

theorem firstSession_map {f : RequestTableRow → RequestTableRow}
    (hf : ∀ r, (f r).pServiceHandle = r.pServiceHandle) {sessions : List RequestTableRow} :
    firstSession (sessions.map f) ≠ none ↔ firstSession sessions ≠ none := by
  cases sessions with
  | nil => exact Iff.rfl
  | cons r sessions =>
    unfold firstSession
    simp only [List.map_cons, List.head?_cons, Option.bind_some, bind, hf]
    cases r.pServiceHandle with
    | none => exact Iff.rfl
    | some d => exact iff_of_true (Option.some_ne_none _) (Option.some_ne_none _)

/-- **One update after the other.** After the first the second finds what it has to find exactly
if both together did before. -/
theorem updates_after
    {enables : List CaEnable}
    (h : s.updateWith programIdx f (some enable) sent = some t) :
    (∃ row', t.Updates programIdx enables row') ↔
      ∃ row, s.Updates programIdx (enable :: enables) row := by
  obtain ⟨⟨row, hbefore⟩, hretells⟩ := updateWith_cases h
  obtain ⟨r, row', hr, ⟨htold, hasked⟩, hlist⟩ := hretells.getElem?
  obtain rfl := Option.some.inj (hr.symm.trans hbefore.there)
  have hrow' : t.rowList[programIdx.toNat]? = some row' := by
    rw [hlist]
    exact List.getElem?_set_self (List.getElem?_eq_some_iff.mp hr).1
  obtain ⟨g, hg, hsessions⟩ := hretells.sessions programIdx
  have hat : t.sessionsAt programIdx = (s.sessionsAt programIdx).map g := hsessions
  have hfirst : firstSession (t.sessionsAt programIdx) ≠ none ↔
      firstSession (s.sessionsAt programIdx) ≠ none := by
    rw [hat]
    exact firstSession_map hg
  have hlen : (t.sessionsAt programIdx).length ≤ 10 := by
    rw [hat, List.length_map]
    exact hbefore.sessions (List.cons_ne_nil enable [])
  obtain ⟨pids, -, hpids⟩ := htold.authorizedPids
  -- if the first makes a CA_PMT, there is a session anyway
  cases hone : makesOne r.asked enable with
  | true =>
    have hthere : firstSession (s.sessionsAt programIdx) ≠ none :=
      hbefore.first (makesCaPmt_singleton.trans hone)
    refine iff_of_true ⟨row', hrow', ?_, fun _ => hlen, fun _ => hfirst.mpr hthere⟩
      ⟨r, hr, hbefore.listed, fun _ => hbefore.sessions (List.cons_ne_nil enable []),
        fun _ => hthere⟩
    rw [hpids]
    exact Option.some_ne_none _
  | false =>
    have hmakes : makesCaPmt r.asked (enable :: enables) = makesCaPmt row'.asked enables := by
      rw [hasked (makesCaPmt_singleton.trans hone), makesCaPmt_cons, hone, Bool.false_or]
      rfl
    refine ⟨fun hafter => ?_, fun hboth => ?_⟩
    · obtain ⟨row'', hafter⟩ := hafter
      obtain rfl := Option.some.inj (hrow'.symm.trans hafter.there)
      exact ⟨r, hr, hbefore.listed, fun _ => hbefore.sessions (List.cons_ne_nil enable []),
        fun htrue => hfirst.mp (hafter.first (hmakes.symm.trans htrue))⟩
    · obtain ⟨row, hboth⟩ := hboth
      obtain rfl := Option.some.inj (hr.symm.trans hboth.there)
      refine ⟨row', hrow', ?_, fun _ => hlen, fun htrue =>
        hfirst.mpr (hboth.first (hmakes.trans htrue))⟩
      rw [hpids]
      exact Option.some_ne_none _

/-- The streams with the status of the program. -/
def tellAll (outer : BitVec 8) (pids : List StreamDecryptInfo) : List StreamDecryptInfo :=
  if caEnableSet outer then pids.map fun p => { p with status := (outer &&& 0x7F).setWidth 16 }
  else pids

/-- The streams of a row after the `ca_enable`s of an APDU. -/
def tell (outer : BitVec 8) (streams pids : List StreamDecryptInfo) : List StreamDecryptInfo :=
  overwrite (tellAll outer pids) streams

/-- The `ca_enable`s of an APDU that are handled. -/
def handledEnables (outer : BitVec 8) (streams : List StreamDecryptInfo) : List CaEnable :=
  (if caEnableSet outer then [(outer &&& 0x7F).setWidth 16] else []) ++
    (strongest (streams.map StreamDecryptInfo.status) none none).toList

@[simp] theorem overwrite_nil {pids : List StreamDecryptInfo} : overwrite pids [] = pids := by
  cases pids with
  | nil => rfl
  | cons p pids => rfl

/-- **What the `ca_enable`s of an APDU do.** They do nothing if there are none. -/
theorem processCaEnables_cases {apdu : Apdu}
    {outerSent innerSent : CaPmtResult}
    (h : s.processCaEnables programIdx apdu outerSent innerSent = some s') :
    ∃ outer streams, apdu.outerCaEnable = some outer ∧ apdu.innerCaEnables = some streams ∧
      (caEnableSet outer = false ∧ streams = [] ∧ s' = s ∨
        (∃ row, s.Updates programIdx (handledEnables outer streams) row) ∧
          s.Retells (Told (tell outer streams)) programIdx.toNat s') := by
  obtain ⟨outer, houter, h⟩ := Option.bind_eq_some_iff.mp h
  cases hset : caEnableSet outer with
  | false =>
    rw [hset] at h
    obtain ⟨streams, hstreams, h⟩ := Option.bind_eq_some_iff.mp h
    refine ⟨outer, streams, houter, hstreams, ?_⟩
    by_cases hnil : streams = []
    · rw [if_pos hnil] at h
      exact .inl ⟨hset, hnil, (Option.some.inj h).symm⟩
    · rw [if_neg hnil] at h
      have hupdate : s.updateWith programIdx (overwrite · streams)
          (strongest (streams.map StreamDecryptInfo.status) none none) innerSent = some s' := h
      obtain ⟨⟨row, hupdates⟩, hretells⟩ := updateWith_cases hupdate
      refine .inr ⟨⟨row, ?_⟩, hretells.mono fun r r' hr => ?_⟩
      · unfold handledEnables
        rw [hset]
        exact hupdates
      · unfold tell tellAll
        rw [hset]
        exact hr.1
  | true =>
    rw [hset] at h
    obtain ⟨t, ht, h⟩ := Option.bind_eq_some_iff.mp h
    obtain ⟨streams, hstreams, h⟩ := Option.bind_eq_some_iff.mp h
    have houterUpdate : s.updateWith programIdx
        (fun pids => pids.map fun p => { p with status := (outer &&& 0x7F).setWidth 16 })
        (some ((outer &&& 0x7F).setWidth 16)) outerSent = some t := ht
    obtain ⟨⟨row, hupdates⟩, hretells⟩ := updateWith_cases houterUpdate
    have hall : tellAll outer =
        fun pids => pids.map fun p => { p with status := (outer &&& 0x7F).setWidth 16 } := by
      funext pids
      unfold tellAll
      rw [hset]
      rfl
    have henables : handledEnables outer streams = (outer &&& 0x7F).setWidth 16 ::
        (strongest (streams.map StreamDecryptInfo.status) none none).toList := by
      unfold handledEnables
      rw [hset]
      rfl
    refine ⟨outer, streams, houter, hstreams, .inr ?_⟩
    rw [henables]
    by_cases hnil : streams = []
    · rw [if_pos hnil] at h
      cases h
      subst hnil
      refine ⟨⟨row, hupdates⟩, hretells.mono fun r r' hr => ?_⟩
      unfold tell
      simp only [overwrite_nil, hall]
      exact hr.1
    · rw [if_neg hnil] at h
      have hupdate : t.updateWith programIdx (overwrite · streams)
          (strongest (streams.map StreamDecryptInfo.status) none none) innerSent = some s' := h
      obtain ⟨⟨row', hupdates'⟩, hretells'⟩ := updateWith_cases hupdate
      refine ⟨(updates_after houterUpdate).mp ⟨row', hupdates'⟩,
        (hretells.comp hretells').mono fun r r' hr => ?_⟩
      obtain ⟨m, hrm, hmr⟩ := hr
      unfold tell
      rw [hall]
      exact hrm.1.comp hmr.1

/-- The `ca_enable`s can be processed: there are none, or a row that has streams. -/
def Takes (s : DecryptSessions) (programIdx : BitVec 8) (outer : BitVec 8)
    (streams : List StreamDecryptInfo) : Prop :=
  caEnableSet outer = false ∧ streams = [] ∨
    ∃ row, s.Updates programIdx (handledEnables outer streams) row

theorem exists_processCaEnables {apdu : Apdu}
    (outerSent innerSent : CaPmtResult) {outer : BitVec 8} {streams : List StreamDecryptInfo}
    (houter : apdu.outerCaEnable = some outer) (hstreams : apdu.innerCaEnables = some streams)
    (h : s.Takes programIdx outer streams) :
    ∃ s', s.processCaEnables programIdx apdu outerSent innerSent = some s' := by
  unfold processCaEnables
  simp only [houter, hstreams, bind, Option.bind_some]
  by_cases hnone : caEnableSet outer = false ∧ streams = []
  · rw [hnone.1, if_neg Bool.false_ne_true, if_pos hnone.2]
    exact ⟨s, rfl⟩
  rcases h with h | ⟨row, hupdates⟩
  · exact absurd h hnone
  unfold handledEnables at hupdates
  cases hset : caEnableSet outer with
  | false =>
    rw [hset] at hupdates
    rw [if_neg Bool.false_ne_true, if_neg fun hnil => hnone ⟨hset, hnil⟩]
    obtain ⟨s', hs', -⟩ := updateWith_retells (overwrite · streams) innerSent hupdates
    exact ⟨s', hs'⟩
  | true =>
    rw [hset, if_pos rfl, List.singleton_append] at hupdates
    rw [if_pos rfl]
    have hfirst : s.Updates programIdx
        (some ((outer &&& 0x7F).setWidth 16 : CaEnable)).toList row :=
      ⟨hupdates.there, hupdates.listed, fun _ => hupdates.sessions (List.cons_ne_nil _ _),
        fun hmakes => hupdates.first (by
          rw [makesCaPmt_cons, makesCaPmt_singleton.symm.trans hmakes]
          rfl)⟩
    obtain ⟨t, ht, -⟩ := updateWith_retells
      (fun pids => pids.map fun p => { p with status := (outer &&& 0x7F).setWidth 16 }) outerSent
      hfirst
    have hprogram : s.updateProgram programIdx outer outerSent = some t := ht
    rw [hprogram, Option.bind_some]
    split_ifs with hnil
    · exact ⟨t, rfl⟩
    · obtain ⟨row', hupdates'⟩ := (updates_after ht).mpr ⟨row, hupdates⟩
      obtain ⟨s', hs', -⟩ := updateWith_retells (overwrite · streams) innerSent hupdates'
      exact ⟨s', hs'⟩

/-- An APDU changes nothing, or it changes the row that it is for. -/
theorem podProcessApdu_cases {sessionId : BitVec 32} {apdu : Apdu}
    {outerSent innerSent : CaPmtResult}
    (h : s.podProcessApdu sessionId apdu outerSent innerSent = some s') :
    s' = s ∨ ∃ (programIdx outer : BitVec 8) (streams : List StreamDecryptInfo),
      s.Retells (Told (tell outer streams)) programIdx.toNat s' := by
  unfold podProcessApdu at h
  split_ifs at h with hother
  · exact .inl (Option.some.inj h).symm
  obtain ⟨tag, -, h⟩ := Option.bind_eq_some_iff.mp h
  split at h
  case h_1 => exact .inl (Option.some.inj h).symm
  case h_2 isState =>
    obtain ⟨programIdx, -, h⟩ := Option.bind_eq_some_iff.mp h
    obtain ⟨transactionId, -, h⟩ := Option.bind_eq_some_iff.mp h
    obtain ⟨valid, -, h⟩ := Option.bind_eq_some_iff.mp h
    split_ifs at h
    · obtain ⟨outer, streams, -, -, ⟨-, -, hs⟩ | ⟨-, hretells⟩⟩ := processCaEnables_cases h
      · exact .inl hs
      · exact .inr ⟨programIdx, outer, streams, hretells⟩
    · exact .inl (Option.some.inj h).symm

theorem length_overwrite {pids streams : List StreamDecryptInfo} :
    (overwrite pids streams).length = pids.length := by
  induction pids generalizing streams with
  | nil => cases streams <;> rfl
  | cons p pids ih =>
    cases streams with
    | nil => rfl
    | cons stream streams => exact congrArg (· + 1) ih

@[simp] theorem length_tell {outer : BitVec 8} {streams pids : List StreamDecryptInfo} :
    (tell outer streams pids).length = pids.length := by
  unfold tell tellAll
  rw [length_overwrite]
  split_ifs
  · exact List.length_map _
  · rfl

end DecryptSessions

/-! ## The shape of the rows -/

/-- The row has a list of streams exactly if it is in use, and its `tunerId` is not written. -/
structure ProgramIndexTableRow.Shaped (r : ProgramIndexTableRow) : Prop where
  listed : r.inUse = r.authorizedPids.isSome
  tunerId : r.tunerId = 0

theorem ProgramIndexTableRow.Shaped.clear {transactionId : BitVec 8} :
    ProgramIndexTableRow.Shaped { transactionId := transactionId } := ⟨rfl, rfl⟩

theorem ProgramIndexTableRow.inUse_eq_true {r : ProgramIndexTableRow} :
    r.inUse = true ↔ r.state ≠ .notSelected := by
  unfold inUse
  cases r.state <;> decide

/-- A row that is committed. -/
theorem ProgramIndexTableRow.Shaped.committed {r : ProgramIndexTableRow}
    {caPmtCmdId : CaPmtCommand} {d : ParsedDescriptors} {transactionId tunerId ltsId : BitVec 8}
    {state : DecryptState} {streams : List StreamDecryptInfo} (h : r.Shaped)
    (hstate : state ≠ .notSelected) :
    (DecryptSessions.committedRow r caPmtCmdId d transactionId tunerId ltsId state
      streams).Shaped :=
  ⟨inUse_eq_true.mpr hstate, h.tunerId⟩

namespace DecryptSessions

variable {s s' : DecryptSessions} {i : ℕ} {row row' : ProgramIndexTableRow}

/-- **The shape of the tables.** -/
structure Shaped (s : DecryptSessions) : Prop where
  rows : ∀ r ∈ s.rowList, r.Shaped
  requests : ∀ r ∈ s.requests, r.caPmtCmdId ≠ .notSelected

namespace Shaped

/-- A state with the same tables. -/
theorem of_tables (h : s.Shaped) (hrows : s'.rowList = s.rowList)
    (hrequests : s'.requests = s.requests) : s'.Shaped where
  rows := by
    rw [hrows]
    exact h.rows
  requests := by
    rw [hrequests]
    exact h.requests

theorem setRow (h : s.Shaped) (hrow : row.Shaped) : (s.setRow i row).Shaped where
  rows := by
    intro r hr
    rw [rowList_setRow] at hr
    rcases List.mem_or_eq_of_mem_set hr with hr | rfl
    · exact h.rows r hr
    · exact hrow
  requests := h.requests

theorem setRequest {f : RequestTableRow → RequestTableRow} {handle : ℕ} (h : s.Shaped)
    (hf : ∀ r ∈ s.requests, (f r).caPmtCmdId ≠ .notSelected) :
    (s.setRequest handle f).Shaped where
  rows := h.rows
  requests := by
    intro r hr
    obtain ⟨r', hr', rfl⟩ := List.mem_map.mp hr
    split_ifs
    · exact hf r' hr'
    · exact h.requests r' hr'

theorem addRequest {r : RequestTableRow} (h : s.Shaped) (hr : r.caPmtCmdId ≠ .notSelected) :
    (s.addRequest r).Shaped where
  rows := h.rows
  requests := by
    intro r' hr'
    rcases List.mem_append.mp hr' with hr' | hr'
    · exact h.requests r' hr'
    · rw [List.mem_singleton.mp hr']
      exact hr

theorem removeRequest {handle : ℕ} (h : s.Shaped) : (s.removeRequest handle).Shaped where
  rows := h.rows
  requests := fun r hr => h.requests r (List.mem_of_mem_filter hr)

theorem commitRow {caPmtCmdId : CaPmtCommand} {d : ParsedDescriptors}
    {transactionId tunerId ltsId : BitVec 8} {state : DecryptState} {pidInfos : ℕ}
    (h : s.Shaped) (hstate : state ≠ .notSelected)
    (hcommit : s.commitRow i caPmtCmdId d transactionId tunerId ltsId state pidInfos = some s') :
    s'.Shaped := by
  by_cases hrows : s.rows = none
  · unfold DecryptSessions.commitRow at hcommit
    rw [hrows] at hcommit
    cases hcommit
    exact h
  · obtain ⟨inUse, row, streams, -, hrow, -, rfl⟩ := commitRow_cases hcommit hrows
    have hset : (s.setRow i (committedRow row caPmtCmdId d transactionId tunerId ltsId state
        streams)).Shaped := h.setRow ((h.rows row (List.mem_of_getElem? hrow)).committed hstate)
    exact hset.of_tables rfl rfl

theorem releaseRow (h : s.Shaped) (hrelease : s.releaseRow i = some s') : s'.Shaped := by
  by_cases hrows : s.rows = none
  · unfold DecryptSessions.releaseRow at hrelease
    rw [hrows] at hrelease
    cases hrelease
    exact h
  · obtain ⟨row, -, rfl⟩ := releaseRow_cases hrelease hrows
    exact (h.setRow .clear).of_tables rfl rfl

theorem setTransactionId {transactionId : BitVec 8} (h : s.Shaped)
    (hset : s.setTransactionId i transactionId = some s') : s'.Shaped := by
  obtain ⟨row, hrow, rfl⟩ := setTransactionId_cases hset
  have hshaped := h.rows row (List.mem_of_getElem? hrow)
  exact h.setRow ⟨hshaped.listed, hshaped.tunerId⟩

/-- **An APDU keeps the shape.** -/
theorem retells {f : List StreamDecryptInfo → List StreamDecryptInfo} (h : s.Shaped)
    (hretells : s.Retells (Told f) i s') : s'.Shaped := by
  obtain ⟨row, row', g, posted, hrow, htold, hg, rfl⟩ := hretells
  have hshaped := h.rows row (List.mem_of_getElem? hrow)
  obtain ⟨pids, hpids, hpids'⟩ := htold.authorizedPids
  have hlisted := hshaped.listed
  rw [hpids] at hlisted
  have hrow' : row'.Shaped := by
    refine ⟨?_, htold.tunerId.trans hshaped.tunerId⟩
    rw [hpids']
    exact htold.inUse hlisted
  refine ⟨(h.setRow hrow').rows, fun r hr => ?_⟩
  obtain ⟨r', hr', rfl⟩ := List.mem_map.mp hr
  rcases hg r' with hg | hg
  · rw [hg]
    exact h.requests r' hr'
  · rw [hg]
    exact CaPmtCommand.noConfusion

/-! ### The steps -/

theorem podmgrStartDecrypt {p : DecryptRequestParams} {o : StartOutcome} {result : StartResult}
    (h : s.Shaped) (hstart : s.podmgrStartDecrypt p o = some (result, s')) : s'.Shaped := by
  obtain ⟨-, -, rfl⟩ | ⟨-, available, used, -, ⟨-, rfl⟩ | ⟨-, -, -, rfl⟩ | ⟨-, -, hready⟩⟩ :=
    podmgrStartDecrypt_cases hstart
  · exact h
  · exact h.of_tables rfl rfl
  · exact (h.addRequest (r := s.waitingRequest p o) CaPmtCommand.noConfusion).of_tables rfl rfl
  · have hadd : ∀ row, (({ s with
        transportStreamsUsed := used
        allocated := s.allocated + 1 } : DecryptSessions).addRequest
          (s.readyRequest p o row)).Shaped := fun row =>
      (h.addRequest (r := s.readyRequest p o row) CaPmtCommand.noConfusion).of_tables rfl rfl
    obtain ⟨row, -, ⟨-, -, transactionId, hcommitted⟩ | ⟨-, -, rfl⟩⟩ := startReady_cases hready
    · obtain ⟨caPmtCmdId, state, t, posted, hcommand, hstate, hcommit, rfl⟩ :=
        committed_cases hcommitted
      have hrow : t.Shaped := (hadd (nextIndex row)).commitRow hstate hcommit
      exact (hrow.setRequest fun r _ => hcommand).of_tables rfl rfl
    · exact (hadd (nextIndex row)).removeRequest

theorem podmgrStopDecrypt {handle : ℕ} {sent : CaPmtResult} (h : s.Shaped)
    (hstop : s.podmgrStopDecrypt handle sent = some s') : s'.Shaped := by
  unfold DecryptSessions.podmgrStopDecrypt at hstop
  split_ifs at hstop
  · cases hstop
    exact h
  split at hstop
  · cases hstop
    exact h
  case h_2 r _ =>
    have hremoved : ((s.post .sessionShutdown [r]).removeRequest r.handle).Shaped :=
      h.removeRequest.of_tables rfl rfl
    obtain ⟨-, rfl⟩ | ⟨-, -, -, transactionId, t, ht, hrelease⟩ := stopRequest_cases hstop
    · exact hremoved
    · exact (hremoved.setTransactionId ht).releaseRow hrelease

theorem suspendRow (h : s.Shaped) (hsuspend : s.suspendRow i = some s') : s'.Shaped := by
  obtain ⟨row, -, ⟨-, rfl⟩ | ⟨-, sessions, t, hrelease, hset⟩⟩ := suspendRow_cases hsuspend
  · exact h
  · have hsuspended : (s.suspendRequests (BitVec.ofNat 8 i)).Shaped := by
      refine ⟨h.rows, fun r hr => ?_⟩
      obtain ⟨r', hr', rfl⟩ := List.mem_map.mp hr
      split_ifs
      · exact CaPmtCommand.noConfusion
      · exact h.requests r' hr'
    have hposted : ((s.suspendRequests (BitVec.ofNat 8 i)).post .resourceLost sessions).Shaped :=
      hsuspended.of_tables rfl rfl
    exact (hposted.releaseRow hrelease).setTransactionId hset

/-- All rows of a list are suspended. -/
theorem suspendRows {rows : List ℕ} (h : s.Shaped)
    (hsuspend : rows.foldlM DecryptSessions.suspendRow s = some s') : s'.Shaped := by
  induction rows generalizing s with
  | nil =>
    cases hsuspend
    exact h
  | cons i rows ih =>
    obtain ⟨t, ht, hsuspend⟩ := Option.bind_eq_some_iff.mp hsuspend
    exact ih (h.suspendRow ht) hsuspend

theorem cardRemoved (h : s.Shaped) (hremoved : s.cardRemoved = some s') : s'.Shaped := by
  obtain ⟨t, ht, hremoved⟩ := Option.bind_eq_some_iff.mp hremoved
  cases hremoved
  have hsuspended := h.suspendRows ht
  have hrequests : t.removeUnusedRequests.Shaped :=
    ⟨hsuspended.rows, fun r hr => hsuspended.requests r (List.mem_of_mem_filter hr)⟩
  have hfreed : t.removeUnusedRequests.freeRows.Shaped := by
    unfold freeRows
    split
    · exact hrequests
    · exact ⟨fun r hr => absurd hr List.not_mem_nil, hrequests.requests⟩
  exact hfreed.of_tables rfl rfl

theorem caSystemReady {e : CaSystemReady} (h : s.Shaped) : (s.caSystemReady e).Shaped := by
  rcases rows_caSystemReady (e := e) with ⟨-, hrows⟩ | ⟨-, hclear⟩
  · exact h.of_tables (congrArg (Option.getD · []) hrows) rfl
  · refine ⟨fun r hr => ?_, h.requests⟩
    rw [hclear r hr]
    exact ProgramIndexTableRow.Shaped.clear

theorem activateRow {programIdx : BitVec 8} {d : ParsedDescriptors} {caPmtCmdId : CaPmtCommand}
    {transactionId tunerId : BitVec 8} {pidInfos : ℕ} (h : s.Shaped)
    (hcommand : caCommandToState caPmtCmdId ≠ .notSelected)
    (hactivate : s.activateRow programIdx d caPmtCmdId transactionId tunerId pidInfos = some s') :
    s'.Shaped := by
  obtain ⟨t, hcommit, rfl | ⟨row, streams, posted, hrow, hstreams, rfl⟩⟩ :=
    activateRow_cases hactivate
  · exact h.commitRow hcommand hcommit
  · have hcommitted := h.commitRow hcommand hcommit
    have hshaped := hcommitted.rows row (List.mem_of_getElem? hrow)
    have hlisted := hshaped.listed
    rw [hstreams] at hlisted
    have hset : (t.setRow programIdx.toNat { row with
        authorizedPids := some (streams.map fun p => { p with status := 1 }) }).Shaped :=
      hcommitted.setRow ⟨hlisted, hshaped.tunerId⟩
    exact hset.of_tables rfl rfl

theorem caCommandToState_nextCommand {r : RequestTableRow} (h : r.caPmtCmdId ≠ .notSelected) :
    caCommandToState (nextCommand r) ≠ .notSelected := by
  unfold nextCommand
  cases hcommand : r.caPmtCmdId with
  | notSelected => exact absurd hcommand h
  | unset | okDescramble | okMmi | query => exact DecryptState.noConfusion

theorem activateRequest {programIdx : BitVec 8} {r : RequestTableRow} {sent : CaPmtResult}
    {pidInfos : ℕ} {success : Bool} (h : s.Shaped) (hr : r.caPmtCmdId ≠ .notSelected)
    (hactivate : s.activateRequest programIdx r sent pidInfos = some (success, s')) :
    s'.Shaped := by
  have hactive : (s.setRequest r.handle fun r => { r with
      programIdx := programIdx
      state := .active
      ltsId := 255 }).Shaped := h.setRequest fun r hr => h.requests r hr
  obtain ⟨d, -, ⟨-, rfl⟩ | ⟨-, t, ht, rfl⟩⟩ := activateRequest_cases hactivate
  · exact hactive
  · have htshaped : t.Shaped := by
      rcases ht with ⟨-, rfl⟩ | ⟨-, transactionId, ht⟩
      · exact hactive
      · exact hactive.activateRow (caCommandToState_nextCommand hr) ht
    exact htshaped.setRequest fun r hr => htshaped.requests r hr

theorem activate {sent : CaPmtResult} {pidInfos : ℕ} (h : s.Shaped)
    (hactivate : s.activate sent pidInfos = some s') : s'.Shaped := by
  unfold DecryptSessions.activate at hactivate
  split at hactivate
  · cases hactivate
    exact h
  · cases hactivate
    exact h.of_tables rfl rfl
  · split_ifs at hactivate
    · obtain ⟨⟨success, t⟩, hround, hactivate⟩ := Option.bind_eq_some_iff.mp hactivate
      cases hactivate
      obtain ⟨⟨request, u⟩, hfind, hround⟩ := Option.bind_eq_some_iff.mp hround
      obtain ⟨⟨used, rfl⟩, hfound⟩ := findNextSuspendedRequest_cases hfind
      cases request with
      | none =>
        cases hround
        exact h.of_tables rfl rfl
      | some r =>
        have hr := (waiting_of_mem_askedAbout (hfound r rfl).1).1
        have hused : Shaped { s with transportStreamsUsed := used } := h.of_tables rfl rfl
        exact (hused.activateRequest (h.requests r hr) hround).of_tables rfl rfl
    · cases hactivate
      exact h.of_tables rfl rfl

theorem step {a : DecryptAction} (h : s.Shaped) (hstep : s.step a = some s') : s'.Shaped := by
  unfold DecryptSessions.step at hstep
  split_ifs at hstep
  · cases hstep
    exact h
  cases a with
  | start p o =>
    obtain ⟨⟨result, t⟩, hstart, rfl⟩ := Option.map_eq_some_iff.mp hstep
    exact h.podmgrStartDecrypt hstart
  | stop handle sent => exact h.podmgrStopDecrypt hstep
  | apdu sessionId apdu outerSent innerSent =>
    obtain rfl | ⟨programIdx, outer, streams, hretells⟩ := podProcessApdu_cases hstep
    · exact h
    · exact h.retells hretells
  | cardReady =>
    cases hstep
    exact h.of_tables rfl rfl
  | caSystemReady e =>
    cases hstep
    exact h.caSystemReady
  | activate sent pidInfos => exact h.activate hstep
  | cardRemoved => exact h.cardRemoved hstep
  | resetPending =>
    cases hstep
    exact h

/-- **The shape of the tables is kept by every run.** -/
theorem run {acts : List DecryptAction} (h : s.Shaped)
    (hrun : runFrom DecryptSessions.step s acts = some s') : s'.Shaped :=
  EachStep.unconditional.invariant (I := Shaped) (fun _ _ _ h _ hstep => h.step hstep) h hrun

theorem booted {caEnable queryDisabled : Bool} :
    (DecryptSessions.booted caEnable queryDisabled).Shaped :=
  ⟨fun _ hr => absurd hr List.not_mem_nil, fun _ hr => absurd hr List.not_mem_nil⟩

end Shaped

end DecryptSessions

end MediaFramework
