import MediaFramework.Pod.DecryptShape

/-!
# The frame of a CA APDU

A CA APDU should change only the row that it names, if the row is in use and has the transaction
id of the APDU; the row should keep its PIDs, and each PID in the APDU get the status that is
given for it. An APDU for a row that was released should do nothing.

The row and the transaction id are checked. But the `ca_enable`s are written over the streams of
the row in the order of the APDU, each with its PID; an update is accepted for a row that is not
in use, whose list of streams is then read; and to make a CA_PMT the first session of the row is
read, whether there is one or not.
-/

namespace MediaFramework

/-! ## What an APDU should do -/

namespace ProgramIndexTableRow

/-- The streams of a row. -/
def streams (r : ProgramIndexTableRow) : List StreamDecryptInfo := r.authorizedPids.getD []

end ProgramIndexTableRow

namespace DecryptSessions

/-- **The row that an APDU is accepted for**, if it is accepted. It is undefined if a byte or a
row is not there that is read to find out. -/
def accepted (s : DecryptSessions) (sessionId : BitVec 32) (apdu : Apdu) :
    Option (Option (BitVec 8)) :=
  if sessionId ≠ s.casSessionId ∨ s.caEnable = false then some none
  else do
    let tag ← apdu.tag
    match statesFor tag with
    | none => some none
    | some isState => do
      let programIdx ← apdu.programIdx
      let transactionId ← apdu.transactionId
      let valid ← s.isValid programIdx transactionId isState
      some (if valid then some programIdx else none)

/-- **The frame of an APDU.** -/
structure Framed (s s' : DecryptSessions) (sessionId : BitVec 32) (apdu : Apdu) : Prop where
  /-- nothing but rows, commands of requests and events -/
  rest : ∃ rows f posted,
    (∀ r : RequestTableRow, f r = r ∨ f r = { r with caPmtCmdId := .okDescramble }) ∧
    s' = { s with rows := rows, requests := s.requests.map f, posted := posted }
  length : s'.rowList.length = s.rowList.length
  /-- only the addressed row, if it is in use and has the transaction id -/
  addressed : ∀ (j : ℕ) (row : ProgramIndexTableRow), s.rowList[j]? = some row →
    s'.rowList[j]? ≠ some row → apdu.programIdx.map BitVec.toNat = some j ∧ row.inUse = true ∧
      apdu.transactionId = some row.transactionId
  /-- no row gets or loses a PID -/
  pids : ∀ (j : ℕ) (row row' : ProgramIndexTableRow), s.rowList[j]? = some row →
    s'.rowList[j]? = some row' → ∀ pid,
      (∃ p ∈ row'.streams, p.pid = pid) ↔ ∃ p ∈ row.streams, p.pid = pid
  /-- each PID gets the status that is given -/
  statuses : ∀ programIdx streams, s.accepted sessionId apdu = some (some programIdx) →
    apdu.innerCaEnables = some streams → ∀ x ∈ streams,
      ∃ row', s'.rowList[programIdx.toNat]? = some row' ∧ x ∈ row'.streams
  /-- nothing for a row that was released -/
  released : ∀ programIdx row, apdu.programIdx = some programIdx →
    s.rowList[programIdx.toNat]? = some row → row.inUse = false → s' = s

/-- The streams of an APDU fit those of a row: they are streams of the row and stand in the places
of each other, and one for which there is no place is there before. -/
structure Fits (streams pids : List StreamDecryptInfo) : Prop where
  listed : ∀ x ∈ streams.take pids.length, ∃ p ∈ pids, p.pid = x.pid
  kept : ∀ p ∈ pids.take streams.length, (∃ x ∈ streams.take pids.length, x.pid = p.pid) ∨
    ∃ q ∈ pids.drop streams.length, q.pid = p.pid
  repeated : ∀ x ∈ streams.drop pids.length, x ∈ streams.take pids.length

/-- **The condition on an APDU.** Its header can be read. If it is accepted, its `ca_enable`s can
be read, and there are none or the row has streams that they fit; the sessions of the row fit into
the array if a `ca_enable` is handled, and there is a session to make a CA_PMT for, if one is
made. -/
def OrderlyApdu (s : DecryptSessions) (sessionId : BitVec 32) (apdu : Apdu) : Prop :=
  ∃ found, s.accepted sessionId apdu = some found ∧ ∀ programIdx ∈ found,
    ∃ outer streams, apdu.outerCaEnable = some outer ∧ apdu.innerCaEnables = some streams ∧
      s.Takes programIdx outer streams ∧
      ∀ row pids, s.rowList[programIdx.toNat]? = some row → row.authorizedPids = some pids →
        Fits streams pids

variable {s s' : DecryptSessions} {sessionId : BitVec 32} {apdu : Apdu} {programIdx : BitVec 8}
  {outerSent innerSent : CaPmtResult}

/-! ## The streams of a row -/

theorem overwrite_eq {pids streams : List StreamDecryptInfo} :
    overwrite pids streams = streams.take pids.length ++ pids.drop streams.length := by
  induction pids generalizing streams with
  | nil => cases streams <;> rfl
  | cons p pids ih =>
    cases streams with
    | nil => rfl
    | cons stream streams => exact congrArg (stream :: ·) ih

/-- A status for the whole program leaves the PIDs. -/
theorem exists_pid_tellAll (outer : BitVec 8) {pids : List StreamDecryptInfo} {n : ℕ}
    {pid : BitVec 16} : (∃ p ∈ (tellAll outer pids).drop n, p.pid = pid) ↔
      ∃ p ∈ pids.drop n, p.pid = pid := by
  unfold tellAll
  split_ifs
  · rw [← List.map_drop]
    refine ⟨fun h => ?_, fun h => ?_⟩
    · obtain ⟨p, hp, rfl⟩ := h
      obtain ⟨q, hq, rfl⟩ := List.mem_map.mp hp
      exact ⟨q, hq, rfl⟩
    · obtain ⟨p, hp, rfl⟩ := h
      exact ⟨_, List.mem_map_of_mem hp, rfl⟩
  · exact Iff.rfl

theorem length_tellAll {outer : BitVec 8} {pids : List StreamDecryptInfo} :
    (tellAll outer pids).length = pids.length := by
  unfold tellAll
  split_ifs
  · exact List.length_map _
  · rfl

theorem mem_tell {outer : BitVec 8} {streams pids : List StreamDecryptInfo}
    {x : StreamDecryptInfo} : x ∈ tell outer streams pids ↔
      x ∈ streams.take pids.length ∨ x ∈ (tellAll outer pids).drop streams.length := by
  unfold tell
  rw [overwrite_eq, length_tellAll, List.mem_append]

/-- The PIDs after an APDU: those that it lists, and those that are not overwritten. -/
theorem exists_pid_tell {outer : BitVec 8} {streams pids : List StreamDecryptInfo}
    {pid : BitVec 16} : (∃ p ∈ tell outer streams pids, p.pid = pid) ↔
      (∃ x ∈ streams.take pids.length, x.pid = pid) ∨
        ∃ p ∈ pids.drop streams.length, p.pid = pid := by
  rw [← exists_pid_tellAll outer]
  refine ⟨fun h => ?_, fun h => ?_⟩
  · obtain ⟨p, hp, rfl⟩ := h
    rcases mem_tell.mp hp with hp | hp
    · exact .inl ⟨p, hp, rfl⟩
    · exact .inr ⟨p, hp, rfl⟩
  · rcases h with ⟨p, hp, rfl⟩ | ⟨p, hp, rfl⟩
    · exact ⟨p, mem_tell.mpr (.inl hp), rfl⟩
    · exact ⟨p, mem_tell.mpr (.inr hp), rfl⟩

/-- **When the streams fit.** The row keeps its PIDs and has what the APDU lists exactly if the
streams of the APDU fit. -/
theorem fits_iff (outer : BitVec 8) {streams pids : List StreamDecryptInfo} :
    Fits streams pids ↔
      (∀ pid, (∃ p ∈ tell outer streams pids, p.pid = pid) ↔ ∃ p ∈ pids, p.pid = pid) ∧
        ∀ x ∈ streams, x ∈ tell outer streams pids := by
  have hsplit : ∀ p : StreamDecryptInfo, p ∈ pids →
      p ∈ pids.take streams.length ∨ p ∈ pids.drop streams.length := fun p hp => by
    rw [← List.take_append_drop streams.length pids] at hp
    exact List.mem_append.mp hp
  refine ⟨fun h => ⟨fun pid => ?_, fun x hx => ?_⟩, fun h => ⟨?_, ?_, ?_⟩⟩
  · rw [exists_pid_tell]
    refine ⟨fun hpid => ?_, fun hpid => ?_⟩
    · rcases hpid with ⟨x, hx, rfl⟩ | ⟨p, hp, rfl⟩
      · exact h.listed x hx
      · exact ⟨p, List.mem_of_mem_drop hp, rfl⟩
    · obtain ⟨p, hp, rfl⟩ := hpid
      rcases hsplit p hp with hp | hp
      · exact h.kept p hp
      · exact .inr ⟨p, hp, rfl⟩
  · rw [← List.take_append_drop pids.length streams] at hx
    rcases List.mem_append.mp hx with hx | hx
    · exact mem_tell.mpr (.inl hx)
    · exact mem_tell.mpr (.inl (h.repeated x hx))
  · intro x hx
    exact (h.1 x.pid).mp (exists_pid_tell.mpr (.inl ⟨x, hx, rfl⟩))
  · intro p hp
    exact exists_pid_tell.mp ((h.1 p.pid).mpr ⟨p, List.mem_of_mem_take hp, rfl⟩)
  · intro x hx
    -- there is one for which there is no place, and so nothing of the row is left
    have hlt : pids.length < streams.length := by
      have := List.length_pos_of_mem hx
      rw [List.length_drop] at this
      omega
    rcases mem_tell.mp (h.2 x (List.mem_of_mem_drop hx)) with htake | hdrop
    · exact htake
    · rw [List.drop_eq_nil_of_le (by rw [length_tellAll]; exact Nat.le_of_lt hlt)] at hdrop
      exact absurd hdrop List.not_mem_nil

theorem fits_nil {pids : List StreamDecryptInfo} : Fits [] pids where
  listed := fun _ hx => absurd (List.mem_of_mem_take hx) List.not_mem_nil
  kept := fun _ hp => absurd hp List.not_mem_nil
  repeated := fun _ hx => absurd (List.mem_of_mem_drop hx) List.not_mem_nil

/-! ## The frame -/

theorem podProcessApdu_eq : s.podProcessApdu sessionId apdu outerSent innerSent =
    (s.accepted sessionId apdu).bind fun
      | none => some s
      | some programIdx => s.processCaEnables programIdx apdu outerSent innerSent := by
  unfold podProcessApdu accepted
  split_ifs
  · rfl
  · cases apdu.tag with
    | none => rfl
    | some tag =>
      simp only [bind, Option.bind_some]
      cases statesFor tag with
      | none => rfl
      | some isState =>
        cases apdu.programIdx with
        | none => rfl
        | some programIdx =>
          cases apdu.transactionId with
          | none => rfl
          | some transactionId =>
            simp only [Option.bind_some]
            cases s.isValid programIdx transactionId isState with
            | none => rfl
            | some valid => cases valid <;> rfl

/-- An APDU is accepted only for the row that it names, with the transaction id of the row. -/
theorem of_accepted (h : s.accepted sessionId apdu = some (some programIdx)) :
    apdu.programIdx = some programIdx ∧
      ∀ row, s.rowList[programIdx.toNat]? = some row →
        apdu.transactionId = some row.transactionId := by
  unfold accepted at h
  split_ifs at h
  · cases h
  obtain ⟨tag, -, h⟩ := Option.bind_eq_some_iff.mp h
  split at h
  case h_1 => cases h
  case h_2 isState =>
    obtain ⟨i, hi, h⟩ := Option.bind_eq_some_iff.mp h
    obtain ⟨transactionId, htransaction, h⟩ := Option.bind_eq_some_iff.mp h
    obtain ⟨valid, hvalid, h⟩ := Option.bind_eq_some_iff.mp h
    cases valid with
    | false => cases h
    | true =>
      obtain rfl := Option.some.inj (Option.some.inj h)
      refine ⟨hi, fun row hrow => ?_⟩
      unfold isValid at hvalid
      split_ifs at hvalid
      · rw [hrow, Option.map_some] at hvalid
        have hboth := Bool.and_eq_true_iff.mp (Option.some.inj hvalid)
        rw [htransaction, eq_of_beq hboth.1]
      · cases hvalid

/-- Nothing is changed. -/
theorem Framed.refl (h : ∀ programIdx streams, s.accepted sessionId apdu = some (some programIdx) →
    apdu.innerCaEnables = some streams → streams = []) : s.Framed s sessionId apdu where
  rest := by
    refine ⟨s.rows, id, s.posted, fun r => .inl rfl, ?_⟩
    rw [List.map_id]
  length := rfl
  addressed := fun j row hrow hne => absurd hrow hne
  pids := fun j row row' hrow hrow' pid => by
    obtain rfl := Option.some.inj (hrow.symm.trans hrow')
    exact Iff.rfl
  statuses := fun i streams haccepted hstreams x hx => by
    rw [h i streams haccepted hstreams] at hx
    exact absurd hx List.not_mem_nil
  released := fun _ _ _ _ _ => rfl

/-- The row is changed that the APDU is accepted for. -/
theorem Framed.of_retells {outer : BitVec 8} {streams : List StreamDecryptInfo} (hs : s.Shaped)
    (haccepted : s.accepted sessionId apdu = some (some programIdx))
    (hstreams : apdu.innerCaEnables = some streams)
    (hfits : ∀ row pids, s.rowList[programIdx.toNat]? = some row →
      row.authorizedPids = some pids → Fits streams pids)
    (h : s.Retells (Told (tell outer streams)) programIdx.toNat s') :
    s.Framed s' sessionId apdu := by
  obtain ⟨row, row', hrow, htold, hlist⟩ := h.getElem?
  obtain ⟨pids, hpids, hpids'⟩ := htold.authorizedPids
  obtain ⟨hprogram, htransaction⟩ := of_accepted haccepted
  have hfit := (fits_iff outer).mp (hfits row pids hrow hpids)
  have hstreamsRow : row.streams = pids := by
    unfold ProgramIndexTableRow.streams
    rw [hpids]
    rfl
  have hstreamsRow' : row'.streams = tell outer streams pids := by
    unfold ProgramIndexTableRow.streams
    rw [hpids']
    rfl
  have huse : row.inUse = true := by
    rw [(hs.rows row (List.mem_of_getElem? hrow)).listed, hpids]
    rfl
  have hself : s'.rowList[programIdx.toNat]? = some row' := by
    rw [hlist]
    exact List.getElem?_set_self (List.getElem?_eq_some_iff.mp hrow).1
  have hother : ∀ j, j ≠ programIdx.toNat → s'.rowList[j]? = s.rowList[j]? := fun j hj => by
    rw [hlist]
    exact List.getElem?_set_ne (Ne.symm hj)
  obtain ⟨-, w, f, posted, -, -, hf, hs'⟩ := h
  refine ⟨⟨_, f, posted, hf, hs'⟩, ?_, fun j r hr hne => ?_, fun j r r' hr hr' pid => ?_,
    fun i streams' hi hstreams' x hx => ?_, fun i r hi hr huse' => ?_⟩
  · rw [hlist, List.length_set]
  · by_cases hj : j = programIdx.toNat
    · subst hj
      obtain rfl := Option.some.inj (hrow.symm.trans hr)
      exact ⟨congrArg (Option.map BitVec.toNat) hprogram, huse, htransaction row hrow⟩
    · rw [hother j hj] at hne
      exact absurd hr hne
  · by_cases hj : j = programIdx.toNat
    · subst hj
      obtain rfl := Option.some.inj (hrow.symm.trans hr)
      obtain rfl := Option.some.inj (hself.symm.trans hr')
      rw [hstreamsRow, hstreamsRow']
      exact hfit.1 pid
    · rw [hother j hj] at hr'
      obtain rfl := Option.some.inj (hr.symm.trans hr')
      exact Iff.rfl
  · obtain rfl := Option.some.inj (Option.some.inj (haccepted.symm.trans hi))
    obtain rfl := Option.some.inj (hstreams.symm.trans hstreams')
    refine ⟨row', hself, ?_⟩
    rw [hstreamsRow']
    exact hfit.2 x hx
  · obtain rfl := Option.some.inj (hprogram.symm.trans hi)
    obtain rfl := Option.some.inj (hrow.symm.trans hr)
    rw [huse] at huse'
    cases huse'

/-- **The frame of an APDU**, in a state of the shape. -/
theorem Shaped.framed_iff (hs : s.Shaped) :
    (∃ s', s.podProcessApdu sessionId apdu outerSent innerSent = some s' ∧
      s.Framed s' sessionId apdu) ↔ s.OrderlyApdu sessionId apdu := by
  rw [podProcessApdu_eq]
  refine ⟨fun h => ?_, fun h => ?_⟩
  · obtain ⟨s', h, hframed⟩ := h
    obtain ⟨found, hfound, h⟩ := Option.bind_eq_some_iff.mp h
    refine ⟨found, hfound, fun programIdx hi => ?_⟩
    obtain rfl := Option.mem_def.mp hi
    obtain ⟨outer, streams, houter, hstreams, hcases⟩ := processCaEnables_cases h
    refine ⟨outer, streams, houter, hstreams, ?_, fun row pids hrow hpids => ?_⟩
    · rcases hcases with ⟨hset, hnil, -⟩ | ⟨hupdates, -⟩
      · exact .inl ⟨hset, hnil⟩
      · exact .inr hupdates
    · rcases hcases with ⟨-, rfl, -⟩ | ⟨-, hretells⟩
      · exact fits_nil
      obtain ⟨r, row', hr, htold, hlist⟩ := hretells.getElem?
      obtain rfl := Option.some.inj (hr.symm.trans hrow)
      obtain ⟨pids', hr', hrow'⟩ := htold.authorizedPids
      obtain rfl := Option.some.inj (hpids.symm.trans hr')
      have hself : s'.rowList[programIdx.toNat]? = some row' := by
        rw [hlist]
        exact List.getElem?_set_self (List.getElem?_eq_some_iff.mp hr).1
      have hbefore : r.streams = pids := by
        unfold ProgramIndexTableRow.streams
        rw [hpids]
        rfl
      have hafter : row'.streams = tell outer streams pids := by
        unfold ProgramIndexTableRow.streams
        rw [hrow']
        rfl
      refine (fits_iff outer).mpr ⟨fun pid => ?_, fun x hx => ?_⟩
      · have := hframed.pids programIdx.toNat r row' hr hself pid
        rw [hbefore, hafter] at this
        exact this
      · obtain ⟨row'', hrow'', hx⟩ := hframed.statuses programIdx streams hfound hstreams x hx
        obtain rfl := Option.some.inj (hself.symm.trans hrow'')
        rw [hafter] at hx
        exact hx
  · obtain ⟨found, hfound, h⟩ := h
    cases found with
    | none =>
      refine ⟨s, by rw [hfound]; rfl, .refl fun i streams hi => ?_⟩
      rw [hfound] at hi
      cases hi
    | some programIdx =>
      obtain ⟨outer, streams, houter, hstreams, htakes, hfits⟩ := h programIdx rfl
      obtain ⟨s', hs'⟩ := exists_processCaEnables outerSent innerSent houter hstreams htakes
      refine ⟨s', by rw [hfound]; exact hs', ?_⟩
      obtain ⟨outer', streams', houter', hstreams', hcases⟩ := processCaEnables_cases hs'
      obtain rfl := Option.some.inj (hstreams.symm.trans hstreams')
      rcases hcases with ⟨-, rfl, rfl⟩ | ⟨-, hretells⟩
      · refine .refl fun i streams _ hi => ?_
        exact (Option.some.inj (hstreams.symm.trans hi)).symm
      · exact .of_retells hs hfound hstreams hfits hretells

/-- **The frame of CA APDUs.** In every state that is reached, an APDU does what it should exactly
if it meets the condition. -/
theorem apdu_frame {caEnable queryDisabled : Bool} {acts : List DecryptAction}
    (hrun : runFrom step (booted caEnable queryDisabled) acts = some s) :
    (∃ s', s.podProcessApdu sessionId apdu outerSent innerSent = some s' ∧
      s.Framed s' sessionId apdu) ↔ s.OrderlyApdu sessionId apdu :=
  (Shaped.booted.run hrun).framed_iff

/-- A CA_PMT_REPLY for the first row of the table, after one CA_PMT for it. -/
def replyWith (streams : List (BitVec 8)) : Apdu :=
  [0x9F, 0x80, 0x33, BitVec.ofNat 8 (8 + streams.length), 0, 1, 0, 0, 0, 0, 0, 0] ++ streams

theorem apdu_frame_twoStreams : ∃ s,
    runFrom step (booted true false) (cardInserted ++ [.start (twoStreams 5) {}]) = some s ∧
      ((∃ s', s.podProcessApdu 1 (replyWith [1, 0, 0x81, 1, 1, 0x81]) .success .success = some s' ∧
        s.Framed s' 1 (replyWith [1, 0, 0x81, 1, 1, 0x81])) ↔
          s.OrderlyApdu 1 (replyWith [1, 0, 0x81, 1, 1, 0x81])) :=
  let ⟨s, hrun⟩ := Option.isSome_iff_exists.mp (by decide +kernel)
  ⟨s, hrun, apdu_frame hrun⟩

/-- A reply for the second stream only takes the first one out of the row. -/
theorem pid_overwritten : ¬ ∀ (caEnable queryDisabled : Bool) (acts : List DecryptAction)
    (s : DecryptSessions) (sessionId : BitVec 32) (apdu : Apdu) (outerSent innerSent : CaPmtResult),
    runFrom step (booted caEnable queryDisabled) acts = some s →
      ∃ s', s.podProcessApdu sessionId apdu outerSent innerSent = some s' ∧
        s.Framed s' sessionId apdu := by
  intro h
  obtain ⟨s', hs', hframed⟩ := h true false (cardInserted ++ [.start (twoStreams 5) {}]) _ 1
    (replyWith [1, 1, 0x81]) .success .success rfl
  obtain rfl := Option.some.inj hs'
  exact absurd ((hframed.pids 0 _ _ rfl rfl 0x100).mpr (by decide)) (by decide)

end DecryptSessions

end MediaFramework
