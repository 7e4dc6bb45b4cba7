import MediaFramework.Pod.DecryptTables
import MediaFramework.Pod.SessionHandles

/-!
# Suspended decrypt sessions

The sessions that have a row are suspended one row after the other: their requests wait, without a
row, and the rows are clear. That is all that is done to suspend them. When the card is removed, the
requests without a row are taken out after that, so that the sessions are gone with the card, and
those that waited before as well.
-/

namespace MediaFramework

namespace DecryptSessions

/-! ## Sessions that run -/

/-- The row is in use. -/
def busy (s : DecryptSessions) (i : ℕ) : Bool := (s.rowList[i]?).any ProgramIndexTableRow.inUse

/-- The session runs: its request is active, and has a row in use within the limit of the card. -/
structure Runs (s : DecryptSessions) (r : RequestTableRow) : Prop where
  mem : r ∈ s.requests
  active : r.state = .active
  limit : r.programIdx.toNat < s.numRows
  busy : s.busy r.programIdx.toNat = true

/-- The request waits. -/
structure Waits (s : DecryptSessions) (r : RequestTableRow) : Prop where
  mem : r ∈ s.requests
  waiting : r.state = .waitingForResources

/-- The rows can be suspended: they are there, and the sessions of each fit into the array. -/
structure Suspendable (s : DecryptSessions) : Prop where
  rows : s.numRows ≤ s.rowList.length
  sessions : ∀ i, i < s.numRows → s.busy i = true → (s.sessionsAt (BitVec.ofNat 8 i)).length ≤ 10

/-- A request, after the rows before the one with the number are suspended. -/
def afterSuspending (s : DecryptSessions) (n : ℕ) (r : RequestTableRow) : RequestTableRow :=
  if r.programIdx.toNat < n ∧ s.busy r.programIdx.toNat = true then suspendRequest r else r

/-- **The rows before the one with the number are suspended.** -/
structure SuspendedUpTo (s : DecryptSessions) (n : ℕ) (t : DecryptSessions) : Prop where
  requests : t.requests = s.requests.map (s.afterSuspending n)
  numRows : t.numRows = s.numRows
  length : t.rowList.length = s.rowList.length
  free : ∀ i, i < n → t.busy i = false
  others : ∀ i, n ≤ i → t.rowList[i]? = s.rowList[i]?
  rows : n ≤ s.rowList.length

variable {s s' t : DecryptSessions} {i n : ℕ} {r : RequestTableRow} {row : ProgramIndexTableRow}

theorem busy_of_getElem? (hrow : s.rowList[i]? = some row) : s.busy i = row.inUse := by
  unfold busy
  rw [hrow]
  rfl

theorem toNat_ofNat_byte (h : i < 255) : (BitVec.ofNat 8 i).toNat = i := by
  rw [BitVec.toNat_ofNat]
  exact Nat.mod_eq_of_lt (by omega)

theorem ofNat_byte_ne (h : i < 255) : BitVec.ofNat 8 i ≠ 255 := fun heq => by
  have hnone : i = 255 := (toNat_ofNat_byte h).symm.trans (congrArg BitVec.toNat heq)
  omega

theorem eq_ofNat_byte_iff (h : i < 255) {programIdx : BitVec 8} :
    programIdx = BitVec.ofNat 8 i ↔ programIdx.toNat = i := by
  rw [← BitVec.toNat_inj, toNat_ofNat_byte h]

@[simp] theorem handle_afterSuspending : (s.afterSuspending n r).handle = r.handle := by
  unfold afterSuspending
  split_ifs
  · rfl
  · rfl

/-- A request that gets no other index was not suspended. -/
theorem afterSuspending_eq_self (h : (s.afterSuspending n r).programIdx ≠ 255) :
    s.afterSuspending n r = r := by
  unfold afterSuspending at h ⊢
  split_ifs at h ⊢
  · exact absurd rfl h
  · rfl

theorem SuspendedUpTo.refl (s : DecryptSessions) : s.SuspendedUpTo 0 s where
  requests := by
    have hsame : s.afterSuspending 0 = id := funext fun r =>
      if_neg fun h => Nat.not_lt_zero _ h.1
    rw [hsame, List.map_id]
  numRows := rfl
  length := rfl
  free := fun _ h => absurd h (Nat.not_lt_zero _)
  others := fun _ _ => rfl
  rows := Nat.zero_le _

/-- **One more row is suspended.** -/
theorem SuspendedUpTo.step (h : s.SuspendedUpTo n t) (hbyte : n < 255)
    (hsuspend : t.suspendRow n = some s') : s.SuspendedUpTo (n + 1) s' := by
  obtain ⟨row, hrow, hcases⟩ := suspendRow_tables hsuspend
  have hrow₀ : s.rowList[n]? = some row := (h.others n (Nat.le_refl n)).symm.trans hrow
  have hbusy := busy_of_getElem? hrow₀
  have hlt := (List.getElem?_eq_some_iff.mp hrow₀).1
  obtain ⟨hfree, rfl⟩ | ⟨huse, hdone⟩ := hcases
  · -- a free row, so that no request changes
    refine ⟨?_, h.numRows, h.length, fun i hi => ?_, fun i hi => h.others i (by omega), hlt⟩
    · rw [h.requests]
      refine List.map_congr_left fun r _ => ?_
      refine if_congr (and_congr_left fun hrbusy => ?_) rfl rfl
      refine ⟨Nat.lt_succ_of_lt, fun hle =>
        Nat.lt_of_le_of_ne (Nat.le_of_lt_succ hle) fun heq => ?_⟩
      rw [heq, hbusy, hfree] at hrbusy
      cases hrbusy
    · rcases Nat.lt_or_eq_of_le (Nat.le_of_lt_succ hi) with hi | rfl
      · exact h.free i hi
      · rw [busy_of_getElem? hrow]
        exact hfree
  · obtain ⟨hlist, hrequests, hnum⟩ := hdone (by omega)
    refine ⟨?_, hnum.trans h.numRows, ?_, fun i hi => ?_, fun i hi => ?_, hlt⟩
    · rw [hrequests]
      unfold suspendRequests
      rw [h.requests, List.map_map]
      refine List.map_congr_left fun r _ => ?_
      rw [Function.comp_apply]
      unfold afterSuspending
      -- suspended before, or now, or not yet
      by_cases hbefore : r.programIdx.toNat < n ∧ s.busy r.programIdx.toNat = true
      · rw [if_pos hbefore]
        exact (if_neg (ofNat_byte_ne hbyte).symm).trans
          (if_pos ⟨Nat.lt_succ_of_lt hbefore.1, hbefore.2⟩).symm
      · rw [if_neg hbefore]
        refine if_congr ?_ rfl rfl
        rw [eq_ofNat_byte_iff hbyte]
        refine ⟨fun heq => ?_, fun hnow => ?_⟩
        · rw [heq, hbusy]
          exact ⟨Nat.lt_succ_self n, huse⟩
        · by_contra hne
          exact hbefore ⟨Nat.lt_of_le_of_ne (Nat.le_of_lt_succ hnow.1) hne, hnow.2⟩
    · rw [hlist, List.length_set]
      exact h.length
    · unfold busy
      rw [hlist]
      rcases Nat.lt_or_eq_of_le (Nat.le_of_lt_succ hi) with hi | rfl
      · rw [List.getElem?_set_ne (Nat.ne_of_gt hi)]
        exact h.free i hi
      · rw [List.getElem?_set_self (List.getElem?_eq_some_iff.mp hrow).1]
        rfl
    · rw [hlist, List.getElem?_set_ne (by omega)]
      exact h.others i (by omega)

/-- **What is left when the sessions are suspended.** -/
theorem SuspendedUpTo.of_suspendActiveCASessions (hlimit : s.numRows ≤ 255)
    (h : s.suspendActiveCASessions = some t) : s.SuspendedUpTo s.numRows t :=
  foldlM_range_invariant (I := s.SuspendedUpTo)
    (fun _ _ _ hn hI hsuspend => hI.step (by omega) hsuspend) (refl s) h

theorem exists_setTransactionId (hrow : s.rowList[i]? = some row) (transactionId : BitVec 8) :
    ∃ s', s.setTransactionId i transactionId = some s' := by
  unfold setTransactionId
  rw [hrow]
  exact ⟨_, rfl⟩

theorem exists_suspendRow (hrow : s.rowList[i]? = some row) (hbyte : i < 255)
    (hsessions : row.inUse = true → (s.sessionsAt (BitVec.ofNat 8 i)).length ≤ 10) :
    ∃ s', s.suspendRow i = some s' := by
  by_cases huse : row.inUse = true
  · have hrow₁ : ((s.suspendRequests (BitVec.ofNat 8 i)).post .resourceLost
        (s.sessionsAt (BitVec.ofNat 8 i))).rowList[i]? = some row := hrow
    obtain ⟨t, ht⟩ := InPlace.exists_releaseRow hrow₁
    obtain ⟨row', -, hrelease⟩ := releaseRow_cases ht fun hnone => by
      rw [rows_of_getElem? hrow₁] at hnone
      cases hnone
    have hrow₂ : t.rowList[i]? = some { transactionId := row'.transactionId } := by
      rw [hrelease]
      exact (congrArg (·[i]?) rowList_setRow).trans
        (List.getElem?_set_self (List.getElem?_eq_some_iff.mp hrow₁).1)
    obtain ⟨s', hs'⟩ := exists_setTransactionId hrow₂ 0
    refine ⟨s', ?_⟩
    unfold suspendRow
    dsimp only
    rw [hrow, sessionsFor_eq (hsessions huse), toNat_ofNat_byte hbyte]
    refine (if_pos huse).trans ?_
    exact Option.bind_eq_some_iff.mpr ⟨_, rfl, Option.bind_eq_some_iff.mpr ⟨t, ht, hs'⟩⟩
  · refine ⟨s, ?_⟩
    unfold suspendRow
    rw [hrow]
    exact if_neg huse

/-- **The sessions can be suspended.** -/
theorem Suspendable.exists (h : s.Suspendable) (hlimit : s.numRows ≤ 255) :
    ∃ t, s.suspendActiveCASessions = some t := by
  have hround : ∀ n t, n < s.numRows → s.SuspendedUpTo n t →
      ∃ s', t.suspendRow n = some s' ∧ s.SuspendedUpTo (n + 1) s' := by
    intro n t hn hI
    have hbyte : n < 255 := by omega
    have hlt : n < s.rowList.length := Nat.lt_of_lt_of_le hn h.rows
    have hrow : s.rowList[n]? = some s.rowList[n] := List.getElem?_eq_getElem hlt
    have hrow' : t.rowList[n]? = some s.rowList[n] := (hI.others n (Nat.le_refl n)).trans hrow
    -- the requests of the row are those of before
    have hsame : (t.sessionsAt (BitVec.ofNat 8 n)).length ≤
        (s.sessionsAt (BitVec.ofNat 8 n)).length := by
      unfold sessionsAt
      rw [hI.requests, List.filter_map, List.length_map]
      refine (List.monotone_filter_right _ fun r hr => ?_).length_le
      rw [Function.comp_apply, decide_eq_true_iff] at hr
      rw [afterSuspending_eq_self (hr ▸ ofNat_byte_ne hbyte)] at hr
      exact decide_eq_true hr
    obtain ⟨s', hs'⟩ := exists_suspendRow hrow' hbyte fun huse =>
      hsame.trans (h.sessions n hn ((busy_of_getElem? hrow).trans huse))
    exact ⟨s', hs', hI.step hbyte hs'⟩
  obtain ⟨t, ht, -⟩ := foldlM_range_total hround (SuspendedUpTo.refl s)
  exact ⟨t, ht⟩

/-- **The sessions are suspended**: those that ran wait, those that waited still do, and no row is
in use. -/
structure Suspends (s t : DecryptSessions) : Prop where
  running : ∀ r, s.Runs r → t.Waits (suspendRequest r)
  waiting : ∀ r, s.Waits r → t.Waits r
  handles : t.handles = s.handles
  free : ∀ i, i < t.numRows → t.busy i = false

/-- A session that has no row is not changed. -/
theorem afterSuspending_of_waits (hlimit : n ≤ 255) (hnumbered : s.Numbered) (hr : s.Waits r) :
    s.afterSuspending n r = r :=
  if_neg fun h => by
    have hnone := (hnumbered.sound r hr.mem).waiting hr.waiting
    rw [hnone] at h
    exact Nat.not_lt.mpr hlimit h.1

theorem SuspendedUpTo.suspends (h : s.SuspendedUpTo s.numRows t) (hlimit : s.numRows ≤ 255)
    (hnumbered : s.Numbered) : s.Suspends t where
  running := fun r hr => by
    refine ⟨?_, rfl⟩
    rw [h.requests]
    exact List.mem_map.mpr ⟨r, hr.mem, if_pos ⟨hr.limit, hr.busy⟩⟩
  waiting := fun r hr => by
    refine ⟨?_, hr.waiting⟩
    rw [h.requests]
    exact List.mem_map.mpr ⟨r, hr.mem, afterSuspending_of_waits hlimit hnumbered hr⟩
  handles := by
    unfold handles
    rw [h.requests, List.map_map]
    exact List.map_congr_left fun r _ => handle_afterSuspending
  free := by
    rw [h.numRows]
    exact h.free

/-! ## The card is removed -/

/-- **The sessions are dropped with the card**: no row is left, and a session that ran or waited
never comes back. -/
structure DroppedWith (s s' : DecryptSessions) : Prop where
  rows : s'.rowList = []
  gone : ∀ r, s.Runs r ∨ s.Waits r → ∀ acts v, runFrom step s' acts = some v →
    r.handle ∉ v.handles

theorem rowList_freeRows : s.freeRows.rowList = [] := by
  unfold freeRows rowList
  split
  case h_1 hnone =>
    rw [hnone]
    rfl
  case h_2 => rfl

theorem requests_freeRows : s.freeRows.requests = s.requests := by
  unfold freeRows
  split
  · rfl
  · rfl

theorem cardRemoved_droppedWith (hnumbered : s.Numbered) (hlimit : s.numRows ≤ 255)
    (h : s.cardRemoved = some s') : s.DroppedWith s' := by
  have honward := Onward.cardRemoved h
  obtain ⟨t, ht, h⟩ := Option.bind_eq_some_iff.mp h
  cases h
  have hsuspended := SuspendedUpTo.of_suspendActiveCASessions hlimit ht
  refine ⟨rowList_freeRows, fun r hr acts v hrun => (Onward.run hrun).gone r.handle ?_ ?_⟩
  · refine Nat.lt_of_lt_of_le (hnumbered.fresh r.handle (mem_handles ?_)) honward.allocated
    exact hr.elim Runs.mem Waits.mem
  · intro hmem
    obtain ⟨q', hq', heq⟩ := List.mem_map.mp hmem
    have hq'' : q' ∈ t.removeUnusedRequests.freeRows.requests := hq'
    rw [requests_freeRows] at hq''
    obtain ⟨hleft, hindex⟩ := List.mem_filter.mp hq''
    rw [hsuspended.requests] at hleft
    obtain ⟨q, hq, rfl⟩ := List.mem_map.mp hleft
    -- the request that is left would be the one that was suspended, or waited
    obtain rfl := hnumbered.unique hq (hr.elim Runs.mem Waits.mem)
      (handle_afterSuspending.symm.trans heq)
    refine of_decide_eq_true hindex ?_
    rcases hr with hr | hr
    · exact congrArg RequestTableRow.programIdx (if_pos ⟨hr.limit, hr.busy⟩)
    · rw [afterSuspending_of_waits hlimit hnumbered hr]
      exact (hnumbered.sound q hq).waiting hr.waiting

theorem exists_cardRemoved (h : s.Suspendable) (hlimit : s.numRows ≤ 255) :
    ∃ s', s.cardRemoved = some s' := by
  obtain ⟨t, ht⟩ := h.exists hlimit
  exact ⟨_, Option.bind_eq_some_iff.mpr ⟨t, ht, rfl⟩⟩

end DecryptSessions

end MediaFramework
