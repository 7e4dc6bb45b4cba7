import MediaFramework.Rbi.InsertionState

/-!
# The set a context holds (`m_dfnSet`)

`m_dfnSet` points into the manager's map, and the entry it points into is kept
there by a reference count: one for the map, one for the context. Here is what
the pointers of a context are good for, call by call, and what breaks them:
`setSourceURI` drops the map's reference each time it tunes out, also where that
was done before and the only reference left is the context's.
-/

namespace MediaFramework

/-- The pointers of a context, with the entry they point into. -/
structure Pointers where
  insertDefinitions : Option RegisteredSet
  dfnSet : Option ℕ
  dfnCurrent : Option SpotPointer
  dfnNext : Option SpotPointer
  spotIndex : ℕ
  spotCount : ℕ
  prefetchPTSNext : ℤ

/-- The pointers of a session. -/
def InsertSession.pointers (s : InsertSession) : Pointers where
  insertDefinitions := s.insertDefinitions
  dfnSet := s.dfnSet
  dfnCurrent := s.dfnCurrent
  dfnNext := s.dfnNext
  spotIndex := s.spotIndex
  spotCount := s.spotCount
  prefetchPTSNext := s.prefetchPTSNext

/-! ## The invariant -/

/-- An entry that is referred to, and has the spots a call can bring. -/
structure RegisteredSet.Good (e : RegisteredSet) : Prop where
  referred : 0 < e.set.refCount
  nonempty : 0 < e.set.spots.length
  fits : e.set.spots.length ≤ maxSpots

namespace Pointers

variable {p p' : Pointers} {n : ℕ}

/-- The entry, if there is one, is good. -/
def Counted (p : Pointers) : Prop := ∀ e, p.insertDefinitions = some e → e.Good

/-- `m_dfnSet` and `m_dfnCurrent` point into the entry. -/
structure Held (p : Pointers) : Prop where
  counted : p.Counted
  held : ∀ node, p.dfnSet = some node → ∃ e, p.insertDefinitions = some e ∧ e.node = node ∧
    p.spotIndex < e.set.spots.length ∧ p.spotCount ≤ e.set.spots.length
  current : ∀ q, p.dfnCurrent = some q → p.dfnSet = some q.node ∧ q.index = p.spotIndex

/-- While a prefetch is due, `m_dfnNext` is the spot after the current one. -/
def NextHeld (p : Pointers) : Prop :=
  p.prefetchPTSNext ≠ -1 → ∃ q, p.dfnNext = some q ∧ p.dfnSet = some q.node ∧
    q.index = p.spotIndex + 1 ∧ p.spotIndex + 1 < p.spotCount

/-- At most `n` spots of the set are left. -/
def Left (n : ℕ) (p : Pointers) : Prop := p.dfnSet.isSome → p.spotCount ≤ p.spotIndex + n

/-- **The invariant of the pointers**, with a bound on the spots that are left. -/
structure Sound (n : ℕ) (p : Pointers) : Prop extends Held p where
  next : p.NextHeld
  left : p.Left n

/-- Where `updateInsertionState` begins: the spot may still have to be loaded. -/
structure Entering (n : ℕ) (p : Pointers) : Prop extends Held p where
  left : p.Left n
  next : p.NextHeld ∨ p.dfnSet.isSome ∧ p.dfnCurrent = none

theorem Sound.entering (h : p.Sound n) : p.Entering n := ⟨h.toHeld, h.left, .inl h.next⟩

/-- A larger bound on the spots that are left. -/
theorem Sound.mono {m : ℕ} (h : p.Sound n) (hnm : n ≤ m) : p.Sound m :=
  ⟨h.toHeld, h.next, fun hset => (h.left hset).trans (Nat.add_le_add_left hnm _)⟩

/-- Without a set, nothing is left to load. -/
theorem Entering.sound (h : p.Entering n) (hset : p.dfnSet = none) : p.Sound n := by
  refine ⟨h.toHeld, ?_, h.left⟩
  rcases h.next with hnext | ⟨hsome, _⟩
  · exact hnext
  · rw [hset] at hsome
    cases hsome

/-- A context without a set has no spot either. -/
theorem Held.current_none (h : p.Held) (hset : p.dfnSet = none) : p.dfnCurrent = none := by
  rcases hq : p.dfnCurrent with _ | q
  · rfl
  · have := (h.current q hq).1
    rw [hset] at this
    cases this

/-- Without a set, no prefetch is due. -/
theorem Sound.prefetch_none (h : p.Sound n) (hset : p.dfnSet = none) : p.prefetchPTSNext = -1 := by
  by_contra hne
  obtain ⟨q, _, hsome, _⟩ := h.next hne
  rw [hset] at hsome
  cases hsome

/-- Pointers that are null hold nothing. -/
theorem Counted.held (h : p.Counted) (hset : p.dfnSet = none) (hcur : p.dfnCurrent = none) :
    p.Held := by
  refine ⟨h, fun node hnode => ?_, fun q hq => ?_⟩
  · rw [hset] at hnode
    cases hnode
  · rw [hcur] at hq
    cases hq

/-- Without pointers, the counts are all there is to keep. -/
theorem Counted.sound (h : p.Counted) (hset : p.dfnSet = none) (hcur : p.dfnCurrent = none)
    (hnext : p.prefetchPTSNext = -1) : p.Sound n := by
  refine ⟨h.held hset hcur, fun hne => absurd hnext hne, fun hsome => ?_⟩
  rw [hset] at hsome
  cases hsome

/-! ## What the handler and the dropping of a reference change -/

/-- What the handler makes of the pointers: it may put an entry where there is none. -/
def Interfered (p p' : Pointers) : Prop :=
  p' = p ∨ p.insertDefinitions = none ∧ ∃ e : RegisteredSet, e.Good ∧
    p' = { p with insertDefinitions := some e }

/-- An entry that is there stays. -/
theorem Interfered.of_some {e : RegisteredSet} (h : p.Interfered p')
    (he : p.insertDefinitions = some e) : p' = p := by
  rcases h with heq | ⟨hnone, _⟩
  · exact heq
  · rw [he] at hnone
    cases hnone

theorem Counted.interfered (h : p.Counted) (hi : p.Interfered p') : p'.Counted := by
  rcases hi with rfl | ⟨_, e, he, rfl⟩
  · exact h
  · intro e' he'
    obtain rfl : e = e' := Option.some.inj he'
    exact he

theorem Held.interfered (h : p.Held) (hi : p.Interfered p') : p'.Held := by
  have hcounted := h.counted.interfered hi
  rcases hi with rfl | ⟨hnone, e, he, rfl⟩
  · exact h
  · refine ⟨hcounted, fun node hnode => ?_, h.current⟩
    obtain ⟨e', he', _⟩ := h.held node hnode
    rw [hnone] at he'
    cases he'

/-- What the handler does leaves the pointers sound. -/
theorem Sound.interfered (h : p.Sound n) (hi : p.Interfered p') : p'.Sound n := by
  have hheld := h.toHeld.interfered hi
  rcases hi with rfl | ⟨_, e, _, rfl⟩
  · exact h
  · exact ⟨hheld, h.next, h.left⟩

theorem Entering.interfered (h : p.Entering n) (hi : p.Interfered p') : p'.Entering n := by
  have hheld := h.toHeld.interfered hi
  rcases hi with rfl | ⟨_, e, _, rfl⟩
  · exact h
  · exact ⟨hheld, h.left, h.next⟩

/-- A reference is dropped: the set goes with the last one. -/
theorem Counted.dropped (h : p.Counted) :
    Counted { p with insertDefinitions := p.insertDefinitions.bind RegisteredSet.dropped } := by
  intro e' he'
  obtain ⟨e, he, hdrop⟩ := Option.bind_eq_some_iff.mp he'
  have hgood := h e he
  unfold RegisteredSet.dropped at hdrop
  split_ifs at hdrop with hlast
  cases hdrop
  exact ⟨Nat.pos_of_ne_zero hlast, hgood.nonempty, hgood.fits⟩

/-- `m_dfnSet` is the only reference to the entry. -/
def LastReference (p : Pointers) : Prop :=
  p.dfnSet.isSome ∧ ∃ e ∈ p.insertDefinitions, e.set.refCount = 1

instance (p : Pointers) : Decidable p.LastReference := by
  unfold LastReference
  infer_instance

/-- The handler does not make it so. -/
theorem LastReference.of_interfered (hlast : p'.LastReference) (h : p.Held)
    (hi : p.Interfered p') : p.LastReference := by
  have hset : p'.dfnSet = p.dfnSet := by
    rcases hi with rfl | ⟨_, e, _, rfl⟩
    · rfl
    · rfl
  obtain ⟨node, hnode⟩ := Option.isSome_iff_exists.mp hlast.1
  obtain ⟨e, he, _⟩ := h.held node (hset ▸ hnode)
  exact hi.of_some he ▸ hlast

/-- **Dropping a reference** that is not the last one keeps the invariant. -/
theorem Sound.dropped (h : p.Sound n) (hlast : ¬p.LastReference) :
    Sound n { p with insertDefinitions := p.insertDefinitions.bind RegisteredSet.dropped } := by
  refine ⟨⟨h.counted.dropped, fun node hnode => ?_, h.current⟩, h.next, h.left⟩
  obtain ⟨e, he, hen, hlt, hcount⟩ := h.held node hnode
  have hmore : ¬e.set.refCount - 1 = 0 := by
    have hpos := (h.counted e he).referred
    have hne : e.set.refCount ≠ 1 := fun heq =>
      hlast ⟨Option.isSome_of_eq_some hnode, e, he, heq⟩
    omega
  refine ⟨{ e with set := { e.set with refCount := e.set.refCount - 1 } }, ?_, hen, hlt, hcount⟩
  rw [he, Option.bind_some, RegisteredSet.dropped, if_neg hmore]

end Pointers

/-- The calculation ends with a result that meets `Q`, and never with a fault. -/
abbrev Safe {α : Type} (x : Except Fault α) (Q : α → Prop) : Prop := Ends x Q fun _ => False

namespace InsertSession

open Pointers

variable {s : InsertSession} {n : ℕ}

theorem putSet_pointers {t : InsertSession} (f : FoundOpportunity)
    (h : s.pointers.Interfered t.pointers) (hnone : t.insertDefinitions = none) :
    s.pointers.Interfered (t.putSet f).pointers := by
  have hgood : RegisteredSet.Good { node := t.nextNode, set := f.definitionSet } :=
    ⟨by rw [f.refCount_definitionSet]; exact Nat.one_pos, f.length_definitionSet.1,
      f.length_definitionSet.2⟩
  rcases h with heq | ⟨_, e, _, heq⟩
  · have hs : s.insertDefinitions = t.insertDefinitions := congrArg (·.insertDefinitions) heq.symm
    refine .inr ⟨hs.trans hnone, _, hgood, ?_⟩
    rw [← heq]
    rfl
  · have : t.insertDefinitions = some e := congrArg (·.insertDefinitions) heq
    rw [hnone] at this
    cases this

theorem handlerStep_pointers (s : InsertSession) (h : HandlerStep) :
    s.pointers.Interfered (s.handlerStep h).pointers :=
  handlerStep_induction (I := fun t => s.pointers.Interfered t.pointers)
    (fun _ _ _ h => h) (fun _ f h hnone => putSet_pointers f h hnone) (.inl rfl) h

/-- All that happens to the pointers is the handler's. -/
theorem consult_pointers (s : InsertSession) : s.pointers.Interfered s.consult.2.pointers :=
  consult_induction (I := fun t => s.pointers.Interfered t.pointers)
    (fun _ _ _ h => h) (fun _ f h hnone => putSet_pointers f h hnone) (fun _ _ h => h) (.inl rfl)

/-! ## Reading -/

theorem heldSet_safe (h : s.pointers.Held) (hset : s.dfnSet.isSome) :
    Safe s.heldSet fun set => s.spotIndex < set.spots.length ∧ s.spotCount ≤ set.spots.length := by
  obtain ⟨node, hnode⟩ := Option.isSome_iff_exists.mp hset
  obtain ⟨e, he, hen, hindex, hcount⟩ := h.held node hnode
  have he : s.insertDefinitions = some e := he
  simp only [heldSet, hnode, he, hen, if_true]
  exact .pure ⟨hindex, hcount⟩

/-- A pointer into the set the context holds, to one of its spots, can be read. -/
theorem spotAt_safe (h : s.pointers.Held) {q : SpotPointer} (hq : s.dfnSet = some q.node)
    (hindex : q.index = s.spotIndex ∨ q.index < s.spotCount) :
    Safe (s.spotAt q) fun _ => True := by
  obtain ⟨e, he, hen, hlt, hcount⟩ := h.held _ hq
  have he : s.insertDefinitions = some e := he
  have hspot : q.index < e.set.spots.length := by
    rcases hindex with heq | hlt'
    · exact heq ▸ hlt
    · exact hlt'.trans_le hcount
  simp only [spotAt, he, hen, if_true, List.getElem?_eq_getElem hspot]
  exact .pure trivial

theorem readSpot_safe (h : s.pointers.Held) : Safe (s.readSpot s.dfnCurrent) fun _ => True := by
  rcases hq : s.dfnCurrent with _ | q
  · exact .pure trivial
  · obtain ⟨hset, hindex⟩ := h.current q hq
    exact .bind (spotAt_safe h hset (.inl hindex)) fun _ _ => .pure trivial

theorem readHeldSpot_safe (h : s.pointers.Held) (hset : s.dfnSet.isSome) :
    Safe s.readHeldSpot fun _ => True := by
  refine .bind (heldSet_safe h hset) fun set hlen => ?_
  rw [if_pos hlen.1]
  exact .pure trivial

/-- A spot of the set that is held. -/
theorem getSpot_safe (h : s.pointers.Held) {node index : ℕ} (hset : s.dfnSet = some node)
    (hindex : index = s.spotIndex ∨ index < s.spotCount) :
    Safe (s.getSpot index) fun q => q = some ⟨node, index⟩ := by
  refine .bind (heldSet_safe h (Option.isSome_of_eq_some hset)) fun set hlen => .pure ?_
  have hlt : index < set.spots.length := by
    rcases hindex with heq | hlt
    · exact heq ▸ hlen.1
    · exact hlt.trans_le hlen.2
  rw [if_pos hlt, hset]
  rfl

theorem getSpotTime_safe (h : s.pointers.Held) {index : ℕ} (hset : s.dfnSet.isSome)
    (hindex : index = s.spotIndex ∨ index < s.spotCount) :
    Safe (s.getSpotTime index) fun _ => True := by
  refine .bind (heldSet_safe h hset) fun set hlen => ?_
  have hlt : index < set.spotTimes.length := by
    rw [← set.paired]
    rcases hindex with heq | hlt
    · exact heq ▸ hlen.1
    · exact hlt.trans_le hlen.2
  simp only [List.getElem?_eq_getElem hlt]
  exact .pure trivial

/-! ## Events -/

/-- The event reads the spot and no more. -/
theorem sendInsertionStatusEvent_safe (h : s.pointers.Held) :
    Safe s.sendInsertionStatusEvent fun s' =>
      s' = { s with detailCode := .noError, insertionStatusUpdateEmitted := false } :=
  .bind (readSpot_safe h) fun _ _ => .pure rfl

theorem insertionStatusUpdate_safe (h : s.pointers.Held) (detailCode : DetailCode) :
    Safe (s.insertionStatusUpdate detailCode) fun s' =>
      ∃ code emitted, s' = { s with detailCode := code, insertionStatusUpdateEmitted := emitted } := by
  refine .ite (fun _ => ?_) fun _ => .pure ⟨_, _, rfl⟩
  refine .bind (sendInsertionStatusEvent_safe (s := { s with detailCode := detailCode }) h) ?_
  rintro _ rfl
  exact .pure ⟨_, _, rfl⟩

theorem reportStopped_safe (h : s.pointers.Held) :
    Safe s.reportStopped fun s' => s'.toManagerEntries = s.toManagerEntries ∧
      s'.pointers = s.pointers := by
  refine .ite (fun _ => .ite (fun _ => ?_) fun _ => .pure ⟨rfl, rfl⟩) fun _ => ?_
  · refine .mono (sendInsertionStatusEvent_safe
      (s := { s with insertionStartedEmitted := false }) h) ?_
    rintro _ rfl
    exact ⟨rfl, rfl⟩
  · refine .mono (sendInsertionStatusEvent_safe h) ?_
    rintro _ rfl
    exact ⟨rfl, rfl⟩

/-! ## Ending a spot -/

theorem asserted_safe (h : s.pointers.Counted) :
    Safe (s.asserted ManagerEntries.dropReference) fun s' =>
      s' = { s.consult.2 with
        insertDefinitions := s.consult.2.insertDefinitions.bind RegisteredSet.dropped } := by
  refine (asserted_ends s).imp (fun _ h => h) fun _ ⟨e, he, hzero⟩ => ?_
  have hgood := (h.interfered (consult_pointers s)) e he
  exact absurd hgood.referred (by rw [hzero]; exact Nat.lt_irrefl 0)

/-- Dropping a reference leaves good entries only, and the context as it was. -/
theorem asserted_counted (h : s.pointers.Counted) :
    Safe (s.asserted ManagerEntries.dropReference) fun s' =>
      s'.pointers.Counted ∧ s'.toInsertContext = s.toInsertContext := by
  refine (asserted_safe h).mono ?_
  rintro _ rfl
  exact ⟨(h.interfered (consult_pointers s)).dropped, consult_context s⟩

/-- Both references are dropped, and the pointer with them. -/
theorem dropDfnSet_safe (h : s.pointers.Counted) (hcur : s.dfnCurrent = none) :
    Safe s.dropDfnSet fun s' => s'.pointers.Counted ∧ s'.dfnSet = none ∧ s'.dfnCurrent = none ∧
      s'.prefetchPTSNext = s.prefetchPTSNext := by
  refine .bind (asserted_counted h) fun s₁ ⟨h₁, hctx₁⟩ => ?_
  refine .bind (asserted_counted h₁) fun s₂ ⟨h₂, hctx₂⟩ => ?_
  have hctx := hctx₂.trans hctx₁
  have hcur₂ : s₂.dfnCurrent = none := (congrArg (·.dfnCurrent) hctx).trans hcur
  set t : InsertSession := { s₂ with triggerDetectedForOpportunity := false, dfnSet := none }
  have ht : t.pointers.Counted := h₂
  refine .mono (sendInsertionStatusEvent_safe (ht.held rfl hcur₂)) ?_
  rintro _ rfl
  exact ⟨h₂, rfl, hcur₂, congrArg (·.prefetchPTSNext) hctx⟩

/-- What is asked of the nested call: from the next spot of a set that has at most
`n` left, it keeps the pointers sound. -/
def Nested (n : ℕ) (again : ℤ → InsertSession → Except Fault InsertSession) : Prop :=
  ∀ startPTS s, s.pointers.Held → s.insertPending = true → s.dfnSet.isSome →
    s.dfnCurrent = none → s.spotIndex < s.spotCount → s.spotCount ≤ s.spotIndex + n →
    Safe (again startPTS s) fun s' => s'.pointers.Sound n

variable {again : ℤ → InsertSession → Except Fault InsertSession}

/-- The next spot is there, or the set is let go. -/
theorem nextSpot_safe (hagain : Nested n again) (h : s.pointers.Held)
    (hleft : s.pointers.Left (n + 1)) :
    Safe (s.nextSpot again) fun s' =>
      s'.pointers.Held ∧ (s.pointers.NextHeld → s'.pointers.Sound n) := by
  refine .ite (fun hset => .ite (fun hlt => ?_) fun hge => ?_) fun hset => .pure ⟨h, fun hn => ?_⟩
  · -- the next spot: the nested call loads it
    set t : InsertSession :=
      { s with spotIndex := s.spotIndex + 1, dfnCurrent := none, insertPending := true }
    have hctx : t.consult.2.toInsertContext = t.toInsertContext := consult_context t
    have hheld : t.pointers.Held := by
      refine ⟨h.counted, fun node hnode => ?_, fun q hq => by cases hq⟩
      obtain ⟨e, he, hen, _, hcount⟩ := h.held node hnode
      exact ⟨e, he, hen, hlt.trans_le hcount, hcount⟩
    have hsafe := hagain t.consult.1.spliceUpdatedOutPTS t.consult.2
      (hheld.interfered (consult_pointers t)) (congrArg (·.insertPending) hctx)
      ((congrArg (·.dfnSet.isSome) hctx).trans hset) (congrArg (·.dfnCurrent) hctx)
    rw [show t.consult.2.spotIndex = s.spotIndex + 1 from congrArg (·.spotIndex) hctx,
      show t.consult.2.spotCount = s.spotCount from congrArg (·.spotCount) hctx] at hsafe
    have hleft : s.spotCount ≤ s.spotIndex + (n + 1) := hleft hset
    have hleft : s.spotCount ≤ s.spotIndex + 1 + n := by omega
    exact (hsafe hlt hleft).mono fun _ hs' => ⟨hs'.toHeld, fun _ => hs'⟩
  · -- the last spot is done
    refine .mono (dropDfnSet_safe
      (s := { s with spotIndex := s.spotIndex + 1, dfnCurrent := none }) h.counted rfl) ?_
    rintro s' ⟨hcounted, hnone, hcur, hpre⟩
    refine ⟨hcounted.held hnone hcur, fun hn => hcounted.sound hnone hcur ?_⟩
    by_contra hne
    obtain ⟨_, _, _, _, hlt⟩ := hn fun heq => hne (hpre.trans heq)
    exact hge hlt
  · refine ⟨h, hn, fun hsome => absurd hsome hset⟩

theorem insertionStopped_safe (hagain : Nested n again) (h : s.pointers.Held)
    (hleft : s.pointers.Left (n + 1)) :
    Safe (s.insertionStopped again) fun s' =>
      s'.pointers.Held ∧ (s.pointers.NextHeld → s'.pointers.Sound n) := by
  have hlog : Safe s.logStopped fun _ => True :=
    .ite (fun hset => readHeldSpot_safe h hset) fun _ => .pure trivial
  refine .bind hlog fun _ _ => .bind (reportStopped_safe h) fun s₁ ⟨_, hs₁⟩ => ?_
  have hp : s₁.clearInsertion.pointers = s.pointers := hs₁
  rw [← hp] at h hleft ⊢
  exact nextSpot_safe hagain h hleft

theorem termInsertionSpot_safe (hagain : Nested n again) (h : s.pointers.Held)
    (hleft : s.pointers.Left (n + 1)) :
    Safe (s.termInsertionSpot again) fun s' =>
      s'.pointers.Held ∧ (s.pointers.NextHeld → s'.pointers.Sound (n + 1)) := by
  have hstop := (insertionStopped_safe hagain h hleft).mono fun s' hs' =>
    And.imp_right (fun hs hn => (hs hn).mono (Nat.le_succ n)) hs'
  exact .ite (fun _ => hstop) fun _ => .ite (fun _ => hstop) fun _ =>
    .pure ⟨h, fun hn => ⟨h, hn, hleft⟩⟩

theorem stopInsertion_sound (hagain : Nested n again) (h : s.pointers.Sound (n + 1)) :
    Safe (s.stopInsertion again) fun s' => s'.pointers.Sound (n + 1) :=
  (insertionStopped_safe hagain h.toHeld h.left).mono fun _ hs' =>
    (hs'.2 h.next).mono (Nat.le_succ n)

theorem endBadSpot_sound (hagain : Nested n again) (h : s.pointers.Sound (n + 1)) :
    Safe (s.endBadSpot again) fun s' => s'.pointers.Sound (n + 1) :=
  .ite (fun _ => (termInsertionSpot_safe hagain h.toHeld h.left).mono fun _ hs' => hs'.2 h.next)
    fun _ => .pure h

/-! ## The stages -/

/-- Nothing is pending any more, or the set is the same. -/
theorem ageOpportunity_safe (h : s.pointers.Entering n) (hpend : s.insertPending = true) :
    Safe s.ageOpportunity fun s' => s'.pointers.Entering n ∧
      (s'.insertPending = true ∧ s'.dfnSet = s.dfnSet ∨
        s'.insertPending = false ∧ s'.pointers.Sound n) := by
  have hctx := consult_context s
  have h₁ := h.interfered (consult_pointers s)
  have hage := ManagerEntries.ageInsertOpportunities_insertDefinitions
    s.consult.2.toManagerEntries s.consult.1.utcTimeCurrent
  set t : InsertSession := { s.consult.2 with
    toManagerEntries := (s.consult.2.ageInsertOpportunities s.consult.1.utcTimeCurrent).2 }
  have ht : t.pointers = s.consult.2.pointers := by
    unfold InsertSession.pointers
    rw [show t.insertDefinitions = s.consult.2.insertDefinitions from hage]
  rw [← ht] at h₁
  refine .ite (fun hdrop => ?_) fun _ => .pure ⟨h₁, .inl ⟨?_, congrArg (·.dfnSet) hctx⟩⟩
  · -- given up: there is no set, so nothing is held
    have hset : t.dfnSet = none := hdrop.2
    have hsound := h₁.sound hset
    refine .bind (sendInsertionStatusEvent_safe
      (s := { t with insertPending := false, detailCode := .responseTimeout }) hsound.toHeld) ?_
    rintro _ rfl
    refine .bind (asserted_counted h₁.counted) fun s₂ ⟨hcounted, hctx₂⟩ => .pure ?_
    have hs₂ : s₂.pointers.Sound n :=
      hcounted.sound ((congrArg (·.dfnSet) hctx₂).trans hset)
        ((congrArg (·.dfnCurrent) hctx₂).trans (hsound.current_none hset))
        ((congrArg (·.prefetchPTSNext) hctx₂).trans (hsound.prefetch_none hset))
    exact ⟨hs₂.entering, .inr ⟨congrArg (·.insertPending) hctx₂, hs₂⟩⟩
  · exact (congrArg (·.insertPending) hctx).trans hpend

/-- A set is taken with its reference. -/
theorem takeDfnSet_sound {e : RegisteredSet} (he : s.insertDefinitions = some e) (hgood : e.Good)
    (hcur : s.dfnCurrent = none) (hnext : s.prefetchPTSNext = -1) :
    (s.takeDfnSet e).pointers.Sound maxSpots := by
  set t : InsertSession := mark (.adopted e.set.origin s.pendingTrigger)
    { s with dfnSet := some e.node, heldFor := some e.set.origin }
  have hi : t.consult.2.pointers = t.pointers := (consult_pointers t).of_some he
  -- the entry is there, so the handler leaves it alone
  have hp : (s.takeDfnSet e).pointers =
      { t.pointers with spotIndex := 0, spotCount := e.set.spots.length } := by
    rw [← hi]
    rfl
  rw [hp]
  refine ⟨⟨fun e' he' => ?_, fun node hnode => ⟨e, he, ?_, hgood.nonempty, Nat.le_refl _⟩,
    fun q hq => ?_⟩, fun hne => absurd hnext hne, fun _ => ?_⟩
  · obtain rfl := Option.some.inj (he.symm.trans he')
    exact hgood
  · exact Option.some.inj hnode
  · rw [show t.pointers.dfnCurrent = none from hcur] at hq
    cases hq
  · rw [Nat.zero_add]
    exact hgood.fits

/-- With a new set, all its spots are left. -/
theorem adoptDfnSet_entering (h : s.pointers.Entering n) (hfit : s.dfnSet = none → maxSpots ≤ n) :
    s.adoptDfnSet.pointers.Entering n := by
  unfold adoptDfnSet
  split_ifs with hset
  · have h₁ := h.interfered (consult_pointers s)
    have hctx := consult_context s
    have hset₁ : s.consult.2.dfnSet = none := (congrArg (·.dfnSet) hctx).trans hset
    generalize s.consult = c at h₁ hset₁
    obtain ⟨tick, t⟩ := c
    have hsound := h₁.sound hset₁
    rcases he : t.insertDefinitions with _ | e
    · simp only [ManagerEntries.getInsertDefinitionSet, he]
      exact h₁
    · have hgood := h₁.counted e he
      simp only [ManagerEntries.getInsertDefinitionSet, he]
      set e' : RegisteredSet := { e with set := { e.set with refCount := e.set.refCount + 1 } }
      have hgood' : e'.Good := ⟨Nat.succ_pos _, hgood.nonempty, hgood.fits⟩
      refine Sound.entering (Sound.mono (takeDfnSet_sound ?_ hgood' ?_ ?_) (hfit hset))
      · rfl
      · exact hsound.current_none hset₁
      · exact hsound.prefetch_none hset₁
  · exact h

/-- The current spot gets its times, and no pointer moves. -/
theorem loadTimes_safe (h : s.pointers.Held) (startPTS : ℤ) :
    Safe (s.loadTimes startPTS) fun s' => s'.pointers = s.pointers := by
  unfold loadTimes
  rcases hq : s.dfnCurrent with _ | q
  · exact .pure rfl
  · obtain ⟨hset, hindex⟩ := h.current q hq
    exact .bind (getSpotTime_safe h (Option.isSome_of_eq_some hset) (.inl rfl)) fun _ _ =>
      .bind (spotAt_safe h hset (.inl hindex)) fun _ _ => .pure (by rw [← hq]; rfl)

theorem loadNext_sound (h : s.pointers.Sound n) (hset : s.dfnSet.isSome)
    (hpre : s.prefetchPTSNext = -1) :
    Safe s.loadNext fun s' => s'.pointers.Sound n := by
  obtain ⟨node, hnode⟩ := Option.isSome_iff_exists.mp hset
  refine .ite (fun hlt => .bind (getSpot_safe h.toHeld hnode (.inr hlt)) ?_) fun _ => .pure h
  rintro _ rfl
  -- the pointer is set, the prefetch is not due yet
  set t : InsertSession := { s with dfnNext := some ⟨node, s.spotIndex + 1⟩ }
  have ht : t.pointers.Sound n := ⟨⟨h.counted, h.held, h.current⟩, fun hne => absurd hpre hne, h.left⟩
  refine .bind (spotAt_safe ht.toHeld hnode (.inr hlt)) fun spot _ => ?_
  refine .ite (fun _ => ?_) fun _ => .pure ht
  refine .bind (getSpotTime_safe ht.toHeld hset (.inr hlt)) fun tiNext _ => ?_
  refine .ite (fun _ => .pure ?_) fun _ => .pure ?_
  · exact ⟨⟨h.counted, h.held, h.current⟩, fun _ => ⟨_, rfl, hnode, rfl, hlt⟩, h.left⟩
  · exact ⟨⟨h.counted, h.held, h.current⟩, fun hne => absurd rfl hne, h.left⟩

/-- The spot at the index becomes the current one. -/
theorem loadSpot_sound (h : s.pointers.Entering n) (hset : s.dfnSet.isSome) (startPTS : ℤ) :
    Safe (s.loadSpot startPTS) fun s' => s'.pointers.Sound n := by
  refine .ite (fun hcur => ?_) fun hcur => .pure ⟨h.toHeld, ?_, h.left⟩
  · obtain ⟨node, hnode⟩ := Option.isSome_iff_exists.mp hset
    set t : InsertSession := { s with dfnNext := none, prefetchPTSNext := -1 }
    have ht : t.pointers.Held := ⟨h.counted, h.held, h.current⟩
    refine .bind (getSpot_safe ht hnode (.inl rfl)) ?_
    rintro _ rfl
    set u : InsertSession := { t with dfnCurrent := some ⟨node, s.spotIndex⟩ }
    have hu : u.pointers.Sound n := by
      refine ⟨⟨h.counted, h.held, fun q hq => ?_⟩, fun hne => absurd rfl hne, h.left⟩
      cases hq
      exact ⟨hnode, rfl⟩
    refine .bind (loadTimes_safe hu.toHeld startPTS) fun v hv => ?_
    exact loadNext_sound (hv ▸ hu) ((congrArg (·.dfnSet.isSome) hv).trans hset)
      (congrArg (·.prefetchPTSNext) hv)
  · rcases h.next with hnext | ⟨_, hnone⟩
    · exact hnext
    · exact absurd hnone hcur

theorem reportSpot_safe (h : s.pointers.Held) (spot : InsertDefinition) :
    Safe (s.reportSpot spot) fun s' => s'.pointers = s.pointers := by
  refine .ite (fun _ => .pure ?_) fun _ => .ite (fun _ => .ite (fun _ => ?_) fun _ => .pure rfl)
    fun _ => .pure rfl
  · split_ifs
    · rfl
    · rfl
  · refine (insertionStatusUpdate_safe h _).mono ?_
    rintro _ ⟨code, emitted, rfl⟩
    rfl

theorem openSource_sound (hagain : Nested n again) (h : s.pointers.Sound (n + 1))
    (spot : InsertDefinition) :
    Safe (s.openSource again spot) fun s' => s'.pointers.Sound (n + 1) := by
  unfold openSource
  split_ifs
  · exact endBadSpot_sound hagain h
  · exact endBadSpot_sound hagain (h.interfered (consult_pointers s))

theorem missPrefetch_sound (hagain : Nested n again) (h : s.pointers.Sound (n + 1))
    (spot : InsertDefinition) :
    Safe (s.missPrefetch again spot) fun s' => s'.pointers.Sound (n + 1) := by
  have h₁ := h.interfered (consult_pointers s)
  refine .ite (fun _ => .pure ?_) fun _ => .ite (fun _ => ?_) fun _ => .pure h₁
  · split_ifs
    · exact h
    · exact h
  · exact stopInsertion_sound hagain h₁

/-- A source is opened, or its spot is missed and the next one begun. -/
theorem fetchSource_sound (hagain : Nested n again) (h : s.pointers.Sound (n + 1)) :
    Safe (s.fetchSource again) fun s' => s'.pointers.Sound (n + 1) := by
  unfold fetchSource
  rcases hq : s.dfnCurrent with _ | q
  · exact .pure h
  · refine .ite (fun _ => ?_) fun _ => .pure h
    have h₁ := h.interfered (consult_pointers s)
    have hq₁ : s.consult.2.dfnCurrent = some q :=
      (congrArg (·.dfnCurrent) (consult_context s)).trans hq
    obtain ⟨hset, hindex⟩ := h₁.current q hq₁
    refine .bind (spotAt_safe h₁.toHeld hset (.inl hindex)) fun spot _ => ?_
    refine .bind (reportSpot_safe h₁.toHeld spot) fun s₂ hs₂ => ?_
    rw [← hs₂] at h₁
    exact .ite (fun _ => openSource_sound hagain h₁ spot) fun _ =>
      missPrefetch_sound hagain h₁ spot

theorem startReplacement_sound (h : s.pointers.Sound n) :
    Safe s.startReplacement fun s' => s'.pointers.Sound n := by
  have h₁ := h.interfered (consult_pointers s)
  unfold startReplacement
  generalize s.consult = c at h₁
  obtain ⟨tick, t⟩ := c
  have hreport : Safe (if tick.audioUnmatched
      then t.insertionStatusUpdate .matchingAudioAssetNotFound else .ok t)
      fun s' => s'.pointers.Sound n := by
    refine .ite (fun _ => ?_) fun _ => .pure h₁
    refine (insertionStatusUpdate_safe h₁.toHeld _).mono ?_
    rintro _ ⟨code, emitted, rfl⟩
    exact h₁
  exact .bind hreport fun _ hs => .ite (fun _ => .pure hs) fun _ => .pure hs

/-- No pointer of the session moves when a spot begins. -/
theorem startSpot_sound (h : s.pointers.Sound n) :
    Safe s.startSpot fun s' => s'.pointers.Sound n := by
  have h₁ := h.interfered (consult_pointers s)
  refine .ite (fun _ => .ite (fun _ => ?_) fun _ => .pure h₁) fun _ => ?_
  · exact startReplacement_sound (s := { s.consult.2 with insertPending := false }) h₁
  · rcases hq : s.dfnCurrent with _ | q
    · exact .pure h
    · obtain ⟨hset, hindex⟩ := h.current q hq
      refine .ite (fun _ => .pure h) fun _ => ?_
      refine .bind (spotAt_safe h.toHeld hset (.inl hindex)) fun spot _ => ?_
      refine .ite (fun _ => .pure ?_) fun _ => .pure ?_
      · split_ifs
        · exact h
        · exact h
      · rw [← hq]
        exact h

theorem prefetchNext_sound (h : s.pointers.Sound n) :
    Safe s.prefetchNext fun s' => s'.pointers.Sound n := by
  refine .ite (fun hne => ?_) fun _ => .pure h
  have h₁ := h.interfered (consult_pointers s)
  have hne₁ := (congrArg (·.prefetchPTSNext) (consult_context s)).trans_ne hne
  generalize s.consult = c at h₁ hne₁
  obtain ⟨tick, t⟩ := c
  obtain ⟨q, hq, hset, hindex, hlt⟩ := h₁.next hne₁
  have hq : t.dfnNext = some q := hq
  refine .ite (fun _ => ?_) fun _ => .pure h₁
  simp only [hq]
  refine .bind (spotAt_safe h₁.toHeld hset (.inr (hindex ▸ hlt))) fun spot _ => .pure ?_
  exact ⟨⟨h₁.counted, h₁.held, h₁.current⟩, fun hne => absurd rfl hne, h₁.left⟩

/-- The stages of an opportunity, in their order. -/
theorem updatePending_sound (hagain : Nested n again) (h : s.pointers.Entering (n + 1))
    (hfit : s.dfnSet = none → maxSpots ≤ n + 1) (hpend : s.insertPending = true)
    (startPTS : ℤ) :
    Safe (s.updatePending again startPTS) fun s' => s'.pointers.Sound (n + 1) := by
  refine .bind (ageOpportunity_safe h hpend) fun s₁ ⟨h₁, hcase⟩ => ?_
  refine .ite (fun hpend₁ => ?_) fun hnot => .pure ?_
  · have hfit₁ : s₁.dfnSet = none → maxSpots ≤ n + 1 := by
      rcases hcase with ⟨_, hset⟩ | ⟨hfalse, _⟩
      · rw [hset]
        exact hfit
      · rw [hfalse] at hpend₁
        cases hpend₁
    have h₂ := adoptDfnSet_entering h₁ hfit₁
    refine .bind (Q := fun s' : InsertSession => s'.pointers.Sound (n + 1)) ?_
      fun s₃ hs₃ => startSpot_sound hs₃
    refine .ite (fun hset => ?_) fun hset => .pure ?_
    · exact .bind (loadSpot_sound h₂ hset startPTS) fun s₃ hs₃ => fetchSource_sound hagain hs₃
    · exact h₂.sound (Option.not_isSome_iff_eq_none.mp hset)
  · rcases hcase with ⟨hpend₁, _⟩ | ⟨_, hs₁⟩
    · exact absurd hpend₁ hnot
    · exact hs₁

theorem updateWith_sound (hagain : Nested n again) (h : s.pointers.Entering (n + 1))
    (hfit : s.dfnSet = none → maxSpots ≤ n + 1)
    (hpend : s.insertPending = true ∨ s.pointers.Sound (n + 1)) (startPTS : ℤ) :
    Safe (s.updateWith again startPTS) fun s' => s'.pointers.Sound (n + 1) := by
  refine .bind (Q := fun s' : InsertSession => s'.pointers.Sound (n + 1)) ?_ fun s₁ h₁ =>
    .bind (endBadSpot_sound hagain h₁) fun s₂ h₂ => prefetchNext_sound h₂
  refine .ite (fun hp => updatePending_sound hagain h hfit hp startPTS) fun hp => .pure ?_
  exact hpend.resolve_left hp

/-- **The nested calls.** They are as deep as there are spots left. -/
theorem updateWithin_nested : ∀ n, Nested n (updateWithin n) := by
  intro n
  induction n with
  | zero =>
    intro startPTS s _ _ _ _ hlt hle
    exact absurd hle (Nat.not_le.mpr hlt)
  | succ n ih =>
    intro startPTS s hheld hpend hset hcur _ hle
    exact updateWith_sound ih ⟨hheld, fun _ => hle, .inr ⟨hset, hcur⟩⟩
      (fun hnone => absurd hset (by rw [hnone]; exact Bool.false_ne_true)) (.inl hpend) startPTS

/-- **`updateInsertionState`** keeps the pointers sound and reads none that dangles. -/
theorem updateInsertionState_sound (h : s.pointers.Sound (maxSpots + 1)) (startPTS : ℤ) :
    Safe (updateInsertionState startPTS s) fun s' => s'.pointers.Sound (maxSpots + 1) :=
  updateWith_sound (updateWithin_nested maxSpots) h.entering (fun _ => Nat.le_succ maxSpots)
    (.inr h) startPTS

/-! ## The calls -/

theorem triggerDetected_sound (h : s.pointers.Sound n) (t : PendingOpportunity) :
    Safe (s.triggerDetected t) fun r => r.2.pointers.Sound n := by
  refine .ite (fun _ => ?_) fun _ => .pure h
  have h₁ := h.interfered (consult_pointers s)
  generalize s.consult = c at h₁
  obtain ⟨tick, u⟩ := c
  simp only [ManagerEntries.registerInsertOpportunity]
  rcases u.pendingOpportunity with _ | pending
  · split_ifs
    · exact .pure h₁
    · refine .bind (insertionStatusUpdate_safe h₁.toHeld _) ?_
      rintro _ ⟨code, emitted, rfl⟩
      exact .pure h₁
  · exact .pure h₁

theorem signalDetected_sound (h : s.pointers.Sound n) (t : PendingOpportunity) :
    Safe (s.signalDetected t) fun s' => s'.pointers.Sound n := by
  refine .ite (fun _ => .pure h) fun _ => ?_
  refine .bind (triggerDetected_sound
    (s := { s with triggerDetectedForOpportunity := true }) h t) fun r hr => .pure ?_
  split_ifs
  · exact hr
  · exact hr

/-- Tuning out drops the map's reference; the context's keeps the entry. -/
theorem sendTuneOutEvent_sound (h : s.pointers.Sound n) (hlast : ¬s.pointers.LastReference) :
    Safe s.sendTuneOutEvent fun s' => s'.pointers.Sound n := by
  set t := s.managed ManagerEntries.unregisterInsertOpportunity
  have hi : s.pointers.Interfered t.pointers := consult_pointers s
  have ht := h.interfered hi
  have htlast : ¬t.pointers.LastReference := fun h' => hlast (h'.of_interfered h.toHeld hi)
  have hi' := consult_pointers t
  refine .bind (asserted_safe ht.counted) ?_
  rintro _ rfl
  exact .pure ((ht.interfered hi').dropped fun h' => htlast (h'.of_interfered ht.toHeld hi'))

theorem setSourceURI_sound (h : s.pointers.Sound n)
    (hlast : s.tuneInEmitted = true → ¬s.pointers.LastReference) :
    Safe s.setSourceURI fun s' => s'.pointers.Sound n := by
  refine .bind (Q := fun s' : InsertSession => s'.pointers.Sound n) ?_ fun _ hs => .pure hs
  exact .ite (fun htune => sendTuneOutEvent_sound h (hlast htune)) fun _ => .pure h

/-- With a spot count of zero no spot follows, and the set is let go. -/
theorem termInsertionAll_sound (h : s.pointers.Sound (maxSpots + 1)) :
    Safe s.termInsertionAll fun s' => s'.pointers.Sound (maxSpots + 1) ∧ s'.dfnSet = none := by
  set t : InsertSession := { s with spotCount := 0 }
  have ht : t.pointers.Held := by
    refine ⟨h.counted, fun node hnode => ?_, h.current⟩
    obtain ⟨e, he, hen, hlt, _⟩ := h.held node hnode
    exact ⟨e, he, hen, hlt, Nat.zero_le _⟩
  refine .bind (termInsertionSpot_safe (updateWithin_nested _) ht fun _ => Nat.zero_le _)
    fun s' hs' => .pure ⟨?_, rfl⟩
  exact Counted.sound hs'.1.counted rfl rfl rfl

theorem releaseContext_sound (h : s.pointers.Sound (maxSpots + 1)) :
    Safe s.releaseContext fun s' => s'.pointers.Sound (maxSpots + 1) := by
  refine .bind (termInsertionAll_sound (s := { s with isOpen := false }) h) fun s' ⟨hs', hset⟩ => ?_
  refine .ite (fun _ => sendTuneOutEvent_sound hs' fun hlast => ?_) fun _ => .pure hs'
  rw [LastReference, show s'.pointers.dfnSet = none from hset] at hlast
  cases hlast.1

/-- An insertion may start when nothing is held any more. -/
theorem insertionStarted_sound (h : s.pointers.Sound n) :
    Ends s.insertionStarted (fun s' => s'.pointers.Sound n) fun fault => fault = .nullPointer := by
  rcases hset : s.dfnSet with _ | node
  · -- nothing is held: the pointer is null
    simp only [insertionStarted, readHeldSpot, heldSet, hset]
    exact .error rfl
  · have hread := readHeldSpot_safe h.toHeld (Option.isSome_of_eq_some hset)
    refine .imp (E := fun _ => False) ?_ (fun _ hs => hs) fun _ hf => hf.elim
    refine .bind hread fun _ _ => .bind (sendInsertionStatusEvent_safe h.toHeld) ?_
    rintro _ rfl
    exact .pure h

theorem sourceFailed_pointers (detailCode : DetailCode) (current : Bool) :
    (s.sourceFailed detailCode current).pointers = s.pointers := by
  unfold sourceFailed
  split_ifs
  · rfl
  · rfl
  · rfl

/-! ## Runs -/

/-- The event does not tune out while the context's reference to its set is the
only one. -/
def KeepsReference (s : InsertSession) : Event → Prop
  | .call .setSourceURI _ => s.tuneInEmitted = true → ¬s.pointers.LastReference
  | _ => True

instance (s : InsertSession) (e : Event) : Decidable (s.KeepsReference e) := by
  unfold KeepsReference
  split <;> infer_instance

/-- **The call lemma.** A call that keeps the context's reference keeps its
pointers sound, and what it may read through is at worst null. -/
theorem call_sound (h : s.pointers.Sound (maxSpots + 1)) {c : Call} {schedule : ℕ → Tick}
    (hkeep : s.KeepsReference (.call c schedule)) :
    Ends ((s.enter schedule).call c) (fun s' => s'.pointers.Sound (maxSpots + 1))
      fun fault => fault = .nullPointer := by
  have safe : ∀ {x : Except Fault InsertSession},
      (Safe x fun s' => s'.pointers.Sound (maxSpots + 1)) →
      Ends x (fun s' => s'.pointers.Sound (maxSpots + 1)) fun fault => fault = .nullPointer :=
    fun hx => hx.imp (fun _ hs => hs) fun _ hf => hf.elim
  set t := s.enter schedule
  have ht : t.pointers.Sound (maxSpots + 1) := h
  cases c with
  | processPackets =>
    exact safe (updateInsertionState_sound (s := { t with tuneInEmitted := true }) ht (-1))
  | triggerDetected o =>
    exact safe (.bind (triggerDetected_sound ht o) fun _ hr => .pure hr)
  | signalDetected o => exact safe (signalDetected_sound ht o)
  | insertionStarted => exact insertionStarted_sound ht
  | insertionStatusUpdate detailCode =>
    refine safe ((insertionStatusUpdate_safe ht.toHeld detailCode).mono ?_)
    rintro _ ⟨code, emitted, rfl⟩
    exact ht
  | insertionError detailCode => exact .pure ht
  | stopInsertion =>
    exact safe ((insertionStopped_safe (updateWithin_nested _) ht.toHeld
      (ht.mono (Nat.le_succ _)).left).mono fun _ hs => hs.2 ht.next)
  | httpTimeoutError current | tsFormatError current | sourceError current =>
    exact .pure ((sourceFailed_pointers _ current).symm ▸ ht)
  | setSourceURI => exact safe (setSourceURI_sound ht hkeep)
  | releaseContext => exact safe (releaseContext_sound ht)

/-- The nested calls are enough. -/
theorem call_ne_outOfFuel (h : s.pointers.Sound (maxSpots + 1)) {c : Call} {schedule : ℕ → Tick}
    (hkeep : s.KeepsReference (.call c schedule)) :
    (s.enter schedule).call c ≠ .error .outOfFuel := by
  intro hf
  cases (call_sound h hkeep).of_error hf

/-- Where nothing has been held yet. -/
theorem new_sound (definitionRequestTimeout spliceTimeout : ℤ) :
    (InsertSession.new definitionRequestTimeout spliceTimeout).pointers.Sound n :=
  Counted.sound (fun _ he => by cases he) rfl rfl rfl

/-- **The step lemma.** -/
theorem step_sound {s' : InsertSession} {e : Event} (h : s.pointers.Sound (maxSpots + 1))
    (hkeep : s.KeepsReference e) (hstep : s.step e = some s') :
    s'.pointers.Sound (maxSpots + 1) := by
  cases e with
  | call c schedule =>
    simp only [step] at hstep
    split_ifs at hstep with hopen
    rcases hcall : (s.enter schedule).call c with fault | t
    · rw [hcall] at hstep
      cases hstep
    · rw [hcall] at hstep
      obtain rfl : t = s' := Option.some.inj hstep
      exact (call_sound h hkeep).of_ok hcall
  | handler hs =>
    obtain rfl : s.handlerStep hs = s' := Option.some.inj hstep
    exact h.interfered (handlerStep_pointers s hs)

/-- `m_dfnSet` points into an entry of the manager's that is referred to. -/
def HoldsEntry (s : InsertSession) : Prop :=
  ∀ node ∈ s.dfnSet, ∃ e ∈ s.insertDefinitions, e.node = node ∧ 1 ≤ e.set.refCount

instance (s : InsertSession) : Decidable s.HoldsEntry := by
  unfold HoldsEntry
  infer_instance

/-- **No dangling set.** In a run in which `setSourceURI` never tunes out while the
context's reference to its set is the only one, the set the context holds is an
entry of the manager's in every state reached, and no call from there reads
through a dangling pointer or fails an assertion. -/
theorem heldSet_registered {definitionRequestTimeout spliceTimeout : ℤ} {es : List Event}
    (hkeep : EachStep step KeepsReference (.new definitionRequestTimeout spliceTimeout) es)
    (hrun : run definitionRequestTimeout spliceTimeout es = some s) :
    s.HoldsEntry ∧ ∀ c schedule, s.KeepsReference (.call c schedule) →
      (s.enter schedule).call c ≠ .error .danglingSet ∧
      (s.enter schedule).call c ≠ .error .assertion := by
  have h : s.pointers.Sound (maxSpots + 1) :=
    EachStep.invariant (I := fun s => s.pointers.Sound (maxSpots + 1))
      (fun _ _ _ h hP hs => step_sound h hP hs) hkeep (new_sound _ _) hrun
  refine ⟨fun node hnode => ?_, fun c schedule hc => ⟨fun hf => ?_, fun hf => ?_⟩⟩
  · obtain ⟨e, he, hen, _⟩ := h.held node hnode
    exact ⟨e, he, hen, (h.counted e he).referred⟩
  · cases (call_sound h hc).of_error hf
  · cases (call_sound h hc).of_error hf

/-! ### A channel changed twice while a spot runs -/

/-- A fixed spot of half a minute. -/
def fixedSpot : InsertDefinition where
  replace := false
  validSpot := true
  duration := 30000
  spotDetailCode := .noError

/-- The answer with one fixed spot. -/
def oneFixedSpot : DefineSpotsArgs where
  utcTimeStart := 0
  spots := [fixedSpot]
  fits := by decide

/-- An opportunity four seconds ahead. -/
def firstOpportunity : PendingOpportunity where
  utcTrigger := 1000
  utcSplice := 5000
  splicePTS := 1000000

/-- The trigger, its answer, the set taken and its spot begun; then a change of the
channel. -/
def spotThenTuneOut : List Event :=
  [.call (.signalDetected firstOpportunity) fun _ => .quiet,
    .handler (.find 1 oneFixedSpot 2000),
    .handler (.register 0),
    .call .processPackets fun _ => .quiet,
    .call .setSourceURI fun _ => .quiet]

theorem heldSet_registered_tuneOut :
    ∃ s, run 5000 15000 spotThenTuneOut = some s ∧ s.dfnSet = some 0 ∧ s.HoldsEntry := by
  have hkeep : EachStep step KeepsReference (.new 5000 15000) spotThenTuneOut := by
    decide +kernel
  have hset : (run 5000 15000 spotThenTuneOut).any fun s => decide (s.dfnSet = some 0) := by
    decide +kernel
  obtain ⟨s, hrun, hs⟩ := (Option.any_eq_true _ _).mp hset
  exact ⟨s, hrun, of_decide_eq_true hs, (heldSet_registered hkeep hrun).1⟩

/-- The channel is changed once more: the entry is erased under the context, and
the end of the spot reads it. -/
theorem secondTuneOut_erases :
    ∃ es s, run 5000 15000 es = some s ∧ ¬s.HoldsEntry ∧
      (s.enter fun _ => .quiet).call .stopInsertion = .error .danglingSet := by
  have hrun : (run 5000 15000 (spotThenTuneOut ++
      [.call .processPackets fun _ => .quiet, .call .setSourceURI fun _ => .quiet])).any
      fun s => decide (¬s.HoldsEntry) &&
        match (s.enter fun _ => .quiet).call .stopInsertion with
        | .error fault => decide (fault = .danglingSet)
        | .ok _ => false := by
    decide +kernel
  obtain ⟨s, hrun, hs⟩ := (Option.any_eq_true _ _).mp hrun
  rw [Bool.and_eq_true] at hs
  refine ⟨_, s, hrun, of_decide_eq_true hs.1, ?_⟩
  rcases hcall : (s.enter fun _ => .quiet).call .stopInsertion with fault | t
  · have hs := hs.2
    rw [hcall] at hs
    rw [of_decide_eq_true hs]
  · have hs := hs.2
    rw [hcall] at hs
    cases hs

end InsertSession

end MediaFramework
