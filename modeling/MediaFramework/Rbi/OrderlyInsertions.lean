import MediaFramework.Rbi.Custody
import MediaFramework.Rbi.HeldDefinitions

/-!
# Whole runs of a session

The calls of a session make the moves of its custody. From that, for every run:
what an idle context holds, which opportunity a set that is taken was built from,
and whose spots are started. Each result is about runs without the disorder that
breaks it, and a run with the disorder follows it.
-/

namespace MediaFramework

namespace InsertSession

open Custody

variable {strict b : Bool} {s : InsertSession}

/-! ## The handler in between -/

theorem pendingTrigger_eq_some {o : Origin} (h : s.pendingTrigger = some o) :
    s.insertPending = true ∧ s.trigger = some o := by
  unfold pendingTrigger at h
  split_ifs at h with hpend
  exact ⟨hpend, h⟩

theorem putSet_kept (h : s.custody.Kept strict b) (f : FoundOpportunity) :
    (s.putSet f).custody.Kept strict b :=
  h.put f.refCount_definitionSet f.origin_definitionSet pendingTrigger_eq_some

theorem handlerStep_kept (h : s.custody.Kept strict b) (step : HandlerStep) :
    (s.handlerStep step).custody.Kept strict b :=
  handlerStep_induction (I := fun t => t.custody.Kept strict b)
    (fun _ _ _ h => h) (fun _ f h _ => putSet_kept h f) h step

theorem consult_kept (h : s.custody.Kept strict b) : s.consult.2.custody.Kept strict b :=
  consult_induction (I := fun t => t.custody.Kept strict b)
    (fun _ _ _ h => h) (fun _ f h _ => putSet_kept h f) (fun _ _ h => h) h

/-- A context that is about to start its spot is pending no more, and the handler
finds it so. -/
theorem consult_starting (h : Kept strict b { s.custody with insertPending := true }) :
    Kept strict b { s.consult.2.custody with insertPending := true } :=
  consult_induction (I := fun t => Kept strict b { t.custody with insertPending := true })
    (fun _ _ _ h => h)
    (fun _ f h _ => h.put f.refCount_definitionSet f.origin_definitionSet fun hp =>
      ⟨rfl, (pendingTrigger_eq_some hp).2⟩)
    (fun _ _ h => h) h

theorem consult_ending {k : ℕ} (h : s.custody.Ending strict b (k + 1)) :
    s.consult.2.custody.Ending strict b (k + 1) :=
  consult_induction (I := fun t => t.custody.Ending strict b (k + 1))
    (fun _ _ _ h => h) (fun _ f h _ => h.put f.refCount_definitionSet) (fun _ _ h => h) h

/-- The result of a call, where it gives one, keeps custody orderly. -/
abbrev Keeps (strict b : Bool) (x : Except Fault InsertSession) : Prop :=
  Ends x (fun s' => s'.custody.Kept strict b) fun _ => True

theorem asserted_ending {k : ℕ} (h : s.custody.Ending strict b (k + 1)) :
    Ends (s.asserted ManagerEntries.dropReference)
      (fun s' => s'.custody.Ending strict b k ∧ s'.toInsertContext = s.toInsertContext)
      fun _ => True := by
  refine (asserted_ends s).imp ?_ fun _ _ => trivial
  rintro _ rfl
  exact ⟨(consult_ending h).dropped, consult_context s⟩

theorem asserted_kept (h : s.custody.Kept strict b) :
    Keeps strict b (s.asserted ManagerEntries.dropReference) := by
  refine (asserted_ends s).imp ?_ fun _ _ => trivial
  rintro _ rfl
  exact (consult_kept h).dropped

/-! ## What leaves custody alone -/

/-- The result of a call, where it gives one, has the custody of `s`. -/
abbrev Leaves (s : InsertSession) (x : Except Fault InsertSession) : Prop :=
  Ends x (fun s' => s'.custody = s.custody) fun _ => True

theorem Leaves.keeps {x : Except Fault InsertSession} (hx : Leaves s x)
    (h : s.custody.Kept strict b) : Keeps strict b x :=
  hx.mono fun _ hs => hs ▸ h

theorem ends_true {α : Type} (x : Except Fault α) : Ends x (fun _ => True) fun _ => True := by
  cases x with
  | ok a => exact .pure trivial
  | error e => exact .error trivial

theorem sendInsertionStatusEvent_leaves (s : InsertSession) :
    Leaves s s.sendInsertionStatusEvent :=
  .bind (ends_true _) fun _ _ => .pure rfl

theorem insertionStatusUpdate_leaves (s : InsertSession) (detailCode : DetailCode) :
    Leaves s (s.insertionStatusUpdate detailCode) :=
  .ite (fun _ => .bind (sendInsertionStatusEvent_leaves { s with detailCode := detailCode })
    fun _ hs => .pure hs) fun _ => .pure rfl

theorem insertionStarted_leaves (s : InsertSession) : Leaves s s.insertionStarted :=
  .bind (ends_true _) fun _ _ => .bind (sendInsertionStatusEvent_leaves s) fun _ hs => .pure hs

theorem sourceFailed_custody (s : InsertSession) (detailCode : DetailCode) (current : Bool) :
    (s.sourceFailed detailCode current).custody = s.custody := by
  unfold sourceFailed
  split_ifs
  · rfl
  · rfl
  · rfl

/-- The report of a stopped spot touches what events report, and nothing else. -/
theorem reportStopped_ends (s : InsertSession) :
    Ends s.reportStopped
      (fun s' => s'.custody = s.custody ∧ s'.spotIndex = s.spotIndex ∧ s'.spotCount = s.spotCount)
      fun _ => True :=
  .ite (fun _ => .ite (fun _ => .bind (ends_true _) fun _ _ => .pure ⟨rfl, rfl, rfl⟩)
      fun _ => .pure ⟨rfl, rfl, rfl⟩)
    fun _ => .bind (ends_true _) fun _ _ => .pure ⟨rfl, rfl, rfl⟩

theorem loadTimes_leaves (s : InsertSession) (startPTS : ℤ) : Leaves s (s.loadTimes startPTS) := by
  unfold loadTimes
  rcases hq : s.dfnCurrent with _ | q
  · exact .pure rfl
  · exact .bind (ends_true _) fun _ _ => .bind (ends_true _) fun _ _ => .pure (by rw [← hq]; rfl)

theorem loadNext_leaves (s : InsertSession) : Leaves s s.loadNext := by
  refine .ite (fun _ => .bind (ends_true _) fun dfnNext _ => ?_) fun _ => .pure rfl
  rcases dfnNext with _ | p
  · exact .pure rfl
  · refine .bind (ends_true _) fun spot _ => .ite (fun _ => ?_) fun _ => .pure rfl
    refine .bind (ends_true _) fun tiNext _ => ?_
    exact .ite (fun _ => .pure rfl) fun _ => .pure rfl

theorem reportSpot_leaves (s : InsertSession) (spot : InsertDefinition) :
    Leaves s (s.reportSpot spot) := by
  refine .ite (fun _ => .pure ?_) fun _ => .ite (fun _ => .ite
    (fun _ => insertionStatusUpdate_leaves s _) fun _ => .pure rfl) fun _ => .pure rfl
  split_ifs
  · rfl
  · rfl

/-! ## Ending a spot -/

theorem dropDfnSet_keeps (h : s.custody.Ending strict b 2) : Keeps strict b s.dropDfnSet := by
  refine .bind (asserted_ending h) fun s₁ ⟨h₁, _⟩ => ?_
  refine .bind (asserted_ending h₁) fun s₂ ⟨h₂, _⟩ => ?_
  set t : InsertSession := { s₂ with triggerDetectedForOpportunity := false, dfnSet := none }
  have ht : t.custody.Ending strict b 0 :=
    ⟨h₂.isOpen, h₂.referred, h₂.dfnCurrent, h₂.insertSrc, h₂.answering⟩
  exact (sendInsertionStatusEvent_leaves t).keeps (ht.kept rfl)

/-- What is asked of the nested call. -/
def NestedKeeps (strict b : Bool) (again : ℤ → InsertSession → Except Fault InsertSession) : Prop :=
  ∀ startPTS s, s.custody.Kept strict b → Keeps strict b (again startPTS s)

variable {again : ℤ → InsertSession → Except Fault InsertSession}

theorem nextSpot_keeps (hagain : s.spotIndex + 1 < s.spotCount → NestedKeeps strict b again)
    (h : s.custody.Kept strict b) : Keeps strict b (s.clearInsertion.nextSpot again) := by
  refine .ite (fun hset => .ite (fun hlt => ?_) fun _ => ?_) fun hset => .pure ?_
  · exact hagain hlt _ _ (consult_kept (h.next hset _))
  · exact dropDfnSet_keeps (h.last _)
  · refine h.stop (Option.not_isSome_iff_eq_none.mp hset) fun hab hpend => ?_
    have hnone : s.dfnSet.isNone = true := Option.isNone_iff_eq_none.mpr
      (Option.not_isSome_iff_eq_none.mp hset)
    rw [show s.insertPending = true from hpend, hnone, Bool.true_and, Bool.true_and] at hab
    exact Option.not_isSome_iff_eq_none.mp (Bool.eq_false_iff.mp hab)

theorem insertionStopped_keeps
    (hagain : s.spotIndex + 1 < s.spotCount → NestedKeeps strict b again)
    (h : s.custody.Kept strict b) : Keeps strict b (s.insertionStopped again) := by
  refine .bind (ends_true _) fun _ _ => .bind (reportStopped_ends s) ?_
  rintro s₁ ⟨hcustody, hindex, hcount⟩
  rw [← hindex, ← hcount] at hagain
  exact nextSpot_keeps hagain (hcustody ▸ h)

theorem termInsertionSpot_keeps
    (hagain : s.spotIndex + 1 < s.spotCount → NestedKeeps strict b again)
    (h : s.custody.Kept strict b) : Keeps strict b (s.termInsertionSpot again) :=
  .ite (fun _ => insertionStopped_keeps hagain h) fun _ =>
    .ite (fun _ => insertionStopped_keeps hagain h) fun _ => .pure h

theorem endBadSpot_keeps (hagain : NestedKeeps strict b again) (h : s.custody.Kept strict b) :
    Keeps strict b (s.endBadSpot again) :=
  .ite (fun _ => termInsertionSpot_keeps (fun _ => hagain) h) fun _ => .pure h

/-! ## The stages -/

theorem ageOpportunity_keeps (hopen : strict = true ∨ b = true) (h : s.custody.Kept strict b) :
    Keeps strict b s.ageOpportunity := by
  have h₁ := consult_kept h
  unfold ageOpportunity
  generalize s.consult = c at h₁
  obtain ⟨tick, t⟩ := c
  have hage := ManagerEntries.ageInsertOpportunities_insertDefinitions t.toManagerEntries
    tick.utcTimeCurrent
  set u : InsertSession :=
    { t with toManagerEntries := (t.ageInsertOpportunities tick.utcTimeCurrent).2 }
  have hu : u.custody = t.custody := by
    unfold custody
    rw [show u.insertDefinitions = t.insertDefinitions from hage]
  rw [← hu] at h₁
  refine .ite (fun hdrop => ?_) fun _ => .pure h₁
  -- given up: the set that waits is discarded with the opportunity
  have hend := h₁.giveUp hopen hdrop.2
  refine .bind (sendInsertionStatusEvent_leaves
    { u with insertPending := false, detailCode := .responseTimeout }) fun s₁ hs₁ => ?_
  have hend : s₁.custody.Ending strict b 1 := hs₁ ▸ hend
  have hset : s₁.dfnSet = none := (congrArg (·.dfnSet) hs₁).trans hdrop.2
  refine .bind (asserted_ending hend) fun s₂ ⟨h₂, hctx⟩ => .pure ?_
  exact h₂.kept ((congrArg (·.dfnSet) hctx).trans hset)

theorem takeDfnSet_kept (hopen : strict = true ∨ b = true) (h : s.custody.Kept strict b)
    (hpend : s.insertPending = true) (hset : s.dfnSet = none) {e e' : RegisteredSet}
    (he : s.insertDefinitions = some e)
    (he' : e' = { e with set := { e.set with refCount := e.set.refCount + 1 } }) :
    (takeDfnSet e' { s with insertDefinitions := some e' }).custody.Kept strict b := by
  subst he'
  have hpending : s.pendingTrigger = s.trigger := if_pos hpend
  exact consult_kept (h.take hopen hpend hset he hpending)

theorem adoptDfnSet_kept (hopen : strict = true ∨ b = true) (h : s.custody.Kept strict b)
    (hpend : s.insertPending = true) : s.adoptDfnSet.custody.Kept strict b := by
  unfold adoptDfnSet
  split_ifs with hset
  · have h₁ := consult_kept h
    have hctx := consult_context s
    generalize s.consult = c at h₁ hctx
    obtain ⟨tick, t⟩ := c
    have hpend₁ : t.insertPending = true := (congrArg (·.insertPending) hctx).trans hpend
    have hset₁ : t.dfnSet = none := (congrArg (·.dfnSet) hctx).trans hset
    rcases he : t.insertDefinitions with _ | e
    · simp only [ManagerEntries.getInsertDefinitionSet, he]
      exact h₁
    · simp only [ManagerEntries.getInsertDefinitionSet, he]
      exact takeDfnSet_kept hopen h₁ hpend₁ hset₁ he rfl
  · exact h

theorem loadSpot_keeps (h : s.custody.Kept strict b) (hset : s.dfnSet.isSome) (startPTS : ℤ) :
    Keeps strict b (s.loadSpot startPTS) := by
  refine .ite (fun _ => .bind (ends_true _) fun dfnCurrent _ => ?_) fun _ => .pure h
  refine .bind (loadTimes_leaves _ startPTS) fun t ht => (loadNext_leaves t).keeps ?_
  rw [ht]
  exact h.setCurrent hset dfnCurrent

theorem openSource_keeps (hagain : NestedKeeps strict b again) (h : s.custody.Kept strict b)
    (hcur : s.dfnCurrent ≠ none) (spot : InsertDefinition) :
    Keeps strict b (s.openSource again spot) := by
  unfold openSource
  split_ifs
  · exact endBadSpot_keeps hagain (h.setSrc hcur true)
  · have hcur₁ : s.consult.2.custody.dfnCurrent ≠ none :=
      (congrArg (·.dfnCurrent) (consult_context s)).trans_ne hcur
    exact endBadSpot_keeps hagain ((consult_kept h).setSrc hcur₁ _)

theorem missPrefetch_keeps (hagain : NestedKeeps strict b again) (h : s.custody.Kept strict b)
    (spot : InsertDefinition) : Keeps strict b (s.missPrefetch again spot) := by
  have h₁ := consult_kept h
  refine .ite (fun _ => .pure ?_) fun _ => .ite (fun _ => ?_) fun _ => .pure h₁
  · split_ifs
    · exact h
    · exact h
  · exact insertionStopped_keeps (fun _ => hagain) h₁

theorem fetchSource_keeps (hagain : NestedKeeps strict b again) (h : s.custody.Kept strict b) :
    Keeps strict b (s.fetchSource again) := by
  unfold fetchSource
  rcases hq : s.dfnCurrent with _ | q
  · exact .pure h
  · refine .ite (fun _ => ?_) fun _ => .pure h
    have h₁ := consult_kept h
    have hcur₁ := (congrArg (·.dfnCurrent) (consult_context s)).trans hq
    refine .bind (ends_true _) fun spot _ => .bind (reportSpot_leaves _ spot) fun t ht => ?_
    have hkept : t.custody.Kept strict b := ht ▸ h₁
    have hcur : t.dfnCurrent ≠ none := by
      rw [show t.dfnCurrent = s.consult.2.dfnCurrent from congrArg (·.dfnCurrent) ht]
      exact Option.ne_none_iff_exists'.mpr ⟨q, hcur₁⟩
    exact .ite (fun _ => openSource_keeps hagain hkept hcur spot) fun _ =>
      missPrefetch_keeps hagain hkept spot

/-- `startInsertion` of a source, which the context no longer waits for. -/
theorem startReplacement_keeps (h : Kept strict b { s.custody with insertPending := true })
    (hsrc : s.insertSrc = true) : Keeps strict b s.startReplacement := by
  have h₁ := consult_starting h
  have hsrc₁ := (congrArg (·.insertSrc) (consult_context s)).trans hsrc
  unfold startReplacement
  generalize s.consult = c at h₁ hsrc₁
  obtain ⟨tick, t⟩ := c
  have hreport : Leaves t (if tick.audioUnmatched
      then t.insertionStatusUpdate .matchingAudioAssetNotFound else .ok t) :=
    .ite (fun _ => insertionStatusUpdate_leaves t _) fun _ => .pure rfl
  refine .bind hreport fun u hu => ?_
  have hsrc₂ : u.insertSrc = true := (congrArg (·.insertSrc) hu).trans hsrc₁
  rw [← hu] at h₁
  exact .ite (fun _ => .pure (h₁.start (.inl hsrc₂) u.insertPending)) fun _ =>
    .pure (h₁.notStarted hsrc₂ u.insertPending)

theorem startSpot_keeps (h : s.custody.Kept strict b) : Keeps strict b s.startSpot := by
  have h₁ := consult_kept h
  refine .ite (fun hsrc => .ite (fun _ => ?_) fun _ => .pure h₁) fun _ => ?_
  · have hsrc₁ := (congrArg (·.insertSrc) (consult_context s)).trans hsrc
    exact startReplacement_keeps (s := { s.consult.2 with insertPending := false })
      (h₁.pend hsrc₁) hsrc₁
  · rcases hq : s.dfnCurrent with _ | q
    · exact .pure h
    · refine .ite (fun _ => .pure h) fun _ => .bind (ends_true _) fun spot _ => ?_
      refine .ite (fun _ => .pure ?_) fun _ => .pure ?_
      · split_ifs
        · exact h
        · exact h
      · have hne : s.custody.dfnCurrent ≠ none := Option.ne_none_iff_exists'.mpr ⟨q, hq⟩
        rw [← hq]
        exact h.start (.inr hne) false

theorem prefetchNext_keeps (h : s.custody.Kept strict b) : Keeps strict b s.prefetchNext := by
  have h₁ := consult_kept h
  unfold prefetchNext
  generalize s.consult = c at h₁
  obtain ⟨tick, t⟩ := c
  refine .ite (fun _ => .ite (fun _ => ?_) fun _ => .pure h₁) fun _ => .pure h
  rcases hq : t.dfnNext with _ | q
  · exact .error trivial
  · exact .bind (ends_true _) fun spot _ => .pure (hq ▸ h₁)

theorem updatePending_keeps (hopen : strict = true ∨ b = true)
    (hagain : NestedKeeps strict b again) (h : s.custody.Kept strict b) (startPTS : ℤ) :
    Keeps strict b (s.updatePending again startPTS) := by
  refine .bind (ageOpportunity_keeps hopen h) fun s₁ h₁ => ?_
  refine .ite (fun hpend => ?_) fun _ => .pure h₁
  have h₂ := adoptDfnSet_kept hopen h₁ hpend
  refine .bind (Q := fun s' : InsertSession => s'.custody.Kept strict b) ?_
    fun s₃ h₃ => startSpot_keeps h₃
  refine .ite (fun hset => ?_) fun _ => .pure h₂
  exact .bind (loadSpot_keeps h₂ hset startPTS) fun s₃ h₃ => fetchSource_keeps hagain h₃

theorem updateWith_keeps (hopen : strict = true ∨ b = true) (hagain : NestedKeeps strict b again)
    (h : s.custody.Kept strict b) (startPTS : ℤ) :
    Keeps strict b (s.updateWith again startPTS) := by
  refine .bind (Q := fun s' : InsertSession => s'.custody.Kept strict b) ?_ fun s₁ h₁ =>
    .bind (endBadSpot_keeps hagain h₁) fun s₂ h₂ => prefetchNext_keeps h₂
  exact .ite (fun _ => updatePending_keeps hopen hagain h startPTS) fun _ => .pure h

/-- **`updateInsertionState`** keeps custody orderly, and so do the calls nested in it. -/
theorem updateWithin_keeps (hopen : strict = true ∨ b = true) :
    ∀ n, NestedKeeps strict b (updateWithin n) := by
  intro n
  induction n with
  | zero =>
    intro startPTS s _
    exact .error trivial
  | succ n ih =>
    intro startPTS s h
    exact updateWith_keeps hopen ih h startPTS

/-! ## The calls -/

theorem triggerDetected_keeps (h : s.custody.Kept strict b) (t : PendingOpportunity) :
    Ends (s.triggerDetected t) (fun r => r.2.custody.Kept strict b) fun _ => True := by
  refine .ite (fun hidle => ?_) fun _ => .pure h
  have h₁ := consult_kept h
  have hctx := consult_context s
  generalize s.consult = c at h₁ hctx
  obtain ⟨tick, u⟩ := c
  have hpend : u.insertPending = false := (congrArg (·.insertPending) hctx).trans hidle.2
  have hins : u.inserting = false := (congrArg (·.inserting) hctx).trans hidle.1
  simp only [ManagerEntries.registerInsertOpportunity]
  rcases u.pendingOpportunity with _ | pending
  · split_ifs
    · exact .pure (h₁.trigger hpend hins t.origin)
    · exact .bind ((insertionStatusUpdate_leaves _ _).keeps h₁) fun _ hr => .pure hr
  · exact .pure h₁

theorem signalDetected_keeps (h : s.custody.Kept strict b) (t : PendingOpportunity) :
    Keeps strict b (s.signalDetected t) := by
  refine .ite (fun _ => .pure h) fun _ => ?_
  refine .bind (triggerDetected_keeps
    (s := { s with triggerDetectedForOpportunity := true }) h t) fun r hr => .pure ?_
  split_ifs
  · exact hr
  · exact hr

theorem sendTuneOutEvent_keeps (h : s.custody.Kept strict b) :
    Keeps strict b s.sendTuneOutEvent :=
  .bind (asserted_kept (s := s.managed ManagerEntries.unregisterInsertOpportunity)
    (consult_kept h)) fun _ hs => .pure hs

theorem setSourceURI_keeps (h : s.custody.Kept strict b) : Keeps strict b s.setSourceURI := by
  refine .bind (Q := fun s' : InsertSession => s'.custody.Kept strict b) ?_ fun _ hs => .pure hs
  exact .ite (fun _ => sendTuneOutEvent_keeps h) fun _ => .pure h

theorem dropDfnSet_flags (s : InsertSession) :
    Ends s.dropDfnSet
      (fun s' => s'.insertPending = s.insertPending ∧ s'.inserting = s.inserting)
      fun _ => True := by
  have hdrop : ∀ t : InsertSession, Ends (t.asserted ManagerEntries.dropReference)
      (fun t' => t'.toInsertContext = t.toInsertContext) fun _ => True := by
    intro t
    refine (asserted_ends t).imp ?_ fun _ _ => trivial
    rintro _ rfl
    exact consult_context t
  refine .bind (hdrop s) fun s₁ h₁ => .bind (hdrop s₁) fun s₂ h₂ => ?_
  have hctx := h₂.trans h₁
  exact .bind (ends_true _) fun _ _ =>
    .pure ⟨congrArg (·.insertPending) hctx, congrArg (·.inserting) hctx⟩

/-- On the last spot, nothing is begun after it. -/
theorem insertionStopped_idle (hlast : ¬s.spotIndex + 1 < s.spotCount) :
    Ends (s.insertionStopped again)
      (fun s' => s'.insertPending = false ∧ s'.inserting = false) fun _ => True := by
  refine .bind (ends_true _) fun _ _ => .bind (reportStopped_ends s) ?_
  rintro s₁ ⟨_, hindex, hcount⟩
  rw [← hindex, ← hcount] at hlast
  refine .ite (fun _ => .ite (fun hlt => absurd hlt hlast) fun _ => dropDfnSet_flags _) fun _ => ?_
  exact .pure ⟨rfl, rfl⟩

theorem termInsertionSpot_idle (hlast : ¬s.spotIndex + 1 < s.spotCount) :
    Ends (s.termInsertionSpot again)
      (fun s' => s'.insertPending = false ∧ s'.inserting = false) fun _ => True :=
  .ite (fun _ => insertionStopped_idle hlast) fun hins =>
    .ite (fun _ => insertionStopped_idle hlast) fun hpend =>
      .pure ⟨Bool.eq_false_iff.mpr hpend, Bool.eq_false_iff.mpr hins⟩

theorem termInsertionAll_keeps (h : s.custody.Kept strict false) :
    Keeps strict false s.termInsertionAll := by
  have hlast : ¬s.spotIndex + 1 < 0 := Nat.not_lt_zero _
  set t : InsertSession := { s with spotCount := 0 }
  have hkeeps : Keeps strict false (t.termInsertionSpot updateInsertionState) :=
    termInsertionSpot_keeps (fun hlt => absurd hlt hlast) h
  refine .bind (hkeeps.and (termInsertionSpot_idle (s := t) hlast)) ?_
  rintro s₁ ⟨h₁, hpend, hins⟩
  exact .pure (h₁.letGo hpend hins)

theorem releaseContext_keeps (h : s.custody.Kept strict b) :
    Keeps strict false s.releaseContext :=
  .bind (termInsertionAll_keeps (s := { s with isOpen := false }) h.close) fun _ hs =>
    .ite (fun _ => sendTuneOutEvent_keeps hs) fun _ => .pure hs

/-- **The call lemma.** A call keeps custody orderly. -/
theorem call_kept {s' : InsertSession} (h : s.custody.Kept strict true) {c : Call}
    (hcall : s.call c = .ok s') : ∃ b, s'.custody.Kept strict b := by
  have hopen : strict = true ∨ true = true := .inr rfl
  have keeps : ∀ {b x}, Keeps strict b x → x = .ok s' → ∃ b, s'.custody.Kept strict b :=
    fun hx hok => ⟨_, hx.of_ok hok⟩
  cases c with
  | processPackets =>
    exact keeps (updateWithin_keeps hopen _ _ { s with tuneInEmitted := true } h) hcall
  | triggerDetected t =>
    exact keeps (b := true) (.bind (triggerDetected_keeps h t) fun _ hr => .pure hr) hcall
  | signalDetected t => exact keeps (signalDetected_keeps h t) hcall
  | insertionStarted => exact keeps ((insertionStarted_leaves s).keeps h) hcall
  | insertionStatusUpdate code => exact keeps ((insertionStatusUpdate_leaves s code).keeps h) hcall
  | insertionError code =>
    obtain rfl : s.insertionError code = s' := Except.ok.inj hcall
    exact ⟨true, h⟩
  | stopInsertion =>
    exact keeps (insertionStopped_keeps (fun _ => updateWithin_keeps hopen _) h) hcall
  | httpTimeoutError current | tsFormatError current | sourceError current =>
    exact keeps (b := true) (.pure (sourceFailed_custody s _ current ▸ h)) hcall
  | setSourceURI => exact keeps (setSourceURI_keeps h) hcall
  | releaseContext => exact keeps (releaseContext_keeps h) hcall

/-! ## Runs -/

/-- **The step lemma.** -/
theorem step_kept {s' : InsertSession} {e : Event} (h : ∃ b, s.custody.Kept strict b)
    (hstep : s.step e = some s') : ∃ b, s'.custody.Kept strict b := by
  obtain ⟨b, h⟩ := h
  cases e with
  | call c schedule =>
    simp only [step] at hstep
    split_ifs at hstep with hopen
    obtain rfl : b = true := h.isOpen.symm.trans hopen
    rcases hcall : (s.enter schedule).call c with fault | t
    · rw [hcall] at hstep
      cases hstep
    · rw [hcall] at hstep
      obtain rfl : t = s' := Option.some.inj hstep
      exact call_kept (s := s.enter schedule) h hcall
  | handler hs =>
    obtain rfl : s.handlerStep hs = s' := Option.some.inj hstep
    exact ⟨b, handlerStep_kept h hs⟩

/-- **The run lemma.** In a run without disorder, custody is orderly. -/
theorem run_orderly {definitionRequestTimeout spliceTimeout : ℤ} {es : List Event}
    (hrun : run definitionRequestTimeout spliceTimeout es = some s)
    (hclean : InOrder strict s.trace) : s.custody.Orderly strict := by
  have hnew : ∃ b, (InsertSession.new definitionRequestTimeout spliceTimeout).custody.Kept
      strict b := by
    refine ⟨true, rfl, fun _ => ⟨fun _ he => ?_, fun _ => ⟨rfl, rfl⟩, fun _ _ _ he => ?_,
      fun _ _ _ => rfl, fun _ hset => ?_, ⟨fun _ _ hm => ?_, fun _ _ _ hm => ?_⟩⟩⟩
    · cases he
    · cases he
    · cases hset
    · cases hm
    · cases hm
  obtain ⟨b, h⟩ := runFrom_history (R := fun s _ => ∃ b, s.custody.Kept strict b)
    (fun _ _ _ _ h hs => step_kept h hs) (h := []) hnew hrun
  exact h.orderly hclean

/-- The context is neither inserting nor pending. -/
def IsIdle (s : InsertSession) : Prop := s.inserting = false ∧ s.insertPending = false

instance (s : InsertSession) : Decidable s.IsIdle :=
  inferInstanceAs (Decidable (s.inserting = false ∧ s.insertPending = false))

/-- **An idle context holds nothing**, and no spot is started for a trigger that its
set was not built for. This is so in every run in which each set is registered
while its own trigger is pending, no set is left at the manager when its trigger
is dropped, and each replacement that is to be started starts. -/
theorem idle_holds_nothing {definitionRequestTimeout spliceTimeout : ℤ} {es : List Event}
    (hrun : run definitionRequestTimeout spliceTimeout es = some s)
    (hclean : InOrder true s.trace) :
    (s.IsIdle → s.dfnSet = none ∧ s.insertDefinitions = none) ∧
    ∀ built trigger, Mark.started built trigger ∈ s.trace → built = trigger := by
  have h := run_orderly hrun hclean
  refine ⟨fun hidle => ?_, h.answering.started rfl⟩
  have hset : s.dfnSet = none := h.settled rfl hidle.2 hidle.1
  refine ⟨hset, ?_⟩
  rcases he : s.insertDefinitions with _ | e
  · rfl
  · -- a set that waits is waited for
    have hpend : s.insertPending = true := (h.waiting (.inl rfl) hset e he).2.1
    rw [hidle.2] at hpend
    cases hpend

/-- The trigger, its answer, the set taken and its spot begun and ended. -/
def spotPlayed : List Event :=
  [.call (.signalDetected firstOpportunity) fun _ => .quiet,
    .handler (.find 1 oneFixedSpot 2000),
    .handler (.register 0),
    .call .processPackets fun _ => .quiet,
    .call .stopInsertion fun _ => .quiet]

theorem idle_holds_nothing_spotPlayed :
    ∃ s, run 5000 15000 spotPlayed = some s ∧ s.dfnSet = none ∧ s.insertDefinitions = none := by
  have hrun : (run 5000 15000 spotPlayed).any fun s =>
      decide (InOrder true s.trace ∧ s.IsIdle) := by
    decide +kernel
  obtain ⟨s, hrun, hs⟩ := (Option.any_eq_true _ _).mp hrun
  obtain ⟨hclean, hidle⟩ := of_decide_eq_true hs
  exact ⟨s, hrun, (idle_holds_nothing hrun hclean).1 hidle⟩

/-! ### A replacement that fails to start -/

/-- A replacement of half a minute. -/
def replaceSpot : InsertDefinition where
  replace := true
  validSpot := true
  duration := 30000
  spotDetailCode := .noError

/-- The answer with one replacement. -/
def oneReplacement : DefineSpotsArgs where
  utcTimeStart := 0
  spots := [replaceSpot]
  fits := by decide

/-- The second opportunity, a minute and a half after the first. -/
def secondOpportunity : PendingOpportunity where
  utcTrigger := 101000
  utcSplice := 105000
  splicePTS := 91000000

/-- The prefetch time of the first opportunity, with a source that opens and has data;
it starts or it does not. -/
def prefetchTime (starts : Bool) : Tick :=
  { Tick.quiet with currentPTS := 700000, opens := true, dataReady := true, starts := starts }

/-- The streams of the replacement turn out not to fit. -/
def failedStart : List Event :=
  [.call (.signalDetected firstOpportunity) fun _ => .quiet,
    .handler (.find 1 oneReplacement 2000),
    .handler (.register 0),
    .call .processPackets fun _ => prefetchTime false]

/-- After it, the idle context still holds the set, and the next trigger starts the
spot of the first one. -/
theorem failedStart_holds :
    (∃ s, run 5000 15000 failedStart = some s ∧ s.IsIdle ∧ s.dfnSet ≠ none ∧
      s.insertDefinitions.isSome) ∧
    ∃ s, run 5000 15000 (failedStart ++
        [.call (.triggerDetected secondOpportunity) fun _ => .quiet,
          .call .processPackets fun _ => prefetchTime true]) = some s ∧
      .started (some firstOpportunity.origin) (some secondOpportunity.origin) ∈ s.trace := by
  refine ⟨?_, ?_⟩
  · have hrun : (run 5000 15000 failedStart).any fun s =>
        decide (s.IsIdle ∧ s.dfnSet ≠ none ∧ s.insertDefinitions.isSome) := by
      decide +kernel
    obtain ⟨s, hrun, hs⟩ := (Option.any_eq_true _ _).mp hrun
    exact ⟨s, hrun, of_decide_eq_true hs⟩
  · have hrun : (run 5000 15000 (failedStart ++
        [.call (.triggerDetected secondOpportunity) fun _ => .quiet,
          .call .processPackets fun _ => prefetchTime true])).any fun s =>
        decide (.started (some firstOpportunity.origin) (some secondOpportunity.origin) ∈
          s.trace) := by
      decide +kernel
    obtain ⟨s, hrun, hs⟩ := (Option.any_eq_true _ _).mp hrun
    exact ⟨s, hrun, of_decide_eq_true hs⟩

/-- **A set answers its own trigger.** In every run in which each set is registered
while its own trigger is pending, and none is left at the manager when its trigger
is dropped, a set that is taken was built from the opportunity that the pending
trigger registered. -/
theorem adopted_answers_trigger {definitionRequestTimeout spliceTimeout : ℤ} {es : List Event}
    (hrun : run definitionRequestTimeout spliceTimeout es = some s)
    (hclean : InOrder false s.trace) :
    ∀ built pending, Mark.adopted built pending ∈ s.trace → pending = some built :=
  (run_orderly hrun hclean).answering.adopted

theorem adopted_answers_trigger_spotPlayed :
    ∃ s, run 5000 15000 spotPlayed = some s ∧
      Mark.adopted firstOpportunity.origin (some firstOpportunity.origin) ∈ s.trace ∧
      ∀ built pending, Mark.adopted built pending ∈ s.trace → pending = some built := by
  have hrun : (run 5000 15000 spotPlayed).any fun s =>
      decide (InOrder false s.trace ∧
        .adopted firstOpportunity.origin (some firstOpportunity.origin) ∈ s.trace) := by
    decide +kernel
  obtain ⟨s, hrun, hs⟩ := (Option.any_eq_true _ _).mp hrun
  obtain ⟨hclean, hmem⟩ := of_decide_eq_true hs
  exact ⟨s, hrun, hmem, adopted_answers_trigger hrun hclean⟩

/-- The handler finds the first opportunity in time; it is aged out before the set is
registered, and the second trigger takes the set. -/
theorem lateAnswer_adopted :
    ∃ es s, run 5000 15000 es = some s ∧
      .adopted firstOpportunity.origin (some secondOpportunity.origin) ∈ s.trace := by
  have hrun : (run 5000 15000
      [.call (.signalDetected firstOpportunity) fun _ => .quiet,
        .handler (.find 1 oneFixedSpot 2000),
        .call .processPackets fun _ => { Tick.quiet with utcTimeCurrent := 7000 },
        .handler (.register 0),
        .call (.signalDetected secondOpportunity) fun _ => .quiet,
        .call .processPackets fun _ => .quiet]).any fun s =>
      decide (.adopted firstOpportunity.origin (some secondOpportunity.origin) ∈ s.trace) := by
    decide +kernel
  obtain ⟨s, hrun, hs⟩ := (Option.any_eq_true _ _).mp hrun
  exact ⟨_, s, hrun, of_decide_eq_true hs⟩

end InsertSession

end MediaFramework
