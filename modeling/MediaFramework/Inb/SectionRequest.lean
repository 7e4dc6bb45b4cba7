import MediaFramework.Inb.Containers
import MediaFramework.Lib.Run

/-!
# One filter request

What `rmf_SectionFilter` keeps for a filter, and what `section_avail_cb` does with it when the
section source passes a section: it counts the match, puts the section into the queue of the
filter and posts an event. Where the queue is full, or the event cannot be posted, the match is
counted back and a section is freed.

The functions here are the parts of `section_avail_cb` between which other threads may run; the
callback as a whole, on a request that no one else works on, is `sectionAvailCb`.
-/

namespace MediaFramework

/-! ## Requests -/

/-- `rmf_SectionFilterReqState`. -/
inductive RequestState
  | invalid
  | ready
  | matched
  | cancelled
  deriving DecidableEq

/-- The events that tell of a section. -/
inductive FilterEvent
  | sectionFound
  | lastSectionFound
  deriving DecidableEq

/-- `rmf_sf_SectionRequest_t`, and what has happened to it. -/
structure SectionRequest where
  state : RequestState := .invalid
  priority : ℕ := 0
  /-- if zero in the state `ready`, sections match until the filter is cancelled -/
  matchesRemaining : ℕ := 0
  sectionsDataQueue : RmfQueue := .new
  uiIsSectionUnderProcessing : Bool := false
  /-- the sections that were queued, but for those whose event failed -/
  queued : List ℕ := []
  /-- the sections that were read from the queue -/
  obtained : List ℕ := []
  /-- the sections an event was posted for, with the event -/
  delivered : List (ℕ × FilterEvent) := []
  created : Bool := false
  /-- `SetFilter` has put it into the table -/
  inserted : Bool := false
  /-- `ReleaseFilter` has taken it out of the table -/
  released : Bool := false
  /-- how often it was freed -/
  frees : ℕ := 0

namespace SectionRequest

variable (r : SectionRequest)

/-- The sections that wait to be read. -/
def contents : List ℕ := r.sectionsDataQueue.contents

/-- The filter takes no more sections. -/
def Dismisses : Prop := r.state = .cancelled ∨ r.state = .matched

instance : Decidable r.Dismisses := inferInstanceAs (Decidable (_ ∨ _))

/-- A match is counted; in the first place, whether it is the last. -/
def countMatch : Bool × SectionRequest :=
  if 0 < r.matchesRemaining then
    let r := { r with matchesRemaining := r.matchesRemaining - 1 }
    if r.matchesRemaining = 0 then (true, { r with state := .matched }) else (false, r)
  else (false, r)

/-- A match is counted back. `shouldCancelFilter`, the other condition of the source for it, is
never set. -/
def uncount : SectionRequest :=
  if 0 < r.matchesRemaining then { r with matchesRemaining := r.matchesRemaining + 1 } else r

/-- `rmf_queue_push_tail` on the queue of the request. -/
def push (sec : ℕ) : Option SectionRequest :=
  (r.sectionsDataQueue.pushTail sec).map fun q =>
    { r with sectionsDataQueue := q, queued := r.queued ++ [sec] }

/-- The event of a section is posted. -/
def deliver (sec : ℕ) (last : Bool) : SectionRequest :=
  { r with
    delivered := r.delivered ++ [(sec, if last then .lastSectionFound else .sectionFound)] }

/-- The sections without this one, where it comes last. -/
def unqueue (sec : ℕ) (secs : List ℕ) : List ℕ := (secs.reverse.erase sec).reverse

theorem unqueue_append (sec : ℕ) (secs : List ℕ) : unqueue sec (secs ++ [sec]) = secs := by
  rw [unqueue, List.reverse_append, List.reverse_singleton, List.singleton_append,
    List.erase_cons_head, List.reverse_reverse]

/-- `rmf_queue_pop_head` when the event of a section failed; in the first place what is to be
freed. -/
def withdraw (sec : ℕ) : Option ℕ × SectionRequest :=
  match r.sectionsDataQueue.popHead with
  | (some node, q) =>
    (some node, { r with sectionsDataQueue := q, queued := unqueue sec r.queued })
  | (none, q) => (none, { r with sectionsDataQueue := q })

/-- `cancelFilter` on a request. -/
def cancel : SectionRequest := if r.state = .cancelled then r else { r with state := .cancelled }

/-- What `Read` of the section source takes from the queue is obtained. -/
def obtain (read : RmfQueue → Option ℕ × RmfQueue) : Option ℕ × SectionRequest :=
  let (found, q) := read r.sectionsDataQueue
  (found, { r with sectionsDataQueue := q, obtained := r.obtained ++ found.toList })

/-- A request as `SetFilter` leaves it. -/
def setFilter (timesToMatch priority : ℕ) : SectionRequest :=
  { state := .ready, matchesRemaining := timesToMatch, priority := priority, created := true }

/-! ## The callback as a whole -/

/-- What a call of `section_avail_cb` comes to. -/
structure Outcome where
  request : SectionRequest
  /-- the section that is freed -/
  discarded : Option ℕ := none
  /-- the section could not be queued, or its event could not be posted -/
  failed : Bool := false

/-- `section_avail_cb`; whether the event can be posted comes from outside. -/
def sectionAvailCb (sec : ℕ) (dispatched : Bool) : Outcome :=
  if r.Dismisses then { request := r, discarded := some sec }
  else
    let (last, counted) := r.countMatch
    match counted.push sec with
    | none => { request := counted.uncount, discarded := some sec, failed := true }
    | some pushed =>
      if dispatched then { request := pushed.deliver sec last }
      else
        let (discarded, withdrawn) := pushed.uncount.withdraw sec
        { request := withdrawn, discarded := discarded, failed := true }

/-- Exactly the new section is discarded, and the request is as it was. -/
structure Undone (sec : ℕ) (o : Outcome) : Prop where
  discarded_eq : o.discarded = some sec
  contents_eq : o.request.contents = r.contents
  matchesRemaining_eq : o.request.matchesRemaining = r.matchesRemaining
  state_eq : o.request.state = r.state

/-- More than the last match is to come, and the queue is empty, so that the section at its head
would be the new one, or full, so that it is not queued at all. -/
def Undoable : Prop :=
  r.matchesRemaining ≠ 1 ∧ (r.contents = [] ∨ r.contents.length = maxQueueSize)

instance : Decidable r.Undoable := inferInstanceAs (Decidable (_ ∧ (_ ∨ _)))

/-! ## Counting and queueing -/

variable {r} {r' : SectionRequest} {sec : ℕ} {last ok : Bool}

/-- **The last match.** -/
theorem countMatch_last (h : r.matchesRemaining = 1) :
    r.countMatch = (true, { r with matchesRemaining := 0, state := .matched }) := by
  simp [countMatch, h]

/-- **Any other match.** -/
theorem countMatch_of_ne (h : r.matchesRemaining ≠ 1) :
    r.countMatch = (false, { r with matchesRemaining := r.matchesRemaining - 1 }) := by
  unfold countMatch
  by_cases hpos : 0 < r.matchesRemaining
  · have hlast : r.matchesRemaining - 1 ≠ 0 := by omega
    rw [if_pos hpos]
    exact if_neg hlast
  · have hsame : r.matchesRemaining - 1 = r.matchesRemaining := by omega
    rw [if_neg hpos, hsame]

theorem uncount_countMatch (h : r.matchesRemaining ≠ 1) : r.countMatch.2.uncount = r := by
  rw [countMatch_of_ne h]
  unfold uncount
  split_ifs with hpos
  · have hpos : 0 < r.matchesRemaining - 1 := hpos
    have hback : r.matchesRemaining - 1 + 1 = r.matchesRemaining := by omega
    simp [hback]
  · have hzero : r.matchesRemaining - 1 = 0 := Nat.eq_zero_of_not_pos hpos
    have hback : r.matchesRemaining - 1 = r.matchesRemaining := by omega
    simp [hback]

theorem push_eq_none_iff : r.push sec = none ↔ r.contents.length = maxQueueSize := by
  rw [push, Option.map_eq_none_iff]
  exact RmfQueue.pushTail_eq_none_iff

/-- Pushing changes the queue only. -/
theorem push_eq (h : r.push sec = some r') :
    ∃ q, q.contents = r.contents ++ [sec] ∧
      r' = { r with sectionsDataQueue := q, queued := r.queued ++ [sec] } := by
  obtain ⟨q, hq, rfl⟩ := Option.map_eq_some_iff.mp h
  exact ⟨q, RmfQueue.contents_pushTail hq, rfl⟩

/-- **Withdrawing takes the head.** -/
theorem withdraw_cases (r : SectionRequest) (sec : ℕ) :
    (r.contents = [] ∧ ∃ q, q.contents = [] ∧
      r.withdraw sec = (none, { r with sectionsDataQueue := q })) ∨
    ∃ head rest q, r.contents = head :: rest ∧ q.contents = rest ∧
      r.withdraw sec =
        (some head, { r with sectionsDataQueue := q, queued := unqueue sec r.queued }) := by
  unfold withdraw contents
  obtain ⟨hfst, hsnd⟩ := r.sectionsDataQueue.popHead_eq
  rcases hpop : r.sectionsDataQueue.popHead with ⟨node, q⟩
  rw [hpop] at hfst hsnd
  rcases hcontents : r.sectionsDataQueue.contents with _ | ⟨head, rest⟩
  · rw [hcontents] at hfst hsnd
    obtain rfl : node = none := hfst
    exact Or.inl ⟨rfl, q, hsnd, rfl⟩
  · rw [hcontents] at hfst hsnd
    obtain rfl : node = some head := hfst
    exact Or.inr ⟨head, rest, q, rfl, hsnd, rfl⟩

/-! ## What the callback can do -/

/-- The ways of the callback. -/
inductive Comes (r : SectionRequest) (sec : ℕ) : Bool → Outcome → Prop
  | dismissed {ok : Bool} (h : r.Dismisses) :
    Comes r sec ok { request := r, discarded := some sec }
  | overflown {ok : Bool} (h : ¬ r.Dismisses) (hfull : r.contents.length = maxQueueSize) :
    Comes r sec ok { request := r.countMatch.2.uncount, discarded := some sec, failed := true }
  | delivered {q : RmfQueue} (h : ¬ r.Dismisses) (hq : q.contents = r.contents ++ [sec]) :
    Comes r sec true
      { request :=
          { r.countMatch.2 with sectionsDataQueue := q, queued := r.queued ++ [sec] }.deliver sec
            r.countMatch.1 }
  | withdrawn {q : RmfQueue} {head : ℕ} {rest : List ℕ} (h : ¬ r.Dismisses)
      (hfull : r.contents.length ≠ maxQueueSize) (hhead : r.contents ++ [sec] = head :: rest)
      (hq : q.contents = rest) :
    Comes r sec false
      { request :=
          { r.countMatch.2.uncount with
            sectionsDataQueue := q
            queued := unqueue sec (r.queued ++ [sec]) }
        discarded := some head
        failed := true }

theorem countMatch_frame (r : SectionRequest) :
    r.countMatch.2.sectionsDataQueue = r.sectionsDataQueue ∧ r.countMatch.2.queued = r.queued := by
  unfold countMatch
  dsimp only
  split_ifs <;> exact ⟨rfl, rfl⟩

theorem uncount_queue (r : SectionRequest) (q : RmfQueue) (queued : List ℕ) :
    { r with sectionsDataQueue := q, queued := queued }.uncount =
      { r.uncount with sectionsDataQueue := q, queued := queued } := by
  unfold uncount
  split_ifs <;> rfl

theorem sectionAvailCb_comes (r : SectionRequest) (sec : ℕ) (ok : Bool) :
    r.Comes sec ok (r.sectionAvailCb sec ok) := by
  unfold sectionAvailCb
  by_cases hdismiss : r.Dismisses
  · rw [if_pos hdismiss]
    exact .dismissed hdismiss
  rw [if_neg hdismiss]
  obtain ⟨hqueue, hqueued⟩ := r.countMatch_frame
  have hcontents : r.countMatch.2.contents = r.contents := congrArg RmfQueue.contents hqueue
  rcases hpush : r.countMatch.2.push sec with _ | pushed
  · dsimp only
    rw [hpush]
    exact .overflown hdismiss (hcontents ▸ push_eq_none_iff.mp hpush)
  · have hfull : r.contents.length ≠ maxQueueSize := fun h => by
      rw [push_eq_none_iff.mpr (hcontents.symm ▸ h)] at hpush
      cases hpush
    obtain ⟨q, hq, rfl⟩ := push_eq hpush
    rw [hcontents] at hq
    dsimp only
    rw [hpush, hqueued]
    rcases ok with _ | _
    · dsimp only
      rw [if_neg Bool.false_ne_true, uncount_queue]
      rcases withdraw_cases { r.countMatch.2.uncount with
          sectionsDataQueue := q, queued := r.queued ++ [sec] } sec with
        ⟨hnone, -⟩ | ⟨head, rest, q', hhead, hrest, hwithdraw⟩
      · -- the section that was pushed is there
        have hnone : q.contents = [] := hnone
        rw [hq] at hnone
        exact absurd hnone (by simp)
      · rw [hwithdraw]
        exact .withdrawn hdismiss hfull (hq.symm.trans hhead) hrest
    · dsimp only
      rw [if_pos rfl]
      exact .delivered hdismiss hq

/-- **When a failure is undone.** With a section that is not in the queue already. -/
theorem undone_iff (hnew : sec ∉ r.contents) (hfail : (r.sectionAvailCb sec ok).failed = true) :
    r.Undone sec (r.sectionAvailCb sec ok) ↔ r.Undoable := by
  have hcomes := sectionAvailCb_comes r sec ok
  generalize r.sectionAvailCb sec ok = o at hfail hcomes ⊢
  -- the last match is counted back in no case
  have hlast : ∀ r' : SectionRequest, r' = r.countMatch.2.uncount →
      r'.matchesRemaining = r.matchesRemaining → r.matchesRemaining ≠ 1 := by
    rintro _ rfl hsame hone
    rw [countMatch_last hone, hone] at hsame
    cases hsame
  cases hcomes with
  | dismissed _ => cases hfail
  | delivered _ _ => cases hfail
  | overflown hdismiss hfull =>
    refine ⟨fun h => ⟨hlast _ rfl h.matchesRemaining_eq, Or.inr hfull⟩, fun h => ?_⟩
    rw [uncount_countMatch h.1]
    exact ⟨rfl, rfl, rfl, rfl⟩
  | @withdrawn q head rest hdismiss hfull hhead hq =>
    refine ⟨fun h => ⟨hlast _ rfl h.matchesRemaining_eq, Or.inl ?_⟩, fun h => ?_⟩
    · obtain rfl : head = sec := Option.some.inj h.discarded_eq
      rcases hcontents : r.contents with _ | ⟨x, xs⟩
      · rfl
      · rw [hcontents] at hhead
        obtain ⟨rfl, -⟩ := List.cons.inj hhead
        exact absurd (hcontents ▸ List.mem_cons_self) hnew
    · obtain ⟨hone, hempty | hfull'⟩ := h
      · rw [hempty] at hhead
        obtain ⟨rfl, rfl⟩ := List.cons.inj hhead
        rw [uncount_countMatch hone]
        exact ⟨rfl, hq.trans hempty.symm, rfl, rfl⟩
      · exact absurd hfull' hfull

/-! ## Runs of calls -/

/-- The calls for one filter. -/
inductive Call
  | sectionAvailCb (sec : ℕ) (dispatched : Bool)
  | getSectionHandle
  | cancelFilter

/-- A call, one after the other. -/
def call (read : RmfQueue → Option ℕ × RmfQueue) (r : SectionRequest) : Call → Option SectionRequest
  | .sectionAvailCb sec dispatched => some (r.sectionAvailCb sec dispatched).request
  | .getSectionHandle => some (r.obtain read).2
  | .cancelFilter => some r.cancel

/-- If the call fails, it is undone. -/
def CallUndoable (r : SectionRequest) : Call → Prop
  | .sectionAvailCb sec dispatched => (r.sectionAvailCb sec dispatched).failed = true → r.Undoable
  | .getSectionHandle | .cancelFilter => True

instance (r : SectionRequest) : DecidablePred r.CallUndoable
  | .sectionAvailCb _ _ => inferInstanceAs (Decidable (_ → _))
  | .getSectionHandle | .cancelFilter => isTrue trivial

/-- As many events as sections, and the last match is told with section number `timesToMatch`
and with no other. -/
structure Announced (timesToMatch : ℕ) (r : SectionRequest) : Prop where
  length_eq : r.delivered.length = r.queued.length
  last_iff : ∀ i, ∀ e ∈ r.delivered[i]?, e.2 = .lastSectionFound ↔ i + 1 = timesToMatch

/-- The matches that remain are those that were not told. -/
structure Counting (timesToMatch : ℕ) (r : SectionRequest) : Prop
    extends Announced timesToMatch r where
  remaining : ¬ r.Dismisses →
    timesToMatch = 0 ∧ r.matchesRemaining = 0 ∨
      0 < r.matchesRemaining ∧ r.matchesRemaining + r.delivered.length = timesToMatch

variable {timesToMatch : ℕ} {read : RmfQueue → Option ℕ × RmfQueue}

theorem Announced.deliver (h : Announced timesToMatch r)
    (hlast : last = true ↔ r.delivered.length + 1 = timesToMatch)
    (hdelivered : r'.delivered = r.delivered) (hqueued : r'.queued = r.queued ++ [sec]) :
    Announced timesToMatch (r'.deliver sec last) := by
  constructor
  · simp [SectionRequest.deliver, hdelivered, hqueued, h.length_eq]
  · intro i e he
    simp only [SectionRequest.deliver, hdelivered, List.getElem?_append] at he
    by_cases hi : i < r.delivered.length
    · rw [if_pos hi] at he
      exact h.last_iff i e he
    · rw [if_neg hi] at he
      rcases hi' : i - r.delivered.length with _ | j
      · rw [hi'] at he
        cases he
        obtain rfl : i = r.delivered.length := by omega
        rw [← hlast]
        rcases last with _ | _ <;> simp
      · rw [hi'] at he
        cases he

theorem Counting.sectionAvailCb (h : Counting timesToMatch r)
    (hundo : (r.sectionAvailCb sec ok).failed = true → r.Undoable) :
    Counting timesToMatch (r.sectionAvailCb sec ok).request := by
  have hcomes := sectionAvailCb_comes r sec ok
  generalize r.sectionAvailCb sec ok = o at hundo hcomes ⊢
  cases hcomes with
  | dismissed _ => exact h
  | overflown hdismiss hfull =>
    rw [uncount_countMatch (hundo rfl).1]
    exact h
  | @withdrawn q head rest hdismiss hfull hhead hq =>
    rw [uncount_countMatch (hundo rfl).1]
    rw [unqueue_append]
    exact ⟨⟨h.length_eq, h.last_iff⟩, h.remaining⟩
  | @delivered q hdismiss hq =>
    have hremaining := h.remaining hdismiss
    by_cases hone : r.matchesRemaining = 1
    · rw [countMatch_last hone]
      refine ⟨h.toAnnounced.deliver ?_ rfl rfl, fun hready => absurd (Or.inr rfl) hready⟩
      simp only [true_iff]
      omega
    · rw [countMatch_of_ne hone]
      refine ⟨h.toAnnounced.deliver ?_ rfl rfl, fun _ => ?_⟩
      · simp only [Bool.false_eq_true, false_iff]
        omega
      · simp only [SectionRequest.deliver, List.length_append, List.length_singleton]
        omega

theorem Counting.call (h : Counting timesToMatch r) {c : Call} (hundo : r.CallUndoable c)
    (hcall : r.call read c = some r') : Counting timesToMatch r' := by
  cases c with
  | sectionAvailCb sec dispatched =>
    cases hcall
    exact h.sectionAvailCb hundo
  | getSectionHandle =>
    cases hcall
    exact ⟨⟨h.length_eq, h.last_iff⟩, h.remaining⟩
  | cancelFilter =>
    cases hcall
    unfold cancel
    split_ifs with hcancelled
    · exact h
    · exact ⟨⟨h.length_eq, h.last_iff⟩, fun hready => absurd (Or.inl rfl) hready⟩

theorem counting_setFilter (timesToMatch priority : ℕ) :
    Counting timesToMatch (setFilter timesToMatch priority) := by
  refine ⟨⟨rfl, fun i e he => ?_⟩, fun _ => ?_⟩
  · simp [setFilter] at he
  · show timesToMatch = 0 ∧ timesToMatch = 0 ∨ 0 < timesToMatch ∧ timesToMatch + 0 = timesToMatch
    omega

/-- **Failures.** A failing call of `section_avail_cb` is undone exactly if more than the last
match is to come and the queue is empty or full; in every run of calls that fail in such states
only, there are as many events as sections were queued, and the last match is told with the
section that makes it. -/
theorem failures_undone (read : RmfQueue → Option ℕ × RmfQueue) (timesToMatch priority : ℕ) :
    (∀ (r : SectionRequest) (sec : ℕ) (ok : Bool), sec ∉ r.contents →
      (r.sectionAvailCb sec ok).failed = true →
      (r.Undone sec (r.sectionAvailCb sec ok) ↔ r.Undoable)) ∧
    ∀ (calls : List Call) (r : SectionRequest),
      EachStep (call read) CallUndoable (setFilter timesToMatch priority) calls →
      runFrom (call read) (setFilter timesToMatch priority) calls = some r →
      Announced timesToMatch r := by
  refine ⟨fun r sec ok hnew hfail => undone_iff hnew hfail, fun calls r hcalls hrun => ?_⟩
  exact (EachStep.invariant (fun _ _ _ hr hundo hcall => Counting.call hr hundo hcall) hcalls
    (counting_setFilter timesToMatch priority) hrun).toAnnounced

/-- The event of a section fails: the section is discarded, and the match is counted back. Of the
two that come then the second is the last. -/
theorem failures_undone_twoMatches :
    (setFilter 2 1).Undone 5 ((setFilter 2 1).sectionAvailCb 5 false) ∧
    ∃ r, runFrom (call RmfQueue.popHead) (setFilter 2 1)
        [.sectionAvailCb 5 false, .sectionAvailCb 6 true, .getSectionHandle,
          .sectionAvailCb 7 true] = some r ∧
      Announced 2 r := by
  obtain ⟨hundone, hannounced⟩ := failures_undone RmfQueue.popHead 2 1
  refine ⟨(hundone _ 5 false (by decide +kernel) (by decide +kernel)).mpr (by decide +kernel), ?_⟩
  obtain ⟨r, hrun⟩ := Option.isSome_iff_exists.mp (show (runFrom (call RmfQueue.popHead)
    (setFilter 2 1) [.sectionAvailCb 5 false, .sectionAvailCb 6 true, .getSectionHandle,
      .sectionAvailCb 7 true]).isSome = true by decide +kernel)
  exact ⟨r, hrun, hannounced _ r (by decide +kernel) hrun⟩

/-- A section is queued and waits; the event of the next one fails. The one that waits is freed,
and the next one stays in the queue. For a filter that is to match once, such a failure is the
end: it takes no more sections, and never tells of one. -/
theorem failure_discardsHead :
    ((((setFilter 0 1).sectionAvailCb 5 true).request.sectionAvailCb 6 false).discarded = some 5 ∧
      (((setFilter 0 1).sectionAvailCb 5 true).request.sectionAvailCb 6 false).request.contents =
        [6] ∧
      ¬ ((setFilter 0 1).sectionAvailCb 5 true).request.Undone 6
        (((setFilter 0 1).sectionAvailCb 5 true).request.sectionAvailCb 6 false)) ∧
    ((setFilter 1 1).sectionAvailCb 5 false).request.state = .matched ∧
      ((setFilter 1 1).sectionAvailCb 5 false).request.delivered = [] := by
  refine ⟨⟨by decide +kernel, by decide +kernel, fun h => ?_⟩, by decide +kernel,
    by decide +kernel⟩
  exact absurd h.discarded_eq (by decide +kernel)

end SectionRequest

end MediaFramework
