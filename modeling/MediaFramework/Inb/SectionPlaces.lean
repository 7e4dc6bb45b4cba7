import MediaFramework.Inb.RequestCustody

/-!
# Where a section is

A section that was passed to `section_avail_cb` is in the hands of the thread that is to queue
it, then in the queue of a request, then in the hands of the thread that read it, then in the
table of outstanding sections under the id that the source gave it, and at last it is freed.

Two things go wrong. When the event of a section fails, the section at the head of the queue is
freed, which is another one if there are sections to be read. And ids come again: a section may
be handed out under the id of one that is still outstanding, or not be handed out at all for
want of memory. Where this does not come up, and the requests are kept, every section is in one
place, and the sections of a filter are obtained in the order in which they were queued.
-/

namespace MediaFramework

open Function (update update_of_ne update_self)

/-! ## Ids -/

/-- The id that is drawn after so many draws. -/
def idOf (draws : ℕ) : ℕ := if draws = 0 then 0 else (draws - 1) % idTurn + 1

theorem nextSectionID_idOf (draws : ℕ) : nextSectionID (idOf draws) = idOf (draws + 1) := by
  unfold nextSectionID idOf idTurn
  rcases draws with _ | draws
  · rfl
  · rw [if_neg (Nat.succ_ne_zero draws), if_neg (Nat.succ_ne_zero _)]
    split_ifs <;> omega

/-- Ids that are the same were drawn whole turns apart. -/
theorem modEq_of_idOf_eq {d d' : ℕ} (h : idOf d = idOf d') : d ≡ d' [MOD idTurn] := by
  unfold idOf idTurn at h
  unfold Nat.ModEq idTurn
  split_ifs at h <;> omega

/-- The thread has just queued a section. -/
def FilterThread.Queues {k : ℕ} : FilterThread k → Prop
  | .queued _ _ _ => True
  | _ => False

namespace SectionFilter

variable {n k : ℕ} {read : RmfQueue → Option ℕ × RmfQueue} {s s' : SectionFilter n k} {i : Fin n}

/-! ## Places -/

/-- How many threads have the section. -/
def carried (s : SectionFilter n k) (sec : ℕ) : ℕ := total (FilterThread.carries sec) s.threads

/-- How often it is in a queue. -/
def waiting (s : SectionFilter n k) (sec : ℕ) : ℕ :=
  total (fun q : SectionRequest => q.contents.count sec) s.requests

/-- The event of the section may fail: the section is at the head of its queue, or there is
nothing in the queue. -/
def MayFail (s : SectionFilter n k) : FilterThread k → Prop
  | .queued r sec _ =>
    (s.requests r).contents = [] ∨ (s.requests r).contents.head? = some sec
  | _ => True

instance (s : SectionFilter n k) : DecidablePred s.MayFail
  | .queued _ _ _ => inferInstanceAs (Decidable (_ ∨ _))
  | .idle | .incremented | .drawn _ _ | .received _ _ | .counted _ _ _ | .finishing _
  | .setting _ | .starting _ | .lookingUp _ _ | .cancelling _ _ | .releasing _ | .removed _ _
  | .purging _ | .getting _ _ _ | .holding _ | .releasingSection _ => isTrue trivial

/-- The section that was read may be handed out: there is memory for the node, and its id was
not drawn together with that of a section that is outstanding, nor whole turns before or after
it. -/
def MayHand (s : SectionFilter n k) (allocated : Bool) : FilterThread k → Prop
  | .holding sec => allocated = true ∧ ∀ node ∈ s.outstandingSections,
      ¬ (s.sections node.2).draw ≡ (s.sections sec).draw [MOD idTurn]
  | _ => True

instance (s : SectionFilter n k) (allocated : Bool) : DecidablePred (s.MayHand allocated)
  | .holding _ => inferInstanceAs (Decidable (_ ∧ ∀ _ ∈ _, ¬ _))
  | .idle | .incremented | .drawn _ _ | .received _ _ | .counted _ _ _ | .queued _ _ _
  | .finishing _ | .setting _ | .starting _ | .lookingUp _ _ | .cancelling _ _ | .releasing _
  | .removed _ _ | .purging _ | .getting _ _ _ | .releasingSection _ => isTrue trivial

/-- Requests are kept, and sections are where their event fails or they are handed out. -/
def Keeps (s : SectionFilter n k) (e : Fin n × FilterAction k) : Prop :=
  s.Exclusive e ∧
    match e with
    | (i, .dispatch false) => s.MayFail (s.threads i)
    | (i, .insertOutstanding allocated) => s.MayHand allocated (s.threads i)
    | _ => True

instance (s : SectionFilter n k) : DecidablePred s.Keeps
  | (_, .dispatch false) | (_, .insertOutstanding _) => inferInstanceAs (Decidable (_ ∧ _))
  | (_, .dispatch true) | (_, .incrementSectionID) | (_, .returnSectionID)
  | (_, .sectionAvail _ _ _) | (_, .countMatch) | (_, .push) | (_, .finish)
  | (_, .setFilter _ _ _) | (_, .create _) | (_, .start _) | (_, .cancelFilter _)
  | (_, .releaseFilter _) | (_, .remove) | (_, .settle _) | (_, .purgeNext)
  | (_, .getSectionHandle _ _) | (_, .read) | (_, .readSection _ _ _ _ _)
  | (_, .releaseSection _) | (_, .next) => inferInstanceAs (Decidable (_ ∧ True))

/-- `Read` takes the next section off the queue, or nothing. -/
def Pulls (read : RmfQueue → Option ℕ × RmfQueue) : Prop :=
  ∀ q, ((read q).1 = q.contents.head? ∧ (read q).2.contents = q.contents.tail) ∨
    (read q).1 = none ∧ (read q).2.contents = q.contents

theorem pulls_popHead : Pulls RmfQueue.popHead := fun q => Or.inl q.popHead_eq

/-! ## Queues -/

/-- The queues and the logs of the requests agree. -/
structure QueuesSound (s : SectionFilter n k) : Prop where
  /-- a request with sections to be read is in use -/
  home : ∀ r, (s.requests r).contents ≠ [] →
    (s.requests r).inserted = true ∧ (s.requests r).frees = 0
  obtained : ∀ r, (s.requests r).obtained <+: (s.requests r).queued
  order : ∀ r, (s.requests r).frees = 0 →
    (s.requests r).queued = (s.requests r).obtained ++ (s.requests r).contents
  /-- what a callback has just queued is the latest -/
  latest : ∀ {i : Fin n} {r : Fin k} {sec : ℕ} {last : Bool}, s.threads i = .queued r sec last →
    (s.requests r).queued.getLast? = some sec

/-- The requests do not differ in what `QueuesSound` says of them. -/
structure SameQueue (q q' : SectionRequest) : Prop where
  contents_eq : q'.contents = q.contents
  queued_eq : q'.queued = q.queued
  obtained_eq : q'.obtained = q.obtained
  inserted_eq : q'.inserted = q.inserted
  frees_eq : q'.frees = q.frees

theorem SameQueue.refl (q : SectionRequest) : SameQueue q q := ⟨rfl, rfl, rfl, rfl, rfl⟩

theorem SameQueue.of_alike {q q' : SectionRequest} (h : q.Alike q') : SameQueue q q' :=
  ⟨congrArg RmfQueue.contents h.queue_eq, h.queued_eq, h.obtained_eq, h.inserted_eq, h.frees_eq⟩

theorem sameQueue_update {r₀ : Fin k} {q : SectionRequest} (h : SameQueue (s.requests r₀) q)
    (r : Fin k) : SameQueue (s.requests r) (update s.requests r₀ q r) := by
  by_cases hr : r = r₀
  · subst hr
    rw [update_self]
    exact h
  · rw [update_of_ne hr]
    exact .refl _

theorem queues_of_eq {t : FilterThread k} {r : Fin k} {sec : ℕ} {last : Bool}
    (h : t = .queued r sec last) : t.Queues := by
  subst h
  trivial

theorem not_queues_of_calm {t : FilterThread k} (h : t.Calm) : ¬ t.Queues := by
  cases t <;> first | exact id | exact h.elim

namespace QueuesSound

/-- A step that changes no queue. -/
theorem of_still (h : s.QueuesSound) {t : FilterThread k}
    (hthreads : s'.threads = update s.threads i t) (ht : ¬ t.Queues)
    (hrequest : ∀ r, SameQueue (s.requests r) (s'.requests r)) : s'.QueuesSound := by
  refine ⟨fun r => ?_, fun r => ?_, fun r => ?_, fun {j r sec last} hj => ?_⟩
  · rw [(hrequest r).contents_eq, (hrequest r).inserted_eq, (hrequest r).frees_eq]
    exact h.home r
  · rw [(hrequest r).obtained_eq, (hrequest r).queued_eq]
    exact h.obtained r
  · rw [(hrequest r).contents_eq, (hrequest r).obtained_eq, (hrequest r).queued_eq,
      (hrequest r).frees_eq]
    exact h.order r
  · rw [(hrequest r).queued_eq]
    rw [hthreads] at hj
    by_cases hji : j = i
    · subst hji
      rw [update_self] at hj
      exact absurd (queues_of_eq hj) ht
    · rw [update_of_ne hji] at hj
      exact h.latest hj

/-- A step that changes the queue of one request; `hlatest` is about the thread that moved, and
no other has just queued a section for the request. -/
theorem of_one (h : s.QueuesSound) {t : FilterThread k} {r₀ : Fin k} {q : SectionRequest}
    (hthreads : s'.threads = update s.threads i t)
    (hrequests : s'.requests = update s.requests r₀ q)
    (hhome : q.contents ≠ [] → q.inserted = true ∧ q.frees = 0)
    (hobtained : q.obtained <+: q.queued)
    (horder : q.frees = 0 → q.queued = q.obtained ++ q.contents)
    (hlatest : ∀ r sec last, t = .queued r sec last → r = r₀ ∧ q.queued.getLast? = some sec)
    (hothers : ∀ j sec last, j ≠ i → s.threads j = .queued r₀ sec last →
      q.queued = (s.requests r₀).queued) : s'.QueuesSound := by
  have hcases : ∀ P : SectionRequest → Prop, P q → (∀ r, P (s.requests r)) →
      ∀ r, P (s'.requests r) := by
    intro P hq hall r
    rw [hrequests]
    by_cases hr : r = r₀
    · subst hr
      rw [update_self]
      exact hq
    · rw [update_of_ne hr]
      exact hall r
  refine ⟨hcases (fun q => q.contents ≠ [] → q.inserted = true ∧ q.frees = 0) hhome h.home,
    hcases (fun q => q.obtained <+: q.queued) hobtained h.obtained,
    hcases (fun q => q.frees = 0 → q.queued = q.obtained ++ q.contents) horder h.order,
    fun {j r sec last} hj => ?_⟩
  rw [hthreads] at hj
  by_cases hji : j = i
  · subst hji
    rw [update_self] at hj
    obtain ⟨rfl, hq⟩ := hlatest r sec last hj
    rw [hrequests, update_self]
    exact hq
  · rw [update_of_ne hji] at hj
    rw [hrequests]
    by_cases hr : r = r₀
    · subst hr
      rw [update_self, hothers j sec last hji hj]
      exact h.latest hj
    · rw [update_of_ne hr]
      exact h.latest hj

end QueuesSound

/-- A request that a callback works on is in use, and no other callback works on it. -/
theorem Sound.of_processes (h : s.Sound) {r : Fin k} (hi : (s.threads i).processes r = 1) :
    ((s.requests r).inserted = true ∧ (s.requests r).frees = 0) ∧
      (s.requests r).created = true ∧ ∀ j, j ≠ i → (s.threads j).processes r = 0 := by
  have hle : (s.threads i).processes r ≤ (s.view r).processing :=
    le_total (FilterThread.processes r) s.threads i
  have hfrees : (s.view r).frees = (s.requests r).frees := rfl
  have hinserted : (s.view r).inserted = (s.requests r).inserted.toNat := rfl
  have hnew : (s.view r).created = (s.requests r).created.toNat := rfl
  obtain ⟨hmarked, hone, hprocessing, hplaces, hcreated, hinle, hin, -, -⟩ := h.requests r
  refine ⟨⟨?_, by omega⟩, ?_, fun j hj => ?_⟩
  · exact Bool.toNat_eq_one.mp (by omega)
  · exact Bool.toNat_eq_one.mp (by omega)
  · have htwo : (s.threads i).processes r + (s.threads j).processes r ≤ (s.view r).processing :=
      add_le_total (a := .idle) (w := FilterThread.processes r) rfl s.threads hj.symm
    omega

/-- A request that is found in the table is in use. -/
theorem Sound.of_lookup (h : s.Sound) {id : ℕ} {r : Fin k}
    (hid : s.sectionRequests.lookup id = some r) :
    (s.requests r).inserted = true ∧ (s.requests r).frees = 0 := by
  have htable : 0 < (s.view r).table := SymbolMapTable.count_pos_of_lookup hid
  have hfrees : (s.view r).frees = (s.requests r).frees := rfl
  have hinserted : (s.view r).inserted = (s.requests r).inserted.toNat := rfl
  obtain ⟨-, -, -, hplaces, hcreated, hinle, hin, -, -⟩ := h.requests r
  exact ⟨Bool.toNat_eq_one.mp (by omega), by omega⟩

/-- A request that is in no table and with no release is not in use. -/
theorem Sound.contents_of_owned (h : s.Sound) (hq : s.QueuesSound) {r : Fin k}
    (howned : 0 < (s.view r).owned ∨ (s.requests r).created = false) :
    (s.requests r).contents = [] := by
  by_contra hne
  have hinserted : (s.view r).inserted = 1 := congrArg Bool.toNat (hq.home r hne).1
  obtain ⟨-, -, -, hplaces, hcreated, hle, -, -, -⟩ := h.requests r
  rcases howned with howned | hnew
  · omega
  · have hnone : (s.view r).created = 0 := congrArg Bool.toNat hnew
    omega

theorem owned_pos {r : Fin k} (hi : s.threads i = .setting r) : 0 < (s.view r).owned := by
  have hle : (s.threads i).owns r ≤ (s.view r).owned := le_total (FilterThread.owns r) s.threads i
  rw [hi] at hle
  exact Nat.lt_of_lt_of_le (by simp [FilterThread.owns]) hle

/-- What a failed dispatch does to a request. -/
theorem undelivered_cases {r : SectionRequest} {sec : ℕ} {found : Option ℕ} {q : SectionRequest}
    (h : r.uncount.withdraw sec = (found, q)) :
    (r.contents = [] ∧ found = none ∧ SameQueue r q) ∨
    ∃ head rest, r.contents = head :: rest ∧ found = some head ∧ q.contents = rest ∧
      q.queued = SectionRequest.unqueue sec r.queued ∧ q.obtained = r.obtained ∧
      q.inserted = r.inserted ∧ q.frees = r.frees := by
  have hsame := SameQueue.of_alike r.alike_uncount
  rcases SectionRequest.withdraw_cases r.uncount sec with
    ⟨hempty, q', hq', hnone⟩ | ⟨head, rest, q', hhead, hrest, hsome⟩
  · rw [hnone] at h
    obtain ⟨rfl, rfl⟩ := Prod.mk.inj h
    have hcontents := hsame.contents_eq.symm.trans hempty
    exact Or.inl ⟨hcontents, rfl, hq'.trans hcontents.symm, hsame.queued_eq, hsame.obtained_eq,
      hsame.inserted_eq, hsame.frees_eq⟩
  · rw [hsome] at h
    obtain ⟨rfl, rfl⟩ := Prod.mk.inj h
    exact Or.inr ⟨head, rest, hsame.contents_eq.symm.trans hhead, rfl, hrest,
      congrArg (SectionRequest.unqueue sec) hsame.queued_eq, hsame.obtained_eq,
      hsame.inserted_eq, hsame.frees_eq⟩

/-- Every section that was passed is in one place. -/
def PlacesSound (s : SectionFilter n k) : Prop :=
  ∀ sec, s.carried sec + s.waiting sec + s.outstandingSections.count sec +
    (s.sections sec).frees = (s.sections sec).passed.toNat

theorem PlacesSound.count_contents_le (h : s.PlacesSound) (r : Fin k) (sec : ℕ) :
    (s.requests r).contents.count sec ≤ 1 := by
  have hle : (s.requests r).contents.count sec ≤ s.waiting sec :=
    le_total (fun q : SectionRequest => q.contents.count sec) s.requests r
  have hpassed := Bool.toNat_le (s.sections sec).passed
  have := h sec
  omega

/-- Where the event of the latest section may fail, the section is the only one in its queue. -/
theorem contents_of_mayFail (hp : s.PlacesSound) (hq : s.QueuesSound) {r : Fin k} {sec : ℕ}
    {last : Bool} (hi : s.threads i = .queued r sec last) (hfrees : (s.requests r).frees = 0)
    (hfail : s.MayFail (s.threads i)) {head : ℕ} {rest : List ℕ}
    (hcontents : (s.requests r).contents = head :: rest) :
    head = sec ∧ rest = [] ∧ (s.requests r).queued = (s.requests r).obtained ++ [sec] := by
  rw [hi] at hfail
  obtain rfl : head = sec := by
    rcases hfail with hempty | hhead
    · rw [hcontents] at hempty
      cases hempty
    · rw [hcontents] at hhead
      exact Option.some.inj hhead
  have horder := hq.order r hfrees
  have hlatest := hq.latest hi
  rw [hcontents] at horder
  have hrest : rest = [] := by
    by_contra hne
    -- it would be at both ends of the queue
    rw [horder, List.getLast?_append_of_ne_nil _ (List.cons_ne_nil _ _),
      List.getLast?_cons_of_ne_nil hne] at hlatest
    have hcount := hp.count_contents_le r head
    have hmem : 0 < rest.count head := List.count_pos_iff.mpr (List.mem_of_getLast? hlatest)
    rw [hcontents, List.count_cons_self] at hcount
    omega
  subst hrest
  exact ⟨rfl, rfl, horder⟩

/-- **One step, for the queues.** -/
theorem QueuesSound.moves {a : FilterAction k} (hread : Pulls read) (hs : s.Sound)
    (hp : s.PlacesSound) (h : s.QueuesSound) (hkeeps : s.Keeps (i, a))
    (hmoves : s.Moves read i a s') : s'.QueuesSound := by
  cases hmoves with
  | stay => exact h
  | quiet ht =>
    exact h.of_still rfl (not_queues_of_calm ht.calm)
      fun _ => .refl _
  | touched hq ht =>
    exact h.of_still rfl (not_queues_of_calm ht.calm)
      (sameQueue_update (.of_alike hq))
  | incremented _ | drew _ | lost _ _ _ | dismissed _ | removedNone _ | settledNone _
  | parked _ _ _ | forgotten _ _ _ | skipped _ _ | handed _ | released _ _ =>
    exact h.of_still rfl id fun _ => .refl _
  | marked _ _ _ | finished _ | removed _ _ =>
    exact h.of_still rfl id
      (sameQueue_update ⟨rfl, rfl, rfl, rfl, rfl⟩)
  | overflown _ =>
    exact h.of_still rfl id
      (sameQueue_update (.of_alike (SectionRequest.alike_uncount _)))
  | @pushed r sec last q hi hpush =>
    obtain ⟨hlive, -, hothers⟩ :=
      hs.of_processes (i := i) (r := r) (by rw [hi]; exact if_pos rfl)
    have hfrees := hlive.2
    obtain ⟨q', hq', rfl⟩ := SectionRequest.push_eq hpush
    have horder := h.order r hfrees
    refine h.of_one rfl rfl (fun _ => hlive) ?_ (fun _ => ?_) ?_ ?_
    · exact (h.obtained r).trans (List.prefix_append _ _)
    · show (s.requests r).queued ++ [sec] = (s.requests r).obtained ++ q'.contents
      rw [hq', ← List.append_assoc]
      exact congrArg (· ++ [sec]) horder
    · intro r' sec' last' heq
      obtain ⟨rfl, rfl, -⟩ := FilterThread.queued.inj heq
      exact ⟨rfl, List.getLast?_concat⟩
    · intro j sec' last' hji hj
      exact absurd (hothers j hji) (hj ▸ by simp [FilterThread.processes])
  | @undelivered r sec last found q hi hwithdraw =>
    obtain ⟨hlive, -, hothers⟩ :=
      hs.of_processes (i := i) (r := r) (by rw [hi]; exact if_pos rfl)
    rw [freeSections_eq]
    rcases undelivered_cases hwithdraw with
      ⟨-, -, hsame⟩ | ⟨head, rest, hcontents, -, hrest, hqueued, hobtained, -, -⟩
    · exact h.of_still rfl id (sameQueue_update hsame)
    · obtain ⟨rfl, rfl, horder⟩ := contents_of_mayFail hp h hi hlive.2 hkeeps.2 hcontents
      rw [horder, SectionRequest.unqueue_append] at hqueued
      refine h.of_one rfl rfl (fun hne => absurd hrest hne) ?_ (fun _ => ?_)
        (fun _ _ _ heq => absurd (queues_of_eq heq) id) ?_
      · rw [hqueued, hobtained]
      · rw [hqueued, hobtained, hrest, List.append_nil]
      · intro j sec' last' hji hj
        exact absurd (hothers j hji) (hj ▸ by simp [FilterThread.processes])
  | @allocated r timesToMatch priority hi hnew =>
    refine h.of_one rfl rfl (fun hne => absurd rfl hne) List.prefix_rfl (fun _ => rfl)
      (fun _ _ _ heq => absurd (queues_of_eq heq) id) ?_
    intro j sec last hji hj
    -- the request would have been there
    obtain ⟨-, hcreated, -⟩ := hs.of_processes (i := j) (r := r) (by rw [hj]; exact if_pos rfl)
    rw [hnew] at hcreated
    cases hcreated
  | @dropped r result hi =>
    have hempty := hs.contents_of_owned h (Or.inl (owned_pos hi))
    exact h.of_one rfl rfl (fun hne => absurd hempty hne) (h.obtained r)
      (fun hfrees => absurd hfrees (Nat.succ_ne_zero _)) (fun _ _ _ heq => absurd (queues_of_eq heq) id)
      fun _ _ _ _ _ => rfl
  | @inserted r key allocated hi =>
    have hempty := hs.contents_of_owned h (Or.inl (owned_pos hi))
    exact h.of_one rfl rfl (fun hne => absurd hempty hne) (h.obtained r) (h.order r)
      (fun _ _ _ heq => absurd (queues_of_eq heq) id) fun _ _ _ _ _ => rfl
  | @freed r key allocated hi hmark =>
    refine h.of_one (i := i) (t := .purging s.sectionRequestsToRemove) ?_
      (s.requests_releaseFilterRequest r) (fun hne => absurd rfl hne) (h.obtained r)
      (fun hfrees => absurd hfrees (Nat.succ_ne_zero _)) (fun _ _ _ heq => absurd (queues_of_eq heq) id)
      fun _ _ _ _ _ => rfl
    rw [← (s.releaseFilterRequest_frame r).1, ← (s.releaseFilterRequest_frame r).2.2.1]
    rfl
  | @purged key r rest hi hmark =>
    refine h.of_one (i := i) (t := .purging rest) ?_ (requests_releaseFilterRequest _ r)
      (fun hne => absurd rfl hne) (h.obtained r)
      (fun hfrees => absurd hfrees (Nat.succ_ne_zero _)) (fun _ _ _ heq => absurd (queues_of_eq heq) id)
      fun _ _ _ _ _ => rfl
    exact congrArg (update · i (.purging rest)) (releaseFilterRequest_frame _ r).1
  | @read key r r' f found q hi hid hobtain =>
    obtain ⟨hfound, hq⟩ := Prod.mk.inj hobtain
    have hlive := hs.of_lookup hid
    have horder := h.order r' hlive.2
    have hnew : q.queued = q.obtained ++ q.contents := by
      rw [← hq]
      show (s.requests r').queued = ((s.requests r').obtained ++
        (read (s.requests r').sectionsDataQueue).1.toList) ++
          (read (s.requests r').sectionsDataQueue).2.contents
      rw [List.append_assoc, horder]
      congr 1
      rcases hread (s.requests r').sectionsDataQueue with ⟨hhead, htail⟩ | ⟨hnone, hsame⟩
      · rw [hhead, htail]
        rcases hcontents : (s.requests r').contents with _ | ⟨x, rest⟩
        · rw [show (s.requests r').sectionsDataQueue.contents = [] from hcontents]
          rfl
        · rw [show (s.requests r').sectionsDataQueue.contents = x :: rest from hcontents]
          rfl
      · rw [hnone, hsame]
        rfl
    refine h.of_one rfl rfl (fun _ => by rw [← hq]; exact hlive) ?_ (fun _ => hnew) ?_
      fun _ _ _ _ _ => hq ▸ rfl
    · rw [hnew]
      exact List.prefix_append _ _
    · intro _ _ _ heq
      rcases found with _ | sec
      · exact absurd (queues_of_eq heq) id
      · exact absurd (queues_of_eq heq) id

/-! ## Places -/

/-- A thread has moved. -/
theorem carried_threads {t : FilterThread k} (h : s'.threads = update s.threads i t)
    (sec : ℕ) : s'.carried sec + (s.threads i).carries sec = s.carried sec + t.carries sec := by
  unfold carried
  rw [h]
  exact total_update (FilterThread.carries sec) s.threads i t

/-- A request has changed. -/
theorem waiting_requests {r : Fin k} {q : SectionRequest}
    (h : s'.requests = update s.requests r q) (sec : ℕ) :
    s'.waiting sec + (s.requests r).contents.count sec =
      s.waiting sec + q.contents.count sec := by
  unfold waiting
  rw [h]
  exact total_update (fun q : SectionRequest => q.contents.count sec) s.requests r q

theorem waiting_eq (h : ∀ r, (s'.requests r).contents = (s.requests r).contents) (sec : ℕ) :
    s'.waiting sec = s.waiting sec := by
  unfold waiting total
  exact Finset.sum_congr rfl fun r _ => congrArg (List.count sec) (h r)

theorem sections_setSection (s : SectionFilter n k) (sec : ℕ) (d : SectionData) :
    (s.setSection sec d).sections sec = d := by
  show update s.sections sec d sec = d
  rw [update_self]

theorem sections_setSection_of_ne (s : SectionFilter n k) {sec sec' : ℕ} (d : SectionData)
    (h : sec ≠ sec') : (s.setSection sec d).sections sec' = s.sections sec' := by
  show update s.sections sec d sec' = _
  rw [update_of_ne fun hsec => h hsec.symm]

theorem sections_freeSection_of_ne (s : SectionFilter n k) {sec sec' : ℕ} (h : sec ≠ sec') :
    (s.freeSection sec).sections sec' = s.sections sec' :=
  sections_setSection_of_ne s _ h

/-- A section has been freed. -/
theorem sections_freeSection (s : SectionFilter n k) (sec sec' : ℕ) :
    ((s.freeSection sec).sections sec').passed = (s.sections sec').passed ∧
    ((s.freeSection sec).sections sec').frees =
      (s.sections sec').frees + if sec = sec' then 1 else 0 := by
  show (update s.sections sec ((s.sections sec).free 1) sec').passed = _ ∧
    (update s.sections sec ((s.sections sec).free 1) sec').frees = _
  by_cases hsec : sec' = sec
  · subst hsec
    rw [update_self, if_pos rfl]
    exact ⟨rfl, rfl⟩
  · rw [update_of_ne hsec, if_neg fun h => hsec h.symm]
    exact ⟨rfl, rfl⟩

namespace PlacesSound

variable {t : FilterThread k}

/-- A step that moves no section. -/
theorem of_still (h : s.PlacesSound)
    (hthreads : s'.threads = update s.threads i t)
    (ht : ∀ sec, t.carries sec = (s.threads i).carries sec)
    (hrequest : ∀ r, (s'.requests r).contents = (s.requests r).contents)
    (hout : s'.outstandingSections = s.outstandingSections) (hsections : s'.sections = s.sections) :
    s'.PlacesSound := by
  intro sec
  have hcarried := carried_threads hthreads sec
  rw [ht sec] at hcarried
  rw [Nat.add_right_cancel hcarried, waiting_eq hrequest sec, hout, hsections]
  exact h sec

/-- A section comes in, is freed at once or is in the hands of the thread. -/
theorem of_passed (h : s.PlacesSound) {sec : ℕ}
    (hnew : (s.sections sec).passed = false)
    (hthreads : s'.threads = update s.threads i t)
    (hi : ∀ sec', (s.threads i).carries sec' = 0)
    (hrequest : ∀ r, (s'.requests r).contents = (s.requests r).contents)
    (hout : s'.outstandingSections = s.outstandingSections)
    (hpassed : (s'.sections sec).passed = true)
    (hself : t.carries sec + (s'.sections sec).frees = 1)
    (hothers : ∀ sec', sec ≠ sec' →
      t.carries sec' = 0 ∧ s'.sections sec' = s.sections sec') : s'.PlacesSound := by
  intro sec'
  have hcarried := carried_threads hthreads sec'
  have hplace := h sec'
  rw [hi sec'] at hcarried
  rw [waiting_eq hrequest sec', hout]
  by_cases hsec : sec = sec'
  · subst hsec
    rw [hnew, Bool.toNat_false] at hplace
    rw [hpassed, Bool.toNat_true]
    omega
  · obtain ⟨ht, hsame⟩ := hothers sec' hsec
    rw [hsame]
    omega

/-- The thread frees the section that it has. -/
theorem of_freed (h : s.PlacesSound) {sec : ℕ}
    (hthreads : s'.threads = update s.threads i t)
    (hi : ∀ sec', (s.threads i).carries sec' = if sec = sec' then 1 else 0)
    (ht : ∀ sec', t.carries sec' = 0)
    (hrequest : ∀ r, (s'.requests r).contents = (s.requests r).contents)
    (hout : s'.outstandingSections = s.outstandingSections)
    (hsections : ∀ sec', (s'.sections sec').passed = (s.sections sec').passed ∧
      (s'.sections sec').frees = (s.sections sec').frees + if sec = sec' then 1 else 0) :
    s'.PlacesSound := by
  intro sec'
  have hcarried := carried_threads hthreads sec'
  have hplace := h sec'
  rw [hi sec', ht sec'] at hcarried
  obtain ⟨hpassed, hfrees⟩ := hsections sec'
  rw [waiting_eq hrequest sec', hout, hpassed, hfrees]
  omega

/-- Sections go into a queue or out of it: the thread has them before or after, or they are
freed. -/
theorem of_queue (h : s.PlacesSound) {r : Fin k} {q : SectionRequest}
    (freed : List ℕ) (hthreads : s'.threads = update s.threads i t)
    (hrequests : s'.requests = update s.requests r q)
    (hout : s'.outstandingSections = s.outstandingSections)
    (hsections : ∀ sec, s'.sections sec = (s.sections sec).free (freed.count sec))
    (hsame : ∀ sec, t.carries sec + q.contents.count sec + freed.count sec =
      (s.threads i).carries sec + (s.requests r).contents.count sec) : s'.PlacesSound := by
  intro sec
  have hcarried := carried_threads hthreads sec
  have hwaiting := waiting_requests hrequests sec
  have hplace := h sec
  have hkeep := hsame sec
  rw [hsections, hout]
  show _ + _ + _ + ((s.sections sec).frees + freed.count sec) = (s.sections sec).passed.toNat
  omega

/-- The section that the thread has becomes outstanding. -/
theorem of_handed (h : s.PlacesSound) {sec key : ℕ}
    (hthreads : s'.threads = update s.threads i t)
    (hi : ∀ sec', (s.threads i).carries sec' = if sec = sec' then 1 else 0)
    (ht : ∀ sec', t.carries sec' = 0) (hrequests : s'.requests = s.requests)
    (hout : s'.outstandingSections = s.outstandingSections.insert key sec true)
    (hsections : s'.sections = s.sections) : s'.PlacesSound := by
  intro sec'
  have hcarried := carried_threads hthreads sec'
  have hplace := h sec'
  rw [hi sec', ht sec'] at hcarried
  have hwaiting : s'.waiting sec' = s.waiting sec' := waiting_eq (fun r => by rw [hrequests]) sec'
  rw [hwaiting, hout, hsections, SymbolMapTable.count_insert]
  omega

/-- An outstanding section is freed. -/
theorem of_released (h : s.PlacesSound) {sec key : ℕ}
    {table : SymbolMapTable ℕ} (hthreads : s'.threads = update s.threads i t)
    (ht : ∀ sec, t.carries sec = (s.threads i).carries sec) (hrequests : s'.requests = s.requests)
    (hremove : SymbolMapTable.remove key s.outstandingSections = (some sec, table))
    (hout : s'.outstandingSections = table)
    (hsections : ∀ sec', (s'.sections sec').passed = (s.sections sec').passed ∧
      (s'.sections sec').frees = (s.sections sec').frees + if sec = sec' then 1 else 0) :
    s'.PlacesSound := by
  intro sec'
  have hcarried := carried_threads hthreads sec'
  have hcount := SymbolMapTable.count_remove hremove sec'
  have hplace := h sec'
  obtain ⟨hpassed, hfrees⟩ := hsections sec'
  rw [ht sec'] at hcarried
  simp only [Option.some.injEq] at hcount
  have hwaiting : s'.waiting sec' = s.waiting sec' := waiting_eq (fun r => by rw [hrequests]) sec'
  rw [hwaiting, hout, hpassed, hfrees]
  omega

end PlacesSound

/-- **One step, for the places.** -/
theorem PlacesSound.moves {a : FilterAction k} (hread : Pulls read) (hs : s.Sound)
    (hq : s.QueuesSound) (h : s.PlacesSound) (hkeeps : s.Keeps (i, a))
    (hmoves : s.Moves read i a s') : s'.PlacesSound := by
  have hupdate : ∀ {r : Fin k} {q : SectionRequest}, q.contents = (s.requests r).contents →
      ∀ r', (update s.requests r q r').contents = (s.requests r').contents := by
    intro r q hq r'
    by_cases hr : r' = r
    · subst hr
      rw [update_self]
      exact hq
    · rw [update_of_ne hr]
  cases hmoves with
  | stay => exact h
  | quiet ht => exact h.of_still rfl ht.carries_eq (fun _ => rfl) rfl rfl
  | touched hq ht =>
    exact h.of_still rfl ht.carries_eq (hupdate (SameQueue.of_alike hq).contents_eq) rfl rfl
  | incremented hi | drew hi | removedNone hi | settledNone hi | parked hi _ _ | forgotten hi _ _
  | skipped hi _ => exact h.of_still rfl (hi ▸ fun _ => rfl) (fun _ => rfl) rfl rfl
  | @lost sectionID draw id sec data hi hnew hid =>
    have hsections := sections_freeSection (s.setSection sec ⟨sectionID, data, true, draw, 0⟩) sec
    refine h.of_passed hnew rfl (hi ▸ fun _ => rfl) (fun _ => rfl) rfl ?_ ?_ fun sec' hsec =>
      ⟨rfl, ?_⟩
    · exact (hsections sec).1.trans (congrArg SectionData.passed (sections_setSection _ _ _))
    · refine (Nat.zero_add _).trans ((hsections sec).2.trans ?_)
      rw [sections_setSection, if_pos rfl]
    · exact (sections_freeSection_of_ne _ hsec).trans (sections_setSection_of_ne _ _ hsec)
  | @marked sectionID draw id sec data r hi hnew hid =>
    refine h.of_passed hnew rfl (hi ▸ fun _ => rfl) (hupdate rfl) rfl ?_ ?_ fun sec' hsec =>
      ⟨if_neg hsec, ?_⟩
    · exact congrArg SectionData.passed (sections_setSection s sec _)
    · have hfrees := congrArg SectionData.frees
        (sections_setSection s sec ⟨sectionID, data, true, draw, 0⟩)
      refine (congrArg _ hfrees).trans ?_
      exact if_pos rfl
    · exact sections_setSection_of_ne s _ hsec
  | dismissed hi =>
    exact h.of_freed rfl (hi ▸ fun _ => rfl) (fun _ => rfl) (fun _ => rfl) rfl
      (sections_freeSection s _)
  | overflown hi =>
    exact h.of_freed rfl (hi ▸ fun _ => rfl) (fun _ => rfl)
      (hupdate (SameQueue.of_alike (SectionRequest.alike_uncount _)).contents_eq) rfl
      (sections_freeSection _ _)
  | @pushed r sec last q hi hpush =>
    obtain ⟨q', hq', rfl⟩ := SectionRequest.push_eq hpush
    refine h.of_queue [] rfl rfl rfl (fun _ => rfl) fun sec' => ?_
    rw [hi]
    show 0 + q'.contents.count sec' + 0 = (if sec = sec' then 1 else 0) + _
    rw [hq', List.count_append, List.count_singleton]
    simp only [beq_iff_eq]
    omega
  | @undelivered r sec last found q hi hwithdraw =>
    have hcalm : ∀ sec', (s.threads i).carries sec' = 0 := hi ▸ fun _ => rfl
    rcases undelivered_cases hwithdraw with
      ⟨-, rfl, hsame⟩ | ⟨head, rest, hcontents, rfl, hrest, -⟩
    · exact h.of_still rfl (hi ▸ fun _ => rfl) (hupdate hsame.contents_eq) rfl rfl
    · rw [freeSections_eq]
      refine h.of_queue [head] rfl rfl rfl (fun _ => rfl) fun sec' => ?_
      rw [hcalm, hrest, hcontents, List.count_singleton, List.count_cons]
      show 0 + _ + _ = _
      omega
  | finished hi | dropped hi | inserted hi | removed hi _ =>
    exact h.of_still rfl (hi ▸ fun _ => rfl) (hupdate rfl) rfl rfl
  | allocated hi hnew =>
    exact h.of_still rfl (hi ▸ fun _ => rfl)
      (hupdate (hs.contents_of_owned hq (Or.inr hnew)).symm) rfl rfl
  | @freed r key allocated hi hmark | @purged key r rest hi hmark =>
    have hcalm : ∀ sec, (s.threads i).carries sec = 0 := hi ▸ fun _ => rfl
    rw [releaseFilterRequest_eq, freeSections_eq]
    refine h.of_queue (s.requests r).contents rfl rfl rfl (fun _ => rfl) fun sec => ?_
    rw [hcalm]
    show 0 + 0 + _ = 0 + _
    rw [Nat.zero_add]
  | @read key r r' f found q hi hid hobtain =>
    obtain ⟨hfound, hq⟩ := Prod.mk.inj hobtain
    have hcalm : ∀ sec, (s.threads i).carries sec = 0 := hi ▸ fun _ => rfl
    refine h.of_queue [] rfl rfl rfl (fun _ => rfl) fun sec => ?_
    have hcontents : q.contents = (read (s.requests r').sectionsDataQueue).2.contents := hq ▸ rfl
    rw [hcalm, hcontents, ← hfound]
    rcases hread (s.requests r').sectionsDataQueue with ⟨hhead, htail⟩ | ⟨hnone, hsame⟩
    · rw [hhead, htail]
      show _ = 0 + (s.requests r').sectionsDataQueue.contents.count sec
      rcases (s.requests r').sectionsDataQueue.contents with _ | ⟨x, rest⟩
      · rfl
      · rw [List.count_cons]
        show (if x = sec then 1 else 0) + rest.count sec + 0 = _
        simp only [beq_iff_eq]
        omega
    · rw [hnone, hsame]
      rfl
  | @handed sec allocated hi =>
    have hhand : s.MayHand allocated (s.threads i) := hkeeps.2
    rw [hi] at hhand
    obtain ⟨rfl, -⟩ := hhand
    exact h.of_handed rfl (hi ▸ fun _ => rfl) (fun _ => rfl) rfl rfl rfl
  | released ht hremove =>
    exact h.of_released rfl ht.carries_eq rfl hremove rfl (sections_freeSection _ _)

/-! ## Handles -/

/-- The ids are those that were drawn, and the outstanding sections are under their ids, which
differ. -/
structure HandlesSound (s : SectionFilter n k) : Prop where
  val_eq : s.val = idOf s.draws
  drawn : ∀ {i : Fin n} {sectionID draw : ℕ}, s.threads i = .drawn sectionID draw →
    sectionID = idOf draw
  ids : ∀ sec, (s.sections sec).passed = true →
    (s.sections sec).sectionID = idOf (s.sections sec).draw
  keyed : ∀ node ∈ s.outstandingSections, node.1 = (s.sections node.2).sectionID
  handles : s.outstandingSections.keys.Nodup

/-- The sections do not differ in their ids. -/
def SameIds (s s' : SectionFilter n k) : Prop :=
  ∀ sec, (s'.sections sec).passed = (s.sections sec).passed ∧
    (s'.sections sec).sectionID = (s.sections sec).sectionID ∧
    (s'.sections sec).draw = (s.sections sec).draw

theorem sameIds_freeSection (s : SectionFilter n k) (sec : ℕ) : s.SameIds (s.freeSection sec) := by
  intro sec'
  show (update s.sections sec ((s.sections sec).free 1) sec').passed = _ ∧
    (update s.sections sec ((s.sections sec).free 1) sec').sectionID = _ ∧
    (update s.sections sec ((s.sections sec).free 1) sec').draw = _
  by_cases hsec : sec' = sec
  · subst hsec
    rw [update_self]
    exact ⟨rfl, rfl, rfl⟩
  · rw [update_of_ne hsec]
    exact ⟨rfl, rfl, rfl⟩

/-- An outstanding section was passed. -/
theorem PlacesSound.passed_of_mem (h : s.PlacesSound) {node : ℕ × ℕ}
    (hmem : node ∈ s.outstandingSections) : (s.sections node.2).passed = true := by
  have hcount : 0 < s.outstandingSections.count node.2 :=
    List.count_pos_iff.mpr (List.mem_map.mpr ⟨node, hmem, rfl⟩)
  have hplace := h node.2
  refine Bool.toNat_eq_one.mp ?_
  have := Bool.toNat_le (s.sections node.2).passed
  omega

namespace HandlesSound

/-- A step that changes nothing of the ids. -/
theorem of_still (h : s.HandlesSound) {t : FilterThread k}
    (hthreads : s'.threads = update s.threads i t)
    (ht : ∀ sectionID draw, t ≠ .drawn sectionID draw)
    (hval : s'.val = s.val ∧ s'.draws = s.draws)
    (hout : s'.outstandingSections.Sublist s.outstandingSections) (hids : s.SameIds s') :
    s'.HandlesSound := by
  refine ⟨?_, fun {j sectionID draw} hj => ?_, fun sec hpassed => ?_, fun node hnode => ?_, ?_⟩
  · rw [hval.1, hval.2]
    exact h.val_eq
  · rw [hthreads] at hj
    by_cases hji : j = i
    · subst hji
      rw [update_self] at hj
      exact absurd hj (ht sectionID draw)
    · rw [update_of_ne hji] at hj
      exact h.drawn hj
  · obtain ⟨hpassed', hid, hdraw⟩ := hids sec
    rw [hid, hdraw]
    exact h.ids sec (hpassed' ▸ hpassed)
  · rw [(hids node.2).2.1]
    exact h.keyed node (hout.subset hnode)
  · exact (hout.map Prod.fst).nodup h.handles

/-- A section is passed with the id that was drawn for it. -/
theorem of_passed (h : s.HandlesSound) (hp : s.PlacesSound) {t : FilterThread k} {sec : ℕ}
    {d : SectionData} (hnew : (s.sections sec).passed = false) (hd : d.sectionID = idOf d.draw)
    (hthreads : s'.threads = update s.threads i t)
    (ht : ∀ sectionID draw, t ≠ .drawn sectionID draw)
    (hval : s'.val = s.val ∧ s'.draws = s.draws)
    (hout : s'.outstandingSections = s.outstandingSections)
    (hids : (s.setSection sec d).SameIds s') : s'.HandlesSound := by
  have hset : (s.setSection sec d).HandlesSound := by
    refine ⟨h.val_eq, h.drawn, fun sec' hpassed => ?_, fun node hnode => ?_, h.handles⟩
    · by_cases hsec : sec = sec'
      · subst hsec
        rw [sections_setSection]
        exact hd
      · rw [sections_setSection_of_ne _ _ hsec] at hpassed ⊢
        exact h.ids sec' hpassed
    · have hne : sec ≠ node.2 := by
        rintro rfl
        rw [hp.passed_of_mem hnode] at hnew
        cases hnew
      rw [sections_setSection_of_ne _ _ hne]
      exact h.keyed node hnode
  exact hset.of_still hthreads ht hval (hout ▸ List.Sublist.refl _) hids

end HandlesSound

/-- **One step, for the handles.** -/
theorem HandlesSound.moves {a : FilterAction k} (hp : s.PlacesSound) (h : s.HandlesSound)
    (hkeeps : s.Keeps (i, a)) (hmoves : s.Moves read i a s') : s'.HandlesSound := by
  have hsame : ∀ s : SectionFilter n k, s.SameIds s := fun _ _ => ⟨rfl, rfl, rfl⟩
  cases hmoves with
  | stay => exact h
  | quiet ht | touched _ ht =>
    exact h.of_still rfl (fun _ _ heq => by have := ht.calm; rw [heq] at this; exact this)
      ⟨rfl, rfl⟩ (.refl _) (hsame s)
  | incremented hi =>
    have hnext : ({ s with
        val := nextSectionID s.val, draws := s.draws + 1 } : SectionFilter n k).HandlesSound := by
      refine ⟨?_, h.drawn, h.ids, h.keyed, h.handles⟩
      rw [h.val_eq, nextSectionID_idOf]
    exact hnext.of_still rfl (fun _ _ heq => nomatch heq) ⟨rfl, rfl⟩ (.refl _) (hsame _)
  | drew hi =>
    refine ⟨h.val_eq, fun {j sectionID draw} hj => ?_, h.ids, h.keyed, h.handles⟩
    by_cases hji : j = i
    · subst hji
      have hj : update s.threads j (.drawn s.val s.draws) j = _ := hj
      rw [update_self] at hj
      obtain ⟨rfl, rfl⟩ := FilterThread.drawn.inj hj
      exact h.val_eq
    · have hj : update s.threads i (.drawn s.val s.draws) j = _ := hj
      rw [update_of_ne hji] at hj
      exact h.drawn hj
  | lost hi hnew _ =>
    exact h.of_passed hp hnew (h.drawn hi) rfl (fun _ _ heq => nomatch heq) ⟨rfl, rfl⟩ rfl
      (sameIds_freeSection _ _)
  | marked hi hnew _ =>
    exact h.of_passed hp hnew (h.drawn hi) rfl (fun _ _ heq => nomatch heq) ⟨rfl, rfl⟩ rfl
      (hsame _)
  | dismissed _ | overflown _ =>
    exact h.of_still rfl (fun _ _ heq => nomatch heq) ⟨rfl, rfl⟩ (.refl _)
      (sameIds_freeSection s _)
  | pushed _ _ | finished _ | allocated _ _ | dropped _ | inserted _ | removedNone _
  | removed _ _ | settledNone _ | parked _ _ _ | forgotten _ _ _ | skipped _ _ =>
    exact h.of_still rfl (fun _ _ heq => nomatch heq) ⟨rfl, rfl⟩ (.refl _) (hsame s)
  | @undelivered r sec last found q hi hwithdraw =>
    rw [freeSections_eq]
    exact h.of_still rfl (fun _ _ heq => nomatch heq) ⟨rfl, rfl⟩ (.refl _)
      fun _ => ⟨rfl, rfl, rfl⟩
  | freed _ _ | purged _ _ =>
    rw [releaseFilterRequest_eq, freeSections_eq]
    exact h.of_still rfl (fun _ _ heq => nomatch heq) ⟨rfl, rfl⟩ (.refl _)
      fun _ => ⟨rfl, rfl, rfl⟩
  | @read key r r' f found q hi _ _ =>
    refine h.of_still rfl ?_ ⟨rfl, rfl⟩ (.refl _) (hsame s)
    intro _ _ heq
    rcases found with _ | sec
    · exact nomatch heq
    · exact nomatch heq
  | @handed sec allocated hi =>
    have hhand : s.MayHand allocated (s.threads i) := hkeeps.2
    rw [hi] at hhand
    obtain ⟨rfl, hapart⟩ := hhand
    have hpassed : (s.sections sec).passed = true := by
      have hcarried : (s.threads i).carries sec ≤ s.carried sec :=
        le_total (FilterThread.carries sec) s.threads i
      have hone : (s.threads i).carries sec = 1 := by
        rw [hi]
        exact if_pos rfl
      have hplace := hp sec
      have := Bool.toNat_le (s.sections sec).passed
      exact Bool.toNat_eq_one.mp (by omega)
    have hhanded : ({ s with
        outstandingSections :=
          s.outstandingSections.insert (s.sections sec).sectionID sec true } :
            SectionFilter n k).HandlesSound := by
      refine ⟨h.val_eq, h.drawn, h.ids, fun node hnode => ?_, List.nodup_cons.mpr ⟨?_, h.handles⟩⟩
      · rcases List.mem_cons.mp hnode with rfl | hnode
        · rfl
        · exact h.keyed node hnode
      · intro hmem
        -- the ids were drawn whole turns apart
        obtain ⟨node, hnode, hkey⟩ := List.mem_map.mp hmem
        refine hapart node hnode (modEq_of_idOf_eq ?_)
        rw [← h.ids node.2 (hp.passed_of_mem hnode), ← h.keyed node hnode, ← h.ids sec hpassed]
        exact hkey
    exact hhanded.of_still rfl (fun _ _ heq => nomatch heq) ⟨rfl, rfl⟩ (.refl _) (hsame _)
  | @released _ handle sec table _ hremove =>
    have hsub := SymbolMapTable.remove_sublist handle s.outstandingSections
    rw [hremove] at hsub
    exact h.of_still rfl (fun _ _ heq => nomatch heq) ⟨rfl, rfl⟩ hsub (sameIds_freeSection s _)

/-! ## Runs -/

/-- Nothing is lost. -/
structure Placed (s : SectionFilter n k) : Prop where
  sound : s.Sound
  queues : s.QueuesSound
  places : s.PlacesSound
  handles : s.HandlesSound

theorem placed_initial (n k : ℕ) : (initial n k).Placed where
  sound := sound_initial n k
  queues :=
    { home := fun _ hne => absurd rfl hne
      obtained := fun _ => List.prefix_rfl
      order := fun _ _ => rfl
      latest := fun h => nomatch h }
  places sec := by
    have hcarried : (initial n k).carried sec = 0 := total_eq_zero fun _ => rfl
    have hwaiting : (initial n k).waiting sec = 0 := total_eq_zero fun _ => rfl
    rw [hcarried, hwaiting]
    rfl
  handles :=
    { val_eq := rfl
      drawn := fun h => nomatch h
      ids := fun _ h => nomatch h
      keyed := fun _ h => nomatch h
      handles := List.nodup_nil }

/-- **One run.** -/
theorem Placed.run (hread : Pulls read) {events : List (Fin n × FilterAction k)} (h : s.Placed)
    (hkeeps : EachStep (step read) Keeps s events)
    (hrun : runFrom (step read) s events = some s') : s'.Placed := by
  refine EachStep.invariant (fun s e s' hs hkeeps hstep => ?_) hkeeps h hrun
  obtain ⟨hsound, hqueues, hplaces, hhandles⟩ := hs
  have hmoves := step_moves hstep
  exact ⟨hsound.moves hkeeps.1 hmoves, hqueues.moves hread hsound hplaces hkeeps hmoves,
    hplaces.moves hread hsound hqueues hkeeps hmoves, hhandles.moves hplaces hkeeps hmoves⟩

/-- The sections are where they should be. -/
structure SectionsKept (s : SectionFilter n k) : Prop where
  /-- a section that was passed is in the hands of one thread, or once in a queue, or once
  outstanding, or freed once, and only one of these -/
  place : ∀ sec, (s.sections sec).passed = true →
    s.carried sec + s.waiting sec + s.outstandingSections.count sec + (s.sections sec).frees = 1
  /-- a queue with sections is that of a filter that is not freed: it is in the table, or is
  being released, or parked -/
  home : ∀ r, (s.requests r).contents ≠ [] →
    s.sectionRequests.count r + total (FilterThread.releases r) s.threads +
      s.sectionRequestsToRemove.count r = 1 ∧ (s.requests r).frees = 0
  /-- outstanding sections have different handles, -/
  handles : s.outstandingSections.keys.Nodup
  /-- which are their ids -/
  keyed : ∀ node ∈ s.outstandingSections, node.1 = (s.sections node.2).sectionID
  /-- section number `j` that was obtained for a filter is section number `j` that was queued -/
  order : ∀ (r : Fin k) (j : ℕ), ∀ sec ∈ (s.requests r).obtained[j]?,
    (s.requests r).queued[j]? = some sec

theorem Placed.sectionsKept (h : s.Placed) : s.SectionsKept := by
  refine ⟨fun sec hpassed => ?_, fun r hne => ?_, h.handles.handles, h.handles.keyed,
    fun r j sec hsec => ?_⟩
  · rw [h.places sec, hpassed, Bool.toNat_true]
  · obtain ⟨hinserted, hfrees⟩ := h.queues.home r hne
    have hin : (s.view r).inserted = 1 := congrArg Bool.toNat hinserted
    have hnot : (s.view r).frees = 0 := hfrees
    obtain ⟨-, -, -, hplaces, hcreated, hle, hge, -, -⟩ := h.sound.requests r
    refine ⟨?_, hfrees⟩
    show (s.view r).table + (s.view r).taken + (s.view r).parked = 1
    omega
  · obtain ⟨rest, hrest⟩ := h.queues.obtained r
    have hj := (List.getElem?_eq_some_iff.mp hsec).1
    rw [← hrest, List.getElem?_append_left hj]
    exact hsec

/-- **Sections.** Where the requests are kept, the event of a section fails only while the
section is alone in its queue or was read already, and a section is handed out only under an id
that is not outstanding and with memory for it, every section that was passed is in one place
throughout, outstanding sections have different handles, and the sections of a filter are
obtained in the order in which they were queued. -/
theorem sections_kept {read : RmfQueue → Option ℕ × RmfQueue} (hread : Pulls read) {n k : ℕ}
    {events : List (Fin n × FilterAction k)} {s : SectionFilter n k}
    (hkeeps : EachStep (step read) Keeps (initial n k) events)
    (hrun : runFrom (step read) (initial n k) events = some s) : s.SectionsKept :=
  ((placed_initial n k).run hread hkeeps hrun).sectionsKept

/-- The event of a first section fails, and that of a second one does not: it is handed out,
read and released. -/
theorem sections_kept_two :
    ∃ s, runFrom (step RmfQueue.popHead) (initial 2 1)
        (setFilterSeven 0 0 ++ passSeven 1 40 ++
          ([(1, .countMatch), (1, .push), (1, .dispatch false), (1, .finish)] :
            List (Fin 2 × FilterAction 1)) ++ passSeven 1 41 ++
          ([(1, .countMatch), (1, .push), (1, .dispatch true), (1, .finish),
            (0, .getSectionHandle 7 true), (0, .read), (0, .insertOutstanding true),
            (0, .readSection 2 0 9 true true), (0, .next)] :
            List (Fin 2 × FilterAction 1))) = some s ∧
      s.SectionsKept := by
  obtain ⟨s, hrun⟩ := Option.isSome_iff_exists.mp (show (runFrom (step RmfQueue.popHead)
    (initial 2 1) (setFilterSeven 0 0 ++ passSeven 1 40 ++
      ([(1, .countMatch), (1, .push), (1, .dispatch false), (1, .finish)] :
        List (Fin 2 × FilterAction 1)) ++ passSeven 1 41 ++
      ([(1, .countMatch), (1, .push), (1, .dispatch true), (1, .finish),
        (0, .getSectionHandle 7 true), (0, .read), (0, .insertOutstanding true),
        (0, .readSection 2 0 9 true true), (0, .next)] :
        List (Fin 2 × FilterAction 1)))).isSome = true by decide +kernel)
  exact ⟨s, hrun, sections_kept pulls_popHead (by decide +kernel) hrun⟩

/-- A section waits when the event of the next one fails: it is freed, and the next one, which
does not count as queued, is obtained. And two threads that draw ids at once may draw the same,
since the counter is read after the mutex is released: two outstanding sections have the handle
2 then. -/
theorem sections_mixedUp :
    (∃ s ∈ runFrom (step RmfQueue.popHead) (initial 2 1)
        (setFilterSeven 0 0 ++ passSeven 1 40 ++
          ([(1, .countMatch), (1, .push), (1, .dispatch true), (1, .finish)] :
            List (Fin 2 × FilterAction 1)) ++ passSeven 1 41 ++
          ([(1, .countMatch), (1, .push), (1, .dispatch false), (1, .finish),
            (0, .getSectionHandle 7 true), (0, .read)] :
            List (Fin 2 × FilterAction 1))),
      (s.requests 0).queued = [40] ∧ (s.requests 0).obtained = [41] ∧
        (s.sections 40).frees = 1) ∧
    ∃ s ∈ runFrom (step RmfQueue.popHead) (initial 3 1)
        (setFilterSeven 0 0 ++
          ([(1, .incrementSectionID), (2, .incrementSectionID), (1, .returnSectionID),
            (2, .returnSectionID), (1, .sectionAvail 7 40 [0]), (1, .countMatch), (1, .push),
            (1, .dispatch true), (1, .finish), (2, .sectionAvail 7 41 [0]), (2, .countMatch),
            (2, .push), (2, .dispatch true), (2, .finish), (0, .getSectionHandle 7 true),
            (0, .read), (0, .insertOutstanding true), (0, .getSectionHandle 7 true), (0, .read),
            (0, .insertOutstanding true)] :
            List (Fin 3 × FilterAction 1))),
      s.outstandingSections = [(2, 41), (2, 40)] := by
  constructor <;> decide +kernel

end SectionFilter

end MediaFramework
