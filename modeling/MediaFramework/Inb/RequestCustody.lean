import MediaFramework.Inb.SectionFilter

/-!
# Who frees a request

A request is freed by `SetFilter`, if it could not be set, or after its release: at once, if it
is not marked, and else by a later release, which finds it parked. A callback marks the request
it works on, so that it is not freed.

The mark does not count: of two callbacks on one request, the first to finish takes away the
mark of the other. A release parks a request under its id, and if there is one parked under the
id already, or no memory for a node, it parks it nowhere. The parked requests are purged without
a mutex, which the source justifies with a single thread that does so. Where none of this comes
up, a request is always in one place, and never freed while a callback works on it.
-/

namespace MediaFramework

open Function (update update_of_ne update_self)

/-- Where a request is, and what is known of it. -/
structure RequestView where
  /-- how many threads are in `section_avail_cb` with it -/
  processing : ℕ
  /-- how many have it in `SetFilter` -/
  owned : ℕ
  /-- how often it is in the table of requests -/
  table : ℕ
  /-- how many threads have it in `ReleaseFilter` -/
  taken : ℕ
  /-- how often it is in the table of requests to remove -/
  parked : ℕ
  marked : ℕ
  created : ℕ
  inserted : ℕ
  released : ℕ
  frees : ℕ

/-- The mark is right, and the request is in one place at most. -/
@[mk_iff]
structure RequestView.Sound (v : RequestView) : Prop where
  marked_eq : v.marked = v.processing
  marked_le : v.marked ≤ 1
  processing_le : v.processing ≤ v.table + v.taken + v.parked
  places_le : v.owned + v.table + v.taken + v.parked + v.frees ≤ v.created
  created_le : v.created ≤ 1
  inserted_le : v.inserted ≤ v.table + v.taken + v.parked + v.frees
  le_inserted : v.table + v.taken + v.parked ≤ v.inserted
  released_le : v.released ≤ v.taken + v.parked + v.frees
  le_released : v.taken + v.parked ≤ v.released

/-- The thread is in `ReleaseFromDeferredDeleteQueue`. -/
def FilterThread.Purges {k : ℕ} : FilterThread k → Prop
  | .purging _ => True
  | _ => False

instance {k : ℕ} : DecidablePred (FilterThread.Purges (k := k))
  | .purging _ => isTrue trivial
  | .idle | .incremented | .drawn _ _ | .received _ _ | .counted _ _ _ | .queued _ _ _
  | .finishing _ | .setting _ | .starting _ | .lookingUp _ _ | .cancelling _ _ | .releasing _
  | .removed _ _ | .getting _ _ _ | .holding _ | .releasingSection _ => isFalse id

namespace SectionFilter

variable {n k : ℕ} {read : RmfQueue → Option ℕ × RmfQueue} {s s' : SectionFilter n k} {i : Fin n}

def view (s : SectionFilter n k) (r : Fin k) : RequestView where
  processing := total (FilterThread.processes r) s.threads
  owned := total (FilterThread.owns r) s.threads
  table := s.sectionRequests.count r
  taken := total (FilterThread.releases r) s.threads
  parked := s.sectionRequestsToRemove.count r
  marked := (s.requests r).uiIsSectionUnderProcessing.toNat
  created := (s.requests r).created.toNat
  inserted := (s.requests r).inserted.toNat
  released := (s.requests r).released.toNat
  frees := (s.requests r).frees

/-- Whether what was removed can be parked if it is marked. -/
def Parkable (s : SectionFilter n k) (allocated : Bool) : FilterThread k → Prop
  | .removed (some r) id =>
    (s.requests r).uiIsSectionUnderProcessing = true →
      s.sectionRequestsToRemove.lookup id = none ∧ allocated = true
  | _ => True

instance (s : SectionFilter n k) (allocated : Bool) : DecidablePred (s.Parkable allocated)
  | .removed (some _) _ => inferInstanceAs (Decidable (_ → _ ∧ _))
  | .idle | .incremented | .drawn _ _ | .received _ _ | .counted _ _ _ | .queued _ _ _
  | .finishing _ | .setting _ | .starting _ | .lookingUp _ _ | .cancelling _ _ | .releasing _
  | .removed none _ | .purging _ | .getting _ _ _ | .holding _ | .releasingSection _ =>
    isTrue trivial

/-- A section is passed for a request only while no other is processed for it, and a release
comes to its end while no other thread purges: it finds no request parked under the id of one it
has to park, and memory for the node. -/
def Exclusive (s : SectionFilter n k) : Fin n × FilterAction k → Prop
  | (_, .sectionAvail id _ _) =>
    ∀ r ∈ s.sectionRequests.lookup id, ∀ j, (s.threads j).processes r = 0
  | (i, .settle allocated) => (∀ j, ¬ (s.threads j).Purges) ∧ s.Parkable allocated (s.threads i)
  | _ => True

instance (s : SectionFilter n k) : DecidablePred s.Exclusive
  | (_, .sectionAvail _ _ _) => inferInstanceAs (Decidable (∀ r ∈ _, ∀ _, _ = 0))
  | (_, .settle _) => inferInstanceAs (Decidable ((∀ _, ¬ _) ∧ _))
  | (_, .incrementSectionID) | (_, .returnSectionID) | (_, .countMatch) | (_, .push)
  | (_, .dispatch _) | (_, .finish) | (_, .setFilter _ _ _) | (_, .create _) | (_, .start _)
  | (_, .cancelFilter _) | (_, .releaseFilter _) | (_, .remove) | (_, .purgeNext)
  | (_, .getSectionHandle _ _) | (_, .read) | (_, .insertOutstanding _)
  | (_, .readSection _ _ _ _ _) | (_, .releaseSection _) | (_, .next) => isTrue trivial

/-! ## Views -/

variable {t : FilterThread k}

attribute [local simp] view FilterThread.processes FilterThread.owns FilterThread.releases

/-- A thread has moved. -/
theorem view_threads (h : s'.threads = update s.threads i t)
    (r : Fin k) :
    (s'.view r).processing + (s.threads i).processes r = (s.view r).processing + t.processes r ∧
    (s'.view r).owned + (s.threads i).owns r = (s.view r).owned + t.owns r ∧
    (s'.view r).taken + (s.threads i).releases r = (s.view r).taken + t.releases r := by
  unfold view
  rw [h]
  exact ⟨total_update (FilterThread.processes r) s.threads i t,
    total_update (FilterThread.owns r) s.threads i t,
    total_update (FilterThread.releases r) s.threads i t⟩

/-- A step that does not concern a request. -/
theorem view_eq_of_threads {r : Fin k}
    (hthreads : s'.threads = update s.threads i t)
    (hprocesses : t.processes r = (s.threads i).processes r)
    (howns : t.owns r = (s.threads i).owns r)
    (hreleases : t.releases r = (s.threads i).releases r)
    (htable : s'.sectionRequests.count r = s.sectionRequests.count r)
    (hparked : s'.sectionRequestsToRemove.count r = s.sectionRequestsToRemove.count r)
    (hrequest : (s.requests r).SameCustody (s'.requests r)) : s'.view r = s.view r := by
  obtain ⟨hp, ho, ht⟩ := view_threads hthreads r
  unfold view at hp ho ht ⊢
  rw [htable, hparked, hrequest.mark_eq, hrequest.created_eq, hrequest.inserted_eq,
    hrequest.released_eq, hrequest.frees_eq]
  dsimp only at hp ho ht
  congr 1
  · omega
  · omega
  · omega

theorem sameCustody_update {r₀ : Fin k} {q : SectionRequest} (h : (s.requests r₀).SameCustody q)
    (r : Fin k) : (s.requests r).SameCustody (update s.requests r₀ q r) := by
  by_cases hr : r = r₀
  · subst hr
    rw [update_self]
    exact h
  · rw [update_of_ne hr]
    exact .refl _

/-- All requests are sound. -/
def RequestsSound (s : SectionFilter n k) : Prop := ∀ r, (s.view r).Sound

namespace RequestsSound

/-- A step that changes nothing of any request. -/
theorem of_quiet (h : s.RequestsSound) {t : FilterThread k}
    (hthreads : s'.threads = update s.threads i t)
    (hprocesses : ∀ r, t.processes r = (s.threads i).processes r)
    (howns : ∀ r, t.owns r = (s.threads i).owns r)
    (hreleases : ∀ r, t.releases r = (s.threads i).releases r)
    (htable : s'.sectionRequests = s.sectionRequests)
    (hparked : s'.sectionRequestsToRemove = s.sectionRequestsToRemove)
    (hrequest : ∀ r, (s.requests r).SameCustody (s'.requests r)) : s'.RequestsSound := by
  intro r
  rw [view_eq_of_threads hthreads (hprocesses r) (howns r) (hreleases r)
    (congrArg (fun table => SymbolMapTable.count table r) htable)
    (congrArg (fun table => SymbolMapTable.count table r) hparked) (hrequest r)]
  exact h r

/-- A step that changes one request. What the thread had before it and has after it is nothing
of the others. -/
theorem of_one (h : s.RequestsSound) {t : FilterThread k} (r₀ : Fin k) {q : SectionRequest}
    (hthreads : s'.threads = update s.threads i t)
    (hrequests : s'.requests = update s.requests r₀ q)
    (hothers : ∀ r, r₀ ≠ r →
      (t.processes r = (s.threads i).processes r ∧ t.owns r = (s.threads i).owns r ∧
        t.releases r = (s.threads i).releases r) ∧
      s'.sectionRequests.count r = s.sectionRequests.count r ∧
      s'.sectionRequestsToRemove.count r = s.sectionRequestsToRemove.count r)
    (hself : (s'.view r₀).Sound) : s'.RequestsSound := by
  intro r
  by_cases hr : r₀ = r
  · subst hr
    exact hself
  · obtain ⟨⟨hprocesses, howns, hreleases⟩, htable, hparked⟩ := hothers r hr
    rw [view_eq_of_threads hthreads hprocesses howns hreleases htable hparked]
    · exact h r
    · rw [hrequests, update_of_ne fun h => hr h.symm]
      exact .refl _

end RequestsSound

/-- A view is sound after a step if it is with all that the threads may have of the request. -/
theorem view_sound {r : Fin k} {q : SectionRequest}
    (hthreads : s'.threads = update s.threads i t)
    (hrequests : s'.requests = update s.requests r q)
    (hview : ∀ p o x, p + (s.threads i).processes r = (s.view r).processing + t.processes r →
      o + (s.threads i).owns r = (s.view r).owned + t.owns r →
      x + (s.threads i).releases r = (s.view r).taken + t.releases r →
      RequestView.Sound ⟨p, o, s'.sectionRequests.count r, x, s'.sectionRequestsToRemove.count r,
        q.uiIsSectionUnderProcessing.toNat, q.created.toNat, q.inserted.toNat, q.released.toNat,
        q.frees⟩) : (s'.view r).Sound := by
  obtain ⟨hp, ho, ht⟩ := view_threads hthreads r
  have hsound := hview _ _ _ hp ho ht
  rw [view, hrequests, update_self]
  exact hsound

/-! ## Steps that move a request -/

namespace RequestsSound

variable {r : Fin k}

theorem begins (h : s.RequestsSound) {sectionID draw sec : ℕ}
    (hi : s.threads i = .drawn sectionID draw)
    (hthreads : s'.threads = update s.threads i (.received r sec))
    (hrequests : s'.requests =
      update s.requests r { s.requests r with uiIsSectionUnderProcessing := true })
    (htable : s'.sectionRequests = s.sectionRequests)
    (hparked : s'.sectionRequestsToRemove = s.sectionRequestsToRemove)
    (hin : 0 < s.sectionRequests.count r) (hexcl : ∀ j, (s.threads j).processes r = 0) :
    s'.RequestsSound := by
  refine h.of_one r hthreads hrequests (fun r' hr => ?_) ?_
  · rw [hi, htable, hparked]
    exact ⟨⟨if_neg hr, rfl, rfl⟩, rfl, rfl⟩
  · refine view_sound hthreads hrequests fun p o x hp ho ht => ?_
    have hview := (RequestView.sound_iff _).mp (h r)
    -- no other callback is at work
    have hnone := total_eq_zero hexcl
    simp only [view, hi, htable, hparked, RequestView.sound_iff, FilterThread.processes,
      FilterThread.owns, FilterThread.releases, if_true, Bool.toNat_true] at hp ho ht hview ⊢
    omega

theorem ends (h : s.RequestsSound) (hi : s.threads i = .finishing r)
    (hthreads : s'.threads = update s.threads i .idle)
    (hrequests : s'.requests =
      update s.requests r { s.requests r with uiIsSectionUnderProcessing := false })
    (htable : s'.sectionRequests = s.sectionRequests)
    (hparked : s'.sectionRequestsToRemove = s.sectionRequestsToRemove) : s'.RequestsSound := by
  refine h.of_one r hthreads hrequests (fun r' hr => ?_) ?_
  · rw [hi, htable, hparked]
    exact ⟨⟨(if_neg hr).symm, rfl, rfl⟩, rfl, rfl⟩
  · refine view_sound hthreads hrequests fun p o x hp ho ht => ?_
    have hview := (RequestView.sound_iff _).mp (h r)
    simp only [view, hi, htable, hparked, RequestView.sound_iff, FilterThread.processes,
      FilterThread.owns, FilterThread.releases, if_true, Bool.toNat_false] at hp ho ht hview ⊢
    omega

theorem allocates (h : s.RequestsSound) {q : SectionRequest} (hi : s.threads i = .idle)
    (hnew : (s.requests r).created = false)
    (hthreads : s'.threads = update s.threads i (.setting r))
    (hrequests : s'.requests = update s.requests r q)
    (hq : q.uiIsSectionUnderProcessing = false ∧ q.created = true ∧ q.inserted = false ∧
      q.released = false ∧ q.frees = 0)
    (htable : s'.sectionRequests = s.sectionRequests)
    (hparked : s'.sectionRequestsToRemove = s.sectionRequestsToRemove) : s'.RequestsSound := by
  refine h.of_one r hthreads hrequests (fun r' hr => ?_) ?_
  · rw [hi, htable, hparked]
    exact ⟨⟨rfl, if_neg hr, rfl⟩, rfl, rfl⟩
  · refine view_sound hthreads hrequests fun p o x hp ho ht => ?_
    have hview := (RequestView.sound_iff _).mp (h r)
    -- a request that was not created is nowhere
    have hnowhere := congrArg Bool.toNat hnew
    obtain ⟨hmark, hcreated, hinserted, hreleased, hfrees⟩ := hq
    simp only [view, hi, htable, hparked, hmark, hcreated, hinserted, hreleased, hfrees,
      RequestView.sound_iff, FilterThread.processes, FilterThread.owns, FilterThread.releases,
      if_true, Bool.toNat_true, Bool.toNat_false] at hp ho ht hnowhere hview ⊢
    omega

theorem drops (h : s.RequestsSound) (hi : s.threads i = .setting r)
    (hthreads : s'.threads = update s.threads i .idle)
    (hrequests : s'.requests =
      update s.requests r { s.requests r with frees := (s.requests r).frees + 1 })
    (htable : s'.sectionRequests = s.sectionRequests)
    (hparked : s'.sectionRequestsToRemove = s.sectionRequestsToRemove) : s'.RequestsSound := by
  refine h.of_one r hthreads hrequests (fun r' hr => ?_) ?_
  · rw [hi, htable, hparked]
    exact ⟨⟨rfl, (if_neg hr).symm, rfl⟩, rfl, rfl⟩
  · refine view_sound hthreads hrequests fun p o x hp ho ht => ?_
    have hview := (RequestView.sound_iff _).mp (h r)
    simp only [view, hi, htable, hparked, RequestView.sound_iff, FilterThread.processes,
      FilterThread.owns, FilterThread.releases, if_true] at hp ho ht hview ⊢
    omega

/-- Without memory for a node, the request is in no place from then on. -/
theorem inserts (h : s.RequestsSound) {id : ℕ} {allocated : Bool} (hi : s.threads i = .setting r)
    (hthreads : s'.threads = update s.threads i (.starting id))
    (hrequests : s'.requests =
      update s.requests r { s.requests r with state := .ready, inserted := allocated })
    (htable : s'.sectionRequests = s.sectionRequests.insert id r allocated)
    (hparked : s'.sectionRequestsToRemove = s.sectionRequestsToRemove) : s'.RequestsSound := by
  have hcount : ∀ r', s'.sectionRequests.count r' =
      s.sectionRequests.count r' + if allocated = true ∧ r = r' then 1 else 0 := by
    intro r'
    rw [htable]
    rcases allocated with _ | _
    · simp [SymbolMapTable.insert]
    · simp [SymbolMapTable.count_insert]
  refine h.of_one r hthreads hrequests (fun r' hr => ?_) ?_
  · rw [hi, hcount, hparked, if_neg fun h => hr h.2]
    exact ⟨⟨rfl, (if_neg hr).symm, rfl⟩, rfl, rfl⟩
  · refine view_sound hthreads hrequests fun p o x hp ho ht => ?_
    have hview := (RequestView.sound_iff _).mp (h r)
    have hle := Bool.toNat_le allocated
    have hin : (if allocated = true ∧ True then 1 else 0) = allocated.toNat := by
      rcases allocated with _ | _ <;> simp
    simp only [view, hi, hcount, hin, hparked, RequestView.sound_iff, FilterThread.processes,
      FilterThread.owns, FilterThread.releases, if_true] at hp ho ht hview ⊢
    omega

theorem removes (h : s.RequestsSound) {id : ℕ} {table : SymbolMapTable (Fin k)}
    (hi : s.threads i = .releasing id)
    (hremove : SymbolMapTable.remove id s.sectionRequests = (some r, table))
    (hthreads : s'.threads = update s.threads i (.removed (some r) id))
    (hrequests : s'.requests =
      update s.requests r { s.requests r with released := true })
    (htable : s'.sectionRequests = table)
    (hparked : s'.sectionRequestsToRemove = s.sectionRequestsToRemove) : s'.RequestsSound := by
  have hcount := SymbolMapTable.count_remove hremove
  refine h.of_one r hthreads hrequests (fun r' hr => ?_) ?_
  · rw [hi, htable, hparked, hcount, if_neg fun h => hr (Option.some.inj h)]
    exact ⟨⟨rfl, rfl, if_neg hr⟩, rfl, rfl⟩
  · refine view_sound hthreads hrequests fun p o x hp ho ht => ?_
    have hview := (RequestView.sound_iff _).mp (h r)
    have hin := hcount r
    rw [if_pos rfl] at hin
    simp only [view, hi, htable, hparked, RequestView.sound_iff, FilterThread.processes,
      FilterThread.owns, FilterThread.releases, if_true, Bool.toNat_true] at hp ho ht hview ⊢
    omega

theorem frees (h : s.RequestsSound) {id : ℕ} {rest : SymbolMapTable (Fin k)}
    (hi : s.threads i = .removed (some r) id)
    (hmark : (s.requests r).uiIsSectionUnderProcessing = false)
    (hthreads : s'.threads = update s.threads i (.purging rest))
    (hrequests : s'.requests =
      update s.requests r
        { s.requests r with sectionsDataQueue := .new, frees := (s.requests r).frees + 1 })
    (htable : s'.sectionRequests = s.sectionRequests)
    (hparked : s'.sectionRequestsToRemove = s.sectionRequestsToRemove) : s'.RequestsSound := by
  refine h.of_one r hthreads hrequests (fun r' hr => ?_) ?_
  · rw [hi, htable, hparked]
    exact ⟨⟨rfl, rfl, (if_neg hr).symm⟩, rfl, rfl⟩
  · refine view_sound hthreads hrequests fun p o x hp ho ht => ?_
    have hview := (RequestView.sound_iff _).mp (h r)
    have hunmarked : _ = 0 := congrArg Bool.toNat hmark
    simp only [view, hi, htable, hparked, RequestView.sound_iff, FilterThread.processes,
      FilterThread.owns, FilterThread.releases, if_true] at hp ho ht hview ⊢
    omega

theorem parks (h : s.RequestsSound) {id : ℕ} {rest : SymbolMapTable (Fin k)}
    (hi : s.threads i = .removed (some r) id)
    (hthreads : s'.threads = update s.threads i (.purging rest))
    (hrequests : s'.requests = s.requests)
    (htable : s'.sectionRequests = s.sectionRequests)
    (hparked : s'.sectionRequestsToRemove = s.sectionRequestsToRemove.insert id r true) :
    s'.RequestsSound := by
  have hsame : s'.requests = update s.requests r (s.requests r) := by
    rw [hrequests, Function.update_eq_self]
  have hcount : ∀ r', s'.sectionRequestsToRemove.count r' =
      s.sectionRequestsToRemove.count r' + if r = r' then 1 else 0 := fun r' =>
    (congrArg (fun table => SymbolMapTable.count table r') hparked).trans
      (SymbolMapTable.count_insert r')
  refine h.of_one r hthreads hsame (fun r' hr => ?_) ?_
  · rw [hi, htable, hcount, if_neg hr]
    exact ⟨⟨rfl, rfl, (if_neg hr).symm⟩, rfl, rfl⟩
  · refine view_sound hthreads hsame fun p o x hp ho ht => ?_
    have hview := (RequestView.sound_iff _).mp (h r)
    simp only [view, hi, htable, hcount, RequestView.sound_iff, FilterThread.processes,
      FilterThread.owns, FilterThread.releases, if_true] at hp ho ht hview ⊢
    omega

theorem purges (h : s.RequestsSound) {key : ℕ} {rest : SymbolMapTable (Fin k)}
    {table : SymbolMapTable (Fin k)} (hi : s.threads i = .purging ((key, r) :: rest))
    (hmark : (s.requests r).uiIsSectionUnderProcessing = false)
    (hremove : SymbolMapTable.remove key s.sectionRequestsToRemove = (some r, table))
    (hthreads : s'.threads = update s.threads i (.purging rest))
    (hrequests : s'.requests =
      update s.requests r
        { s.requests r with sectionsDataQueue := .new, frees := (s.requests r).frees + 1 })
    (htable : s'.sectionRequests = s.sectionRequests)
    (hparked : s'.sectionRequestsToRemove = table) : s'.RequestsSound := by
  have hcount := SymbolMapTable.count_remove hremove
  refine h.of_one r hthreads hrequests (fun r' hr => ?_) ?_
  · rw [hi, htable, hparked, hcount, if_neg fun h => hr (Option.some.inj h)]
    exact ⟨⟨rfl, rfl, rfl⟩, rfl, rfl⟩
  · refine view_sound hthreads hrequests fun p o x hp ho ht => ?_
    have hview := (RequestView.sound_iff _).mp (h r)
    have hunmarked : _ = 0 := congrArg Bool.toNat hmark
    have hout := hcount r
    rw [if_pos rfl] at hout
    simp only [view, hi, htable, hparked, RequestView.sound_iff, FilterThread.processes,
      FilterThread.owns, FilterThread.releases] at hp ho ht hview ⊢
    omega

end RequestsSound

/-! ## Purging -/

/-- One thread purges at most, and what is still to come for it is parked. -/
structure PurgesSound (s : SectionFilter n k) : Prop where
  keys : s.sectionRequestsToRemove.keys.Nodup
  one : ∀ {i j : Fin n}, (s.threads i).Purges → (s.threads j).Purges → i = j
  rest_keys : ∀ {i : Fin n} {rest : SymbolMapTable (Fin k)}, s.threads i = .purging rest →
    rest.keys.Nodup
  rest_mem : ∀ {i : Fin n} {rest : SymbolMapTable (Fin k)}, s.threads i = .purging rest →
    ∀ node ∈ rest, node ∈ s.sectionRequestsToRemove

theorem purges_of_eq {rest : SymbolMapTable (Fin k)}
    (h : t = .purging rest) : t.Purges := by
  subst h
  trivial

namespace PurgesSound

/-- The thread that moves does not purge after the step. -/
theorem of_calm (h : s.PurgesSound) {t : FilterThread k}
    (hthreads : s'.threads = update s.threads i t) (ht : ¬ t.Purges)
    (hparked : s'.sectionRequestsToRemove = s.sectionRequestsToRemove) : s'.PurgesSound := by
  have hthread : ∀ {j : Fin n}, (s'.threads j).Purges → s'.threads j = s.threads j := by
    intro j hj
    rw [hthreads] at hj ⊢
    by_cases hji : j = i
    · subst hji
      rw [update_self] at hj
      exact absurd hj ht
    · rw [update_of_ne hji]
  refine ⟨hparked ▸ h.keys, fun hj hj' => ?_, fun hj => ?_, fun hj => ?_⟩
  · exact h.one (hthread hj ▸ hj) (hthread hj' ▸ hj')
  · exact h.rest_keys ((hthread (purges_of_eq hj)).symm.trans hj)
  · rw [hparked]
    exact h.rest_mem ((hthread (purges_of_eq hj)).symm.trans hj)

/-- The thread that moves is the only one that purges after the step. -/
theorem of_purging {rest : SymbolMapTable (Fin k)}
    (hthreads : s'.threads = update s.threads i (.purging rest))
    (hothers : ∀ j, j ≠ i → ¬ (s.threads j).Purges)
    (hkeys : s'.sectionRequestsToRemove.keys.Nodup) (hrest : (SymbolMapTable.keys rest).Nodup)
    (hmem : ∀ node ∈ rest, node ∈ s'.sectionRequestsToRemove) : s'.PurgesSound := by
  have honly : ∀ {j : Fin n}, (s'.threads j).Purges → j = i := by
    intro j hj
    by_contra hji
    rw [hthreads, update_of_ne hji] at hj
    exact hothers j hji hj
  have hself : ∀ {j : Fin n} {rest' : SymbolMapTable (Fin k)}, s'.threads j = .purging rest' →
      rest' = rest := by
    intro j rest' hj
    obtain rfl := honly (purges_of_eq hj)
    rw [hthreads, update_self] at hj
    exact (FilterThread.purging.inj hj).symm
  refine ⟨hkeys, fun hj hj' => (honly hj).trans (honly hj').symm, fun hj => ?_, fun hj => ?_⟩
  · rw [hself hj]
    exact hrest
  · rw [hself hj]
    exact hmem

end PurgesSound

/-- Nothing is lost of the requests. -/
structure Sound (s : SectionFilter n k) : Prop where
  requests : s.RequestsSound
  purges : s.PurgesSound

theorem not_purges_of_calm (h : t.Calm) : ¬ t.Purges := by
  cases t <;> first | exact id | exact h.elim

theorem keys_insert {table : SymbolMapTable (Fin k)} {id : ℕ} {r : Fin k}
    (h : table.keys.Nodup) (hid : table.lookup id = none) :
    (table.insert id r true).keys.Nodup :=
  List.nodup_cons.mpr ⟨SymbolMapTable.lookup_eq_none_iff.mp hid, h⟩

/-- The node that the purge comes to is the one that is removed. -/
theorem PurgesSound.remove_eq (h : s.PurgesSound) {key : ℕ} {r : Fin k}
    {rest : SymbolMapTable (Fin k)} (hi : s.threads i = .purging ((key, r) :: rest)) :
    ∃ table, SymbolMapTable.remove key s.sectionRequestsToRemove = (some r, table) ∧
      table.keys.Nodup ∧ ∀ node ∈ rest, node ∈ table := by
  obtain ⟨table, hremove, hmem⟩ :=
    SymbolMapTable.remove_of_mem h.keys (h.rest_mem hi (key, r) List.mem_cons_self)
  refine ⟨table, hremove, ?_, fun node hnode => ?_⟩
  · have hkeys := @SymbolMapTable.keys_remove _ _ key h.keys
    rw [hremove] at hkeys
    exact hkeys
  · have hrest := List.nodup_cons.mp (h.rest_keys hi)
    refine (hmem node.1 node.2).mpr ⟨h.rest_mem hi node (List.mem_cons_of_mem _ hnode), ?_⟩
    intro hkey
    exact hrest.1 (hkey ▸ List.mem_map.mpr ⟨node, hnode, rfl⟩)

/-- A step that moves no request, and after which the thread does not purge. -/
theorem Sound.of_still (h : s.Sound)
    (hthreads : s'.threads = update s.threads i t)
    (ht : (∀ r, t.processes r = (s.threads i).processes r) ∧
      (∀ r, t.owns r = (s.threads i).owns r) ∧ ∀ r, t.releases r = (s.threads i).releases r)
    (hcalm : ¬ t.Purges) (htable : s'.sectionRequests = s.sectionRequests)
    (hparked : s'.sectionRequestsToRemove = s.sectionRequestsToRemove)
    (hrequest : ∀ r, (s.requests r).SameCustody (s'.requests r)) : s'.Sound :=
  ⟨h.requests.of_quiet hthreads ht.1 ht.2.1 ht.2.2 htable hparked hrequest,
    h.purges.of_calm hthreads hcalm hparked⟩

/-- **One step.** -/
theorem Sound.moves {a : FilterAction k} (h : s.Sound) (hexcl : s.Exclusive (i, a))
    (hmoves : s.Moves read i a s') : s'.Sound := by
  have ⟨hr, hp⟩ := h
  cases hmoves with
  | stay => exact h
  | quiet ht =>
    exact h.of_still rfl ⟨ht.processes_eq, ht.owns_eq, ht.releases_eq⟩
      (not_purges_of_calm ht.calm) rfl rfl fun _ => .refl _
  | touched hq ht =>
    exact h.of_still rfl ⟨ht.processes_eq, ht.owns_eq, ht.releases_eq⟩
      (not_purges_of_calm ht.calm) rfl rfl (sameCustody_update hq.toSameCustody)
  | incremented hi | drew hi | lost hi _ _ | dismissed hi | removedNone hi | handed hi =>
    exact h.of_still rfl (hi ▸ ⟨fun _ => rfl, fun _ => rfl, fun _ => rfl⟩) id rfl rfl
      fun _ => .refl _
  | marked hi hnew hid =>
    exact ⟨hr.begins hi rfl rfl rfl rfl (SymbolMapTable.count_pos_of_lookup hid) (hexcl _ hid),
      hp.of_calm rfl id rfl⟩
  | overflown hi =>
    exact h.of_still rfl (hi ▸ ⟨fun _ => rfl, fun _ => rfl, fun _ => rfl⟩) id rfl rfl
      (sameCustody_update (SectionRequest.alike_uncount _).toSameCustody)
  | pushed hi hpush =>
    exact h.of_still rfl (hi ▸ ⟨fun _ => rfl, fun _ => rfl, fun _ => rfl⟩) id rfl rfl
      (sameCustody_update (SectionRequest.sameCustody_push hpush))
  | @undelivered r sec last found q hi hwithdraw =>
    have hsame : (s.requests r).SameCustody q := by
      refine (SectionRequest.alike_uncount _).toSameCustody.trans ?_
      have hsnd := SectionRequest.sameCustody_withdraw (s.requests r).uncount sec
      rw [hwithdraw] at hsnd
      exact hsnd
    rw [freeSections_eq]
    exact h.of_still rfl (hi ▸ ⟨fun _ => rfl, fun _ => rfl, fun _ => rfl⟩) id rfl rfl
      (sameCustody_update hsame)
  | finished hi => exact ⟨hr.ends hi rfl rfl rfl rfl, hp.of_calm rfl id rfl⟩
  | allocated hi hnew =>
    exact ⟨hr.allocates hi hnew rfl rfl ⟨rfl, rfl, rfl, rfl, rfl⟩ rfl rfl, hp.of_calm rfl id rfl⟩
  | dropped hi => exact ⟨hr.drops hi rfl rfl rfl rfl, hp.of_calm rfl id rfl⟩
  | inserted hi => exact ⟨hr.inserts hi rfl rfl rfl rfl, hp.of_calm rfl id rfl⟩
  | removed hi hremove =>
    exact ⟨hr.removes hi hremove rfl rfl rfl rfl, hp.of_calm rfl id rfl⟩
  | settledNone hi =>
    exact ⟨hr.of_quiet rfl (hi ▸ fun _ => rfl) (hi ▸ fun _ => rfl) (hi ▸ fun _ => rfl) rfl rfl
      fun _ => .refl _, .of_purging rfl (fun j _ => hexcl.1 j) hp.keys hp.keys fun _ => id⟩
  | @freed r id allocated hi hmark =>
    obtain ⟨hthreads, htable, hparked, -⟩ := s.releaseFilterRequest_frame r
    have hthreads' : ((s.releaseFilterRequest r).startPurge i).threads =
        update s.threads i (.purging s.sectionRequestsToRemove) := by
      rw [← hthreads, ← hparked]
      rfl
    refine ⟨hr.frees hi hmark hthreads' (s.requests_releaseFilterRequest r) htable hparked,
      .of_purging hthreads' (fun j _ => hexcl.1 j) ?_ hp.keys fun node hnode => ?_⟩
    · exact hparked.symm ▸ hp.keys
    · exact hparked.symm ▸ hnode
  | @parked r key allocated hi hmark hid =>
    -- there is memory for the node
    obtain ⟨hnone, hpark⟩ := hexcl
    rw [hi] at hpark
    obtain ⟨-, rfl⟩ := hpark hmark
    exact ⟨hr.parks hi rfl rfl rfl rfl,
      .of_purging rfl (fun j _ => hnone j) (keys_insert hp.keys hid) (keys_insert hp.keys hid)
        fun _ => id⟩
  | @forgotten r r' id allocated hi hmark hid =>
    obtain ⟨-, hpark⟩ := hexcl
    rw [hi] at hpark
    obtain ⟨hnone, -⟩ := hpark hmark
    rw [hid] at hnone
    cases hnone
  | skipped hi hmark =>
    have hothers : ∀ j, j ≠ i → ¬ (s.threads j).Purges := fun j hj hpurges =>
      hj (hp.one hpurges (purges_of_eq hi))
    exact ⟨hr.of_quiet rfl (hi ▸ fun _ => rfl) (hi ▸ fun _ => rfl) (hi ▸ fun _ => rfl) rfl rfl
      fun _ => .refl _,
      .of_purging rfl hothers hp.keys (List.nodup_cons.mp (hp.rest_keys hi)).2
        fun node hnode => hp.rest_mem hi node (List.mem_cons_of_mem _ hnode)⟩
  | @purged key r rest hi hmark =>
    obtain ⟨table, hremove, hkeys, hmem⟩ := hp.remove_eq hi
    have hothers : ∀ j, j ≠ i → ¬ (s.threads j).Purges := fun j hj hpurges =>
      hj (hp.one hpurges (purges_of_eq hi))
    rw [hremove]
    obtain ⟨hthreads, htable, hparked, -⟩ :=
      { s with sectionRequestsToRemove := table }.releaseFilterRequest_frame r
    have hthreads' : (({ s with sectionRequestsToRemove := table }.releaseFilterRequest
        r).setThread i (.purging rest)).threads =
          update s.threads i (.purging rest) := by
      show update _ i _ = _
      rw [hthreads]
    refine ⟨hr.purges hi hmark hremove hthreads'
      (requests_releaseFilterRequest _ r) htable hparked,
      .of_purging hthreads' hothers ?_ (List.nodup_cons.mp (hp.rest_keys hi)).2
        fun node hnode => ?_⟩
    · exact hparked.symm ▸ hkeys
    · exact hparked.symm ▸ hmem node hnode
  | @read key r r' f found q hi hid hobtain =>
    have hsame : (s.requests r').SameCustody q := by
      obtain ⟨-, rfl⟩ := Prod.mk.inj hobtain
      exact ⟨rfl, rfl, rfl, rfl, rfl⟩
    rcases found with _ | sec
    · exact h.of_still rfl (hi ▸ ⟨fun _ => rfl, fun _ => rfl, fun _ => rfl⟩) not_false rfl rfl
        (sameCustody_update hsame)
    · exact h.of_still rfl (hi ▸ ⟨fun _ => rfl, fun _ => rfl, fun _ => rfl⟩) not_false rfl rfl
        (sameCustody_update hsame)
  | released ht _ =>
    exact h.of_still rfl ⟨ht.processes_eq, ht.owns_eq, ht.releases_eq⟩ id rfl rfl
      fun _ => .refl _

/-! ## Runs -/

theorem sound_initial (n k : ℕ) : (initial n k).Sound where
  requests r := by
    have hview : (initial n k).view r = ⟨0, 0, 0, 0, 0, 0, 0, 0, 0, 0⟩ := by
      have hp : total (FilterThread.processes r) (initial n k).threads = 0 :=
        total_eq_zero fun _ => rfl
      have ho : total (FilterThread.owns r) (initial n k).threads = 0 :=
        total_eq_zero fun _ => rfl
      have ht : total (FilterThread.releases r) (initial n k).threads = 0 :=
        total_eq_zero fun _ => rfl
      rw [view, hp, ho, ht]
      rfl
    rw [hview]
    constructor <;> decide
  purges :=
    { keys := List.nodup_nil
      one := fun h _ => h.elim
      rest_keys := fun h => nomatch h
      rest_mem := fun h => nomatch h }

/-- **One run.** -/
theorem Sound.run {events : List (Fin n × FilterAction k)} (h : s.Sound)
    (hexcl : EachStep (step read) Exclusive s events)
    (hrun : runFrom (step read) s events = some s') : s'.Sound := by
  refine EachStep.invariant (fun s e s' hs hexcl hstep => ?_) hexcl h hrun
  exact hs.moves hexcl (step_moves hstep)

/-- What the purge does to a request that is not marked, and to the others. -/
theorem requests_purgeNode (s : SectionFilter n k) (key : ℕ) (r r' : Fin k) :
    ((s.purgeNode key r).requests r').uiIsSectionUnderProcessing =
      (s.requests r').uiIsSectionUnderProcessing ∧
    (s.requests r').frees ≤ ((s.purgeNode key r).requests r').frees ∧
    ((s.requests r).uiIsSectionUnderProcessing = false →
      0 < ((s.purgeNode key r).requests r).frees) := by
  unfold purgeNode
  split_ifs with hmark
  · exact ⟨rfl, Nat.le_refl _, fun h => absurd (hmark.symm.trans h) (by decide)⟩
  · rw [requests_releaseFilterRequest]
    refine ⟨?_, ?_, fun _ => ?_⟩
    · by_cases hr : r' = r
      · subst hr
        rw [update_self]
      · rw [update_of_ne hr]
    · by_cases hr : r' = r
      · subst hr
        rw [update_self]
        exact Nat.le_succ _
      · rw [update_of_ne hr]
    · rw [update_self]
      exact Nat.succ_pos _

/-- **A purge by itself.** It ends, and frees what is not marked. -/
theorem Sound.purge : ∀ {rest : SymbolMapTable (Fin k)} {s : SectionFilter n k}, s.Sound →
    s.threads i = .purging rest →
    ∃ t, runFrom (step read) s (List.replicate (rest.length + 1) (i, .purgeNext)) = some t ∧
      t.threads i = .idle ∧ t.Sound ∧ (∀ r, (s.requests r).frees ≤ (t.requests r).frees) ∧
      ∀ node ∈ rest, (s.requests node.2).uiIsSectionUnderProcessing = false →
        0 < (t.requests node.2).frees := by
  have hexcl : ∀ s : SectionFilter n k, s.Exclusive (i, .purgeNext) := fun _ => trivial
  intro rest
  induction rest with
  | nil =>
    intro s h hi
    have hstep : s.step read (i, .purgeNext) = some (s.setThread i .idle) := by
      simp only [step, hi]
    refine ⟨s.setThread i .idle, ?_, update_self i _ s.threads,
      h.moves (hexcl s) (step_moves hstep), fun _ => Nat.le_refl _, fun _ hnode => nomatch hnode⟩
    show runFrom (step read) s [(i, .purgeNext)] = _
    rw [runFrom_cons, hstep]
    rfl
  | cons node rest ih =>
    intro s h hi
    obtain ⟨key, r⟩ := node
    have hstep : s.step read (i, .purgeNext) =
        some ((s.purgeNode key r).setThread i (.purging rest)) := by
      simp only [step, hi]
    obtain ⟨t, hrun, hidle, hsound, hfrees, hrest⟩ :=
      ih (h.moves (hexcl s) (step_moves hstep)) (update_self i _ _)
    refine ⟨t, ?_, hidle, hsound, fun r' => ?_, fun node hnode hmark => ?_⟩
    · rw [List.length_cons, List.replicate_succ, runFrom_cons, hstep]
      exact hrun
    · exact (requests_purgeNode s key r r').2.1.trans (hfrees r')
    · rcases List.mem_cons.mp hnode with rfl | hnode
      · exact ((requests_purgeNode s key r r).2.2 hmark).trans_le (hfrees r)
      · exact hrest node hnode ((requests_purgeNode s key r node.2).1.trans hmark)

/-- The requests are kept while they are needed, and freed once. -/
structure RequestsKept (read : RmfQueue → Option ℕ × RmfQueue) (s : SectionFilter n k) : Prop where
  /-- a callback works on a request that is not freed -/
  unfreed : ∀ i r, (s.threads i).processes r = 1 → (s.requests r).frees = 0
  /-- a request that was released is with the thread that releases it, or parked, or freed, and
  only once -/
  once : ∀ r, (s.requests r).released = true →
    total (FilterThread.releases r) s.threads + s.sectionRequestsToRemove.count r +
      (s.requests r).frees = 1
  /-- a purge comes to its end, and frees what is parked and not worked on -/
  purged : ∀ i rest, s.threads i = .purging rest →
    ∃ t, runFrom (step read) s (List.replicate (rest.length + 1) (i, .purgeNext)) = some t ∧
      t.threads i = .idle ∧
      ∀ node ∈ rest, (∀ j, (s.threads j).processes node.2 = 0) → (t.requests node.2).frees = 1

theorem Sound.requestsKept (h : s.Sound) : s.RequestsKept read := by
  refine ⟨fun i r hprocesses => ?_, fun r hreleased => ?_, fun i rest hi => ?_⟩
  · have hle : (s.threads i).processes r ≤ (s.view r).processing :=
      le_total (FilterThread.processes r) s.threads i
    have hfrees : (s.view r).frees = (s.requests r).frees := rfl
    obtain ⟨-, -, hprocessing, hplaces, hcreated, -, -, -, -⟩ := h.requests r
    omega
  · have hone : (s.view r).released = 1 := congrArg Bool.toNat hreleased
    obtain ⟨-, -, -, hplaces, hcreated, -, -, hle, -⟩ := h.requests r
    show (s.view r).taken + (s.view r).parked + (s.view r).frees = 1
    omega
  · obtain ⟨t, hrun, hidle, hsound, -, hrest⟩ := h.purge hi
    refine ⟨t, hrun, hidle, fun node hnode hnone => ?_⟩
    have hprocessing : (s.view node.2).processing = 0 := total_eq_zero hnone
    have hmark : (s.requests node.2).uiIsSectionUnderProcessing = false := by
      have hmarked := (h.requests node.2).marked_eq.trans hprocessing
      exact Bool.toNat_eq_zero.mp hmarked
    have hpos := hrest node hnode hmark
    have hfrees : (t.view node.2).frees = (t.requests node.2).frees := rfl
    obtain ⟨-, -, -, hplaces, hcreated, -, -, -, -⟩ := hsound.requests node.2
    omega

/-- **Requests.** Where sections are passed one at a time for a request, and releases come to
their end one at a time and find room to park, no request is freed that a callback works on, and
every released request is freed once: at once, or by a purge after it was parked. -/
theorem requests_kept (read : RmfQueue → Option ℕ × RmfQueue) {n k : ℕ}
    {events : List (Fin n × FilterAction k)} {s : SectionFilter n k}
    (hexcl : EachStep (step read) Exclusive (initial n k) events)
    (hrun : runFrom (step read) (initial n k) events = some s) : s.RequestsKept read :=
  ((sound_initial n k).run hexcl hrun).requestsKept

/-- A client sets a filter that gets the id 7. -/
def setFilterSeven {n k : ℕ} (i : Fin n) (r : Fin k) : List (Fin n × FilterAction k) :=
  [(i, .setFilter r 0 5), (i, .create (.success 7 true)), (i, .start true)]

/-- A section is passed for the filter with the id 7. -/
def passSeven {n k : ℕ} (i : Fin n) (sec : ℕ) : List (Fin n × FilterAction k) :=
  [(i, .incrementSectionID), (i, .returnSectionID), (i, .sectionAvail 7 sec [0, 1])]

/-- A client releases the filter with the id 7, which it has to cancel first. -/
def releaseSeven {n k : ℕ} (i : Fin n) : List (Fin n × FilterAction k) :=
  [(i, .releaseFilter 7), (i, .next), (i, .next), (i, .remove), (i, .settle true)]

/-- A filter is released while a section is processed for it, and its request is parked. Another
filter gets its id when that is done, and its release purges. -/
theorem requests_kept_parked :
    ∃ s, runFrom (step RmfQueue.popHead) (initial 2 2)
        (setFilterSeven 0 0 ++ passSeven 1 40 ++ releaseSeven 0 ++
          ([(0, .purgeNext), (0, .purgeNext), (1, .countMatch), (1, .finish)] :
            List (Fin 2 × FilterAction 2)) ++
          setFilterSeven 0 1 ++ releaseSeven 0 ++
          ([(0, .purgeNext), (0, .purgeNext)] : List (Fin 2 × FilterAction 2))) = some s ∧
      s.RequestsKept RmfQueue.popHead := by
  obtain ⟨s, hrun⟩ := Option.isSome_iff_exists.mp (show (runFrom (step RmfQueue.popHead)
    (initial 2 2) (setFilterSeven 0 0 ++ passSeven 1 40 ++ releaseSeven 0 ++
      ([(0, .purgeNext), (0, .purgeNext), (1, .countMatch), (1, .finish)] :
        List (Fin 2 × FilterAction 2)) ++
      setFilterSeven 0 1 ++ releaseSeven 0 ++
      ([(0, .purgeNext), (0, .purgeNext)] : List (Fin 2 × FilterAction 2)))).isSome = true by decide +kernel)
  exact ⟨s, hrun, requests_kept RmfQueue.popHead (by decide +kernel) hrun⟩

/-- The other filter is released while a section is processed for it too: there is a request
parked under the id, so that this one is parked nowhere, and lost. And of two callbacks on one
request the first to finish leaves the other with a request that is freed. -/
theorem requests_lost :
    (∃ s ∈ runFrom (step RmfQueue.popHead) (initial 2 2)
        (setFilterSeven 0 0 ++ passSeven 1 40 ++ releaseSeven 0 ++
          ([(0, .purgeNext), (0, .purgeNext), (1, .countMatch), (1, .finish)] :
            List (Fin 2 × FilterAction 2)) ++
          setFilterSeven 0 1 ++ passSeven 1 41 ++ releaseSeven 0 ++
          ([(0, .purgeNext), (0, .purgeNext), (1, .countMatch), (1, .finish)] :
            List (Fin 2 × FilterAction 2))),
      (s.requests 1).released = true ∧ s.threads = (fun _ => .idle) ∧
        s.sectionRequests = [] ∧ s.sectionRequestsToRemove = [] ∧ (s.requests 1).frees = 0) ∧
    ∃ s ∈ runFrom (step RmfQueue.popHead) (initial 3 1)
        (setFilterSeven 0 0 ++ passSeven 1 40 ++ passSeven 2 41 ++
          ([(1, .countMatch), (1, .push), (1, .dispatch true), (1, .finish)] :
            List (Fin 3 × FilterAction 1)) ++ releaseSeven 0),
      s.threads 2 = .received 0 41 ∧ (s.requests 0).frees = 1 := by
  constructor <;> decide +kernel

end SectionFilter

end MediaFramework
