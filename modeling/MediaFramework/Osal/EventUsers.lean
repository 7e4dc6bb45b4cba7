import MediaFramework.Lib.Run
import MediaFramework.Osal.EventSystem

/-!
# The users of an event

Once it is dispatched an event is managed: it counts its users, and is freed by the one who
deletes it last. Its users are the entries that hold it, the consumers who have taken it and
not deleted it, the dispatches and the additions in progress.

`eventqueue_add` counts the user it is about to make before it allocates an entry and puts it
into the queue. Neither the count nor the entry is taken back if that fails, and the event is
never freed then.
-/

namespace MediaFramework

open Function (update update_of_ne update_self)

/-! ## What holds an event -/

/-- The entries of the queue that hold the event. -/
def Eventqueue.entriesOf (h : ℕ) (q : Eventqueue) : ℕ := q.eventlist.countP (·.event = h)

namespace Thread

variable {m : ℕ} (h : ℕ)

/-- The thread is adding the event to a queue. -/
def adds : Thread m → ℕ
  | .adding _ k _ => if k = h then 1 else 0
  | _ => 0

/-- The thread is dispatching the event. -/
def dispatches : Thread m → ℕ
  | .adding _ k (some _) | .dispatching k _ => if k = h then 1 else 0
  | _ => 0

/-- The thread has taken the event out of a queue that it clears. -/
def deletes : Thread m → ℕ
  | .deleting _ k => if k = h then 1 else 0
  | _ => 0

/-- What the thread holds of the event. -/
def uses (t : Thread m) : ℕ := t.adds h + t.dispatches h + t.deletes h

variable {h}

@[simp] theorem uses_idle : (idle : Thread m).uses h = 0 := rfl

@[simp] theorem uses_waiting {c : Call} {j : Fin m} : (waiting c j).uses h = 0 := rfl

@[simp] theorem uses_popping {c : Call} {j : Fin m} {taken : Bool} :
    (popping c j taken).uses h = 0 := rfl

@[simp] theorem uses_dispatching {k : ℕ} {queues : List (Fin m)} :
    (dispatching k queues).uses h = if k = h then 1 else 0 := Nat.zero_add _

@[simp] theorem uses_deleting {j : Fin m} {k : ℕ} :
    (deleting j k).uses h = if k = h then 1 else 0 := Nat.zero_add _

/-- Adding holds the event once more than what comes after it. -/
@[simp] theorem uses_adding {j : Fin m} {k : ℕ} {d : Option (List (Fin m))} :
    (adding j k d).uses h = (Osal.afterAdd k d).uses h + if k = h then 1 else 0 := by
  cases d with
  | none => exact (Nat.zero_add _).symm
  | some queues =>
    rw [Osal.afterAdd, uses_dispatching]
    rfl

end Thread

namespace Osal

variable {n m : ℕ} {s s' : Osal n m} {i : Fin n} {h : ℕ}

/-- The queue entries that hold the event. -/
def queued (s : Osal n m) (h : ℕ) : ℕ := total (Eventqueue.entriesOf h) s.queues

/-- The consumers who have taken the event and not deleted it. -/
def taken (s : Osal n m) (h : ℕ) : ℕ := (s.events h).held + total (Thread.deletes h) s.threads

/-- The dispatches of the event that are in progress. -/
def dispatching (s : Osal n m) (h : ℕ) : ℕ := total (Thread.dispatches h) s.threads

/-- The additions of the event that are in progress. -/
def adding (s : Osal n m) (h : ℕ) : ℕ := total (Thread.adds h) s.threads

/-- All that hold the event. -/
def holders (s : Osal n m) (h : ℕ) : ℕ := s.queued h + s.taken h + s.dispatching h + s.adding h

/-- Those of them that the event itself does not tell. -/
def others (s : Osal n m) (h : ℕ) : ℕ := s.queued h + total (Thread.uses h) s.threads

theorem holders_eq (s : Osal n m) (h : ℕ) : s.holders h = (s.events h).held + s.others h := by
  have huses : total (Thread.uses h) s.threads =
      total (Thread.adds h) s.threads + total (Thread.dispatches h) s.threads +
        total (Thread.deletes h) s.threads := by
    unfold total
    rw [← Finset.sum_add_distrib, ← Finset.sum_add_distrib]
    rfl
  unfold holders taken dispatching adding others
  omega

theorem others_setThread (s : Osal n m) (i : Fin n) (t : Thread m) (h : ℕ) :
    (s.setThread i t).others h + (s.threads i).uses h = s.others h + t.uses h := by
  have hcount := total_update (Thread.uses h) s.threads i t
  show s.queued h + total (Thread.uses h) (update s.threads i t) + _ =
    s.queued h + _ + _
  omega

theorem others_setQueue (s : Osal n m) (j : Fin m) (q : Eventqueue) (h : ℕ) :
    (s.setQueue j q).others h + (s.queues j).entriesOf h = s.others h + q.entriesOf h := by
  have hcount := total_update (Eventqueue.entriesOf h) s.queues j q
  show total (Eventqueue.entriesOf h) (update s.queues j q) +
    total (Thread.uses h) s.threads + _ = total (Eventqueue.entriesOf h) s.queues + _ + _
  omega

end Osal

/-! ## The invariant of an event -/

/-- What an event says about those who hold it. -/
structure Event.Counted (e : Event) (holders : ℕ) : Prop where
  managed : e.memoryManaged = true → e.users = holders ∧ e.frees = if holders = 0 then 1 else 0
  /-- one holds it, until it is freed -/
  unmanaged : e.memoryManaged = false →
    e.users = 0 ∧ holders + e.frees = if e.created then 1 else 0
  created : e.created = false → e.memoryManaged = false

/-- What a step does to an event and to those who hold it besides: `others` in the queues and
among the threads. -/
inductive EventMoves (e : Event) (others : ℕ) : Event → ℕ → Prop
  | stays : EventMoves e others e others
  | creates {priority : ℕ} (hnew : e.created = false) :
    EventMoves e others { created := true, priority := priority, held := 1 } others
  | deletes (hheld : e.held ≠ 0) :
    EventMoves e others { e with held := e.held - 1 }.delete others
  | begins (hheld : e.held ≠ 0) : EventMoves e others e.beginDispatch (others + 1)
  | lends (hheld : e.held ≠ 0) : EventMoves e others e.countUser.lend (others + 1)
  | counts (hmanaged : e.memoryManaged = true) (hothers : others ≠ 0) :
    EventMoves e others e.countUser (others + 1)
  | drops {others' : ℕ} (hothers : others = others' + 1) : EventMoves e others e.delete others'
  | returns {others' : ℕ} (hothers : others = others' + 1) (hmanaged : e.memoryManaged = false) :
    EventMoves e others e.giveBack others'
  | takes {others' : ℕ} (hothers : others = others' + 1) :
    EventMoves e others { e with held := e.held + 1 } others'

@[simp] theorem Event.held_delete (e : Event) : e.delete.held = e.held := by
  simp only [Event.delete]
  split_ifs <;> rfl

namespace Event.Counted

variable {e : Event} {holders : ℕ}

theorem isCreated (h : e.Counted holders) (hpos : holders ≠ 0) : e.created = true := by
  rcases hcreated : e.created with _ | _
  · obtain ⟨-, hone⟩ := h.unmanaged (h.created hcreated)
    rw [hcreated, if_neg Bool.false_ne_true] at hone
    omega
  · rfl

/-- The event does not count in `held`. -/
theorem setHeld (h : e.Counted holders) (held : ℕ) : Counted { e with held := held } holders :=
  ⟨h.managed, h.unmanaged, h.created⟩

/-- **One holder less.** The event is freed with the last. -/
theorem delete (h : e.Counted (holders + 1)) : e.delete.Counted holders := by
  have hcreated := h.isCreated (Nat.succ_ne_zero _)
  rcases hmode : e.memoryManaged with _ | _
  · obtain ⟨husers, hone⟩ := h.unmanaged hmode
    have hdelete : e.delete = { e with frees := e.frees + 1 } := by
      simp [Event.delete, hmode]
    rw [hdelete]
    refine ⟨fun hm => (nomatch hmode.symm.trans hm), fun _ => ⟨husers, ?_⟩, fun _ => hmode⟩
    show holders + (e.frees + 1) = if e.created then 1 else 0
    rw [← hone]
    omega
  · obtain ⟨husers, hfrees⟩ := h.managed hmode
    have hdelete : e.delete = { e with
        users := e.users - 1, frees := if holders = 0 then 1 else 0 } := by
      have hlast : 0 < e.users - 1 ↔ holders ≠ 0 := by omega
      simp only [Event.delete, hmode, if_true, true_and, hlast]
      split_ifs <;> simp_all
    rw [hdelete]
    refine ⟨fun _ => ⟨?_, rfl⟩, fun hm => (nomatch hmode.symm.trans hm), fun hnew => ?_⟩
    · show e.users - 1 = (holders : ℤ)
      omega
    · exact nomatch hcreated.symm.trans hnew

/-- **One holder more** of an event that is managed. -/
theorem countUser (h : e.Counted holders) (hmode : e.memoryManaged = true)
    (hpos : holders ≠ 0) : e.countUser.Counted (holders + 1) := by
  obtain ⟨husers, hfrees⟩ := h.managed hmode
  rw [Event.countUser, if_pos hmode]
  refine ⟨fun _ => ⟨?_, ?_⟩, fun hm => (nomatch hmode.symm.trans hm), h.created⟩
  · show e.users + 1 = ((holders + 1 : ℕ) : ℤ)
    omega
  · rw [if_neg (Nat.succ_ne_zero _)]
    exact hfrees.trans (if_neg hpos)

/-- An event that is not managed and not freed has one holder. -/
theorem alone (h : e.Counted holders) (hmode : e.memoryManaged = false) (hpos : holders ≠ 0) :
    holders = 1 ∧ e.users = 0 ∧ e.frees = 0 := by
  obtain ⟨husers, hone⟩ := h.unmanaged hmode
  rw [if_pos (h.isCreated hpos)] at hone
  omega

end Event.Counted

/-- **One step of an event.** -/
theorem EventMoves.counted {e e' : Event} {others others' : ℕ}
    (hmoves : EventMoves e others e' others') (h : e.Counted (e.held + others)) :
    e'.Counted (e'.held + others') := by
  cases hmoves with
  | stays => exact h
  | creates hnew =>
    obtain ⟨-, hone⟩ := h.unmanaged (h.created hnew)
    rw [hnew, if_neg Bool.false_ne_true] at hone
    refine ⟨fun hm => (nomatch hm), fun _ => ⟨rfl, ?_⟩, fun hc => (nomatch hc)⟩
    show 1 + others + 0 = 1
    omega
  | deletes hheld =>
    have hholders : e.held + others = e.held - 1 + others + 1 := by omega
    rw [Event.held_delete]
    exact ((hholders ▸ h).setHeld (e.held - 1)).delete
  | begins hheld =>
    have hpos : e.held + others ≠ 0 := by omega
    rcases hmode : e.memoryManaged with _ | _
    · -- the creator's hold becomes the dispatch
      obtain ⟨hone, husers, hfrees⟩ := h.alone hmode hpos
      have hbegin : e.beginDispatch = { e with
          memoryManaged := true, users := 1, held := e.held - 1 } := by
        simp [Event.beginDispatch, hmode, husers]
      rw [hbegin]
      have hholders : e.held - 1 + (others + 1) = 1 := by omega
      refine ⟨fun _ => ⟨?_, ?_⟩, fun hm => (nomatch hm), fun hnew => ?_⟩
      · rw [hholders]
        rfl
      · rw [hholders]
        exact hfrees
      · exact nomatch (h.isCreated hpos).symm.trans hnew
    · have hbegin : e.beginDispatch = e.countUser := by
        simp [Event.beginDispatch, Event.countUser, hmode]
      rw [hbegin]
      have hheld : e.countUser.held = e.held := by
        rw [Event.countUser, if_pos hmode]
      rw [hheld, ← Nat.add_assoc]
      exact h.countUser hmode hpos
  | lends hheld =>
    have hpos : e.held + others ≠ 0 := by omega
    rcases hmode : e.memoryManaged with _ | _
    · have hlend : e.countUser.lend = { e with held := e.held - 1 } := by
        simp [Event.countUser, Event.lend, hmode]
      rw [hlend]
      have hholders : e.held - 1 + (others + 1) = e.held + others := by omega
      rw [hholders]
      exact h.setHeld _
    · have hlend : e.countUser.lend = e.countUser := by
        simp [Event.countUser, Event.lend, hmode]
      have hheld : e.countUser.held = e.held := by
        rw [Event.countUser, if_pos hmode]
      rw [hlend, hheld, ← Nat.add_assoc]
      exact h.countUser hmode hpos
  | counts hmode hothers =>
    have hheld : e.countUser.held = e.held := by
      rw [Event.countUser, if_pos hmode]
    rw [hheld, ← Nat.add_assoc]
    exact h.countUser hmode (by omega)
  | drops hothers =>
    rw [Event.held_delete]
    rw [hothers, ← Nat.add_assoc] at h
    exact h.delete
  | returns hothers hmode =>
    have hback : e.giveBack = { e with held := e.held + 1 } := by
      simp [Event.giveBack, hmode]
    have hholders : e.held + 1 + others' = e.held + others := by omega
    rw [hback]
    rw [hholders]
    exact h.setHeld _
  | takes hothers =>
    have hholders : e.held + 1 + others' = e.held + others := by omega
    rw [hholders]
    exact h.setHeld _

/-! ## Steps -/

/-- The queue and the event of an addition in progress. -/
def Thread.addition {m : ℕ} : Thread m → Option (Fin m × ℕ)
  | .adding j h _ => some (j, h)
  | _ => none

/-- Whether there is memory for an entry, and whether the mutex is acquired. -/
def Action.insertion {m : ℕ} : Action m → Option (Bool × Bool)
  | .insert allocated acquired => some (allocated, acquired)
  | _ => none

namespace Osal

variable {n m : ℕ} {s s' : Osal n m} {i : Fin n}

/-- **What is asked of a step.** An addition of an event that is managed does not fail: there is
memory, the mutex is acquired in time, and the queue is not full. -/
def AddSucceeds (s : Osal n m) (e : Fin n × Action m) : Prop :=
  ∀ p ∈ (s.threads e.1).addition, ∀ r ∈ e.2.insertion, (s.events p.2).memoryManaged = true →
    r = (true, true) ∧ (s.queues p.1).eventCount ≠ eventqMaxLimit

instance (s : Osal n m) (e : Fin n × Action m) : Decidable (s.AddSucceeds e) :=
  inferInstanceAs (Decidable (∀ p ∈ _, ∀ r ∈ _, _ → _))

/-- A step of thread `i` on the event `h`: another event does not see it. -/
theorem eventMoves_thread {h : ℕ} {e : Event} {t : Thread m}
    (hother : ∀ k, h ≠ k → (s.threads i).uses k = t.uses k)
    (hsame : ∀ others', others' + (s.threads i).uses h = s.others h + t.uses h →
      EventMoves (s.events h) (s.others h) e others') (k : ℕ) :
    EventMoves (s.events k) (s.others k) (((s.setEvent h e).setThread i t).events k)
      (((s.setEvent h e).setThread i t).others k) := by
  have hcount := others_setThread s i t k
  show EventMoves _ _ (update s.events h e k) ((s.setThread i t).others k)
  by_cases hk : h = k
  · subst hk
    rw [update_self]
    exact hsame _ hcount
  · rw [update_of_ne (Ne.symm hk)]
    have hstays : (s.setThread i t).others k = s.others k := by
      have := hother k hk
      omega
    rw [hstays]
    exact .stays

/-- A thread moves on with nothing gained or lost. -/
theorem eventMoves_uses {t : Thread m} (huses : ∀ k, (s.threads i).uses k = t.uses k) (k : ℕ) :
    EventMoves (s.events k) (s.others k) ((s.setThread i t).events k)
      ((s.setThread i t).others k) := by
  have hcount := others_setThread s i t k
  have hstays : (s.setThread i t).others k = s.others k := by
    have := huses k
    omega
  rw [hstays]
  exact .stays

/-- What a thread that changes a queue, too, leaves to others. -/
theorem others_moved (s : Osal n m) (i : Fin n) (t : Thread m) (j : Fin m) (q : Eventqueue)
    (k : ℕ) : ((s.setQueue j q).setThread i t).others k + (s.threads i).uses k +
      (s.queues j).entriesOf k = s.others k + t.uses k + q.entriesOf k := by
  have hthread := others_setThread (s.setQueue j q) i t k
  have hqueue := others_setQueue s j q k
  have hsame : ((s.setQueue j q).threads i).uses k = (s.threads i).uses k := rfl
  omega

theorem entriesOf_add {q q' : Eventqueue} {h priority : ℕ}
    (hadd : q.listAddElement h priority = some q') (k : ℕ) :
    q'.entriesOf k = q.entriesOf k + if h = k then 1 else 0 := by
  unfold Eventqueue.listAddElement at hadd
  split_ifs at hadd
  cases hadd
  unfold Eventqueue.entriesOf
  rw [Eventqueue.eventlist_semPost]
  rw [(insertElement_perm _ _).countP_eq, List.countP_cons]
  simp

theorem entriesOf_pop {q q' : Eventqueue} {el : QueueEntry}
    (hpop : q.listPopElement = some (el, q')) (k : ℕ) :
    q.entriesOf k = q'.entriesOf k + if el.event = k then 1 else 0 := by
  unfold Eventqueue.entriesOf
  rw [(Eventqueue.eventlist_of_pop hpop).1, List.countP_cons]
  simp

/-- A thread that dispatches an event is one that holds it. -/
theorem others_ne_zero {h : ℕ} (hi : (s.threads i).uses h ≠ 0) : s.others h ≠ 0 := by
  have := le_total (Thread.uses h) s.threads i
  unfold others
  omega

theorem Moves.eventMoves {a : Action m} (hmoves : s.Moves i a s') (hadds : s.AddSucceeds (i, a))
    (hdispatched : ∀ h, (s.threads i).dispatches h ≠ 0 → (s.events h).memoryManaged = true)
    (k : ℕ) : EventMoves (s.events k) (s.others k) (s'.events k) (s'.others k) := by
  cases hmoves with
  | @create h priority hi hnew =>
    by_cases hk : h = k
    · subst hk
      show EventMoves _ _ (update s.events h _ h) (s.others h)
      rw [update_self]
      exact .creates hnew
    · show EventMoves _ _ (update s.events h _ k) (s.others k)
      rw [update_of_ne (Ne.symm hk)]
      exact .stays
  | @delete h hi hheld =>
    by_cases hk : h = k
    · subst hk
      show EventMoves _ _ (update s.events h _ h) (s.others h)
      rw [update_self]
      exact .deletes hheld
    · show EventMoves _ _ (update s.events h _ k) (s.others k)
      rw [update_of_ne (Ne.symm hk)]
      exact .stays
  | @dispatch h queues hi hheld =>
    refine eventMoves_thread (fun k hk => ?_) (fun others' hothers => ?_) k
    · rw [hi]
      simp [hk]
    · rw [hi] at hothers
      simp at hothers
      exact hothers ▸ .begins hheld
  | @add j h hi hheld =>
    refine eventMoves_thread (fun k hk => ?_) (fun others' hothers => ?_) k
    · rw [hi]
      simp [hk, afterAdd]
    · rw [hi] at hothers
      simp [afterAdd] at hothers
      exact hothers ▸ .lends hheld
  | @nextQueue h j queues hi =>
    refine eventMoves_thread (fun k hk => ?_) (fun others' hothers => ?_) k
    · rw [hi]
      simp [hk, afterAdd]
    · have hone : others' = s.others h + 1 := by
        rw [hi] at hothers
        simp [afterAdd] at hothers
        omega
      rw [hone]
      exact .counts (hdispatched h (by rw [hi]; simp [Thread.dispatches]))
        (others_ne_zero (i := i) (by rw [hi]; simp))
  | @endDispatch h hi | @deleted j h hi =>
    refine eventMoves_thread (fun k hk => ?_) (fun others' hothers => ?_) k
    · rw [hi]
      simp [hk]
    · rw [hi] at hothers
      simp at hothers
      exact .drops hothers.symm
  | @inserted j h d q hi hadd =>
    have hmoved := others_moved s i (afterAdd h d) j (q.recordAdded h (s.events h).priority) k
    have hrecord : (q.recordAdded h (s.events h).priority).entriesOf k = q.entriesOf k := rfl
    rw [hi, hrecord, entriesOf_add hadd, Thread.uses_adding] at hmoved
    have hothers : (({ s with entries := s.entries + 1 }.setQueue j
        (q.recordAdded h (s.events h).priority)).setThread i (afterAdd h d)).others k =
          s.others k := by
      show ((s.setQueue j _).setThread i (afterAdd h d)).others k = s.others k
      omega
    rw [hothers]
    exact .stays
  | @notInserted j h entries d allocated acquired hi hfail =>
    -- an event that is managed would have been inserted
    have hmode : (s.events h).memoryManaged = false := by
      by_contra hmanaged
      obtain ⟨hr, hfull⟩ := hadds (j, h) (by rw [hi]; rfl) (allocated, acquired) rfl
        (Bool.not_eq_false _ ▸ hmanaged)
      obtain ⟨rfl, rfl⟩ := Prod.mk.inj hr
      have hnone := hfail rfl rfl
      rw [Eventqueue.listAddElement, if_neg hfull] at hnone
      cases hnone
    refine eventMoves_thread (fun k hk => ?_) (fun others' hothers => ?_) k
    · rw [hi]
      simp [hk]
    · rw [hi, Thread.uses_adding, if_pos rfl] at hothers
      exact .returns (by omega) hmode
  | call hi | giveUp hi | goOn hi => exact eventMoves_uses (fun k => by rw [hi]; rfl) k
  | @take c j q ok hi htake =>
    have hentries : q.entriesOf k = (s.queues j).entriesOf k := by
      unfold Eventqueue.semTake at htake
      split_ifs at htake
      cases htake
      rfl
    have hmoved := others_moved s i (.popping c j true) j q k
    rw [hi, Thread.uses_waiting, Thread.uses_popping, hentries] at hmoved
    have hothers : ((s.setQueue j q).setThread i (.popping c j true)).others k = s.others k := by
      omega
    rw [hothers]
    exact .stays
  | popNothing hi hpop ht =>
    refine eventMoves_uses (fun k => ?_) k
    rw [hi]
    rcases ht with rfl | rfl
    · rfl
    · rfl
  | @popReturned c j taken el q hi hpop =>
    have hmoved := others_moved s i .idle j (q.recordReturned el) k
    rw [hi, Thread.uses_popping, Thread.uses_idle, entriesOf_pop hpop] at hmoved
    have hrecord : (q.recordReturned el).entriesOf k = q.entriesOf k := rfl
    show EventMoves _ _ (update s.events el.event _ k)
      (((s.setQueue j (q.recordReturned el)).setThread i .idle).others k)
    by_cases hk : el.event = k
    · subst hk
      rw [if_pos rfl] at hmoved
      rw [update_self]
      exact .takes (by omega)
    · rw [if_neg hk] at hmoved
      rw [update_of_ne (Ne.symm hk)]
      have hothers : ((s.setQueue j (q.recordReturned el)).setThread i .idle).others k =
          s.others k := by omega
      rw [hothers]
      exact .stays
  | @popCleared c j taken el q hi hpop =>
    have hmoved := others_moved s i (.deleting j el.event) j (q.recordCleared el) k
    rw [hi, Thread.uses_popping, Thread.uses_deleting, entriesOf_pop hpop] at hmoved
    have hrecord : (q.recordCleared el).entriesOf k = q.entriesOf k := rfl
    have hothers : (({ s with entries := s.entries - 1 }.setQueue j (q.recordCleared el)).setThread
        i (.deleting j el.event)).others k = s.others k := by
      show ((s.setQueue j (q.recordCleared el)).setThread i _).others k = s.others k
      omega
    rw [hothers]
    exact .stays

end Osal

theorem Event.memoryManaged_delete (e : Event) : e.delete.memoryManaged = e.memoryManaged := by
  simp only [Event.delete]
  split_ifs <;> rfl

theorem Event.memoryManaged_countUser (e : Event) :
    e.countUser.memoryManaged = e.memoryManaged := by
  unfold Event.countUser
  split_ifs <;> rfl

/-- An event stays managed. -/
theorem EventMoves.managed {e e' : Event} {others others' : ℕ}
    (hmoves : EventMoves e others e' others') (h : e.Counted (e.held + others))
    (hmode : e.memoryManaged = true) : e'.memoryManaged = true := by
  cases hmoves with
  | stays => exact hmode
  | creates hnew => exact nomatch hmode.symm.trans (h.created hnew)
  | deletes => exact (Event.memoryManaged_delete _).trans hmode
  | begins => rfl
  | lends =>
    have hcount := (Event.memoryManaged_countUser e).trans hmode
    rw [Event.lend, if_pos hcount]
    exact hcount
  | counts => exact (Event.memoryManaged_countUser e).trans hmode
  | drops => exact (Event.memoryManaged_delete e).trans hmode
  | returns hothers hunmanaged => exact nomatch hmode.symm.trans hunmanaged
  | takes => exact hmode

namespace Osal

variable {n m : ℕ} {s s' : Osal n m} {i : Fin n}

/-- **The invariant.** Every event counts those who hold it, and one that is being dispatched
is managed. -/
structure Counted (s : Osal n m) : Prop where
  events : ∀ h, (s.events h).Counted ((s.events h).held + s.others h)
  dispatched : ∀ i h, (s.threads i).dispatches h ≠ 0 → (s.events h).memoryManaged = true

theorem counted_initial : (initial n m).Counted where
  events h := by
    have hothers : (initial n m).others h = 0 := by
      have hqueues : total (Eventqueue.entriesOf h) (initial n m).queues = 0 :=
        total_eq_zero fun _ => rfl
      have hthreads : total (Thread.uses h) (initial n m).threads = 0 :=
        total_eq_zero fun _ => rfl
      unfold others queued
      rw [hqueues, hthreads]
    rw [hothers]
    exact ⟨fun hm => (nomatch hm), fun _ => ⟨rfl, rfl⟩, fun _ => rfl⟩
  dispatched i h hi := absurd rfl hi

/-- The other threads stay where they are, and this one dispatches an event that it has
dispatched before, or that is managed now. -/
theorem Moves.threads {a : Action m} (hmoves : s.Moves i a s') :
    (∀ k, k ≠ i → s'.threads k = s.threads k) ∧
      ∀ h, (s'.threads i).dispatches h ≠ 0 →
        (s.threads i).dispatches h ≠ 0 ∨ (s'.events h).memoryManaged = true := by
  have hrest : ∀ (u : Osal n m) (t : Thread m), u.threads = s.threads →
      ∀ k, k ≠ i → (u.setThread i t).threads k = s.threads k :=
    fun u t hu k hk => (threads_setThread_of_ne u t hk).trans (congrFun hu k)
  cases hmoves with
  | create | delete => exact ⟨fun _ _ => rfl, fun _ h => Or.inl h⟩
  | @dispatch h queues hi hheld =>
    refine ⟨hrest _ _ rfl, fun k hk => Or.inr ?_⟩
    rw [threads_setThread_self] at hk
    obtain rfl : h = k := by
      by_contra hne
      exact hk (if_neg hne)
    show (update s.events h _ h).memoryManaged = true
    rw [update_self]
    rfl
  | add => exact ⟨hrest _ _ rfl, fun k hk => absurd (by rw [threads_setThread_self]; rfl) hk⟩
  | nextQueue hi =>
    refine ⟨hrest _ _ rfl, fun k hk => Or.inl ?_⟩
    rw [threads_setThread_self] at hk
    rw [hi]
    exact hk
  | @inserted _ h d _ hi _ | @notInserted _ h _ d _ _ hi _ =>
    refine ⟨hrest _ _ rfl, fun k hk => Or.inl ?_⟩
    rw [threads_setThread_self] at hk
    rw [hi]
    cases d with
    | none => exact absurd rfl hk
    | some queues => exact hk
  | popNothing hi hpop ht =>
    refine ⟨hrest _ _ rfl, fun k hk => absurd ?_ hk⟩
    rw [threads_setThread_self]
    rcases ht with rfl | rfl
    · rfl
    · rfl
  | endDispatch | call | take | giveUp | goOn | popReturned | popCleared | deleted =>
    exact ⟨hrest _ _ rfl, fun k hk => absurd (by rw [threads_setThread_self]; rfl) hk⟩

/-- **One step.** -/
theorem Counted.step {e : Fin n × Action m} (h : s.Counted) (hadds : s.AddSucceeds e)
    (hstep : s.step e = some s') : s'.Counted := by
  obtain ⟨i, a⟩ := e
  have hmoves := step_moves hstep
  have hevents := hmoves.eventMoves hadds (h.dispatched i)
  refine ⟨fun k => (hevents k).counted (h.events k), fun k g hk => ?_⟩
  obtain ⟨hrest, hself⟩ := hmoves.threads
  by_cases hik : k = i
  · subst hik
    rcases hself g hk with hbefore | hnow
    · exact (hevents g).managed (h.events g) (h.dispatched k g hbefore)
    · exact hnow
  · rw [hrest k hik] at hk
    exact (hevents g).managed (h.events g) (h.dispatched k g hk)

/-! ## Runs -/

/-- **What is asked of an event.** Its users are those who hold it, and it has been freed, once,
exactly if no one does. -/
structure UsersCounted (s : Osal n m) (h : ℕ) : Prop where
  users : (s.events h).users = s.queued h + s.taken h + s.dispatching h + s.adding h
  freed : (s.events h).frees =
    if s.queued h + s.taken h + s.dispatching h + s.adding h = 0 then 1 else 0

/-- **The users of a run.** In a run in which no addition of a managed event fails, every
managed event counts its users, and the last of them has freed it. -/
theorem users_counted {es : List (Fin n × Action m)} {h : ℕ}
    (hadds : EachStep step AddSucceeds (initial n m) es)
    (hrun : runFrom step (initial n m) es = some s) (hmode : (s.events h).memoryManaged = true) :
    s.UsersCounted h := by
  have hcounted := EachStep.invariant (I := Counted)
    (fun _ _ _ h hadds hstep => h.step hadds hstep) hadds counted_initial hrun
  have hevent := hcounted.events h
  rw [← holders_eq] at hevent
  obtain ⟨husers, hfrees⟩ := hevent.managed hmode
  refine ⟨?_, hfrees⟩
  rw [husers]
  unfold holders
  omega

/-- An event that goes to two queues, of which one is cleared. -/
def twoQueues : List (Fin 2 × Action 2) :=
  [(0, .create 0 5), (0, .dispatch 0 [0, 1]), (0, .next), (0, .insert true true),
    (1, .call .getNextEvent 0), (1, .wait true), (1, .pop), (0, .next), (0, .insert true true),
    (0, .next), (1, .delete 0), (1, .call .clear 1), (1, .wait true), (1, .pop)]

theorem users_counted_twoQueues :
    ∃ s, runFrom step (initial 2 2) twoQueues = some s ∧ s.UsersCounted 0 := by
  have hrun : (runFrom step (initial 2 2) twoQueues).any fun s =>
      (s.events 0).memoryManaged := by decide +kernel
  obtain ⟨s, hs, hmode⟩ := (Option.any_eq_true _ _).mp hrun
  exact ⟨s, hs, users_counted (by decide +kernel) hs hmode⟩

/-- An event is dispatched to a queue and taken out of it; the consumer's attempt to add it
again runs out of time. -/
def timedOut : List (Fin 2 × Action 1) :=
  [(0, .create 0 5), (0, .dispatch 0 [0]), (0, .next), (0, .insert true true), (0, .next),
    (1, .call .getNextEvent 0), (1, .wait true), (1, .pop), (1, .add 0 0),
    (1, .insert true false), (1, .delete 0)]

/-- The event has a user and an entry is allocated, but no one holds the event, and it is not
freed. -/
theorem timedOut_leaks : ∃ s, runFrom step (initial 2 1) timedOut = some s ∧
    (s.events 0).users = 1 ∧ (s.events 0).frees = 0 ∧ s.entries = 1 ∧ s.holders 0 = 0 ∧
    ¬s.UsersCounted 0 := by
  have hrun : (runFrom step (initial 2 1) timedOut).any fun s =>
      decide ((s.events 0).users = 1 ∧ (s.events 0).frees = 0 ∧ s.entries = 1 ∧
        s.holders 0 = 0) := by
    decide +kernel
  obtain ⟨s, hs, hleak⟩ := (Option.any_eq_true _ _).mp hrun
  obtain ⟨husers, hfrees, hentries, hholders⟩ := of_decide_eq_true hleak
  refine ⟨s, hs, husers, hfrees, hentries, hholders, fun hcounted => ?_⟩
  have hfreed := hcounted.freed
  have hzero : s.queued 0 + s.taken 0 + s.dispatching 0 + s.adding 0 = 0 := hholders
  rw [hzero, hfrees] at hfreed
  exact absurd hfreed (by decide)

end Osal

end MediaFramework
