import Mathlib.Data.List.Sort
import Mathlib.Data.List.Nodup
import Mathlib.Algebra.GroupWithZero.Nat

/-!
# An event queue

An `rmf_osal_eventqueue_t` is a list of events in the order in which they are handed out, a
count of them, and a semaphore on which consumers wait. `list_add_element` and
`list_pop_element` change list and count while they hold the queue's mutex; adding posts the
semaphore there, too.

The queue also keeps what the code does not: the entries in the order in which they were
added, and those that were returned to a consumer or cleared. The functions of the code leave
these books alone; a step of the threads writes into them what was asked for and what was got.
-/

namespace MediaFramework

/-- `RMF_OSAL_EVENTQ_MAX_LIMIT`. -/
def eventqMaxLimit : ℕ := 255

/-- `SEM_VALUE_MAX`, with which `sem_post` fails. -/
def semValueMax : ℕ := 2 ^ 31 - 1

/-- `rmf_osal_eventqueue_entry_t`. -/
structure QueueEntry where
  event : ℕ
  /-- that of the event, which nothing changes once it is created -/
  priority : ℕ
  /-- how many entries were added before -/
  arrival : ℕ
  deriving DecidableEq

/-- `rmf_osal_eventqueue_t`. -/
structure Eventqueue where
  eventlist : List QueueEntry := []
  /-- a 16-bit number -/
  eventCount : ℕ := 0
  sem : ℕ := 0
  added : List QueueEntry := []
  returned : List QueueEntry := []
  cleared : List QueueEntry := []

/-! ## The list -/

/-- The loop of `list_add_element`, with `prev` behind it and `itr` the first of the rest. -/
def insertBehind (el prev : QueueEntry) : List QueueEntry → List QueueEntry
  | [] => [prev, el]
  | itr :: rest =>
    if itr.priority < el.priority then prev :: el :: itr :: rest
    else prev :: insertBehind el itr rest

/-- How `list_add_element` puts an entry into the list: the first, before the head, or behind
the last entry that it does not overtake. -/
def insertElement (el : QueueEntry) : List QueueEntry → List QueueEntry
  | [] => [el]
  | head :: rest =>
    if head.priority < el.priority then el :: head :: rest else insertBehind el head rest

namespace Eventqueue

variable (q : Eventqueue)

/-- `sem_post`. If it fails, the code goes on. -/
def semPost : Eventqueue :=
  if q.sem = semValueMax then q else { q with sem := q.sem + 1 }

/-- A consumer gets past the semaphore, if it is not zero. -/
def semTake : Option Eventqueue :=
  if q.sem = 0 then none else some { q with sem := q.sem - 1 }

/-- `list_add_element`, once it has the mutex; `none` is `RMF_OSAL_EBUSY`. -/
def listAddElement (event priority : ℕ) : Option Eventqueue :=
  if q.eventCount = eventqMaxLimit then none
  else
    let q := { q with
      eventlist := insertElement ⟨event, priority, q.added.length⟩ q.eventlist
      eventCount := (q.eventCount + 1) % 2 ^ 16 }
    some q.semPost

/-- `list_pop_element`; `none` is `RMF_OSAL_ENODATA`. -/
def listPopElement : Option (QueueEntry × Eventqueue) :=
  match q.eventlist with
  | [] => none
  | el :: rest =>
    some (el, { q with
      eventlist := rest
      eventCount := if q.eventCount = 0 then 0 else q.eventCount - 1 })

/-- An event is added, after so many as there were before. -/
def recordAdded (event priority : ℕ) : Eventqueue :=
  { q with added := q.added ++ [⟨event, priority, q.added.length⟩] }

/-- The entry is returned to a consumer. -/
def recordReturned (el : QueueEntry) : Eventqueue := { q with returned := q.returned ++ [el] }

/-- The entry is cleared. -/
def recordCleared (el : QueueEntry) : Eventqueue := { q with cleared := q.cleared ++ [el] }

end Eventqueue

theorem insertBehind_perm (el prev : QueueEntry) (rest : List QueueEntry) :
    (insertBehind el prev rest).Perm (el :: prev :: rest) := by
  induction rest generalizing prev with
  | nil => exact List.Perm.swap el prev []
  | cons itr rest ih =>
    rw [insertBehind]
    split_ifs
    · exact List.Perm.swap el prev _
    · exact ((ih itr).cons prev).trans (List.Perm.swap el prev _)

theorem insertElement_perm (el : QueueEntry) (l : List QueueEntry) :
    (insertElement el l).Perm (el :: l) := by
  cases l with
  | nil => exact List.Perm.refl _
  | cons head rest =>
    rw [insertElement]
    split_ifs
    · exact List.Perm.refl _
    · exact insertBehind_perm el head rest

/-! ## The order of the list -/

/-- `a` is handed out before `b`: it has a higher priority, or the same and came first. -/
def QueueEntry.Before (a b : QueueEntry) : Prop :=
  b.priority < a.priority ∨ a.priority = b.priority ∧ a.arrival ≤ b.arrival

namespace QueueEntry

instance : DecidableRel Before := fun _ _ => inferInstanceAs (Decidable (_ ∨ _ ∧ _))

instance : Std.Total Before where
  total a b := by
    unfold Before
    omega

instance : IsTrans QueueEntry Before where
  trans a b c hab hbc := by
    unfold Before at *
    omega

/-- A newcomer goes before an entry exactly if its priority is higher. -/
theorem before_newcomer {el a : QueueEntry} (h : a.arrival < el.arrival) :
    el.Before a ↔ a.priority < el.priority := by
  unfold Before
  omega

end QueueEntry

open QueueEntry

theorem insertBehind_eq {el : QueueEntry} :
    ∀ {prev : QueueEntry} {rest : List QueueEntry}, ¬prev.priority < el.priority →
      (∀ a ∈ prev :: rest, a.arrival < el.arrival) →
      insertBehind el prev rest = (prev :: rest).orderedInsert Before el := by
  intro prev rest
  induction rest generalizing prev with
  | nil =>
    intro hprev harrival
    have hbefore := before_newcomer (harrival prev List.mem_cons_self)
    rw [List.orderedInsert_cons, if_neg fun h => hprev (hbefore.mp h)]
    rfl
  | cons itr rest ih =>
    intro hprev harrival
    have hrest : ∀ a ∈ itr :: rest, a.arrival < el.arrival :=
      fun a ha => harrival a (List.mem_cons_of_mem prev ha)
    have hbefore := before_newcomer (harrival prev List.mem_cons_self)
    have hitr := before_newcomer (hrest itr List.mem_cons_self)
    rw [insertBehind, List.orderedInsert_cons, if_neg fun h => hprev (hbefore.mp h)]
    split_ifs with hover
    · rw [List.orderedInsert_cons, if_pos (hitr.mpr hover)]
    · rw [ih hover hrest]

/-- **The code inserts in order.** An entry that came last is put where `orderedInsert` puts
it. -/
theorem insertElement_eq {el : QueueEntry} {l : List QueueEntry}
    (harrival : ∀ a ∈ l, a.arrival < el.arrival) :
    insertElement el l = l.orderedInsert Before el := by
  cases l with
  | nil => rfl
  | cons head rest =>
    have hhead := before_newcomer (harrival head List.mem_cons_self)
    rw [insertElement]
    split_ifs with hover
    · rw [List.orderedInsert_cons, if_pos (hhead.mpr hover)]
    · exact insertBehind_eq hover harrival

/-! ## What holds of a queue -/

/-- The list is in order and counted, and what was added is in it, was returned or was cleared,
each once. -/
structure Eventqueue.Sound (q : Eventqueue) : Prop where
  sorted : q.eventlist.Pairwise Before
  count : q.eventCount = q.eventlist.length
  limit : q.eventlist.length ≤ eventqMaxLimit
  arrivals : q.added.map arrival = List.range q.added.length
  once : q.added.Perm (q.eventlist ++ q.returned ++ q.cleared)

namespace Eventqueue

variable {q q' : Eventqueue} {el : QueueEntry}

theorem sound_empty : Sound {} := ⟨.nil, rfl, Nat.zero_le _, rfl, .nil⟩

/-- An entry of the list came before the next that will be added. -/
theorem Sound.arrival_lt (h : q.Sound) : ∀ a ∈ q.eventlist, a.arrival < q.added.length := by
  intro a ha
  have hadded : a ∈ q.added :=
    h.once.mem_iff.mpr (List.mem_append_left _ (List.mem_append_left _ ha))
  have hrange : a.arrival ∈ q.added.map arrival := List.mem_map_of_mem hadded
  rw [h.arrivals] at hrange
  exact List.mem_range.mp hrange

/-- No entry was added twice. -/
theorem Sound.nodup (h : q.Sound) : q.added.Nodup :=
  List.Nodup.of_map arrival (h.arrivals ▸ List.nodup_range)

/-- Among the entries of the list there is no tie. -/
theorem Sound.strict (h : q.Sound) : q.eventlist.Pairwise fun a b =>
    b.priority < a.priority ∨ a.priority = b.priority ∧ a.arrival < b.arrival := by
  have hnodup : (q.added.map arrival).Nodup := h.arrivals ▸ List.nodup_range
  have hperm := h.once.map arrival
  rw [List.append_assoc, List.map_append] at hperm
  have hlist : (q.eventlist.map arrival).Nodup := (hperm.nodup_iff.mp hnodup).of_append_left
  refine (h.sorted.and (List.pairwise_map.mp hlist)).imp fun {a b} hab => ?_
  obtain ⟨hbefore, hne⟩ := hab
  unfold Before at hbefore
  omega

@[simp] theorem eventlist_semPost : q.semPost.eventlist = q.eventlist := by
  unfold semPost
  split_ifs <;> rfl

/-- Posting changes the semaphore only. -/
theorem semPost_eq : q.semPost = { q with sem := q.semPost.sem } := by
  unfold semPost
  split_ifs <;> rfl

theorem Sound.semTake (h : q.Sound) (htake : q.semTake = some q') : q'.Sound := by
  unfold Eventqueue.semTake at htake
  split_ifs at htake
  cases htake
  exact ⟨h.sorted, h.count, h.limit, h.arrivals, h.once⟩

theorem eventlist_of_pop (hpop : q.listPopElement = some (el, q')) :
    q.eventlist = el :: q'.eventlist ∧ q'.sem = q.sem := by
  unfold listPopElement at hpop
  rcases hlist : q.eventlist with _ | ⟨head, rest⟩
  · rw [hlist] at hpop
    cases hpop
  · rw [hlist] at hpop
    obtain ⟨rfl, rfl⟩ := Prod.mk.inj (Option.some.inj hpop)
    exact ⟨rfl, rfl⟩

/-- **Adding.** -/
theorem Sound.recordAdded {event priority : ℕ} (h : q.Sound)
    (hadd : q.listAddElement event priority = some q') :
    (q'.recordAdded event priority).Sound := by
  unfold Eventqueue.listAddElement at hadd
  split_ifs at hadd with hfull
  cases hadd
  rw [semPost_eq]
  generalize (Eventqueue.semPost _).sem = sem
  have hperm := insertElement_perm ⟨event, priority, q.added.length⟩ q.eventlist
  have hroom : q.eventlist.length < eventqMaxLimit :=
    Nat.lt_of_le_of_ne h.limit fun heq => hfull (h.count.trans heq)
  refine ⟨?_, ?_, ?_, ?_, ?_⟩
  · show (insertElement _ q.eventlist).Pairwise Before
    rw [insertElement_eq h.arrival_lt]
    exact h.sorted.orderedInsert _ _
  · show (q.eventCount + 1) % 2 ^ 16 = (insertElement _ q.eventlist).length
    rw [hperm.length_eq, List.length_cons, h.count]
    exact Nat.mod_eq_of_lt (Nat.lt_trans (Nat.succ_lt_succ hroom) (by decide))
  · show (insertElement _ q.eventlist).length ≤ eventqMaxLimit
    rw [hperm.length_eq, List.length_cons]
    exact hroom
  · show (q.added ++ [_]).map arrival = List.range (q.added ++ [_]).length
    rw [List.map_append, h.arrivals, List.length_append, List.length_singleton, List.range_succ]
    rfl
  · show (q.added ++ [_]).Perm (insertElement _ q.eventlist ++ q.returned ++ q.cleared)
    refine (List.perm_append_singleton _ _).trans ((h.once.cons _).trans ?_)
    exact (hperm.symm.append_right q.returned).append_right q.cleared

/-- What popping an entry leaves, and what is left of the books then. -/
theorem Sound.listPopElement (h : q.Sound) (hpop : q.listPopElement = some (el, q')) :
    q'.eventlist.Pairwise Before ∧ q'.eventCount = q'.eventlist.length ∧
      q'.eventlist.length ≤ eventqMaxLimit ∧ q'.added.map arrival = List.range q'.added.length ∧
      q'.added.Perm (el :: (q'.eventlist ++ q'.returned ++ q'.cleared)) := by
  unfold Eventqueue.listPopElement at hpop
  rcases hlist : q.eventlist with _ | ⟨head, rest⟩
  · rw [hlist] at hpop
    cases hpop
  · rw [hlist] at hpop
    obtain ⟨rfl, rfl⟩ := Prod.mk.inj (Option.some.inj hpop)
    have hsorted := h.sorted
    have hcount := h.count
    have hlimit := h.limit
    have honce := h.once
    rw [hlist] at hsorted hcount hlimit honce
    rw [List.length_cons] at hcount hlimit
    refine ⟨hsorted.of_cons, ?_, Nat.le_of_succ_le hlimit, h.arrivals, honce⟩
    rw [hcount, if_neg (Nat.succ_ne_zero _), Nat.add_sub_cancel]

/-- **Returning.** -/
theorem Sound.recordReturned (h : q.Sound) (hpop : q.listPopElement = some (el, q')) :
    (q'.recordReturned el).Sound := by
  obtain ⟨hsorted, hcount, hlimit, harrivals, honce⟩ := h.listPopElement hpop
  refine ⟨hsorted, hcount, hlimit, harrivals, honce.trans ?_⟩
  show (el :: (q'.eventlist ++ q'.returned ++ q'.cleared)).Perm
    (q'.eventlist ++ (q'.returned ++ [el]) ++ q'.cleared)
  rw [← List.append_assoc, List.append_assoc _ [el]]
  exact List.perm_middle.symm

/-- **Clearing.** -/
theorem Sound.recordCleared (h : q.Sound) (hpop : q.listPopElement = some (el, q')) :
    (q'.recordCleared el).Sound := by
  obtain ⟨hsorted, hcount, hlimit, harrivals, honce⟩ := h.listPopElement hpop
  refine ⟨hsorted, hcount, hlimit, harrivals, honce.trans ?_⟩
  show (el :: (q'.eventlist ++ q'.returned ++ q'.cleared)).Perm
    (q'.eventlist ++ q'.returned ++ (q'.cleared ++ [el]))
  rw [← List.append_assoc]
  exact (List.perm_append_singleton _ _).symm

end Eventqueue

end MediaFramework
