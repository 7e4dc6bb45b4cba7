import MediaFramework.Lib.Family
import MediaFramework.Osal.Eventqueue

/-!
# Threads, events and queues

Any number of threads call the functions of `rmf_osal_event.c` on any number of queues. A step
is one critical section of one thread: what a thread does while it holds the mutex of an event
or of a queue is not seen by the others, and what it does without a mutex is either an
operation on the semaphore, a step of its own, or concerns nothing shared. Acquiring the mutex
of an event, and that of a queue without a timeout, succeeds, as it does for a mutex that
exists.

An event belongs to whoever created it until it is dispatched or put into a queue, and to a
consumer who has taken it until it is deleted; only who holds an event may call a function
with it. `held` counts these holders, which the code does not.
-/

namespace MediaFramework

/-! ## Data -/

/-- `rmf_osal_event_t`. The event is zero when it is allocated. -/
structure Event where
  created : Bool := false
  priority : ℕ := 0
  memoryManaged : Bool := false
  users : ℤ := 0
  /-- how many hold it: who created it, or consumers who have taken it -/
  held : ℕ := 0
  /-- how often it was freed -/
  frees : ℕ := 0

/-- The functions that take events from a queue. -/
inductive Call
  | getNextEvent
  | tryGetNextEvent
  | getNextEventTimed
  | clear
  deriving DecidableEq

/-- The call waits at the semaphore, instead of trying it only. -/
def Call.Blocks : Call → Prop
  | .getNextEvent | .getNextEventTimed => True
  | .tryGetNextEvent | .clear => False

instance : DecidablePred Call.Blocks
  | .getNextEvent | .getNextEventTimed => isTrue trivial
  | .tryGetNextEvent | .clear => isFalse id

/-- Where a thread is; `m` is the number of queues. -/
inductive Thread (m : ℕ)
  | idle
  /-- in `eventqueue_add`, behind the increment of `users`; in a dispatch, with the queues that
  come after this one -/
  | adding (queue : Fin m) (event : ℕ) (dispatch : Option (List (Fin m)))
  /-- in `eventmanager_dispatch_event`, with the queues that are still to come -/
  | dispatching (event : ℕ) (queues : List (Fin m))
  /-- before the semaphore -/
  | waiting (call : Call) (queue : Fin m)
  /-- before `list_pop_element`, with the semaphore taken or without -/
  | popping (call : Call) (queue : Fin m) (taken : Bool)
  /-- in `eventqueue_clear`, with an event to delete -/
  | deleting (queue : Fin m) (event : ℕ)
  deriving DecidableEq

/-- What a thread does next. -/
inductive Action (m : ℕ)
  /-- `rmf_osal_event_create` -/
  | create (event priority : ℕ)
  /-- `rmf_osal_event_delete` -/
  | delete (event : ℕ)
  /-- `rmf_osal_eventmanager_dispatch_event`, to the queues that are registered -/
  | dispatch (event : ℕ) (queues : List (Fin m))
  /-- `rmf_osal_eventqueue_add` or `addTimed`, up to the increment of `users` -/
  | add (queue : Fin m) (event : ℕ)
  /-- the rest of it: whether there is memory for an entry, and whether the mutex of the queue
  is acquired in time -/
  | insert (allocated acquired : Bool)
  | call (call : Call) (queue : Fin m)
  /-- at the semaphore; the wait fails or times out if not `ok` -/
  | wait (ok : Bool)
  /-- `list_pop_element` and what follows it -/
  | pop
  /-- the dispatch, or the clearing, goes on -/
  | next

namespace Event

variable (e : Event)

/-- The critical section of `event_delete`, and the freeing after it. -/
def delete : Event :=
  let e := if e.memoryManaged then { e with users := e.users - 1 } else e
  if e.memoryManaged ∧ 0 < e.users then e else { e with frees := e.frees + 1 }

/-- The critical section with which a dispatch begins. The event is no longer its creator's. -/
def beginDispatch : Event :=
  { e with
    memoryManaged := true
    users := e.users + 1
    held := if e.memoryManaged then e.held else e.held - 1 }

/-- The increment in `eventqueue_add`. -/
def countUser : Event := if e.memoryManaged then { e with users := e.users + 1 } else e

/-- An event that is not managed is given away with the call that adds it, -/
def lend : Event := if e.memoryManaged then e else { e with held := e.held - 1 }

/-- and given back if that fails. -/
def giveBack : Event := if e.memoryManaged then e else { e with held := e.held + 1 }

end Event

/-- `n` threads and `m` queues. -/
structure Osal (n m : ℕ) where
  threads : Fin n → Thread m := fun _ => .idle
  queues : Fin m → Eventqueue := fun _ => {}
  events : ℕ → Event := fun _ => {}
  /-- the entries that are allocated -/
  entries : ℕ := 0

namespace Osal

variable {n m : ℕ}

section Update

variable (s : Osal n m)

def setThread (i : Fin n) (t : Thread m) : Osal n m :=
  { s with threads := Function.update s.threads i t }

def setQueue (j : Fin m) (q : Eventqueue) : Osal n m :=
  { s with queues := Function.update s.queues j q }

def setEvent (h : ℕ) (e : Event) : Osal n m :=
  { s with events := Function.update s.events h e }

theorem threads_setThread_self (i : Fin n) (t : Thread m) : (s.setThread i t).threads i = t := by
  show Function.update s.threads i t i = t
  rw [Function.update_self]

theorem threads_setThread_of_ne {i k : Fin n} (t : Thread m) (hk : k ≠ i) :
    (s.setThread i t).threads k = s.threads k := by
  show Function.update s.threads i t k = s.threads k
  rw [Function.update_of_ne hk]

theorem queues_setQueue (j : Fin m) (q : Eventqueue) : (s.setQueue j q).queues j = q := by
  show Function.update s.queues j q j = q
  rw [Function.update_self]

end Update

/-! ## Steps -/

/-- `eventqueue_add` after the increment: an entry is allocated and put into the queue. In the
first place, whether that succeeds; else neither the increment nor the allocation is taken
back. -/
def insert (s : Osal n m) (j : Fin m) (h : ℕ) (allocated acquired : Bool) : Bool × Osal n m :=
  if allocated then
    let s := { s with entries := s.entries + 1 }
    if acquired then
      match (s.queues j).listAddElement h (s.events h).priority with
      | some q => (true, s.setQueue j q)
      | none => (false, s)
    else (false, s)
  else (false, s)

/-- Where a thread is after `eventqueue_add`. -/
def afterAdd (h : ℕ) : Option (List (Fin m)) → Thread m
  | none => .idle
  | some queues => .dispatching h queues

/-- At the semaphore. -/
def atSemaphore (s : Osal n m) (i : Fin n) (c : Call) (j : Fin m) (ok : Bool) :
    Option (Osal n m) :=
  if c.Blocks then
    if ok then
      ((s.queues j).semTake).map fun q => (s.setQueue j q).setThread i (.popping c j true)
    else some (s.setThread i .idle)
  else
    match if ok then (s.queues j).semTake else none with
    | some q => some ((s.setQueue j q).setThread i (.popping c j true))
    | none => some (s.setThread i (.popping c j false))

/-- `list_pop_element`. Without an event `get_next_event` waits again; with one, `clear` goes
on to delete it, and the others return it. In the first place, the entry that was got. -/
def popElement (s : Osal n m) (i : Fin n) (c : Call) (j : Fin m) : Option QueueEntry × Osal n m :=
  match (s.queues j).listPopElement with
  | none => (none, s.setThread i (if c = .getNextEvent then .waiting c j else .idle))
  | some (el, q) =>
    let s := { s with entries := s.entries - 1 }.setQueue j q
    if c = .clear then (some el, s.setThread i (.deleting j el.event))
    else
      let e := s.events el.event
      (some el, (s.setEvent el.event { e with held := e.held + 1 }).setThread i .idle)

/-! ## The books -/

/-- An add that succeeds is written down, -/
def recordAdded (s : Osal n m) (j : Fin m) (h : ℕ) : Osal n m :=
  s.setQueue j ((s.queues j).recordAdded h (s.events h).priority)

/-- and what a call has got of the queue. -/
def recordGot (s : Osal n m) (c : Call) (j : Fin m) : Option QueueEntry → Osal n m
  | none => s
  | some el =>
    s.setQueue j (if c = .clear then (s.queues j).recordCleared el
      else (s.queues j).recordReturned el)

/-- One step of thread `i`; `none` if it is not there, has to wait, or does not hold the event
it calls a function with. -/
def step (s : Osal n m) : Fin n × Action m → Option (Osal n m)
  | (i, a) =>
    match s.threads i, a with
    | .idle, .create h priority =>
      if (s.events h).created then none
      else some (s.setEvent h { created := true, priority := priority, held := 1 })
    | .idle, .delete h =>
      let e := s.events h
      if e.held = 0 then none else some (s.setEvent h { e with held := e.held - 1 }.delete)
    | .idle, .dispatch h queues =>
      if (s.events h).held = 0 then none
      else some ((s.setEvent h (s.events h).beginDispatch).setThread i (.dispatching h queues))
    | .idle, .add j h =>
      if (s.events h).held = 0 then none
      else some ((s.setEvent h (s.events h).countUser.lend).setThread i (.adding j h none))
    | .dispatching h (j :: queues), .next =>
      some ((s.setEvent h (s.events h).countUser).setThread i (.adding j h (some queues)))
    | .dispatching h [], .next =>
      some ((s.setEvent h (s.events h).delete).setThread i .idle)
    | .adding j h dispatch, .insert allocated acquired =>
      match s.insert j h allocated acquired with
      | (true, s) => some ((s.recordAdded j h).setThread i (afterAdd h dispatch))
      | (false, s) =>
        some ((s.setEvent h (s.events h).giveBack).setThread i (afterAdd h dispatch))
    | .idle, .call c j => some (s.setThread i (.waiting c j))
    | .waiting c j, .wait ok => s.atSemaphore i c j ok
    | .popping c j _, .pop =>
      let (got, s) := s.popElement i c j
      some (s.recordGot c j got)
    | .deleting j h, .next =>
      some ((s.setEvent h (s.events h).delete).setThread i (.waiting .clear j))
    | _, _ => none

/-- No events, and all queues empty. -/
def initial (n m : ℕ) : Osal n m := {}

/-! ## What a step can do -/

/-- The steps of thread `i`, one by one. -/
inductive Moves (s : Osal n m) (i : Fin n) : Action m → Osal n m → Prop
  | create {h priority : ℕ} (hi : s.threads i = .idle) (hnew : (s.events h).created = false) :
    Moves s i (.create h priority)
      (s.setEvent h { created := true, priority := priority, held := 1 })
  | delete {h : ℕ} (hi : s.threads i = .idle) (hheld : (s.events h).held ≠ 0) :
    Moves s i (.delete h)
      (s.setEvent h { s.events h with held := (s.events h).held - 1 }.delete)
  | dispatch {h : ℕ} {queues : List (Fin m)} (hi : s.threads i = .idle)
      (hheld : (s.events h).held ≠ 0) :
    Moves s i (.dispatch h queues)
      ((s.setEvent h (s.events h).beginDispatch).setThread i (.dispatching h queues))
  | add {j : Fin m} {h : ℕ} (hi : s.threads i = .idle) (hheld : (s.events h).held ≠ 0) :
    Moves s i (.add j h)
      ((s.setEvent h (s.events h).countUser.lend).setThread i (.adding j h none))
  | nextQueue {h : ℕ} {j : Fin m} {queues : List (Fin m)}
      (hi : s.threads i = .dispatching h (j :: queues)) :
    Moves s i .next
      ((s.setEvent h (s.events h).countUser).setThread i (.adding j h (some queues)))
  | endDispatch {h : ℕ} (hi : s.threads i = .dispatching h []) :
    Moves s i .next ((s.setEvent h (s.events h).delete).setThread i .idle)
  | inserted {j : Fin m} {h : ℕ} {d : Option (List (Fin m))} {q : Eventqueue}
      (hi : s.threads i = .adding j h d)
      (hadd : (s.queues j).listAddElement h (s.events h).priority = some q) :
    Moves s i (.insert true true)
      (({ s with entries := s.entries + 1 }.setQueue j
        (q.recordAdded h (s.events h).priority)).setThread i (afterAdd h d))
  | notInserted {j : Fin m} {h entries : ℕ} {d : Option (List (Fin m))} {allocated acquired : Bool}
      (hi : s.threads i = .adding j h d)
      (hfail : allocated = true → acquired = true →
        (s.queues j).listAddElement h (s.events h).priority = none) :
    Moves s i (.insert allocated acquired)
      (({ s with entries := entries }.setEvent h (s.events h).giveBack).setThread i (afterAdd h d))
  | call {c : Call} {j : Fin m} (hi : s.threads i = .idle) :
    Moves s i (.call c j) (s.setThread i (.waiting c j))
  | take {c : Call} {j : Fin m} {q : Eventqueue} {ok : Bool} (hi : s.threads i = .waiting c j)
      (htake : (s.queues j).semTake = some q) :
    Moves s i (.wait ok) ((s.setQueue j q).setThread i (.popping c j true))
  | giveUp {c : Call} {j : Fin m} {ok : Bool} (hi : s.threads i = .waiting c j) :
    Moves s i (.wait ok) (s.setThread i .idle)
  | goOn {c : Call} {j : Fin m} {ok : Bool} (hi : s.threads i = .waiting c j) :
    Moves s i (.wait ok) (s.setThread i (.popping c j false))
  | popNothing {c : Call} {j : Fin m} {taken : Bool} {t : Thread m}
      (hi : s.threads i = .popping c j taken) (hpop : (s.queues j).listPopElement = none)
      (ht : t = .idle ∨ t = .waiting c j) :
    Moves s i .pop (s.setThread i t)
  | popReturned {c : Call} {j : Fin m} {taken : Bool} {el : QueueEntry} {q : Eventqueue}
      (hi : s.threads i = .popping c j taken)
      (hpop : (s.queues j).listPopElement = some (el, q)) :
    Moves s i .pop
      ((({ s with entries := s.entries - 1 }.setQueue j (q.recordReturned el)).setEvent el.event
        { s.events el.event with held := (s.events el.event).held + 1 }).setThread i .idle)
  | popCleared {c : Call} {j : Fin m} {taken : Bool} {el : QueueEntry} {q : Eventqueue}
      (hi : s.threads i = .popping c j taken)
      (hpop : (s.queues j).listPopElement = some (el, q)) :
    Moves s i .pop
      (({ s with entries := s.entries - 1 }.setQueue j (q.recordCleared el)).setThread i
        (.deleting j el.event))
  | deleted {j : Fin m} {h : ℕ} (hi : s.threads i = .deleting j h) :
    Moves s i .next ((s.setEvent h (s.events h).delete).setThread i (.waiting .clear j))

variable {s s' : Osal n m} {i : Fin n}

/-- What is written down of a queue replaces it. -/
theorem setQueue_setQueue (s : Osal n m) (j : Fin m) (q q' : Eventqueue) :
    (s.setQueue j q).setQueue j q' = s.setQueue j q' := by
  unfold setQueue
  rw [Function.update_idem]

theorem Moves.of_insert {j : Fin m} {h : ℕ} {d : Option (List (Fin m))} {allocated acquired : Bool}
    (hi : s.threads i = .adding j h d)
    (hstep : s.step (i, .insert allocated acquired) = some s') :
    s.Moves i (.insert allocated acquired) s' := by
  simp only [step, hi, insert] at hstep
  rcases allocated with _ | _
  · cases hstep
    exact .notInserted hi fun h => nomatch h
  rcases acquired with _ | _
  · cases hstep
    exact .notInserted hi fun _ h => nomatch h
  rcases hadd : (s.queues j).listAddElement h (s.events h).priority with _ | q
  · simp only [hadd, if_true] at hstep
    cases hstep
    exact .notInserted hi fun _ _ => hadd
  · simp only [hadd, if_true] at hstep
    cases hstep
    rw [recordAdded, setQueue_setQueue, queues_setQueue]
    exact .inserted hi hadd

theorem Moves.of_wait {c : Call} {j : Fin m} {ok : Bool} (hi : s.threads i = .waiting c j)
    (hstep : s.atSemaphore i c j ok = some s') : s.Moves i (.wait ok) s' := by
  unfold atSemaphore at hstep
  split_ifs at hstep with hblocks hok
  · obtain ⟨q, htake, rfl⟩ := Option.map_eq_some_iff.mp hstep
    exact .take hi htake
  · cases hstep
    exact .giveUp hi
  · rcases htake : (s.queues j).semTake with _ | q
    · rw [htake] at hstep
      cases hstep
      exact .goOn hi
    · rw [htake] at hstep
      cases hstep
      exact .take hi htake
  · cases hstep
    exact .goOn hi

theorem Moves.of_pop {c : Call} {j : Fin m} {taken : Bool}
    (hi : s.threads i = .popping c j taken) :
    s.Moves i .pop ((s.popElement i c j).2.recordGot c j (s.popElement i c j).1) := by
  unfold popElement
  rcases hpop : (s.queues j).listPopElement with _ | ⟨el, q⟩
  · refine .popNothing hi hpop ?_
    split_ifs
    · exact Or.inr rfl
    · exact Or.inl rfl
  · dsimp only
    split_ifs with hc
    · have hmove := Moves.popCleared hi hpop
      rw [← setQueue_setQueue _ j q] at hmove
      have hqueue : (({ s with entries := s.entries - 1 }.setQueue j q).setThread i
          (.deleting j el.event)).queues j = q := queues_setQueue _ _ _
      dsimp only [recordGot]
      rw [if_pos hc, hqueue]
      exact hmove
    · have hmove := Moves.popReturned hi hpop
      rw [← setQueue_setQueue _ j q] at hmove
      have hqueue : ((({ s with entries := s.entries - 1 }.setQueue j q).setEvent el.event
          { s.events el.event with held := (s.events el.event).held + 1 }).setThread i
            .idle).queues j = q := queues_setQueue _ _ _
      dsimp only [recordGot]
      rw [if_neg hc]
      exact hqueue.symm ▸ hmove

/-- **Inversion.** -/
theorem step_moves {a : Action m} (hstep : s.step (i, a) = some s') : s.Moves i a s' := by
  rcases hi : s.threads i with _ | ⟨j, h, d⟩ | ⟨h, _ | ⟨j, queues⟩⟩ | ⟨c, j⟩ | ⟨c, j, taken⟩ | ⟨j, h⟩
  case idle =>
    cases a with
    | create h priority =>
      simp only [step, hi] at hstep
      split_ifs at hstep with hnew
      cases hstep
      exact .create hi (Bool.not_eq_true _ ▸ hnew)
    | delete h =>
      simp only [step, hi] at hstep
      split_ifs at hstep with hheld
      cases hstep
      exact .delete hi hheld
    | dispatch h queues =>
      simp only [step, hi] at hstep
      split_ifs at hstep with hheld
      cases hstep
      exact .dispatch hi hheld
    | add j h =>
      simp only [step, hi] at hstep
      split_ifs at hstep with hheld
      cases hstep
      exact .add hi hheld
    | call c j =>
      simp only [step, hi] at hstep
      cases hstep
      exact .call hi
    | insert _ _ | wait _ | pop | next => simp [step, hi] at hstep
  case adding =>
    cases a with
    | insert allocated acquired => exact .of_insert hi hstep
    | create _ _ | delete _ | dispatch _ _ | add _ _ | call _ _ | wait _ | pop | next =>
      simp [step, hi] at hstep
  case dispatching.nil =>
    cases a with
    | next =>
      simp only [step, hi] at hstep
      cases hstep
      exact .endDispatch hi
    | create _ _ | delete _ | dispatch _ _ | add _ _ | call _ _ | wait _ | pop | insert _ _ =>
      simp [step, hi] at hstep
  case dispatching.cons =>
    cases a with
    | next =>
      simp only [step, hi] at hstep
      cases hstep
      exact .nextQueue hi
    | create _ _ | delete _ | dispatch _ _ | add _ _ | call _ _ | wait _ | pop | insert _ _ =>
      simp [step, hi] at hstep
  case waiting =>
    cases a with
    | wait ok =>
      simp only [step, hi] at hstep
      exact .of_wait hi hstep
    | create _ _ | delete _ | dispatch _ _ | add _ _ | call _ _ | insert _ _ | pop | next =>
      simp [step, hi] at hstep
  case popping =>
    cases a with
    | pop =>
      simp only [step, hi] at hstep
      cases hstep
      exact .of_pop hi
    | create _ _ | delete _ | dispatch _ _ | add _ _ | call _ _ | insert _ _ | wait _ | next =>
      simp [step, hi] at hstep
  case deleting =>
    cases a with
    | next =>
      simp only [step, hi] at hstep
      cases hstep
      exact .deleted hi
    | create _ _ | delete _ | dispatch _ _ | add _ _ | call _ _ | insert _ _ | wait _ | pop =>
      simp [step, hi] at hstep

end Osal

end MediaFramework
