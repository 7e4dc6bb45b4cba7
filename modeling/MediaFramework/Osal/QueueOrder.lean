import MediaFramework.Lib.Run
import MediaFramework.Osal.EventSystem

/-!
# A queue between threads

The list of a queue changes only under its mutex, but consumers take the semaphore outside of
it, and two of the functions go on to the list without it. What keeps a consumer from sleeping
before a queue that is not empty is a balance: the semaphore and the consumers who have taken
it but have not popped yet are together at least as many as the events in the list.
-/

namespace MediaFramework

/-- The thread has taken the semaphore of queue `j` and has not popped yet. -/
def Thread.takes {m : ℕ} (j : Fin m) : Thread m → ℕ
  | .popping _ k true => if k = j then 1 else 0
  | _ => 0

namespace Osal

variable {n m : ℕ} {s s' : Osal n m} {i : Fin n} {j : Fin m}

/-- The consumers who have taken the semaphore of queue `j` and have not popped yet. -/
def takers (s : Osal n m) (j : Fin m) : ℕ := total (Thread.takes j) s.threads

/-! ## What a step does to one queue -/

theorem takers_setThread (s : Osal n m) (i : Fin n) (t : Thread m) (j : Fin m) :
    (s.setThread i t).takers j + (s.threads i).takes j = s.takers j + t.takes j :=
  total_update _ _ _ _

/-- A queue stays as it is, gets an entry, loses one of its permits to a consumer, or loses an
entry. -/
inductive QueueMoves (q : Eventqueue) (takers : ℕ) : Eventqueue → ℕ → Prop
  | stays : QueueMoves q takers q takers
  | gets {h priority : ℕ} {q' : Eventqueue} (hadd : q.listAddElement h priority = some q') :
    QueueMoves q takers (q'.recordAdded h priority) takers
  | permits {q' : Eventqueue} (htake : q.semTake = some q') : QueueMoves q takers q' (takers + 1)
  | hasNothing {takers' : ℕ} (hpop : q.listPopElement = none) : QueueMoves q takers q takers'
  | returns {el : QueueEntry} {q' : Eventqueue} {takers' : ℕ}
      (hpop : q.listPopElement = some (el, q')) (htakers : takers ≤ takers' + 1) :
    QueueMoves q takers (q'.recordReturned el) takers'
  | clears {el : QueueEntry} {q' : Eventqueue} {takers' : ℕ}
      (hpop : q.listPopElement = some (el, q')) (htakers : takers ≤ takers' + 1) :
    QueueMoves q takers (q'.recordCleared el) takers'

/-- A thread that neither takes the semaphore nor has it leaves the queues alone. -/
theorem QueueMoves.thread {u : Osal n m} {t : Thread m} (hqueues : u.queues = s.queues)
    (hthreads : u.threads = s.threads) (hold : (s.threads i).takes j = 0) (hnew : t.takes j = 0) :
    QueueMoves (s.queues j) (s.takers j) ((u.setThread i t).queues j)
      ((u.setThread i t).takers j) := by
  have hcount := takers_setThread u i t j
  have hstays : (u.setThread i t).takers j = s.takers j := by
    unfold takers at hcount ⊢
    rw [hthreads, hold, hnew] at hcount
    exact hcount
  rw [hstays]
  show QueueMoves _ _ (u.queues j) _
  rw [hqueues]
  exact .stays

/-- A queue does not see what happens to another. -/
theorem QueueMoves.other {u : Osal n m} {k : Fin m} {q : Eventqueue} {t : Thread m} (hk : k ≠ j)
    (hqueues : u.queues = Function.update s.queues k q) (hthreads : u.threads = s.threads)
    (hold : (s.threads i).takes j = 0) (hnew : t.takes j = 0) :
    QueueMoves (s.queues j) (s.takers j) ((u.setThread i t).queues j)
      ((u.setThread i t).takers j) := by
  have hsame : (u.setThread i t).queues j = s.queues j := by
    show u.queues j = s.queues j
    rw [hqueues, Function.update_of_ne hk.symm]
  rw [hsame]
  exact QueueMoves.thread (u := { u with queues := s.queues }) rfl hthreads hold hnew

end Osal

end MediaFramework
