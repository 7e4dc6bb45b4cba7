import MediaFramework.Inb.Containers
import MediaFramework.Lib.Run

/-!
# Queues that overflow

`rmf_queue_push_tail` has a flag for a queue that is full: without it the push fails, and with it the
oldest element is given up for the new one. The section filters never set the flag, and what they do
with their queues is in `Containers`. Here both are taken together, on a queue of any size, and an
access behind the end of `elements` has no result.

With the flag the queue is left with an index that does not fit the other one and the count, and so
it is a queue only as long as nothing overflows that way.
-/

namespace MediaFramework

/-! ## The queue -/

/-- What is asked of a queue. -/
inductive QueueOp (α : Type)
  /-- `rmf_queue_push_tail`, with `OverFlowEraseFlag` -/
  | push (node : α) (overFlowEraseFlag : Bool)
  /-- `rmf_queue_pop_head` -/
  | pop

/-- What is answered. -/
inductive QueueReply (α : Type)
  | pushed (ret : ℤ)
  | popped (element : Option α)

namespace QueueOverflow

variable {α : Type}

/-- `rmf_queue_push_tail`. The tail of the source is the head of the ring, where the next element
goes to. -/
def pushTail (q : Ring α) (node : α) (overFlowEraseFlag : Bool) : Option (ℤ × Ring α) :=
  if q.count = q.capacity then
    if overFlowEraseFlag then
      -- the new element takes the place of the first one, and neither index wraps around
      if q.tail < q.capacity then
        some (0, { q with head := q.tail, tail := q.tail + 1, data := store q.data q.tail [node] })
      else none
    else some (-1, q)
  else if q.head < q.capacity then
    some (0, { q with
      data := store q.data q.head [node]
      head := if q.head + 1 = q.capacity then 0 else q.head + 1
      count := q.count + 1 })
  else none

/-- `rmf_queue_pop_head` -/
def popHead (q : Ring α) : Option (Option α × Ring α) :=
  if 0 < q.count then
    if q.tail < q.capacity then
      some (some (q.data q.tail), { q with
        tail := if q.tail + 1 = q.capacity then 0 else q.tail + 1
        count := q.count - 1 })
    else none
  else some (none, q)

/-- One call. -/
def call (q : Ring α) : QueueOp α → Option (QueueReply α × Ring α)
  | .push node flag => (pushTail q node flag).map fun r => (.pushed r.1, r.2)
  | .pop => (popHead q).map fun r => (.popped r.1, r.2)

/-- The queue after a call. -/
def step (q : Ring α) (op : QueueOp α) : Option (Ring α) := (call q op).map Prod.snd

/-- `rmf_queue_new`, in memory that holds anything. -/
def new (memory : ℕ → α) (capacity : ℕ) : Ring α :=
  { data := memory, capacity := capacity, head := 0, tail := 0, count := 0 }

/-! ## What a queue is -/

/-- A queue with room for so many elements. -/
def fifo (capacity : ℕ) (elements : List α) : QueueOp α → QueueReply α × List α
  | .push node flag =>
    if elements.length = capacity then
      if flag then (.pushed 0, elements.tail ++ [node]) else (.pushed (-1), elements)
    else (.pushed 0, elements ++ [node])
  | .pop => (.popped elements.head?, elements.tail)

/-- The call is answered as a queue answers it, and leaves what a queue holds then. -/
def Behaves (q : Ring α) (op : QueueOp α) : Prop :=
  ∃ reply q', call q op = some (reply, q') ∧ fifo q.capacity q.contents op = (reply, q'.contents)

/-- Nothing is given up: there is room, or the flag is not set. -/
def Room (q : Ring α) : QueueOp α → Prop
  | .push _ true => q.count ≠ q.capacity
  | _ => True

/-! ## One call -/

variable {q : Ring α} {node : α}

/-- The next index, as the source steps it. -/
theorem next_eq_advance {capacity pos : ℕ} (h : pos < capacity) :
    (if pos + 1 = capacity then 0 else pos + 1) = Ring.advance capacity pos 1 :=
  if_congr ⟨Nat.le_of_eq ∘ Eq.symm, fun hge => Nat.le_antisymm h hge⟩ rfl rfl

theorem length_contents (q : Ring α) : q.contents.length = q.count := length_window

theorem pushTail_of_room (h : q.Valid) (hroom : q.count ≠ q.capacity) (flag : Bool) :
    pushTail q node flag = some (0, q.push [node]) := by
  rw [pushTail, if_neg hroom, if_pos h.head_lt, next_eq_advance h.head_lt]
  rfl

theorem pushTail_of_full (hfull : q.count = q.capacity) :
    pushTail q node false = some (-1, q) := by
  rw [pushTail, if_pos hfull, if_neg Bool.false_ne_true]

theorem popHead_of_pos (h : q.Valid) (hpos : 0 < q.count) :
    popHead q = some (some (q.data q.tail), q.drop 1) := by
  rw [popHead, if_pos hpos, if_pos h.tail_lt, next_eq_advance h.tail_lt]
  rfl

theorem popHead_of_empty (h : q.count = 0) : popHead q = some (none, q) := by
  rw [popHead, if_neg (by omega)]

/-- **With the flag the indices come apart.** The one behind the last element is where the first
one was, and the first one is now the next. -/
theorem not_valid_of_erased (h : q.Valid) (hfull : q.count = q.capacity) {r : ℤ} {q' : Ring α}
    (hpush : pushTail q node true = some (r, q')) : ¬ q'.Valid := by
  rw [pushTail, if_pos hfull, if_pos rfl, if_pos h.tail_lt] at hpush
  obtain ⟨-, rfl⟩ := Prod.mk.inj (Option.some.inj hpush)
  intro h'
  have htail : q.tail + 1 < q.capacity := h'.tail_lt
  have hhead : (q.tail + 1 + q.count) % q.capacity = q.tail := h'.head_eq
  rw [hfull, Nat.add_mod_right, Nat.mod_eq_of_lt htail] at hhead
  omega

/-- A call on a queue that is in order. -/
theorem behaves_and_valid (h : q.Valid) {op : QueueOp α} (hroom : Room q op) :
    Behaves q op ∧ ∃ q', step q op = some q' ∧ q'.Valid := by
  have hlen := length_contents q
  cases op with
  | push node flag =>
    by_cases hfull : q.count = q.capacity
    · cases flag with
      | true => exact absurd hfull hroom
      | false =>
        have hcall : call q (.push node false) = some (.pushed (-1), q) := by
          rw [call, pushTail_of_full hfull]
          rfl
        refine ⟨⟨_, q, hcall, ?_⟩, q, by rw [step, hcall]; rfl, h⟩
        rw [fifo, hlen, if_pos hfull, if_neg Bool.false_ne_true]
    · have hcall : call q (.push node flag) = some (.pushed 0, q.push [node]) := by
        rw [call, pushTail_of_room h hfull]
        rfl
      have hone : q.count + [node].length ≤ q.capacity := Nat.lt_of_le_of_ne h.count_le hfull
      obtain ⟨hvalid, hcontents⟩ := h.push hone h.head_lt
      refine ⟨⟨_, _, hcall, ?_⟩, _, by rw [step, hcall]; rfl, hvalid⟩
      rw [fifo, hlen, if_neg hfull, hcontents]
  | pop =>
    rcases Nat.eq_zero_or_pos q.count with hzero | hpos
    · have hcall : call q .pop = some (.popped none, q) := by
        rw [call, popHead_of_empty hzero]
        rfl
      have hnil : q.contents = [] := List.length_eq_zero_iff.mp (hlen.trans hzero)
      refine ⟨⟨_, q, hcall, ?_⟩, q, by rw [step, hcall]; rfl, h⟩
      rw [fifo, hnil]
      rfl
    · have hcall : call q .pop = some (.popped (some (q.data q.tail)), q.drop 1) := by
        rw [call, popHead_of_pos h hpos]
        rfl
      obtain ⟨hvalid, hcontents⟩ := h.drop hpos h.tail_lt
      refine ⟨⟨_, _, hcall, ?_⟩, _, by rw [step, hcall]; rfl, hvalid⟩
      rw [fifo, hcontents]
      rfl

/-! ## Runs -/

/-- **A queue as long as nothing is given up.** Through a whole run of pushes and pops, the indices
and the count are in order and every call is answered as by a queue, exactly if the flag is never
set when the queue is full. -/
theorem queue_is_fifo (memory : ℕ → α) (n : ℕ) (ops : List (QueueOp α)) :
    (Throughout step Ring.Valid (new memory (n + 1)) ops ∧
        EachStep step Behaves (new memory (n + 1)) ops) ↔
      EachStep step Room (new memory (n + 1)) ops := by
  refine Throughout.and_eachStep_iff (fun q op h => ⟨?_, behaves_and_valid h⟩) ?_
  · rintro ⟨-, q', hstep, hvalid⟩
    cases op with
    | pop => trivial
    | push node flag =>
      cases flag with
      | false => trivial
      | true =>
        intro hfull
        obtain ⟨⟨reply, p⟩, hcall, rfl⟩ := Option.map_eq_some_iff.mp hstep
        obtain ⟨⟨r, q''⟩, hpush, heq⟩ := Option.map_eq_some_iff.mp hcall
        obtain ⟨-, rfl⟩ := Prod.mk.inj heq
        exact not_valid_of_erased h hfull hpush hvalid
  · exact ⟨Nat.succ_pos n, Nat.succ_pos n, Nat.zero_le _, Nat.zero_mod _⟩

/-- So many numbers are pushed, and one more with the flag. -/
def overflowing : List (QueueOp ℕ) :=
  (List.range maxQueueSize).map (fun node => .push node false) ++ [.push maxQueueSize true]

/-- The push into the full queue leaves the head at 1 and the tail at 0. -/
theorem overflowing_not_fifo :
    ¬ (Throughout step Ring.Valid (new (fun _ => 0) maxQueueSize) overflowing ∧
        EachStep step Behaves (new (fun _ => 0) maxQueueSize) overflowing) := by
  rintro ⟨h, -⟩
  obtain ⟨q, hrun, hvalid⟩ := h overflowing [] (List.append_nil _).symm
  have hindices : (runFrom step (new (fun _ => 0) maxQueueSize) overflowing).map
      (fun q => (q.tail, q.head, q.count, q.capacity)) = some (1, 0, 32, 32) := by decide
  rw [hrun] at hindices
  obtain ⟨htail, hhead, hcount, hcapacity⟩ : q.tail = 1 ∧ q.head = 0 ∧ q.count = 32 ∧
      q.capacity = 32 := by simpa using hindices
  have hdistance := hvalid.head_eq
  rw [htail, hhead, hcount, hcapacity] at hdistance
  exact absurd hdistance (by decide)

end QueueOverflow

end MediaFramework
