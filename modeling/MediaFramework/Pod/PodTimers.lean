import MediaFramework.Lib.Family
import MediaFramework.Lib.Run
import MediaFramework.Lib.Slots

/-!
# The timers of the card's protocol stack

`podSetTimer` allocates an event, starts a task for it, and only then puts the event in the list
of timers. The task sleeps, and in the end posts the event, takes it off the list and frees it.
`podCancelTimer` and `podResetTimer` look for the event in the list outside of the mutex, and
write to it later.

The first `podSetTimer` makes the mutex. It looks whether it was made, makes it and notes that, with
nothing around the three, so two first calls may each make one. A section of the mutex is one step
here, which it is as long as there is one mutex; the condition on a step is that no second one is
made, and nothing is said of a run in which one is.

So what is promised of the timers holds as long as the task of an event ends only after its
event is in the list, no event is freed between the search for it and the write to it, and none
is cancelled between the look at its flag and the end of its time.
-/

namespace MediaFramework

open Function (update update_of_ne update_self)

/-- `VL_POD_MAX_TIMERS`. -/
abbrev podMaxTimers : ℕ := 20

/-! ## Timers -/

/-- `LCSM_EVENT_INFO`, as `podSetTimer` fills it in: `dataPtr`, `dataLength` and `y` are zero. -/
structure LcsmEventInfo where
  event : BitVec 32
  x : BitVec 64
  deriving DecidableEq

/-- What a timer is set for. -/
structure TimerEvent where
  /-- ghost: the how-manieth timer it is -/
  serial : ℕ
  queue : BitVec 32
  event : LcsmEventInfo
  deriving DecidableEq

/-- Where the task of a timer is. -/
inductive TimerTask
  /-- in `rmf_osal_threadSleep` -/
  | sleeping
  /-- about to look at `TimeElapsed` outside of the mutex -/
  | expiring
  /-- in `vlPodTimerListClear`, about to look at the slot -/
  | clearing (slot : ℕ)
  /-- in `vlPodTimerListClear`, about to clear the slot -/
  | clears (slot : Fin podMaxTimers)
  /-- about to free the event -/
  | freeing
  deriving DecidableEq

/-- The task has not come to the end of its loop. -/
def TimerTask.Waits : TimerTask → Prop
  | .sleeping | .expiring => True
  | _ => False

/-- `vlPodTimedEvents_t`, and its task. -/
structure PodTimer where
  /-- `Event`, `Queue` -/
  set : TimerEvent
  eventTime : BitVec 64
  timeElapsed : BitVec 32
  eventCanceled : Bool := false
  task : TimerTask := .sleeping

/-- A pointer to a timer. -/
structure TimerRef where
  address : ℕ
  /-- ghost: the timer that was there -/
  serial : ℕ
  deriving DecidableEq

/-- What `podSetTimer` is called with. -/
structure TimerRequest where
  queue : BitVec 32
  event : BitVec 32
  periodMs : BitVec 64

/-- Where a call is. -/
inductive TimerCall
  | none
  /-- `podSetTimer`, about to clear the list, as there were no timers -/
  | setClears (request : TimerRequest)
  /-- `podSetTimer`, about to look at `vlg_MutexCreated` -/
  | setLooks (request : TimerRequest)
  /-- `podSetTimer`, about to make the mutex -/
  | setMakes (request : TimerRequest)
  /-- `podSetTimer`, about to set `vlg_MutexCreated` -/
  | setMarks (request : TimerRequest)
  /-- `podSetTimer`, about to look whether there are too many timers -/
  | setChecks (request : TimerRequest)
  /-- `podSetTimer`, about to allocate the event and start the task -/
  | setCreates (request : TimerRequest)
  /-- `podSetTimer`, about to put the event in the list -/
  | setInserts (timer : TimerRef)
  /-- `podCancelTimer`, about to look at the slot -/
  | cancelScans (hTimer : ℕ) (slot : ℕ)
  /-- `podCancelTimer`, about to set the flag of what it found -/
  | cancels (timer : TimerRef)
  /-- `podResetTimer`, about to look at the slot -/
  | resetScans (hTimer : ℕ) (addedMs : BitVec 64) (slot : ℕ)
  /-- `podResetTimer`, about to set `TimeElapsed` of what it found -/
  | resets (timer : TimerRef) (addedMs : BitVec 64)
  /-- `podResetTimer`, about to set `EventTime` outside of the mutex -/
  | resetsTime (timer : TimerRef) (addedMs : BitVec 64)

/-- The list of timers, the events that are allocated, and the calls under way. -/
structure PodTimers where
  /-- `stMaxTimers.pTimer` -/
  pTimer : Fin podMaxTimers → Option TimerRef := fun _ => none
  /-- `vlg_NumOfPodTimersCreated` -/
  numOfPodTimersCreated : ℤ := 0
  /-- `vlg_MutexCreated` -/
  mutexCreated : Bool := false
  /-- ghost: how many mutexes were made; `vlg_PodTimerMutex` is the last -/
  mutexes : ℕ := 0
  /-- the events, by their address -/
  heap : ℕ → Option PodTimer := fun _ => none
  /-- the calls, by their thread -/
  calls : ℕ → TimerCall := fun _ => .none
  /-- what was posted -/
  posted : List TimerEvent := []
  /-- ghost: how many timers were created -/
  created : ℕ := 0
  /-- ghost: the timers that have ended -/
  ended : List TimerEvent := []
  /-- ghost: the timers `podCancelTimer` returned `LCSM_TIMER_OP_OK` for -/
  canceled : List ℕ := []
  /-- ghost: a call has touched an event that was freed -/
  touchedFreed : Bool := false

namespace PodTimers

variable (s : PodTimers)

/-! ## The steps -/

/-- The call goes on. -/
def goto (thread : ℕ) (call : TimerCall) : PodTimers :=
  { s with calls := update s.calls thread call }

/-- The timer at the address is written. -/
def setAt (address : ℕ) (t : PodTimer) : PodTimers :=
  { s with heap := update s.heap address (some t) }

/-- A call writes to an event, or to what was one. -/
def write (address : ℕ) (f : PodTimer → PodTimer) : PodTimers :=
  match s.heap address with
  | some t => s.setAt address (f t)
  | none => { s with touchedFreed := true }

/-- What is found in a slot, if it is the timer at the address. -/
def found (address slot : ℕ) : Option TimerRef :=
  if h : slot < podMaxTimers then
    (s.pTimer ⟨slot, h⟩).filter fun timer => timer.address = address
  else none

/-- `podSetTimer` allocates the event and starts the task. -/
def create (request : TimerRequest) (address : ℕ) : PodTimers :=
  { s.setAt address
      { set := { serial := s.created, queue := request.queue
                 event := { event := request.event, x := request.periodMs } }
        eventTime := request.periodMs
        timeElapsed := request.periodMs.setWidth 32 } with
    created := s.created + 1 }

/-- `podSetTimer` puts the event in the list. -/
def insert (timer : TimerRef) : PodTimers :=
  { s with
    pTimer :=
      match firstSlot fun i => s.pTimer i == none with
      | some i => update s.pTimer i (some timer)
      | none => s.pTimer
    numOfPodTimersCreated := s.numOfPodTimersCreated + 1 }

/-- `podCancelTimer` sets the flag and returns. -/
def cancel (timer : TimerRef) : PodTimers :=
  { s.write timer.address fun t => { t with eventCanceled := true } with
    canceled := s.canceled ++ [timer.serial] }

/-- The next step of a call. -/
def callStep (thread : ℕ) : Option PodTimers :=
  match s.calls thread with
  | .none => none
  | .setClears request =>
    some ({ s with pTimer := fun _ => none }.goto thread (.setLooks request))
  | .setLooks request =>
    some (s.goto thread (if s.mutexCreated then .setChecks request else .setMakes request))
  | .setMakes _ => none
  | .setMarks request =>
    some ({ s with mutexCreated := true }.goto thread (.setChecks request))
  | .setChecks request =>
    some (s.goto thread
      (if podMaxTimers ≤ s.numOfPodTimersCreated then .none else .setCreates request))
  | .setCreates _ => none
  | .setInserts timer => some ((s.insert timer).goto thread .none)
  | .cancelScans hTimer slot =>
    some (s.goto thread <|
      match s.found hTimer slot with
      | some timer => .cancels timer
      | none => if slot < podMaxTimers then .cancelScans hTimer (slot + 1) else .none)
  | .cancels timer => some ((s.cancel timer).goto thread .none)
  | .resetScans hTimer addedMs slot =>
    some (s.goto thread <|
      match s.found hTimer slot with
      | some timer => .resets timer addedMs
      | none => if slot < podMaxTimers then .resetScans hTimer addedMs (slot + 1) else .none)
  | .resets timer addedMs =>
    some ((s.write timer.address fun t => { t with timeElapsed := addedMs.setWidth 32 }).goto
      thread (.resetsTime timer addedMs))
  | .resetsTime timer addedMs =>
    some ((s.write timer.address fun t => { t with eventTime := addedMs }).goto thread .none)

/-- The next step of `vlPodTimedEventTask`. -/
def taskStep (address : ℕ) : Option PodTimers :=
  match s.heap address with
  | none => none
  | some t =>
    match t.task with
    | .sleeping =>
      some (s.setAt address
        (if t.eventCanceled then { t with task := .clearing 0 }
          else { t with timeElapsed := t.timeElapsed - 10, task := .expiring }))
    | .expiring =>
      if t.timeElapsed.toInt ≤ 0 then
        some ({ s with posted := s.posted ++ [t.set] }.setAt address
          { t with task := .clearing 0 })
      else some (s.setAt address { t with task := .sleeping })
    | .clearing slot =>
      some (s.setAt address { t with
        task :=
          if h : slot < podMaxTimers then
            match s.found address slot with
            | some _ => .clears ⟨slot, h⟩
            | none => .clearing (slot + 1)
          else .freeing })
    | .clears slot =>
      some ({ s with
        pTimer := update s.pTimer slot none
        numOfPodTimersCreated := s.numOfPodTimersCreated - 1 }.setAt address
          { t with task := .freeing })
    | .freeing =>
      some { s with heap := update s.heap address none, ended := s.ended ++ [t.set] }

/-- A step of one of the threads. -/
inductive Act
  | setTimer (thread : ℕ) (request : TimerRequest)
  | cancelTimer (thread : ℕ) (hTimer : ℕ)
  | resetTimer (thread : ℕ) (hTimer : ℕ) (addedMs : BitVec 64)
  /-- `podSetTimer` makes the mutex, or `rmf_osal_mutexNew` fails -/
  | newMutex (thread : ℕ) (made : Bool)
  /-- `podSetTimer` creates its timer at the address, or there is no memory or no thread -/
  | create (thread : ℕ) (address : Option ℕ)
  | call (thread : ℕ)
  | task (address : ℕ)

/-- The state after a step. A thread is in one call at a time, and what is allocated is not zero
and was free. -/
def step (s : PodTimers) : Act → Option PodTimers
  | .setTimer thread request =>
    match s.calls thread with
    | .none => some (s.goto thread
        (if s.numOfPodTimersCreated = 0 then .setClears request else .setLooks request))
    | _ => none
  | .cancelTimer thread hTimer =>
    match s.calls thread with
    | .none => some (s.goto thread (if hTimer = 0 then .none else .cancelScans hTimer 0))
    | _ => none
  | .resetTimer thread hTimer addedMs =>
    match s.calls thread with
    | .none => some (s.goto thread (if hTimer = 0 then .none else .resetScans hTimer addedMs 0))
    | _ => none
  | .newMutex thread made =>
    match s.calls thread with
    | .setMakes request =>
      some (if made then { s with mutexes := s.mutexes + 1 }.goto thread (.setMarks request)
        else s.goto thread .none)
    | _ => none
  | .create thread address =>
    match s.calls thread, address with
    | .setCreates request, some address =>
      if address ≠ 0 ∧ s.heap address = none then
        some ((s.create request address).goto thread (.setInserts ⟨address, s.created⟩))
      else none
    | .setCreates _, none => some (s.goto thread .none)
    | _, _ => none
  | .call thread => s.callStep thread
  | .task address => s.taskStep address

/-! ## What should hold -/

/-- What was posted for a timer. -/
def postedFor (serial : ℕ) : List TimerEvent := s.posted.filter fun e => e.serial = serial

/-- How many slots a slot of the list counts for. -/
def slotWeight (slot : Option TimerRef) : ℕ := if slot = none then 0 else 1

@[simp] theorem slotWeight_none : slotWeight none = 0 := rfl

@[simp] theorem slotWeight_some (timer : TimerRef) : slotWeight (some timer) = 1 := rfl

/-- **What is promised of the timers.** Each slot in use refers to a timer whose task has not
freed its event, the slots in use are counted, no call has touched an event that was freed, and
every timer that has ended has posted its event once or, if it was cancelled, never. -/
structure Sound : Prop where
  alive : ∀ i, ∀ timer ∈ s.pTimer i, ∃ t ∈ s.heap timer.address, t.set.serial = timer.serial
  counted : s.numOfPodTimersCreated = total slotWeight s.pTimer
  count_nonneg : 0 ≤ s.numOfPodTimersCreated
  count_le : s.numOfPodTimersCreated ≤ podMaxTimers
  untouched : s.touchedFreed = false
  ends : ∀ e ∈ s.ended, s.postedFor e.serial = if e.serial ∈ s.canceled then [] else [e]

/-- The condition on the next step of a call. A list that is cleared is empty; a timer that is
put in the list is still there, and there is a slot for it; an event that is written to is still
there, and one that is cancelled was not posted. -/
def CallOrderly : TimerCall → Prop
  | .setClears _ => ∀ i, s.pTimer i = none
  | .setInserts timer =>
    (∃ t ∈ s.heap timer.address, t.set.serial = timer.serial) ∧ ∃ i, s.pTimer i = none
  | .cancels timer =>
    (∃ t ∈ s.heap timer.address, t.set.serial = timer.serial) ∧ s.postedFor timer.serial = []
  | .resets timer _ | .resetsTime timer _ => (s.heap timer.address).isSome
  | _ => True

instance : ∀ call, Decidable (s.CallOrderly call)
  | .setClears _ => inferInstanceAs (Decidable (∀ i, s.pTimer i = none))
  | .setInserts _ => inferInstanceAs (Decidable ((∃ t ∈ _, _ = _) ∧ ∃ i, s.pTimer i = none))
  | .cancels _ => inferInstanceAs (Decidable ((∃ t ∈ _, _ = _) ∧ _ = _))
  | .resets timer _ => inferInstanceAs (Decidable ((s.heap timer.address).isSome = true))
  | .resetsTime timer _ => inferInstanceAs (Decidable ((s.heap timer.address).isSome = true))
  | .none => isTrue trivial
  | .setLooks _ => isTrue trivial
  | .setMakes _ => isTrue trivial
  | .setMarks _ => isTrue trivial
  | .setChecks _ => isTrue trivial
  | .setCreates _ => isTrue trivial
  | .cancelScans _ _ => isTrue trivial
  | .resetScans _ _ _ => isTrue trivial

/-- The condition on the next step of a task. One that finds its time elapsed was not cancelled,
and one that frees its event has taken it off the list. -/
def TaskOrderly (address : ℕ) (t : PodTimer) : Prop :=
  (t.task = .expiring → t.timeElapsed.toInt ≤ 0 → t.eventCanceled = false) ∧
    (t.task = .freeing → ∀ i, ∀ timer ∈ s.pTimer i, timer.address ≠ address)

instance (address : ℕ) (t : PodTimer) : Decidable (s.TaskOrderly address t) :=
  inferInstanceAs (Decidable (_ ∧ _))

/-- **The condition on a step.** No mutex is made where there is one. -/
def Orderly : Act → Prop
  | .newMutex _ made => made = true → s.mutexes = 0
  | .call thread => s.CallOrderly (s.calls thread)
  | .task address => ∀ t ∈ s.heap address, s.TaskOrderly address t
  | _ => True

instance : ∀ a, Decidable (s.Orderly a)
  | .newMutex _ made => inferInstanceAs (Decidable (made = true → s.mutexes = 0))
  | .call thread => inferInstanceAs (Decidable (s.CallOrderly (s.calls thread)))
  | .task address => inferInstanceAs (Decidable (∀ t ∈ s.heap address, s.TaskOrderly address t))
  | .setTimer _ _ => isTrue trivial
  | .cancelTimer _ _ => isTrue trivial
  | .resetTimer _ _ _ => isTrue trivial
  | .create _ _ => isTrue trivial

/-! ## What is behind it -/

/-- What a timer that is there has done so far. -/
structure Phase (address : ℕ) (t : PodTimer) : Prop where
  serial_lt : t.set.serial < s.created
  canceled : t.eventCanceled = true ↔ t.set.serial ∈ s.canceled
  waits : t.task.Waits → s.postedFor t.set.serial = []
  done : ¬ t.task.Waits →
    s.postedFor t.set.serial = if t.set.serial ∈ s.canceled then [] else [t.set]
  clears : ∀ i, t.task = .clears i → ∃ timer ∈ s.pTimer i, timer.address = address

/-- **The invariant.** What is promised, what the timers that are there have done, and that no
two timers have the same serial. -/
structure Inv : Prop where
  sound : s.Sound
  phase : ∀ address, ∀ t ∈ s.heap address, s.Phase address t
  inj : ∀ address other, ∀ t ∈ s.heap address, ∀ u ∈ s.heap other,
    t.set.serial = u.set.serial → address = other
  posted_lt : ∀ e ∈ s.posted, e.serial < s.created
  canceled_lt : ∀ serial ∈ s.canceled, serial < s.created
  ended_lt : ∀ e ∈ s.ended, e.serial < s.created
  ended_gone : ∀ e ∈ s.ended, ∀ address, ∀ t ∈ s.heap address, t.set.serial ≠ e.serial

section Steps

variable {s : PodTimers} {address : ℕ} {t u : PodTimer}

/-- Where the calls are does not matter. -/
theorem Inv.goto (h : s.Inv) (thread : ℕ) (call : TimerCall) : (s.goto thread call).Inv where
  sound := ⟨h.sound.alive, h.sound.counted, h.sound.count_nonneg, h.sound.count_le,
    h.sound.untouched, h.sound.ends⟩
  phase address t ht :=
    let hphase := h.phase address t ht
    ⟨hphase.serial_lt, hphase.canceled, hphase.waits, hphase.done, hphase.clears⟩
  inj := h.inj
  posted_lt := h.posted_lt
  canceled_lt := h.canceled_lt
  ended_lt := h.ended_lt
  ended_gone := h.ended_gone

/-- Nor do the mutexes. -/
theorem Inv.mutex (h : s.Inv) (mutexCreated : Bool) (mutexes : ℕ) :
    Inv { s with mutexCreated := mutexCreated, mutexes := mutexes } where
  sound := ⟨h.sound.alive, h.sound.counted, h.sound.count_nonneg, h.sound.count_le,
    h.sound.untouched, h.sound.ends⟩
  phase address t ht :=
    let hphase := h.phase address t ht
    ⟨hphase.serial_lt, hphase.canceled, hphase.waits, hphase.done, hphase.clears⟩
  inj := h.inj
  posted_lt := h.posted_lt
  canceled_lt := h.canceled_lt
  ended_lt := h.ended_lt
  ended_gone := h.ended_gone

theorem heap_setAt_self (s : PodTimers) (address : ℕ) (t : PodTimer) :
    (s.setAt address t).heap address = some t := update_self ..

theorem heap_setAt_of_ne {other : ℕ} (hne : other ≠ address) :
    (s.setAt address t).heap other = s.heap other := update_of_ne hne ..

/-- Each timer is as before, or it is the one that was written. -/
theorem mem_setAt {other : ℕ} (h : u ∈ (s.setAt address t).heap other) :
    (other = address ∧ u = t) ∨ (other ≠ address ∧ u ∈ s.heap other) := by
  by_cases hne : other = address
  · subst hne
    rw [heap_setAt_self] at h
    exact .inl ⟨rfl, (Option.some.inj h).symm⟩
  · rw [heap_setAt_of_ne hne] at h
    exact .inr ⟨hne, h⟩

/-- No two timers have the same serial then. -/
theorem Inv.inj_setAt (h : s.Inv) (ht : t ∈ s.heap address) (hset : u.set = t.set) :
    ∀ p q, ∀ v ∈ (s.setAt address u).heap p, ∀ w ∈ (s.setAt address u).heap q,
      v.set.serial = w.set.serial → p = q := by
  intro p q v hv w hw hserial
  rcases mem_setAt hv with ⟨rfl, rfl⟩ | ⟨-, hv'⟩
  · rcases mem_setAt hw with ⟨rfl, -⟩ | ⟨-, hw'⟩
    · rfl
    · exact h.inj _ _ t ht w hw' (hset ▸ hserial)
  · rcases mem_setAt hw with ⟨rfl, rfl⟩ | ⟨-, hw'⟩
    · exact h.inj _ _ v hv' t ht (hset ▸ hserial)
    · exact h.inj _ _ v hv' w hw' hserial

/-- The timers in the list are still there then. -/
theorem Inv.alive_setAt (h : s.Inv) (ht : t ∈ s.heap address) (hset : u.set = t.set) :
    ∀ i, ∀ timer ∈ s.pTimer i,
      ∃ v ∈ (s.setAt address u).heap timer.address, v.set.serial = timer.serial := by
  intro i timer htimer
  obtain ⟨v, hv, hserial⟩ := h.sound.alive i timer htimer
  by_cases hne : timer.address = address
  · rw [hne] at hv ⊢
    obtain rfl := Option.mem_unique ht hv
    exact ⟨u, heap_setAt_self s address u, hset ▸ hserial⟩
  · exact ⟨v, (heap_setAt_of_ne hne).trans hv, hserial⟩

/-- And none of them has ended. -/
theorem Inv.ended_gone_setAt (h : s.Inv) (ht : t ∈ s.heap address) (hset : u.set = t.set) :
    ∀ e ∈ s.ended, ∀ other, ∀ v ∈ (s.setAt address u).heap other, v.set.serial ≠ e.serial := by
  intro e he other v hv
  rcases mem_setAt hv with ⟨rfl, rfl⟩ | ⟨-, hv⟩
  · rw [hset]
    exact h.ended_gone e he _ t ht
  · exact h.ended_gone e he other v hv

/-- **A timer is written** that stays what it is set for. -/
theorem Inv.setAt (h : s.Inv) (ht : t ∈ s.heap address) (hset : u.set = t.set)
    (hphase : s.Phase address u) : (s.setAt address u).Inv where
  sound := ⟨h.alive_setAt ht hset, h.sound.counted, h.sound.count_nonneg, h.sound.count_le,
    h.sound.untouched, h.sound.ends⟩
  phase other v hv := by
    rcases mem_setAt hv with ⟨rfl, rfl⟩ | ⟨-, hv⟩
    · exact ⟨hphase.serial_lt, hphase.canceled, hphase.waits, hphase.done, hphase.clears⟩
    · have hphase := h.phase other v hv
      exact ⟨hphase.serial_lt, hphase.canceled, hphase.waits, hphase.done, hphase.clears⟩
  inj := h.inj_setAt ht hset
  posted_lt := h.posted_lt
  canceled_lt := h.canceled_lt
  ended_lt := h.ended_lt
  ended_gone := h.ended_gone_setAt ht hset

/-- Another timer has another serial. -/
theorem Inv.serial_ne (h : s.Inv) (ht : t ∈ s.heap address) {other : ℕ} (hne : other ≠ address)
    (hu : u ∈ s.heap other) : u.set.serial ≠ t.set.serial :=
  fun heq => hne (h.inj other address u hu t ht heq)

/-! ### The steps of calls -/

/-- **A timer is created**, with a serial that is new. -/
theorem Inv.create (h : s.Inv) (request : TimerRequest) (hfree : s.heap address = none) :
    (s.create request address).Inv := by
  have hold : ∀ {other : ℕ} {v : PodTimer}, v ∈ s.heap other →
      v ∈ (s.create request address).heap other := by
    intro other v hv
    refine (update_of_ne (fun heq => ?_) _ _).trans hv
    rw [heq, hfree] at hv
    exact Option.not_mem_none v hv
  have hnew : s.postedFor s.created = [] :=
    List.filter_eq_nil_iff.mpr fun e he => by simpa using (h.posted_lt e he).ne
  have hnot : s.created ∉ s.canceled := fun hmem =>
    Nat.lt_irrefl _ (h.canceled_lt _ hmem)
  constructor
  case sound =>
    refine ⟨fun i timer htimer => ?_, h.sound.counted, h.sound.count_nonneg, h.sound.count_le,
      h.sound.untouched, h.sound.ends⟩
    obtain ⟨v, hv, hserial⟩ := h.sound.alive i timer htimer
    exact ⟨v, hold hv, hserial⟩
  case phase =>
    intro other v hv
    rcases mem_setAt hv with ⟨rfl, rfl⟩ | ⟨-, hv⟩
    · refine ⟨Nat.lt_succ_self _, ⟨fun h => absurd h Bool.false_ne_true, fun h => absurd h hnot⟩,
        fun _ => hnew, fun h => absurd trivial h, fun i h => TimerTask.noConfusion h⟩
    · have hphase := h.phase other v hv
      exact ⟨Nat.lt_succ_of_lt hphase.serial_lt, hphase.canceled, hphase.waits, hphase.done,
        hphase.clears⟩
  case inj =>
    intro p q v hv w hw hserial
    rcases mem_setAt hv with ⟨rfl, rfl⟩ | ⟨-, hv'⟩
    · rcases mem_setAt hw with ⟨rfl, -⟩ | ⟨-, hw'⟩
      · rfl
      · exact absurd hserial.symm (h.phase q w hw').serial_lt.ne
    · rcases mem_setAt hw with ⟨rfl, rfl⟩ | ⟨-, hw'⟩
      · exact absurd hserial (h.phase p v hv').serial_lt.ne
      · exact h.inj _ _ v hv' w hw' hserial
  case posted_lt => exact fun e he => Nat.lt_succ_of_lt (h.posted_lt e he)
  case canceled_lt => exact fun serial hmem => Nat.lt_succ_of_lt (h.canceled_lt serial hmem)
  case ended_lt => exact fun e he => Nat.lt_succ_of_lt (h.ended_lt e he)
  case ended_gone =>
    intro e he other v hv
    rcases mem_setAt hv with ⟨rfl, rfl⟩ | ⟨-, hv⟩
    · exact (h.ended_lt e he).ne'
    · exact h.ended_gone e he other v hv

/-- A list that is empty may be cleared. -/
theorem Inv.clear (h : s.Inv) (hempty : ∀ i, s.pTimer i = none) :
    Inv { s with pTimer := fun _ => none } := by
  rw [show (fun _ => none) = s.pTimer from funext fun i => (hempty i).symm]
  exact h

theorem total_insert {pTimer : Fin podMaxTimers → Option TimerRef} {i : Fin podMaxTimers}
    (hi : pTimer i = none) (timer : TimerRef) :
    total slotWeight (update pTimer i (some timer)) = total slotWeight pTimer + 1 := by
  have hupdate := total_update slotWeight pTimer i (some timer)
  rw [hi, slotWeight_some, slotWeight_none] at hupdate
  omega

theorem total_clear {pTimer : Fin podMaxTimers → Option TimerRef} {i : Fin podMaxTimers}
    {timer : TimerRef} (hi : pTimer i = some timer) :
    total slotWeight (update pTimer i none) + 1 = total slotWeight pTimer := by
  have hupdate := total_update slotWeight pTimer i none
  rw [hi, slotWeight_some, slotWeight_none] at hupdate
  omega

/-- There are no more timers in the list than slots. -/
theorem total_le (pTimer : Fin podMaxTimers → Option TimerRef) :
    total slotWeight pTimer ≤ podMaxTimers := by
  have hone : ∀ i ∈ Finset.univ, slotWeight (pTimer i) ≤ 1 := by
    intro i _
    unfold slotWeight
    split <;> omega
  calc total slotWeight pTimer
      ≤ ∑ _i : Fin podMaxTimers, 1 := Finset.sum_le_sum hone
    _ = Finset.univ.card := (Finset.card_eq_sum_ones _).symm
    _ = podMaxTimers := Fintype.card_fin _

/-- **A timer is put in the list.** -/
theorem Inv.insert (h : s.Inv) {timer : TimerRef}
    (hthere : ∃ t ∈ s.heap timer.address, t.set.serial = timer.serial)
    (hslot : ∃ i, s.pTimer i = none) : (s.insert timer).Inv := by
  obtain ⟨j, hj⟩ := hslot
  have hfirst : ∃ i, firstSlot (fun i => s.pTimer i == none) = some i := by
    rcases hnone : firstSlot (fun i => s.pTimer i == none) with _ | i
    · exact absurd (firstSlot_eq_none.mp hnone j) (by rw [hj]; decide)
    · exact ⟨i, rfl⟩
  obtain ⟨i, hfirst⟩ := hfirst
  have hi : s.pTimer i = none := by simpa using firstSlot_some hfirst
  unfold PodTimers.insert
  rw [hfirst]
  have hcount : s.numOfPodTimersCreated + 1 =
      total slotWeight (update s.pTimer i (some timer)) := by
    rw [total_insert hi, h.sound.counted]
    rfl
  have hle : (total slotWeight (update s.pTimer i (some timer)) : ℤ) ≤ podMaxTimers :=
    Int.ofNat_le.mpr (total_le _)
  refine ⟨⟨fun k ref href => ?_, hcount, ?_, ?_, h.sound.untouched, h.sound.ends⟩,
    fun other v hv => ?_, h.inj, h.posted_lt, h.canceled_lt, h.ended_lt, h.ended_gone⟩
  · have href : ref ∈ update s.pTimer i (some timer) k := href
    by_cases hk : k = i
    · subst hk
      rw [update_self] at href
      cases href
      exact hthere
    · rw [update_of_ne hk] at href
      exact h.sound.alive k ref href
  · exact Int.le_trans h.sound.count_nonneg (Int.le_add_of_nonneg_right (by decide))
  · exact Int.le_trans (Int.le_of_eq hcount) hle
  · have hphase := h.phase other v hv
    refine ⟨hphase.serial_lt, hphase.canceled, hphase.waits, hphase.done, fun k hk => ?_⟩
    obtain ⟨ref, href, haddress⟩ := hphase.clears k hk
    have hne : k ≠ i := by
      rintro rfl
      rw [hi] at href
      exact Option.not_mem_none ref href
    exact ⟨ref, (update_of_ne hne _ _).trans href, haddress⟩

/-- **A timer is cancelled** that has not posted its event. -/
theorem Inv.cancel (h : s.Inv) {timer : TimerRef}
    (hthere : ∃ t ∈ s.heap timer.address, t.set.serial = timer.serial)
    (hposted : s.postedFor timer.serial = []) : (s.cancel timer).Inv := by
  obtain ⟨t, ht, hserial⟩ := hthere
  rw [← hserial] at hposted
  unfold PodTimers.cancel write
  rw [show s.heap timer.address = some t from ht, ← hserial]
  have hphase := h.phase _ t ht
  have hmem : ∀ {n : ℕ}, n ≠ t.set.serial →
      (n ∈ s.canceled ++ [t.set.serial] ↔ n ∈ s.canceled) := by
    intro n hne
    simp [hne]
  have hself : t.set.serial ∈ s.canceled ++ [t.set.serial] := by simp
  constructor
  case sound =>
    refine ⟨h.alive_setAt ht rfl, h.sound.counted, h.sound.count_nonneg, h.sound.count_le,
      h.sound.untouched, fun e he => ?_⟩
    have hne := (h.ended_gone e he _ t ht).symm
    refine (h.sound.ends e he).trans ?_
    simp only [hmem hne]
  case phase =>
    intro other v hv
    rcases mem_setAt hv with ⟨rfl, rfl⟩ | ⟨hne, hv⟩
    · refine ⟨hphase.serial_lt, ⟨fun _ => hself, fun _ => rfl⟩, fun _ => hposted, fun _ => ?_,
        hphase.clears⟩
      rw [if_pos hself]
      exact hposted
    · have hphase := h.phase other v hv
      have hne := h.serial_ne ht hne hv
      refine ⟨hphase.serial_lt, hphase.canceled.trans (hmem hne).symm, hphase.waits,
        fun hdone => (hphase.done hdone).trans ?_, hphase.clears⟩
      simp only [hmem hne]
  case inj => exact h.inj_setAt ht rfl
  case posted_lt => exact h.posted_lt
  case canceled_lt =>
    intro n hn
    rcases List.mem_append.mp hn with hn | hn
    · exact h.canceled_lt n hn
    · exact List.mem_singleton.mp hn ▸ hphase.serial_lt
  case ended_lt => exact h.ended_lt
  case ended_gone => exact h.ended_gone_setAt ht rfl

/-- **A call writes to a timer** that is there, and leaves what it is set for, its flag and its
task. -/
theorem Inv.write (h : s.Inv) (hthere : (s.heap address).isSome) {f : PodTimer → PodTimer}
    (hset : ∀ t, (f t).set = t.set) (hcanceled : ∀ t, (f t).eventCanceled = t.eventCanceled)
    (htask : ∀ t, (f t).task = t.task) : (s.write address f).Inv := by
  obtain ⟨t, ht⟩ := Option.isSome_iff_exists.mp hthere
  have hphase := h.phase address t ht
  unfold PodTimers.write
  rw [ht]
  refine h.setAt ht (hset t) ⟨?_, ?_, ?_, ?_, ?_⟩
  · rw [hset]
    exact hphase.serial_lt
  · rw [hset, hcanceled]
    exact hphase.canceled
  · rw [hset, htask]
    exact hphase.waits
  · rw [hset, htask]
    exact hphase.done
  · rw [htask]
    exact hphase.clears

/-! ### The steps of tasks -/

/-- What is found in a slot is there. -/
theorem found_spec {slot : ℕ} {timer : TimerRef} (hslot : slot < podMaxTimers)
    (h : s.found address slot = some timer) :
    timer ∈ s.pTimer ⟨slot, hslot⟩ ∧ timer.address = address := by
  unfold found at h
  rw [dif_pos hslot] at h
  obtain ⟨hmem, haddress⟩ := Option.mem_filter_iff.mp h
  exact ⟨hmem, of_decide_eq_true haddress⟩

/-- **The task goes on** without posting its event. -/
theorem Inv.goOn (h : s.Inv) (ht : t ∈ s.heap address) (hset : u.set = t.set)
    (hcanceled : u.eventCanceled = t.eventCanceled)
    (hwaits : u.task.Waits → t.task.Waits)
    (hdone : ¬ u.task.Waits → ¬ t.task.Waits ∨ t.eventCanceled = true)
    (hclears : ∀ i, u.task = .clears i → ∃ timer ∈ s.pTimer i, timer.address = address) :
    (s.setAt address u).Inv := by
  have hphase := h.phase address t ht
  refine h.setAt ht hset ⟨?_, ?_, ?_, ?_, hclears⟩
  · rw [hset]
    exact hphase.serial_lt
  · rw [hset, hcanceled]
    exact hphase.canceled
  · rw [hset]
    exact fun h => hphase.waits (hwaits h)
  · rw [hset]
    intro hu
    by_cases hwaits : t.task.Waits
    · have hmem := hphase.canceled.mp ((hdone hu).resolve_left (not_not.mpr hwaits))
      rw [if_pos hmem]
      exact hphase.waits hwaits
    · exact hphase.done hwaits

/-- What was posted for other timers stays the same. -/
theorem postedFor_append {serial : ℕ} {e : TimerEvent} (hne : e.serial ≠ serial) :
    ({ s with posted := s.posted ++ [e] } : PodTimers).postedFor serial = s.postedFor serial := by
  unfold postedFor
  rw [List.filter_append]
  simp [hne]

/-- **The event is posted** of a timer that was not cancelled. -/
theorem Inv.post (h : s.Inv) (ht : t ∈ s.heap address) (hwaits : t.task.Waits)
    (hcanceled : t.eventCanceled = false) :
    ({ s with posted := s.posted ++ [t.set] }.setAt address { t with task := .clearing 0 }).Inv := by
  have hphase := h.phase address t ht
  have hnot : t.set.serial ∉ s.canceled := fun hmem =>
    absurd (hphase.canceled.mpr hmem) (by rw [hcanceled]; exact Bool.false_ne_true)
  have hown : ({ s with posted := s.posted ++ [t.set] } : PodTimers).postedFor t.set.serial =
      [t.set] := by
    have hnone := hphase.waits hwaits
    unfold postedFor at hnone ⊢
    rw [List.filter_append, hnone]
    simp
  constructor
  case sound =>
    refine ⟨h.alive_setAt ht rfl, h.sound.counted, h.sound.count_nonneg, h.sound.count_le,
      h.sound.untouched, fun e he => ?_⟩
    exact (postedFor_append (h.ended_gone e he address t ht)).trans (h.sound.ends e he)
  case phase =>
    intro other v hv
    rcases mem_setAt hv with ⟨rfl, rfl⟩ | ⟨hne, hv⟩
    · refine ⟨hphase.serial_lt, hphase.canceled, fun h => h.elim, fun _ => ?_,
        fun i hi => TimerTask.noConfusion hi⟩
      exact hown.trans (if_neg hnot).symm
    · have hphase := h.phase other v hv
      have hsame := postedFor_append (s := s) (h.serial_ne ht hne hv).symm
      exact ⟨hphase.serial_lt, hphase.canceled, fun h => hsame.trans (hphase.waits h),
        fun h => hsame.trans (hphase.done h), hphase.clears⟩
  case inj => exact h.inj_setAt ht rfl
  case posted_lt =>
    intro e he
    rcases List.mem_append.mp he with he | he
    · exact h.posted_lt e he
    · exact List.mem_singleton.mp he ▸ hphase.serial_lt
  case canceled_lt => exact h.canceled_lt
  case ended_lt => exact h.ended_lt
  case ended_gone => exact h.ended_gone_setAt ht rfl

/-- **A slot of the list is cleared**, which no task is about to clear. -/
theorem Inv.unlist (h : s.Inv) {slot : Fin podMaxTimers} {timer : TimerRef}
    (htimer : s.pTimer slot = some timer)
    (hnone : ∀ other, ∀ v ∈ s.heap other, v.task ≠ .clears slot) :
    Inv { s with
      pTimer := update s.pTimer slot none
      numOfPodTimersCreated := s.numOfPodTimersCreated - 1 } := by
  have hcount : s.numOfPodTimersCreated - 1 =
      total slotWeight (update s.pTimer slot none) := by
    have hclear := total_clear htimer
    have hcounted := h.sound.counted
    omega
  have hnonneg : 0 ≤ s.numOfPodTimersCreated - 1 := by
    rw [hcount]
    exact Int.natCast_nonneg _
  have hle : s.numOfPodTimersCreated - 1 ≤ podMaxTimers :=
    Int.le_trans (Int.sub_le_self _ (by decide)) h.sound.count_le
  refine ⟨⟨fun i ref href => ?_, hcount, hnonneg, hle, h.sound.untouched, h.sound.ends⟩,
    fun other v hv => ?_, h.inj, h.posted_lt, h.canceled_lt, h.ended_lt, h.ended_gone⟩
  · have href : ref ∈ update s.pTimer slot none i := href
    by_cases hi : i = slot
    · subst hi
      rw [update_self] at href
      exact absurd href (Option.not_mem_none ref)
    · rw [update_of_ne hi] at href
      exact h.sound.alive i ref href
  · have hphase := h.phase other v hv
    refine ⟨hphase.serial_lt, hphase.canceled, hphase.waits, hphase.done, fun i hi => ?_⟩
    obtain ⟨ref, href, haddress⟩ := hphase.clears i hi
    have hne : i ≠ slot := fun heq => hnone other v hv (heq ▸ hi)
    exact ⟨ref, (update_of_ne hne _ _).trans href, haddress⟩

/-- **The timer is taken off the list.** -/
theorem Inv.clears (h : s.Inv) (ht : t ∈ s.heap address) {slot : Fin podMaxTimers}
    (htask : t.task = .clears slot) :
    ({ s with
      pTimer := update s.pTimer slot none
      numOfPodTimersCreated := s.numOfPodTimersCreated - 1 }.setAt address
        { t with task := .freeing }).Inv := by
  obtain ⟨timer, htimer, haddress⟩ := (h.phase address t ht).clears slot htask
  have hgone := h.goOn ht (u := { t with task := .freeing }) rfl rfl (fun h => h.elim)
    (fun _ => .inl (by rw [htask]; exact id)) (fun i hi => TimerTask.noConfusion hi)
  refine hgone.unlist htimer fun other v hv hv' => ?_
  rcases mem_setAt hv with ⟨rfl, rfl⟩ | ⟨hne, hv⟩
  · cases hv'
  · obtain ⟨ref, href, haddress'⟩ := (h.phase other v hv).clears slot hv'
    obtain rfl := Option.mem_unique htimer href
    exact hne (haddress'.symm.trans haddress)

/-- **The event is freed** of a timer that is not in the list. -/
theorem Inv.free (h : s.Inv) (ht : t ∈ s.heap address) (htask : t.task = .freeing)
    (hunlisted : ∀ i, ∀ timer ∈ s.pTimer i, timer.address ≠ address) :
    Inv { s with heap := update s.heap address none, ended := s.ended ++ [t.set] } := by
  have hphase := h.phase address t ht
  have hmem : ∀ {other : ℕ} {v : PodTimer}, v ∈ update s.heap address none other →
      other ≠ address ∧ v ∈ s.heap other := by
    intro other v hv
    by_cases hne : other = address
    · subst hne
      rw [update_self] at hv
      exact absurd hv (Option.not_mem_none v)
    · rw [update_of_ne hne] at hv
      exact ⟨hne, hv⟩
  constructor
  case sound =>
    refine ⟨fun i timer htimer => ?_, h.sound.counted, h.sound.count_nonneg, h.sound.count_le,
      h.sound.untouched, fun e he => ?_⟩
    · obtain ⟨v, hv, hserial⟩ := h.sound.alive i timer htimer
      exact ⟨v, (update_of_ne (hunlisted i timer htimer) _ _).trans hv, hserial⟩
    · rcases List.mem_append.mp he with he | he
      · exact h.sound.ends e he
      · obtain rfl := List.mem_singleton.mp he
        exact hphase.done (by rw [htask]; exact id)
  case phase =>
    intro other v hv
    have hphase := h.phase other v (hmem hv).2
    exact ⟨hphase.serial_lt, hphase.canceled, hphase.waits, hphase.done, hphase.clears⟩
  case inj => exact fun p q v hv w hw => h.inj p q v (hmem hv).2 w (hmem hw).2
  case posted_lt => exact h.posted_lt
  case canceled_lt => exact h.canceled_lt
  case ended_lt =>
    intro e he
    rcases List.mem_append.mp he with he | he
    · exact h.ended_lt e he
    · exact List.mem_singleton.mp he ▸ hphase.serial_lt
  case ended_gone =>
    intro e he other v hv
    obtain ⟨hne, hv⟩ := hmem hv
    rcases List.mem_append.mp he with he | he
    · exact h.ended_gone e he other v hv
    · exact List.mem_singleton.mp he ▸ h.serial_ne ht hne hv

/-! ### Runs -/

/-- **A step of a call** that meets the condition keeps the invariant. -/
theorem Inv.callStep (h : s.Inv) {thread : ℕ} (horderly : s.CallOrderly (s.calls thread))
    {s' : PodTimers} (hs : s.callStep thread = some s') : s'.Inv := by
  unfold PodTimers.callStep at hs
  rcases hcall : s.calls thread with _ | request | request | request | request | request |
    request | timer |
    ⟨hTimer, slot⟩ | timer | ⟨hTimer, addedMs, slot⟩ | ⟨timer, addedMs⟩ | ⟨timer, addedMs⟩
  all_goals
    rw [hcall] at hs horderly
  · cases hs
  · cases hs
    exact (h.clear horderly).goto thread _
  · cases hs
    exact h.goto thread _
  · cases hs
  · cases hs
    exact (h.mutex true s.mutexes).goto thread _
  · cases hs
    exact h.goto thread _
  · cases hs
  · cases hs
    exact (h.insert horderly.1 horderly.2).goto thread _
  · cases hs
    exact h.goto thread _
  · cases hs
    exact (h.cancel horderly.1 horderly.2).goto thread _
  · cases hs
    exact h.goto thread _
  · cases hs
    exact (h.write (f := fun t => { t with timeElapsed := addedMs.setWidth 32 }) horderly
      (fun _ => rfl) (fun _ => rfl) fun _ => rfl).goto thread _
  · cases hs
    exact (h.write (f := fun t => { t with eventTime := addedMs }) horderly
      (fun _ => rfl) (fun _ => rfl) fun _ => rfl).goto thread _

/-- **A step of a task** that meets the condition keeps the invariant. -/
theorem Inv.taskStep (h : s.Inv) (horderly : ∀ t ∈ s.heap address, s.TaskOrderly address t)
    {s' : PodTimers} (hs : s.taskStep address = some s') : s'.Inv := by
  unfold PodTimers.taskStep at hs
  rcases ht : s.heap address with _ | t
  · rw [ht] at hs
    cases hs
  · have horderly := horderly t ht
    rw [ht] at hs
    dsimp only at hs
    rcases htask : t.task with _ | _ | slot | slot | _
    all_goals
      rw [htask] at hs
      dsimp only at hs
    case sleeping =>
      have hwaits : t.task.Waits := by
        rw [htask]
        trivial
      cases hs
      split
      · rename_i hcanceled
        exact h.goOn ht rfl rfl (fun h => h.elim) (fun _ => .inr hcanceled)
          fun i hi => TimerTask.noConfusion hi
      · exact h.goOn ht rfl rfl (fun _ => hwaits) (fun h => absurd trivial h)
          fun i hi => TimerTask.noConfusion hi
    case expiring =>
      have hwaits : t.task.Waits := by
        rw [htask]
        trivial
      split at hs
      · rename_i helapsed
        cases hs
        exact h.post ht hwaits (horderly.1 htask helapsed)
      · cases hs
        exact h.goOn ht rfl rfl (fun _ => hwaits) (fun h => absurd trivial h)
          fun i hi => TimerTask.noConfusion hi
    case clearing =>
      have hdone : ¬ t.task.Waits := by
        rw [htask]
        exact id
      cases hs
      split
      · rename_i hslot
        split
        · rename_i timer hfound
          refine h.goOn ht rfl rfl (fun h => h.elim) (fun _ => .inl hdone) fun i hi => ?_
          obtain rfl := TimerTask.clears.inj hi
          exact ⟨timer, found_spec hslot hfound⟩
        · exact h.goOn ht rfl rfl (fun h => h.elim) (fun _ => .inl hdone)
            fun i hi => TimerTask.noConfusion hi
      · exact h.goOn ht rfl rfl (fun h => h.elim) (fun _ => .inl hdone)
          fun i hi => TimerTask.noConfusion hi
    case clears =>
      cases hs
      exact h.clears ht htask
    case freeing =>
      cases hs
      exact h.free ht htask (horderly.2 htask)

/-- **A step** that meets the condition keeps the invariant. -/
theorem Inv.step (h : s.Inv) {a : Act} (horderly : s.Orderly a) {s' : PodTimers}
    (hs : step s a = some s') : s'.Inv := by
  cases a with
  | call thread => exact h.callStep horderly hs
  | task address => exact h.taskStep horderly hs
  | newMutex thread made =>
    unfold PodTimers.step at hs
    dsimp only at hs
    split at hs
    · cases hs
      cases made with
      | true => exact (h.mutex s.mutexCreated (s.mutexes + 1)).goto thread _
      | false => exact h.goto thread _
    · cases hs
  | create thread address =>
    unfold PodTimers.step at hs
    dsimp only at hs
    split at hs
    · rename_i request address' _
      split at hs
      · rename_i hfree
        cases hs
        exact (h.create request hfree.2).goto thread _
      · cases hs
    · cases hs
      exact h.goto thread _
    · cases hs
  | _ =>
    unfold PodTimers.step at hs
    dsimp only at hs
    split at hs
    · cases hs
      exact h.goto _ _
    · cases hs

end Steps

/-- Two first calls, which each look for the mutex before the other has made it. -/
def twoMutexes : List Act :=
  [.setTimer 0 ⟨7, 0x10, 50⟩, .setTimer 1 ⟨7, 0x11, 50⟩, .call 0, .call 1, .call 0, .call 1,
    .newMutex 0 true, .newMutex 1 true]

example : (runFrom step {} twoMutexes).map mutexes = some 2 := by decide +kernel

end PodTimers

end MediaFramework
