import Mathlib.Data.Nat.ModEq
import MediaFramework.Inb.SectionRequest
import MediaFramework.Lib.Family

/-!
# A section filter and its threads

Any number of threads call the functions of one `rmf_SectionFilter`: the threads of the section
source, which pass sections to `section_avail_cb`, and its clients. A step is what a thread does
between two points at which others may come in: a critical section under one of the mutexes, or
what it does to shared data without one.

The section source itself is not part of the repository. What `Create` and `Start` answer is
part of the step, and so are the ids that `Create` gives out, which may be ids it gave out
before; what `Read` takes from a queue is a parameter.
-/

namespace MediaFramework

/-! ## Data -/

/-- `rmf_Section_Data`, and what has happened to it. -/
structure SectionData where
  sectionID : ℕ := 0
  /-- as many bytes as `sectionLength` says -/
  sectionData : List UInt8 := []
  /-- it was passed to `section_avail_cb` -/
  passed : Bool := false
  /-- how many ids had been drawn when its own was -/
  draw : ℕ := 0
  /-- how often it was freed -/
  frees : ℕ := 0

/-- The memory of a section is freed, that many times. -/
def SectionData.free (d : SectionData) (times : ℕ) : SectionData :=
  { d with frees := d.frees + times }

/-- Where `cancelFilter` returns to; `k` is the number of requests. -/
inductive AfterCancel (k : ℕ)
  | returned
  /-- `SetFilter`, which tries again -/
  | setting (request : Fin k)
  /-- `ReleaseFilter` -/
  | releasing (id : ℕ)
  deriving DecidableEq

/-- Where a thread is. -/
inductive FilterThread (k : ℕ)
  | idle
  /-- in `getNextSectionID`, which returns the counter after it has released the mutex -/
  | incremented
  /-- with an id for the next section -/
  | drawn (sectionID draw : ℕ)
  /-- in `section_avail_cb`, with the request found and marked -/
  | received (request : Fin k) (sec : ℕ)
  /-- with the match counted -/
  | counted (request : Fin k) (sec : ℕ) (last : Bool)
  /-- with the section queued -/
  | queued (request : Fin k) (sec : ℕ) (last : Bool)
  /-- before the mark is taken away -/
  | finishing (request : Fin k)
  /-- in `SetFilter`, before `Create` -/
  | setting (request : Fin k)
  /-- before `Start` -/
  | starting (id : ℕ)
  /-- in `cancelFilter`, before the request is looked up -/
  | lookingUp (id : ℕ) (next : AfterCancel k)
  /-- with the request found -/
  | cancelling (request : Fin k) (next : AfterCancel k)
  /-- in `ReleaseFilter`, before the request is removed from the table -/
  | releasing (id : ℕ)
  /-- with what was removed -/
  | removed (request : Option (Fin k)) (id : ℕ)
  /-- in `ReleaseFromDeferredDeleteQueue`, with the nodes that are still to come -/
  | purging (rest : SymbolMapTable (Fin k))
  /-- in `GetSectionHandle`, with the request found -/
  | getting (id : ℕ) (request : Fin k) (ifNotCancelled : Bool)
  /-- with a section read -/
  | holding (sec : ℕ)
  /-- in `ReadSection`, which is to release the section -/
  | releasingSection (handle : ℕ)
  deriving DecidableEq

/-- What `Create` answers. -/
inductive CreateResult
  | noFilterRes
  | error
  /-- with the id of the filter, and whether there is memory for a node of the table -/
  | success (id : ℕ) (allocated : Bool)

/-- What a thread does next. -/
inductive FilterAction (k : ℕ)
  /-- `getNextSectionID`, up to the release of the mutex -/
  | incrementSectionID
  | returnSectionID
  /-- `section_avail_cb`, up to the release of the mutex -/
  | sectionAvail (id sec : ℕ) (data : List UInt8)
  | countMatch
  | push
  /-- the event is posted, or fails -/
  | dispatch (ok : Bool)
  | finish
  /-- `SetFilter`, up to `Create` -/
  | setFilter (request : Fin k) (timesToMatch priority : ℕ)
  | create (result : CreateResult)
  | start (ok : Bool)
  | cancelFilter (id : ℕ)
  | releaseFilter (id : ℕ)
  | remove
  /-- the request is freed or parked -/
  | settle (allocated : Bool)
  /-- `ReleaseFromDeferredDeleteQueue` comes to the next node -/
  | purgeNext
  | getSectionHandle (id : ℕ) (ifNotCancelled : Bool)
  | read
  | insertOutstanding (allocated : Bool)
  | readSection (handle offset byteCount : ℕ) (buffer releaseWhenComplete : Bool)
  | releaseSection (handle : ℕ)
  /-- the cancelling, or the releasing of a section, goes on -/
  | next

/-- `getNextSectionID` on the static counter. -/
def nextSectionID (val : ℕ) : ℕ := if 65535 ≤ val + 1 then 1 else val + 1

/-- After so many draws the ids come again. -/
def idTurn : ℕ := 65534

/-- A section filter with `n` threads and `k` requests. -/
structure SectionFilter (n k : ℕ) where
  threads : Fin n → FilterThread k := fun _ => .idle
  requests : Fin k → SectionRequest := fun _ => {}
  sections : ℕ → SectionData := fun _ => {}
  sectionRequests : SymbolMapTable (Fin k) := []
  sectionRequestsToRemove : SymbolMapTable (Fin k) := []
  outstandingSections : SymbolMapTable ℕ := []
  /-- the static counter of `getNextSectionID` -/
  val : ℕ := 0
  /-- how many ids were drawn -/
  draws : ℕ := 0

/-- Where a thread goes on after `cancelFilter`. -/
def AfterCancel.thread {k : ℕ} : AfterCancel k → FilterThread k
  | .returned => .idle
  | .setting r => .setting r
  | .releasing id => .releasing id

namespace SectionFilter

variable {n k : ℕ}

section Update

variable (s : SectionFilter n k)

def setThread (i : Fin n) (t : FilterThread k) : SectionFilter n k :=
  { s with threads := Function.update s.threads i t }

def setRequest (r : Fin k) (q : SectionRequest) : SectionFilter n k :=
  { s with requests := Function.update s.requests r q }

def setSection (sec : ℕ) (d : SectionData) : SectionFilter n k :=
  { s with sections := Function.update s.sections sec d }

def freeSection (sec : ℕ) : SectionFilter n k :=
  s.setSection sec ((s.sections sec).free 1)

/-- Free one section after the other. -/
def freeSections (secs : List ℕ) : SectionFilter n k := secs.foldl freeSection s

end Update

/-! ## The functions of the filter -/

section Functions

variable (s : SectionFilter n k)

/-- `getLowestPriorityFilter`: the id of the filter with the greatest number beyond
`filterPriority`, the first in the table of those that have it. -/
def getLowestPriorityFilter (filterPriority : ℕ) : Option ℕ :=
  (s.sectionRequests.foldl
    (fun (lowest : ℕ × Option ℕ) node =>
      if lowest.1 < (s.requests node.2).priority then
        ((s.requests node.2).priority, some node.1)
      else lowest)
    (filterPriority, none)).2

/-- `ReleaseFilterRequest`: the sections that wait are freed, and the request. -/
def releaseFilterRequest (r : Fin k) : SectionFilter n k :=
  (s.freeSections ((s.requests r).sectionsDataQueue.popAll maxQueueSize)).setRequest r
    { s.requests r with sectionsDataQueue := .new, frees := (s.requests r).frees + 1 }

/-- A request that `SetFilter` could not use is freed. -/
def dropRequest (r : Fin k) : SectionFilter n k :=
  s.setRequest r { s.requests r with frees := (s.requests r).frees + 1 }

/-- `ReleaseFilter` up to the removal: a request that is not cancelled is cancelled first. -/
def releaseFilter (i : Fin n) (id : ℕ) : SectionFilter n k :=
  match s.sectionRequests.lookup id with
  | none => s.setThread i .idle
  | some r =>
    if (s.requests r).state = .cancelled then s.setThread i (.releasing id)
    else s.setThread i (.lookingUp id (.releasing id))

/-- `ReleaseFilter` takes the request out of the table. -/
def removeRequest (i : Fin n) (id : ℕ) : SectionFilter n k :=
  match SymbolMapTable.remove id s.sectionRequests with
  | (none, table) => { s with sectionRequests := table }.setThread i (.removed none id)
  | (some r, table) =>
    ({ s with sectionRequests := table }.setRequest r
      { s.requests r with released := true }).setThread i (.removed (some r) id)

/-- `ReleaseFilter` frees the request, or parks it if a callback is processing a section for
it and no other request is parked under its id. -/
def settleRequest (r : Fin k) (id : ℕ) (allocated : Bool) : SectionFilter n k :=
  if (s.requests r).uiIsSectionUnderProcessing then
    match s.sectionRequestsToRemove.lookup id with
    | none =>
      { s with
        sectionRequestsToRemove := s.sectionRequestsToRemove.insert id r allocated }
    | some _ => s
  else s.releaseFilterRequest r

/-- `ReleaseFromDeferredDeleteQueue` begins. -/
def startPurge (i : Fin n) : SectionFilter n k :=
  s.setThread i (.purging s.sectionRequestsToRemove)

/-- `ReleaseFromDeferredDeleteQueue` at a node. -/
def purgeNode (key : ℕ) (r : Fin k) : SectionFilter n k :=
  if (s.requests r).uiIsSectionUnderProcessing then s
  else
    { s with
      sectionRequestsToRemove :=
        (SymbolMapTable.remove key s.sectionRequestsToRemove).2 }.releaseFilterRequest r

/-- `ReadSection`: the bytes that are copied, or `none` for a handle or an argument that is not
valid. -/
def readSection (handle offset byteCount : ℕ) (buffer : Bool) : Option (List UInt8) :=
  match s.outstandingSections.lookup handle with
  | none => none
  | some sec =>
    let sectionData := (s.sections sec).sectionData
    if buffer = false ∨ sectionData.length < offset ∨ byteCount = 0 then none
    else if sectionData.length ≤ offset then none
    else
      let bytesToCopy :=
        if byteCount < sectionData.length - offset then byteCount
        else sectionData.length - offset
      some ((sectionData.drop offset).take bytesToCopy)

/-- `ReleaseSection`. -/
def releaseSection (handle : ℕ) : SectionFilter n k :=
  match SymbolMapTable.remove handle s.outstandingSections with
  | (none, _) => s
  | (some sec, table) => { s with outstandingSections := table }.freeSection sec

/-- `section_avail_cb` up to the release of the mutex: the request is found and marked, or the
section is freed. -/
def receive (i : Fin n) (id sec : ℕ) (d : SectionData) : SectionFilter n k :=
  match s.sectionRequests.lookup id with
  | none => ((s.setSection sec d).freeSection sec).setThread i .idle
  | some r =>
    ((s.setSection sec d).setRequest r
      { s.requests r with uiIsSectionUnderProcessing := true }).setThread i (.received r sec)

/-- `section_avail_cb` looks at the state, and counts. -/
def count (i : Fin n) (r : Fin k) (sec : ℕ) : SectionFilter n k :=
  if (s.requests r).Dismisses then (s.freeSection sec).setThread i (.finishing r)
  else
    let (last, q) := (s.requests r).countMatch
    (s.setRequest r q).setThread i (.counted r sec last)

/-- `section_avail_cb` queues the section. -/
def pushSection (i : Fin n) (r : Fin k) (sec : ℕ) (last : Bool) : SectionFilter n k :=
  match (s.requests r).push sec with
  | none => ((s.setRequest r (s.requests r).uncount).freeSection sec).setThread i (.finishing r)
  | some q => (s.setRequest r q).setThread i (.queued r sec last)

/-- `section_avail_cb` posts the event. -/
def dispatch (i : Fin n) (r : Fin k) (sec : ℕ) (last ok : Bool) : SectionFilter n k :=
  if ok then (s.setRequest r ((s.requests r).deliver sec last)).setThread i (.finishing r)
  else
    let (found, q) := (s.requests r).uncount.withdraw sec
    ((s.setRequest r q).freeSections found.toList).setThread i (.finishing r)

/-- `SetFilter` after a call of `Create`. -/
def create (i : Fin n) (r : Fin k) : CreateResult → SectionFilter n k
  | .noFilterRes =>
    match s.getLowestPriorityFilter (s.requests r).priority with
    | some id => s.setThread i (.lookingUp id (.setting r))
    | none => (s.dropRequest r).setThread i .idle
  | .error => (s.dropRequest r).setThread i .idle
  | .success id allocated =>
    ({ s with sectionRequests := s.sectionRequests.insert id r allocated }.setRequest r
      { s.requests r with state := .ready, inserted := allocated }).setThread i (.starting id)

/-- `GetSectionHandle` calls `Read` of the section source. -/
def readQueue (read : RmfQueue → Option ℕ × RmfQueue) (i : Fin n) (id : ℕ) (r : Fin k)
    (ifNotCancelled : Bool) : SectionFilter n k :=
  if (s.requests r).state = .cancelled ∧ ifNotCancelled = true then s.setThread i .idle
  else
    match s.sectionRequests.lookup id with
    | none => s.setThread i .idle
    | some r' =>
      let (found, q) := (s.requests r').obtain read
      (s.setRequest r' q).setThread i (found.elim .idle .holding)

end Functions

/-! ## Steps -/

/-- One step of thread `i`; `none` if it is not there, or passes a section that was passed, or
takes memory that is in use. -/
def step (read : RmfQueue → Option ℕ × RmfQueue) (s : SectionFilter n k) :
    Fin n × FilterAction k → Option (SectionFilter n k)
  | (i, a) =>
    match s.threads i, a with
    | .idle, .incrementSectionID =>
      some ({ s with val := nextSectionID s.val, draws := s.draws + 1 }.setThread i .incremented)
    | .incremented, .returnSectionID => some (s.setThread i (.drawn s.val s.draws))
    | .drawn sectionID draw, .sectionAvail id sec data =>
      if (s.sections sec).passed then none
      else
        some (s.receive i id sec
          { sectionID := sectionID, sectionData := data, passed := true, draw := draw })
    | .received r sec, .countMatch => some (s.count i r sec)
    | .counted r sec last, .push => some (s.pushSection i r sec last)
    | .queued r sec last, .dispatch ok => some (s.dispatch i r sec last ok)
    | .finishing r, .finish =>
      some ((s.setRequest r { s.requests r with uiIsSectionUnderProcessing := false }).setThread i
        .idle)
    | .idle, .setFilter r timesToMatch priority =>
      if (s.requests r).created then none
      else if priority = 0 then some s
      else
        some ((s.setRequest r
          { matchesRemaining := timesToMatch, priority := priority, created := true }).setThread i
            (.setting r))
    | .setting r, .create result => some (s.create i r result)
    | .starting id, .start ok =>
      some (if ok then s.setThread i .idle else s.releaseFilter i id)
    | .idle, .cancelFilter id => some (s.setThread i (.lookingUp id .returned))
    | .lookingUp id next, .next =>
      match s.sectionRequests.lookup id with
      | none => some (s.setThread i next.thread)
      | some r => some (s.setThread i (.cancelling r next))
    | .cancelling r next, .next =>
      some ((s.setRequest r (s.requests r).cancel).setThread i next.thread)
    | .idle, .releaseFilter id => some (s.releaseFilter i id)
    | .releasing id, .remove => some (s.removeRequest i id)
    | .removed none _, .settle _ => some (s.startPurge i)
    | .removed (some r) id, .settle allocated =>
      some ((s.settleRequest r id allocated).startPurge i)
    | .purging [], .purgeNext => some (s.setThread i .idle)
    | .purging ((key, r) :: rest), .purgeNext =>
      some ((s.purgeNode key r).setThread i (.purging rest))
    | .idle, .getSectionHandle id ifNotCancelled =>
      match s.sectionRequests.lookup id with
      | none => some s
      | some r => some (s.setThread i (.getting id r ifNotCancelled))
    | .getting id r ifNotCancelled, .read => some (s.readQueue read i id r ifNotCancelled)
    | .holding sec, .insertOutstanding allocated =>
      some ({ s with
        outstandingSections :=
          s.outstandingSections.insert (s.sections sec).sectionID sec allocated }.setThread i .idle)
    | .idle, .readSection handle offset byteCount buffer releaseWhenComplete =>
      if (s.readSection handle offset byteCount buffer).isSome ∧ releaseWhenComplete = true then
        some (s.setThread i (.releasingSection handle))
      else some s
    | .releasingSection handle, .next => some ((s.releaseSection handle).setThread i .idle)
    | .idle, .releaseSection handle => some (s.releaseSection handle)
    | _, _ => none

/-- No filters and no sections. -/
def initial (n k : ℕ) : SectionFilter n k := {}

end SectionFilter

/-! ## What a thread has -/

namespace FilterThread

variable {k : ℕ}

/-- It is in `section_avail_cb` with this request, which it has marked. -/
def processes (r : Fin k) : FilterThread k → ℕ
  | .received r' _ | .counted r' _ _ | .queued r' _ _ | .finishing r' => if r' = r then 1 else 0
  | _ => 0

/-- It is in `SetFilter` with this request, which is in no table yet. -/
def owns (r : Fin k) : FilterThread k → ℕ
  | .setting r' | .lookingUp _ (.setting r') | .cancelling _ (.setting r') =>
    if r' = r then 1 else 0
  | _ => 0

/-- It is in `ReleaseFilter` with this request, which it has taken out of the table. -/
def releases (r : Fin k) : FilterThread k → ℕ
  | .removed (some r') _ => if r' = r then 1 else 0
  | _ => 0

/-- It has this section, which is in no queue and in no table. -/
def carries (sec : ℕ) : FilterThread k → ℕ
  | .received _ sec' | .counted _ sec' _ | .holding sec' => if sec' = sec then 1 else 0
  | _ => 0

/-- It has not just queued a section or drawn an id, and it is not purging. -/
def Calm : FilterThread k → Prop
  | .queued _ _ _ | .drawn _ _ | .purging _ => False
  | _ => True

/-- A thread goes on with what it had. -/
structure Quiet (t t' : FilterThread k) : Prop where
  processes_eq : ∀ r, t'.processes r = t.processes r
  owns_eq : ∀ r, t'.owns r = t.owns r
  releases_eq : ∀ r, t'.releases r = t.releases r
  carries_eq : ∀ sec, t'.carries sec = t.carries sec
  calm : t'.Calm

theorem Quiet.idle {t : FilterThread k} (h : t = .idle) : t.Quiet .idle := by
  subst h
  exact ⟨fun _ => rfl, fun _ => rfl, fun _ => rfl, fun _ => rfl, trivial⟩

end FilterThread

namespace SectionRequest

/-- The requests differ in nothing that has to do with their custody. -/
structure SameCustody (q q' : SectionRequest) : Prop where
  mark_eq : q'.uiIsSectionUnderProcessing = q.uiIsSectionUnderProcessing
  created_eq : q'.created = q.created
  inserted_eq : q'.inserted = q.inserted
  released_eq : q'.released = q.released
  frees_eq : q'.frees = q.frees

theorem SameCustody.refl (q : SectionRequest) : q.SameCustody q := ⟨rfl, rfl, rfl, rfl, rfl⟩

theorem SameCustody.trans {q q' q'' : SectionRequest} (h : q.SameCustody q')
    (h' : q'.SameCustody q'') : q.SameCustody q'' :=
  ⟨h'.mark_eq.trans h.mark_eq, h'.created_eq.trans h.created_eq,
    h'.inserted_eq.trans h.inserted_eq, h'.released_eq.trans h.released_eq, h'.frees_eq.trans h.frees_eq⟩

/-- The requests differ neither in their custody nor in their queue. -/
structure Alike (q q' : SectionRequest) : Prop extends SameCustody q q' where
  queue_eq : q'.sectionsDataQueue = q.sectionsDataQueue
  queued_eq : q'.queued = q.queued
  obtained_eq : q'.obtained = q.obtained

theorem alike_countMatch (q : SectionRequest) : q.Alike q.countMatch.2 := by
  unfold countMatch
  dsimp only
  split_ifs <;> exact ⟨⟨rfl, rfl, rfl, rfl, rfl⟩, rfl, rfl, rfl⟩

theorem alike_uncount (q : SectionRequest) : q.Alike q.uncount := by
  unfold uncount
  split_ifs <;> exact ⟨⟨rfl, rfl, rfl, rfl, rfl⟩, rfl, rfl, rfl⟩

theorem alike_deliver (q : SectionRequest) (sec : ℕ) (last : Bool) : q.Alike (q.deliver sec last) :=
  ⟨⟨rfl, rfl, rfl, rfl, rfl⟩, rfl, rfl, rfl⟩

theorem alike_cancel (q : SectionRequest) : q.Alike q.cancel := by
  unfold cancel
  split_ifs <;> exact ⟨⟨rfl, rfl, rfl, rfl, rfl⟩, rfl, rfl, rfl⟩

theorem sameCustody_push {q q' : SectionRequest} {sec : ℕ} (h : q.push sec = some q') :
    q.SameCustody q' := by
  obtain ⟨_, -, rfl⟩ := push_eq h
  exact ⟨rfl, rfl, rfl, rfl, rfl⟩

theorem sameCustody_withdraw (q : SectionRequest) (sec : ℕ) :
    q.SameCustody (q.withdraw sec).2 := by
  rcases withdraw_cases q sec with ⟨-, _, -, h⟩ | ⟨_, _, _, -, -, h⟩
  · rw [h]
    exact ⟨rfl, rfl, rfl, rfl, rfl⟩
  · rw [h]
    exact ⟨rfl, rfl, rfl, rfl, rfl⟩

end SectionRequest

namespace SectionFilter

variable {n k : ℕ} {read : RmfQueue → Option ℕ × RmfQueue} {s s' : SectionFilter n k} {i : Fin n}

/-! ## What a step can do -/

theorem freeSections_eq (s : SectionFilter n k) (secs : List ℕ) :
    s.freeSections secs =
      { s with sections := fun sec => (s.sections sec).free (secs.count sec) } := by
  unfold freeSections
  induction secs generalizing s with
  | nil => rfl
  | cons x secs ih =>
    rw [List.foldl_cons, ih]
    have hsections : ∀ sec, ((s.freeSection x).sections sec).free (secs.count sec) =
        (s.sections sec).free ((x :: secs).count sec) := by
      intro sec
      show (Function.update s.sections x ((s.sections x).free 1) sec).free _ = _
      by_cases hx : sec = x
      · subst hx
        rw [Function.update_self, List.count_cons_self, Nat.add_comm]
        simp only [SectionData.free, Nat.add_assoc]
      · rw [Function.update_of_ne hx, List.count_cons_of_ne fun h => hx h.symm]
    simp only [hsections]
    rfl

theorem releaseFilterRequest_eq (s : SectionFilter n k) (r : Fin k) :
    s.releaseFilterRequest r =
      (s.freeSections (s.requests r).contents).setRequest r
        { s.requests r with sectionsDataQueue := .new, frees := (s.requests r).frees + 1 } := by
  unfold releaseFilterRequest
  rw [RmfQueue.popAll_eq]
  · rfl
  · rw [RmfQueue.length_contents]
    have := (s.requests r).sectionsDataQueue.valid.count_le
    rw [(s.requests r).sectionsDataQueue.capacity_eq] at this
    exact this

/-- Freeing a request changes the request and its sections only. -/
theorem releaseFilterRequest_frame (s : SectionFilter n k) (r : Fin k) :
    (s.releaseFilterRequest r).threads = s.threads ∧
    (s.releaseFilterRequest r).sectionRequests = s.sectionRequests ∧
    (s.releaseFilterRequest r).sectionRequestsToRemove = s.sectionRequestsToRemove ∧
    (s.releaseFilterRequest r).outstandingSections = s.outstandingSections ∧
    (s.releaseFilterRequest r).val = s.val ∧ (s.releaseFilterRequest r).draws = s.draws := by
  rw [releaseFilterRequest_eq, freeSections_eq]
  exact ⟨rfl, rfl, rfl, rfl, rfl, rfl⟩

theorem requests_releaseFilterRequest (s : SectionFilter n k) (r : Fin k) :
    (s.releaseFilterRequest r).requests =
      Function.update s.requests r
        { s.requests r with sectionsDataQueue := .new, frees := (s.requests r).frees + 1 } := by
  rw [releaseFilterRequest_eq, freeSections_eq]
  rfl

/-- The steps of thread `i`, one by one. -/
inductive Moves (read : RmfQueue → Option ℕ × RmfQueue) (s : SectionFilter n k) (i : Fin n) :
    FilterAction k → SectionFilter n k → Prop
  | stay {a : FilterAction k} : Moves read s i a s
  | quiet {a : FilterAction k} {t : FilterThread k} (ht : (s.threads i).Quiet t) :
    Moves read s i a (s.setThread i t)
  | touched {a : FilterAction k} {r : Fin k} {q : SectionRequest} {t : FilterThread k}
      (hq : (s.requests r).Alike q) (ht : (s.threads i).Quiet t) :
    Moves read s i a ((s.setRequest r q).setThread i t)
  | incremented (hi : s.threads i = .idle) :
    Moves read s i .incrementSectionID
      ({ s with val := nextSectionID s.val, draws := s.draws + 1 }.setThread i .incremented)
  | drew (hi : s.threads i = .incremented) :
    Moves read s i .returnSectionID (s.setThread i (.drawn s.val s.draws))
  | lost {sectionID draw id sec : ℕ} {data : List UInt8} (hi : s.threads i = .drawn sectionID draw)
      (hnew : (s.sections sec).passed = false) (hid : s.sectionRequests.lookup id = none) :
    Moves read s i (.sectionAvail id sec data)
      (((s.setSection sec ⟨sectionID, data, true, draw, 0⟩).freeSection sec).setThread i .idle)
  | marked {sectionID draw id sec : ℕ} {data : List UInt8} {r : Fin k}
      (hi : s.threads i = .drawn sectionID draw) (hnew : (s.sections sec).passed = false)
      (hid : s.sectionRequests.lookup id = some r) :
    Moves read s i (.sectionAvail id sec data)
      (((s.setSection sec ⟨sectionID, data, true, draw, 0⟩).setRequest r
        { s.requests r with uiIsSectionUnderProcessing := true }).setThread i (.received r sec))
  | dismissed {r : Fin k} {sec : ℕ} (hi : s.threads i = .received r sec) :
    Moves read s i .countMatch ((s.freeSection sec).setThread i (.finishing r))
  | overflown {r : Fin k} {sec : ℕ} {last : Bool} (hi : s.threads i = .counted r sec last) :
    Moves read s i .push
      (((s.setRequest r (s.requests r).uncount).freeSection sec).setThread i (.finishing r))
  | pushed {r : Fin k} {sec : ℕ} {last : Bool} {q : SectionRequest}
      (hi : s.threads i = .counted r sec last) (hpush : (s.requests r).push sec = some q) :
    Moves read s i .push ((s.setRequest r q).setThread i (.queued r sec last))
  | undelivered {r : Fin k} {sec : ℕ} {last : Bool} {found : Option ℕ} {q : SectionRequest}
      (hi : s.threads i = .queued r sec last)
      (hwithdraw : (s.requests r).uncount.withdraw sec = (found, q)) :
    Moves read s i (.dispatch false)
      (((s.setRequest r q).freeSections found.toList).setThread i (.finishing r))
  | finished {r : Fin k} (hi : s.threads i = .finishing r) :
    Moves read s i .finish
      ((s.setRequest r { s.requests r with uiIsSectionUnderProcessing := false }).setThread i .idle)
  | allocated {r : Fin k} {timesToMatch priority : ℕ} (hi : s.threads i = .idle)
      (hnew : (s.requests r).created = false) :
    Moves read s i (.setFilter r timesToMatch priority)
      ((s.setRequest r
        { matchesRemaining := timesToMatch, priority := priority, created := true }).setThread i
          (.setting r))
  | dropped {r : Fin k} {result : CreateResult} (hi : s.threads i = .setting r) :
    Moves read s i (.create result) ((s.dropRequest r).setThread i .idle)
  | inserted {r : Fin k} {id : ℕ} {allocated : Bool} (hi : s.threads i = .setting r) :
    Moves read s i (.create (.success id allocated))
      (({ s with sectionRequests := s.sectionRequests.insert id r allocated }.setRequest r
        { s.requests r with state := .ready, inserted := allocated }).setThread i (.starting id))
  | removedNone {id : ℕ} (hi : s.threads i = .releasing id) :
    Moves read s i .remove (s.setThread i (.removed none id))
  | removed {id : ℕ} {r : Fin k} {table : SymbolMapTable (Fin k)}
      (hi : s.threads i = .releasing id)
      (hremove : SymbolMapTable.remove id s.sectionRequests = (some r, table)) :
    Moves read s i .remove
      (({ s with sectionRequests := table }.setRequest r
        { s.requests r with released := true }).setThread i (.removed (some r) id))
  | settledNone {id : ℕ} {allocated : Bool} (hi : s.threads i = .removed none id) :
    Moves read s i (.settle allocated) (s.startPurge i)
  | freed {r : Fin k} {id : ℕ} {allocated : Bool} (hi : s.threads i = .removed (some r) id)
      (hmark : (s.requests r).uiIsSectionUnderProcessing = false) :
    Moves read s i (.settle allocated) ((s.releaseFilterRequest r).startPurge i)
  | parked {r : Fin k} {id : ℕ} {allocated : Bool} (hi : s.threads i = .removed (some r) id)
      (hmark : (s.requests r).uiIsSectionUnderProcessing = true)
      (hid : s.sectionRequestsToRemove.lookup id = none) :
    Moves read s i (.settle allocated)
      ({ s with
        sectionRequestsToRemove :=
          s.sectionRequestsToRemove.insert id r allocated }.startPurge i)
  | forgotten {r r' : Fin k} {id : ℕ} {allocated : Bool} (hi : s.threads i = .removed (some r) id)
      (hmark : (s.requests r).uiIsSectionUnderProcessing = true)
      (hid : s.sectionRequestsToRemove.lookup id = some r') :
    Moves read s i (.settle allocated) (s.startPurge i)
  | skipped {key : ℕ} {r : Fin k} {rest : SymbolMapTable (Fin k)}
      (hi : s.threads i = .purging ((key, r) :: rest))
      (hmark : (s.requests r).uiIsSectionUnderProcessing = true) :
    Moves read s i .purgeNext (s.setThread i (.purging rest))
  | purged {key : ℕ} {r : Fin k} {rest : SymbolMapTable (Fin k)}
      (hi : s.threads i = .purging ((key, r) :: rest))
      (hmark : (s.requests r).uiIsSectionUnderProcessing = false) :
    Moves read s i .purgeNext
      (({ s with
        sectionRequestsToRemove :=
          (SymbolMapTable.remove key s.sectionRequestsToRemove).2 }.releaseFilterRequest
            r).setThread i (.purging rest))
  | read {id : ℕ} {r r' : Fin k} {f : Bool} {found : Option ℕ} {q : SectionRequest}
      (hi : s.threads i = .getting id r f) (hid : s.sectionRequests.lookup id = some r')
      (hobtain : (s.requests r').obtain read = (found, q)) :
    Moves read s i .read ((s.setRequest r' q).setThread i (found.elim .idle .holding))
  | handed {sec : ℕ} {allocated : Bool} (hi : s.threads i = .holding sec) :
    Moves read s i (.insertOutstanding allocated)
      ({ s with
        outstandingSections :=
          s.outstandingSections.insert (s.sections sec).sectionID sec allocated }.setThread i .idle)
  | released {a : FilterAction k} {handle sec : ℕ} {table : SymbolMapTable ℕ}
      (ht : (s.threads i).Quiet .idle)
      (hremove : SymbolMapTable.remove handle s.outstandingSections = (some sec, table)) :
    Moves read s i a
      (({ s with outstandingSections := table }.freeSection sec).setThread i .idle)

namespace Moves

theorem of_receive {sectionID draw id sec : ℕ} {data : List UInt8}
    (hi : s.threads i = .drawn sectionID draw) (hnew : (s.sections sec).passed = false) :
    Moves read s i (.sectionAvail id sec data)
      (s.receive i id sec ⟨sectionID, data, true, draw, 0⟩) := by
  unfold receive
  rcases hid : s.sectionRequests.lookup id with _ | r
  · exact .lost hi hnew hid
  · exact .marked hi hnew hid

theorem of_count {r : Fin k} {sec : ℕ} (hi : s.threads i = .received r sec) :
    Moves read s i .countMatch (s.count i r sec) := by
  unfold count
  split_ifs with hdismiss
  · exact .dismissed hi
  · exact .touched (SectionRequest.alike_countMatch _)
      (hi ▸ ⟨fun _ => rfl, fun _ => rfl, fun _ => rfl, fun _ => rfl, trivial⟩)

theorem of_push {r : Fin k} {sec : ℕ} {last : Bool} (hi : s.threads i = .counted r sec last) :
    Moves read s i .push (s.pushSection i r sec last) := by
  unfold pushSection
  rcases hpush : (s.requests r).push sec with _ | q
  · exact .overflown hi
  · exact .pushed hi hpush

theorem of_dispatch {r : Fin k} {sec : ℕ} {last ok : Bool}
    (hi : s.threads i = .queued r sec last) :
    Moves read s i (.dispatch ok) (s.dispatch i r sec last ok) := by
  unfold dispatch
  rcases ok with _ | _
  · rw [if_neg Bool.false_ne_true]
    exact .undelivered hi rfl
  · rw [if_pos rfl]
    exact .touched (SectionRequest.alike_deliver _ _ _)
      (hi ▸ ⟨fun _ => rfl, fun _ => rfl, fun _ => rfl, fun _ => rfl, trivial⟩)

theorem of_create {r : Fin k} {result : CreateResult} (hi : s.threads i = .setting r) :
    Moves read s i (.create result) (s.create i r result) := by
  cases result with
  | noFilterRes =>
    unfold create
    rcases s.getLowestPriorityFilter (s.requests r).priority with _ | id
    · exact .dropped hi
    · exact .quiet (hi ▸ ⟨fun _ => rfl, fun _ => rfl, fun _ => rfl, fun _ => rfl, trivial⟩)
  | error => exact .dropped hi
  | success id allocated => exact .inserted hi

/-- `ReleaseFilter`, by itself or from `SetFilter`, begins with looking up only. -/
theorem of_releaseFilter {a : FilterAction k} {id : ℕ} (ht : (s.threads i).Quiet .idle) :
    Moves read s i a (s.releaseFilter i id) := by
  obtain ⟨hprocesses, howns, hreleases, hcarries, -⟩ := ht
  unfold releaseFilter
  rcases s.sectionRequests.lookup id with _ | r
  · exact .quiet ⟨hprocesses, howns, hreleases, hcarries, trivial⟩
  · dsimp only
    split_ifs
    · exact .quiet ⟨hprocesses, howns, hreleases, hcarries, trivial⟩
    · exact .quiet ⟨hprocesses, howns, hreleases, hcarries, trivial⟩

theorem of_remove {id : ℕ} (hi : s.threads i = .releasing id) :
    Moves read s i .remove (s.removeRequest i id) := by
  unfold removeRequest
  rcases SymbolMapTable.remove_cases id s.sectionRequests with
    ⟨hremove, -⟩ | ⟨front, r, back, -, -, hremove⟩
  · rw [hremove]
    exact .removedNone hi
  · rw [hremove]
    exact .removed hi hremove

theorem of_settle {r : Fin k} {id : ℕ} {allocated : Bool}
    (hi : s.threads i = .removed (some r) id) :
    Moves read s i (.settle allocated) ((s.settleRequest r id allocated).startPurge i) := by
  unfold settleRequest
  split_ifs with hmark
  · rcases hid : s.sectionRequestsToRemove.lookup id with _ | r'
    · exact .parked hi hmark hid
    · exact .forgotten hi hmark hid
  · exact .freed hi (Bool.not_eq_true _ ▸ hmark)

theorem of_purge {key : ℕ} {r : Fin k} {rest : SymbolMapTable (Fin k)}
    (hi : s.threads i = .purging ((key, r) :: rest)) :
    Moves read s i .purgeNext ((s.purgeNode key r).setThread i (.purging rest)) := by
  unfold purgeNode
  split_ifs with hmark
  · exact .skipped hi hmark
  · exact .purged hi (Bool.not_eq_true _ ▸ hmark)

theorem of_read {id : ℕ} {r : Fin k} {f : Bool} (hi : s.threads i = .getting id r f) :
    Moves read s i .read (s.readQueue read i id r f) := by
  have hidle : (s.threads i).Quiet .idle :=
    hi ▸ ⟨fun _ => rfl, fun _ => rfl, fun _ => rfl, fun _ => rfl, trivial⟩
  unfold readQueue
  split_ifs
  · exact .quiet hidle
  · rcases hid : s.sectionRequests.lookup id with _ | r'
    · exact .quiet hidle
    · exact .read hi hid rfl

theorem of_releaseSection {a : FilterAction k} {handle : ℕ} (ht : (s.threads i).Quiet .idle) :
    Moves read s i a ((s.releaseSection handle).setThread i .idle) := by
  unfold releaseSection
  rcases SymbolMapTable.remove_cases handle s.outstandingSections with
    ⟨hremove, -⟩ | ⟨front, sec, back, -, -, hremove⟩
  · rw [hremove]
    exact .quiet ht
  · rw [hremove]
    exact .released ht hremove

end Moves

theorem threads_releaseSection (s : SectionFilter n k) (handle : ℕ) (j : Fin n) :
    (s.releaseSection handle).threads j = s.threads j := by
  unfold releaseSection
  rcases SymbolMapTable.remove handle s.outstandingSections with ⟨_ | sec, table⟩
  · rfl
  · rfl

/-- A thread that is idle stays so where nothing is said of it. -/
theorem setThread_idle (hi : s.threads i = .idle) : s.setThread i .idle = s := by
  unfold setThread
  rw [← hi, Function.update_eq_self]

/-- **Inversion.** -/
theorem step_moves {a : FilterAction k} (hstep : s.step read (i, a) = some s') :
    s.Moves read i a s' := by
  unfold step at hstep
  dsimp only at hstep
  split at hstep
  case h_1 hi =>
    cases hstep
    exact .incremented hi
  case h_2 hi =>
    cases hstep
    exact .drew hi
  case h_3 hi =>
    split_ifs at hstep with hnew
    cases hstep
    exact .of_receive hi (Bool.not_eq_true _ ▸ hnew)
  case h_4 hi =>
    cases hstep
    exact .of_count hi
  case h_5 hi =>
    cases hstep
    exact .of_push hi
  case h_6 hi =>
    cases hstep
    exact .of_dispatch hi
  case h_7 hi =>
    cases hstep
    exact .finished hi
  case h_8 hi =>
    split_ifs at hstep with hnew hpriority
    · cases hstep
      exact .stay
    · cases hstep
      exact .allocated hi (Bool.not_eq_true _ ▸ hnew)
  case h_9 hi =>
    cases hstep
    exact .of_create hi
  case h_10 hi =>
    cases hstep
    split_ifs
    · exact .quiet (hi ▸ ⟨fun _ => rfl, fun _ => rfl, fun _ => rfl, fun _ => rfl, trivial⟩)
    · exact .of_releaseFilter (hi ▸ ⟨fun _ => rfl, fun _ => rfl, fun _ => rfl, fun _ => rfl, trivial⟩)
  case h_11 hi =>
    cases hstep
    exact .quiet (hi ▸ ⟨fun _ => rfl, fun _ => rfl, fun _ => rfl, fun _ => rfl, trivial⟩)
  case h_12 id next hi =>
    -- the request that is to be cancelled may be gone
    rcases hid : s.sectionRequests.lookup id with _ | r
    · rw [hid] at hstep
      cases hstep
      cases next <;>
        exact .quiet (hi ▸ ⟨fun _ => rfl, fun _ => rfl, fun _ => rfl, fun _ => rfl, trivial⟩)
    · rw [hid] at hstep
      cases hstep
      cases next <;>
        exact .quiet (hi ▸ ⟨fun _ => rfl, fun _ => rfl, fun _ => rfl, fun _ => rfl, trivial⟩)
  case h_13 r next hi =>
    cases hstep
    cases next <;>
      exact .touched (SectionRequest.alike_cancel _)
        (hi ▸ ⟨fun _ => rfl, fun _ => rfl, fun _ => rfl, fun _ => rfl, trivial⟩)
  case h_14 hi =>
    cases hstep
    exact .of_releaseFilter (.idle hi)
  case h_15 hi =>
    cases hstep
    exact .of_remove hi
  case h_16 hi =>
    cases hstep
    exact .settledNone hi
  case h_17 hi =>
    cases hstep
    exact .of_settle hi
  case h_18 hi =>
    cases hstep
    exact .quiet (hi ▸ ⟨fun _ => rfl, fun _ => rfl, fun _ => rfl, fun _ => rfl, trivial⟩)
  case h_19 hi =>
    cases hstep
    exact .of_purge hi
  case h_20 id ifNotCancelled hi =>
    rcases hid : s.sectionRequests.lookup id with _ | r
    · rw [hid] at hstep
      cases hstep
      exact .stay
    · rw [hid] at hstep
      cases hstep
      exact .quiet (hi ▸ ⟨fun _ => rfl, fun _ => rfl, fun _ => rfl, fun _ => rfl, trivial⟩)
  case h_21 hi =>
    cases hstep
    exact .of_read hi
  case h_22 hi =>
    cases hstep
    exact .handed hi
  case h_23 hi =>
    split_ifs at hstep with hread
    · cases hstep
      exact .quiet (hi ▸ ⟨fun _ => rfl, fun _ => rfl, fun _ => rfl, fun _ => rfl, trivial⟩)
    · cases hstep
      exact .stay
  case h_24 hi =>
    cases hstep
    exact .of_releaseSection (hi ▸ ⟨fun _ => rfl, fun _ => rfl, fun _ => rfl, fun _ => rfl, trivial⟩)
  case h_25 handle hi =>
    cases hstep
    have hmoves : s.Moves read i (.releaseSection handle)
        ((s.releaseSection handle).setThread i .idle) := .of_releaseSection (.idle hi)
    rwa [setThread_idle] at hmoves
    exact (threads_releaseSection s handle i).trans hi
  case h_26 => cases hstep

end SectionFilter

end MediaFramework
