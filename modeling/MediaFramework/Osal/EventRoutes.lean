import Mathlib.Data.BitVec
import MediaFramework.Lib.KeyedList
import MediaFramework.Lib.Run
import MediaFramework.Lib.Slots

/-!
# The routes of the event managers

An event manager has a route for each category of events that some queue is registered for: a
list of queues. A queue has an array of the managers that it is registered with, from which it
is unregistered when it is deleted.

A registration is not looked for in the route before it is added, and `unregister_handler` takes
one entry for the queue out of each route. The array is of a fixed size, and neither an array
that is full nor a route that could not be allocated is reported.
-/

namespace MediaFramework

open Function (update update_of_ne update_self)

/-- `MAX_EVENTMANAGER_PER_QUEUE`. -/
abbrev maxEventmanagerPerQueue : ℕ := 64

/-- The address of an event manager. -/
abbrev EventmanagerHandle := ℕ

/-- The address of an event queue. -/
abbrev EventqueueHandle := ℕ

/-- `rmf_osal_event_category_t`. -/
abbrev EventCategory := BitVec 32

/-- The values of `rmf_Error` that the calls return. -/
inductive RmfError
  | success
  | einval
  | enomem
  | enodata
  deriving DecidableEq

/-! ## Routes -/

/-- `rmf_osal_eventmanager_routing_entry_t`. -/
structure RoutingEntry where
  eventCategory : EventCategory
  eventqueuelist : List EventqueueHandle
  deriving DecidableEq

/-- `rmf_osal_eventmanager_get_route`. -/
def getRoute (c : EventCategory) (routes : List RoutingEntry) : Option RoutingEntry :=
  KeyedList.lookup RoutingEntry.eventCategory c routes

/-- The queues that an event of the category is added to. -/
def queuesFor (c : EventCategory) (routes : List RoutingEntry) : List EventqueueHandle :=
  ((getRoute c routes).map RoutingEntry.eventqueuelist).getD []

/-- The entry goes to the head of the list of queues. -/
def RoutingEntry.add (q : EventqueueHandle) (r : RoutingEntry) : RoutingEntry :=
  { r with eventqueuelist := q :: r.eventqueuelist }

/-- What `register_handler` does to the routes: `routeMemory` tells whether a new route can be
allocated. -/
def addHandler (q : EventqueueHandle) (c : EventCategory) (routeMemory : Bool)
    (routes : List RoutingEntry) : List RoutingEntry :=
  match getRoute c routes with
  | some _ => KeyedList.modify RoutingEntry.eventCategory c (RoutingEntry.add q) routes
  -- the error is overwritten by what the association returns
  | none => if routeMemory then ⟨c, [q]⟩ :: routes else routes

/-- The route after `unregister_handler`: it `break`s at the first entry for the queue, and a
route whose only entry that is is deleted. -/
def RoutingEntry.without (q : EventqueueHandle) (r : RoutingEntry) : Option RoutingEntry :=
  if r.eventqueuelist = [q] then none
  else some { r with eventqueuelist := r.eventqueuelist.erase q }

/-- What `unregister_handler` does to the routes. -/
def removeHandler (q : EventqueueHandle) (routes : List RoutingEntry) : List RoutingEntry :=
  routes.filterMap (RoutingEntry.without q)

section Routes

variable {q : EventqueueHandle} {c c' : EventCategory} {routeMemory : Bool}
  {routes : List RoutingEntry}

/-- One route for a category. -/
abbrev DistinctRoutes (routes : List RoutingEntry) : Prop :=
  KeyedList.Distinct RoutingEntry.eventCategory routes

theorem RoutingEntry.eventCategory_without {r r' : RoutingEntry} (h : r.without q = some r') :
    r'.eventCategory = r.eventCategory := by
  unfold RoutingEntry.without at h
  split_ifs at h
  rw [← Option.some.inj h]

theorem mem_queuesFor_iff :
    q ∈ queuesFor c routes ↔ ∃ r ∈ getRoute c routes, q ∈ r.eventqueuelist := by
  unfold queuesFor
  cases getRoute c routes <;> simp

/-- **Adding.** The queue is added for the category if there is a route for it, or can be. -/
theorem queuesFor_addHandler : queuesFor c' (addHandler q c routeMemory routes) =
    if c' = c ∧ (routeMemory = true ∨ (getRoute c routes).isSome = true) then
      q :: queuesFor c' routes
    else queuesFor c' routes := by
  have hnew (r : RoutingEntry) (hr : r.eventCategory = c) (hc : c' ≠ c) :
      queuesFor c' (r :: routes) = queuesFor c' routes := by
    unfold queuesFor getRoute
    rw [KeyedList.lookup_cons_ne (hr ▸ hc.symm)]
  have hadd (r : RoutingEntry) : (r.add q).eventCategory = r.eventCategory := rfl
  unfold addHandler
  by_cases hc : c' = c
  · subst hc
    rcases hroute : getRoute c' routes with _ | r
    · cases routeMemory with
      | false => simp
      | true =>
        simp only [if_true, queuesFor, hroute]
        unfold getRoute
        rw [KeyedList.lookup_cons_self (e := (⟨c', [q]⟩ : RoutingEntry)) rfl]
        simp
    · simp only [queuesFor, hroute]
      unfold getRoute at hroute ⊢
      rw [KeyedList.lookup_modify_self hadd, hroute]
      simp [RoutingEntry.add]
  · simp only [hc, false_and, if_false]
    rcases getRoute c routes with _ | r
    · cases routeMemory with
      | false => rfl
      | true => exact hnew _ rfl hc
    · unfold queuesFor getRoute
      rw [KeyedList.lookup_modify_ne hadd hc]

theorem DistinctRoutes.addHandler (h : DistinctRoutes routes) :
    DistinctRoutes (addHandler q c routeMemory routes) := by
  unfold MediaFramework.addHandler
  rcases hroute : getRoute c routes with _ | r
  · by_cases hmemory : routeMemory = true
    · simp only [hmemory, if_true]
      exact KeyedList.distinct_cons.mpr ⟨hroute, h⟩
    · simpa [hmemory] using h
  · exact KeyedList.Distinct.modify (fun _ => rfl) h

/-- **Removing.** One entry for the queue is taken out for each category. -/
theorem queuesFor_removeHandler (h : DistinctRoutes routes) :
    queuesFor c (removeHandler q routes) = (queuesFor c routes).erase q := by
  have hlookup : getRoute c (removeHandler q routes) =
      (getRoute c routes).bind (RoutingEntry.without q) :=
    KeyedList.lookup_filterMap (fun _ _ => RoutingEntry.eventCategory_without) h
  unfold queuesFor
  rw [hlookup]
  rcases getRoute c routes with _ | r
  · rfl
  · rw [Option.bind_some, RoutingEntry.without]
    by_cases hr : r.eventqueuelist = [q]
    · simp [hr]
    · rw [if_neg hr]
      rfl

theorem DistinctRoutes.removeHandler (h : DistinctRoutes routes) :
    DistinctRoutes (removeHandler q routes) :=
  KeyedList.Distinct.filterMap (fun _ _ => RoutingEntry.eventCategory_without) h

end Routes

/-! ## The managers of a queue -/

/-- `eventqueue->eventmanager`: the managers that the queue is registered with, each once. -/
structure AssociatedManagers where
  slots : List (Option EventmanagerHandle)
  length_slots : slots.length = maxEventmanagerPerQueue
  distinct : slots.reduceOption.Nodup

namespace AssociatedManagers

/-- The managers in the array, in its order. -/
def managers (a : AssociatedManagers) : List EventmanagerHandle := a.slots.reduceOption

/-- The array of a new queue. -/
def empty : AssociatedManagers where
  slots := List.replicate maxEventmanagerPerQueue none
  length_slots := List.length_replicate
  distinct := by
    rw [List.reduceOption_replicate_none]
    exact List.nodup_nil

/-- `rmf_osal_eventqueue_associate_eventmanager`: with all slots taken the array is as it was. -/
def associate (m : EventmanagerHandle) (a : AssociatedManagers) : AssociatedManagers where
  slots := if m ∈ a.managers then a.slots else fillFirst m a.slots
  length_slots := by
    split_ifs
    · exact a.length_slots
    · exact length_fillFirst.trans a.length_slots
  distinct := by
    split_ifs with hm
    · exact a.distinct
    · by_cases hfree : none ∈ a.slots
      · exact (reduceOption_fillFirst hfree).nodup_iff.mpr (List.nodup_cons.mpr ⟨hm, a.distinct⟩)
      · rw [fillFirst_of_full hfree]
        exact a.distinct

/-- `rmf_osal_eventqueue_dissociate_eventmanager`. -/
def dissociate (m : EventmanagerHandle) (a : AssociatedManagers) : AssociatedManagers where
  slots := clearAll m a.slots
  length_slots := length_clearAll.trans a.length_slots
  distinct := by
    rw [reduceOption_clearAll]
    exact a.distinct.filter _

/-- The manager is in the array, or there is a slot for it. -/
def HasRoom (a : AssociatedManagers) (m : EventmanagerHandle) : Prop :=
  m ∈ a.managers ∨ none ∈ a.slots

variable {a : AssociatedManagers} {m m' : EventmanagerHandle}

theorem mem_managers_associate :
    m' ∈ (a.associate m).managers ↔ m' ∈ a.managers ∨ (m' = m ∧ a.HasRoom m) := by
  by_cases hm : m ∈ a.managers
  · have hslots : (a.associate m).managers = a.managers := congrArg List.reduceOption (if_pos hm)
    rw [hslots]
    refine ⟨.inl, ?_⟩
    rintro (h | ⟨rfl, -⟩)
    · exact h
    · exact hm
  · have hslots : (a.associate m).managers = (fillFirst m a.slots).reduceOption :=
      congrArg List.reduceOption (if_neg hm)
    rw [hslots, mem_fillFirst_iff]
    unfold HasRoom
    rw [or_iff_right hm]
    rfl

theorem mem_managers_dissociate :
    m' ∈ (a.dissociate m).managers ↔ m' ∈ a.managers ∧ m' ≠ m := by
  unfold managers dissociate
  rw [reduceOption_clearAll, List.mem_filter, decide_eq_true_eq]

end AssociatedManagers

/-! ## The calls -/

/-- A registration. -/
structure Registration where
  manager : EventmanagerHandle
  category : EventCategory
  queue : EventqueueHandle
  deriving DecidableEq

/-- The event managers and the queues registered with them. -/
structure EventRouting where
  /-- `g_eventmanager` -/
  default : Option EventmanagerHandle
  /-- the `routelist` of each manager -/
  routelist : EventmanagerHandle → List RoutingEntry := fun _ => []
  /-- the array of each queue that exists -/
  queues : EventqueueHandle → Option AssociatedManagers := fun _ => none
  /-- ghost: what was registered with success, and neither unregistered nor deleted since -/
  registered : List Registration := []

/-- A call. The memory that it asks for is there or not. -/
inductive RoutingCall
  | create (q : EventqueueHandle)
  /-- a null `handle` is for the default manager -/
  | register (handle : Option EventmanagerHandle) (q : EventqueueHandle) (c : EventCategory)
    (entryMemory routeMemory : Bool)
  | unregister (handle : Option EventmanagerHandle) (q : EventqueueHandle)
  | delete (q : EventqueueHandle)

/-- The queue that a call is about. -/
def RoutingCall.queue : RoutingCall → EventqueueHandle
  | .create q | .register _ q _ _ _ | .unregister _ q | .delete q => q

namespace EventRouting

/-- The manager that a handle is for. -/
def manager (s : EventRouting) (handle : Option EventmanagerHandle) : Option EventmanagerHandle :=
  handle.or s.default

/-- The queues that a manager adds an event of the category to. -/
def targets (s : EventRouting) (m : EventmanagerHandle) (c : EventCategory) :
    List EventqueueHandle :=
  queuesFor c (s.routelist m)

/-- The queues that `dispatch_event` adds an event of the category to, in order. -/
def dispatchEvent (s : EventRouting) (handle : Option EventmanagerHandle) (c : EventCategory) :
    List EventqueueHandle :=
  match s.manager handle with
  | none => []
  | some m => s.targets m c

/-- `rmf_osal_eventmanager_register_handler`. -/
def registerHandler (s : EventRouting) (handle : Option EventmanagerHandle) (q : EventqueueHandle)
    (c : EventCategory) (entryMemory routeMemory : Bool) : RmfError × EventRouting :=
  match s.manager handle with
  | none => (.einval, s)
  | some m =>
    if entryMemory then
      -- what is returned is whether the mutex could be released
      (.success, { s with
        routelist := update s.routelist m (addHandler q c routeMemory (s.routelist m))
        queues := update s.queues q ((s.queues q).map (·.associate m))
        registered := ⟨m, c, q⟩ :: s.registered })
    else (.enomem, s)

/-- Some route of the manager has the queue. -/
def RefersTo (s : EventRouting) (m : EventmanagerHandle) (q : EventqueueHandle) : Prop :=
  ∃ r ∈ s.routelist m, q ∈ r.eventqueuelist

instance {s : EventRouting} {m : EventmanagerHandle} {q : EventqueueHandle} :
    Decidable (s.RefersTo m q) :=
  inferInstanceAs (Decidable (∃ r ∈ s.routelist m, q ∈ r.eventqueuelist))

/-- The queue is taken out of the routes of the manager, and the manager out of its array. -/
def remove (s : EventRouting) (m : EventmanagerHandle) (q : EventqueueHandle) : EventRouting :=
  { s with
    routelist := update s.routelist m (removeHandler q (s.routelist m))
    queues := update s.queues q ((s.queues q).map (·.dissociate m))
    registered := s.registered.filter fun r => ¬ (r.manager = m ∧ r.queue = q) }

/-- `rmf_osal_eventmanager_unregister_handler`. -/
def unregisterHandler (s : EventRouting) (handle : Option EventmanagerHandle)
    (q : EventqueueHandle) : RmfError × EventRouting :=
  match s.manager handle with
  | none => (.einval, s)
  | some m => if s.RefersTo m q then (.success, s.remove m q) else (.enodata, s)

/-- The loop of `eventqueue_delete`: it returns at the first error. -/
def unregisterAll (q : EventqueueHandle) :
    List EventmanagerHandle → EventRouting → RmfError × EventRouting
  | [], s => (.success, s)
  | m :: ms, s =>
    match s.unregisterHandler (some m) q with
    | (.success, s') => unregisterAll q ms s'
    | failed => failed

/-- `rmf_osal_eventqueue_delete`, with the array of the queue. -/
def eventqueueDelete (s : EventRouting) (q : EventqueueHandle) (a : AssociatedManagers) :
    RmfError × EventRouting :=
  match unregisterAll q a.managers s with
  | (.success, s') => (.success, { s' with
      queues := update s'.queues q none
      registered := s'.registered.filter fun r => r.queue ≠ q })
  | failed => failed

/-- A call, on a queue that exists, and what it returns. -/
def perform (s : EventRouting) : RoutingCall → Option (RmfError × EventRouting)
  | .create q =>
    match s.queues q with
    -- the memory of the queue is not in use
    | none => some (.success, { s with queues := update s.queues q (some .empty) })
    | some _ => none
  | .register handle q c entryMemory routeMemory =>
    (s.queues q).map fun _ => s.registerHandler handle q c entryMemory routeMemory
  | .unregister handle q => (s.queues q).map fun _ => s.unregisterHandler handle q
  | .delete q => (s.queues q).map (s.eventqueueDelete q)

/-- The state after a call. -/
def step (s : EventRouting) (call : RoutingCall) : Option EventRouting :=
  (s.perform call).map Prod.snd

/-! ## What is asked of the calls -/

/-- **Dispatching.** An event is added to exactly the queues that are registered for its
category. -/
def Sound (s : EventRouting) : Prop :=
  ∀ handle m, s.manager handle = some m → ∀ c q,
    q ∈ s.dispatchEvent handle c ↔ ⟨m, c, q⟩ ∈ s.registered

/-- The routes of all other queues are as before. -/
def KeepsOthers (q : EventqueueHandle) (s s' : EventRouting) : Prop :=
  ∀ m c, (s'.targets m c).filter (· ≠ q) = (s.targets m c).filter (· ≠ q)

/-- What the call was to take out of the routes is not in them. -/
def Cleared (s s' : EventRouting) : RoutingCall → Prop
  | .unregister handle q => ∀ m ∈ s.manager handle, ¬ s'.RefersTo m q
  | .delete q => ∀ m, ¬ s'.RefersTo m q
  | _ => True

/-- **What a call does.** -/
def Behaves (s : EventRouting) (call : RoutingCall) : Prop :=
  ∀ e s', s.perform call = some (e, s') →
    KeepsOthers call.queue s s' ∧ (e = .success → Cleared s s' call)

/-- No route of the manager has the queue twice. -/
def Single (s : EventRouting) (m : EventmanagerHandle) (q : EventqueueHandle) : Prop :=
  ∀ c, (s.targets m c).count q ≤ 1

/-- **The condition of a call.** The queue exists. There is a route to register it in, or memory
for one. No route has it twice that it is to be taken out of, and the managers whose routes have
a queue that is deleted are in its array. -/
def Orderly (s : EventRouting) : RoutingCall → Prop
  | .create q => s.queues q = none
  | .register handle q c entryMemory routeMemory =>
    (s.queues q).isSome = true ∧ ∀ m ∈ s.manager handle, entryMemory = true →
      routeMemory = true ∨ (getRoute c (s.routelist m)).isSome = true
  | .unregister handle q => (s.queues q).isSome = true ∧ ∀ m ∈ s.manager handle, s.Single m q
  | .delete q =>
    ∃ a ∈ s.queues q, ∀ m, s.Single m q ∧ (s.RefersTo m q → m ∈ a.managers)

/-- What holds between the calls: the routes are of different categories, a registered queue
exists, and the managers in the array of a queue have it in a route. -/
structure Linked (s : EventRouting) : Prop where
  distinct : ∀ m, DistinctRoutes (s.routelist m)
  live : ∀ r ∈ s.registered, (s.queues r.queue).isSome = true
  routed : ∀ q, ∀ a ∈ s.queues q, ∀ m ∈ a.managers, s.RefersTo m q

/-! ## What one call does -/

variable {s s' : EventRouting} {m m' : EventmanagerHandle} {q q' : EventqueueHandle}
  {c c' : EventCategory} {handle : Option EventmanagerHandle}

theorem dispatchEvent_eq (h : s.manager handle = some m) :
    s.dispatchEvent handle c = s.targets m c := by
  unfold dispatchEvent
  rw [h]

theorem sound_iff :
    s.Sound ↔ ∀ m c q, q ∈ s.targets m c ↔ ⟨m, c, q⟩ ∈ s.registered := by
  refine ⟨fun h m c q => ?_, fun h handle m hm c q => ?_⟩
  · have hm : s.manager (some m) = some m := rfl
    rw [← dispatchEvent_eq hm]
    exact h (some m) m hm c q
  · rw [dispatchEvent_eq hm]
    exact h m c q

theorem refersTo_iff (h : DistinctRoutes (s.routelist m)) :
    s.RefersTo m q ↔ ∃ c, q ∈ s.targets m c := by
  refine ⟨fun hr => ?_, fun hc => ?_⟩
  · obtain ⟨r, hr, hq⟩ := hr
    exact ⟨r.eventCategory, mem_queuesFor_iff.mpr ⟨r, KeyedList.lookup_of_mem h hr, hq⟩⟩
  · obtain ⟨c, hq⟩ := hc
    obtain ⟨r, hr, hq⟩ := mem_queuesFor_iff.mp hq
    exact ⟨r, KeyedList.mem_of_lookup hr, hq⟩

theorem KeepsOthers.refl : KeepsOthers q s s := fun _ _ => rfl

theorem KeepsOthers.trans {s'' : EventRouting} (h : KeepsOthers q s s')
    (h' : KeepsOthers q s' s'') : KeepsOthers q s s'' :=
  fun m c => (h' m c).trans (h m c)

theorem KeepsOthers.mem_iff (h : KeepsOthers q s s') (hq : q' ≠ q) :
    q' ∈ s'.targets m c ↔ q' ∈ s.targets m c := by
  have hiff (l : List EventqueueHandle) : q' ∈ l ↔ q' ∈ l.filter (· ≠ q) := by simp [hq]
  rw [hiff, h m c, ← hiff]

/-! ### Registering -/

/-- There is a route for the category, or memory for one. -/
abbrev CanRoute (s : EventRouting) (m : EventmanagerHandle) (c : EventCategory)
    (routeMemory : Bool) : Prop :=
  routeMemory = true ∨ (getRoute c (s.routelist m)).isSome = true

/-- The state after a registration that returned success. -/
def afterRegister (s : EventRouting) (m : EventmanagerHandle) (q : EventqueueHandle)
    (c : EventCategory) (routeMemory : Bool) : EventRouting :=
  { s with
    routelist := update s.routelist m (addHandler q c routeMemory (s.routelist m))
    queues := update s.queues q ((s.queues q).map (·.associate m))
    registered := ⟨m, c, q⟩ :: s.registered }

variable {routeMemory entryMemory : Bool}

/-- A registration fails without a trace, or returns success. -/
theorem registerHandler_cases : (s.registerHandler handle q c entryMemory routeMemory).2 = s ∨
    ∃ m ∈ s.manager handle, entryMemory = true ∧
      (s.registerHandler handle q c entryMemory routeMemory).2 =
        s.afterRegister m q c routeMemory := by
  unfold registerHandler
  rcases s.manager handle with _ | m
  · exact .inl rfl
  · cases entryMemory with
    | false => exact .inl rfl
    | true => exact .inr ⟨m, rfl, rfl, rfl⟩

theorem targets_afterRegister : (s.afterRegister m q c routeMemory).targets m' c' =
    if m' = m ∧ c' = c ∧ s.CanRoute m c routeMemory then q :: s.targets m' c'
    else s.targets m' c' := by
  by_cases hm : m' = m
  · subst hm
    have hroutes : (s.afterRegister m' q c routeMemory).routelist m' =
        addHandler q c routeMemory (s.routelist m') := update_self ..
    unfold targets
    rw [hroutes, queuesFor_addHandler]
    simp only [true_and]
  · have hroutes : (s.afterRegister m q c routeMemory).routelist m' = s.routelist m' :=
      update_of_ne hm ..
    unfold targets
    rw [hroutes, if_neg fun h => hm h.1]

theorem keepsOthers_afterRegister : KeepsOthers q s (s.afterRegister m q c routeMemory) := by
  intro m' c'
  rw [targets_afterRegister]
  split_ifs
  · exact List.filter_cons_of_neg (by simp)
  · rfl

theorem mem_targets_afterRegister :
    q' ∈ (s.afterRegister m q c routeMemory).targets m' c' ↔
      (m' = m ∧ c' = c ∧ q' = q ∧ s.CanRoute m c routeMemory) ∨ q' ∈ s.targets m' c' := by
  rw [targets_afterRegister]
  split_ifs with h
  · rw [List.mem_cons]
    simp [h]
  · refine ⟨.inr, fun h' => h'.resolve_left fun hn => h ⟨hn.1, hn.2.1, hn.2.2.2⟩⟩

/-- **Registering.** What is dispatched is right after it exactly when there is a route. -/
theorem sound_afterRegister_iff (h : s.Sound) :
    (s.afterRegister m q c routeMemory).Sound ↔ s.CanRoute m c routeMemory := by
  have hs := sound_iff.mp h
  rw [sound_iff]
  refine ⟨fun h' => ?_, fun hroute m' c' q' => ?_⟩
  · by_contra hroute
    have hmem := (h' m c q).mpr List.mem_cons_self
    rw [targets_afterRegister, if_neg fun h => hroute h.2.2] at hmem
    obtain ⟨r, hr, -⟩ := mem_queuesFor_iff.mp hmem
    exact hroute (.inr (Option.isSome_iff_exists.mpr ⟨r, hr⟩))
  · have hregistered : (s.afterRegister m q c routeMemory).registered =
        ⟨m, c, q⟩ :: s.registered := rfl
    rw [mem_targets_afterRegister, hregistered, List.mem_cons, hs m' c' q', Registration.mk.injEq]
    simp only [hroute, and_true]

theorem linked_afterRegister (h : s.Linked) (hlive : (s.queues q).isSome = true)
    (hroute : s.CanRoute m c routeMemory) : (s.afterRegister m q c routeMemory).Linked := by
  have hdistinct : ∀ m', DistinctRoutes ((s.afterRegister m q c routeMemory).routelist m') := by
    intro m'
    by_cases hm : m' = m
    · subst hm
      have hroutes : (s.afterRegister m' q c routeMemory).routelist m' =
          addHandler q c routeMemory (s.routelist m') := update_self ..
      rw [hroutes]
      exact (h.distinct m').addHandler
    · have hroutes : (s.afterRegister m q c routeMemory).routelist m' = s.routelist m' :=
        update_of_ne hm ..
      rw [hroutes]
      exact h.distinct m'
  obtain ⟨a, ha⟩ := Option.isSome_iff_exists.mp hlive
  have hself : (s.afterRegister m q c routeMemory).queues q = some (a.associate m) :=
    (update_self ..).trans (congrArg (Option.map (·.associate m)) ha)
  have hother : ∀ q', q' ≠ q → (s.afterRegister m q c routeMemory).queues q' = s.queues q' :=
    fun q' hq => update_of_ne hq ..
  have hgrows : ∀ q' m', s.RefersTo m' q' → (s.afterRegister m q c routeMemory).RefersTo m' q' := by
    intro q' m' hr
    obtain ⟨c', hc⟩ := (refersTo_iff (h.distinct m')).mp hr
    exact (refersTo_iff (hdistinct m')).mpr ⟨c', mem_targets_afterRegister.mpr (.inr hc)⟩
  refine ⟨hdistinct, fun r hr => ?_, fun q' a' ha' m' hm' => ?_⟩
  · by_cases hq : r.queue = q
    · rw [hq, hself]
      rfl
    · rw [hother _ hq]
      rcases List.mem_cons.mp hr with rfl | hr
      · exact absurd rfl hq
      · exact h.live r hr
  · by_cases hq : q' = q
    · subst hq
      obtain rfl := Option.some.inj (hself.symm.trans ha')
      rcases AssociatedManagers.mem_managers_associate.mp hm' with hm' | ⟨rfl, -⟩
      · exact hgrows q' m' (h.routed q' a ha m' hm')
      · exact (refersTo_iff (hdistinct m')).mpr
          ⟨c, mem_targets_afterRegister.mpr (.inl ⟨rfl, rfl, rfl, hroute⟩)⟩
    · rw [hother q' hq] at ha'
      exact hgrows q' m' (h.routed q' a' ha' m' hm')

/-! ### Unregistering -/

theorem targets_remove (h : DistinctRoutes (s.routelist m)) : (s.remove m q).targets m' c =
    if m' = m then (s.targets m' c).erase q else s.targets m' c := by
  by_cases hm : m' = m
  · subst hm
    have hroutes : (s.remove m' q).routelist m' = removeHandler q (s.routelist m') :=
      update_self ..
    unfold targets
    rw [hroutes, if_pos rfl, queuesFor_removeHandler h]
  · have hroutes : (s.remove m q).routelist m' = s.routelist m' := update_of_ne hm ..
    unfold targets
    rw [hroutes, if_neg hm]

theorem keepsOthers_remove (h : DistinctRoutes (s.routelist m)) :
    KeepsOthers q s (s.remove m q) := by
  intro m' c
  rw [targets_remove h]
  split_ifs
  · rw [← List.erase_filter]
    exact List.erase_of_not_mem (by simp)
  · rfl

theorem distinct_remove (h : ∀ m, DistinctRoutes (s.routelist m)) :
    ∀ m', DistinctRoutes ((s.remove m q).routelist m') := by
  intro m'
  by_cases hm : m' = m
  · subst hm
    have hroutes : (s.remove m' q).routelist m' = removeHandler q (s.routelist m') :=
      update_self ..
    rw [hroutes]
    exact (h m').removeHandler
  · have hroutes : (s.remove m q).routelist m' = s.routelist m' := update_of_ne hm ..
    rw [hroutes]
    exact h m'

/-- One entry is left of two. -/
theorem refersTo_remove_iff (h : ∀ m, DistinctRoutes (s.routelist m)) :
    (s.remove m q).RefersTo m q ↔ ¬ s.Single m q := by
  rw [refersTo_iff (distinct_remove h m)]
  unfold Single
  rw [not_forall]
  refine exists_congr fun c => ?_
  rw [targets_remove (h m), if_pos rfl, ← List.count_pos_iff, List.count_erase_self]
  omega

theorem mem_registered_remove {r : Registration} : r ∈ (s.remove m q).registered ↔
    r ∈ s.registered ∧ ¬ (r.manager = m ∧ r.queue = q) := by
  unfold remove
  rw [List.mem_filter, decide_eq_true_eq]

/-- **Unregistering.** -/
theorem sound_remove (h : s.Sound) (hdistinct : ∀ m, DistinctRoutes (s.routelist m))
    (hsingle : s.Single m q) : (s.remove m q).Sound := by
  rw [sound_iff] at h ⊢
  intro m' c' q'
  rw [mem_registered_remove, ← h m' c' q']
  by_cases hq : q' = q
  · subst hq
    by_cases hm : m' = m
    · subst hm
      refine ⟨fun hmem => ?_, fun hn => absurd ⟨rfl, rfl⟩ hn.2⟩
      have := (refersTo_iff (distinct_remove hdistinct m')).mpr ⟨c', hmem⟩
      exact absurd hsingle ((refersTo_remove_iff hdistinct).mp this)
    · rw [targets_remove (hdistinct m), if_neg hm, and_iff_left fun hn => hm hn.1]
  · rw [(keepsOthers_remove (hdistinct m)).mem_iff hq, and_iff_left fun hn => hq hn.2]

theorem KeepsOthers.refersTo (hkeep : KeepsOthers q s s') (hq : q' ≠ q)
    (h : DistinctRoutes (s.routelist m)) (h' : DistinctRoutes (s'.routelist m))
    (hr : s.RefersTo m q') : s'.RefersTo m q' := by
  obtain ⟨c, hc⟩ := (refersTo_iff h).mp hr
  exact (refersTo_iff h').mpr ⟨c, (hkeep.mem_iff hq).mpr hc⟩

/-- Another manager's routes stay. -/
theorem refersTo_remove_of_ne (hm : m' ≠ m) :
    (s.remove m q).RefersTo m' q' ↔ s.RefersTo m' q' := by
  have hroutes : (s.remove m q).routelist m' = s.routelist m' := update_of_ne hm ..
  unfold RefersTo
  rw [hroutes]

theorem linked_remove (h : s.Linked) : (s.remove m q).Linked := by
  have hother : ∀ q', q' ≠ q → (s.remove m q).queues q' = s.queues q' :=
    fun q' hq => update_of_ne hq ..
  have hself : (s.remove m q).queues q = (s.queues q).map (·.dissociate m) :=
    update_self ..
  refine ⟨distinct_remove h.distinct, fun r hr => ?_, fun q' a' ha' m' hm' => ?_⟩
  · have hlive := h.live r (mem_registered_remove.mp hr).1
    by_cases hq : r.queue = q
    · rw [hq] at hlive ⊢
      rw [hself, Option.isSome_map]
      exact hlive
    · rw [hother _ hq]
      exact hlive
  · by_cases hq : q' = q
    · subst hq
      rw [hself] at ha'
      obtain ⟨a, ha, rfl⟩ := Option.map_eq_some_iff.mp ha'
      obtain ⟨hm', hne⟩ := AssociatedManagers.mem_managers_dissociate.mp hm'
      exact (refersTo_remove_of_ne hne).mpr (h.routed q' a ha m' hm')
    · rw [hother q' hq] at ha'
      exact (keepsOthers_remove (h.distinct m)).refersTo hq (h.distinct m')
        (distinct_remove h.distinct m') (h.routed q' a' ha' m' hm')

theorem unregisterHandler_of_refersTo (hm : s.manager handle = some m) (hr : s.RefersTo m q) :
    s.unregisterHandler handle q = (.success, s.remove m q) := by
  unfold unregisterHandler
  rw [hm]
  exact if_pos hr

/-- Without an entry there is nothing to unregister. -/
theorem unregisterHandler_of_not_refersTo (hm : s.manager handle = some m)
    (hr : ¬ s.RefersTo m q) : s.unregisterHandler handle q = (.enodata, s) := by
  unfold unregisterHandler
  rw [hm]
  exact if_neg hr

theorem single_of_not_refersTo (h : DistinctRoutes (s.routelist m)) (hr : ¬ s.RefersTo m q) :
    s.Single m q := by
  intro c
  rw [List.count_eq_zero_of_not_mem fun hq => hr ((refersTo_iff h).mpr ⟨c, hq⟩)]
  exact Nat.zero_le 1

/-! ### Deleting -/

/-- The queue was taken out once of each route of the managers. -/
structure Unregistered (ms : List EventmanagerHandle) (q : EventqueueHandle)
    (s s' : EventRouting) : Prop where
  distinct : ∀ m, DistinctRoutes (s'.routelist m)
  keeps : KeepsOthers q s s'
  queues : ∀ q', q' ≠ q → s'.queues q' = s.queues q'
  registered : ∀ r, r ∈ s'.registered ↔ r ∈ s.registered ∧ ¬ (r.manager ∈ ms ∧ r.queue = q)
  left : ∀ m ∈ ms, s'.RefersTo m q ↔ ¬ s.Single m q
  others : ∀ m, m ∉ ms → s'.routelist m = s.routelist m

/-- The loop finds the queue in the routes of each manager. -/
theorem unregisterAll_spec : ∀ {ms : List EventmanagerHandle} {s : EventRouting}, ms.Nodup →
    (∀ m, DistinctRoutes (s.routelist m)) → (∀ m ∈ ms, s.RefersTo m q) →
      ∃ s', unregisterAll q ms s = (.success, s') ∧ Unregistered ms q s s' := by
  intro ms
  induction ms with
  | nil =>
    intro s _ hdistinct _
    refine ⟨s, rfl, hdistinct, .refl, fun _ _ => rfl, fun r => ?_,
      fun m hm => absurd hm List.not_mem_nil, fun _ _ => rfl⟩
    simp
  | cons m ms ih =>
    intro s hnodup hdistinct hrefers
    obtain ⟨hm, hnodup⟩ := List.nodup_cons.mp hnodup
    have hne : ∀ m' ∈ ms, m' ≠ m := fun m' hm' heq => hm (heq ▸ hm')
    obtain ⟨s', hs', h⟩ := ih hnodup (distinct_remove (q := q) hdistinct) fun m' hm' =>
      (refersTo_remove_of_ne (hne m' hm')).mpr (hrefers m' (List.mem_cons_of_mem m hm'))
    refine ⟨s', ?_, h.distinct, (keepsOthers_remove (hdistinct m)).trans h.keeps,
      fun q' hq => ?_, fun r => ?_, fun m' hm' => ?_, fun m' hm' => ?_⟩
    · rw [unregisterAll, unregisterHandler_of_refersTo rfl (hrefers m List.mem_cons_self)]
      exact hs'
    · rw [h.queues q' hq]
      exact update_of_ne hq ..
    · rw [h.registered, mem_registered_remove, List.mem_cons]
      tauto
    · rcases List.mem_cons.mp hm' with rfl | hm'
      · have hroutes : s'.RefersTo m' q ↔ (s.remove m' q).RefersTo m' q := by
          unfold RefersTo
          rw [h.others m' hm]
        rw [hroutes]
        exact refersTo_remove_iff hdistinct
      · rw [h.left m' hm']
        unfold Single
        simp only [targets_remove (hdistinct m), if_neg (hne m' hm')]
    · rw [List.mem_cons, not_or] at hm'
      rw [h.others m' hm'.2]
      exact update_of_ne hm'.1 ..

/-- **Deleting.** The queue is unregistered from the managers in its array. -/
theorem eventqueueDelete_spec {a : AssociatedManagers} (h : s.Linked) (ha : s.queues q = some a) :
    ∃ s', s.eventqueueDelete q a = (.success, s') ∧ s'.Linked ∧ KeepsOthers q s s' ∧
      (s'.queues q = none ∧ ∀ q', q' ≠ q → s'.queues q' = s.queues q') ∧
      (∀ r, r ∈ s'.registered ↔ r ∈ s.registered ∧ r.queue ≠ q) ∧
      ((∀ m, ¬ s'.RefersTo m q) ↔
        ∀ m, s.Single m q ∧ (s.RefersTo m q → m ∈ a.managers)) := by
  obtain ⟨t, ht, hu⟩ := unregisterAll_spec a.distinct h.distinct (h.routed q a ha)
  let s' : EventRouting := { t with
    queues := update t.queues q none
    registered := t.registered.filter fun r => r.queue ≠ q }
  have hregistered : ∀ r, r ∈ s'.registered ↔ r ∈ s.registered ∧ r.queue ≠ q := by
    intro r
    have : r ∈ s'.registered ↔ r ∈ t.registered ∧ r.queue ≠ q := by
      simp [s']
    rw [this, hu.registered]
    tauto
  have hself : s'.queues q = none := update_self ..
  have hother : ∀ q', q' ≠ q → s'.queues q' = s.queues q' :=
    fun q' hq => (update_of_ne hq ..).trans (hu.queues q' hq)
  refine ⟨s', ?_, ⟨hu.distinct, fun r hr => ?_, fun q' a' ha' m hm => ?_⟩, hu.keeps,
    ⟨hself, hother⟩, hregistered, ?_⟩
  · unfold eventqueueDelete AssociatedManagers.managers
    rw [ht]
  · obtain ⟨hr, hq⟩ := (hregistered r).mp hr
    rw [hother _ hq]
    exact h.live r hr
  · have hq : q' ≠ q := by
      rintro rfl
      rw [hself] at ha'
      cases ha'
    rw [hother q' hq] at ha'
    exact hu.keeps.refersTo hq (h.distinct m) (hu.distinct m) (h.routed q' a' ha' m hm)
  · refine forall_congr' fun m => ?_
    have hroutes : s'.RefersTo m q ↔ t.RefersTo m q := Iff.rfl
    rw [hroutes]
    by_cases hm : m ∈ a.managers
    · rw [hu.left m hm, not_not]
      exact ⟨fun hsingle => ⟨hsingle, fun _ => hm⟩, fun hsingle => hsingle.1⟩
    · have hsame : t.RefersTo m q ↔ s.RefersTo m q := by
        unfold RefersTo
        rw [hu.others m hm]
      rw [hsame]
      exact ⟨fun hr => ⟨single_of_not_refersTo (h.distinct m) hr, fun hr' => absurd hr' hr⟩,
        fun hr hr' => hm (hr.2 hr')⟩

/-! ## Runs of calls -/

theorem step_eq_some_iff {call : RoutingCall} :
    s.step call = some s' ↔ ∃ e, s.perform call = some (e, s') := by
  unfold step
  rw [Option.map_eq_some_iff]
  constructor
  · rintro ⟨⟨e, t⟩, h, rfl⟩
    exact ⟨e, h⟩
  · rintro ⟨e, h⟩
    exact ⟨(e, s'), h, rfl⟩

/-- A call that does what is asked of it, and leaves what it needs. -/
structure Served (s : EventRouting) (call : RoutingCall) (e : RmfError) (s' : EventRouting) :
    Prop where
  keeps : KeepsOthers call.queue s s'
  cleared : e = .success → Cleared s s' call
  sound : s'.Sound
  linked : s'.Linked

/-- A call that does nothing. -/
theorem Served.same {call : RoutingCall} {e : RmfError} (hs : s.Sound) (hl : s.Linked)
    (he : e = .success → Cleared s s call) : Served s call e s :=
  ⟨.refl, he, hs, hl⟩

theorem served_create (hs : s.Sound) (hl : s.Linked) (h : s.queues q = none) :
    Served s (.create q) .success
      { s with queues := update s.queues q (some .empty) } := by
  have hself : update s.queues q (some .empty) q = some .empty := update_self ..
  have hother : ∀ q', q' ≠ q → update s.queues q (some .empty) q' = s.queues q' :=
    fun q' hq => update_of_ne hq ..
  refine ⟨.refl, fun _ => trivial, hs, hl.distinct, fun r hr => ?_, fun q' a ha m hm => ?_⟩
  · have hlive := hl.live r hr
    have hq : r.queue ≠ q := by
      intro hq
      rw [hq, h] at hlive
      cases hlive
    exact (congrArg Option.isSome (hother _ hq)).trans hlive
  · by_cases hq : q' = q
    · subst hq
      obtain rfl := Option.some.inj (hself.symm.trans ha)
      exact absurd hm List.not_mem_nil
    · exact hl.routed q' a ((hother q' hq).symm.trans ha) m hm

theorem served_register (hs : s.Sound) (hl : s.Linked) (hlive : (s.queues q).isSome = true)
    (hroute : ∀ m ∈ s.manager handle, entryMemory = true → s.CanRoute m c routeMemory) :
    Served s (.register handle q c entryMemory routeMemory)
      (s.registerHandler handle q c entryMemory routeMemory).1
      (s.registerHandler handle q c entryMemory routeMemory).2 := by
  rcases registerHandler_cases with hsame | ⟨m, hm, hmemory, hafter⟩
  · rw [hsame]
    exact .same hs hl fun _ => trivial
  · rw [hafter]
    have hcan := hroute m hm hmemory
    exact ⟨keepsOthers_afterRegister, fun _ => trivial, (sound_afterRegister_iff hs).mpr hcan,
      linked_afterRegister hl hlive hcan⟩

theorem served_unregister (hs : s.Sound) (hl : s.Linked)
    (hsingle : ∀ m ∈ s.manager handle, s.Single m q) :
    Served s (.unregister handle q) (s.unregisterHandler handle q).1
      (s.unregisterHandler handle q).2 := by
  rcases hm : s.manager handle with _ | m
  · have hsame : s.unregisterHandler handle q = (.einval, s) := by
      unfold unregisterHandler
      rw [hm]
    rw [hsame]
    exact .same hs hl fun he => by cases he
  · by_cases hr : s.RefersTo m q
    · rw [unregisterHandler_of_refersTo hm hr]
      refine ⟨keepsOthers_remove (hl.distinct m), fun _ m' hm' => ?_,
        sound_remove hs hl.distinct (hsingle m hm), linked_remove hl⟩
      obtain rfl := Option.some.inj (hm.symm.trans hm')
      exact fun hleft => (refersTo_remove_iff hl.distinct).mp hleft (hsingle m hm)
    · rw [unregisterHandler_of_not_refersTo hm hr]
      exact .same hs hl fun he => by cases he

theorem served_delete {a : AssociatedManagers} (hs : s.Sound) (hl : s.Linked)
    (ha : s.queues q = some a)
    (hsingle : ∀ m, s.Single m q ∧ (s.RefersTo m q → m ∈ a.managers)) :
    Served s (.delete q) (s.eventqueueDelete q a).1 (s.eventqueueDelete q a).2 := by
  obtain ⟨s', hs', hl', hkeep, -, hregistered, hcleared⟩ := eventqueueDelete_spec hl ha
  rw [hs']
  have hnone := hcleared.mpr hsingle
  refine ⟨hkeep, fun _ => hnone, sound_iff.mpr fun m c q' => ?_, hl'⟩
  rw [hregistered, ← sound_iff.mp hs m c q']
  by_cases hq : q' = q
  · subst hq
    refine ⟨fun hmem => ?_, fun hn => absurd rfl hn.2⟩
    exact absurd ((refersTo_iff (hl'.distinct m)).mpr ⟨c, hmem⟩) (hnone m)
  · rw [hkeep.mem_iff hq, and_iff_left hq]

/-- **One call.** -/
theorem served_of_orderly {call : RoutingCall} (hs : s.Sound) (hl : s.Linked)
    (h : s.Orderly call) : ∃ e s', s.perform call = some (e, s') ∧ Served s call e s' := by
  cases call with
  | create q =>
    have hq : s.queues q = none := h
    refine ⟨_, _, ?_, served_create hs hl hq⟩
    simp only [perform, hq]
  | register handle q c entryMemory routeMemory =>
    obtain ⟨hlive, hroute⟩ := h
    obtain ⟨a, ha⟩ := Option.isSome_iff_exists.mp hlive
    refine ⟨_, _, ?_, served_register hs hl hlive hroute⟩
    simp only [perform, ha, Option.map_some]
  | unregister handle q =>
    obtain ⟨hlive, hsingle⟩ := h
    obtain ⟨a, ha⟩ := Option.isSome_iff_exists.mp hlive
    refine ⟨_, _, ?_, served_unregister hs hl hsingle⟩
    simp only [perform, ha, Option.map_some]
  | delete q =>
    obtain ⟨a, ha, hsingle⟩ := h
    refine ⟨_, _, ?_, served_delete hs hl ha hsingle⟩
    have ha' : s.queues q = some a := ha
    simp only [perform, ha', Option.map_some]

/-- A call that does what is asked of it, and leaves what is dispatched right, is orderly. -/
theorem orderly_of_behaves {call : RoutingCall} (hs : s.Sound) (hl : s.Linked)
    (hb : s.Behaves call) (hstep : s.step call = some s') (hs' : s'.Sound) : s.Orderly call := by
  obtain ⟨e, hperform⟩ := step_eq_some_iff.mp hstep
  cases call with
  | create q =>
    rcases hq : s.queues q with _ | a
    · exact hq
    · simp only [perform, hq] at hperform
      cases hperform
  | register handle q c entryMemory routeMemory =>
    obtain ⟨a, ha, hresult⟩ := Option.map_eq_some_iff.mp hperform
    refine ⟨Option.isSome_iff_exists.mpr ⟨a, ha⟩, fun m hm hmemory => ?_⟩
    have hm' : s.manager handle = some m := hm
    have hafter : s' = s.afterRegister m q c routeMemory := by
      simp only [registerHandler, hm', hmemory, if_true] at hresult
      exact (Prod.mk.inj hresult).2.symm
    rw [hafter] at hs'
    exact (sound_afterRegister_iff hs).mp hs'
  | unregister handle q =>
    obtain ⟨a, ha, hresult⟩ := Option.map_eq_some_iff.mp hperform
    refine ⟨Option.isSome_iff_exists.mpr ⟨a, ha⟩, fun m hm => ?_⟩
    by_cases hr : s.RefersTo m q
    · rw [unregisterHandler_of_refersTo hm hr] at hresult
      obtain ⟨rfl, rfl⟩ := Prod.mk.inj hresult
      have hcleared := (hb _ _ hperform).2 rfl m hm
      rw [refersTo_remove_iff hl.distinct, not_not] at hcleared
      exact hcleared
    · exact single_of_not_refersTo (hl.distinct m) hr
  | delete q =>
    obtain ⟨a, ha, hresult⟩ := Option.map_eq_some_iff.mp hperform
    obtain ⟨t, ht, -, -, -, -, hcleared⟩ := eventqueueDelete_spec hl ha
    rw [ht] at hresult
    obtain ⟨rfl, rfl⟩ := Prod.mk.inj hresult
    exact ⟨a, ha, hcleared.mp ((hb _ _ hperform).2 rfl)⟩

theorem sound_initial {g : Option EventmanagerHandle} : Sound { default := g } :=
  sound_iff.mpr fun _ _ _ =>
    ⟨fun h => absurd h List.not_mem_nil, fun h => absurd h List.not_mem_nil⟩

theorem linked_initial {g : Option EventmanagerHandle} : Linked { default := g } := by
  refine ⟨fun _ => List.nodup_nil, fun r hr => absurd hr List.not_mem_nil, fun q a ha => ?_⟩
  cases ha

/-- **The routes of the event managers.** In every state of a run an event is dispatched to
exactly the queues registered for it, and every call clears what it is to clear and keeps the
routes of the other queues, exactly when every call is orderly. -/
theorem routes_kept (g : Option EventmanagerHandle) (calls : List RoutingCall) :
    (Throughout step Sound { default := g } calls ∧
        EachStep step Behaves { default := g } calls) ↔
      EachStep step Orderly { default := g } calls := by
  refine Throughout.and_eachStep_iff_of (I := Sound) (J := Linked) (fun s call hs hl h => ?_)
    (fun s call s' hs hl hb hstep hs' => orderly_of_behaves hs hl hb hstep hs')
    sound_initial linked_initial
  obtain ⟨e, s', hperform, hserved⟩ := served_of_orderly hs hl h
  refine ⟨fun e' t ht => ?_, s', step_eq_some_iff.mpr ⟨e, hperform⟩, hserved.sound,
    hserved.linked⟩
  obtain ⟨rfl, rfl⟩ := Prod.mk.inj (Option.some.inj (hperform.symm.trans ht))
  exact ⟨hserved.keeps, hserved.cleared⟩

/-- A queue that is registered twice and unregistered once. -/
def registeredTwice : List RoutingCall :=
  [.create 1, .register none 1 5 true true, .register none 1 5 true true, .unregister none 1]

/-- **A queue stays in a route** after it was unregistered with success, and still gets the
events. -/
theorem queue_left_in_route :
    ∃ s, runFrom step { default := some 0 } registeredTwice = some s ∧ ¬ s.Sound := by
  refine ⟨_, rfl, fun hsound => ?_⟩
  exact absurd ((hsound none 0 rfl 5 1).mp (by decide)) (by decide)

end EventRouting

end MediaFramework
