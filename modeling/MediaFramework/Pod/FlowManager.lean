import MediaFramework.Lib.Run
import MediaFramework.Lib.Slots

/-!
# The flow manager of the extended channel

The flow manager keeps the ids of the flows between host and card in one vector for each type of
flow, and the IP multicast and socket flows of the host in two tables. A flow that is
unregistered is taken out of its vector, and what is kept for it is given back.

`vlXchanClearFlowManager` unregisters the flows of a vector while it walks the vector by index,
so that it passes over every second one: those are dropped without having been unregistered.
-/

namespace MediaFramework

open Function (update update_of_ne update_self)

/-! ## Flows -/

/-- `VL_XCHAN_FLOW_TYPE`. -/
inductive XchanFlowType
  | mpeg
  | ipU
  | ipM
  | dsg
  | socket
  | ipdm
  | ipDirectUnicast
  /-- not categorized -/
  | nc
  | invalid
  /-- any other value, `VL_XCHAN_FLOW_TYPE_MAX` among them -/
  | other (value : ℕ)
  deriving DecidableEq

/-- The vectors of flow ids. -/
inductive FlowVector
  | mpegFlows
  | ipuFlows
  | ipmFlows
  | dsgFlows
  | socketFlows
  | ipDmFlows
  | ipDuFlows
  | yetToBeCategorizedFlows
  deriving DecidableEq

/-- The vector for a type of flow: the cases of `vlXchanRegisterNewFlow`. -/
def XchanFlowType.vector : XchanFlowType → FlowVector
  | .mpeg => .mpegFlows
  | .ipU => .ipuFlows
  | .ipM => .ipmFlows
  | .dsg => .dsgFlows
  | .socket => .socketFlows
  | .ipdm => .ipDmFlows
  | .ipDirectUnicast => .ipDuFlows
  | _ => .yetToBeCategorizedFlows

/-- The type of the flows in a vector: what `vlXchanGetFlowType` returns. -/
def FlowVector.type : FlowVector → XchanFlowType
  | .mpegFlows => .mpeg
  | .ipuFlows => .ipU
  | .ipmFlows => .ipM
  | .dsgFlows => .dsg
  | .socketFlows => .socket
  | .ipDmFlows => .ipdm
  | .ipDuFlows => .ipDirectUnicast
  | .yetToBeCategorizedFlows => .nc

/-- A type of flow that has a vector, or that of the flows without one. -/
def XchanFlowType.Known : XchanFlowType → Prop
  | .invalid | .other _ => False
  | _ => True

/-- Only one flow of the type is possible. -/
def FlowVector.Single : FlowVector → Prop
  | .dsgFlows | .ipDmFlows | .ipDuFlows => True
  | _ => False

instance : DecidablePred FlowVector.Single
  | .dsgFlows | .ipDmFlows | .ipDuFlows => isTrue trivial
  | .mpegFlows | .ipuFlows | .ipmFlows | .socketFlows | .yetToBeCategorizedFlows => isFalse id

/-- An `unsigned long`. -/
abbrev FlowId := BitVec 64

/-- `VL_MAX_IP_MULTICAST_FLOWS` and `VL_MAX_SOCKET_FLOWS`. -/
abbrev maxHostFlows : ℕ := 16

/-- `VL_DSG_BASE_HOST_OTHER_FLOW_IDS`. -/
abbrev baseHostOtherFlowIds : FlowId := 0x800000 + 0x10001

/-- What the tables keep of a flow of the host. -/
structure HostFlow where
  bInUse : Bool := false
  flowid : FlowId := 0

/-- The tables of the flows of the host. -/
inductive HostFlowTable
  | ipMulticast
  | socket
  deriving DecidableEq

/-- The type of the flows in a table. -/
def HostFlowTable.type : HostFlowTable → XchanFlowType
  | .ipMulticast => .ipM
  | .socket => .socket

/-- The table that has the flows of a vector. -/
def FlowVector.table : FlowVector → Option HostFlowTable
  | .ipmFlows => some .ipMulticast
  | .socketFlows => some .socket
  | _ => none

/-- What the flow manager keeps. -/
structure FlowManager where
  /-- the vectors -/
  flows : FlowVector → List FlowId := fun _ => []
  /-- `vlg_aDsgIpMulticastFlows` and `vlg_aDsgSocketFlows` -/
  hostFlows : HostFlowTable → Fin maxHostFlows → HostFlow := fun _ _ => {}
  /-- `vlg_nXchanIpMulticastFlowsAvailable` and `vlg_nXchanSocketFlowsAvailable` -/
  flowsAvailable : HostFlowTable → ℕ := fun _ => maxHostFlows
  xChanMPEGflowId : FlowId := 0
  ipuSvcFlowId : FlowId := 0
  dsgFlowId : FlowId := 0
  ipDmFlowId : FlowId := 0
  ipDirectUnicastFlowId : FlowId := 0
  /-- the next id of `vlXchanHostAssignFlowId` -/
  nFlowId : FlowId := baseHostOtherFlowIds
  /-- ghost: the type a flow was last registered with -/
  registeredAs : FlowId → XchanFlowType := fun _ => .invalid
  /-- ghost: the flows that were registered, each as often as it was -/
  registrations : List FlowId := []
  /-- ghost: the flows that were unregistered, each as often as it was -/
  unregistered : List FlowId := []

namespace FlowManager

variable (s : FlowManager)

/-! ## Registering -/

/-- The vectors in the order in which `vlXchanGetFlowType` looks at them. -/
def searchOrder : List FlowVector :=
  [.mpegFlows, .dsgFlows, .ipmFlows, .ipuFlows, .socketFlows, .ipDmFlows, .ipDuFlows,
    .yetToBeCategorizedFlows]

/-- `vlXchanGetFlowType`. -/
def getFlowType (flow : FlowId) : XchanFlowType :=
  match searchOrder.find? fun v => flow ∈ s.flows v with
  | some v => v.type
  | none => .invalid

/-- `cVectorAdd` on a vector. -/
def add (v : FlowVector) (flow : FlowId) : FlowManager :=
  { s with flows := update s.flows v (s.flows v ++ [flow]) }

/-- `cVectorClear` on a vector. -/
def clearVector (v : FlowVector) : FlowManager :=
  { s with flows := update s.flows v [] }

/-- `vlXchanRegisterNewFlow` for a flow that is valid and not registered. -/
def register (type : XchanFlowType) (flow : FlowId) : FlowManager :=
  let s := { s with
    registeredAs := update s.registeredAs flow type
    registrations := s.registrations ++ [flow] }
  match type with
  | .mpeg => { s with xChanMPEGflowId := flow }.add .mpegFlows flow
  | .ipU => { s with ipuSvcFlowId := flow }.add .ipuFlows flow
  | .ipM => s.add .ipmFlows flow
  | .dsg => ({ s with dsgFlowId := flow }.clearVector .dsgFlows).add .dsgFlows flow
  | .socket => s.add .socketFlows flow
  | .ipdm => ({ s with ipDmFlowId := flow }.clearVector .ipDmFlows).add .ipDmFlows flow
  | .ipDirectUnicast =>
    ({ s with ipDirectUnicastFlowId := flow }.clearVector .ipDuFlows).add .ipDuFlows flow
  | _ => s.add .yetToBeCategorizedFlows flow

/-- `vlXchanRegisterNewFlow`. -/
def registerNewFlow (type : XchanFlowType) (flow : FlowId) : FlowManager :=
  if flow = 0 then s
  else if s.getFlowType flow ≠ .invalid then s
  else s.register type flow

/-! ## The flows of the host -/

/-- A slot of a table is written. -/
def setHostFlow (k : HostFlowTable) (i : Fin maxHostFlows) (flow : HostFlow) : FlowManager :=
  { s with hostFlows := update s.hostFlows k (update (s.hostFlows k) i flow) }

/-- `vlXChanDeallocateIpMulticastFlow` and `vlXChanDeallocateSocketFlow`: the last slot with the
id is zeroed. -/
def deallocate (k : HostFlowTable) (flow : FlowId) : FlowManager :=
  match lastSlot fun i => (s.hostFlows k i).flowid == flow with
  | some i => s.setHostFlow k i {}
  | none => s

/-- The last free slot of a table. -/
def freeHostFlow (k : HostFlowTable) : Option (Fin maxHostFlows) :=
  lastSlot fun i => !(s.hostFlows k i).bInUse

/-- `vlXChanAllocateIpMulticastFlow` counts the free slots, and zeroes them;
`vlXChanAllocateSocketFlow` counts them only. -/
def allocate (k : HostFlowTable) : FlowManager :=
  let free := (List.finRange maxHostFlows).countP fun i => !(s.hostFlows k i).bInUse
  let zeroed : Fin maxHostFlows → HostFlow := fun i =>
    if (s.hostFlows k i).bInUse then s.hostFlows k i else {}
  { s with
    flowsAvailable := update s.flowsAvailable k (free - 1)
    hostFlows := if k = .ipMulticast then update s.hostFlows k zeroed else s.hostFlows }

/-- `vlXchanHostAssignFlowId`. -/
def hostAssignFlowId : FlowId × FlowManager :=
  (s.nFlowId, { s with nFlowId := s.nFlowId + 1 })

/-- `vlXChanCreateIpMulticastFlow`; whether the group is joined comes from outside. The flow is
registered later, from a thread of its own. -/
def createIpMulticastFlow (joined : Bool) : FlowManager :=
  match s.freeHostFlow .ipMulticast with
  | none => s.allocate .ipMulticast
  | some i =>
    let s := s.allocate .ipMulticast
    if joined then
      let (flow, s) := s.hostAssignFlowId
      s.setHostFlow .ipMulticast i { bInUse := true, flowid := flow }
    else s.setHostFlow .ipMulticast i { s.hostFlows .ipMulticast i with bInUse := false }

/-- `vlXChanCreateSocketFlow`, with the `flowid` of the parameters. -/
def createSocketFlow (flowid : FlowId) : FlowManager :=
  match s.freeHostFlow .socket with
  | none => s.allocate .socket
  | some i => (s.allocate .socket).setHostFlow .socket i { bInUse := true, flowid := flowid }

/-- What `vlXChanSocketFlowTask` does to the slot of its flow: it gets an id when the socket is
connected, and is given up when it cannot be. -/
def socketFlowTask (i : Fin maxHostFlows) (connected : Bool) : FlowManager :=
  if connected then
    let (flow, s) := s.hostAssignFlowId
    s.setHostFlow .socket i { bInUse := true, flowid := flow }
  else s.setHostFlow .socket i { s.hostFlows .socket i with bInUse := false }

/-! ## Unregistering -/

/-- What is kept for a flow of the type is given back. -/
def giveBack (type : XchanFlowType) (flow : FlowId) : FlowManager :=
  match type with
  | .ipM => s.deallocate .ipMulticast flow
  | .ipU => if flow = s.ipuSvcFlowId then { s with ipuSvcFlowId := 0 } else s
  | .socket => s.deallocate .socket flow
  | _ => s

/-- `(unsigned long)vlGetDsgFlowId()`: an id that goes through an `int` keeps its low 32 bits,
and its sign fills the others. -/
def asInt (flow : FlowId) : FlowId := (flow.setWidth 32).signExtend 64

/-- `vlXchanUnregisterFlow`. -/
def unregisterFlow (flow : FlowId) : FlowManager :=
  let type := s.getFlowType flow
  let s := s.giveBack type flow
  let s := if asInt s.dsgFlowId = flow then { s with dsgFlowId := 0 } else s
  let s := if asInt s.ipDmFlowId = flow then { s with ipDmFlowId := 0 } else s
  { s with
    flows := fun v => (s.flows v).erase flow
    unregistered := if type = .invalid then s.unregistered else s.unregistered ++ [flow] }

/-- The loop of `VL_XCHAN_CLEAR_FLOWS` from the index `i` on, for so many rounds. -/
def clearLoop (v : FlowVector) : ℕ → ℕ → FlowManager → FlowManager
  | 0, _, s => s
  | rounds + 1, i, s =>
    match (s.flows v)[i]? with
    | some flow => clearLoop v rounds (i + 1) (s.unregisterFlow flow)
    | none => s

/-- `VL_XCHAN_CLEAR_FLOWS`. The vector does not grow, so that its size is rounds enough. -/
def clearFlows (v : FlowVector) : FlowManager :=
  (clearLoop v (s.flows v).length 0 s).clearVector v

/-- The vectors in the order in which they are cleared. -/
def clearOrder : List FlowVector :=
  [.mpegFlows, .ipuFlows, .ipmFlows, .dsgFlows, .socketFlows, .ipDmFlows, .ipDuFlows,
    .yetToBeCategorizedFlows]

/-- `vlXchanClearFlowManager`. -/
def clearFlowManager : FlowManager := clearOrder.foldl clearFlows s

/-! ## Runs -/

/-- A call of the flow manager. -/
inductive Call
  | register (type : XchanFlowType) (flow : FlowId)
  | unregister (flow : FlowId)
  | createIpMulticastFlow (joined : Bool)
  | createSocketFlow (flowid : FlowId)
  | socketFlowTask (i : Fin maxHostFlows) (connected : Bool)
  | deallocate (k : HostFlowTable) (flow : FlowId)
  | clear

/-- The flow manager after a call. -/
def call : FlowManager → Call → FlowManager
  | s, .register type flow => s.registerNewFlow type flow
  | s, .unregister flow => s.unregisterFlow flow
  | s, .createIpMulticastFlow joined => s.createIpMulticastFlow joined
  | s, .createSocketFlow flowid => s.createSocketFlow flowid
  | s, .socketFlowTask i connected => s.socketFlowTask i connected
  | s, .deallocate k flow => s.deallocate k flow
  | s, .clear => s.clearFlowManager

/-- Every call returns. -/
def step (s : FlowManager) (c : Call) : Option FlowManager := some (s.call c)

/-! ## What the calls should keep -/

/-- Every flow is in one vector at most, and there once. -/
structure Filed : Prop where
  once : ∀ v w flow, flow ∈ s.flows v → flow ∈ s.flows w → v = w
  nodup : ∀ v, (s.flows v).Nodup

/-- **The vectors are in order.** A flow is in one vector at most, and has the type it was
registered with; the unknown id is in none, and of some types there is one flow at most. -/
structure Sound : Prop where
  filed : s.Filed
  typed : ∀ v, ∀ flow ∈ s.flows v, s.getFlowType flow = s.registeredAs flow
  known : ∀ v, 0 ∉ s.flows v
  single : ∀ v : FlowVector, v.Single → (s.flows v).length ≤ 1

/-- The id that is kept of the flow registered last, where a vector has one. -/
def lastId : FlowVector → Option FlowId
  | .dsgFlows => some s.dsgFlowId
  | .ipDmFlows => some s.ipDmFlowId
  | _ => none

/-- A flow of the vector has no slot and is not the IP unicast service. -/
structure Vacated (v : FlowVector) (flow : FlowId) : Prop where
  slot : ∀ k, v.table = some k → ∀ i, (s.hostFlows k i).flowid ≠ flow
  ipu : v = .ipuFlows → s.ipuSvcFlowId ≠ flow

/-- Nothing is kept for a flow of the vector. -/
structure Released (v : FlowVector) (flow : FlowId) : Prop extends s.Vacated v flow where
  /-- it is not the DSG flow, or IPDM flow, that packets are sent on -/
  last : s.lastId v ≠ some flow

/-- **Every flow that was registered has been unregistered after the clearing**, as often as it
was registered, and nothing is kept for it. -/
structure ClearsAll : Prop where
  unregisters : ∀ flow,
    s.clearFlowManager.unregistered.count flow = s.registrations.count flow
  releases : ∀ v, ∀ flow ∈ s.flows v, s.clearFlowManager.Released v flow

/-- What a clearing should do, and nothing of another call. -/
def Behaves (s : FlowManager) : Call → Prop
  | .clear => s.ClearsAll
  | _ => True

/-- No two slots of its table hold a flow of the vectors. -/
def OneSlot : Prop :=
  ∀ v k, v.table = some k → ∀ flow ∈ s.flows v, ∀ i j,
    (s.hostFlows k i).flowid = flow → (s.hostFlows k j).flowid = flow → i = j

/-- The id kept of a flow of the vectors is, as an `int`, the id of a registered flow. -/
def Recognised : Prop :=
  ∀ v, ∀ flow ∈ s.flows v, s.lastId v = some flow → s.getFlowType (asInt flow) ≠ .invalid

/-- Whether a flow is registered, as a number. -/
def held (flow : FlowId) : ℕ := if s.getFlowType flow = .invalid then 0 else 1

/-- No flow was dropped for another of its type: it was unregistered as often as it was
registered, but for the last time if it is registered still. -/
def NoneDropped : Prop :=
  ∀ flow, s.registrations.count flow = s.unregistered.count flow + s.held flow

/-- **The condition on a call.** A flow that is registered has a known type, and the flow
manager is cleared while no vector has two flows, no flow two slots, no flow was dropped, and
the DSG and the IPDM flow are recognised by the `int` their id goes through. -/
def Orderly (s : FlowManager) : Call → Prop
  | .register type flow => flow ≠ 0 → s.getFlowType flow = .invalid → type.Known
  | .clear => (∀ v, (s.flows v).length ≤ 1) ∧ s.OneSlot ∧ s.NoneDropped ∧ s.Recognised
  | _ => True

/-- What was unregistered, or is registered still, was registered. -/
def Ledger : Prop :=
  ∀ flow, s.unregistered.count flow + s.held flow ≤ s.registrations.count flow

/-! ## Looking up a flow -/

section GetFlowType

variable {s} {v : FlowVector} {flow : FlowId}

theorem type_ne_invalid (v : FlowVector) : v.type ≠ .invalid := by
  cases v <;> exact fun h => nomatch h

theorem mem_searchOrder (v : FlowVector) : v ∈ searchOrder := by
  cases v <;> decide

/-- **A flow has the type of its vector.** -/
theorem Filed.getFlowType_eq (h : s.Filed) (hv : flow ∈ s.flows v) :
    s.getFlowType flow = v.type := by
  rw [getFlowType]
  rcases hfind : searchOrder.find? fun v => flow ∈ s.flows v with _ | w
  · have := List.find?_eq_none.mp hfind v (mem_searchOrder v)
    exact absurd (decide_eq_true hv) this
  · have hw : flow ∈ s.flows w := by simpa using List.find?_some hfind
    rw [h.once w v flow hw hv]

theorem getFlowType_eq_invalid :
    s.getFlowType flow = .invalid ↔ ∀ v, flow ∉ s.flows v := by
  rw [getFlowType]
  rcases hfind : searchOrder.find? fun v => flow ∈ s.flows v with _ | w
  · refine iff_of_true rfl fun v hv => ?_
    exact List.find?_eq_none.mp hfind v (mem_searchOrder v) (decide_eq_true hv)
  · have hw : flow ∈ s.flows w := by simpa using List.find?_some hfind
    exact iff_of_false (type_ne_invalid w) fun h => h w hw

/-- A known type is that of its vector. -/
theorem vector_type_iff (type : XchanFlowType) : type.vector.type = type ↔ type.Known := by
  cases type <;> simp [XchanFlowType.vector, FlowVector.type, XchanFlowType.Known]

end GetFlowType

/-! ## What registering keeps -/

section Register

variable {s} {t : FlowManager} {flow : FlowId} {type : XchanFlowType}

/-- Fewer flows are in order too. -/
theorem Filed.sublist (h : s.Filed) (hflows : ∀ v, List.Sublist (t.flows v) (s.flows v)) :
    t.Filed :=
  ⟨fun v w flow hv hw => h.once v w flow ((hflows v).subset hv) ((hflows w).subset hw),
    fun v => (h.nodup v).sublist (hflows v)⟩

theorem Sound.sublist (h : s.Sound) (hflows : ∀ v, List.Sublist (t.flows v) (s.flows v))
    (htypes : t.registeredAs = s.registeredAs) : t.Sound := by
  have hfiled := h.filed.sublist hflows
  refine ⟨hfiled, fun v flow hv => ?_, fun v hv => h.known v ((hflows v).subset hv),
    fun v hsingle => (hflows v).length_le.trans (h.single v hsingle)⟩
  have hs := (hflows v).subset hv
  rw [hfiled.getFlowType_eq hv, htypes, ← h.typed v flow hs, h.filed.getFlowType_eq hs]

/-- What a vector keeps when a flow is added to it. -/
def kept (s : FlowManager) (v : FlowVector) : List FlowId := if v.Single then [] else s.flows v

/-- A flow is added to the vector for its type. -/
theorem register_flows (type : XchanFlowType) (flow : FlowId) :
    (s.register type flow).flows =
      update s.flows type.vector (s.kept type.vector ++ [flow]) := by
  cases type <;> simp [register, add, clearVector, kept, XchanFlowType.vector, FlowVector.Single]

theorem register_registeredAs (type : XchanFlowType) (flow : FlowId) :
    (s.register type flow).registeredAs = update s.registeredAs flow type := by
  cases type <;> rfl

/-- The flows after a new one was added. -/
theorem mem_register {v : FlowVector} {g : FlowId} (hg : g ∈ (s.register type flow).flows v) :
    g ∈ s.flows v ∨ v = type.vector ∧ g = flow := by
  rw [register_flows] at hg
  by_cases hv : v = type.vector
  · subst hv
    rw [update_self] at hg
    rcases List.mem_append.mp hg with hg | hg
    · rw [kept] at hg
      split at hg
      · cases hg
      · exact .inl hg
    · exact .inr ⟨rfl, List.mem_singleton.mp hg⟩
  · rw [update_of_ne hv] at hg
    exact .inl hg

/-- **A new flow is registered.** The vectors stay in order exactly when its type is known. -/
theorem Sound.register_iff (h : s.Sound) (hzero : flow ≠ 0) (hnew : ∀ v, flow ∉ s.flows v) :
    (s.register type flow).Sound ↔ type.Known := by
  have hself : flow ∈ (s.register type flow).flows type.vector := by
    rw [register_flows, update_self]
    exact List.mem_append_right _ (List.mem_singleton.mpr rfl)
  refine ⟨fun ht => ?_, fun hknown => ?_⟩
  · have := ht.typed _ flow hself
    rw [ht.filed.getFlowType_eq hself, register_registeredAs, update_self] at this
    exact (vector_type_iff type).mp this
  · have hfiled : (s.register type flow).Filed := by
      refine ⟨fun v w g hv hw => ?_, fun v => ?_⟩
      · rcases mem_register hv with hv' | ⟨rfl, rfl⟩
        · rcases mem_register hw with hw' | ⟨rfl, rfl⟩
          · exact h.filed.once v w g hv' hw'
          · exact absurd hv' (hnew v)
        · rcases mem_register hw with hw' | ⟨rfl, -⟩
          · exact absurd hw' (hnew w)
          · rfl
      · rw [register_flows]
        by_cases hv : v = type.vector
        · subst hv
          rw [update_self, kept]
          split
          · exact List.nodup_singleton _
          · refine List.nodup_append.mpr ⟨h.filed.nodup _, List.nodup_singleton _, ?_⟩
            intro g hg g' hg' heq
            exact hnew _ (List.mem_singleton.mp hg' ▸ heq ▸ hg)
        · rw [update_of_ne hv]
          exact h.filed.nodup v
    refine ⟨hfiled, fun v g hg => ?_, fun v hg => ?_, fun v hsingle => ?_⟩
    · rw [hfiled.getFlowType_eq hg, register_registeredAs]
      rcases mem_register hg with hg | ⟨rfl, rfl⟩
      · have hne : g ≠ flow := fun heq => hnew v (heq ▸ hg)
        rw [update_of_ne hne, ← h.typed v g hg, h.filed.getFlowType_eq hg]
      · rw [update_self]
        exact (vector_type_iff type).mpr hknown
    · rcases mem_register hg with hg | ⟨-, hg⟩
      · exact h.known v hg
      · exact hzero hg.symm
    · rw [register_flows]
      by_cases hv : v = type.vector
      · subst hv
        rw [update_self, kept, if_pos hsingle]
        exact Nat.le_refl 1
      · rw [update_of_ne hv]
        exact h.single v hsingle

/-- **A call of `vlXchanRegisterNewFlow`.** -/
theorem Sound.registerNewFlow_iff (h : s.Sound) :
    (s.registerNewFlow type flow).Sound ↔
      (flow ≠ 0 → s.getFlowType flow = .invalid → type.Known) := by
  rw [registerNewFlow]
  split
  · next hzero => exact iff_of_true h fun hne => absurd hzero hne
  · next hzero =>
    split
    · next hold => exact iff_of_true h fun _ hnew => absurd hnew hold
    · next hnew =>
      have hnew := not_not.mp hnew
      rw [h.register_iff hzero (getFlowType_eq_invalid.mp hnew)]
      exact ⟨fun hk _ _ => hk, fun hk => hk hzero hnew⟩

end Register

/-! ## What unregistering does -/

section Unregister

variable {s} {v : FlowVector} {k : HostFlowTable} {i j : Fin maxHostFlows} {flow g : FlowId}

/-- A slot after a deallocation. -/
theorem deallocate_slot (l : HostFlowTable) :
    (s.deallocate l flow).hostFlows k i =
      if k = l ∧ lastSlot (fun i => (s.hostFlows l i).flowid == flow) = some i then {}
      else s.hostFlows k i := by
  rw [deallocate]
  rcases hlast : lastSlot fun i => (s.hostFlows l i).flowid == flow with _ | j
  · simp
  · by_cases hk : k = l
    · subst hk
      by_cases hi : i = j
      · subst hi
        simp [setHostFlow]
      · have hne : j ≠ i := fun h => hi h.symm
        simp [setHostFlow, hi, hne]
    · simp [setHostFlow, hk]

/-- What is given back is a slot, or the id of the IP unicast service. -/
theorem giveBack_frame (type : XchanFlowType) :
    (s.giveBack type flow).flows = s.flows ∧
      (s.giveBack type flow).registeredAs = s.registeredAs ∧
      (s.giveBack type flow).unregistered = s.unregistered ∧
      (s.giveBack type flow).dsgFlowId = s.dsgFlowId ∧
      (s.giveBack type flow).ipDmFlowId = s.ipDmFlowId := by
  have hdeallocate : ∀ l, (s.deallocate l flow).flows = s.flows ∧
      (s.deallocate l flow).registeredAs = s.registeredAs ∧
      (s.deallocate l flow).unregistered = s.unregistered ∧
      (s.deallocate l flow).dsgFlowId = s.dsgFlowId ∧
      (s.deallocate l flow).ipDmFlowId = s.ipDmFlowId := by
    intro l
    rw [deallocate]
    split <;> exact ⟨rfl, rfl, rfl, rfl, rfl⟩
  cases type with
  | ipM => exact hdeallocate _
  | socket => exact hdeallocate _
  | ipU =>
    rw [giveBack]
    split <;> exact ⟨rfl, rfl, rfl, rfl, rfl⟩
  | _ => exact ⟨rfl, rfl, rfl, rfl, rfl⟩

/-- The ids of the DSG and the IP direct multicast flow are forgotten. -/
def forget (s : FlowManager) (flow : FlowId) : FlowManager :=
  { s with
    dsgFlowId := if asInt s.dsgFlowId = flow then 0 else s.dsgFlowId
    ipDmFlowId := if asInt s.ipDmFlowId = flow then 0 else s.ipDmFlowId }

theorem unregisterFlow_eq :
    s.unregisterFlow flow =
      { (s.giveBack (s.getFlowType flow) flow).forget flow with
        flows := fun v => (s.flows v).erase flow
        unregistered := if s.getFlowType flow = .invalid then s.unregistered
          else s.unregistered ++ [flow] } := by
  obtain ⟨hflows, -, hun, -, -⟩ := @giveBack_frame s flow (s.getFlowType flow)
  rw [unregisterFlow, forget]
  by_cases hdsg : asInt (s.giveBack (s.getFlowType flow) flow).dsgFlowId = flow <;>
    by_cases hipDm : asInt (s.giveBack (s.getFlowType flow) flow).ipDmFlowId = flow <;>
    simp [hdsg, hipDm, hflows, hun]

theorem unregisterFlow_flows (v : FlowVector) :
    (s.unregisterFlow flow).flows v = (s.flows v).erase flow := by
  rw [unregisterFlow_eq]

theorem unregisterFlow_registeredAs :
    (s.unregisterFlow flow).registeredAs = s.registeredAs := by
  rw [unregisterFlow_eq]
  exact (giveBack_frame (s.getFlowType flow)).2.1

theorem unregisterFlow_sublist (v : FlowVector) :
    List.Sublist ((s.unregisterFlow flow).flows v) (s.flows v) := by
  rw [unregisterFlow_flows]
  exact List.erase_sublist

theorem table_type (h : v.table = some k) : v.type = k.type := by
  cases v <;> cases h <;> rfl

/-- A slot after an unregister: it is zeroed if it is the last with the id in the table of the
flow's type. -/
theorem unregisterFlow_slot :
    (s.unregisterFlow flow).hostFlows k i =
      if s.getFlowType flow = k.type ∧
          lastSlot (fun i => (s.hostFlows k i).flowid == flow) = some i then {}
      else s.hostFlows k i := by
  rw [unregisterFlow_eq]
  change (s.giveBack (s.getFlowType flow) flow).hostFlows k i = _
  rcases htype : s.getFlowType flow with _ | _ | _ | _ | _ | _ | _ | _ | _ | _ <;> cases k <;>
    simp [giveBack, deallocate_slot, HostFlowTable.type] <;> split <;> rfl

/-- The slots of another flow stay as they are. -/
theorem unregisterFlow_slot_of_ne (hne : g ≠ flow) (h : (s.hostFlows k i).flowid = flow) :
    ((s.unregisterFlow g).hostFlows k i).flowid = flow := by
  rw [unregisterFlow_slot, if_neg]
  · exact h
  · rintro ⟨-, hlast⟩
    obtain ⟨j, hj, hid⟩ | ⟨hnone, -⟩ := lastSlot_spec fun i => (s.hostFlows k i).flowid == g
    · obtain rfl := Option.some.inj (hlast.symm.trans hj)
      exact hne ((eq_of_beq hid).symm.trans h)
    · rw [hlast] at hnone
      cases hnone

/-- No slot gets a flow from an unregister. -/
theorem slot_of_unregisterFlow (hzero : flow ≠ 0)
    (h : ((s.unregisterFlow g).hostFlows k i).flowid = flow) :
    (s.hostFlows k i).flowid = flow := by
  rw [unregisterFlow_slot] at h
  split at h
  · exact absurd h.symm hzero
  · exact h

/-- Of two slots with the flow, one is left. -/
theorem unregisterFlow_slot_left (hij : i ≠ j) (hi : (s.hostFlows k i).flowid = flow)
    (hj : (s.hostFlows k j).flowid = flow) :
    ∃ l, ((s.unregisterFlow flow).hostFlows k l).flowid = flow := by
  by_cases hlast : lastSlot (fun i => (s.hostFlows k i).flowid == flow) = some i
  · refine ⟨j, ?_⟩
    rw [unregisterFlow_slot, if_neg]
    · exact hj
    · rintro ⟨-, hlast'⟩
      exact hij (Option.some.inj (hlast.symm.trans hlast'))
  · refine ⟨i, ?_⟩
    rw [unregisterFlow_slot, if_neg fun h => hlast h.2]
    exact hi

/-- An id that is kept is forgotten with the flow it is as an `int`. -/
theorem unregisterFlow_lastId (v : FlowVector) :
    (s.unregisterFlow flow).lastId v =
      (s.lastId v).map fun id => if asInt id = flow then 0 else id := by
  obtain ⟨-, -, -, hdsg, hipDm⟩ := @giveBack_frame s flow (s.getFlowType flow)
  rw [unregisterFlow_eq]
  cases v <;> simp [lastId, forget, hdsg, hipDm]

theorem unregisterFlow_lastId_ne (hzero : flow ≠ 0) (h : s.lastId v ≠ some flow) :
    (s.unregisterFlow g).lastId v ≠ some flow := by
  rw [unregisterFlow_lastId]
  rcases hid : s.lastId v with _ | id
  · simp
  · simp only [Option.map_some, ne_eq, Option.some.injEq]
    split
    · exact hzero.symm
    · exact fun heq => h (hid.trans (congrArg some heq))

/-- What is vacated is not taken by an unregister. -/
theorem Vacated.unregisterFlow (h : s.Vacated v flow) (hzero : flow ≠ 0) :
    (s.unregisterFlow g).Vacated v flow := by
  refine ⟨fun k hk i => ?_, fun hv => ?_⟩
  · rw [unregisterFlow_slot]
    split
    · exact hzero.symm
    · exact h.slot k hk i
  · rw [unregisterFlow_eq]
    change (s.giveBack (s.getFlowType g) g).ipuSvcFlowId ≠ flow
    rcases s.getFlowType g with _ | _ | _ | _ | _ | _ | _ | _ | _ | _
    case ipU =>
      rw [giveBack]
      split
      · exact hzero.symm
      · exact h.ipu hv
    case ipM | socket =>
      rw [giveBack, deallocate]
      split <;> exact h.ipu hv
    all_goals exact h.ipu hv

/-- **Unregistering a flow** gives back what is kept for it, where it has one slot at most. -/
theorem Filed.vacated (h : s.Filed) (hv : flow ∈ s.flows v) (hzero : flow ≠ 0)
    (hone : ∀ k, v.table = some k → ∀ i j, (s.hostFlows k i).flowid = flow →
      (s.hostFlows k j).flowid = flow → i = j) :
    (s.unregisterFlow flow).Vacated v flow := by
  have htype := h.getFlowType_eq hv
  refine ⟨fun k hk i hi => ?_, ?_⟩
  · rw [unregisterFlow_slot, htype, table_type hk] at hi
    split at hi
    · exact hzero hi.symm
    · next hlast =>
      obtain ⟨j, hj, hid⟩ | ⟨-, hnone⟩ := lastSlot_spec fun i => (s.hostFlows k i).flowid == flow
      · obtain rfl := hone k hk i j hi (eq_of_beq hid)
        exact hlast ⟨rfl, hj⟩
      · have := hnone i
        rw [beq_eq_false_iff_ne] at this
        exact this hi
  · rintro rfl
    rw [unregisterFlow_eq, htype]
    change (s.giveBack .ipU flow).ipuSvcFlowId ≠ flow
    rw [giveBack]
    split
    · exact hzero.symm
    · next hne => exact fun heq => hne heq.symm

end Unregister

/-! ## What the clearing does -/

section Clear

variable {s} {v w : FlowVector} {flow : FlowId}

/-- **The loop of the clearing** unregisters every other flow of the vector. -/
theorem clearLoop_eq {rest : List FlowId} : ∀ {front : List FlowId} {rounds : ℕ} {s : FlowManager},
    s.flows v = front ++ rest → (front ++ rest).Nodup → rest.length ≤ rounds →
      clearLoop v rounds front.length s = (everyOther rest).foldl unregisterFlow s := by
  have hnext : ∀ {front rest : List FlowId} {a : FlowId} {s : FlowManager},
      s.flows v = front ++ a :: rest → (front ++ a :: rest).Nodup →
        (s.unregisterFlow a).flows v = front ++ rest := by
    intro front rest a s hflows hnodup
    have ha : a ∉ front := fun h => (List.nodup_append.mp hnodup).2.2 a h a List.mem_cons_self rfl
    rw [unregisterFlow_flows, hflows, List.erase_append_right _ ha, List.erase_cons_head]
  have hstop : ∀ {front : List FlowId} {rounds : ℕ} {s : FlowManager} {n : ℕ},
      s.flows v = front → front.length ≤ n → clearLoop v rounds n s = s := by
    intro front rounds s n hflows hn
    cases rounds with
    | zero => rfl
    | succ rounds => rw [clearLoop, hflows, List.getElem?_eq_none hn]
  have hget : ∀ (front rest : List FlowId) (a : FlowId),
      (front ++ a :: rest)[front.length]? = some a := fun front rest a => by simp
  induction rest using everyOther.induct with
  | case1 =>
    intro front rounds s hflows _ _
    rw [hstop (hflows.trans (List.append_nil front)) (Nat.le_refl _)]
    rfl
  | case2 a =>
    intro front rounds s hflows hnodup hrounds
    obtain ⟨rounds, rfl⟩ : ∃ n, rounds = n + 1 := Nat.exists_eq_succ_of_ne_zero (by
      simp only [List.length_singleton] at hrounds
      omega)
    have hflows' := hnext hflows hnodup
    rw [List.append_nil] at hflows'
    rw [clearLoop, hflows, hget]
    exact hstop hflows' (Nat.le_succ _)
  | case3 a b rest ih =>
    intro front rounds s hflows hnodup hrounds
    simp only [List.length_cons] at hrounds
    obtain ⟨rounds, rfl⟩ : ∃ n, rounds = n + 1 := Nat.exists_eq_succ_of_ne_zero (by omega)
    have hflows' := hnext hflows hnodup
    have happend : front ++ b :: rest = (front ++ [b]) ++ rest := by simp
    have hlength : front.length + 1 = (front ++ [b]).length := by simp
    have hnodup' : ((front ++ [b]) ++ rest).Nodup := by
      rw [← happend]
      exact hnodup.sublist (List.Sublist.append_left (List.sublist_cons_self a _) front)
    rw [clearLoop, hflows, hget]
    simp only
    rw [hlength, ih (hflows'.trans happend) hnodup' (by omega)]
    rfl

theorem Filed.clearFlows_eq (h : s.Filed) (v : FlowVector) :
    s.clearFlows v = ((everyOther (s.flows v)).foldl unregisterFlow s).clearVector v := by
  have hnodup := h.nodup v
  rw [clearFlows]
  exact congrArg (clearVector · v) (@clearLoop_eq v _ [] _ _ (List.nil_append _).symm
    ((List.nil_append _).symm ▸ hnodup) (Nat.le_refl _))

/-- Some flows of a vector are unregistered, each once. -/
theorem Filed.unregisterAll : ∀ {flows : List FlowId} {s : FlowManager}, s.Filed → flows.Nodup →
    (∀ flow ∈ flows, flow ∈ s.flows v) →
      (flows.foldl unregisterFlow s).unregistered = s.unregistered ++ flows ∧
        ∀ w, w ≠ v → (flows.foldl unregisterFlow s).flows w = s.flows w := by
  intro flows
  induction flows with
  | nil => exact fun _ _ _ => ⟨(List.append_nil _).symm, fun _ _ => rfl⟩
  | cons flow flows ih =>
    intro s h hnodup hflows
    obtain ⟨hnew, hnodup⟩ := List.nodup_cons.mp hnodup
    have hv := hflows flow List.mem_cons_self
    have htype : s.getFlowType flow ≠ .invalid := h.getFlowType_eq hv ▸ type_ne_invalid v
    have hun : (s.unregisterFlow flow).unregistered = s.unregistered ++ [flow] := by
      rw [unregisterFlow_eq]
      exact if_neg htype
    obtain ⟨hall, hother⟩ := ih (h.sublist unregisterFlow_sublist) hnodup fun g hg => by
      rw [unregisterFlow_flows]
      have hne : g ≠ flow := fun heq => hnew (heq ▸ hg)
      exact (List.mem_erase_of_ne hne).mpr (hflows g (List.mem_cons_of_mem flow hg))
    refine ⟨?_, fun w hw => ?_⟩
    · rw [List.foldl_cons, hall, hun, List.append_assoc, List.singleton_append]
    · rw [List.foldl_cons, hother w hw, unregisterFlow_flows]
      exact List.erase_of_not_mem fun hmem => hw (h.once w v flow hmem hv)

/-- A vector is cleared. -/
theorem Filed.clearFlows_spec (h : s.Filed) (v : FlowVector) :
    (s.clearFlows v).unregistered = s.unregistered ++ everyOther (s.flows v) ∧
      (s.clearFlows v).flows = update s.flows v [] := by
  have hsub := everyOther_sublist (s.flows v)
  obtain ⟨hall, hother⟩ := h.unregisterAll ((h.nodup v).sublist hsub) hsub.subset
  rw [h.clearFlows_eq]
  refine ⟨hall, funext fun w => ?_⟩
  by_cases hw : w = v
  · subst hw
    simp only [clearVector, update_self]
  · simp only [clearVector, update_of_ne hw]
    exact hother w hw

theorem Filed.clearFlows (h : s.Filed) (v : FlowVector) : (s.clearFlows v).Filed := by
  refine h.sublist fun w => ?_
  rw [(h.clearFlows_spec v).2]
  by_cases hw : w = v
  · subst hw
    rw [update_self]
    exact List.nil_sublist _
  · rw [update_of_ne hw]

/-- Some vectors are cleared. -/
theorem Filed.clearAll : ∀ {vs : List FlowVector} {s : FlowManager}, s.Filed → vs.Nodup →
    (vs.foldl FlowManager.clearFlows s).Filed ∧
      (vs.foldl FlowManager.clearFlows s).unregistered =
        s.unregistered ++ vs.flatMap (fun v => everyOther (s.flows v)) ∧
      ∀ w, (vs.foldl FlowManager.clearFlows s).flows w = if w ∈ vs then [] else s.flows w := by
  intro vs
  induction vs with
  | nil => exact fun h _ => ⟨h, (List.append_nil _).symm, fun _ => rfl⟩
  | cons v vs ih =>
    intro s h hnodup
    obtain ⟨hnew, hnodup⟩ := List.nodup_cons.mp hnodup
    obtain ⟨hun, hflows⟩ := h.clearFlows_spec v
    obtain ⟨hfiled, hall, hother⟩ := ih (h.clearFlows v) hnodup
    refine ⟨hfiled, ?_, fun w => ?_⟩
    · rw [List.foldl_cons, hall, hun, List.flatMap_cons, List.append_assoc, hflows]
      congr 2
      refine List.flatMap_congr fun w hw => ?_
      have hne : w ≠ v := fun heq => hnew (heq ▸ hw)
      rw [update_of_ne hne]
    · rw [List.foldl_cons, hother, hflows]
      by_cases hw : w = v
      · subst hw
        simp
      · simp [hw]

/-- **What the clearing keeps of a flow.** What an unregister of another flow keeps, and does not
depend on the vectors, is kept while the vectors without the flow are cleared. -/
theorem Filed.clearAll_keeps {R : FlowManager → Prop}
    (hother : ∀ s g, g ≠ flow → R s → R (s.unregisterFlow g))
    (hvector : ∀ s v, R s → R (s.clearVector v)) :
    ∀ {vs : List FlowVector} {s : FlowManager}, s.Filed → vs.Nodup →
      (∀ v ∈ vs, flow ∉ s.flows v) → R s → R (vs.foldl FlowManager.clearFlows s) := by
  intro vs
  induction vs with
  | nil => exact fun _ _ _ hR => hR
  | cons v vs ih =>
    intro s h hnodup hnone hR
    obtain ⟨hnew, hnodup⟩ := List.nodup_cons.mp hnodup
    refine ih (h.clearFlows v) hnodup (fun w hw => ?_) ?_
    · have hne : w ≠ v := fun heq => hnew (heq ▸ hw)
      rw [(h.clearFlows_spec v).2, update_of_ne hne]
      exact hnone w (List.mem_cons_of_mem v hw)
    · rw [h.clearFlows_eq]
      refine hvector _ _ (foldl_keeps_mem (fun t g hg ht => hother t g (fun heq => ?_) ht) hR)
      exact hnone v List.mem_cons_self (heq ▸ (everyOther_sublist _).subset hg)

/-- Clearing the vectors, seen from one of them. -/
theorem clearOrder_split (v : FlowVector) :
    ∃ front back, clearOrder = front ++ v :: back ∧ front.Nodup ∧ back.Nodup ∧ v ∉ front ∧
      v ∉ back := by
  have hmem : v ∈ clearOrder := by cases v <;> decide
  have hnodup : clearOrder.Nodup := by decide
  obtain ⟨front, back, hsplit⟩ := List.append_of_mem hmem
  rw [hsplit] at hnodup
  obtain ⟨hfront, hback, hdisjoint⟩ := List.nodup_append.mp hnodup
  obtain ⟨hv, hback⟩ := List.nodup_cons.mp hback
  exact ⟨front, back, hsplit, hfront, hback,
    fun h => hdisjoint v h v List.mem_cons_self rfl, hv⟩

/-- **How often a flow is unregistered** by the clearing. -/
theorem Filed.count_unregistered (h : s.Filed) (hv : flow ∈ s.flows v) :
    s.clearFlowManager.unregistered.count flow =
      s.unregistered.count flow + (everyOther (s.flows v)).count flow := by
  have hnone : ∀ vs : List FlowVector, v ∉ vs →
      (vs.flatMap fun v => everyOther (s.flows v)).count flow = 0 := by
    refine fun vs hvs => List.count_eq_zero.mpr fun hmem => ?_
    obtain ⟨w, hw, hmem⟩ := List.mem_flatMap.mp hmem
    have heq : w = v := h.once w v flow ((everyOther_sublist _).subset hmem) hv
    exact hvs (heq ▸ hw)
  obtain ⟨front, back, hsplit, -, -, hfront, hback⟩ := clearOrder_split v
  rw [clearFlowManager, (h.clearAll (by decide)).2.1, hsplit, List.flatMap_append,
    List.flatMap_cons, List.count_append, List.count_append, List.count_append, hnone front hfront,
    hnone back hback]
  omega

/-- A flow that is not registered is not unregistered by the clearing. -/
theorem Filed.count_of_unregistered (h : s.Filed) (hnone : ∀ v, flow ∉ s.flows v) :
    s.clearFlowManager.unregistered.count flow = s.unregistered.count flow := by
  rw [clearFlowManager, (h.clearAll (by decide)).2.1, List.count_append, Nat.add_eq_left]
  refine List.count_eq_zero.mpr fun hmem => ?_
  obtain ⟨w, -, hmem⟩ := List.mem_flatMap.mp hmem
  exact hnone w ((everyOther_sublist _).subset hmem)

theorem held_of_mem (h : s.Filed) (hv : flow ∈ s.flows v) : s.held flow = 1 := by
  rw [held, h.getFlowType_eq hv, if_neg (type_ne_invalid v)]

theorem held_of_none (hnone : ∀ v, flow ∉ s.flows v) : s.held flow = 0 :=
  if_pos (getFlowType_eq_invalid.mpr hnone)

/-- The vector with the flow is cleared after some, and before the others. -/
theorem Filed.clearFlowManager_keeps {R T : FlowManager → Prop} (h : s.Filed)
    (hv : flow ∈ s.flows v) (honly : (s.flows v).length ≤ 1)
    (hR : ∀ s g, g ≠ flow → R s → R (s.unregisterFlow g))
    (hRv : ∀ s v, R s → R (s.clearVector v))
    (hact : ∀ t : FlowManager, t.Filed → flow ∈ t.flows v → R t → T (t.unregisterFlow flow))
    (hT : ∀ s g, g ≠ flow → T s → T (s.unregisterFlow g))
    (hTv : ∀ s v, T s → T (s.clearVector v)) (hs : R s) : T s.clearFlowManager := by
  obtain ⟨front, back, hsplit, hfront, hback, hvf, hvb⟩ := clearOrder_split v
  have hnone : ∀ w, w ≠ v → flow ∉ s.flows w := fun w hw hmem => hw (h.once w v flow hmem hv)
  obtain ⟨hfiled, -, hflows⟩ := h.clearAll hfront
  have hrest : (front.foldl FlowManager.clearFlows s).flows v = s.flows v := by
    rw [hflows, if_neg hvf]
  have hmid : R (front.foldl FlowManager.clearFlows s) :=
    h.clearAll_keeps hR hRv hfront (fun w hw => hnone w fun heq => hvf (heq ▸ hw)) hs
  have hone : s.flows v = [flow] := by
    rcases hfl : s.flows v with _ | ⟨a, _ | ⟨b, l⟩⟩
    · rw [hfl] at hv
      cases hv
    · rw [hfl] at hv
      rw [List.mem_singleton.mp hv]
    · rw [hfl] at honly
      exact absurd honly (by simp)
  rw [clearFlowManager, hsplit, List.foldl_append, List.foldl_cons]
  refine (hfiled.clearFlows v).clearAll_keeps hT hTv hback (fun w hw => ?_) ?_
  · have hne : w ≠ v := fun heq => hvb (heq ▸ hw)
    rw [(hfiled.clearFlows_spec v).2, update_of_ne hne, hflows]
    split
    · exact List.not_mem_nil
    · exact hnone w hne
  · rw [hfiled.clearFlows_eq, hrest, hone]
    exact hTv _ _ (hact _ hfiled (hrest.symm ▸ hv) hmid)

theorem clearVector_lastId (t : FlowManager) (v w : FlowVector) :
    (t.clearVector w).lastId v = t.lastId v := by
  cases v <;> rfl

/-- **Which id is forgotten.** That of a flow is forgotten by the clearing if it is recognised. -/
theorem Filed.lastId_ne (h : s.Filed) (hv : flow ∈ s.flows v) (hzero : flow ≠ 0)
    (honly : ∀ v, (s.flows v).length ≤ 1)
    (hknown : s.lastId v = some flow → s.getFlowType (asInt flow) ≠ .invalid) :
    s.clearFlowManager.lastId v ≠ some flow := by
  by_cases hlast : s.lastId v = some flow
  · obtain ⟨w, hw⟩ : ∃ w, asInt flow ∈ s.flows w := by
      by_contra hnone
      exact hknown hlast (getFlowType_eq_invalid.mpr (not_exists.mp hnone))
    refine h.clearFlowManager_keeps (R := fun _ => True)
      (T := fun t => t.lastId v ≠ some flow) hw (honly w) (fun _ _ _ hR => hR) (fun _ _ hR => hR)
      (fun t _ _ _ => ?_) (fun t g _ hT => unregisterFlow_lastId_ne hzero hT)
      (fun t w hT => clearVector_lastId t v w ▸ hT) trivial
    rw [unregisterFlow_lastId]
    rcases t.lastId v with _ | id
    · simp
    · simp only [Option.map_some, ne_eq, Option.some.injEq]
      split
      · exact hzero.symm
      · next hne => exact fun heq => hne (congrArg asInt heq)
  · exact h.clearFlowManager_keeps (R := fun t => t.lastId v ≠ some flow)
      (T := fun t => t.lastId v ≠ some flow) hv (honly v)
      (fun t g _ hT => unregisterFlow_lastId_ne hzero hT)
      (fun t w hT => clearVector_lastId t v w ▸ hT)
      (fun t _ _ hT => unregisterFlow_lastId_ne hzero hT)
      (fun t g _ hT => unregisterFlow_lastId_ne hzero hT)
      (fun t w hT => clearVector_lastId t v w ▸ hT) hlast

/-- An id that no registered flow has as an `int` is not forgotten. -/
theorem Filed.lastId_eq (h : s.Filed) (hlast : s.lastId v = some flow)
    (hnone : s.getFlowType (asInt flow) = .invalid) :
    s.clearFlowManager.lastId v = some flow := by
  refine @Filed.clearAll_keeps (asInt flow) (fun t => t.lastId v = some flow)
    (fun t g hg hR => ?_) (fun t w hR => (clearVector_lastId t v w).trans hR) _ s h (by decide)
    (fun w _ => getFlowType_eq_invalid.mp hnone w) hlast
  rw [unregisterFlow_lastId, hR, Option.map_some, if_neg hg.symm]

/-- **When the clearing unregisters every flow.** -/
theorem Sound.clearsAll_iff (h : s.Sound) (hledger : s.Ledger) :
    s.ClearsAll ↔
      (∀ v, (s.flows v).length ≤ 1) ∧ s.OneSlot ∧ s.NoneDropped ∧ s.Recognised := by
  refine ⟨fun hall => ?_, fun ⟨honly, hone, hdropped, hknown⟩ =>
    ⟨fun flow => ?_, fun v flow hv => ?_⟩⟩
  · have honly : ∀ v, (s.flows v).length ≤ 1 := by
      intro v
      by_contra hlong
      -- the second flow of the vector is passed over
      rcases hflows : s.flows v with _ | ⟨a, _ | ⟨b, l⟩⟩
      · exact hlong (by rw [hflows]; exact Nat.zero_le 1)
      · exact hlong (by rw [hflows]; exact Nat.le_refl 1)
      · have hb : b ∈ s.flows v := by
          rw [hflows]
          exact List.mem_cons_of_mem a List.mem_cons_self
        have hnodup := h.filed.nodup v
        rw [hflows] at hnodup
        obtain ⟨ha, hnodup⟩ := List.nodup_cons.mp hnodup
        have hzero : (everyOther (s.flows v)).count b = 0 := by
          refine List.count_eq_zero.mpr fun hmem => ?_
          rw [hflows] at hmem
          rcases List.mem_cons.mp hmem with heq | hmem
          · exact ha (heq ▸ List.mem_cons_self)
          · exact (List.nodup_cons.mp hnodup).1 ((everyOther_sublist l).subset hmem)
        have hcount := hall.unregisters b
        rw [h.filed.count_unregistered hb, hzero] at hcount
        have := hledger b
        rw [held_of_mem h.filed hb] at this
        omega
    refine ⟨honly, fun v k hk flow hv i j hi hj => ?_, fun flow => ?_,
      fun v flow hv hlast hnone => (hall.releases v flow hv).last (h.filed.lastId_eq hlast hnone)⟩
    · by_contra hij
      -- one of the slots is left
      obtain ⟨l, hl⟩ := h.filed.clearFlowManager_keeps
        (R := fun s => (s.hostFlows k i).flowid = flow ∧ (s.hostFlows k j).flowid = flow)
        (T := fun s => ∃ l, (s.hostFlows k l).flowid = flow) hv (honly v)
        (fun s g hg hR => ⟨unregisterFlow_slot_of_ne hg hR.1, unregisterFlow_slot_of_ne hg hR.2⟩)
        (fun _ _ hR => hR) (fun t _ _ hR => unregisterFlow_slot_left hij hR.1 hR.2)
        (fun s g hg hT => hT.imp fun l hl => unregisterFlow_slot_of_ne hg hl)
        (fun _ _ hT => hT) ⟨hi, hj⟩
      exact (hall.releases v flow hv).slot k hk l hl
    · rw [← hall.unregisters flow]
      by_cases hmem : ∃ v, flow ∈ s.flows v
      · obtain ⟨v, hv⟩ := hmem
        rw [h.filed.count_unregistered hv, everyOther_of_length_le (honly v),
          List.count_eq_one_of_mem (h.filed.nodup v) hv, held_of_mem h.filed hv]
      · have hnone := not_exists.mp hmem
        rw [h.filed.count_of_unregistered hnone, held_of_none hnone]
        rfl
  · rw [hdropped flow]
    by_cases hmem : ∃ v, flow ∈ s.flows v
    · obtain ⟨v, hv⟩ := hmem
      rw [h.filed.count_unregistered hv, everyOther_of_length_le (honly v),
        List.count_eq_one_of_mem (h.filed.nodup v) hv, held_of_mem h.filed hv]
    · have hnone := not_exists.mp hmem
      rw [h.filed.count_of_unregistered hnone, held_of_none hnone]
      rfl
  · have hzero : flow ≠ 0 := fun heq => h.known v (heq ▸ hv)
    refine ⟨?_, h.filed.lastId_ne hv hzero honly (hknown v flow hv)⟩
    refine h.filed.clearFlowManager_keeps
      (R := fun t => ∀ k, v.table = some k → ∀ i j, (t.hostFlows k i).flowid = flow →
        (t.hostFlows k j).flowid = flow → i = j)
      (T := fun t => t.Vacated v flow) hv (honly v)
      (fun t g hg hR k hk i j hi hj => hR k hk i j (slot_of_unregisterFlow hzero hi)
        (slot_of_unregisterFlow hzero hj))
      (fun _ _ hR => hR) (fun t ht hmem hR => ht.vacated hmem hzero hR)
      (fun t g _ hT => hT.unregisterFlow hzero)
      (fun t _ hT => ⟨hT.slot, hT.ipu⟩) fun k hk => hone v k hk flow hv

end Clear

/-! ## Runs of the flow manager -/

variable {s}

theorem Filed.clearFlowManager_flows (h : s.Filed) (v : FlowVector) :
    s.clearFlowManager.flows v = [] := by
  have hmem : v ∈ clearOrder := by cases v <;> decide
  rw [clearFlowManager, (h.clearAll (by decide)).2.2, if_pos hmem]

theorem Sound.clearFlowManager (h : s.Sound) : s.clearFlowManager.Sound := by
  have hflows := h.filed.clearFlowManager_flows
  have hempty : ∀ {v flow}, flow ∉ s.clearFlowManager.flows v := fun {v flow} hmem => by
    rw [hflows] at hmem
    cases hmem
  refine ⟨⟨fun v w flow hv _ => absurd hv hempty, fun v => ?_⟩,
    fun v flow hv => absurd hv hempty, fun v => hempty, fun v _ => ?_⟩
  · rw [hflows]
    exact List.nodup_nil
  · rw [hflows]
    exact Nat.zero_le 1

/-- What leaves the vectors alone. -/
theorem Sound.congr {t : FlowManager} (h : s.Sound) (hflows : t.flows = s.flows)
    (htypes : t.registeredAs = s.registeredAs) : t.Sound :=
  h.sublist (fun _ => hflows ▸ List.Sublist.refl _) htypes

/-! ### The ledger -/

section Ledger

variable {t : FlowManager} {flow : FlowId} {type : XchanFlowType}

theorem held_le_of_sub (ht : t.Filed) (h : s.Filed) {g : FlowId}
    (hsub : ∀ v, g ∈ t.flows v → ∃ w, g ∈ s.flows w) : t.held g ≤ s.held g := by
  by_cases hmem : ∃ v, g ∈ t.flows v
  · obtain ⟨v, hv⟩ := hmem
    obtain ⟨w, hw⟩ := hsub v hv
    rw [held_of_mem ht hv, held_of_mem h hw]
  · rw [held_of_none (not_exists.mp hmem)]
    exact Nat.zero_le _

theorem held_le_one (flow : FlowId) : s.held flow ≤ 1 := by
  rw [held]
  split <;> decide

theorem Ledger.congr (h : s.Ledger) (hflows : t.flows = s.flows)
    (hreg : t.registrations = s.registrations) (hun : t.unregistered = s.unregistered) :
    t.Ledger := by
  intro g
  have hheld : t.held g = s.held g := by rw [held, held, getFlowType, getFlowType, hflows]
  rw [hheld, hreg, hun]
  exact h g

theorem Ledger.registerNewFlow (h : s.Ledger) : (s.registerNewFlow type flow).Ledger := by
  rw [FlowManager.registerNewFlow]
  split
  · exact h
  · split
    · exact h
    · intro g
      have hun : (s.register type flow).unregistered = s.unregistered := by cases type <;> rfl
      have hreg : (s.register type flow).registrations = s.registrations ++ [flow] := by
        cases type <;> rfl
      rw [hun, hreg, List.count_append]
      have hg := h g
      by_cases hgf : g = flow
      · subst hgf
        rw [List.count_singleton_self]
        have := (s.register type g).held_le_one g
        omega
      · have hheld : (s.register type flow).held g ≤ s.held g := by
          by_cases hinv : s.getFlowType g = .invalid
          · have hnone : ∀ v, g ∉ (s.register type flow).flows v := fun v hv => by
              rcases mem_register hv with hv | ⟨-, heq⟩
              · exact getFlowType_eq_invalid.mp hinv v hv
              · exact hgf heq
            rw [held_of_none hnone]
            exact Nat.zero_le _
          · rw [held, held, if_neg hinv]
            split <;> decide
        omega

theorem Ledger.unregisterFlow (h : s.Ledger) (hs : s.Filed) : (s.unregisterFlow flow).Ledger := by
  intro g
  have hreg : (s.unregisterFlow flow).registrations = s.registrations := by
    rw [unregisterFlow_eq]
    change (s.giveBack (s.getFlowType flow) flow).registrations = _
    rcases s.getFlowType flow with _ | _ | _ | _ | _ | _ | _ | _ | _ | _
    case ipU =>
      rw [giveBack]
      split <;> rfl
    case ipM | socket =>
      rw [giveBack, deallocate]
      split <;> rfl
    all_goals rfl
  have hun : (s.unregisterFlow flow).unregistered =
      if s.getFlowType flow = .invalid then s.unregistered else s.unregistered ++ [flow] := by
    rw [unregisterFlow_eq]
  have hheld := held_le_of_sub (g := g) (hs.sublist (@unregisterFlow_sublist s flow)) hs
    fun v hv => ⟨v, (unregisterFlow_sublist v).subset hv⟩
  have hg := h g
  rw [hreg, hun]
  split
  · omega
  · next hinv =>
    rw [List.count_append]
    by_cases hgf : g = flow
    · subst hgf
      have hnone : ∀ v, g ∉ (s.unregisterFlow g).flows v := fun v hv => by
        rw [unregisterFlow_flows] at hv
        exact (hs.nodup v).not_mem_erase hv
      have hone : s.held g = 1 := if_neg hinv
      rw [held_of_none hnone, List.count_singleton_self]
      omega
    · rw [List.count_singleton, if_neg (by simpa using fun heq => hgf heq.symm)]
      omega

theorem clearLoop_keeps {R : FlowManager → Prop} {v : FlowVector}
    (hR : ∀ s g, R s → R (s.unregisterFlow g)) :
    ∀ {rounds i : ℕ} {s : FlowManager}, R s → R (clearLoop v rounds i s) := by
  intro rounds
  induction rounds with
  | zero => exact fun hs => hs
  | succ rounds ih =>
    intro i s hs
    rw [clearLoop]
    split
    · exact ih (hR s _ hs)
    · exact hs

theorem Ledger.clearFlowManager (h : s.Ledger) (hs : s.Filed) : s.clearFlowManager.Ledger := by
  refine (foldl_keeps (R := fun t : FlowManager => t.Filed ∧ t.Ledger) (fun t v ht => ?_)
    clearOrder ⟨hs, h⟩).2
  refine ⟨ht.1.clearFlows v, fun g => ?_⟩
  have hloop : (clearLoop v (t.flows v).length 0 t).Filed ∧
      (clearLoop v (t.flows v).length 0 t).Ledger :=
    clearLoop_keeps (R := fun t => t.Filed ∧ t.Ledger)
      (fun u g hu => ⟨hu.1.sublist unregisterFlow_sublist, hu.2.unregisterFlow hu.1⟩) ht
  have hheld := held_le_of_sub (g := g) (ht.1.clearFlows v) hloop.1 fun w hw => by
    refine ⟨w, ?_⟩
    by_cases hwv : w = v
    · subst hwv
      simp [FlowManager.clearFlows, clearVector] at hw
    · simpa [FlowManager.clearFlows, clearVector, hwv] using hw
  exact (Nat.add_le_add_left hheld _).trans (hloop.2 g)

end Ledger

/-- **One call.** Where it keeps the vectors in order, it does what it should exactly when it is
orderly. -/
theorem Sound.call_iff (h : s.Sound) (hledger : s.Ledger) (c : Call) :
    (s.Behaves c ∧ (s.call c).Sound) ↔ s.Orderly c := by
  cases c with
  | register type flow => exact Iff.trans (and_iff_right trivial) h.registerNewFlow_iff
  | unregister flow =>
    exact iff_of_true
      ⟨trivial, h.sublist unregisterFlow_sublist unregisterFlow_registeredAs⟩ trivial
  | createIpMulticastFlow joined =>
    refine iff_of_true ⟨trivial, ?_⟩ trivial
    rw [call, createIpMulticastFlow]
    split
    · exact h.congr rfl rfl
    · cases joined <;> exact h.congr rfl rfl
  | createSocketFlow flowid =>
    refine iff_of_true ⟨trivial, ?_⟩ trivial
    rw [call, createSocketFlow]
    split <;> exact h.congr rfl rfl
  | socketFlowTask i connected =>
    refine iff_of_true ⟨trivial, ?_⟩ trivial
    cases connected <;> exact h.congr rfl rfl
  | deallocate k flow =>
    refine iff_of_true ⟨trivial, ?_⟩ trivial
    rw [call, deallocate]
    split <;> exact h.congr rfl rfl
  | clear => exact Iff.trans (and_iff_left h.clearFlowManager) (h.clearsAll_iff hledger)

/-- The ledger is kept by every call. -/
theorem Ledger.call (h : s.Ledger) (hs : s.Sound) (c : Call) : (s.call c).Ledger := by
  cases c with
  | register type flow => exact h.registerNewFlow
  | unregister flow => exact h.unregisterFlow hs.filed
  | createIpMulticastFlow joined =>
    rw [FlowManager.call, createIpMulticastFlow]
    split
    · exact h.congr rfl rfl rfl
    · cases joined <;> exact h.congr rfl rfl rfl
  | createSocketFlow flowid =>
    rw [FlowManager.call, createSocketFlow]
    split <;> exact h.congr rfl rfl rfl
  | socketFlowTask i connected => cases connected <;> exact h.congr rfl rfl rfl
  | deallocate k flow =>
    rw [FlowManager.call, deallocate]
    split <;> exact h.congr rfl rfl rfl
  | clear => exact h.clearFlowManager hs.filed

/-- No flow is registered at first. -/
theorem sound_init : ({} : FlowManager).Sound :=
  ⟨⟨fun _ _ _ hv => absurd hv List.not_mem_nil, fun _ => List.nodup_nil⟩,
    fun _ _ hv => absurd hv List.not_mem_nil, fun _ => List.not_mem_nil,
    fun _ _ => Nat.zero_le 1⟩

/-- **The flow manager over any run.** The vectors are in order in every state, and after every
clearing each flow has been unregistered as often as it was registered, exactly when every call
is orderly. -/
theorem flows_kept (calls : List Call) :
    (Throughout step Sound {} calls ∧ EachStep step Behaves {} calls) ↔
      EachStep step Orderly {} calls := by
  refine Throughout.and_eachStep_iff_of (J := Ledger) (fun s c h hl hc => ?_)
    (fun s c t h hl hb hs ht => ?_) sound_init fun _ => Nat.zero_le _
  · obtain ⟨hb, ht⟩ := (h.call_iff hl c).mpr hc
    exact ⟨hb, s.call c, rfl, ht, hl.call h c⟩
  · obtain rfl := Option.some.inj hs
    exact (h.call_iff hl c).mp ⟨hb, ht⟩

/-- Two MPEG flows are registered and the flow manager is cleared: the second one is dropped
without having been unregistered. -/
theorem flow_passedOver :
    ¬ ∀ calls, Throughout step Sound {} calls ∧ EachStep step Behaves {} calls := by
  intro h
  have hclear : ((({} : FlowManager).registerNewFlow .mpeg 1).registerNewFlow .mpeg 2).ClearsAll :=
    (((h [.register .mpeg 1, .register .mpeg 2, .clear]).2.2 _ rfl).2 _ rfl).1
  exact absurd (hclear.unregisters 2) (by decide +kernel)

end FlowManager

end MediaFramework
