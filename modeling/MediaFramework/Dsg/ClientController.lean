import Mathlib.Data.BitVec
import Mathlib.Data.Fintype.Sum
import MediaFramework.Lib.Family
import MediaFramework.Lib.Run
import MediaFramework.Lib.Slots

/-!
# The DSG client controller

Clients register with the controller for a kind of tunnel and an id, or for the addresses of a
basic tunnel. The registrations are kept in two tables, whose free slots have the registration
id zero, and counted beside them.

`vlDsgUnregisterClient` clears every slot with the id it is given. So it does what it should
unless that id is the one of the free slots; and a registration does unless the counter that
names the registrants, which is an `int`, has wrapped.
-/

namespace MediaFramework

open Function (update update_of_ne update_self)

/-! ## The tables -/

/-- `VL_DSG_MAX_DSG_CLIENTS`, the size of each table. -/
abbrev maxDsgClients : ℕ := 0x20

/-- `VL_DSG_CLIENT_ID_ENC_TYPE`. -/
inductive ClientIdEncType
  | none
  | bcast
  | wkma
  | cas
  | app
  | invalid
  deriving DecidableEq

/-- `VL_DSG_CLIENT`. -/
structure DsgClient where
  nRegistrationId : BitVec 64 := 0
  /-- the callback; zero is `NULL` -/
  pfClientCB : BitVec 64 := 0
  nAppData : BitVec 64 := 0
  eClientType : ClientIdEncType := .none
  nClientId : BitVec 64 := 0
  nTotalCallbacks : BitVec 64 := 0
  nTotalBytes : BitVec 64 := 0
  /-- ghost: a registration filled the slot, and it was not zeroed since -/
  registered : Bool := false

/-- `VL_DSG_BASIC_CLIENT`, without its statistics. -/
structure DsgBasicClient where
  nRegistrationId : BitVec 64 := 0
  pfClientCB : BitVec 64 := 0
  nAppData : BitVec 64 := 0
  dsgTunnelAddress : BitVec 64 := 0
  srcIpAddress : BitVec 64 := 0
  dstIpAddress : BitVec 64 := 0
  nSrcPort : BitVec 16 := 0
  nDstPort : BitVec 16 := 0
  /-- ghost: a registration filled the slot, and it was not zeroed since -/
  registered : Bool := false

/-- What the controller keeps. -/
structure ClientController where
  aDsgClients : Fin maxDsgClients → DsgClient := fun _ => {}
  aDsgBasicClients : Fin maxDsgClients → DsgBasicClient := fun _ => {}
  /-- an `int`, for the next registrant -/
  nRegistrantId : BitVec 32 := 1
  nAppClients : ℤ := 0
  nClients : ℤ := 0
  nBasicClients : ℤ := 0

/-- A slot of either table. -/
abbrev ClientSlot := Fin maxDsgClients ⊕ Fin maxDsgClients

namespace ClientController

variable (s : ClientController)

/-- The registration ids of all slots. -/
def ids : ClientSlot → BitVec 64 :=
  Sum.elim (fun i => (s.aDsgClients i).nRegistrationId)
    fun i => (s.aDsgBasicClients i).nRegistrationId

/-- The slots in use. -/
def used : ClientSlot → Bool :=
  Sum.elim (fun i => (s.aDsgClients i).registered) fun i => (s.aDsgBasicClients i).registered

/-- The id the next registrant gets, as an `unsigned long`. -/
def nextId : BitVec 64 := s.nRegistrantId.signExtend 64

/-! ## Registering -/

/-- The first free slot for a client. -/
def freeSlot : Option (Fin maxDsgClients) :=
  firstSlot fun i => (s.aDsgClients i).nRegistrationId == 0

/-- The first free slot for a basic client. -/
def freeBasicSlot : Option (Fin maxDsgClients) :=
  firstSlot fun i => (s.aDsgBasicClients i).nRegistrationId == 0

/-- What a client asks for. -/
structure Request where
  pfClientCB : BitVec 64
  nAppData : BitVec 64
  eClientType : ClientIdEncType
  nClientId : BitVec 64

/-- What a basic client asks for. -/
structure BasicRequest where
  pfClientCB : BitVec 64
  nAppData : BitVec 64
  dsgTunnelAddress : BitVec 64
  srcIpAddress : BitVec 64
  dstIpAddress : BitVec 64
  nSrcPort : BitVec 16
  nDstPort : BitVec 16

/-- The zeroed slot, filled. -/
def Request.client (r : Request) (nRegistrationId : BitVec 64) : DsgClient :=
  { pfClientCB := r.pfClientCB, nAppData := r.nAppData, eClientType := r.eClientType
    nClientId := r.nClientId, nRegistrationId := nRegistrationId, registered := true }

/-- The zeroed basic slot, filled. -/
def BasicRequest.client (r : BasicRequest) (nRegistrationId : BitVec 64) : DsgBasicClient :=
  { pfClientCB := r.pfClientCB, nAppData := r.nAppData, dsgTunnelAddress := r.dsgTunnelAddress
    srcIpAddress := r.srcIpAddress, dstIpAddress := r.dstIpAddress, nSrcPort := r.nSrcPort
    nDstPort := r.nDstPort, nRegistrationId := nRegistrationId, registered := true }

/-- The slot `i` is filled and counted. -/
def fill (r : Request) (i : Fin maxDsgClients) : ClientController :=
  { s with
    aDsgClients := update s.aDsgClients i (r.client s.nextId)
    nRegistrantId := s.nRegistrantId + 1
    nClients := s.nClients + 1
    nAppClients := if r.eClientType = .app then s.nAppClients + 1 else s.nAppClients }

/-- The basic slot `i` is filled and counted. -/
def fillBasic (r : BasicRequest) (i : Fin maxDsgClients) : ClientController :=
  { s with
    aDsgBasicClients := update s.aDsgBasicClients i (r.client s.nextId)
    nRegistrantId := s.nRegistrantId + 1
    nBasicClients := s.nBasicClients + 1 }

/-- `vlDsgRegisterClient`; in the first place the id of the registrant, zero if there are too
many clients. -/
def registerClient (r : Request) : BitVec 64 × ClientController :=
  match s.freeSlot with
  | none => (0, s)
  | some i => (s.nextId, s.fill r i)

/-- `vlDsgRegisterBasicClient`. -/
def registerBasicClient (r : BasicRequest) : BitVec 64 × ClientController :=
  match s.freeBasicSlot with
  | none => (0, s)
  | some i => (s.nextId, s.fillBasic r i)

/-! ## Unregistering -/

/-- The slot `i` is counted off and zeroed. -/
def clear (i : Fin maxDsgClients) : ClientController :=
  { s with
    aDsgClients := update s.aDsgClients i {}
    nClients := s.nClients - 1
    nAppClients :=
      if (s.aDsgClients i).eClientType = .app then s.nAppClients - 1 else s.nAppClients }

/-- The basic slot `i` is zeroed and counted off. -/
def clearBasic (i : Fin maxDsgClients) : ClientController :=
  { s with
    aDsgBasicClients := update s.aDsgBasicClients i {}
    nBasicClients := s.nBasicClients - 1 }

/-- A round of the first loop of `vlDsgUnregisterClient`, with `bFound` in the first place. -/
def unregisterAt (nRegistrationId : BitVec 64) (t : Bool × ClientController)
    (i : Fin maxDsgClients) : Bool × ClientController :=
  if nRegistrationId = (t.2.aDsgClients i).nRegistrationId then (true, t.2.clear i) else t

/-- A round of the second loop. -/
def unregisterBasicAt (nRegistrationId : BitVec 64) (t : Bool × ClientController)
    (i : Fin maxDsgClients) : Bool × ClientController :=
  if nRegistrationId = (t.2.aDsgBasicClients i).nRegistrationId then (true, t.2.clearBasic i)
  else t

/-- `vlDsgUnregisterClient`; in the first place whether the registrant was found. -/
def unregisterClient (nRegistrationId : BitVec 64) : Bool × ClientController :=
  let t := (List.finRange maxDsgClients).foldl (unregisterAt nRegistrationId) (false, s)
  (List.finRange maxDsgClients).foldl (unregisterBasicAt nRegistrationId) t

/-! ## Dispatching -/

/-- `VL_DSG_DISPATCH_RESULT`, as far as the dispatch to clients gives it. -/
inductive DispatchResult
  | dropped
  | dispatched
  | extChannelCb
  | crcError
  deriving DecidableEq

/-- A section for the clients of a kind. -/
structure Dispatch where
  eClientType : ClientIdEncType
  nClientId : BitVec 64
  nBytes : BitVec 64
  /-- the CRC of the section is wrong -/
  crcFailed : Bool

/-- The client wants the section: its kind, and its id or those of all clients. -/
def Wants (c : DsgClient) (d : Dispatch) : Prop :=
  d.eClientType = c.eClientType ∧ (d.nClientId = c.nClientId ∨ 0 = c.nClientId)

instance (c : DsgClient) (d : Dispatch) : Decidable (Wants c d) :=
  inferInstanceAs (Decidable (_ ∧ _))

/-- What a dispatch has come to: the result, the slots whose callback was called, and the
tables. -/
abbrev Dispatched := DispatchResult × List (Fin maxDsgClients) × ClientController

/-- The statistics of the slot `i` count the section. -/
def countSection (d : Dispatch) (i : Fin maxDsgClients) : ClientController :=
  { s with
    aDsgClients := update s.aDsgClients i
      { s.aDsgClients i with
        nTotalCallbacks := (s.aDsgClients i).nTotalCallbacks + 1
        nTotalBytes := (s.aDsgClients i).nTotalBytes + d.nBytes } }

/-- A round of the loop of `vlDsgDispatchToDSGCC`. -/
def dispatchAt (d : Dispatch) (t : Dispatched) (i : Fin maxDsgClients) : Dispatched :=
  let (result, called, s) := t
  if Wants (s.aDsgClients i) d then
    if (s.aDsgClients i).pfClientCB ≠ 0 then
      (.dispatched, called ++ [i], s.countSection d i)
    else (result, called, s.countSection d i)
  else t

/-- `vlDsgDispatchToDSGCC`. -/
def dispatchToDSGCC (d : Dispatch) : Dispatched :=
  let result := if d.eClientType = .app then DispatchResult.dropped else .extChannelCb
  if 0 < s.nClients then
    if 0 < s.nAppClients ∧ d.eClientType = .app ∧ d.crcFailed then (.crcError, [], s)
    else (List.finRange maxDsgClients).foldl (dispatchAt d) (result, [], s)
  else (result, [], s)

/-! ## Runs -/

/-- A call of the controller. -/
inductive Call
  | register (r : Request)
  | registerBasic (r : BasicRequest)
  | unregister (nRegistrationId : BitVec 64)
  | dispatch (d : Dispatch)

/-- The controller after a call. -/
def call : ClientController → Call → ClientController
  | s, .register r => (s.registerClient r).2
  | s, .registerBasic r => (s.registerBasicClient r).2
  | s, .unregister id => (s.unregisterClient id).2
  | s, .dispatch d => (s.dispatchToDSGCC d).2.2

/-- Every call returns. -/
def step (s : ClientController) (c : Call) : Option ClientController := some (s.call c)

/-! ## What the calls should keep -/

/-- One for each client in use. -/
def weight (c : DsgClient) : ℕ := if c.registered then 1 else 0

/-- One for each application client in use. -/
def appWeight (c : DsgClient) : ℕ := if c.registered ∧ c.eClientType = .app then 1 else 0

/-- One for each basic client in use. -/
def basicWeight (c : DsgBasicClient) : ℕ := if c.registered then 1 else 0

/-- **The tables and the counters agree.** Each counter is the number of the slots in use of its
kind, and the ids name the slots in use: they are distinct and not zero. -/
structure Sound : Prop where
  clients : s.nClients = total weight s.aDsgClients
  appClients : s.nAppClients = total appWeight s.aDsgClients
  basicClients : s.nBasicClients = total basicWeight s.aDsgBasicClients
  named : Named s.ids s.used

/-- The slot is free, and everything but it is as in `s`. -/
def FreedOnly (p : ClientSlot) (t : ClientController) : Prop :=
  match p with
  | .inl i =>
    t.aDsgClients = update s.aDsgClients i {} ∧ t.aDsgBasicClients = s.aDsgBasicClients
  | .inr i =>
    t.aDsgBasicClients = update s.aDsgBasicClients i {} ∧ t.aDsgClients = s.aDsgClients

/-- **A successful unregister removes the registration with the id, and any other changes
nothing.** -/
structure UnregistersOnly (id : BitVec 64) : Prop where
  removes : ∀ p, s.used p = true → s.ids p = id →
    (s.unregisterClient id).1 = true ∧ s.FreedOnly p (s.unregisterClient id).2
  ignores : (∀ p, s.used p = true → s.ids p ≠ id) → s.unregisterClient id = (false, s)

/-- What an unregister should do, and nothing of another call. -/
def Behaves (s : ClientController) : Call → Prop
  | .unregister id => s.UnregistersOnly id
  | _ => True

/-- The counter of the registrants is not zero, and names no registration. -/
def Fresh : Prop := s.nextId ≠ 0 ∧ ∀ p, s.ids p ≠ s.nextId

/-- **The condition on a call.** A registration that finds a free slot takes an id that is new,
and the id of the free slots is not unregistered while there are any. -/
def Orderly (s : ClientController) : Call → Prop
  | .register _ => s.freeSlot ≠ none → s.Fresh
  | .registerBasic _ => s.freeBasicSlot ≠ none → s.Fresh
  | .unregister id => id = 0 → ∀ p, s.ids p ≠ 0
  | .dispatch _ => True

/-! ## The slots after a call -/

section Slots

variable {s} {i : Fin maxDsgClients}

@[simp] theorem ids_inl : s.ids (.inl i) = (s.aDsgClients i).nRegistrationId := rfl

@[simp] theorem ids_inr : s.ids (.inr i) = (s.aDsgBasicClients i).nRegistrationId := rfl

@[simp] theorem used_inl : s.used (.inl i) = (s.aDsgClients i).registered := rfl

@[simp] theorem used_inr : s.used (.inr i) = (s.aDsgBasicClients i).registered := rfl

/-- The ids and the slots in use, after the slot `i` has changed. -/
theorem update_client (c : DsgClient) :
    { s with aDsgClients := update s.aDsgClients i c }.ids =
        update s.ids (.inl i) c.nRegistrationId ∧
      { s with aDsgClients := update s.aDsgClients i c }.used =
        update s.used (.inl i) c.registered := by
  constructor <;>
  · funext p
    rcases p with j | j
    · by_cases hj : j = i
      · subst hj
        simp
      · have hne : (Sum.inl j : ClientSlot) ≠ .inl i := fun h => hj (Sum.inl.inj h)
        rw [update_of_ne hne]
        simp [update_of_ne hj]
    · rfl

/-- The ids and the slots in use, after the basic slot `i` has changed. -/
theorem update_basicClient (c : DsgBasicClient) :
    { s with aDsgBasicClients := update s.aDsgBasicClients i c }.ids =
        update s.ids (.inr i) c.nRegistrationId ∧
      { s with aDsgBasicClients := update s.aDsgBasicClients i c }.used =
        update s.used (.inr i) c.registered := by
  constructor <;>
  · funext p
    rcases p with j | j
    · rfl
    · by_cases hj : j = i
      · subst hj
        simp
      · have hne : (Sum.inr j : ClientSlot) ≠ .inr i := fun h => hj (Sum.inr.inj h)
        rw [update_of_ne hne]
        simp [update_of_ne hj]

end Slots

/-! ## What a call keeps -/

section Weights

variable {r : Request} {b : BasicRequest} {c : DsgClient} {d : DsgBasicClient} {id : BitVec 64}

@[simp] theorem weight_client : weight (r.client id) = 1 := rfl

@[simp] theorem appWeight_client :
    appWeight (r.client id) = if r.eClientType = .app then 1 else 0 := by
  simp [appWeight, Request.client]

@[simp] theorem basicWeight_client : basicWeight (b.client id) = 1 := rfl

theorem weight_used (h : c.registered = true) : weight c = 1 := if_pos h

theorem weight_free (h : c.registered = false) : weight c = 0 := by simp [weight, h]

theorem appWeight_used (h : c.registered = true) :
    appWeight c = if c.eClientType = .app then 1 else 0 := by
  simp [appWeight, h]

theorem appWeight_free (h : c.registered = false) : appWeight c = 0 := by simp [appWeight, h]

theorem basicWeight_used (h : d.registered = true) : basicWeight d = 1 := if_pos h

theorem basicWeight_free (h : d.registered = false) : basicWeight d = 0 := by
  simp [basicWeight, h]

end Weights

namespace Sound

variable {s} {i : Fin maxDsgClients}

/-- **A client is registered** in a free slot. -/
theorem fill_iff (h : s.Sound) (hi : s.used (.inl i) = false) (r : Request) :
    (s.fill r i).Sound ↔ s.Fresh := by
  have hids : (s.fill r i).ids = update s.ids (.inl i) s.nextId :=
    (update_client _).1
  have hused : (s.fill r i).used = update s.used (.inl i) true := (update_client _).2
  rw [Fresh, ← h.named.take_iff hi, ← hids, ← hused]
  refine ⟨Sound.named, fun hnamed => ⟨?_, ?_, h.basicClients, hnamed⟩⟩
  · have htotal := total_update weight s.aDsgClients i (r.client s.nextId)
    rw [weight_free hi, weight_client] at htotal
    have := h.clients
    change s.nClients + 1 = _
    simp only [fill]
    omega
  · have htotal := total_update appWeight s.aDsgClients i (r.client s.nextId)
    rw [appWeight_free hi, appWeight_client] at htotal
    have := h.appClients
    simp only [fill]
    split at htotal
    · next hr =>
      rw [if_pos hr]
      omega
    · next hr =>
      rw [if_neg hr]
      omega

/-- **A basic client is registered** in a free slot. -/
theorem fillBasic_iff (h : s.Sound) (hi : s.used (.inr i) = false) (r : BasicRequest) :
    (s.fillBasic r i).Sound ↔ s.Fresh := by
  have hids : (s.fillBasic r i).ids = update s.ids (.inr i) s.nextId :=
    (update_basicClient _).1
  have hused : (s.fillBasic r i).used = update s.used (.inr i) true :=
    (update_basicClient _).2
  rw [Fresh, ← h.named.take_iff hi, ← hids, ← hused]
  refine ⟨Sound.named, fun hnamed => ⟨h.clients, h.appClients, ?_, hnamed⟩⟩
  have htotal := total_update basicWeight s.aDsgBasicClients i (r.client s.nextId)
  rw [basicWeight_free hi, basicWeight_client] at htotal
  have := h.basicClients
  simp only [fillBasic]
  omega

/-- **A client is unregistered.** -/
theorem clear (h : s.Sound) (hi : s.used (.inl i) = true) : (s.clear i).Sound := by
  have hids : (s.clear i).ids = update s.ids (.inl i) 0 := (update_client _).1
  have hused : (s.clear i).used = update s.used (.inl i) false := (update_client _).2
  refine ⟨?_, ?_, h.basicClients, hids.symm ▸ hused.symm ▸ h.named.free _⟩
  · have htotal := total_update weight s.aDsgClients i {}
    rw [weight_used hi, weight_free rfl] at htotal
    have := h.clients
    simp only [ClientController.clear]
    omega
  · have htotal := total_update appWeight s.aDsgClients i {}
    rw [appWeight_used hi, appWeight_free rfl] at htotal
    have := h.appClients
    simp only [ClientController.clear]
    split at htotal
    · next happ =>
      rw [if_pos happ]
      omega
    · next happ =>
      rw [if_neg happ]
      omega

/-- **A basic client is unregistered.** -/
theorem clearBasic (h : s.Sound) (hi : s.used (.inr i) = true) : (s.clearBasic i).Sound := by
  have hids : (s.clearBasic i).ids = update s.ids (.inr i) 0 := (update_basicClient _).1
  have hused : (s.clearBasic i).used = update s.used (.inr i) false :=
    (update_basicClient _).2
  refine ⟨h.clients, h.appClients, ?_, hids.symm ▸ hused.symm ▸ h.named.free _⟩
  have htotal := total_update basicWeight s.aDsgBasicClients i {}
  rw [basicWeight_used hi, basicWeight_free rfl] at htotal
  have := h.basicClients
  simp only [ClientController.clearBasic]
  omega

end Sound

/-! ## What an unregister comes to -/

section Unregister

variable {s} {id : BitVec 64} {i : Fin maxDsgClients}

/-- No slot has the id. -/
theorem unregisterClient_of_unknown (h : ∀ p, s.ids p ≠ id) :
    s.unregisterClient id = (false, s) := by
  have hfirst : (List.finRange maxDsgClients).foldl (unregisterAt id) (false, s) = (false, s) :=
    foldl_eq_self fun j _ => if_neg fun hj => h (.inl j) hj.symm
  rw [unregisterClient, hfirst]
  exact foldl_eq_self fun j _ => if_neg fun hj => h (.inr j) hj.symm

/-- A slot, and no other, has the id. -/
theorem unregisterClient_of_client (h : s.ids (.inl i) = id)
    (honly : ∀ p, s.ids p = id → p = .inl i) : s.unregisterClient id = (true, s.clear i) := by
  have hother : ∀ j, j ≠ i → ¬ id = (s.aDsgClients j).nRegistrationId :=
    fun j hj hj' => hj (Sum.inl.inj (honly (.inl j) hj'.symm))
  have hat : unregisterAt id (false, s) i = (true, s.clear i) := if_pos h.symm
  have hfirst : (List.finRange maxDsgClients).foldl (unregisterAt id) (false, s) =
      (true, s.clear i) := by
    rw [← hat]
    refine foldl_eq_of_only (List.nodup_finRange _) (List.mem_finRange i)
      (fun j hj => if_neg (hother j hj)) fun j hj => ?_
    rw [hat]
    refine if_neg ?_
    simp only [ClientController.clear, update_of_ne hj]
    exact hother j hj
  rw [unregisterClient, hfirst]
  refine foldl_eq_self fun j _ => if_neg fun hj => ?_
  cases honly (.inr j) hj.symm

/-- A basic slot, and no other, has the id. -/
theorem unregisterClient_of_basicClient (h : s.ids (.inr i) = id)
    (honly : ∀ p, s.ids p = id → p = .inr i) :
    s.unregisterClient id = (true, s.clearBasic i) := by
  have hother : ∀ j, j ≠ i → ¬ id = (s.aDsgBasicClients j).nRegistrationId :=
    fun j hj hj' => hj (Sum.inr.inj (honly (.inr j) hj'.symm))
  have hfirst : (List.finRange maxDsgClients).foldl (unregisterAt id) (false, s) = (false, s) :=
    foldl_eq_self fun j _ => if_neg fun hj => nomatch honly (.inl j) hj.symm
  have hat : unregisterBasicAt id (false, s) i = (true, s.clearBasic i) := if_pos h.symm
  rw [unregisterClient, hfirst, ← hat]
  refine foldl_eq_of_only (List.nodup_finRange _) (List.mem_finRange i)
    (fun j hj => if_neg (hother j hj)) fun j hj => ?_
  rw [hat]
  refine if_neg ?_
  simp only [ClientController.clearBasic, update_of_ne hj]
  exact hother j hj

/-- The client of a slot with the id is found. -/
theorem found_of_ids {p : ClientSlot} (h : s.ids p = id) : (s.unregisterClient id).1 = true := by
  have hkeep : ∀ (t : Bool × ClientController) (j : Fin maxDsgClients), t.1 = true →
      (unregisterBasicAt id t j).1 = true := by
    intro t j ht
    rw [unregisterBasicAt]
    split
    · rfl
    · exact ht
  rw [unregisterClient]
  rcases p with j | j
  · refine foldl_keeps hkeep _ (foldl_reaches
      (P := fun (t : Bool × ClientController) j => id = (t.2.aDsgClients j).nRegistrationId)
      (R := fun t => t.1 = true) ?_ ?_ ?_ (List.mem_finRange j) h.symm)
    · intro t j ht
      rw [unregisterAt]
      split
      · rfl
      · exact ht
    · intro t j hj
      rw [unregisterAt, if_pos hj]
    · intro t j k hk hj
      rw [unregisterAt, if_neg hj]
      exact hk
  · -- the first loop leaves the basic clients alone
    have hfirst : ((List.finRange maxDsgClients).foldl (unregisterAt id)
        (false, s)).2.aDsgBasicClients = s.aDsgBasicClients := by
      refine foldl_keeps
        (R := fun (t : Bool × ClientController) => t.2.aDsgBasicClients = s.aDsgBasicClients)
        (fun t j ht => ?_) _ rfl
      rw [unregisterAt]
      split <;> exact ht
    refine foldl_reaches
      (P := fun (t : Bool × ClientController) j => id = (t.2.aDsgBasicClients j).nRegistrationId)
      (R := fun t => t.1 = true) hkeep ?_ ?_ (List.mem_finRange j) ?_
    · intro t j hj
      rw [unregisterBasicAt, if_pos hj]
    · intro t j k hk hj
      rw [unregisterBasicAt, if_neg hj]
      exact hk
    · rw [hfirst]
      exact h.symm

end Unregister

/-- What a call keeps of a client: all but the statistics. -/
def SameClient (c c' : DsgClient) : Prop :=
  c'.nRegistrationId = c.nRegistrationId ∧ c'.registered = c.registered ∧
    c'.eClientType = c.eClientType

/-- The controller but for the statistics of the clients. -/
structure SameBut (t : ClientController) : Prop where
  clients : ∀ i, SameClient (s.aDsgClients i) (t.aDsgClients i)
  basicClients : t.aDsgBasicClients = s.aDsgBasicClients
  nClients : t.nClients = s.nClients
  nAppClients : t.nAppClients = s.nAppClients
  nBasicClients : t.nBasicClients = s.nBasicClients

namespace SameBut

variable {s} {t : ClientController}

theorem refl : s.SameBut s := ⟨fun _ => ⟨rfl, rfl, rfl⟩, rfl, rfl, rfl, rfl⟩

theorem countSection (h : s.SameBut t) (d : Dispatch) (i : Fin maxDsgClients) :
    s.SameBut (t.countSection d i) := by
  refine ⟨fun j => ?_, h.basicClients, h.nClients, h.nAppClients, h.nBasicClients⟩
  by_cases hj : j = i
  · subst hj
    simp only [ClientController.countSection, update_self]
    exact h.clients j
  · simp only [ClientController.countSection, update_of_ne hj]
    exact h.clients j

theorem ids_eq (h : s.SameBut t) : t.ids = s.ids := by
  funext p
  rcases p with j | j
  · exact (h.clients j).1
  · exact congrArg DsgBasicClient.nRegistrationId (congrFun h.basicClients j)

theorem used_eq (h : s.SameBut t) : t.used = s.used := by
  funext p
  rcases p with j | j
  · exact (h.clients j).2.1
  · exact congrArg DsgBasicClient.registered (congrFun h.basicClients j)

theorem sound (h : s.SameBut t) (hs : s.Sound) : t.Sound := by
  have hweight : total weight t.aDsgClients = total weight s.aDsgClients :=
    Finset.sum_congr rfl fun j _ => by rw [weight, weight, (h.clients j).2.1]
  have happ : total appWeight t.aDsgClients = total appWeight s.aDsgClients :=
    Finset.sum_congr rfl fun j _ => by
      rw [appWeight, appWeight, (h.clients j).2.1, (h.clients j).2.2]
  refine ⟨?_, ?_, ?_, h.ids_eq.symm ▸ h.used_eq.symm ▸ hs.named⟩
  · rw [h.nClients, hweight, hs.clients]
  · rw [h.nAppClients, happ, hs.appClients]
  · rw [h.nBasicClients, h.basicClients, hs.basicClients]

end SameBut

/-- **A dispatch** changes nothing but the statistics. -/
theorem dispatchToDSGCC_same (d : Dispatch) : s.SameBut (s.dispatchToDSGCC d).2.2 := by
  rw [dispatchToDSGCC]
  split
  · split
    · exact SameBut.refl
    · refine foldl_keeps (R := fun (t : Dispatched) => s.SameBut t.2.2) (fun t i ht => ?_) _ SameBut.refl
      rw [dispatchAt]
      split
      · split
        · exact ht.countSection d i
        · exact ht.countSection d i
      · exact ht
  · exact SameBut.refl

/-! ## Runs of the controller -/

variable {s}

/-- **Unregistering with the right id.** Where no free slot has the id, an unregister does what
it should. -/
theorem Sound.unregistersOnly (h : s.Sound) {id : BitVec 64} (hid : id = 0 → ∀ p, s.ids p ≠ 0) :
    s.UnregistersOnly id ∧ (s.unregisterClient id).2.Sound := by
  by_cases hknown : ∃ p, s.ids p = id
  · obtain ⟨p, hp⟩ := hknown
    have hne : s.ids p ≠ 0 := fun h0 => hid (hp.symm.trans h0) p h0
    have hused : s.used p = true := (h.named.marked p).mpr hne
    have honly : ∀ q, s.ids q = id → q = p := fun q hq => h.named.eq_of_id hne (hq.trans hp.symm)
    rcases p with i | i
    · have hcall := unregisterClient_of_client hp honly
      refine ⟨⟨fun q _ hq => ?_, fun hnone => absurd hp (hnone _ hused)⟩, ?_⟩
      · obtain rfl := honly q hq
        rw [hcall]
        exact ⟨rfl, rfl, rfl⟩
      · rw [hcall]
        exact h.clear hused
    · have hcall := unregisterClient_of_basicClient hp honly
      refine ⟨⟨fun q _ hq => ?_, fun hnone => absurd hp (hnone _ hused)⟩, ?_⟩
      · obtain rfl := honly q hq
        rw [hcall]
        exact ⟨rfl, rfl, rfl⟩
      · rw [hcall]
        exact h.clearBasic hused
  · have hcall := unregisterClient_of_unknown fun p hp => hknown ⟨p, hp⟩
    refine ⟨⟨fun p _ hp => absurd ⟨p, hp⟩ hknown, fun _ => hcall⟩, ?_⟩
    rw [hcall]
    exact h

/-- A registration that finds no slot changes nothing. -/
theorem Sound.registerClient_iff (h : s.Sound) (r : Request) :
    (s.registerClient r).2.Sound ↔ (s.freeSlot ≠ none → s.Fresh) := by
  rw [registerClient]
  rcases hfree : s.freeSlot with _ | i
  · exact ⟨fun _ hne => absurd rfl hne, fun _ => h⟩
  · have hi : s.ids (.inl i) = 0 := eq_of_beq (firstSlot_some hfree)
    rw [h.fill_iff (h.named.not_used hi) r]
    exact ⟨fun hf _ => hf, fun hf => hf (Option.some_ne_none i)⟩

theorem Sound.registerBasicClient_iff (h : s.Sound) (r : BasicRequest) :
    (s.registerBasicClient r).2.Sound ↔ (s.freeBasicSlot ≠ none → s.Fresh) := by
  rw [registerBasicClient]
  rcases hfree : s.freeBasicSlot with _ | i
  · exact ⟨fun _ hne => absurd rfl hne, fun _ => h⟩
  · have hi : s.ids (.inr i) = 0 := eq_of_beq (firstSlot_some hfree)
    rw [h.fillBasic_iff (h.named.not_used hi) r]
    exact ⟨fun hf _ => hf, fun hf => hf (Option.some_ne_none i)⟩

/-- **One call.** It does what it should, and keeps the tables and the counters in agreement,
exactly when it is orderly. -/
theorem Sound.call_iff (h : s.Sound) (c : Call) :
    (s.Behaves c ∧ (s.call c).Sound) ↔ s.Orderly c := by
  cases c with
  | register r => exact Iff.trans (and_iff_right trivial) (h.registerClient_iff r)
  | registerBasic r => exact Iff.trans (and_iff_right trivial) (h.registerBasicClient_iff r)
  | unregister id =>
    refine ⟨fun hcall hid p hp => ?_, h.unregistersOnly⟩
    -- the id zero is that of a free slot, which is found although no client has it
    subst hid
    have hignored := hcall.1.ignores fun q hq => (h.named.marked q).mp hq
    have hfound := found_of_ids hp
    rw [hignored] at hfound
    cases hfound
  | dispatch d => exact iff_of_true ⟨trivial, (s.dispatchToDSGCC_same d).sound h⟩ trivial

theorem Sound.step_iff (h : s.Sound) (c : Call) :
    (s.Behaves c ∧ ∃ t, s.step c = some t ∧ t.Sound) ↔ s.Orderly c := by
  rw [← h.call_iff c]
  refine and_congr_right fun _ => ⟨?_, fun hs => ⟨s.call c, rfl, hs⟩⟩
  rintro ⟨t, ht, hs⟩
  exact Option.some.inj ht ▸ hs

/-- No client is registered at first. -/
theorem sound_init : ({} : ClientController).Sound := by
  refine ⟨?_, ?_, ?_, ⟨?_, ?_⟩⟩
  · exact congrArg Nat.cast (total_eq_zero fun _ => rfl).symm
  · exact congrArg Nat.cast (total_eq_zero fun _ => rfl).symm
  · exact congrArg Nat.cast (total_eq_zero fun _ => rfl).symm
  · rintro (i | i) <;> exact iff_of_false Bool.false_ne_true fun h => h rfl
  · rintro (i | i) _ h <;> cases h

/-- **The controller over any run.** The tables and the counters agree in every state, and every
unregister removes the registration with its id and no other, exactly when every call is
orderly. -/
theorem clients_agree (calls : List Call) :
    (Throughout step Sound {} calls ∧ EachStep step Behaves {} calls) ↔
      EachStep step Orderly {} calls :=
  Throughout.and_eachStep_iff (fun _ c h => h.step_iff c) sound_init

/-- An application registers, and the id zero is unregistered: the free slots are all found, and
counted off. -/
theorem clients_counted_off :
    ¬ ∀ calls, Throughout step Sound {} calls ∧ EachStep step Behaves {} calls := by
  intro h
  obtain ⟨t, hrun, hsound⟩ := (h [.register ⟨1, 0, .app, 5⟩, .unregister 0]).1
    [.register ⟨1, 0, .app, 5⟩, .unregister 0] [] rfl
  have hcount : t.nClients = -30 := by
    obtain rfl := Option.some.inj hrun
    decide +kernel
  have := hsound.clients
  omega

end ClientController

end MediaFramework
