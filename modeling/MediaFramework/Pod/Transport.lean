import MediaFramework.Lib.Family
import MediaFramework.Lib.Run
import MediaFramework.Lib.Slots

/-!
# The transport connections of the card

`transport.c` keeps the connections to the CableCARD in a table and counts them. A connection is
added behind the last one and gets the id one more than its index. `trans_DeleteTCSlot` uses the
id itself as an index, then the count, then the id less one, and it frees a buffer that was freed
when the connection was added.

So the table is in order as long as no connection is deleted and the transport is not left while
there is one.
-/

namespace MediaFramework

/-- `TRANS_NBMAX_TC`. -/
abbrev nbmaxTC : ℕ := 5

/-- `TRANS_STATE_…`. -/
inductive TCState
  | notUsed
  | inCreation
  | active
  deriving DecidableEq

/-- `T_TC`. -/
structure TC where
  tcId : ℕ := 0
  bState : TCState := .notUsed
  lSize : ℕ := 0
  lOffset : ℕ := 0
  /-- a buffer, by the number of its allocation -/
  pDataFixed : Option ℕ := none
  pData : Option ℕ := none

/-- The table of the transport connections. -/
structure Transport where
  /-- `e_pstTC` -/
  pstTC : Fin nbmaxTC → TC := fun _ => {}
  /-- `e_bNbTC` -/
  bNbTC : ℕ := 0
  bTransportTimeoutEnabled : Bool := true
  /-- ghost: how many buffers were allocated -/
  allocated : ℕ := 0
  /-- ghost: the buffers that were freed -/
  freed : List ℕ := []
  /-- the ids `AM_TC_DELETED` was called with -/
  closed : List ℕ := []

namespace Transport

variable (s : Transport)

/-! ## The calls -/

/-- A place of the table, where the index is one. -/
def place (i : ℤ) : Option (Fin nbmaxTC) :=
  if h : 0 ≤ i ∧ i < nbmaxTC then some ⟨i.toNat, by omega⟩ else none

/-- A slot is written. -/
def setTC (i : Fin nbmaxTC) (tc : TC) : Transport :=
  { s with pstTC := Function.update s.pstTC i tc }

/-- `PODMemAllocate`; whether there is memory comes from outside. -/
def podMemAllocate (ok : Bool) : Option ℕ × Transport :=
  if ok then (some s.allocated, { s with allocated := s.allocated + 1 }) else (none, s)

/-- `PODMemFree`. The pointer that was passed keeps its value. -/
def podMemFree : Option ℕ → Transport
  | none => s
  | some buffer => { s with freed := s.freed ++ [buffer] }

/-- `trans_AddTCSlot`; in the first place the id of the connection, or zero. -/
def addTCSlot (ok : Bool) : ℕ × Transport :=
  if h : s.bNbTC < nbmaxTC then
    let (pDataFixed, t) := s.podMemAllocate ok
    let t := t.setTC ⟨s.bNbTC, h⟩
      { tcId := s.bNbTC + 1, bState := .inCreation, pDataFixed := pDataFixed }
    if pDataFixed = none then (0, t)
    else
      let t := t.podMemFree pDataFixed
      let t := { t with bNbTC := t.bNbTC + 1 }
      (t.bNbTC, if t.bNbTC = 1 then { t with bTransportTimeoutEnabled := true } else t)
  else (0, s)

/-- `trans_DeleteTCSlot`, undefined where it leaves the table. -/
def deleteTCSlot (id : ℕ) : Option (Bool × Transport) :=
  if nbmaxTC ≤ id then some (false, s)
  else do
    let i ← place id
    let s := s.setTC i { s.pstTC i with tcId := 0, bState := .notUsed }
    let n ← place s.bNbTC
    let s := s.setTC n { s.pstTC n with lSize := 0, lOffset := 0, pData := none }
    let i ← place (id - 1)
    let s := s.podMemFree (s.pstTC i).pDataFixed
    if (s.pstTC i).pDataFixed ≠ none then some (false, s)
    else if 0 < s.bNbTC then some (true, { s with bNbTC := s.bNbTC - 1 })
    else some (false, s)

/-- `trans_Init`. -/
def init (ok : Bool) : Transport :=
  ({ s with bNbTC := 0, pstTC := fun _ => {} }.addTCSlot ok).2

/-- A round of the loop of `trans_Exit`. -/
def closeTC (i : Fin nbmaxTC) : Transport :=
  if (s.pstTC i).tcId ≠ 0 then
    let t := { s with closed := s.closed ++ [(s.pstTC i).tcId] }
    (t.podMemFree (s.pstTC i).pDataFixed).podMemFree (s.pstTC i).pData
  else s

/-- `trans_Exit`. -/
def exit : Transport :=
  { (List.finRange nbmaxTC).foldl closeTC s with bNbTC := 0 }

/-- The connection `trans_Poll` polls: the first that is not unused. -/
def pollFrom : List ℕ → Option (Option ℕ)
  | [] => some none
  | n :: ns => do
    let i ← place n
    if (s.pstTC i).bState ≠ .notUsed then some (some (s.pstTC i).tcId) else pollFrom ns

/-- `trans_Poll`. -/
def poll : Option (Option ℕ) := s.pollFrom (List.range s.bNbTC)

/-! ## Runs -/

/-- A call of the transport layer. An id is a byte. -/
inductive Call
  | init (ok : Bool)
  | add (ok : Bool)
  | delete (id : Fin 256)
  | exit
  | poll

/-- The table after a call. -/
def step (s : Transport) : Call → Option Transport
  | .init ok => some (s.init ok)
  | .add ok => some (s.addTCSlot ok).2
  | .delete id => (s.deleteTCSlot id).map Prod.snd
  | .exit => some s.exit
  | .poll => s.poll.map fun _ => s

/-! ## What the calls should keep -/

/-- One for each slot in use. -/
def weight (tc : TC) : ℕ := if tc.tcId ≠ 0 then 1 else 0

/-- **The table is in order.** The count is that of the slots in use, their ids are distinct, and
no buffer was freed twice. -/
structure Sound : Prop where
  count : s.bNbTC = total weight s.pstTC
  distinct : ∀ i j, (s.pstTC i).tcId ≠ 0 → (s.pstTC i).tcId = (s.pstTC j).tcId → i = j
  freedOnce : s.freed.Nodup

/-- The indices at which `trans_DeleteTCSlot` looks for the connection. -/
def lookedUp (id : ℕ) : List ℤ := if nbmaxTC ≤ id then [] else [id, id - 1]

/-- What a delete should do, and nothing of another call: it looks at the slot of the connection
with the id. -/
def Behaves (s : Transport) : Call → Prop
  | .delete id => ∀ i : Fin nbmaxTC, id.val ≠ 0 → (s.pstTC i).tcId = id →
      ∀ n ∈ lookedUp id, n = (i : ℤ)
  | _ => True

/-- **The condition on a call.** There is memory for a connection that is added, and while there
are connections the transport is not left, and a delete has an id that is too large to be one
of theirs. No delete has the id zero. -/
def Orderly (s : Transport) : Call → Prop
  | .init ok => ok = true
  | .add ok => s.bNbTC < nbmaxTC → ok = true
  | .delete id => nbmaxTC ≤ id.val ∨ 0 < id.val ∧ s.bNbTC = 0
  | .exit => s.bNbTC = 0
  | .poll => True

/-- The connections come first in the table and have their ids in order; the rest of the table
is clear. -/
structure Laid : Prop where
  bound : s.bNbTC ≤ nbmaxTC
  taken : ∀ i : Fin nbmaxTC, i.val < s.bNbTC → (s.pstTC i).tcId = i + 1
  clear : ∀ i : Fin nbmaxTC, s.bNbTC ≤ i.val → s.pstTC i = {}
  freed : ∀ buffer ∈ s.freed, buffer < s.allocated

/-! ## The proofs -/

theorem place_of_lt {n : ℕ} (h : n < nbmaxTC) : place n = some ⟨n, h⟩ :=
  dif_pos ⟨by omega, by omega⟩

@[simp] theorem weight_empty : weight {} = 0 := rfl

variable {s}

theorem setTC_self {i : Fin nbmaxTC} {tc : TC} (h : tc = s.pstTC i) : s.setTC i tc = s := by
  rw [setTC, h, Function.update_eq_self]

/-! ### What a call does -/

/-- The slot of a new connection. -/
def newTC (s : Transport) (pDataFixed : Option ℕ) : TC :=
  { tcId := s.bNbTC + 1, bState := .inCreation, pDataFixed := pDataFixed }

@[simp] theorem weight_newTC (pDataFixed : Option ℕ) : weight (s.newTC pDataFixed) = 1 := rfl

theorem addTCSlot_of_room (hroom : s.bNbTC < nbmaxTC) :
    (s.addTCSlot true).2 =
      { s with
        pstTC := Function.update s.pstTC ⟨s.bNbTC, hroom⟩ (s.newTC s.allocated)
        bNbTC := s.bNbTC + 1
        bTransportTimeoutEnabled := s.bNbTC == 0 || s.bTransportTimeoutEnabled
        allocated := s.allocated + 1
        freed := s.freed ++ [s.allocated] } := by
  rw [addTCSlot, dif_pos hroom]
  by_cases hfirst : s.bNbTC = 0 <;> simp [podMemAllocate, podMemFree, setTC, newTC, hfirst]

/-- Without memory the slot is written, but not counted. -/
theorem addTCSlot_of_noMemory (hroom : s.bNbTC < nbmaxTC) :
    (s.addTCSlot false).2 =
      { s with pstTC := Function.update s.pstTC ⟨s.bNbTC, hroom⟩ (s.newTC none) } := by
  rw [addTCSlot, dif_pos hroom]
  rfl

theorem addTCSlot_of_full (ok : Bool) (hroom : ¬ s.bNbTC < nbmaxTC) :
    (s.addTCSlot ok).2 = s := by
  rw [addTCSlot, dif_neg hroom]

/-- A delete with an id behind the connections only counts. -/
theorem deleteTCSlot_of_unused (h : s.Laid) {id : ℕ} (hid : id < nbmaxTC) (hlt : s.bNbTC < id) :
    (s.deleteTCSlot id).map Prod.snd = some { s with bNbTC := s.bNbTC - 1 } := by
  have hplace : ∀ n, (hn : n < nbmaxTC) → s.bNbTC ≤ n → s.pstTC ⟨n, hn⟩ = {} :=
    fun n hn hle => h.clear ⟨n, hn⟩ hle
  have hless : ((id : ℤ) - 1) = ((id - 1 : ℕ) : ℤ) := by omega
  have hi : s.setTC ⟨id, hid⟩ { s.pstTC ⟨id, hid⟩ with tcId := 0, bState := .notUsed } = s :=
    setTC_self (by rw [hplace id hid (by omega)])
  have hn : s.setTC ⟨s.bNbTC, by omega⟩
      { s.pstTC ⟨s.bNbTC, by omega⟩ with lSize := 0, lOffset := 0, pData := none } = s :=
    setTC_self (by rw [hplace s.bNbTC (by omega) (Nat.le_refl _)])
  rw [deleteTCSlot, if_neg (Nat.not_le.mpr hid)]
  simp only [hless, place_of_lt hid, place_of_lt (show s.bNbTC < nbmaxTC by omega),
    place_of_lt (show id - 1 < nbmaxTC by omega), Option.bind_eq_bind, Option.bind_some, hi, hn]
  have hbuffer : ∀ hn, (s.pstTC ⟨id - 1, hn⟩).pDataFixed = none := fun hn => by
    rw [hplace (id - 1) hn (by omega)]
  simp only [hbuffer, podMemFree, ne_eq, not_true, if_false]
  split
  · rfl
  · next hpos =>
    have hzero : s.bNbTC - 1 = s.bNbTC := by omega
    rw [hzero]
    rfl

/-- Leaving the transport without a connection changes nothing. -/
theorem exit_of_none (h : s.Laid) (hzero : s.bNbTC = 0) : s.exit = s := by
  have hloop : (List.finRange nbmaxTC).foldl closeTC s = s := by
    refine foldl_eq_self fun i _ => ?_
    rw [closeTC, h.clear i (by omega)]
    rfl
  rw [exit, hloop, ← hzero]

theorem pollFrom_defined : ∀ {ns : List ℕ}, (∀ n ∈ ns, n < nbmaxTC) → ∃ id, s.pollFrom ns = some id := by
  intro ns
  induction ns with
  | nil => exact fun _ => ⟨none, rfl⟩
  | cons n ns ih =>
    intro hns
    rw [pollFrom, place_of_lt (hns n List.mem_cons_self)]
    simp only [Option.bind_eq_bind, Option.bind_some]
    split
    · exact ⟨_, rfl⟩
    · exact ih fun m hm => hns m (List.mem_cons_of_mem n hm)

/-! ### What a call keeps -/

/-- **A connection is added.** -/
theorem add_sound (h : s.Sound) (hl : s.Laid) (hroom : s.bNbTC < nbmaxTC) :
    (s.addTCSlot true).2.Sound ∧ (s.addTCSlot true).2.Laid := by
  have hfree : s.pstTC ⟨s.bNbTC, hroom⟩ = {} := hl.clear _ (Nat.le_refl _)
  have hother : ∀ i : Fin nbmaxTC, i.val ≠ s.bNbTC →
      Function.update s.pstTC ⟨s.bNbTC, hroom⟩ (s.newTC s.allocated) i = s.pstTC i := fun i hi =>
    Function.update_of_ne (fun heq => hi (congrArg Fin.val heq)) _ _
  have hnew : Function.update s.pstTC ⟨s.bNbTC, hroom⟩ (s.newTC s.allocated) ⟨s.bNbTC, hroom⟩ = s.newTC s.allocated :=
    Function.update_self _ _ _
  have htaken : ∀ i : Fin nbmaxTC, i.val < s.bNbTC + 1 →
      (Function.update s.pstTC ⟨s.bNbTC, hroom⟩ (s.newTC s.allocated) i).tcId = i + 1 := by
    intro i hi
    by_cases heq : i.val = s.bNbTC
    · obtain rfl : i = ⟨s.bNbTC, hroom⟩ := Fin.ext heq
      rw [hnew]
      rfl
    · rw [hother i heq]
      exact hl.taken i (by omega)
  have hclear : ∀ i : Fin nbmaxTC, s.bNbTC + 1 ≤ i.val →
      Function.update s.pstTC ⟨s.bNbTC, hroom⟩ (s.newTC s.allocated) i = {} := by
    intro i hi
    rw [hother i (by omega)]
    exact hl.clear i (by omega)
  have hlt : ∀ i : Fin nbmaxTC,
      (Function.update s.pstTC ⟨s.bNbTC, hroom⟩ (s.newTC s.allocated) i).tcId ≠ 0 → i.val < s.bNbTC + 1 := by
    intro i hi
    by_contra hle
    rw [hclear i (by omega)] at hi
    exact hi rfl
  rw [addTCSlot_of_room hroom]
  refine ⟨⟨?_, fun i j hi hij => ?_, ?_⟩, ⟨hroom, htaken, hclear, fun buffer hb => ?_⟩⟩
  · have htotal := total_update weight s.pstTC ⟨s.bNbTC, hroom⟩ (s.newTC s.allocated)
    have hcount := h.count
    rw [hfree, weight_empty, weight_newTC] at htotal
    simp only
    omega
  · have hi' := hlt i hi
    have hj' := hlt j (hij ▸ hi)
    simp only at hij
    rw [htaken i hi', htaken j hj'] at hij
    exact Fin.ext (by omega)
  · refine List.nodup_append.mpr ⟨h.freedOnce, List.nodup_singleton _, fun b hb c hc => ?_⟩
    have := hl.freed b hb
    have := List.mem_singleton.mp hc
    omega
  · rcases List.mem_append.mp hb with hb | hb
    · exact Nat.lt_succ_of_lt (hl.freed buffer hb)
    · exact List.mem_singleton.mp hb ▸ Nat.lt_succ_self _

/-- **There is no memory** for the connection: its slot is in use, and not counted. -/
theorem not_sound_of_noMemory (h : s.Sound) (hl : s.Laid) (hroom : s.bNbTC < nbmaxTC) :
    ¬ (s.addTCSlot false).2.Sound := by
  rw [addTCSlot_of_noMemory hroom]
  intro ht
  have hcount : s.bNbTC = total weight (Function.update s.pstTC ⟨s.bNbTC, hroom⟩ (s.newTC none)) :=
    ht.count
  have htotal := total_update weight s.pstTC ⟨s.bNbTC, hroom⟩ (s.newTC none)
  rw [hl.clear ⟨s.bNbTC, hroom⟩ (Nat.le_refl _), weight_empty, weight_newTC, ← h.count] at htotal
  omega

/-- The table as `trans_Init` clears it. -/
theorem cleared_sound (h : s.Sound) (hl : s.Laid) :
    { s with bNbTC := 0, pstTC := fun _ => {} }.Sound ∧
      { s with bNbTC := 0, pstTC := fun _ => {} }.Laid :=
  ⟨⟨(total_eq_zero fun _ => rfl).symm, fun _ _ hi => absurd rfl hi, h.freedOnce⟩,
    ⟨Nat.zero_le _, fun _ hi => absurd hi (Nat.not_lt_zero _), fun _ _ => rfl, hl.freed⟩⟩

/-- **One call, in order.** -/
theorem step_keeps (c : Call) (h : s.Sound) (hl : s.Laid) (hc : s.Orderly c) :
    s.Behaves c ∧ ∃ t, s.step c = some t ∧ t.Sound ∧ t.Laid := by
  cases c with
  | init ok =>
    obtain rfl : ok = true := hc
    obtain ⟨hs, hl⟩ := cleared_sound h hl
    exact ⟨trivial, _, rfl, add_sound hs hl (Nat.succ_pos 4)⟩
  | add ok =>
    refine ⟨trivial, _, rfl, ?_⟩
    by_cases hroom : s.bNbTC < nbmaxTC
    · obtain rfl : ok = true := hc hroom
      exact add_sound h hl hroom
    · rw [addTCSlot_of_full ok hroom]
      exact ⟨h, hl⟩
  | delete id =>
    rcases hc with hlarge | ⟨hpos, hzero⟩
    · refine ⟨fun i _ _ n hn => ?_, s, ?_, h, hl⟩
      · rw [lookedUp, if_pos hlarge] at hn
        cases hn
      · rw [step, deleteTCSlot, if_pos hlarge]
        rfl
    · have hnone : ∀ i : Fin nbmaxTC, (s.pstTC i).tcId = 0 := fun i => by
        rw [hl.clear i (by omega)]
      by_cases hlarge : nbmaxTC ≤ id.val
      · refine ⟨fun i hne hi => absurd ((hnone i).symm.trans hi).symm hne, s, ?_, h, hl⟩
        rw [step, deleteTCSlot, if_pos hlarge]
        rfl
      · have hsame : { s with bNbTC := s.bNbTC - 1 } = s := by
          have hless : s.bNbTC - 1 = s.bNbTC := by omega
          rw [hless]
        refine ⟨fun i hne hi => absurd ((hnone i).symm.trans hi).symm hne, s, ?_, h, hl⟩
        rw [step, deleteTCSlot_of_unused hl (Nat.not_le.mp hlarge) (by omega), hsame]
  | exit =>
    refine ⟨trivial, s, ?_, h, hl⟩
    rw [step, exit_of_none hl hc]
  | poll =>
    have hbound := hl.bound
    obtain ⟨id, hid⟩ := @pollFrom_defined s (List.range s.bNbTC) fun n hn =>
      Nat.lt_of_lt_of_le (List.mem_range.mp hn) hbound
    refine ⟨trivial, s, ?_, h, hl⟩
    rw [step, poll, hid]
    rfl

/-- **One call, out of order.** A call that does what it should and keeps the table in order is
orderly. -/
theorem orderly_of_step (c : Call) {t : Transport} (h : s.Sound) (hl : s.Laid) (hq : s.Behaves c)
    (hs : s.step c = some t) (ht : t.Sound) : s.Orderly c := by
  cases c with
  | init ok =>
    cases ok with
    | true => rfl
    | false =>
      obtain ⟨hs', hl'⟩ := cleared_sound h hl
      cases hs
      exact absurd ht (not_sound_of_noMemory hs' hl' (Nat.succ_pos 4))
  | add ok =>
    intro hroom
    cases ok with
    | true => rfl
    | false =>
      cases hs
      exact absurd ht (not_sound_of_noMemory h hl hroom)
  | delete id =>
    by_contra hbad
    have hlarge : ¬ nbmaxTC ≤ id.val := fun hle => hbad (.inl hle)
    by_cases hzero : id.val = 0
    · -- the index less one is none of the table
      have hplace : place ((id.val : ℤ) - 1) = none := by
        rw [hzero]
        rfl
      rw [step, deleteTCSlot, if_neg hlarge] at hs
      simp only [hplace, Option.bind_eq_bind, Option.bind_none, Option.bind_fun_none,
        Option.map_none] at hs
      cases hs
    · have hsome : s.bNbTC ≠ 0 := fun h0 => hbad (.inr ⟨by omega, h0⟩)
      by_cases hin : id.val ≤ s.bNbTC
      · -- the id is that of a connection, whose index is one less
        have hlt : id.val - 1 < nbmaxTC := by omega
        have hi : (s.pstTC ⟨id.val - 1, hlt⟩).tcId = id := by
          rw [hl.taken ⟨id.val - 1, hlt⟩ (by simp only; omega)]
          simp only
          omega
        have hlook := hq ⟨id.val - 1, hlt⟩ hzero hi id
          (by rw [lookedUp, if_neg hlarge]; exact List.mem_cons_self)
        simp only at hlook
        omega
      · rw [step, deleteTCSlot_of_unused hl (by omega) (by omega)] at hs
        cases hs
        have hcount := ht.count
        have := h.count
        simp only at hcount
        omega
  | exit =>
    by_contra hsome
    have hcount := ht.count
    cases hs
    have hloop : ((List.finRange nbmaxTC).foldl closeTC s).pstTC = s.pstTC := by
      refine foldl_keeps (R := fun (t : Transport) => t.pstTC = s.pstTC) (fun t i ht => ?_) _ rfl
      rw [closeTC]
      split
      · rcases (t.pstTC i).pDataFixed with _ | b <;> rcases (t.pstTC i).pData with _ | b' <;> exact ht
      · exact ht
    have := h.count
    rw [exit] at hcount
    simp only [hloop] at hcount
    exact hsome (this.trans hcount.symm)
  | poll => trivial

/-- Nothing is connected at first. -/
theorem sound_empty : ({} : Transport).Sound ∧ ({} : Transport).Laid :=
  ⟨⟨(total_eq_zero fun _ => rfl).symm, fun _ _ hi => absurd rfl hi, List.nodup_nil⟩,
    ⟨Nat.zero_le _, fun _ hi => absurd hi (Nat.not_lt_zero _), fun _ _ => rfl,
      fun _ hb => absurd hb List.not_mem_nil⟩⟩

/-- **The transport layer over any run.** No index leaves the table, the table is in order in
every state, and every delete looks at the slot of its connection, exactly when every call is
orderly. -/
theorem connections_kept (calls : List Call) :
    (Throughout step Sound {} calls ∧ EachStep step Behaves {} calls) ↔
      EachStep step Orderly {} calls :=
  Throughout.and_eachStep_iff_of (fun _ c h hl hc => step_keeps c h hl hc)
    (fun _ c _ h hl hq hs ht => orderly_of_step c h hl hq hs ht) sound_empty.1 sound_empty.2

/-- The first connection is deleted: its buffer is freed again, and it stays. -/
theorem connection_freedTwice :
    ¬ ∀ calls, Throughout step Sound {} calls ∧ EachStep step Behaves {} calls := by
  intro h
  obtain ⟨t, hrun, hsound⟩ := (h [.init true, .delete 1]).1 [.init true, .delete 1] [] rfl
  have hfreed : t.freed = [0, 0] := by
    obtain rfl := Option.some.inj hrun
    decide +kernel
  have := hsound.freedOnce
  rw [hfreed] at this
  exact absurd this (by decide)

end Transport

end MediaFramework
