import MediaFramework.Lib.KeyedList
import MediaFramework.Lib.Ring

/-!
# Queues and tables of the section filters

`rmf_sectionfilter_util.cpp` keeps the sections of a filter in a ring of `MAX_QUEUE_SIZE`
pointers, each operation under the mutex of the queue. `rmf_symboltable.cpp` keeps pointers by
key in a list of nodes, the newest first: `Insert` does not look whether the key is there, and
the older nodes of a key come to light again when the newer ones are removed.
-/

namespace MediaFramework

/-! ## Queues -/

/-- `MAX_QUEUE_SIZE`. -/
def maxQueueSize : ℕ := 32

/-- `RMFQueue`, with pointers to sections. What the source calls the head of the queue, where it
is read, is the tail of the ring. -/
structure RmfQueue where
  /-- `elements`, `head`, `tail` and `count` -/
  ring : Ring ℕ
  valid : ring.Valid
  capacity_eq : ring.capacity = maxQueueSize

namespace RmfQueue

/-- The sections that are queued, the next one to be read first. -/
def contents (q : RmfQueue) : List ℕ := q.ring.contents

/-- `rmf_queue_new`, which is also what `rmf_queue_clear` leaves. -/
def new : RmfQueue where
  ring := { data := fun _ => 0, capacity := maxQueueSize, head := 0, tail := 0, count := 0 }
  valid := ⟨by decide, by decide, by decide, by decide⟩
  capacity_eq := rfl

instance : Inhabited RmfQueue := ⟨new⟩

/-- The cell that is next comes after the one at the end. -/
theorem fits {r : Ring ℕ} {pos : ℕ} (h : pos < r.capacity) (x : ℕ) :
    pos + [x].length ≤ r.capacity := h

theorem hasRoom (q : RmfQueue) (hfull : q.ring.count ≠ maxQueueSize) (x : ℕ) :
    q.ring.count + [x].length ≤ q.ring.capacity :=
  Nat.lt_of_le_of_ne q.valid.count_le fun h => hfull (h.trans q.capacity_eq)

/-- `rmf_queue_push_tail` with `OverFlowEraseFlag` zero; `none` when it returns -1. -/
def pushTail (q : RmfQueue) (node : ℕ) : Option RmfQueue :=
  if hfull : q.ring.count = maxQueueSize then none
  else
    some
      { ring := q.ring.push [node]
        valid := (q.valid.push (q.hasRoom hfull node) (fits q.valid.head_lt node)).1
        capacity_eq := q.capacity_eq }

/-- `rmf_queue_pop_head`. -/
def popHead (q : RmfQueue) : Option ℕ × RmfQueue :=
  if hcount : 0 < q.ring.count then
    (some (q.ring.data q.ring.tail),
      { ring := q.ring.drop 1
        valid := (q.valid.drop hcount (fits q.valid.tail_lt 0)).1
        capacity_eq := q.capacity_eq })
  else (none, q)

variable {q q' : RmfQueue} {node : ℕ}

theorem length_contents : q.contents.length = q.ring.count := length_window

/-- A full queue takes nothing. -/
theorem pushTail_eq_none_iff : q.pushTail node = none ↔ q.contents.length = maxQueueSize := by
  rw [length_contents]
  unfold pushTail
  split_ifs with hfull <;> simp [hfull]

/-- **Pushing appends.** -/
theorem contents_pushTail (h : q.pushTail node = some q') :
    q'.contents = q.contents ++ [node] := by
  unfold pushTail at h
  split_ifs at h with hfull
  cases h
  exact (q.valid.push (q.hasRoom hfull node) (fits q.valid.head_lt node)).2

/-- **Popping takes the first.** -/
theorem popHead_eq (q : RmfQueue) :
    q.popHead.1 = q.contents.head? ∧ q.popHead.2.contents = q.contents.tail := by
  unfold popHead
  split_ifs with hcount
  · have hdrop : q.contents = [q.ring.data q.ring.tail] ++ (q.ring.drop 1).contents :=
      (q.valid.drop hcount (fits q.valid.tail_lt 0)).2
    exact ⟨(congrArg List.head? hdrop).symm, (congrArg List.tail hdrop).symm⟩
  · have hempty : q.contents = [] := by
      refine List.length_eq_zero_iff.mp ?_
      rw [length_contents]
      exact Nat.eq_zero_of_not_pos hcount
    rw [hempty]
    exact ⟨rfl, rfl⟩

/-- The loop of `ReleaseFilterRequest`, which pops until there is nothing to pop; at most
`rounds` times. -/
def popAll (q : RmfQueue) : ℕ → List ℕ
  | 0 => []
  | rounds + 1 =>
    match q.popHead with
    | (some node, q) => node :: q.popAll rounds
    | (none, _) => []

/-- It pops everything. -/
theorem popAll_eq : ∀ {rounds : ℕ} {q : RmfQueue}, q.contents.length ≤ rounds →
    q.popAll rounds = q.contents := by
  intro rounds
  induction rounds with
  | zero =>
    intro q h
    exact (List.length_eq_zero_iff.mp (Nat.le_zero.mp h)).symm
  | succ rounds ih =>
    intro q h
    obtain ⟨hfst, hsnd⟩ := q.popHead_eq
    rcases hpop : q.popHead with ⟨node, p⟩
    rw [hpop] at hfst hsnd
    rcases hcontents : q.contents with _ | ⟨x, rest⟩
    · rw [hcontents] at hfst
      obtain rfl : node = none := hfst
      rw [popAll, hpop]
    · rw [hcontents] at hfst hsnd h
      obtain rfl : node = some x := hfst
      have hp : p.contents = rest := hsnd
      rw [popAll, hpop]
      dsimp only
      rw [ih (hp ▸ Nat.le_of_succ_le_succ h), hp]

end RmfQueue

/-! ## Tables -/

/-- `rmf_SymbolMapTable`: the nodes from `head` on, each with its key and its data. -/
abbrev SymbolMapTable (α : Type) := List (ℕ × α)

namespace SymbolMapTable

variable {α : Type}

/-- `Insert`; whether there is memory for a node comes from outside. -/
def insert (table : SymbolMapTable α) (key : ℕ) (data : α) (allocated : Bool) :
    SymbolMapTable α :=
  if allocated then (key, data) :: table else table

/-- `Lookup`. -/
def lookup (table : SymbolMapTable α) (key : ℕ) : Option α :=
  (KeyedList.lookup Prod.fst key table).map Prod.snd

/-- `Remove`: the data of the first node with the key, and the table without that node. -/
def remove (key : ℕ) : SymbolMapTable α → Option α × SymbolMapTable α
  | [] => (none, [])
  | (k, data) :: rest =>
    if k = key then (some data, rest)
    else
      let (found, rest) := remove key rest
      (found, (k, data) :: rest)

/-- The keys of the nodes. -/
def keys (table : SymbolMapTable α) : List ℕ := table.map Prod.fst

variable {table table' : SymbolMapTable α} {key : ℕ} {data : α}

theorem mem_of_lookup (h : table.lookup key = some data) : (key, data) ∈ table := by
  unfold lookup at h
  induction table with
  | nil => cases h
  | cons node table ih =>
    by_cases hk : node.1 = key
    · rw [KeyedList.lookup_cons_self hk] at h
      cases h
      subst hk
      exact List.mem_cons_self
    · rw [KeyedList.lookup_cons_ne hk] at h
      exact List.mem_cons_of_mem _ (ih h)

theorem lookup_eq_none_iff : table.lookup key = none ↔ key ∉ table.keys := by
  unfold lookup
  rw [Option.map_eq_none_iff]
  exact KeyedList.lookup_eq_none_iff

/-- **What is removed.** The node comes out of its place; if there is none, nothing changes. -/
theorem remove_cases (key : ℕ) (table : SymbolMapTable α) :
    (remove key table = (none, table) ∧ key ∉ table.keys) ∨
    ∃ front data back, table = front ++ (key, data) :: back ∧ key ∉ keys front ∧
      remove key table = (some data, front ++ back) := by
  induction table with
  | nil => exact Or.inl ⟨rfl, List.not_mem_nil⟩
  | cons node table ih =>
    obtain ⟨k, data⟩ := node
    by_cases hk : k = key
    · subst hk
      exact Or.inr ⟨[], data, table, rfl, List.not_mem_nil, if_pos rfl⟩
    · rcases ih with ⟨hnone, hkey⟩ | ⟨front, d, back, rfl, hkey, hremove⟩
      · refine Or.inl ⟨?_, ?_⟩
        · rw [remove, if_neg hk, hnone]
        · simp only [keys, List.map_cons, List.mem_cons, not_or]
          exact ⟨fun h => hk h.symm, hkey⟩
      · refine Or.inr ⟨(k, data) :: front, d, back, rfl, ?_, ?_⟩
        · simp only [keys, List.map_cons, List.mem_cons, not_or]
          exact ⟨fun h => hk h.symm, hkey⟩
        · rw [remove, if_neg hk, hremove]
          rfl

section Count

variable [DecidableEq α]

/-- In how many nodes the data is. -/
def count (table : SymbolMapTable α) (data : α) : ℕ := (table.map Prod.snd).count data

theorem count_pos_of_lookup (h : table.lookup key = some data) : 0 < table.count data :=
  List.count_pos_iff.mpr (List.mem_map.mpr ⟨_, mem_of_lookup h, rfl⟩)

theorem count_cons (x : α) :
    count ((key, data) :: table) x = count table x + if data = x then 1 else 0 := by
  unfold count
  rw [List.map_cons, List.count_cons]
  by_cases hx : data = x <;> simp [hx]

theorem count_insert (x : α) :
    (table.insert key data true).count x = table.count x + if data = x then 1 else 0 :=
  count_cons x

theorem count_remove {d : Option α} (h : remove key table = (d, table')) (x : α) :
    table.count x = count table' x + if d = some x then 1 else 0 := by
  rcases remove_cases key table with ⟨hnone, -⟩ | ⟨front, data, back, rfl, -, hsome⟩
  · rw [hnone] at h
    obtain ⟨rfl, rfl⟩ := Prod.mk.inj h
    rfl
  · rw [hsome] at h
    obtain ⟨rfl, rfl⟩ := Prod.mk.inj h
    simp only [count, List.map_append, List.map_cons, List.count_append, List.count_cons,
      beq_iff_eq, Option.some.injEq]
    omega

end Count

/-- Removing leaves a part of the table. -/
theorem remove_sublist (key : ℕ) (table : SymbolMapTable α) :
    (remove key table).2.Sublist table := by
  rcases remove_cases key table with ⟨hnone, -⟩ | ⟨front, data, back, rfl, -, hsome⟩
  · rw [hnone]
  · rw [hsome]
    exact List.Sublist.append_left (List.sublist_cons_self _ back) front

theorem keys_remove (h : table.keys.Nodup) : (remove key table).2.keys.Nodup :=
  ((remove_sublist key table).map Prod.fst).nodup h

/-- With distinct keys, the node of a key is found. -/
theorem remove_of_mem (h : table.keys.Nodup) (hmem : (key, data) ∈ table) :
    ∃ rest, remove key table = (some data, rest) ∧
      ∀ k d, (k, d) ∈ rest ↔ (k, d) ∈ table ∧ k ≠ key := by
  have hkey : key ∈ table.keys := List.mem_map.mpr ⟨_, hmem, rfl⟩
  rcases remove_cases key table with ⟨-, hnone⟩ | ⟨front, d, back, rfl, hfront, hsome⟩
  · exact absurd hkey hnone
  · simp only [keys, List.map_append, List.map_cons, List.nodup_append, List.nodup_cons] at h
    obtain ⟨-, ⟨hback, -⟩, -⟩ := h
    have hne : ∀ k x, (k, x) ∈ front ++ back → k ≠ key := by
      rintro k x hx rfl
      rcases List.mem_append.mp hx with hx | hx
      · exact hfront (List.mem_map.mpr ⟨_, hx, rfl⟩)
      · exact hback (List.mem_map.mpr ⟨_, hx, rfl⟩)
    have hcases : ∀ k x, (k, x) ∈ front ++ (key, d) :: back ↔
        (k, x) = (key, d) ∨ (k, x) ∈ front ++ back := by
      intro k x
      simp only [List.mem_append, List.mem_cons]
      tauto
    obtain rfl : data = d := by
      rcases (hcases key data).mp hmem with h | h
      · exact (Prod.mk.inj h).2
      · exact absurd rfl (hne _ _ h)
    refine ⟨front ++ back, hsome, fun k x => ⟨fun hx => ?_, fun hx => ?_⟩⟩
    · exact ⟨(hcases k x).mpr (Or.inr hx), hne k x hx⟩
    · rcases (hcases k x).mp hx.1 with h | h
      · exact absurd (Prod.mk.inj h).1 hx.2
      · exact h

/-! ### The nodes of a key -/

/-- A call that changes the table. -/
inductive Call (α : Type)
  | insert (key : ℕ) (data : α) (allocated : Bool)
  | remove (key : ℕ)

/-- The table after a call. -/
def after (table : SymbolMapTable α) : Call α → SymbolMapTable α
  | .insert key data allocated => table.insert key data allocated
  | .remove key => (remove key table).2

/-- What a call should make of stacks, one under each key. -/
def stackAfter (s : ℕ → List α) : Call α → ℕ → List α
  | .insert key data allocated =>
    if allocated then Function.update s key (data :: s key) else s
  | .remove key => Function.update s key (s key).tail

/-- The nodes of a key, the newest first. -/
def stack (table : SymbolMapTable α) (key : ℕ) : List α :=
  (table.filter fun node => node.1 = key).map Prod.snd

theorem stack_cons (k : ℕ) : stack ((key, data) :: table) k =
    if key = k then data :: stack table k else stack table k := by
  by_cases hk : key = k <;> simp [stack, hk]

theorem stack_eq_nil (h : key ∉ table.keys) : stack table key = [] := by
  rw [stack, List.map_eq_nil_iff, List.filter_eq_nil_iff]
  exact fun node hnode hk => h (List.mem_map.mpr ⟨node, hnode, of_decide_eq_true hk⟩)

theorem lookup_eq_head? (table : SymbolMapTable α) (key : ℕ) :
    table.lookup key = (stack table key).head? := by
  induction table with
  | nil => rfl
  | cons node table ih =>
    rw [stack_cons]
    split_ifs with hk
    · rw [lookup, KeyedList.lookup_cons_self hk]
      rfl
    · rw [← ih, lookup, KeyedList.lookup_cons_ne hk]
      rfl

/-- **Removing** takes the newest node of the key, and those of no other. -/
theorem remove_eq_head? (table : SymbolMapTable α) (key : ℕ) :
    (remove key table).1 = (stack table key).head? ∧ stack (remove key table).2 =
      Function.update (stack table) key (stack table key).tail := by
  rcases remove_cases key table with ⟨hnone, hkey⟩ | ⟨front, data, back, rfl, hkey, hsome⟩
  · have hnil := stack_eq_nil hkey
    rw [hnone, hnil]
    exact ⟨rfl, (Function.update_eq_self_iff.mpr hnil.symm).symm⟩
  · have happend : ∀ back k, stack (front ++ back) k = stack front k ++ stack back k := by
      simp [stack]
    rw [hsome, happend, stack_eq_nil hkey, stack_cons, if_pos rfl]
    refine ⟨rfl, funext fun k => ?_⟩
    by_cases hk : k = key
    · rw [hk, Function.update_self, happend, stack_eq_nil hkey]
      rfl
    · rw [Function.update_of_ne hk, happend, happend, stack_cons, if_neg (Ne.symm hk)]

theorem stack_after (table : SymbolMapTable α) (c : Call α) :
    stack (table.after c) = stackAfter (stack table) c := by
  cases c with
  | remove key => exact (remove_eq_head? table key).2
  | insert key data allocated =>
    cases allocated with
    | false => rfl
    | true =>
      funext k
      rw [after, insert, if_pos rfl, stack_cons, stackAfter, if_pos rfl, Function.update_apply]
      split_ifs <;> simp_all

/-- **The nodes of each key are a stack**: after every run of calls, what is found and what is
removed is what was put under the key last and not removed. -/
theorem foldl_stack (table : SymbolMapTable α) (calls : List (Call α)) (key : ℕ) :
    (calls.foldl after table).lookup key = (calls.foldl stackAfter (stack table) key).head? ∧
      (remove key (calls.foldl after table)).1 =
        (calls.foldl stackAfter (stack table) key).head? := by
  have hrun : stack (calls.foldl after table) = calls.foldl stackAfter (stack table) := by
    induction calls generalizing table with
    | nil => rfl
    | cons c calls ih => rw [List.foldl_cons, ih, stack_after, List.foldl_cons]
  rw [← hrun]
  exact ⟨lookup_eq_head? _ key, (remove_eq_head? _ key).1⟩

end SymbolMapTable

end MediaFramework
