import MediaFramework.Lib.Blocks
import MediaFramework.Lib.Cells
import MediaFramework.Lib.Family
import MediaFramework.Lib.Run
import MediaFramework.Lib.Slots

/-!
# The static memory pool of the POD server (`rmfStaticMemoryPool.c`)

A pool has five sub-pools of blocks, each with blocks of one size. A block is taken from the first
sub-pool whose blocks are large enough and that has one left. To release a block, its sub-pool and
its index are worked out from the address.

An address that does not begin a block is reported as unaligned, and the block that it is in is
released all the same.

The counter that throttles the log of the statistics is not part of the model.
-/

namespace MediaFramework

open Function (update update_of_ne update_self)

/-- The sub-pools, of half a kilobyte and so on. -/
inductive SubPoolType
  | hk
  | k1
  | k2
  | k4
  | k8
  deriving DecidableEq

namespace SubPoolType

/-- `RMF_MEM_POOL_##type##_BLOCK_SIZE` -/
def blockSize : SubPoolType → ℕ
  | hk => 512
  | k1 => 1024
  | k2 => 2048
  | k4 => 4096
  | k8 => 8192

/-- `RMF_MEM_POOL_##type##_BLOCK_COUNT` -/
def blockCount : SubPoolType → ℕ
  | hk => 256
  | k1 => 128
  | k2 => 64
  | k4 => 16
  | k8 => 8

/-- In the order in which they are tried. -/
def all : List SubPoolType := [hk, k1, k2, k4, k8]

/-- `sizeof(RMF_MEM_POOL_SUB_##type)`. The guard block is behind the blocks. -/
def subPoolSize (t : SubPoolType) : ℕ := 8 + 5 * t.blockCount + t.blockCount * t.blockSize + 4096

variable (base : ℕ)

/-- Where the sub-pool is. The address of the first one is `base`. -/
def place : SubPoolType → ℕ
  | hk => base
  | k1 => base + hk.subPoolSize
  | k2 => base + hk.subPoolSize + k1.subPoolSize
  | k4 => base + hk.subPoolSize + k1.subPoolSize + k2.subPoolSize
  | k8 => base + hk.subPoolSize + k1.subPoolSize + k2.subPoolSize + k4.subPoolSize

/-- `aBlocks`. The two counters, the flags and the requested sizes are before it. -/
def blocks (t : SubPoolType) : Row where
  start := t.place base + 8 + 5 * t.blockCount
  size := t.blockSize
  count := t.blockCount
  size_pos := by cases t <;> decide

/-- The sub-pool that is found is one that has the address. -/
theorem has_of_find {base ptr : ℕ} {t : SubPoolType}
    (h : (all.find? fun t => (t.blocks base).Has ptr) = some t) : (t.blocks base).Has ptr := by
  have hhas := List.find?_some h
  exact of_decide_eq_true hhas

end SubPoolType

open SubPoolType

/-- `RMF_MEM_POOL_SUB_##type` -/
structure SubPool (t : SubPoolType) where
  nUsedBlockCount : ℕ
  nUsageDepth : ℕ
  aiUsedBlocks : Fin t.blockCount → Bool
  anReqSize : Fin t.blockCount → ℕ
  /-- the bytes of each block -/
  aBlocks : Fin t.blockCount → ℕ → ℕ

/-- `RMF_MEM_POOL_RESULT`, as far as it is returned here. -/
inductive MemPoolResult
  | success
  | nullParam
  | exhausted
  | sizeNotSupported
  | notFromThisPool
  deriving DecidableEq

/-- `RMF_FIXED_H124_MEM_POOL` -/
abbrev MemPool := (t : SubPoolType) → SubPool t

namespace SubPool

variable {t : SubPoolType} (p : SubPool t) (i : Fin t.blockCount)

/-- The end marker is put behind the requested bytes, where there is room for it. -/
def marked (nSize : ℕ) (bytes : ℕ → ℕ) : ℕ → ℕ :=
  if 4 ≤ t.blockSize - nSize then store bytes nSize [0x87, 0xBA, 0xDC, 0xFE] else bytes

/-- Allocate the block. -/
def take (nSize : ℕ) : SubPool t where
  nUsedBlockCount := (p.nUsedBlockCount + 1) % 2 ^ 32
  nUsageDepth := max p.nUsageDepth (i + 1)
  aiUsedBlocks := update p.aiUsedBlocks i true
  anReqSize := update p.anReqSize i nSize
  aBlocks := update p.aBlocks i (marked (t := t) nSize (p.aBlocks i))

/-- Mark the block as free. One that is free already is not counted again. -/
def free : SubPool t :=
  { p with
    nUsedBlockCount :=
      if p.aiUsedBlocks i then (p.nUsedBlockCount + (2 ^ 32 - 1)) % 2 ^ 32 else p.nUsedBlockCount
    aiUsedBlocks := update p.aiUsedBlocks i false }

/-- The blocks in use. -/
def inUse : ℕ := total Bool.toNat p.aiUsedBlocks

end SubPool

namespace MemPool

/-- `rmfFixedH124MemPoolInit` -/
def init : MemPool := fun _ => ⟨0, 0, fun _ => false, fun _ => 0, fun _ _ => 0⟩

variable (base : ℕ) (m : MemPool)

/-- `rmfFixedH124MemPoolAllocFromPool`, with the address that is given out if there is one. -/
def allocFromPool (nSize : ℕ) : MemPoolResult × Option ℕ × MemPool :=
  let refused := (if 4096 < nSize then .sizeNotSupported else .exhausted, none, m)
  match SubPoolType.all.find? fun t =>
    nSize ≤ t.blockSize ∧ (m t).nUsedBlockCount < t.blockCount with
  | none => refused
  | some t =>
    match firstSlot fun i => !(m t).aiUsedBlocks i with
    | none => refused
    | some i => (.success, some ((t.blocks base).block i), update m t ((m t).take i nSize))

/-- `rmfFixedH124MemPoolReleaseToPool` -/
def releaseToPool (ptr : ℕ) : MemPoolResult × MemPool :=
  if ptr = 0 then (.nullParam, m)
  else
    match h : SubPoolType.all.find? fun t => (t.blocks base).Has ptr with
    | none => (.notFromThisPool, m)
    | some t =>
      let iBlock := ⟨(t.blocks base).index ptr, Row.index_lt (has_of_find h)⟩
      (.success, update m t ((m t).free iBlock))

end MemPool

/-! ## What is expected of it -/

/-- A block that was given out. -/
structure LiveBlock where
  address : ℕ
  requested : ℕ
  deriving DecidableEq

/-- A call. -/
inductive PoolCall
  | alloc (nSize : ℕ)
  | release (ptr : ℕ)

namespace MemPool

/-- A block, by its sub-pool and its index. -/
abbrev Place := (t : SubPoolType) × Fin t.blockCount

variable (base : ℕ)

/-- The address of the block. -/
def addressOf (x : Place) : ℕ := (x.1.blocks base).block x.2

/-- The address is inside the block. -/
abbrev Inside (x : Place) (ptr : ℕ) : Prop :=
  addressOf base x ≤ ptr ∧ ptr < addressOf base x + x.1.blockSize

/-- A call, with the blocks that were given out and not released since. -/
def step (s : MemPool × List LiveBlock) : PoolCall → Option (MemPool × List LiveBlock)
  | .alloc nSize =>
    let r := s.1.allocFromPool base nSize
    some (r.2.2, (r.2.1.map fun address => ⟨address, nSize⟩).toList ++ s.2)
  | .release ptr => some ((s.1.releaseToPool base ptr).2, s.2.filter fun b => b.address ≠ ptr)

/-- The pool and its live blocks. -/
structure Sound (s : MemPool × List LiveBlock) : Prop where
  counted : ∀ t, (s.1 t).nUsedBlockCount = (s.1 t).inUse
  inUse : ∀ x : Place, (s.1 x.1).aiUsedBlocks x.2 = true ↔ ∃ b ∈ s.2, b.address = addressOf base x
  large : ∀ b ∈ s.2, ∃ x : Place, b.address = addressOf base x ∧ b.requested ≤ x.1.blockSize
  disjoint : s.2.Pairwise fun a b => ∀ x y : Place, a.address = addressOf base x →
    b.address = addressOf base y → ∀ ptr, ¬(Inside base x ptr ∧ Inside base y ptr)

/-- An allocation fails only if every block that is large enough is in use, and the release of
anything else than a live block changes nothing. -/
def Right (s : MemPool × List LiveBlock) : PoolCall → Prop
  | .alloc nSize => (s.1.allocFromPool base nSize).2.1 = none →
    ∀ x : Place, nSize ≤ x.1.blockSize → ∃ b ∈ s.2, b.address = addressOf base x
  | .release ptr => (∀ b ∈ s.2, b.address ≠ ptr) → (s.1.releaseToPool base ptr).2 = s.1

/-- **The condition on a call.** What is released is not inside a live block, unless it is its
address. -/
def Aligned (s : MemPool × List LiveBlock) : PoolCall → Prop
  | .alloc _ => True
  | .release ptr => ∀ b ∈ s.2, ∀ x, b.address = addressOf base x → Inside base x ptr →
    ptr = b.address

variable {base} {m : MemPool} {live : List LiveBlock} {x y : Place} {ptr nSize : ℕ}

/-! ## Addresses -/

theorem place_le_start (t : SubPoolType) : t.place base ≤ (t.blocks base).start := by
  rw [blocks, Nat.add_assoc]
  exact Nat.le_add_right _ _

/-- The guard block is behind the blocks. -/
theorem stop_le (t : SubPoolType) :
    (t.blocks base).stop ≤ t.place base + t.subPoolSize := by
  rw [Row.stop, Row.block, blocks, subPoolSize]
  dsimp only
  omega

/-- A sub-pool is behind those before it. -/
theorem place_add_le {t u : SubPoolType} (h : t ≠ u) :
    t.place base + t.subPoolSize ≤ u.place base ∨ u.place base + u.subPoolSize ≤ t.place base := by
  cases t <;> cases u <;> simp only [place, ne_eq, not_true_eq_false] at h ⊢ <;> omega

/-- Two sub-pools are apart. -/
theorem stop_le_start (base : ℕ) {t u : SubPoolType} (h : t ≠ u) :
    (t.blocks base).stop ≤ (u.blocks base).start ∨ (u.blocks base).stop ≤ (t.blocks base).start :=
  (place_add_le h).imp
    (fun h => Nat.le_trans (stop_le t) (Nat.le_trans h (place_le_start u)))
    (fun h => Nat.le_trans (stop_le u) (Nat.le_trans h (place_le_start t)))

theorem has_of_inside (h : Inside base x ptr) : (x.1.blocks base).Has ptr :=
  Row.has_of_lt x.2.isLt h.1 h.2

/-- **An address is inside one block only.** -/
theorem eq_of_inside (hx : Inside base x ptr) (hy : Inside base y ptr) : x = y := by
  have hxs := has_of_inside hx
  have hys := has_of_inside hy
  obtain ⟨t, i⟩ := x
  obtain ⟨u, j⟩ := y
  by_cases htu : t = u
  · subst htu
    have hi := (Row.index_eq_iff hxs.1).mpr hx
    have hj := (Row.index_eq_iff hys.1).mpr hy
    obtain rfl : i = j := Fin.ext (hi.symm.trans hj)
    rfl
  · rcases stop_le_start base htu with h | h
    · exact absurd (Nat.lt_of_lt_of_le hxs.2 h) (Nat.not_lt.mpr hys.1)
    · exact absurd (Nat.lt_of_lt_of_le hys.2 h) (Nat.not_lt.mpr hxs.1)

theorem inside_addressOf (x : Place) : Inside base x (addressOf base x) :=
  ⟨Nat.le_refl _, Nat.lt_add_of_pos_right (x.1.blocks base).size_pos⟩

theorem addressOf_inj (h : addressOf base x = addressOf base y) : x = y :=
  eq_of_inside (inside_addressOf x) (h ▸ inside_addressOf y)

theorem addressOf_pos (base : ℕ) (x : Place) : 0 < addressOf base x := by
  rw [addressOf, Row.block, blocks]
  dsimp only
  omega

/-! ## Taking and freeing a block -/

/-- The flags, when those of one sub-pool are changed at one block. -/
theorem used_update {p : SubPool x.1} {b : Bool}
    (hp : p.aiUsedBlocks = update (m x.1).aiUsedBlocks x.2 b) (y : Place) :
    (update m x.1 p y.1).aiUsedBlocks y.2 =
      if y = x then b else (m y.1).aiUsedBlocks y.2 := by
  obtain ⟨t, i⟩ := x
  obtain ⟨u, j⟩ := y
  by_cases htu : u = t
  · subst htu
    rw [update_self, hp]
    by_cases hij : j = i
    · rw [hij, update_self, if_pos rfl]
    · rw [update_of_ne hij, if_neg]
      simpa using hij
  · rw [update_of_ne htu, if_neg]
    rintro ⟨⟩
    exact htu rfl

/-- The count, when one sub-pool is changed. -/
theorem counted_update {t : SubPoolType} {p : SubPool t} (hp : p.nUsedBlockCount = p.inUse)
    (h : ∀ u, (m u).nUsedBlockCount = (m u).inUse) (u : SubPoolType) :
    (update m t p u).nUsedBlockCount = (update m t p u).inUse := by
  by_cases hu : u = t
  · subst hu
    rw [update_self, hp]
  · rw [update_of_ne hu, h]

theorem inUse_le (t : SubPoolType) (p : SubPool t) : p.inUse ≤ t.blockCount := by
  have := total_le_card Bool.toNat_le p.aiUsedBlocks
  rwa [Fintype.card_fin] at this

theorem blockCount_lt (t : SubPoolType) : t.blockCount < 2 ^ 32 := by cases t <;> decide

section SubPools

variable {t : SubPoolType} {p : SubPool t} {i : Fin t.blockCount}

/-- A free block is one that is not counted. -/
theorem inUse_lt (hi : p.aiUsedBlocks i = false) : p.inUse < t.blockCount := by
  have hset := total_update Bool.toNat p.aiUsedBlocks i true
  have hle := total_le_card Bool.toNat_le (update p.aiUsedBlocks i true)
  rw [hi, Bool.toNat_false, Bool.toNat_true] at hset
  rw [Fintype.card_fin] at hle
  rw [SubPool.inUse]
  omega

theorem counted_take (h : p.nUsedBlockCount = p.inUse) (hi : p.aiUsedBlocks i = false) :
    (p.take i nSize).nUsedBlockCount = (p.take i nSize).inUse := by
  have hset := total_update Bool.toNat p.aiUsedBlocks i true
  rw [hi, Bool.toNat_false, Bool.toNat_true] at hset
  have hlt := inUse_lt hi
  have := blockCount_lt t
  rw [SubPool.take, SubPool.inUse]
  dsimp only
  rw [h, Nat.mod_eq_of_lt (by omega), SubPool.inUse]
  omega

theorem counted_free (h : p.nUsedBlockCount = p.inUse) :
    (p.free i).nUsedBlockCount = (p.free i).inUse := by
  have hset := total_update Bool.toNat p.aiUsedBlocks i false
  rw [Bool.toNat_false] at hset
  have hle := inUse_le t p
  have := blockCount_lt t
  rw [SubPool.inUse] at h hle
  rw [SubPool.free, SubPool.inUse]
  dsimp only
  rw [h]
  rcases hi : p.aiUsedBlocks i with _ | _
  · rw [hi, Bool.toNat_false] at hset
    rw [if_neg Bool.false_ne_true]
    omega
  · rw [hi, Bool.toNat_true] at hset
    rw [if_pos rfl]
    omega

/-- A free block is not freed again. -/
theorem free_eq_self (hi : p.aiUsedBlocks i = false) : p.free i = p := by
  have hset : update p.aiUsedBlocks i false = p.aiUsedBlocks := by
    rw [← hi, Function.update_eq_self]
  rw [SubPool.free, hi, if_neg Bool.false_ne_true, hset]

end SubPools

/-! ## A call -/

/-- **What is released** is the block that the address is inside of. -/
theorem releaseToPool_inside (h : Inside base x ptr) :
    (m.releaseToPool base ptr).2 = update m x.1 ((m x.1).free x.2) := by
  have hpos : ptr ≠ 0 := fun hzero => by
    have := addressOf_pos base x
    have := h.1
    omega
  rw [releaseToPool, if_neg hpos]
  split
  · rename_i hnone
    have hall := List.find?_eq_none.mp hnone x.1 (by cases x.1 <;> decide)
    exact absurd (decide_eq_true (has_of_inside h)) hall
  · rename_i t hfind
    have hhas := has_of_find hfind
    obtain rfl : x = ⟨t, _, Row.index_lt hhas⟩ :=
      eq_of_inside h ((Row.index_eq_iff hhas.1).mp rfl)
    rfl

theorem releaseToPool_outside (h : ∀ x, ¬Inside base x ptr) :
    (m.releaseToPool base ptr).2 = m := by
  rw [releaseToPool]
  split_ifs
  · rfl
  · split
    · rfl
    · rename_i t hfind
      have hhas := has_of_find hfind
      exact absurd ((Row.index_eq_iff hhas.1).mp rfl) (h ⟨t, _, Row.index_lt hhas⟩)

/-- **An allocation** takes a free block that is large enough, or all of these are in use. -/
theorem allocFromPool_cases (h : ∀ t, (m t).nUsedBlockCount = (m t).inUse) (nSize : ℕ) :
    (∃ x : Place, (m x.1).aiUsedBlocks x.2 = false ∧ nSize ≤ x.1.blockSize ∧
      m.allocFromPool base nSize =
        (.success, some (addressOf base x), update m x.1 ((m x.1).take x.2 nSize))) ∨
    (m.allocFromPool base nSize).2 = (none, m) ∧
      ∀ x : Place, nSize ≤ x.1.blockSize → (m x.1).aiUsedBlocks x.2 = true := by
  rw [allocFromPool]
  split
  · rename_i hnone
    refine Or.inr ⟨rfl, fun x hx => ?_⟩
    have hall := List.find?_eq_none.mp hnone x.1 (by cases x.1 <;> decide)
    rw [decide_eq_true_eq, not_and, h] at hall
    by_contra hfree
    exact hall hx (inUse_lt (Bool.eq_false_iff.mpr hfree))
  · rename_i t hfind
    have hfits := List.find?_some hfind
    obtain ⟨hsize, hcount⟩ := of_decide_eq_true hfits
    split
    · rename_i hfull
      have hall := total_eq_card (w := Bool.toNat) (f := (m t).aiUsedBlocks) fun i => by
        have hused : (m t).aiUsedBlocks i = true := by simpa using firstSlot_eq_none.mp hfull i
        rw [hused, Bool.toNat_true]
      rw [h, SubPool.inUse, hall, Fintype.card_fin] at hcount
      exact absurd hcount (Nat.lt_irrefl _)
    · rename_i i hi
      have hfree : (m t).aiUsedBlocks i = false := by simpa using firstSlot_some hi
      exact Or.inl ⟨⟨t, i⟩, hfree, hsize, rfl⟩

/-- The pool is sound at the start. -/
theorem sound_init : Sound base (init, []) where
  counted := fun _ => (total_eq_zero fun _ => rfl).symm
  inUse := fun _ => iff_of_false Bool.false_ne_true fun ⟨_, hb, _⟩ => List.not_mem_nil hb
  large := fun _ hb => absurd hb List.not_mem_nil
  disjoint := List.Pairwise.nil

/-- A free block is given out. -/
theorem Sound.take (h : Sound base (m, live)) (hfree : (m x.1).aiUsedBlocks x.2 = false)
    (hsize : nSize ≤ x.1.blockSize) :
    Sound base (update m x.1 ((m x.1).take x.2 nSize),
      ⟨addressOf base x, nSize⟩ :: live) where
  counted := counted_update (counted_take (h.counted x.1) hfree) h.counted
  inUse := fun y => by
    rw [used_update (p := (m x.1).take x.2 nSize) rfl y, List.exists_mem_cons_iff]
    split_ifs with hy
    · exact iff_of_true rfl (Or.inl (congrArg (addressOf base) hy.symm))
    · rw [h.inUse y, or_iff_right]
      exact fun haddress => hy (addressOf_inj haddress).symm
  large := fun b hb => by
    rcases List.mem_cons.mp hb with rfl | hb
    · exact ⟨x, rfl, hsize⟩
    · exact h.large b hb
  disjoint := by
    refine List.pairwise_cons.mpr ⟨fun b hb y z hy hz ptr hptr => ?_, h.disjoint⟩
    obtain rfl := eq_of_inside hptr.1 hptr.2
    obtain rfl := addressOf_inj hy
    have hused := (h.inUse x).mpr ⟨b, hb, hz⟩
    rw [hfree] at hused
    cases hused

/-- A live block is released. -/
theorem Sound.free (h : Sound base (m, live)) (x : Place) :
    Sound base (update m x.1 ((m x.1).free x.2),
      live.filter fun b => b.address ≠ addressOf base x) where
  counted := counted_update (counted_free (h.counted x.1)) h.counted
  inUse := fun y => by
    rw [used_update (p := (m x.1).free x.2) rfl y]
    split_ifs with hy
    · refine iff_of_false id fun ⟨b, hb, haddress⟩ => ?_
      exact of_decide_eq_true (List.mem_filter.mp hb).2 (hy ▸ haddress)
    · rw [h.inUse y]
      refine exists_congr fun b => ⟨fun ⟨hb, haddress⟩ => ?_, fun ⟨hb, haddress⟩ =>
        ⟨(List.mem_filter.mp hb).1, haddress⟩⟩
      refine ⟨List.mem_filter.mpr ⟨hb, decide_eq_true fun hx => hy ?_⟩, haddress⟩
      exact addressOf_inj (haddress.symm.trans hx)
  large := fun b hb => h.large b (List.mem_filter.mp hb).1
  disjoint := h.disjoint.sublist List.filter_sublist

/-- **An allocation.** -/
theorem Sound.alloc (h : Sound base (m, live)) (nSize : ℕ) :
    Right base (m, live) (.alloc nSize) ∧
      ∃ s', step base (m, live) (.alloc nSize) = some s' ∧ Sound base s' := by
  rcases allocFromPool_cases h.counted nSize with ⟨x, hfree, hsize, halloc⟩ | ⟨halloc, hfull⟩
  · have hstep : step base (m, live) (.alloc nSize) = some
        (update m x.1 ((m x.1).take x.2 nSize), ⟨addressOf base x, nSize⟩ :: live) := by
      rw [step, halloc]
      rfl
    refine ⟨fun hnone => ?_, _, hstep, h.take hfree hsize⟩
    rw [halloc] at hnone
    cases hnone
  · have hstep : step base (m, live) (.alloc nSize) = some (m, live) := by
      rw [step, halloc]
      rfl
    exact ⟨fun _ x hx => (h.inUse x).mp (hfull x hx), _, hstep, h⟩

/-- A release that changes nothing. -/
theorem Sound.unchanged (h : Sound base (m, live)) (hptr : ∀ b ∈ live, b.address ≠ ptr)
    (hrelease : (m.releaseToPool base ptr).2 = m) :
    Right base (m, live) (.release ptr) ∧
      ∃ s', step base (m, live) (.release ptr) = some s' ∧ Sound base s' := by
  have hfilter : live.filter (fun b => b.address ≠ ptr) = live :=
    List.filter_eq_self.mpr fun b hb => decide_eq_true (hptr b hb)
  refine ⟨fun _ => hrelease, (m, live), ?_, h⟩
  rw [step, hrelease, hfilter]

/-- **A release.** -/
theorem Sound.release (h : Sound base (m, live)) (ptr : ℕ) :
    (Right base (m, live) (.release ptr) ∧
      ∃ s', step base (m, live) (.release ptr) = some s' ∧ Sound base s') ↔
      Aligned base (m, live) (.release ptr) := by
  by_cases hlive : ∃ b ∈ live, b.address = ptr
  · obtain ⟨b, hb, rfl⟩ := hlive
    obtain ⟨x, hx, -⟩ := h.large b hb
    have hstep : step base (m, live) (.release b.address) = some
        (update m x.1 ((m x.1).free x.2),
          live.filter fun b => b.address ≠ addressOf base x) := by
      rw [step, hx, releaseToPool_inside (inside_addressOf x)]
    refine iff_of_true ⟨fun hother => absurd rfl (hother b hb), _, hstep, h.free x⟩ ?_
    intro c _ y hy hinside
    rw [hx] at hinside
    rw [hx, hy, eq_of_inside (inside_addressOf x) hinside]
  · have hother : ∀ b ∈ live, b.address ≠ ptr := fun b hb haddress => hlive ⟨b, hb, haddress⟩
    by_cases hinside : ∃ x, Inside base x ptr
    · obtain ⟨x, hx⟩ := hinside
      rcases hused : (m x.1).aiUsedBlocks x.2 with _ | _
      · -- a block that is free already
        have hrelease : (m.releaseToPool base ptr).2 = m := by
          rw [releaseToPool_inside hx, free_eq_self hused, Function.update_eq_self]
        refine iff_of_true (h.unchanged hother hrelease) fun b hb y hy hinside => ?_
        obtain rfl := eq_of_inside hx hinside
        exact absurd ((h.inUse x).mpr ⟨b, hb, hy⟩) (Bool.eq_false_iff.mp hused)
      · -- the inside of a live block
        obtain ⟨b, hb, hbx⟩ := (h.inUse x).mp hused
        refine iff_of_false (fun ⟨hright, _⟩ => ?_) fun haligned =>
          hother b hb (haligned b hb x hbx hx).symm
        have hfreed := used_update (m := m) (p := (m x.1).free x.2) rfl x
        rw [← releaseToPool_inside hx, hright hother, if_pos rfl] at hfreed
        exact Bool.false_ne_true (hfreed.symm.trans hused)
    · have hoff : ∀ x, ¬Inside base x ptr := fun x hx => hinside ⟨x, hx⟩
      exact iff_of_true (h.unchanged hother (releaseToPool_outside hoff))
        fun _ _ x _ hx => absurd hx (hoff x)

/-- **One call.** -/
theorem step_iff (s : MemPool × List LiveBlock) (call : PoolCall) (h : Sound base s) :
    (Right base s call ∧ ∃ s', step base s call = some s' ∧ Sound base s') ↔
      Aligned base s call := by
  cases call with
  | alloc nSize => exact iff_of_true (Sound.alloc h nSize) trivial
  | release ptr => exact Sound.release h ptr

/-- **When the pool is managed right.** Through every run of calls it is sound and each call does
what is expected, exactly when nothing is released that is inside a live block and not its
address. -/
theorem managed_iff (base : ℕ) (calls : List PoolCall) :
    (Throughout (step base) (Sound base) (init, []) calls ∧
        EachStep (step base) (Right base) (init, []) calls) ↔
      EachStep (step base) (Aligned base) (init, []) calls :=
  Throughout.and_eachStep_iff step_iff sound_init

/-- A block is given out, and its second byte is released. The block is free then. -/
theorem not_managed_inside :
    ¬(Throughout (step 65536) (Sound 65536) (init, [])
        [.alloc 8192, .release (addressOf 65536 ⟨.k8, ⟨0, by decide⟩⟩ + 1)] ∧
      EachStep (step 65536) (Right 65536) (init, [])
        [.alloc 8192, .release (addressOf 65536 ⟨.k8, ⟨0, by decide⟩⟩ + 1)]) := by
  rintro ⟨-, -, hright⟩
  have hsame := (hright _ rfl).1 (by decide +kernel)
  have hused := congrArg (fun m : MemPool => (m .k8).aiUsedBlocks ⟨0, by decide⟩) hsame
  exact absurd hused (by decide +kernel)

end MemPool

end MediaFramework
