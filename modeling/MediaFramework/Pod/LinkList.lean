import Mathlib.Data.BitVec
import MediaFramework.Lib.DoublyLinked
import MediaFramework.Lib.Run

/-!
# Linked lists (`list.cpp`)

A list has a header with its first and its last link and their number, and each link knows the next
one, the one in front and the header of the list it is in. All of them are memory that was allocated
before; `NULL` is not, and following it has no result.

The lists are what the calls make of them, one after the other: `Sound` says so of the memory, and
each function keeps it. A link is in one list only, because it knows the header.
-/

namespace MediaFramework

/-- `LINK`. A pointer has `w` bits. -/
structure LINK (w : ℕ) where
  nextp : BitVec w
  prevp : BitVec w
  headerp : BitVec w
  deriving DecidableEq

/-- `LINKHD`. An `unsigned long` has as many bits as a pointer. -/
structure LINKHD (w : ℕ) where
  headp : BitVec w
  tailp : BitVec w
  nlinks : BitVec w
  deriving DecidableEq

/-- The links and the headers that are allocated. -/
structure LlistMemory (w : ℕ) where
  link : BitVec w → Option (LINK w)
  hd : BitVec w → Option (LINKHD w)

namespace LlistMemory

variable {w : ℕ} (m : LlistMemory w)

/-! ## The functions -/

/-- Something is written to a link. -/
def setLink (p : BitVec w) (f : LINK w → LINK w) : Option (LlistMemory w) := do
  let link ← m.link p
  return { m with link := Function.update m.link p (some (f link)) }

/-- Something is written to a header. -/
def setHd (h : BitVec w) (f : LINKHD w → LINKHD w) : Option (LlistMemory w) := do
  let hd ← m.hd h
  return { m with hd := Function.update m.hd h (some (f hd)) }

/-- `llist_append` -/
def llistAppend (headerp linkp : BitVec w) : Option (LlistMemory w) := do
  let hd ← m.hd headerp
  let m ← m.setLink linkp fun link => { link with nextp := 0#w, headerp, prevp := hd.tailp }
  let m ← if hd.tailp ≠ 0#w then m.setLink hd.tailp ({ · with nextp := linkp }) else some m
  let m ← m.setHd headerp ({ · with tailp := linkp })
  let m ← if hd.headp = 0#w then m.setHd headerp ({ · with headp := linkp }) else some m
  m.setHd headerp fun hd => { hd with nlinks := hd.nlinks + 1 }

/-- `llist_rmfirst` -/
def llistRmfirst (headerp : BitVec w) : Option (LlistMemory w) := do
  let hd ← m.hd headerp
  let lp := hd.headp
  if lp = 0#w then return m
  let link ← m.link lp
  let m ← m.setHd headerp ({ · with headp := link.nextp })
  let m ← if link.nextp ≠ 0#w then m.setLink link.nextp ({ · with prevp := 0#w }) else some m
  let m ← if hd.tailp = lp then m.setHd headerp ({ · with tailp := 0#w }) else some m
  let m ← m.setHd headerp fun hd => { hd with nlinks := hd.nlinks - 1 }
  m.setLink lp fun link => { link with nextp := 0#w, prevp := 0#w, headerp := 0#w }

/-- `llist_rmlast` -/
def llistRmlast (headerp : BitVec w) : Option (LlistMemory w) := do
  let hd ← m.hd headerp
  let lp := hd.tailp
  if lp = 0#w then return m
  let link ← m.link lp
  let m ← m.setHd headerp ({ · with tailp := link.prevp })
  let m ← if link.prevp ≠ 0#w then m.setLink link.prevp ({ · with nextp := 0#w }) else some m
  let m ← if hd.headp = lp then m.setHd headerp ({ · with headp := 0#w }) else some m
  let m ← m.setHd headerp fun hd => { hd with nlinks := hd.nlinks - 1 }
  m.setLink lp fun link => { link with nextp := 0#w, prevp := 0#w, headerp := 0#w }

/-- `llist_rmafter` -/
def llistRmafter (afterp : BitVec w) : Option (LlistMemory w) := do
  let after ← m.link afterp
  if after.nextp = 0#w then return m
  let hd ← m.hd after.headerp
  if after.nextp = hd.tailp then
    m.llistRmlast after.headerp
  else
    let lp := after.nextp
    let link ← m.link lp
    let m ← m.setLink link.nextp ({ · with prevp := link.prevp })
    let m ← m.setLink afterp ({ · with nextp := link.nextp })
    let m ← m.setHd after.headerp fun hd => { hd with nlinks := hd.nlinks - 1 }
    m.setLink lp fun link => { link with nextp := 0#w, prevp := 0#w, headerp := 0#w }

/-- `llist_rmlink` -/
def llistRmlink (linkp : BitVec w) : Option (LlistMemory w) := do
  let link ← m.link linkp
  let hd ← m.hd link.headerp
  if linkp = hd.headp then m.llistRmfirst link.headerp
  else m.llistRmafter link.prevp

/-- A call. -/
inductive LlistCall (w : ℕ) : Type where
  | append (headerp linkp : BitVec w)
  | rmlink (linkp : BitVec w)
  | rmfirst (headerp : BitVec w)
  | rmafter (afterp : BitVec w)
  | rmlast (headerp : BitVec w)

/-- What a call does. -/
def call : LlistCall w → Option (LlistMemory w)
  | .append headerp linkp => m.llistAppend headerp linkp
  | .rmlink linkp => m.llistRmlink linkp
  | .rmfirst headerp => m.llistRmfirst headerp
  | .rmafter afterp => m.llistRmafter afterp
  | .rmlast headerp => m.llistRmlast headerp

/-! ## The lists -/

/-- The contents of the lists, by their headers. -/
abbrev Lists (w : ℕ) := BitVec w → List (BitVec w)

/-- What is right behind a link is taken out. -/
def eraseAfter (p : BitVec w) : List (BitVec w) → List (BitVec w)
  | [] => []
  | q :: ls => if q = p then q :: ls.tail else q :: eraseAfter p ls

/-- What a call should do to the lists. -/
def Lists.call (lists : Lists w) : LlistCall w → Lists w
  | .append headerp linkp => Function.update lists headerp (lists headerp ++ [linkp])
  | .rmlink linkp => fun h => (lists h).erase linkp
  | .rmfirst headerp => Function.update lists headerp (lists headerp).tail
  | .rmafter afterp => fun h => eraseAfter afterp (lists h)
  | .rmlast headerp => Function.update lists headerp (lists headerp).dropLast

/-- What the functions ask of their callers: headers and links are allocated, a link that is
appended is in no list, and one that is removed, or behind which one is, is in a list. -/
def Fits (lists : Lists w) : LlistCall w → Prop
  | .append headerp linkp =>
    (m.hd headerp).isSome ∧ (m.link linkp).isSome ∧ ∀ h, linkp ∉ lists h
  | .rmlink linkp => ∃ h, linkp ∈ lists h
  | .rmafter afterp => ∃ h, afterp ∈ lists h
  | .rmfirst headerp => (m.hd headerp).isSome
  | .rmlast headerp => (m.hd headerp).isSome

/-- **A well-formed list**, with these links: the ends and the number are those of the list, the
ends are null just if it is empty, and every link has the next one, the one in front, and the
header. -/
structure WellFormed (h : BitVec w) (ls : List (BitVec w)) : Prop where
  header : ∃ hd, m.hd h = some hd ∧ hd.headp = ls.head?.getD 0#w ∧ hd.tailp = ls.getLast?.getD 0#w ∧
    hd.nlinks.toNat = ls.length ∧ (ls = [] ↔ hd.headp = 0#w) ∧ (ls = [] ↔ hd.tailp = 0#w)
  links : ∀ front p back, ls = front ++ p :: back →
    m.link p = some ⟨back.head?.getD 0#w, front.getLast?.getD 0#w, h⟩
  nodup : ls.Nodup

/-! ## What the memory holds -/

/-- The memory of a link, with what is behind it and in front of it. -/
def IsLink (h p next prev : BitVec w) : Prop := m.link p = some ⟨next, prev, h⟩

/-- The header and the links of a list. -/
structure Represents (h : BitVec w) (ls : List (BitVec w)) : Prop where
  header : m.hd h = some ⟨firstOf ls 0#w, lastOf 0#w ls, BitVec.ofNat w ls.length⟩
  links : Segment (m.IsLink h) 0#w ls 0#w
  nodup : ls.Nodup

/-- The lists are in memory: each header has one, and no link is at `NULL`. -/
structure Sound (lists : Lists w) : Prop where
  null : m.link 0#w = none
  lists : ∀ h, m.Represents h (lists h) ∨ m.hd h = none ∧ lists h = []

variable {m} {m' : LlistMemory w} {h h' p q a b : BitVec w} {lists : Lists w}
  {ls xs ys : List (BitVec w)} {hd : LINKHD w} {link : LINK w}

namespace Represents

theorem link_of_append (hr : m.Represents h (xs ++ p :: ys)) :
    m.link p = some ⟨firstOf ys 0#w, lastOf 0#w xs, h⟩ := hr.links.node_of_append

theorem headerp (hr : m.Represents h ls) (hp : p ∈ ls) :
    ∃ link, m.link p = some link ∧ link.headerp = h := by
  obtain ⟨xs, ys, rfl⟩ := List.append_of_mem hp
  exact ⟨_, hr.link_of_append, rfl⟩

theorem ne_zero (hr : m.Represents h ls) (hnull : m.link 0#w = none) (hp : p ∈ ls) : p ≠ 0#w := by
  obtain ⟨link, hlink, -⟩ := hr.headerp hp
  rintro rfl
  rw [hnull] at hlink
  cases hlink

end Represents

namespace Sound

/-- A link is in one list. -/
theorem unique (hs : m.Sound lists) (hp : p ∈ lists h) (hp' : p ∈ lists h') : h = h' := by
  have hall : ∀ {h}, p ∈ lists h → ∃ link, m.link p = some link ∧ link.headerp = h := by
    intro h hp
    rcases hs.lists h with hr | ⟨-, hnil⟩
    · exact hr.headerp hp
    · rw [hnil] at hp
      cases hp
  obtain ⟨link, hlink, rfl⟩ := hall hp
  obtain ⟨link', hlink', rfl⟩ := hall hp'
  obtain rfl := Option.some.inj (hlink.symm.trans hlink')
  rfl

theorem represents (hs : m.Sound lists) (hh : (m.hd h).isSome) : m.Represents h (lists h) :=
  (hs.lists h).resolve_right fun hnone => by
    rw [hnone.1] at hh
    cases hh

theorem represents_of_mem (hs : m.Sound lists) (hp : p ∈ lists h) : m.Represents h (lists h) :=
  (hs.lists h).resolve_right fun hnone => by
    rw [hnone.2] at hp
    cases hp

/-- **One list changes**, and of the memory only its header, its links, and links in no list. -/
theorem update (hs : m.Sound lists) (hr : m'.Represents h ls) (hnull : m'.link 0#w = none)
    (hhd : ∀ h', h' ≠ h → m'.hd h' = m.hd h')
    (hlink : ∀ h' p, h' ≠ h → p ∈ lists h' → m'.link p = m.link p) :
    m'.Sound (Function.update lists h ls) := by
  refine ⟨hnull, fun h' => ?_⟩
  by_cases heq : h' = h
  · rw [heq, Function.update_self]
    exact .inl hr
  · rw [Function.update_of_ne heq, hhd h' heq]
    refine (hs.lists h').imp_left fun hr' => ⟨?_, ?_, hr'.nodup⟩
    · rw [hhd h' heq, hr'.header]
    · exact hr'.links.mono fun p hp n q hnode => (hlink h' p heq hp).trans hnode

end Sound

/-! ## What each function does -/

variable {f t n : BitVec w} {linkp : LINK w}

theorem llistAppend_nil (hh : m.hd h = some ⟨0#w, 0#w, n⟩) (hq : m.link q = some link) :
    m.llistAppend h q = some
      ⟨Function.update m.link q (some ⟨0#w, 0#w, h⟩),
        Function.update m.hd h (some ⟨q, q, n + 1#w⟩)⟩ := by
  simp [llistAppend, setLink, setHd, hh, hq]

theorem llistAppend_concat (hh : m.hd h = some ⟨f, p, n⟩) (hf : f ≠ 0#w) (hp : p ≠ 0#w)
    (hpq : p ≠ q) (hq : m.link q = some link) (hlink : m.link p = some linkp) :
    m.llistAppend h q = some
      ⟨Function.update (Function.update m.link q (some ⟨0#w, p, h⟩)) p
          (some { linkp with nextp := q }),
        Function.update m.hd h (some ⟨f, q, n + 1#w⟩)⟩ := by
  simp [llistAppend, setLink, setHd, hh, hq, hf, hp, hpq, hlink]

theorem llistRmfirst_nil (hh : m.hd h = some ⟨0#w, t, n⟩) : m.llistRmfirst h = some m := by
  simp [llistRmfirst, hh]

theorem llistRmfirst_only (hh : m.hd h = some ⟨p, p, n⟩) (hp : p ≠ 0#w)
    (hlink : m.link p = some ⟨0#w, a, b⟩) :
    m.llistRmfirst h = some
      ⟨Function.update m.link p (some ⟨0#w, 0#w, 0#w⟩),
        Function.update m.hd h (some ⟨0#w, 0#w, n - 1#w⟩)⟩ := by
  simp [llistRmfirst, setLink, setHd, hh, hp, hlink]

theorem llistRmfirst_cons (hh : m.hd h = some ⟨p, t, n⟩) (hp : p ≠ 0#w) (htp : t ≠ p)
    (hlink : m.link p = some ⟨q, a, b⟩) (hq : q ≠ 0#w) (hqp : p ≠ q)
    (hnext : m.link q = some link) :
    m.llistRmfirst h = some
      ⟨Function.update (Function.update m.link q (some { link with prevp := 0#w })) p
          (some ⟨0#w, 0#w, 0#w⟩),
        Function.update m.hd h (some ⟨q, t, n - 1#w⟩)⟩ := by
  simp [llistRmfirst, setLink, setHd, hh, hp, hlink, hq, hqp, hnext, htp]

theorem llistRmlast_nil (hh : m.hd h = some ⟨f, 0#w, n⟩) : m.llistRmlast h = some m := by
  simp [llistRmlast, hh]

theorem llistRmlast_only (hh : m.hd h = some ⟨p, p, n⟩) (hp : p ≠ 0#w)
    (hlink : m.link p = some ⟨a, 0#w, b⟩) :
    m.llistRmlast h = some
      ⟨Function.update m.link p (some ⟨0#w, 0#w, 0#w⟩),
        Function.update m.hd h (some ⟨0#w, 0#w, n - 1#w⟩)⟩ := by
  simp [llistRmlast, setLink, setHd, hh, hp, hlink]

theorem llistRmlast_concat (hh : m.hd h = some ⟨f, p, n⟩) (hp : p ≠ 0#w) (hfp : f ≠ p)
    (hlink : m.link p = some ⟨a, q, b⟩) (hq : q ≠ 0#w) (hqp : p ≠ q)
    (hprev : m.link q = some link) :
    m.llistRmlast h = some
      ⟨Function.update (Function.update m.link q (some { link with nextp := 0#w })) p
          (some ⟨0#w, 0#w, 0#w⟩),
        Function.update m.hd h (some ⟨f, q, n - 1#w⟩)⟩ := by
  simp [llistRmlast, setLink, setHd, hh, hp, hlink, hq, hqp, hprev, hfp]

theorem llistRmafter_last (hlink : m.link p = some ⟨0#w, a, b⟩) : m.llistRmafter p = some m := by
  simp [llistRmafter, hlink]

theorem llistRmafter_tail (hlink : m.link p = some ⟨q, a, h⟩) (hq : q ≠ 0#w)
    (hh : m.hd h = some ⟨f, q, n⟩) : m.llistRmafter p = m.llistRmlast h := by
  simp [llistRmafter, hlink, hq, hh]

theorem llistRmafter_middle {l : BitVec w} (hlink : m.link p = some ⟨l, a, h⟩) (hl : l ≠ 0#w)
    (hh : m.hd h = some ⟨f, t, n⟩) (hlt : l ≠ t) (hremoved : m.link l = some ⟨q, p, b⟩)
    (hnext : m.link q = some link) (hpq : p ≠ q) (hlq : l ≠ q) (hlp : l ≠ p) :
    m.llistRmafter p = some
      ⟨Function.update (Function.update (Function.update m.link q (some { link with prevp := p })) p
          (some ⟨q, a, h⟩)) l (some ⟨0#w, 0#w, 0#w⟩),
        Function.update m.hd h (some ⟨f, t, n - 1#w⟩)⟩ := by
  simp [llistRmafter, setLink, setHd, hlink, hl, hh, hlt, hremoved, hnext, hpq, hlq, hlp]

theorem llistRmlink_first (hlink : m.link p = some ⟨a, b, h⟩) (hh : m.hd h = some ⟨p, t, n⟩) :
    m.llistRmlink p = m.llistRmfirst h := by
  simp [llistRmlink, hlink, hh]

theorem llistRmlink_other (hlink : m.link p = some ⟨a, q, h⟩) (hh : m.hd h = some ⟨f, t, n⟩)
    (hpf : p ≠ f) : m.llistRmlink p = m.llistRmafter q := by
  simp [llistRmlink, hlink, hh, hpf]

/-! ## Each function keeps the lists -/

theorem ofNat_succ (w n : ℕ) : BitVec.ofNat w n + 1#w = BitVec.ofNat w (n + 1) := by
  refine BitVec.eq_of_toNat_eq ?_
  simp

theorem ofNat_succ_sub (w n : ℕ) : BitVec.ofNat w (n + 1) - 1#w = BitVec.ofNat w n := by
  rw [← ofNat_succ, BitVec.add_sub_cancel]

/-- A link of the list is none of another one's. -/
theorem Sound.apart (hs : m.Sound lists) (hp : p ∈ lists h) (hne : h' ≠ h) (hq : q ∈ lists h') :
    q ≠ p := by
  rintro rfl
  exact hne (hs.unique hq hp)

/-- **Appending.** -/
theorem Sound.append (hs : m.Sound lists) (hh : (m.hd h).isSome) (hq : (m.link q).isSome)
    (hfree : ∀ h, q ∉ lists h) :
    ∃ m', m.llistAppend h q = some m' ∧
      m'.Sound (Function.update lists h (lists h ++ [q])) := by
  obtain ⟨link, hlink⟩ := Option.isSome_iff_exists.mp hq
  have hr := hs.represents hh
  have hnull : q ≠ 0#w := by
    rintro rfl
    rw [hs.null] at hlink
    cases hlink
  have hother : ∀ h' p, p ∈ lists h' → p ≠ q := fun h' p hp heq => hfree h' (heq ▸ hp)
  have hheader := hr.header
  rcases List.eq_nil_or_concat' (lists h) with hls | ⟨xs, p, hls⟩
  · rw [hls] at hheader ⊢
    refine ⟨_, llistAppend_nil hheader hlink, hs.update ⟨?_, ⟨?_, trivial⟩, ?_⟩ ?_ ?_ ?_⟩
    · simp
    · simp [IsLink]
    · exact List.nodup_singleton q
    · simp [hnull.symm, hs.null]
    · intro h' hne
      simp [hne]
    · intro h' p _ hp
      simp [hother h' p hp]
  · have hmem : p ∈ lists h := hls ▸ List.mem_append_right _ List.mem_cons_self
    have hpne : p ≠ 0#w := hr.ne_zero hs.null hmem
    have hpq : p ≠ q := hother h p hmem
    have hfirst : firstOf (lists h) 0#w ≠ 0#w :=
      hr.ne_zero hs.null (firstOf_mem (List.ne_nil_of_mem hmem))
    have hp : m.link p = some ⟨0#w, lastOf 0#w xs, h⟩ := (hls ▸ hr).link_of_append
    rw [hls, lastOf_concat, ← hls] at hheader
    refine ⟨_, llistAppend_concat hheader hfirst hpne hpq hlink hp,
      hs.update ⟨?_, ?_, ?_⟩ ?_ ?_ ?_⟩
    · have hlength : (lists h ++ [q]).length = (lists h).length + 1 := List.length_append
      have hfirst' : firstOf (lists h ++ [q]) 0#w = firstOf (lists h) 0#w := by
        rw [hls]
        cases xs <;> rfl
      simp only [Function.update_self, lastOf_concat, hlength, ofNat_succ, hfirst']
    · have hlinks := hr.links
      have hnodup := hr.nodup
      rw [hls] at hlinks hnodup ⊢
      obtain ⟨hfront, -⟩ := Segment.append_iff.mp hlinks
      rw [List.append_assoc, Segment.append_iff]
      refine ⟨hfront.mono fun r hr' n o hnode => ?_, ?_, ?_, trivial⟩
      · have hrp : r ≠ p := (List.nodup_append.mp hnodup).2.2 r hr' p List.mem_cons_self
        have hrq := hother h r (hls ▸ List.mem_append_left _ hr')
        simpa [IsLink, hrp, hrq] using hnode
      · simp [IsLink]
      · simp [IsLink, hpq.symm]
    · exact List.nodup_append.mpr ⟨hr.nodup, List.nodup_singleton q, fun r hr' o ho =>
        List.mem_singleton.mp ho ▸ hother h r hr'⟩
    · simp [hpne.symm, hnull.symm, hs.null]
    · intro h' hne
      simp [hne]
    · intro h' r hne hr'
      simp [hother h' r hr', hs.apart hmem hne hr']

/-- A link is taken out: the links beside it are joined, nothing else changes. -/
structure Unlinked (m m' : LlistMemory w) (h : BitVec w) (xs : List (BitVec w)) (p : BitVec w)
    (ys : List (BitVec w)) : Prop where
  header : m'.hd = Function.update m.hd h
    (some ⟨firstOf (xs ++ ys) 0#w, lastOf 0#w (xs ++ ys), BitVec.ofNat w (xs ++ ys).length⟩)
  front : ∀ xs' a, xs = xs' ++ [a] → m'.link a = some ⟨firstOf ys 0#w, lastOf 0#w xs', h⟩
  back : ∀ b ys', ys = b :: ys' → m'.link b = some ⟨firstOf ys' 0#w, lastOf 0#w xs, h⟩
  others : ∀ q, q ≠ p → (∀ xs' a, xs = xs' ++ [a] → q ≠ a) → (∀ b ys', ys = b :: ys' → q ≠ b) →
    m'.link q = m.link q

/-- **A link is taken out** of the list. -/
theorem Sound.unlink (hs : m.Sound lists) (hls : lists h = xs ++ p :: ys)
    (hu : Unlinked m m' h xs p ys) : m'.Sound (Function.update lists h (xs ++ ys)) := by
  have hmem : ∀ {q}, q ∈ xs ++ p :: ys → q ∈ lists h := fun hq => hls ▸ hq
  have hr := hs.represents_of_mem (hmem (List.mem_append_right _ List.mem_cons_self))
  rw [hls] at hr
  have hnodup := hr.nodup
  -- what is not in the list is untouched
  have houtside : ∀ q, q ∉ lists h → m'.link q = m.link q := by
    intro q hq
    refine hu.others q ?_ ?_ ?_
    · rintro rfl
      exact hq (hmem (List.mem_append_right _ List.mem_cons_self))
    · rintro xs' a rfl rfl
      exact hq (hmem (List.mem_append_left _ (List.mem_append_right _ List.mem_cons_self)))
    · rintro b ys' rfl rfl
      exact hq (hmem (List.mem_append_right _ (List.mem_cons_of_mem _ List.mem_cons_self)))
  obtain ⟨hfront, hback⟩ := Segment.append_iff.mp hr.links
  have hdisjoint : ∀ {l r : List (BitVec w)} {q o : BitVec w}, l ++ r = xs ++ p :: ys → q ∈ l →
      o ∈ r → q ≠ o := fun heq hq ho =>
    (List.nodup_append.mp (heq ▸ hnodup)).2.2 _ hq _ ho
  refine hs.update ⟨?_, Segment.append_iff.mpr ⟨?_, ?_⟩, ?_⟩ ?_ ?_ ?_
  · rw [hu.header, Function.update_self]
  · rcases List.eq_nil_or_concat' xs with rfl | ⟨xs', a, rfl⟩
    · trivial
    · rw [Segment.append_iff] at hfront ⊢
      refine ⟨hfront.1.mono fun q hq n r hnode => (hu.others q ?_ ?_ ?_).trans hnode,
        hu.front xs' a rfl, trivial⟩
      · exact hdisjoint rfl (List.mem_append_left _ hq) List.mem_cons_self
      · intro xs'' a' heq
        obtain ⟨-, rfl⟩ := List.append_singleton_inj.mp heq
        exact hdisjoint (List.append_assoc _ _ _).symm hq List.mem_cons_self
      · rintro b ys' rfl
        exact hdisjoint rfl (List.mem_append_left _ hq) (List.mem_cons_of_mem _ List.mem_cons_self)
  · cases ys with
    | nil => trivial
    | cons b ys' =>
      refine ⟨hu.back b ys' rfl, hback.2.2.mono fun q hq n r hnode =>
        (hu.others q ?_ ?_ ?_).trans hnode⟩
      · exact (hdisjoint (List.append_cons xs p (b :: ys')).symm
          (List.mem_append_right _ List.mem_cons_self) (List.mem_cons_of_mem _ hq)).symm
      · rintro xs' a rfl
        exact (hdisjoint rfl (List.mem_append_right _ List.mem_cons_self)
          (List.mem_cons_of_mem _ (List.mem_cons_of_mem _ hq))).symm
      · intro b' ys'' heq
        obtain ⟨rfl, -⟩ := List.cons.inj heq
        have hsplit : (xs ++ [p, b]) ++ ys' = xs ++ p :: b :: ys' := by simp
        exact (hdisjoint hsplit (List.mem_append_right _ (by simp)) hq).symm
  · exact hnodup.sublist ((List.sublist_cons_self p ys).append_left xs)
  · rw [houtside, hs.null]
    exact fun hzero => hr.ne_zero hs.null (hls ▸ hzero) rfl
  · intro h' hne
    rw [hu.header, Function.update_of_ne hne]
  · intro h' q hne hq
    exact houtside q fun hq' => hne (hs.unique hq hq')

/-- The first link is taken out. -/
theorem Sound.rmfirst (hs : m.Sound lists) (hls : lists h = p :: ys) :
    ∃ m', m.llistRmfirst h = some m' ∧ Unlinked m m' h [] p ys := by
  have hr := hls ▸ hs.represents_of_mem (hls ▸ List.mem_cons_self)
  have hp : p ≠ 0#w := hr.ne_zero hs.null List.mem_cons_self
  have hlink : m.link p = some ⟨firstOf ys 0#w, 0#w, h⟩ := hr.links.1
  have hheader := hr.header
  cases ys with
  | nil =>
    refine ⟨_, llistRmfirst_only hheader hp hlink, ⟨?_, ?_, ?_, ?_⟩⟩
    · simp
    · simp
    · simp
    · intro q hq _ _
      simp [hq]
  | cons b ys =>
    have hb : m.link b = some ⟨firstOf ys 0#w, p, h⟩ := hr.links.2.1
    have hbzero : b ≠ 0#w := hr.ne_zero hs.null (List.mem_cons_of_mem _ List.mem_cons_self)
    have hnodup := hr.nodup
    have hpb : p ≠ b := fun heq => (List.nodup_cons.mp hnodup).1 (heq ▸ List.mem_cons_self)
    have hlast : lastOf 0#w (p :: b :: ys) ≠ p := by
      rw [lastOf_cons]
      exact fun heq => (List.nodup_cons.mp hnodup).1 (heq ▸ lastOf_mem (List.cons_ne_nil b ys))
    have hlast' : lastOf 0#w (p :: b :: ys) = lastOf 0#w (b :: ys) := by simp only [lastOf_cons]
    have hcount : BitVec.ofNat w (p :: b :: ys).length - 1#w = BitVec.ofNat w (b :: ys).length :=
      ofNat_succ_sub w _
    refine ⟨_, llistRmfirst_cons hheader hp hlast hlink hbzero hpb hb, ⟨?_, ?_, ?_, ?_⟩⟩
    · simp only [hlast', hcount, List.nil_append]
    · simp
    · rintro b' ys' heq
      obtain ⟨rfl, rfl⟩ := List.cons.inj heq
      simp [hpb.symm]
    · intro q hq _ hqb
      simp [hq, hqb b ys rfl]

/-- The last link is taken out. -/
theorem Sound.rmlast (hs : m.Sound lists) (hls : lists h = xs ++ [p]) :
    ∃ m', m.llistRmlast h = some m' ∧ Unlinked m m' h xs p [] := by
  have hr := hls ▸ hs.represents_of_mem (hls ▸ List.mem_append_right _ List.mem_cons_self)
  have hp : p ≠ 0#w := hr.ne_zero hs.null (List.mem_append_right _ List.mem_cons_self)
  have hlink : m.link p = some ⟨0#w, lastOf 0#w xs, h⟩ := hr.link_of_append
  have hheader := hr.header
  have hnodup := hr.nodup
  rw [lastOf_concat] at hheader
  rcases List.eq_nil_or_concat' xs with rfl | ⟨xs, a, rfl⟩
  · refine ⟨_, llistRmlast_only hheader hp hlink, ⟨?_, ?_, ?_, ?_⟩⟩
    · simp
    · simp
    · simp
    · intro q hq _ _
      simp [hq]
  · have hsplit : xs ++ [a] ++ [p] = xs ++ a :: [p] := List.append_assoc _ _ _
    have ha : m.link a = some ⟨p, lastOf 0#w xs, h⟩ := (hsplit ▸ hr).link_of_append
    have hfront := List.nodup_append.mp hnodup
    have hpa : p ≠ a := (hfront.2.2 a (List.mem_append_right _ List.mem_cons_self) p
      List.mem_cons_self).symm
    have hazero : a ≠ 0#w := hr.ne_zero hs.null
      (List.mem_append_left _ (List.mem_append_right _ List.mem_cons_self))
    have hfirst : firstOf (xs ++ [a] ++ [p]) 0#w = firstOf (xs ++ [a]) 0#w := by
      cases xs <;> rfl
    have hne : firstOf (xs ++ [a] ++ [p]) 0#w ≠ p := by
      rw [hfirst]
      exact hfront.2.2 _ (firstOf_mem (List.append_ne_nil_of_right_ne_nil _ (List.cons_ne_nil _ _)))
        p List.mem_cons_self
    rw [lastOf_concat] at hlink
    have hcount := ofNat_succ_sub w (xs ++ [a]).length
    refine ⟨_, llistRmlast_concat hheader hp hne hlink hazero hpa ha, ⟨?_, ?_, ?_, ?_⟩⟩
    · have hlength : (xs ++ [a] ++ [p]).length = (xs ++ [a]).length + 1 := List.length_append
      simp only [hfirst, hlength, hcount, List.append_nil, lastOf_concat]
    · intro xs' a' heq
      obtain ⟨rfl, hlast⟩ := List.append_singleton_inj.mp heq
      cases hlast
      simp [hpa.symm]
    · simp
    · intro q hq hqa _
      simp [hq, hqa xs a rfl]

/-- The link behind another one is taken out. -/
theorem Sound.rmafter (hs : m.Sound lists) (hls : lists h = xs ++ a :: p :: ys) :
    ∃ m', m.llistRmafter a = some m' ∧ Unlinked m m' h (xs ++ [a]) p ys := by
  have hr := hls ▸ hs.represents_of_mem (hls ▸ List.mem_append_right _ List.mem_cons_self)
  have ha : m.link a = some ⟨p, lastOf 0#w xs, h⟩ := hr.link_of_append
  have hsplit : xs ++ a :: p :: ys = xs ++ [a] ++ p :: ys := List.append_cons _ _ _
  have hr' := hsplit ▸ hr
  have hlink := hr'.link_of_append
  have hheader := hr.header
  have hp : p ≠ 0#w := hr.ne_zero hs.null
    (List.mem_append_right _ (List.mem_cons_of_mem _ List.mem_cons_self))
  cases ys with
  | nil =>
    rw [hsplit, lastOf_concat] at hheader
    rw [llistRmafter_tail ha hp hheader]
    exact hs.rmlast (hls.trans hsplit)
  | cons b ys =>
    have hsplit' : xs ++ [a] ++ p :: b :: ys = xs ++ [a] ++ [p] ++ b :: ys := List.append_cons _ _ _
    have hb : m.link b = some ⟨firstOf ys 0#w, p, h⟩ := by
      have hnext := (hsplit' ▸ hr').link_of_append
      rwa [lastOf_concat] at hnext
    rw [lastOf_concat] at hlink
    have hnodup := hr.nodup
    obtain ⟨-, hback, -⟩ := List.nodup_append.mp hnodup
    obtain ⟨hab, hback'⟩ := List.nodup_cons.mp hback
    obtain ⟨hpb, -⟩ := List.nodup_cons.mp hback'
    have hap : a ≠ p := fun heq => hab (heq ▸ List.mem_cons_self)
    have hab : a ≠ b := fun heq => hab (heq ▸ List.mem_cons_of_mem _ List.mem_cons_self)
    have hlast : lastOf 0#w (xs ++ a :: p :: b :: ys) = lastOf 0#w (b :: ys) := by
      rw [lastOf_append_cons, lastOf_cons, lastOf_cons, lastOf_cons]
    have hpt : p ≠ lastOf 0#w (xs ++ a :: p :: b :: ys) := by
      rw [hlast]
      exact fun heq => hpb (heq ▸ lastOf_mem (List.cons_ne_nil b ys))
    have hpb : p ≠ b := fun heq => hpb (heq ▸ List.mem_cons_self)
    refine ⟨_, llistRmafter_middle ha hp hheader hpt hlink hb hab hpb hap.symm, ⟨?_, ?_, ?_, ?_⟩⟩
    · have hfirst : firstOf (xs ++ [a] ++ b :: ys) 0#w = firstOf (xs ++ a :: p :: b :: ys) 0#w := by
        cases xs <;> rfl
      have hlast' : lastOf 0#w (xs ++ [a] ++ b :: ys) = lastOf 0#w (b :: ys) := by
        rw [lastOf_append_cons, lastOf_cons]
      have hlength : (xs ++ a :: p :: b :: ys).length = (xs ++ [a] ++ b :: ys).length + 1 := by
        simp only [List.length_append, List.length_cons, List.length_nil]
        omega
      simp only [hfirst, hlast, hlast', hlength, ofNat_succ_sub]
    · intro xs' a' heq
      obtain ⟨rfl, hlast'⟩ := List.append_singleton_inj.mp heq
      cases hlast'
      simp [hap]
    · rintro b' ys' heq
      obtain ⟨rfl, rfl⟩ := List.cons.inj heq
      simp [hpb.symm, hab.symm]
    · intro q hq hqa hqb
      simp [hq, hqa xs a rfl, hqb b ys rfl]

/-- A link is taken out. -/
theorem Sound.rmlink (hs : m.Sound lists) (hls : lists h = xs ++ p :: ys) :
    ∃ m', m.llistRmlink p = some m' ∧ Unlinked m m' h xs p ys := by
  have hr := hls ▸ hs.represents_of_mem (hls ▸ List.mem_append_right _ List.mem_cons_self)
  have hlink : m.link p = some ⟨firstOf ys 0#w, lastOf 0#w xs, h⟩ := hr.link_of_append
  have hheader := hr.header
  rcases List.eq_nil_or_concat' xs with rfl | ⟨xs, a, rfl⟩
  · rw [llistRmlink_first hlink hheader]
    exact hs.rmfirst hls
  · have hne : p ≠ firstOf (xs ++ [a] ++ p :: ys) 0#w := by
      have hfirst : firstOf (xs ++ [a] ++ p :: ys) 0#w = firstOf (xs ++ [a]) 0#w := by
        cases xs <;> rfl
      rw [hfirst]
      exact ((List.nodup_append.mp hr.nodup).2.2 _
        (firstOf_mem (List.append_ne_nil_of_right_ne_nil _ (List.cons_ne_nil _ _))) p
        List.mem_cons_self).symm
    rw [lastOf_concat] at hlink
    rw [llistRmlink_other hlink hheader hne]
    exact hs.rmafter (hls.trans (List.append_assoc _ _ _))

/-! ## Runs -/

/-- The memory, with the lists that the calls should have made. -/
def step (s : LlistMemory w × Lists w) (c : LlistCall w) : Option (LlistMemory w × Lists w) :=
  (s.1.call c).map fun m => (m, s.2.call c)

theorem eraseAfter_of_not_mem (hp : p ∉ ls) : eraseAfter p ls = ls := by
  induction ls with
  | nil => rfl
  | cons q ls ih =>
    obtain ⟨hpq, hls⟩ := not_or.mp (mt List.mem_cons.mpr hp)
    rw [eraseAfter, if_neg (Ne.symm hpq), ih hls]

theorem eraseAfter_append (hp : p ∉ xs) : eraseAfter p (xs ++ p :: ys) = xs ++ p :: ys.tail := by
  induction xs with
  | nil => exact if_pos rfl
  | cons q xs ih =>
    obtain ⟨hpq, hxs⟩ := not_or.mp (mt List.mem_cons.mpr hp)
    rw [List.cons_append, eraseAfter, if_neg (Ne.symm hpq), ih hxs, List.cons_append]

/-- Only the list with the link changes. -/
theorem Sound.update_eq {f : List (BitVec w) → List (BitVec w)} (hs : m.Sound lists)
    (hp : p ∈ lists h) (hf : ∀ ls, p ∉ ls → f ls = ls) :
    Function.update lists h (f (lists h)) = fun h => f (lists h) := by
  funext h'
  by_cases heq : h' = h
  · rw [heq, Function.update_self]
  · rw [Function.update_of_ne heq, hf _ fun hp' => heq (hs.unique hp' hp)]

/-- **Each call keeps the lists.** -/
theorem Sound.call (hs : m.Sound lists) {c : LlistCall w} (hc : m.Fits lists c) :
    ∃ m', m.call c = some m' ∧ m'.Sound (lists.call c) := by
  cases c with
  | append h q =>
    obtain ⟨hh, hq, hfree⟩ := hc
    exact hs.append hh hq hfree
  | rmfirst h =>
    have hr := hs.represents hc
    rw [Lists.call]
    cases hls : lists h with
    | nil =>
      have hheader := hr.header
      rw [hls] at hheader
      refine ⟨m, llistRmfirst_nil hheader, ?_⟩
      rwa [List.tail_nil, ← hls, Function.update_eq_self]
    | cons p ys =>
      obtain ⟨m', hm', hu⟩ := hs.rmfirst hls
      have hfront : lists h = [] ++ p :: ys := hls
      exact ⟨m', hm', hs.unlink hfront hu⟩
  | rmlast h =>
    have hr := hs.represents hc
    rw [Lists.call]
    rcases List.eq_nil_or_concat' (lists h) with hls | ⟨xs, p, hls⟩
    · have hheader := hr.header
      rw [hls] at hheader
      refine ⟨m, llistRmlast_nil hheader, ?_⟩
      rwa [hls, List.dropLast_nil, ← hls, Function.update_eq_self]
    · obtain ⟨m', hm', hu⟩ := hs.rmlast hls
      refine ⟨m', hm', ?_⟩
      rw [hls, List.dropLast_concat, ← List.append_nil xs]
      exact hs.unlink hls hu
  | rmlink p =>
    obtain ⟨h, hp⟩ := hc
    obtain ⟨xs, ys, hls⟩ := List.append_of_mem hp
    have hxs : p ∉ xs := fun hmem =>
      (List.nodup_append.mp (hls ▸ (hs.represents_of_mem hp).nodup)).2.2 p hmem p
        List.mem_cons_self rfl
    obtain ⟨m', hm', hu⟩ := hs.rmlink hls
    refine ⟨m', hm', ?_⟩
    rw [Lists.call, ← hs.update_eq (f := fun ls => ls.erase p) hp fun ls => List.erase_of_not_mem,
      hls, List.erase_append_right _ hxs, List.erase_cons_head]
    exact hs.unlink hls hu
  | rmafter p =>
    obtain ⟨h, hp⟩ := hc
    obtain ⟨xs, ys, hls⟩ := List.append_of_mem hp
    have hr := hs.represents_of_mem hp
    have hxs : p ∉ xs := fun hmem =>
      (List.nodup_append.mp (hls ▸ hr.nodup)).2.2 p hmem p List.mem_cons_self rfl
    rw [Lists.call, ← hs.update_eq hp fun ls => eraseAfter_of_not_mem, hls, eraseAfter_append hxs]
    cases ys with
    | nil =>
      refine ⟨m, llistRmafter_last (hls ▸ hr).link_of_append, ?_⟩
      rwa [List.tail_nil, ← hls, Function.update_eq_self]
    | cons q ys =>
      obtain ⟨m', hm', hu⟩ := hs.rmafter hls
      refine ⟨m', hm', ?_⟩
      rw [List.tail_cons, List.append_cons]
      exact hs.unlink (hls.trans (List.append_cons _ _ _)) hu

/-- There are fewer links than addresses. -/
theorem Sound.length_lt (hs : m.Sound lists) (hr : m.Represents h ls) : ls.length < 2 ^ w := by
  have hzero : 0#w ∉ ls := fun hmem => hr.ne_zero hs.null hmem rfl
  have hnodup : ((0#w :: ls).map BitVec.toNat).Nodup :=
    (List.nodup_cons.mpr ⟨hzero, hr.nodup⟩).map_on fun _ _ _ _ => BitVec.eq_of_toNat_eq
  have hsub : (0#w :: ls).map BitVec.toNat ⊆ List.range (2 ^ w) := fun n hn => by
    obtain ⟨p, -, rfl⟩ := List.mem_map.mp hn
    exact List.mem_range.mpr p.isLt
  have hle := (List.subperm_of_subset hnodup hsub).length_le
  rw [List.length_map, List.length_range, List.length_cons] at hle
  exact hle

theorem Sound.wellFormed (hs : m.Sound lists) (hh : (m.hd h).isSome) :
    m.WellFormed h (lists h) := by
  have hr := hs.represents hh
  refine ⟨⟨_, hr.header, rfl, rfl, ?_, ?_, ?_⟩, ?_, hr.nodup⟩
  · rw [BitVec.toNat_ofNat, Nat.mod_eq_of_lt (hs.length_lt hr)]
  · refine ⟨fun hnil => by rw [hnil]; rfl, fun hzero => ?_⟩
    by_contra hne
    exact hr.ne_zero hs.null (firstOf_mem hne) hzero
  · refine ⟨fun hnil => by rw [hnil]; rfl, fun hzero => ?_⟩
    by_contra hne
    exact hr.ne_zero hs.null (lastOf_mem hne) hzero
  · intro front p back hls
    exact (hls ▸ hr).link_of_append

/-- **The lists are what the calls make of them**, from headers as `llist_create` leaves them, and
every one of them is well-formed. -/
theorem lists_kept (hnull : m.link 0#w = none)
    (hcreated : ∀ h hd, m.hd h = some hd → hd = ⟨0#w, 0#w, 0#w⟩) {calls : List (LlistCall w)}
    (hcalls : EachStep step (fun s c => s.1.Fits s.2 c) (m, fun _ => []) calls) :
    ∃ m', runFrom step (m, fun _ => []) calls = some (m', calls.foldl Lists.call fun _ => []) ∧
      ∀ h, (m'.hd h).isSome → m'.WellFormed h (calls.foldl Lists.call (fun _ => []) h) := by
  have hstart : m.Sound fun _ => [] := by
    refine ⟨hnull, fun h => ?_⟩
    cases hh : m.hd h with
    | none => exact .inr ⟨rfl, rfl⟩
    | some hd => exact .inl ⟨by rw [hh, hcreated h hd hh]; rfl, trivial, List.nodup_nil⟩
  have hstep : ∀ (s : LlistMemory w × Lists w) c, s.1.Sound s.2 → s.1.Fits s.2 c →
      ∃ s', step s c = some s' ∧ s'.1.Sound s'.2 := by
    intro s c hs hc
    obtain ⟨m', hm', hs'⟩ := hs.call hc
    exact ⟨(m', s.2.call c), by rw [step, hm']; rfl, hs'⟩
  obtain ⟨⟨m', lists⟩, hrun, hs⟩ := EachStep.total hstep hcalls hstart
  have hlists : lists = calls.foldl Lists.call fun _ => [] :=
    EachStep.simulates (R := fun s lists => s.2 = lists)
      (fun s lists c s' heq _ hs' => by
        obtain ⟨_, -, rfl⟩ := Option.map_eq_some_iff.mp hs'
        rw [← heq]) hcalls rfl hrun
  subst hlists
  exact ⟨m', hrun, fun h hh => hs.wellFormed hh⟩

/-- Two links and a header. -/
def twoLinks : LlistMemory 8 where
  link p := if p = 2 ∨ p = 3 then some ⟨9, 9, 9⟩ else none
  hd h := if h = 1 then some ⟨0, 0, 0⟩ else none

theorem lists_kept_twoLinks : ∃ m',
    runFrom step (twoLinks, fun _ => []) [.append 1 2, .append 1 3, .rmlink 2] =
      some (m', [LlistCall.append 1 2, .append 1 3, .rmlink 2].foldl Lists.call fun _ => []) ∧
    ∀ h, (m'.hd h).isSome → m'.WellFormed h
      ([LlistCall.append 1 2, .append 1 3, .rmlink 2].foldl Lists.call (fun _ => []) h) := by
  refine lists_kept rfl (fun h hd hh => ?_) ⟨⟨rfl, rfl, fun h hmem => by cases hmem⟩, ?_⟩
  · rw [twoLinks] at hh
    dsimp only at hh
    split_ifs at hh
    exact (Option.some.inj hh).symm
  · rintro s' hs'
    obtain rfl := Option.some.inj hs'
    refine ⟨⟨rfl, rfl, fun h => ?_⟩, ?_⟩
    · change 3#8 ∉ Function.update (fun _ => []) 1#8 [2#8] h
      by_cases hone : h = 1#8
      · rw [hone, Function.update_self]
        decide
      · rw [Function.update_of_ne hone]
        exact List.not_mem_nil
    · rintro s' hs'
      obtain rfl := Option.some.inj hs'
      exact ⟨⟨1, by decide⟩, fun _ _ => trivial⟩

end LlistMemory

end MediaFramework
