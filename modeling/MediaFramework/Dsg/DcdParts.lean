import MediaFramework.Dsg.Parser
import MediaFramework.Pod.LengthField

/-!
# What a loop over TLVs meets

A part is what a round of a loop should take: its bytes, what they give, and the spans of what is
nested in it. A good part is taken just so. A part that is not good may be undefined; but if its round
comes to an end, the spans have gone astray by then, and nothing that follows takes that back.

So a loop over good parts has met each of them at its own place (`dsgLoop_of_good`), and a loop with
a part that is not good has not, whatever it leaves with (`diverge_of_dsgLoop`).
-/

namespace MediaFramework

open BufStream

/-- Two lists differ at a place that both have. -/
def Diverge {α : Type} (xs ys : List α) : Prop :=
  ∃ front a b, a ≠ b ∧ front ++ [a] <+: xs ∧ front ++ [b] <+: ys

namespace Diverge

variable {α : Type} {xs ys : List α}

theorem ne (h : Diverge xs ys) : xs ≠ ys := by
  rintro rfl
  obtain ⟨front, a, b, hne, ha, hb⟩ := h
  have hpre := List.prefix_of_prefix_length_le ha hb (by simp)
  have heq := List.append_cancel_left (hpre.eq_of_length (by simp))
  exact hne (List.singleton_inj.mp heq)

theorem append_left (zs : List α) (h : Diverge xs ys) : Diverge (zs ++ xs) (zs ++ ys) := by
  obtain ⟨front, a, b, hne, ha, hb⟩ := h
  refine ⟨zs ++ front, a, b, hne, ?_, ?_⟩
  · rw [List.append_assoc]
    exact (List.prefix_append_right_inj zs).mpr ha
  · rw [List.append_assoc]
    exact (List.prefix_append_right_inj zs).mpr hb

theorem append (us vs : List α) (h : Diverge xs ys) : Diverge (xs ++ us) (ys ++ vs) := by
  obtain ⟨front, a, b, hne, ha, hb⟩ := h
  exact ⟨front, a, b, hne, ha.trans (List.prefix_append _ _), hb.trans (List.prefix_append _ _)⟩

theorem of_ne {a b : α} (h : a ≠ b) : Diverge [a] [b] :=
  ⟨[], a, b, h, List.prefix_refl _, List.prefix_refl _⟩

end Diverge

/-! ## Parts -/

/-- What one round of a loop should take. -/
structure DcdPart (β : Type) where
  bytes : List UInt8
  /-- what it gives -/
  given : β → β
  /-- the spans within it, by where it begins -/
  inner : ℤ → DsgSpans
  good : Prop

namespace DcdPart

variable {β : Type}

/-- The spans of a part and of what is in it. -/
def spans (p : DcdPart β) (place : ℤ) : DsgSpans :=
  p.inner place ++ [(place, place + p.bytes.length)]

def bytesAll (ps : List (DcdPart β)) : List UInt8 := ps.flatMap bytes

def givenAll (ps : List (DcdPart β)) (x : β) : β := ps.foldl (fun x p => p.given x) x

/-- The spans of parts one behind another. -/
def spansAll : List (DcdPart β) → ℤ → DsgSpans
  | [], _ => []
  | p :: ps, place => p.spans place ++ spansAll ps (place + p.bytes.length)

/-- **What a round makes of a part.** -/
structure MetBy (mem : List UInt8) (round : DsgRound β) (p : DcdPart β) : Prop where
  bytes_ne : p.bytes ≠ []
  reads : p.good → ∀ x s, s.Ahead mem p.bytes →
    round x s = some (p.given x, s.advanceBuf p.bytes.length, p.inner s.currentBuf)
  strays : ¬ p.good → ∀ x s y, s.Ahead mem p.bytes → round x s = some y →
    Diverge (p.spans s.currentBuf) (y.2.2 ++ [(s.currentBuf, y.2.1.currentBuf)])

end DcdPart

section Loop

open DcdPart

variable {β : Type} {mem : List UInt8} {round : DsgRound β} {ps : List (DcdPart β)} {x : β}
variable {s : BufStream} {nOrgLength pOrgBuf : ℤ} {fuel : ℕ}

theorem bytesAll_cons (p : DcdPart β) (ps : List (DcdPart β)) :
    bytesAll (p :: ps) = p.bytes ++ bytesAll ps := List.flatMap_cons

theorem length_le_bytesAll (hps : ∀ p ∈ ps, p.bytes ≠ []) : ps.length ≤ (bytesAll ps).length := by
  induction ps with
  | nil => exact Nat.le_refl 0
  | cons p ps ih =>
    have hp := List.length_pos_iff.mpr (hps p (List.mem_cons_self ..))
    have hrest := ih fun q hq => hps q (List.mem_cons_of_mem _ hq)
    rw [bytesAll_cons, List.length_append, List.length_cons]
    omega

/-- The loop goes on while there is a part. -/
theorem sub_lt_of_cons {p : DcdPart β} (hne : p.bytes ≠ [])
    (hend : s.currentBuf + (bytesAll (p :: ps)).length = pOrgBuf + nOrgLength) :
    s.currentBuf - pOrgBuf < nOrgLength := by
  have hpos := List.length_pos_iff.mpr hne
  rw [bytesAll_cons, List.length_append] at hend
  omega

/-- **A loop over good parts** takes each of them at its own place. -/
theorem dsgLoop_of_good (hps : ∀ p ∈ ps, p.MetBy mem round) (hgood : ∀ p ∈ ps, p.good)
    (hfuel : ps.length < fuel) (h : s.Ahead mem (bytesAll ps))
    (hend : s.currentBuf + (bytesAll ps).length = pOrgBuf + nOrgLength) :
    dsgLoop round nOrgLength pOrgBuf fuel x s =
      some (givenAll ps x, s.advanceBuf (bytesAll ps).length, spansAll ps s.currentBuf) := by
  induction ps generalizing x s fuel with
  | nil =>
    obtain ⟨fuel, rfl⟩ := Nat.exists_eq_add_of_lt hfuel
    have hzero : s.advanceBuf ((bytesAll ([] : List (DcdPart β))).length) = s := h.advanceBuf_zero
    have hstop : ¬ s.currentBuf - pOrgBuf < nOrgLength := by
      have : s.currentBuf + 0 = pOrgBuf + nOrgLength := hend
      omega
    rw [dsgLoop, if_neg hstop, hzero]
    rfl
  | cons p ps ih =>
    obtain ⟨fuel, rfl⟩ : ∃ k, fuel = k + 1 := ⟨fuel - 1, by omega⟩
    have hp := hps p (List.mem_cons_self ..)
    have hgo := sub_lt_of_cons hp.bytes_ne hend
    rw [bytesAll_cons] at h hend ⊢
    obtain ⟨hhead, htail⟩ := h.append p.bytes
    have hplace := h.currentBuf_advanceBuf (n := p.bytes.length)
      (by rw [List.length_append]; exact Nat.le_add_right _ _)
    have hshort : ps.length < fuel := by rw [List.length_cons] at hfuel; omega
    have hrest := ih (x := p.given x) (fun q hq => hps q (List.mem_cons_of_mem _ hq))
      (fun q hq => hgood q (List.mem_cons_of_mem _ hq)) hshort htail
      (by rw [hplace]; rw [List.length_append] at hend; omega)
    rw [hplace, advanceBuf_advanceBuf] at hrest
    rw [dsgLoop, if_pos hgo, hp.reads (hgood p (List.mem_cons_self ..)) x s hhead]
    dsimp only [Option.bind_eq_bind, Option.bind_some]
    rw [hrest, hplace, List.length_append, Int.natCast_add, spansAll, spans, List.append_assoc]
    rfl

/-- **A loop with a part that is not good** goes astray there, if not before. -/
theorem diverge_of_dsgLoop (hps : ∀ p ∈ ps, p.MetBy mem round) (hbad : ¬ ∀ p ∈ ps, p.good)
    (h : s.Ahead mem (bytesAll ps))
    (hend : s.currentBuf + (bytesAll ps).length = pOrgBuf + nOrgLength) {y}
    (hloop : dsgLoop round nOrgLength pOrgBuf fuel x s = some y) :
    Diverge (spansAll ps s.currentBuf) y.2.2 := by
  induction ps generalizing x s fuel y with
  | nil => exact absurd (fun p hp => absurd hp List.not_mem_nil) hbad
  | cons p ps ih =>
    have hp := hps p (List.mem_cons_self ..)
    have hgo := sub_lt_of_cons hp.bytes_ne hend
    rw [bytesAll_cons] at h hend
    obtain ⟨hhead, htail⟩ := h.append p.bytes
    rcases fuel with _ | fuel
    · cases hloop
    rw [dsgLoop, if_pos hgo] at hloop
    obtain ⟨⟨x', s', inner⟩, hround, hloop⟩ := Option.bind_eq_some_iff.mp hloop
    obtain ⟨⟨x'', s'', rest⟩, hrest, hy⟩ := Option.bind_eq_some_iff.mp hloop
    cases hy
    rw [spansAll]
    by_cases hgood : p.good
    · -- the first part is taken, the one that is not good is behind it
      rw [hp.reads hgood x s hhead, Option.some_inj, Prod.mk.injEq, Prod.mk.injEq] at hround
      obtain ⟨rfl, rfl, rfl⟩ := hround
      have hplace := h.currentBuf_advanceBuf (n := p.bytes.length)
        (by rw [List.length_append]; exact Nat.le_add_right _ _)
      have hlater := ih (fun q hq => hps q (List.mem_cons_of_mem _ hq))
        (fun hall => hbad (List.forall_mem_cons.mpr ⟨hgood, hall⟩)) htail
        (by rw [hplace]; rw [List.length_append] at hend; omega) hrest
      rw [hplace] at hlater ⊢
      rw [spans, List.append_assoc]
      exact (hlater.append_left [_]).append_left _
    · have hstray := hp.strays hgood x s _ hhead hround
      rw [← List.singleton_append, ← List.append_assoc]
      exact hstray.append _ _

end Loop

/-! ## TLVs as parts -/

/-- What a length field can hold. It is one byte, or one that says how many follow. -/
def LengthFits (size : Option ℕ) (n : ℕ) : Prop :=
  match size with
  | none => n < 128
  | some k => k < 128 ∧ n < 256 ^ k

instance : ∀ size n, Decidable (LengthFits size n)
  | none, n => inferInstanceAs (Decidable (n < 128))
  | some k, n => inferInstanceAs (Decidable (k < 128 ∧ n < 256 ^ k))

/-- The length field. -/
def tlvLength (size : Option ℕ) (n : ℕ) : List UInt8 :=
  match size with
  | none => [UInt8.ofNat n]
  | some k => UInt8.ofNat (0x80 ||| k) :: toOctets k n

def tlvHeader (tag : UInt8) (size : Option ℕ) (n : ℕ) : List UInt8 := tag :: tlvLength size n

def tlvBytes (tag : UInt8) (size : Option ℕ) (value : List UInt8) : List UInt8 :=
  tlvHeader tag size value.length ++ value

section Tlvs

variable {β : Type} {mem xs value : List UInt8} {s : BufStream} {size : Option ℕ} {n : ℕ}
variable {tag : UInt8}

theorem vlParseCcApduLengthField_tlvLength (hfits : LengthFits size n) (hn : n < 2 ^ 31)
    (h : s.Ahead mem (tlvLength size n ++ xs)) :
    s.vlParseCcApduLengthField mem = some (n, s.advanceBuf (tlvLength size n).length) := by
  cases size with
  | none => exact vlParseCcApduLengthField_short hfits h
  | some k =>
    obtain ⟨hk, hlt⟩ := hfits
    have hvalue := ofOctets_toOctets k n hlt
    have hmark : ∀ k < 128, 0x80 ||| k < 256 := by decide
    have hb : (UInt8.ofNat (0x80 ||| k)).toNat = 0x80 ||| (toOctets k n).length := by
      rw [length_toOctets, UInt8.toNat_ofNat_of_lt' (hmark k hk)]
    have hparse := vlParseCcApduLengthField_long (toOctets k n)
      (by rw [length_toOctets]; omega) (by rw [hvalue]; omega) hb h
    rw [hparse, hvalue]
    rfl

theorem BufStream.vlParseByte_of_ahead {b : UInt8} (h : s.Ahead mem [b]) :
    s.vlParseByte mem = some (b.toNat, s.advanceBuf 1) := by
  have hread := readNByteLong_of_ahead h
  rw [ofOctets_singleton, List.length_singleton, Int.natCast_one] at hread
  exact hread

theorem length_lt_of_ahead (h : s.Ahead mem xs) : xs.length < 2 ^ 31 := by
  have := h.position
  have := h.room
  have := h.capacity
  omega

/-- The tag and the length are read, and the value is ahead. -/
theorem parseTag_of_ahead (lPrefix : ℕ) (hfits : LengthFits size value.length)
    (h : s.Ahead mem (tlvBytes tag size value)) :
    parseTag mem lPrefix s = some (lPrefix <<< 8 ||| tag.toNat, (value.length : ℤ),
      s.advanceBuf (tlvHeader tag size value.length).length) ∧
    (s.advanceBuf (tlvHeader tag size value.length).length).Ahead mem value := by
  obtain ⟨hheader, hvalue⟩ := h.append (tlvHeader tag size value.length)
  have hlt := length_lt_of_ahead hvalue
  obtain ⟨htag, hfield⟩ := h.append [tag]
  have hbyte := vlParseByte_of_ahead htag
  have hlength := vlParseCcApduLengthField_tlvLength hfits hlt hfield
  rw [List.length_singleton, Int.natCast_one] at hlength
  refine ⟨?_, hvalue⟩
  rw [parseTag, hbyte]
  dsimp only [Option.bind_eq_bind, Option.bind_some]
  rw [hlength, Option.bind_some, advanceBuf_advanceBuf, int32_of_range (by omega) (by omega),
    tlvHeader, List.length_cons, Int.natCast_add, Int.add_comm (tlvLength _ _).length]
  rfl

/-- A TLV, by what its value gives. -/
def tlvPart (tag : UInt8) (size : Option ℕ) (value : List UInt8) (given : β → β)
    (inner : ℤ → DsgSpans) (good : Prop) : DcdPart β where
  bytes := tlvBytes tag size value
  given := given
  inner place := inner (place + (tlvHeader tag size value.length).length)
  good := good

/-- **What a round makes of a TLV**, from what the switch makes of its value. -/
theorem tlvPart_metBy {lPrefix : ℕ} {onTag : ℕ → ℤ → DsgRound β} {given : β → β}
    {inner : ℤ → DsgSpans} {good : Prop} (hfits : LengthFits size value.length)
    (hreads : good → ∀ x s, s.Ahead mem value → onTag (lPrefix <<< 8 ||| tag.toNat) value.length x s =
      some (given x, s.advanceBuf value.length, inner s.currentBuf))
    (hstrays : ¬ good → ∀ x s y, s.Ahead mem value →
      onTag (lPrefix <<< 8 ||| tag.toNat) value.length x s = some y → ∀ place,
        Diverge (inner s.currentBuf ++ [(place, s.currentBuf + value.length)])
          (y.2.2 ++ [(place, y.2.1.currentBuf)])) :
    (tlvPart tag size value given inner good).MetBy mem (dsgTlvRound mem lPrefix onTag) where
  bytes_ne := List.cons_ne_nil _ _
  reads hgood x s h := by
    obtain ⟨hparse, hvalue⟩ := parseTag_of_ahead lPrefix hfits h
    have hplace := h.currentBuf_advanceBuf (n := (tlvHeader tag size value.length).length)
      (by rw [tlvPart, tlvBytes, List.length_append]; exact Nat.le_add_right _ _)
    have hbytes : (tlvBytes tag size value).length =
        (tlvHeader tag size value.length).length + value.length := List.length_append
    rw [dsgTlvRound, hparse]
    dsimp only [Option.bind_eq_bind, Option.bind_some]
    rw [hreads hgood x _ hvalue, advanceBuf_advanceBuf, hplace, tlvPart]
    rw [hbytes, Int.natCast_add]
  strays hbad x s y h hround := by
    obtain ⟨hparse, hvalue⟩ := parseTag_of_ahead lPrefix hfits h
    have hplace := h.currentBuf_advanceBuf (n := (tlvHeader tag size value.length).length)
      (by rw [tlvPart, tlvBytes, List.length_append]; exact Nat.le_add_right _ _)
    have hbytes : (tlvBytes tag size value).length =
        (tlvHeader tag size value.length).length + value.length := List.length_append
    rw [dsgTlvRound, hparse] at hround
    have hstray := hstrays hbad x _ y hvalue hround s.currentBuf
    rw [hplace] at hstray
    rw [DcdPart.spans, tlvPart]
    rwa [hbytes, Int.natCast_add, ← Int.add_assoc]

/-- A part that is always good. -/
theorem tlvPart_metBy_of_reads {lPrefix : ℕ} {onTag : ℕ → ℤ → DsgRound β} {given : β → β}
    {inner : ℤ → DsgSpans} (hfits : LengthFits size value.length)
    (hreads : ∀ x s, s.Ahead mem value → onTag (lPrefix <<< 8 ||| tag.toNat) value.length x s =
      some (given x, s.advanceBuf value.length, inner s.currentBuf)) :
    (tlvPart tag size value given inner True).MetBy mem (dsgTlvRound mem lPrefix onTag) :=
  tlvPart_metBy hfits (fun _ => hreads) fun h => absurd trivial h

end Tlvs

end MediaFramework
