import Mathlib.Data.List.Basic
import Mathlib.Data.UInt

/-!
# Emulation prevention

Bytes are escaped by a 3 in front of each that is at most 3 and comes behind two zeros, so that
what is between two start codes does not look like one. `marksFrom` is the escaped form with a mark
for the threes that have been put in.

Who takes out some threes and loses some of the bytes does not end with what was escaped, unless he
loses one byte at most: seen from the end, a three that stays is where a zero should be, and seen
from the beginning it takes only threes behind it to hide it.
-/

namespace MediaFramework

/-- The escaped form of bytes behind zeros. -/
def escapeFrom : ℕ → List UInt8 → List UInt8
  | _, [] => []
  | zeros, b :: bs =>
    if zeros = 2 ∧ b ≤ 3 then 3 :: b :: escapeFrom (if b = 0 then 1 else 0) bs
    else b :: escapeFrom (if b = 0 then zeros + 1 else 0) bs

/-- The escaped form of bytes. -/
def escape (bs : List UInt8) : List UInt8 := escapeFrom 0 bs

/-- The escaped form with the threes that are put in marked. -/
def marksFrom : ℕ → List UInt8 → List (UInt8 × Bool)
  | _, [] => []
  | zeros, b :: bs =>
    if zeros = 2 ∧ b ≤ 3 then
      (3, true) :: (b, false) :: marksFrom (if b = 0 then 1 else 0) bs
    else (b, false) :: marksFrom (if b = 0 then zeros + 1 else 0) bs

/-- The bytes that are not put in. -/
def plain (M : List (UInt8 × Bool)) : List (UInt8 × Bool) := M.filter fun m => !m.2

section Plain

variable {A B M : List (UInt8 × Bool)} {b : UInt8}

@[simp] theorem plain_nil : plain [] = [] := rfl

@[simp] theorem plain_cons_true : plain ((b, true) :: M) = plain M := rfl

@[simp] theorem plain_cons_false : plain ((b, false) :: M) = (b, false) :: plain M := rfl

@[simp] theorem plain_append : plain (A ++ B) = plain A ++ plain B := List.filter_append _ _

theorem plain_sublist (M : List (UInt8 × Bool)) : (plain M).Sublist M := List.filter_sublist

end Plain

section Marks

variable {zeros : ℕ} {b : UInt8} {bs : List UInt8} {A B M : List (UInt8 × Bool)}

attribute [local simp] marksFrom escapeFrom

theorem marksFrom_plain (h : ¬ (zeros = 2 ∧ b ≤ 3)) :
    marksFrom zeros (b :: bs) = (b, false) :: marksFrom (if b = 0 then zeros + 1 else 0) bs := by
  rw [marksFrom, if_neg h]

/-- A three is put in, and behind it no zeros are counted. -/
theorem marksFrom_escaped (hb : b ≤ 3) :
    marksFrom 2 (b :: bs) = (3, true) :: marksFrom 0 (b :: bs) := by
  rw [marksFrom, if_pos ⟨rfl, hb⟩, marksFrom_plain fun h => absurd h.1 (by decide)]

theorem map_fst_marksFrom (zeros : ℕ) (bs : List UInt8) :
    (marksFrom zeros bs).map Prod.fst = escapeFrom zeros bs := by
  induction bs generalizing zeros with
  | nil => rfl
  | cons b bs ih =>
    rw [marksFrom, escapeFrom]
    split_ifs <;> simp [ih]

/-- Without the threes that were put in it is what was escaped. -/
theorem plain_marksFrom (zeros : ℕ) (bs : List UInt8) :
    (plain (marksFrom zeros bs)).map Prod.fst = bs := by
  induction bs generalizing zeros with
  | nil => rfl
  | cons b bs ih =>
    rw [marksFrom]
    split_ifs <;> simp [ih]

/-- **Any end of an escaped form is one.** The zeros that count for it come before it. -/
theorem exists_marksFrom_of_append (hzeros : zeros ≤ 2) (h : marksFrom zeros bs = A ++ B) :
    ∃ zeros' bs', zeros' ≤ 2 ∧ B = marksFrom zeros' bs' ∧
      List.replicate zeros' (0, false) <:+ List.replicate zeros (0, false) ++ A := by
  induction A generalizing zeros bs with
  | nil => exact ⟨zeros, bs, hzeros, h.symm, by rw [List.append_nil]⟩
  | cons a A ih =>
    rcases bs with _ | ⟨b, bs⟩
    · exact absurd h (List.cons_ne_nil a (A ++ B)).symm
    by_cases hesc : zeros = 2 ∧ b ≤ 3
    · obtain ⟨rfl, hb⟩ := hesc
      rw [marksFrom_escaped hb, List.cons_append, List.cons.injEq] at h
      obtain ⟨zeros', bs', hzeros', hB, hsuffix⟩ := ih (Nat.zero_le 2) h.2
      refine ⟨zeros', bs', hzeros', hB, hsuffix.trans ?_⟩
      exact (List.suffix_cons a A).trans (List.suffix_append _ _)
    · rw [marksFrom_plain hesc, List.cons_append, List.cons.injEq] at h
      obtain ⟨rfl, h⟩ := h
      by_cases hb : b = 0
      · subst hb
        rw [if_pos rfl] at h
        have hfew : zeros ≠ 2 := fun heq => hesc ⟨heq, by decide⟩
        obtain ⟨zeros', bs', hzeros', hB, hsuffix⟩ := ih (by omega) h
        rw [List.replicate_succ', List.append_assoc] at hsuffix
        exact ⟨zeros', bs', hzeros', hB, hsuffix⟩
      · rw [if_neg hb] at h
        obtain ⟨zeros', bs', hzeros', hB, hsuffix⟩ := ih (Nat.zero_le 2) h
        refine ⟨zeros', bs', hzeros', hB, hsuffix.trans ?_⟩
        exact (List.suffix_cons _ A).trans (List.suffix_append _ _)

/-- What is put in is a three, and two zeros are before it. -/
theorem zeros_before (h : marksFrom 0 bs = A ++ (b, true) :: B) :
    b = 3 ∧ ∃ A', A = A' ++ [(0, false), (0, false)] := by
  obtain ⟨zeros', bs', -, hB, hsuffix⟩ := exists_marksFrom_of_append (Nat.zero_le 2) h
  rcases bs' with _ | ⟨c, bs'⟩
  · exact absurd hB (List.cons_ne_nil _ _)
  by_cases hesc : zeros' = 2 ∧ c ≤ 3
  · obtain ⟨rfl, hc⟩ := hesc
    rw [marksFrom_escaped hc, List.cons.injEq, Prod.mk.injEq] at hB
    obtain ⟨A', hA'⟩ := hsuffix
    exact ⟨hB.1.1, A', hA'.symm⟩
  · rw [marksFrom_plain hesc, List.cons.injEq, Prod.mk.injEq] at hB
    exact absurd hB.1.2 (by decide)

/-- A zero counts. -/
theorem marksFrom_eq_zero_cons {e : Bool} (hzeros : zeros ≤ 2) (h : marksFrom zeros bs = (0, e) :: B) :
    zeros < 2 ∧ ∃ bs', B = marksFrom (zeros + 1) bs' := by
  rcases bs with _ | ⟨c, bs⟩
  · exact absurd h (List.cons_ne_nil _ _).symm
  by_cases hesc : zeros = 2 ∧ c ≤ 3
  · obtain ⟨rfl, hc⟩ := hesc
    rw [marksFrom_escaped hc, List.cons.injEq, Prod.mk.injEq] at h
    exact absurd h.1.1 (by decide)
  · rw [marksFrom_plain hesc, List.cons.injEq, Prod.mk.injEq] at h
    obtain ⟨⟨rfl, -⟩, h⟩ := h
    have hfew : zeros ≠ 2 := fun heq => hesc ⟨heq, by decide⟩
    exact ⟨by omega, bs, h.symm⟩

/-- Behind two zeros there is a three that was put in, or a byte above 3. -/
theorem behind_zeros {e₁ e₂ e : Bool} (hzeros : zeros ≤ 2)
    (h : marksFrom zeros bs = (0, e₁) :: (0, e₂) :: (b, e) :: B) :
    (b = 3 ∧ e = true) ∨ (3 < b ∧ e = false) := by
  obtain ⟨hfew, bs₁, h₁⟩ := marksFrom_eq_zero_cons hzeros h
  obtain ⟨hfew₁, bs₂, h₂⟩ := marksFrom_eq_zero_cons (by omega) h₁.symm
  rw [show zeros + 1 + 1 = 2 by omega] at h₂
  rcases bs₂ with _ | ⟨c, bs₂⟩
  · exact absurd h₂ (List.cons_ne_nil _ _)
  by_cases hc : c ≤ 3
  · rw [marksFrom_escaped hc, List.cons.injEq, Prod.mk.injEq] at h₂
    exact .inl h₂.1
  · rw [marksFrom_plain fun hesc => hc hesc.2, List.cons.injEq, Prod.mk.injEq] at h₂
    obtain ⟨⟨rfl, he⟩, -⟩ := h₂
    exact .inr ⟨UInt8.not_le.mp hc, he⟩

/-- The two bytes before a three that was put in were there before. -/
theorem plain_before {m₁ m₂ : UInt8 × Bool} (h : marksFrom 0 bs = A ++ m₁ :: m₂ :: (b, true) :: B) :
    m₁.2 = false ∧ m₂.2 = false := by
  have h' : marksFrom 0 bs = (A ++ [m₁, m₂]) ++ (b, true) :: B := by
    rw [h, List.append_assoc]
    rfl
  obtain ⟨-, A', hA'⟩ := zeros_before h'
  have hpair := List.append_inj_right' hA' rfl
  rw [List.cons.injEq, List.cons.injEq] at hpair
  exact ⟨by rw [hpair.1], by rw [hpair.2.1]⟩

/-- Of four bytes in a row two at least were there before. -/
theorem two_le_length_plain (h : marksFrom 0 bs = A ++ M ++ B) (hM : 4 ≤ M.length) :
    2 ≤ (plain M).length := by
  obtain ⟨⟨b₁, e₁⟩, ⟨b₂, e₂⟩, ⟨b₃, e₃⟩, ⟨b₄, e₄⟩, M', rfl⟩ :
      ∃ m₁ m₂ m₃ m₄ M', M = m₁ :: m₂ :: m₃ :: m₄ :: M' := by
    match M, hM with
    | m₁ :: m₂ :: m₃ :: m₄ :: M', _ => exact ⟨m₁, m₂, m₃, m₄, M', rfl⟩
  rw [List.append_assoc] at h
  cases e₃ with
  | true =>
    obtain ⟨h₁, h₂⟩ := plain_before h
    subst h₁ h₂
    simp
  | false =>
    cases e₄ with
    | true =>
      rw [List.cons_append, List.append_cons] at h
      obtain ⟨h₂, -⟩ := plain_before h
      subst h₂
      cases e₁ <;> simp
    | false => cases e₁ <;> cases e₂ <;> simp

end Marks

/-! ## What is lost is lost -/

section Lost

variable {bs : List UInt8} {A B K KA KB M : List (UInt8 × Bool)}

/-- Seen from the end: as much as stays of it was there before. -/
theorem length_le_of_suffix (h : marksFrom 0 bs = A ++ B) (hK : (KA ++ KB).map Prod.fst = bs)
    (hB : KB.Sublist B) : KB.length ≤ (plain B).length := by
  induction B generalizing A KA KB with
  | nil => rw [List.sublist_nil.mp hB]; exact le_rfl
  | cons m B ih =>
    obtain ⟨b, e⟩ := m
    have h' : marksFrom 0 bs = A ++ [(b, e)] ++ B := by rw [h, List.append_assoc]; rfl
    rcases List.sublist_cons_iff.mp hB with hB' | ⟨KB, rfl, hB'⟩
    · exact (ih h' hK hB').trans (by cases e <;> simp)
    · have hK' : (KA ++ [(b, e)] ++ KB).map Prod.fst = bs := by rwa [List.append_assoc]
      have hrest := ih h' hK' hB'
      cases e with
      | false => simpa using hrest
      | true =>
        -- the zero before the three is where the three is
        obtain ⟨rfl, A', rfl⟩ := zeros_before h
        rw [List.length_cons, plain_cons_true]
        refine Nat.succ_le_of_lt (lt_of_le_of_ne hrest fun heq => ?_)
        have hbs := hK.trans (plain_marksFrom 0 bs).symm
        rw [h, plain_append, plain_append, plain_cons_true, List.append_cons, List.map_append,
          List.map_append, List.map_append, List.map_append] at hbs
        have hzero := List.append_inj_left' hbs (by rw [List.length_map, List.length_map, heq])
        have hlast := congrArg List.getLast? hzero
        simp at hlast

/-- A byte that was there before stays. -/
theorem exists_append_of_plain_eq {b : UInt8} (hA : KA.Sublist (A ++ [(b, false)]))
    (hplain : plain KA = plain (A ++ [(b, false)])) :
    ∃ K, KA = K ++ [(b, false)] ∧ K.Sublist A ∧ plain K = plain A := by
  obtain ⟨K, K', rfl, hK, hK'⟩ := List.sublist_append_iff.mp hA
  rcases List.sublist_singleton.mp hK' with rfl | rfl
  · have hfew := (hK.filter fun m => !m.2).length_le
    have hlen := congrArg List.length hplain
    change (plain K).length ≤ (plain A).length at hfew
    simp at hlen
    omega
  · rw [plain_append, plain_append, List.append_left_inj] at hplain
    exact ⟨K, rfl, hK, hplain⟩

/-- Seen from the beginning: where only threes are taken out, one is left at most, and then there
is a three at the end. -/
theorem length_le_of_prefix (h : marksFrom 0 bs = A ++ B) (hK : (KA ++ KB).map Prod.fst = bs)
    (hA : KA.Sublist A) (hplain : plain KA = plain A) :
    KA.length = (plain A).length ∨
      KA.length = (plain A).length + 1 ∧ (KA.map Prod.fst).getLast? = some 3 := by
  induction A using List.reverseRecOn generalizing B KA KB with
  | nil => rw [List.sublist_nil.mp hA]; exact .inl rfl
  | append_singleton A m ih =>
    obtain ⟨b, e⟩ := m
    have h' : marksFrom 0 bs = A ++ (b, e) :: B := by rw [h, List.append_assoc]; rfl
    cases e with
    | false =>
      obtain ⟨K, rfl, hK', hplain'⟩ := exists_append_of_plain_eq hA hplain
      have hbs := hK.trans (plain_marksFrom 0 bs).symm
      rw [List.append_assoc] at hK
      rcases ih h' hK hK' hplain' with heq | ⟨hmore, hlast⟩
      · exact .inl (by simp [heq])
      · refine .inr ⟨by simp [hmore], ?_⟩
        -- it is where the next byte should be
        obtain ⟨L, hL⟩ := List.getLast?_eq_some_iff.mp hlast
        have hlen : L.length = ((plain A).map Prod.fst).length := by
          have := congrArg List.length hL
          rw [List.length_map, List.length_append] at this
          rw [List.length_map]
          simp at this
          omega
        rw [h, plain_append, plain_append, List.map_append, List.map_append, List.map_append,
          List.map_append, hL, List.append_assoc, List.append_assoc, List.append_assoc] at hbs
        have hnext := (List.append_inj hbs hlen).2
        simp at hnext
        simp [← hnext.1]
    | true =>
      obtain ⟨rfl, A', rfl⟩ := zeros_before h'
      have hend : A' ++ [(0, false), (0, false)] = (A' ++ [(0, false)]) ++ [(0, false)] := by
        rw [List.append_assoc]
        rfl
      obtain ⟨K, K', rfl, hK', hlast⟩ := List.sublist_append_iff.mp hA
      rcases List.sublist_singleton.mp hlast with rfl | rfl
      · rw [List.append_nil] at hK
        have hkept := ih h' hK hK' (by simpa using hplain)
        simpa using hkept
      · have hplain' : plain K = plain (A' ++ [(0, false), (0, false)]) := by simpa using hplain
        rw [List.append_assoc] at hK
        have hkept := ih h' hK hK' hplain'
        rcases hkept with heq | ⟨-, hthree⟩
        · exact .inr ⟨by simpa using heq, by simp⟩
        · -- before the next three there is a zero
          rw [hend] at hK' hplain'
          obtain ⟨K'', rfl, -⟩ := exists_append_of_plain_eq hK' hplain'
          simp at hthree

/-- **Lost bytes.** If what stays is what was escaped, one byte at most is lost. -/
theorem length_lost_le {L : List (UInt8 × Bool)} (h : marksFrom 0 bs = A ++ L ++ B)
    (hK : (KA ++ KB).map Prod.fst = bs) (hA : KA.Sublist A) (hplain : plain KA = plain A)
    (hB : KB.Sublist B) : (plain L).length ≤ 1 := by
  have hsuffix := length_le_of_suffix h hK hB
  have hall : (plain A).length + (plain L).length + (plain B).length = KA.length + KB.length := by
    have hbs := congrArg List.length (plain_marksFrom 0 bs)
    rw [h, List.length_map, plain_append, plain_append, List.length_append, List.length_append] at hbs
    have hlen := congrArg List.length hK
    rw [List.length_map, List.length_append] at hlen
    omega
  rw [List.append_assoc] at h
  rcases length_le_of_prefix h hK hA hplain with hpre | ⟨hpre, -⟩
  · omega
  · omega

end Lost

end MediaFramework
