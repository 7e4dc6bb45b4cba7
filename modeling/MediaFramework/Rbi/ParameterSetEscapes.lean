import MediaFramework.Lib.EmulationPrevention
import MediaFramework.Rbi.SeqParameterSet

/-!
# Parameter sets without their escapes (`RBIStreamProcessor::processStartCode`)

The bytes of a sequence parameter set are gathered without the threes that keep it from looking
like a start code, and handed to `processSeqParameterSet` when the start code behind it is found.

The byte behind a three is copied without another look. If it is a zero, and with the next one
makes the two zeros of another three, that three is not seen. And whatever of a set comes with
another call is taken to have a start code of its own: four bytes of it are skipped. Both can be
read off the bytes handed over, except that the one might hide the other; `length_lost_le` says
that it does not.
-/

namespace MediaFramework

namespace ParameterSetEscapes

/-! ## The code -/

/-- The first `m_emulationPreventionOffset` bytes of `m_emulationPrevention`, and how many it
takes. -/
structure EmulationPrevention where
  bytes : List UInt8
  m_emulationPreventionCapacity : ℕ

/-- The loop over the bytes of a set, and whether a start code has been found. The buffer is
in one packet, so `INDEX` is the identity on it. -/
def removeLoop (buffer : List UInt8) (i : ℕ) (out : List UInt8) : List UInt8 × Bool :=
  if i + 3 < buffer.length then
    if buffer.getD i 0 = 0 ∧ buffer.getD (i + 1) 0 = 0 ∧ buffer.getD (i + 2) 0 = 1 then
      (out, true)
    else if buffer.getD i 0 = 0 ∧ buffer.getD (i + 1) 0 = 0 ∧ buffer.getD (i + 2) 0 = 3 then
      removeLoop buffer (i + 4) (out ++ [0, 0, buffer.getD (i + 3) 0])
    else removeLoop buffer (i + 1) (out ++ [buffer.getD i 0])
  else (out, false)
termination_by buffer.length - i

/-- The capacity, once there is room for as many bytes as the buffer has; there is memory. -/
def reserve (s : EmulationPrevention) (length : ℕ) : ℕ :=
  if s.m_emulationPreventionCapacity < s.bytes.length + length then
    s.m_emulationPreventionCapacity * 2 + length
  else s.m_emulationPreventionCapacity

/-- The case of a sequence parameter set. With the state comes what is handed to
`processSeqParameterSet`. -/
def sequenceParameterSet (s : EmulationPrevention) (buffer : List UInt8) :
    EmulationPrevention × Option (List UInt8) :=
  let r := removeLoop buffer 4 s.bytes
  if r.2 then (⟨[], reserve s buffer.length⟩, some r.1) else (⟨r.1, reserve s buffer.length⟩, none)

/-- `processStartCode` for H.264, as far as parameter sets go. -/
def processStartCode (s : EmulationPrevention) (buffer : List UInt8) :
    EmulationPrevention × Option (List UInt8) :=
  if buffer.getD 3 0 &&& 0x1F = 7 then sequenceParameterSet s buffer else (s, none)

/-- What is handed over in some calls. -/
def handedOver : EmulationPrevention → List (List UInt8) → List (List UInt8)
  | _, [] => []
  | s, buffer :: buffers =>
    (processStartCode s buffer).2.toList ++ handedOver (processStartCode s buffer).1 buffers

/-! ## How a set arrives -/

/-- Pieces, the last one with a start code and some bytes behind it. -/
def followed (next : List UInt8) : List (List UInt8) → List (List UInt8)
  | [] => []
  | [piece] => [piece ++ 0 :: 0 :: 1 :: next]
  | piece :: pieces => piece :: followed next pieces

/-- A set that arrives: its header, the pieces its escaped form comes in, one for a call, and
what is in the last buffer behind the next start code. If there are several pieces that is not
as much as to have yet another start code. -/
structure Arrival (rbsp : List UInt8) where
  header : UInt8
  header_type : header &&& 0x1F = 7
  first : List UInt8
  more : List (List UInt8)
  pieces_eq : first ++ more.flatten = escape rbsp
  next : List UInt8
  next_code : more = [] ∨ ¬ [0, 0, 1] <:+: next

/-- The buffers of the calls. -/
def Arrival.buffers {rbsp : List UInt8} (a : Arrival rbsp) : List (List UInt8) :=
  followed a.next (([0, 0, 1, a.header] ++ a.first) :: a.more)

/-- What was escaped is handed over. -/
def Arrival.Restored {rbsp : List UInt8} (a : Arrival rbsp) : Prop :=
  ∀ s : EmulationPrevention, s.bytes = [] → handedOver s a.buffers = [rbsp]

/-- Four zeros, and a byte that may not come behind zeros. -/
def Overlaps (rbsp : List UInt8) : Prop := ∃ b ≤ 3, [0, 0, 0, 0, b] <:+: rbsp

/-! ## The loop on what is left of the buffer -/

/-- What the loop gives for what is left. -/
def strip : List UInt8 → List UInt8 × Bool
  | a :: b :: c :: d :: rest =>
    if a = 0 ∧ b = 0 ∧ c = 1 then ([], true)
    else if a = 0 ∧ b = 0 ∧ c = 3 then (0 :: 0 :: d :: (strip rest).1, (strip rest).2)
    else (a :: (strip (b :: c :: d :: rest)).1, (strip (b :: c :: d :: rest)).2)
  | _ => ([], false)

theorem strip_of_length_le {l : List UInt8} (h : l.length ≤ 3) : strip l = ([], false) := by
  match l, h with
  | [], _ => rfl
  | [_], _ => rfl
  | [_, _], _ => rfl
  | [_, _, _], _ => rfl

theorem drop_eq_getD_cons {l : List UInt8} {i : ℕ} (h : i < l.length) :
    l.drop i = l.getD i 0 :: l.drop (i + 1) := by
  rw [List.drop_eq_getElem_cons h, List.getD_eq_getElem l 0 h]

theorem removeLoop_eq (buffer : List UInt8) (i : ℕ) (out : List UInt8) :
    removeLoop buffer i out =
      (out ++ (strip (buffer.drop i)).1, (strip (buffer.drop i)).2) := by
  have hfour : ∀ i, i + 3 < buffer.length → buffer.drop i = buffer.getD i 0 ::
      buffer.getD (i + 1) 0 :: buffer.getD (i + 2) 0 :: buffer.getD (i + 3) 0 ::
        buffer.drop (i + 4) := fun i h => by
    rw [drop_eq_getD_cons (i := i) (by omega), drop_eq_getD_cons (i := i + 1) (by omega),
      drop_eq_getD_cons (i := i + 1 + 1) (by omega), drop_eq_getD_cons (i := i + 1 + 1 + 1) h]
  induction i, out using removeLoop.induct buffer with
  | case1 i out hlt hcode =>
    rw [removeLoop, if_pos hlt, if_pos hcode, hfour i hlt, strip, if_pos hcode, List.append_nil]
  | case2 i out hlt hcode hesc ih =>
    rw [removeLoop, if_pos hlt, if_neg hcode, if_pos hesc, ih, hfour i hlt, strip, if_neg hcode,
      if_pos hesc, List.append_assoc]
    rfl
  | case3 i out hlt hcode hesc ih =>
    have hnext := drop_eq_getD_cons (l := buffer) (i := i) (by omega)
    rw [hfour i hlt, List.cons.injEq] at hnext
    rw [removeLoop, if_pos hlt, if_neg hcode, if_neg hesc, ih, hfour i hlt, strip, if_neg hcode,
      if_neg hesc, hnext.2, List.append_assoc]
    rfl
  | case4 i out hge =>
    rw [removeLoop, if_neg hge, strip_of_length_le (by rw [List.length_drop]; omega),
      List.append_nil]

/-- A byte is copied, if there is no start code and no three behind two zeros. -/
theorem strip_copy {b : UInt8} {l : List UInt8} (hlen : 3 ≤ l.length)
    (h : ¬ (b = 0 ∧ ([0, 1] <+: l ∨ [0, 3] <+: l))) :
    strip (b :: l) = (b :: (strip l).1, (strip l).2) := by
  match l, hlen with
  | b' :: c :: d :: rest, _ =>
    rw [strip, if_neg, if_neg]
    · rintro ⟨rfl, rfl, rfl⟩
      exact h ⟨rfl, .inr ⟨d :: rest, rfl⟩⟩
    · rintro ⟨rfl, rfl, rfl⟩
      exact h ⟨rfl, .inl ⟨d :: rest, rfl⟩⟩

attribute [local simp] strip

/-- A three behind two zeros is taken out, and the byte behind it is copied. -/
theorem strip_escape (b : UInt8) (l : List UInt8) :
    strip (0 :: 0 :: 3 :: b :: l) = (0 :: 0 :: b :: (strip l).1, (strip l).2) := by
  rw [strip, if_neg (by simp), if_pos ⟨rfl, rfl, rfl⟩]

/-- Where a start code is found, there is one. -/
theorem infix_of_strip {l : List UInt8} (h : (strip l).2 = true) : [0, 0, 1] <:+: l := by
  induction l using strip.induct with
  | case1 a b c d rest hcode =>
    obtain ⟨rfl, rfl, rfl⟩ := hcode
    exact ⟨[], d :: rest, rfl⟩
  | case2 a b c d rest hcode hesc ih =>
    rw [strip, if_neg hcode, if_pos hesc] at h
    exact (ih h).trans ⟨[a, b, c, d], [], by simp⟩
  | case3 a b c d rest hcode hesc ih =>
    rw [strip, if_neg hcode, if_neg hesc] at h
    exact (ih h).trans (List.suffix_cons a _).isInfix
  | case4 l hshort =>
    rw [strip] at h
    · exact absurd h (by decide)
    · exact hshort

section Marks

variable {zeros : ℕ} {bs : List UInt8} {X post : List (UInt8 × Bool)}

/-- The rest of an escaped form is one. -/
theorem exists_marksFrom_tail (A : List (UInt8 × Bool)) (hzeros : zeros ≤ 2)
    (h : marksFrom zeros bs = A ++ X) : ∃ zeros' bs', zeros' ≤ 2 ∧ marksFrom zeros' bs' = X := by
  obtain ⟨zeros', bs', hzeros', htail, -⟩ := exists_marksFrom_of_append hzeros h
  exact ⟨zeros', bs', hzeros', htail.symm⟩

/-- Two zeros are followed by a three that was put in, or by a byte that is not looked at. -/
theorem escape_or_copy {b₁ b₂ b₃ : UInt8} {e₁ e₂ e₃ : Bool} (hzeros : zeros ≤ 2)
    (h : marksFrom zeros bs = (b₁, e₁) :: (b₂, e₂) :: (b₃, e₃) :: X) :
    (b₁ = 0 ∧ b₂ = 0 ∧ b₃ = 3 ∧ e₃ = true) ∨
      ∀ l, ¬ (b₁ = 0 ∧ ([0, 1] <+: b₂ :: b₃ :: l ∨ [0, 3] <+: b₂ :: b₃ :: l)) := by
  by_cases hpair : b₁ = 0 ∧ b₂ = 0
  · obtain ⟨rfl, rfl⟩ := hpair
    rcases behind_zeros hzeros h with ⟨rfl, rfl⟩ | ⟨hlarge, -⟩
    · exact .inl ⟨rfl, rfl, rfl, rfl⟩
    · refine .inr fun l hl => ?_
      rcases hl with ⟨-, hcode | hcode⟩
      · simp only [List.cons_prefix_cons] at hcode
        rw [← hcode.2.1] at hlarge
        exact absurd hlarge (by decide)
      · simp only [List.cons_prefix_cons] at hcode
        rw [← hcode.2.1] at hlarge
        exact absurd hlarge (by decide)
  · refine .inr fun l hl => hpair ⟨hl.1, ?_⟩
    rcases hl with ⟨-, hcode | hcode⟩
    · exact (List.cons_prefix_cons.mp hcode).1.symm
    · exact (List.cons_prefix_cons.mp hcode).1.symm

/-- A piece in the middle: some threes are taken out, and up to three bytes at the end are
lost. -/
theorem strip_piece (hzeros : zeros ≤ 2) (h : marksFrom zeros bs = X ++ post) :
    ∃ A B K, X = A ++ B ∧ K.Sublist A ∧ plain K = plain A ∧
      strip (X.map Prod.fst) = (K.map Prod.fst, false) := by
  induction hn : X.length using Nat.strong_induction_on generalizing zeros bs X with
  | _ n ih =>
    subst hn
    match X with
    | [] => exact ⟨[], [], [], rfl, List.nil_sublist _, rfl, rfl⟩
    | [m₁] => exact ⟨[], [m₁], [], rfl, List.nil_sublist _, rfl, rfl⟩
    | [m₁, m₂] => exact ⟨[], [m₁, m₂], [], rfl, List.nil_sublist _, rfl, rfl⟩
    | [m₁, m₂, m₃] => exact ⟨[], [m₁, m₂, m₃], [], rfl, List.nil_sublist _, rfl, rfl⟩
    | (b₁, e₁) :: (b₂, e₂) :: (b₃, e₃) :: (b₄, e₄) :: X =>
      rcases escape_or_copy hzeros h with ⟨rfl, rfl, rfl, rfl⟩ | hcopy
      · obtain ⟨zeros', bs', hzeros', htail⟩ :=
          exists_marksFrom_tail [(0, e₁), (0, e₂), (3, true), (b₄, e₄)] hzeros h
        obtain ⟨A, B, K, rfl, hsub, hplain, hstrip⟩ :=
          ih _ (by simp only [List.length_cons]; omega) hzeros' htail rfl
        refine ⟨(0, e₁) :: (0, e₂) :: (3, true) :: (b₄, e₄) :: A, B,
          (0, e₁) :: (0, e₂) :: (b₄, e₄) :: K, rfl, ?_, ?_, ?_⟩
        · exact ((hsub.cons_cons _).cons _).cons_cons _ |>.cons_cons _
        · cases e₁ <;> cases e₂ <;> cases e₄ <;> simp [hplain]
        · simp only [List.map_cons, strip_escape, hstrip]
      · obtain ⟨zeros', bs', hzeros', htail⟩ :=
          exists_marksFrom_tail (A := [(b₁, e₁)]) hzeros h
        obtain ⟨A, B, K, hX, hsub, hplain, hstrip⟩ :=
          ih _ (X := (b₂, e₂) :: (b₃, e₃) :: (b₄, e₄) :: X) (by simp) hzeros' htail rfl
        refine ⟨(b₁, e₁) :: A, B, (b₁, e₁) :: K, by rw [hX]; rfl, hsub.cons_cons _, ?_, ?_⟩
        · cases e₁ <;> simp [hplain]
        · have hstep := strip_copy (l := ((b₂, e₂) :: (b₃, e₃) :: (b₄, e₄) :: X).map Prod.fst)
            (by simp) (hcopy _)
          rwa [hstrip] at hstep

/-- What is put in is not the last byte. -/
theorem exists_cons_of_escape {b : UInt8} (h : marksFrom zeros bs = (b, true) :: X) :
    ∃ m X', X = m :: X' := by
  rcases bs with _ | ⟨c, bs⟩
  · exact absurd h (List.cons_ne_nil _ _).symm
  by_cases hesc : zeros = 2 ∧ c ≤ 3
  · rw [marksFrom, if_pos hesc, List.cons.injEq] at h
    exact ⟨_, _, h.2.symm⟩
  · rw [marksFrom_plain hesc, List.cons.injEq, Prod.mk.injEq] at h
    exact absurd h.1.2 (by decide)

/-- The last piece is copied, but for some threes that are taken out, up to a start code. The
code is found if there is a byte behind it. -/
theorem strip_last (next : List UInt8) (hzeros : zeros ≤ 2) (h : marksFrom zeros bs = X) :
    ∃ K, K.Sublist X ∧ plain K = plain X ∧
      strip (X.map Prod.fst ++ 0 :: 0 :: 1 :: next) = (K.map Prod.fst, !next.isEmpty) := by
  induction hn : X.length using Nat.strong_induction_on generalizing zeros bs X with
  | _ n ih =>
    subst hn
    -- when the first byte is copied
    have hstep : ∀ b e X', X = (b, e) :: X' → ¬ (b = 0 ∧
        ([0, 1] <+: X'.map Prod.fst ++ 0 :: 0 :: 1 :: next ∨
          [0, 3] <+: X'.map Prod.fst ++ 0 :: 0 :: 1 :: next)) →
        ∃ K, K.Sublist X ∧ plain K = plain X ∧
          strip (X.map Prod.fst ++ 0 :: 0 :: 1 :: next) = (K.map Prod.fst, !next.isEmpty) := by
      rintro b e X' rfl hcopy
      obtain ⟨zeros', bs', hzeros', htail⟩ := exists_marksFrom_tail [(b, e)] hzeros h
      obtain ⟨K, hsub, hplain, hstrip⟩ := ih _ (by simp) hzeros' htail rfl
      refine ⟨(b, e) :: K, hsub.cons_cons _, by cases e <;> simp [hplain], ?_⟩
      have hnext := strip_copy (b := b)
        (by simp only [List.length_append, List.length_cons]; omega) hcopy
      rwa [hstrip] at hnext
    rcases X with _ | ⟨⟨b₁, e₁⟩, _ | ⟨⟨b₂, e₂⟩, _ | ⟨⟨b₃, e₃⟩, X⟩⟩⟩
    · refine ⟨[], List.nil_sublist _, rfl, ?_⟩
      rcases next with _ | ⟨b, next⟩
      · rfl
      · rfl
    · exact hstep b₁ e₁ [] rfl (by simp)
    · exact hstep b₁ e₁ [(b₂, e₂)] rfl (by simp)
    · rcases escape_or_copy hzeros h with ⟨rfl, rfl, rfl, rfl⟩ | hcopy
      · obtain ⟨zeros₁, bs₁, hzeros₁, hesc⟩ := exists_marksFrom_tail [(0, e₁), (0, e₂)] hzeros h
        obtain ⟨⟨b₄, e₄⟩, X, rfl⟩ := exists_cons_of_escape hesc
        obtain ⟨zeros', bs', hzeros', htail⟩ :=
          exists_marksFrom_tail [(3, true), (b₄, e₄)] hzeros₁ hesc
        obtain ⟨K, hsub, hplain, hstrip⟩ :=
          ih _ (by simp only [List.length_cons]; omega) hzeros' htail rfl
        refine ⟨(0, e₁) :: (0, e₂) :: (b₄, e₄) :: K, ?_, ?_, ?_⟩
        · exact ((hsub.cons_cons _).cons _).cons_cons _ |>.cons_cons _
        · cases e₁ <;> cases e₂ <;> cases e₄ <;> simp [hplain]
        · simp only [List.map_cons, List.cons_append, strip_escape, hstrip]
      · exact hstep b₁ e₁ _ rfl (hcopy _)

end Marks

/-! ## In one buffer -/

section OneBuffer

variable {b : UInt8} {bs rbsp : List UInt8} {next : List UInt8}

theorem overlaps_cons :
    Overlaps (b :: bs) ↔ (b = 0 ∧ ∃ c ≤ 3, [0, 0, 0, c] <+: bs) ∨ Overlaps bs := by
  constructor
  · rintro ⟨c, hc, hinfix⟩
    rcases List.infix_cons_iff.mp hinfix with hpre | hrest
    · rw [List.cons_prefix_cons] at hpre
      exact .inl ⟨hpre.1.symm, c, hc, hpre.2⟩
    · exact .inr ⟨c, hc, hrest⟩
  · rintro (⟨rfl, c, hc, hpre⟩ | ⟨c, hc, hrest⟩)
    · exact ⟨c, hc, (List.cons_prefix_cons.mpr ⟨rfl, hpre⟩).isInfix⟩
    · exact ⟨c, hc, hrest.trans (List.suffix_cons b bs).isInfix⟩

/-- Fewer than four zeros do not matter. -/
theorem overlaps_zeros_cons {n : ℕ} (hn : n < 4) (hb : b ≠ 0) :
    Overlaps (List.replicate n 0 ++ b :: bs) ↔ Overlaps bs := by
  obtain rfl | rfl | rfl | rfl : n = 0 ∨ n = 1 ∨ n = 2 ∨ n = 3 := by omega
  all_goals simp [List.replicate, overlaps_cons, List.cons_prefix_cons, hb, hb.symm]

/-- What is handed over, if all of it is in the buffer. -/
def kept (next : List UInt8) (zeros : ℕ) (bs : List UInt8) : List UInt8 :=
  (strip (escapeFrom zeros bs ++ 0 :: 0 :: 1 :: next)).1

theorem le_length_kept (next : List UInt8) {zeros : ℕ} (hzeros : zeros ≤ 2) (bs : List UInt8) :
    bs.length ≤ (kept next zeros bs).length := by
  obtain ⟨K, -, hplain, hstrip⟩ := strip_last next hzeros (rfl : marksFrom zeros bs = _)
  rw [map_fst_marksFrom] at hstrip
  have hlen := congrArg List.length (plain_marksFrom zeros bs)
  rw [← hplain, List.length_map] at hlen
  rw [kept, hstrip, List.length_map, ← hlen]
  exact (plain_sublist K).length_le

theorem kept_nil (next : List UInt8) (zeros : ℕ) : kept next zeros [] = [] := by
  rcases next with _ | ⟨b, next⟩ <;> rfl

theorem escapeFrom_cons_of_ne {zeros : ℕ} (hb : b ≠ 0) (h : zeros < 2 ∨ 3 < b) :
    escapeFrom zeros (b :: bs) = b :: escapeFrom 0 bs := by
  rw [escapeFrom, if_neg, if_neg hb]
  rintro ⟨rfl, hle⟩
  rcases h with hlt | hgt
  · exact absurd hlt (by decide)
  · exact UInt8.not_le.mpr hgt hle

/-- A byte that is not zero is copied. -/
theorem kept_cons_of_ne {zeros : ℕ} (hb : b ≠ 0) (h : zeros < 2 ∨ 3 < b) :
    kept next zeros (b :: bs) = b :: kept next 0 bs := by
  rw [kept, escapeFrom_cons_of_ne hb h, List.cons_append,
    strip_copy (by simp only [List.length_append, List.length_cons]; omega) fun h => hb h.1]
  rfl

/-- A zero is copied where no pair of zeros begins. -/
theorem kept_zero_cons {zeros : ℕ} (hzeros : zeros < 2)
    (h : ¬ ([0, 1] <+: escapeFrom (zeros + 1) bs ++ 0 :: 0 :: 1 :: next ∨
      [0, 3] <+: escapeFrom (zeros + 1) bs ++ 0 :: 0 :: 1 :: next)) :
    kept next zeros (0 :: bs) = 0 :: kept next (zeros + 1) bs := by
  rw [kept, escapeFrom, if_neg (by omega), if_pos rfl, List.cons_append,
    strip_copy (by simp only [List.length_append, List.length_cons]; omega) fun hcode => h hcode.2]
  rfl

theorem kept_zero {zeros : ℕ} (hzeros : zeros < 2) : kept next zeros [0] = [0] := by
  rw [kept_zero_cons hzeros (by simp [escapeFrom]), kept_nil]

theorem kept_zero_cons_of_ne {zeros : ℕ} (hzeros : zeros < 2) (hb : b ≠ 0)
    (h : zeros < 1 ∨ 3 < b) : kept next zeros (0 :: b :: bs) = 0 :: b :: kept next 0 bs := by
  have h' : zeros + 1 < 2 ∨ 3 < b := h.imp_left (by omega)
  rw [kept_zero_cons hzeros, kept_cons_of_ne hb h']
  rw [escapeFrom_cons_of_ne hb h']
  simp [List.cons_prefix_cons, hb.symm]

/-- The three of a pair that is not seen is copied. -/
theorem kept_overlap (hb : b ≤ 3) : kept next 1 (0 :: b :: bs) = 0 :: 3 :: kept next 0 (b :: bs) := by
  have hraw : escapeFrom 2 (b :: bs) = 3 :: escapeFrom 0 (b :: bs) := by
    simp [escapeFrom, hb]
  rw [kept_zero_cons (by decide)]
  · rw [kept, hraw, List.cons_append,
      strip_copy (by simp only [List.length_append, List.length_cons]; omega) fun h =>
        absurd h.1 (by decide)]
    rfl
  · rw [hraw]
    simp [List.cons_prefix_cons]

/-- The three of a pair that is seen is taken out, and the byte behind it is copied. -/
theorem kept_escape (hb : b ≤ 3) : kept next 0 (0 :: 0 :: b :: bs) =
    0 :: 0 :: b :: kept next (if b = 0 then 1 else 0) bs := by
  have hraw : escapeFrom 0 (0 :: 0 :: b :: bs) =
      0 :: 0 :: 3 :: b :: escapeFrom (if b = 0 then 1 else 0) bs := by
    simp [escapeFrom, hb]
  simp only [kept, hraw, List.cons_append, strip_escape]

theorem kept_zeros_cons (hb : 3 < b) :
    kept next 0 (0 :: 0 :: b :: bs) = 0 :: 0 :: b :: kept next 0 bs := by
  have hne : b ≠ 0 := by rintro rfl; exact absurd hb (by decide)
  have hlast : escapeFrom 1 (0 :: b :: bs) = 0 :: b :: escapeFrom 0 bs := by
    rw [escapeFrom, if_neg (by simp), if_pos rfl, escapeFrom_cons_of_ne hne (.inr hb)]
  rw [kept_zero_cons (by decide), kept_zero_cons_of_ne (by decide) hne (.inr hb)]
  rw [hlast]
  rintro (⟨-, rfl, -⟩ | ⟨-, rfl, -⟩)
  · exact absurd hb (by decide)
  · exact absurd hb (by decide)

theorem kept_zeros : kept next 0 [0, 0] = [0, 0] := by
  rw [kept_zero_cons (by decide) (by simp [escapeFrom]), kept_zero (by decide)]

theorem not_overlaps_nil : ¬ Overlaps [] := by
  rintro ⟨b, -, h⟩
  simp at h

/-- Behind three zeros that have been copied. -/
theorem kept_one_eq_iff (hrest : ∀ cs : List UInt8, cs.length < bs.length →
    (kept next 0 cs = cs ↔ ¬ Overlaps cs)) :
    kept next 1 bs = bs ↔ ¬ Overlaps (0 :: 0 :: 0 :: bs) := by
  rcases bs with _ | ⟨b, bs⟩
  · simp [kept_nil, overlaps_cons, not_overlaps_nil]
  by_cases hb : b = 0
  · subst hb
    rcases bs with _ | ⟨c, bs⟩
    · simp [kept_zero, overlaps_cons, not_overlaps_nil, List.cons_prefix_cons]
    by_cases hc : c ≤ 3
    · -- one byte more than there should be
      have hlen := le_length_kept next (Nat.zero_le 2) (c :: bs)
      have hfour : Overlaps (0 :: 0 :: 0 :: 0 :: c :: bs) := ⟨c, hc, [], bs, rfl⟩
      rw [kept_overlap hc]
      refine ⟨fun h => ?_, fun h => absurd hfour h⟩
      have hsame := congrArg List.length h
      simp only [List.length_cons] at hsame hlen
      omega
    · have hgt : 3 < c := UInt8.not_le.mp hc
      have hne : c ≠ 0 := by rintro rfl; exact hc (by decide)
      have hfour : Overlaps (0 :: 0 :: 0 :: 0 :: c :: bs) ↔ Overlaps bs := by
        rw [overlaps_cons]
        have hfewer : Overlaps (0 :: 0 :: 0 :: c :: bs) ↔ Overlaps bs :=
          overlaps_zeros_cons (n := 3) (by decide) hne
        rw [hfewer]
        refine or_iff_right fun h => ?_
        obtain ⟨-, d, hd, hpre⟩ := h
        simp only [List.cons_prefix_cons] at hpre
        exact hc (hpre.2.2.2.1 ▸ hd)
      rw [kept_zero_cons_of_ne (by decide) hne (.inr hgt), hfour,
        ← hrest bs (by simp only [List.length_cons]; omega)]
      simp
  · have hthree : Overlaps (0 :: 0 :: 0 :: b :: bs) ↔ Overlaps bs :=
      overlaps_zeros_cons (n := 3) (by decide) hb
    rw [kept_cons_of_ne hb (.inl (by decide)), hthree, ← hrest bs (by simp)]
    simp

/-- **In one buffer.** What is handed over is what was escaped, if no four zeros come before a
byte that may not come behind two. -/
theorem kept_eq_iff (next bs : List UInt8) : kept next 0 bs = bs ↔ ¬ Overlaps bs := by
  induction hn : bs.length using Nat.strong_induction_on generalizing bs with
  | _ n ih =>
    subst hn
    have hrest : ∀ cs : List UInt8, cs.length < bs.length →
        (kept next 0 cs = cs ↔ ¬ Overlaps cs) := fun cs hcs => ih _ hcs cs rfl
    rcases bs with _ | ⟨b, bs⟩
    · simp [kept_nil, not_overlaps_nil]
    by_cases hb : b ≠ 0
    · have hzero : Overlaps (b :: bs) ↔ Overlaps bs := overlaps_zeros_cons (n := 0) (by decide) hb
      rw [kept_cons_of_ne hb (.inl (by decide)), hzero, ← hrest bs (by simp)]
      simp
    obtain rfl := not_not.mp hb
    rcases bs with _ | ⟨c, bs⟩
    · simp [kept_zero, overlaps_cons, not_overlaps_nil]
    by_cases hc : c ≠ 0
    · have hone : Overlaps (0 :: c :: bs) ↔ Overlaps bs :=
        overlaps_zeros_cons (n := 1) (by decide) hc
      rw [kept_zero_cons_of_ne (by decide) hc (.inl (by decide)), hone,
        ← hrest bs (by simp only [List.length_cons]; omega)]
      simp
    obtain rfl := not_not.mp hc
    rcases bs with _ | ⟨d, bs⟩
    · simp [kept_zeros, overlaps_cons, not_overlaps_nil, List.cons_prefix_cons]
    by_cases hd : d = 0
    · -- three zeros have been copied
      subst hd
      rw [kept_escape (by decide), if_pos rfl, ← kept_one_eq_iff fun cs hcs =>
        hrest cs (by simp only [List.length_cons]; omega)]
      simp
    · have htwo : Overlaps (0 :: 0 :: d :: bs) ↔ Overlaps bs :=
        overlaps_zeros_cons (n := 2) (by decide) hd
      have hcopied : kept next 0 (0 :: 0 :: d :: bs) = 0 :: 0 :: d :: kept next 0 bs := by
        by_cases hsmall : d ≤ 3
        · rw [kept_escape hsmall, if_neg hd]
        · exact kept_zeros_cons (UInt8.not_le.mp hsmall)
      rw [hcopied, htwo, ← hrest bs (by simp only [List.length_cons]; omega)]
      simp

end OneBuffer

/-! ## One call -/

section Calls

variable {s : EmulationPrevention} {buffer next : List UInt8}

/-- What the call keeps of the buffer is taken up, and handed over where a start code is
found. -/
theorem sequenceParameterSet_eq (s : EmulationPrevention) (buffer : List UInt8) :
    sequenceParameterSet s buffer =
      if (strip (buffer.drop 4)).2 then
        (⟨[], reserve s buffer.length⟩, some (s.bytes ++ (strip (buffer.drop 4)).1))
      else (⟨s.bytes ++ (strip (buffer.drop 4)).1, reserve s buffer.length⟩, none) := by
  rw [sequenceParameterSet, removeLoop_eq]

/-- A set is not handed over where its start code is not found. -/
theorem processStartCode_of_not_found (h : (strip (buffer.drop 4)).2 = false) :
    (processStartCode s buffer).2 = none ∧
      ((processStartCode s buffer).1.bytes = s.bytes ∨
        (processStartCode s buffer).1.bytes = s.bytes ++ (strip (buffer.drop 4)).1) := by
  by_cases htype : buffer.getD 3 0 &&& 0x1F = 7
  · rw [processStartCode, if_pos htype, sequenceParameterSet_eq, if_neg (by rw [h]; decide)]
    exact ⟨rfl, .inr rfl⟩
  · rw [processStartCode, if_neg htype]
    exact ⟨rfl, .inl rfl⟩

/-- What is handed over is what was there, and what the call keeps. -/
theorem processStartCode_handed :
    (processStartCode s buffer).2 = none ∨
      (processStartCode s buffer).2 = some (s.bytes ++ (strip (buffer.drop 4)).1) := by
  rw [processStartCode, sequenceParameterSet_eq]
  split_ifs
  · exact .inr rfl
  · exact .inl rfl
  · exact .inl rfl

/-- The first four bytes of a buffer are skipped, and if that is more than there is of the
piece then the start code behind it is not found. -/
theorem not_found_of_short {piece : List UInt8} (hshort : piece.length < 4)
    (hcode : ¬ [0, 0, 1] <:+: next) :
    (strip ((piece ++ 0 :: 0 :: 1 :: next).drop 4)).2 = false := by
  by_contra hfound
  have hinfix := infix_of_strip (Bool.eq_true_of_not_eq_false hfound)
  have hdrop : (piece ++ 0 :: 0 :: 1 :: next).drop 4 = (0 :: 1 :: next).drop (3 - piece.length) := by
    rw [List.drop_append, List.drop_eq_nil_of_le (by omega), List.nil_append,
      show 4 - piece.length = 3 - piece.length + 1 by omega, List.drop_succ_cons]
  rw [hdrop] at hinfix
  have hrest := hinfix.trans (List.drop_suffix _ _).isInfix
  simp only [List.infix_cons_iff, List.cons_prefix_cons] at hrest
  rcases hrest with ⟨-, h, -⟩ | ⟨h, -⟩ | hrest
  · exact absurd h (by decide)
  · exact absurd h (by decide)
  · exact hcode hrest

/-- **Pieces that are not the first.** Of each of them four bytes are lost. -/
theorem handedOver_pieces (hcode : ¬ [0, 0, 1] <:+: next) (pieces : List (List UInt8)) :
    ∀ {zeros : ℕ} {bs : List UInt8} {X : List (UInt8 × Bool)} (s : EmulationPrevention),
      zeros ≤ 2 → marksFrom zeros bs = X → X.map Prod.fst = pieces.flatten →
      handedOver s (followed next pieces) = [] ∨
        ∃ K : List (UInt8 × Bool), 4 ≤ X.length ∧ K.Sublist (X.drop 4) ∧
          handedOver s (followed next pieces) = [s.bytes ++ K.map Prod.fst] := by
  induction pieces with
  | nil => exact fun s _ _ _ => .inl rfl
  | cons piece pieces ih =>
    intro zeros bs X s hzeros hmarks hX
    rcases pieces with _ | ⟨piece', pieces⟩
    · -- the last piece
      rw [List.flatten_singleton] at hX
      have hlen := congrArg List.length hX
      rw [List.length_map] at hlen
      have hcall : handedOver s (followed next [piece]) =
          (processStartCode s (piece ++ 0 :: 0 :: 1 :: next)).2.toList := List.append_nil _
      rw [hcall]
      rcases Nat.lt_or_ge piece.length 4 with hshort | hlong
      · rw [(processStartCode_of_not_found (not_found_of_short hshort hcode)).1]
        exact .inl rfl
      · obtain ⟨zeros', bs', hzeros', htail⟩ := exists_marksFrom_tail (X.take 4) hzeros
          (hmarks.trans (List.take_append_drop 4 X).symm)
        obtain ⟨K, hsub, -, hstrip⟩ := strip_last next hzeros' htail
        have hdrop : (piece ++ 0 :: 0 :: 1 :: next).drop 4 =
            (X.drop 4).map Prod.fst ++ 0 :: 0 :: 1 :: next := by
          rw [List.drop_append_of_le_length hlong, List.map_drop, hX]
        rcases @processStartCode_handed s (piece ++ 0 :: 0 :: 1 :: next) with h | h
        · rw [h]
          exact .inl rfl
        · rw [h, hdrop, hstrip]
          exact .inr ⟨K, by omega, hsub, rfl⟩
    · -- a piece with others behind it
      obtain ⟨P, Y, rfl, hP, hY⟩ := List.map_eq_append_iff.mp hX
      obtain ⟨zeros', bs', hzeros', hrest⟩ := exists_marksFrom_tail P hzeros hmarks
      obtain ⟨zeros₁, bs₁, hzeros₁, hpiece⟩ := exists_marksFrom_tail (X := P.drop 4 ++ Y) (P.take 4)
        hzeros (by rw [hmarks, ← List.append_assoc, List.take_append_drop])
      obtain ⟨A, B, K, hAB, hsub, -, hstrip⟩ := strip_piece hzeros₁ hpiece
      rw [List.map_drop, hP] at hstrip
      obtain ⟨hnone, hbytes⟩ := @processStartCode_of_not_found s piece
        (by rw [hstrip])
      have hcall : handedOver s (followed next (piece :: piece' :: pieces)) =
          handedOver (processStartCode s piece).1 (followed next (piece' :: pieces)) := by
        rw [followed, handedOver, hnone]
        · rfl
        · exact List.cons_ne_nil _ _
      have hlost : (Y.drop 4).Sublist (Y.drop (4 - P.length)) :=
        List.drop_sublist_drop_left Y (by omega)
      rw [hcall]
      rcases ih (processStartCode s piece).1 hzeros' hrest hY with h | ⟨K', hlen, hsub', h⟩
      · exact .inl h
      · rw [h]
        rw [List.length_append, List.drop_append]
        rcases hbytes with hbytes | hbytes
        · exact .inr ⟨K', by omega, (hsub'.trans hlost).trans (List.sublist_append_right _ _),
            by rw [hbytes]⟩
        · refine .inr ⟨K ++ K', by omega, ?_, by rw [hbytes, hstrip, List.map_append,
            List.append_assoc]⟩
          refine List.Sublist.append ?_ (hsub'.trans hlost)
          rw [hAB]
          exact hsub.trans (List.sublist_append_left _ _)

end Calls

namespace Arrival

variable {rbsp : List UInt8} (a : Arrival rbsp)

/-- The first buffer has the header of a parameter set. -/
theorem processStartCode_header (s : EmulationPrevention) (bytes : List UInt8) :
    processStartCode s ([0, 0, 1, a.header] ++ bytes) =
      sequenceParameterSet s ([0, 0, 1, a.header] ++ bytes) := by
  rw [processStartCode, if_pos]
  exact a.header_type

/-- A set in one buffer is handed over without all its threes if there are not too many of
them, and a byte is behind the start code. -/
theorem restored_iff_of_one (hone : a.more = []) :
    a.Restored ↔ a.next ≠ [] ∧ ¬ Overlaps rbsp := by
  have hfirst : a.first = escapeFrom 0 rbsp := by
    have := a.pieces_eq
    rwa [hone, List.flatten_nil, List.append_nil] at this
  have hbuffers : a.buffers =
      [[0, 0, 1, a.header] ++ (escapeFrom 0 rbsp ++ 0 :: 0 :: 1 :: a.next)] := by
    rw [buffers, hone, hfirst]
    rfl
  obtain ⟨K, -, -, hstrip⟩ := strip_last a.next (Nat.zero_le 2) (rfl : marksFrom 0 rbsp = _)
  rw [map_fst_marksFrom] at hstrip
  have hfound : (strip (escapeFrom 0 rbsp ++ 0 :: 0 :: 1 :: a.next)).2 = !a.next.isEmpty := by
    rw [hstrip]
  have hcall : ∀ s : EmulationPrevention, s.bytes = [] → handedOver s a.buffers =
      if a.next = [] then [] else [kept a.next 0 rbsp] := by
    intro s hs
    have hdrop : ([0, 0, 1, a.header] ++ (escapeFrom 0 rbsp ++ 0 :: 0 :: 1 :: a.next)).drop 4 =
        escapeFrom 0 rbsp ++ 0 :: 0 :: 1 :: a.next := rfl
    rw [hbuffers, handedOver, a.processStartCode_header, sequenceParameterSet_eq, hdrop, hfound, hs]
    rcases a.next with _ | ⟨b, next⟩
    · rfl
    · rfl
  rw [← kept_eq_iff a.next rbsp]
  constructor
  · intro h
    have hrun := h ⟨[], 0⟩ rfl
    rw [hcall _ rfl] at hrun
    split_ifs at hrun with hnext
    exact ⟨hnext, List.singleton_inj.mp hrun⟩
  · rintro ⟨hnext, hkept⟩ s hs
    rw [hcall s hs, if_neg hnext, hkept]

/-- A set in several buffers is not handed over as what it is. -/
theorem not_restored_of_more (hmore : a.more ≠ []) : ¬ a.Restored := by
  intro h
  have hcode := a.next_code.resolve_left hmore
  have hrun := h ⟨[], 0⟩ rfl
  have hescape := map_fst_marksFrom 0 rbsp
  rw [show escapeFrom 0 rbsp = a.first ++ a.more.flatten from a.pieces_eq.symm] at hescape
  obtain ⟨P, Y, hmarks, hP, hY⟩ := List.map_eq_append_iff.mp hescape
  obtain ⟨zeros', bs', hzeros', hrest⟩ := exists_marksFrom_tail P (Nat.zero_le 2) hmarks
  obtain ⟨A, B, K, rfl, hsub, hplain, hstrip⟩ := strip_piece (Nat.zero_le 2) hmarks
  rw [hP] at hstrip
  obtain ⟨piece, pieces, hpieces⟩ := List.exists_cons_of_ne_nil hmore
  have hbuffers : a.buffers = ([0, 0, 1, a.header] ++ a.first) :: followed a.next a.more := by
    rw [buffers, hpieces]
    rfl
  have hcall : processStartCode ⟨[], 0⟩ ([0, 0, 1, a.header] ++ a.first) =
      (⟨K.map Prod.fst, reserve ⟨[], 0⟩ ([0, 0, 1, a.header] ++ a.first).length⟩, none) := by
    rw [a.processStartCode_header, sequenceParameterSet_eq]
    rw [show ([0, 0, 1, a.header] ++ a.first).drop 4 = a.first from rfl, hstrip]
    rfl
  rw [hbuffers, handedOver, hcall, Option.toList_none, List.nil_append] at hrun
  rcases handedOver_pieces hcode a.more
    ⟨K.map Prod.fst, reserve ⟨[], 0⟩ ([0, 0, 1, a.header] ++ a.first).length⟩ hzeros' hrest hY with
    hnone | ⟨K', hlen, hsub', hsome⟩
  · rw [hnone] at hrun
    exact absurd hrun (by simp)
  · rw [hsome, List.singleton_inj, ← List.map_append] at hrun
    -- what is skipped is lost, and nothing hides it
    have hsplit : marksFrom 0 rbsp = A ++ (B ++ Y.take 4) ++ Y.drop 4 := by
      rw [hmarks]
      simp only [List.append_assoc, List.take_append_drop]
    have hfew := length_lost_le hsplit hrun hsub hplain hsub'
    have htwo := two_le_length_plain (A := A ++ B) (M := Y.take 4) (B := Y.drop 4)
      (by rw [hsplit]; simp only [List.append_assoc]) (by rw [List.length_take]; omega)
    rw [plain_append, List.length_append] at hfew
    omega

/-- **What is handed over.** It is the parameter set exactly if that is in one buffer, with a byte
behind the next start code, and has no four zeros before a byte that may not come behind two. -/
theorem restored_iff : a.Restored ↔ a.more = [] ∧ a.next ≠ [] ∧ ¬ Overlaps rbsp := by
  by_cases hone : a.more = []
  · rw [a.restored_iff_of_one hone]
    exact ⟨fun h => ⟨hone, h⟩, fun h => h.2⟩
  · exact ⟨fun h => absurd h (a.not_restored_of_more hone), fun h => absurd h.1 hone⟩

/-- A set with two offsets whose codes make seven octets of zeros. -/
def longOffsets : SeqParameterSet :=
  { SeqParameterSet.vga with
    profile_idc := 66
    picOrder := .type1 false (2 ^ 30) (2 ^ 30) []
    picOrder_inRange := ⟨by decide, by decide, by decide, fun _ hk => absurd hk List.not_mem_nil⟩ }

/-- The octets of it. -/
def longOffsetsBytes : List UInt8 :=
  [66, 0, 30, 208, 0, 0, 0, 4, 0, 0, 0, 0, 0, 0, 0, 8, 0, 0, 0, 9, 64, 160, 123, 32]

/-- The set, in one buffer. -/
def longOffsetsArrival : Arrival longOffsetsBytes where
  header := 0x67
  header_type := by decide
  first := [66, 0, 30, 208, 0, 0, 3, 0, 4, 0, 0, 3, 0, 0, 3, 0, 0, 3, 0, 8, 0, 0, 3, 0, 9, 64, 160,
    123, 32]
  more := []
  pieces_eq := by decide
  next := [0x68]
  next_code := .inl rfl

/-- Behind the first of its threes another one is not seen, and stays. -/
theorem longOffsets_not_restored :
    bitsOf longOffsetsBytes =
        longOffsets.bits ++ [true, false, false, true, false, false, false, false, false] ∧
      handedOver ⟨[], 0⟩ longOffsetsArrival.buffers =
        [[66, 0, 30, 208, 0, 0, 0, 4, 0, 0, 0, 0, 3, 0, 0, 0, 8, 0, 0, 0, 9, 64, 160, 123, 32]] ∧
      ¬ longOffsetsArrival.Restored := by
  have hrun : handedOver ⟨[], 0⟩ longOffsetsArrival.buffers =
      [[66, 0, 30, 208, 0, 0, 0, 4, 0, 0, 0, 0, 3, 0, 0, 0, 8, 0, 0, 0, 9, 64, 160, 123, 32]] := by
    rw [buffers, longOffsetsArrival, followed, handedOver, processStartCode, if_pos (by decide),
      sequenceParameterSet_eq]
    decide
  refine ⟨by decide +kernel, hrun, fun h => ?_⟩
  have hsame := (h ⟨[], 0⟩ rfl).symm.trans hrun
  exact absurd hsame (by decide)

end Arrival

end ParameterSetEscapes

end MediaFramework
