import MediaFramework.Inb.PmtParser
import Mathlib.Data.List.TakeWhile

/-!
# Descriptors of elementary streams (`rmf_InbSiMgr::SetDescriptor`)

A descriptor is appended to the first stream with its PID and its type. Two kinds of descriptors are
parsed as well. A language descriptor is taken to have four bytes. In a component name descriptor the
pointer is moved over the head of a segment, but not over its text, so that the text of a segment is
also read as the head of what follows it.

Here the section is the content of the descriptor, so that a read outside it is one outside the
content.
-/

namespace MediaFramework

namespace ComponentNames

/-! ## What is read of a content -/

section Content

variable (s : PsiSection)

/-- The heads of segments that are read: where they end. -/
def headsEnd : ℕ → ℕ → ℕ
  | 0, pos => pos
  | numSegments + 1, pos =>
    if s.value pos = 0 ∧ s.value (pos + 1) = 0 then headsEnd numSegments (pos + 3) else pos + 2

/-- The segments that are appended: where their texts begin, and their numbers of bytes. -/
def segments : ℕ → ℕ → List (ℕ × ℕ)
  | 0, _ => []
  | numSegments + 1, pos =>
    if s.value pos = 0 ∧ s.value (pos + 1) = 0 then
      (pos + 3, s.value (pos + 2)) :: segments numSegments (pos + 3)
    else []

/-- The text of a segment, up to a zero byte. -/
def text (t : ℕ × ℕ) : List UInt8 := ((s.bytes.drop t.1).take t.2).takeWhile (· ≠ 0)

/-- The text of a segment ends inside the content, or with a zero byte. -/
def TextInside (t : ℕ × ℕ) : Prop := t.1 + t.2 ≤ s.size ∨ 0 ∈ s.bytes.drop t.1

/-- The heads of the segments of a string end inside the content, and so do their texts, which are
not too long together. -/
structure StringFits (numSegments pos : ℕ) : Prop where
  heads : headsEnd s numSegments pos ≤ s.size
  texts : ∀ t ∈ segments s numSegments pos, TextInside s t
  length : ((segments s numSegments pos).flatMap (text s)).length < 1024

/-- All that is read of some strings is inside the content. -/
def StringsFit : ℕ → ℕ → Prop
  | 0, _ => True
  | numStrings + 1, pos => pos + 4 ≤ s.size ∧ StringFits s (s.value (pos + 3)) (pos + 4) ∧
      StringsFit numStrings (headsEnd s (s.value (pos + 3)) (pos + 4))

/-- The strings, as they are read, and where: what `nameStrings` goes through. -/
def readStrings : ℕ → ℕ → Except PsiStop (List (ℕ × LangString))
  | 0, _ => .ok []
  | numStrings + 1, pos => do
    let _ ← s.byte pos
    let _ ← s.byte (pos + 1)
    let _ ← s.byte (pos + 2)
    let numSegments ← s.byte (pos + 3)
    let (end_, string) ← nameSegments s numSegments (pos + 4) []
    let strings ← readStrings numStrings end_
    return (pos, ⟨languageAt s pos, string⟩) :: strings

/-- The strings of a content that fits. -/
def stringsAt : ℕ → ℕ → List (ℕ × LangString)
  | 0, _ => []
  | numStrings + 1, pos =>
    (pos, ⟨languageAt s pos,
      (segments s (s.value (pos + 3)) (pos + 4)).flatMap (text s)⟩) ::
      stringsAt numStrings (headsEnd s (s.value (pos + 3)) (pos + 4))

/-- The names that are kept of some strings: the empty ones are left out, and the last one is the
first. -/
def names (strings : List LangString) : List LangString :=
  (strings.filter fun l => decide (l.string ≠ [])).reverse

end Content

variable {s : PsiSection}

theorem le_headsEnd : ∀ k pos, pos ≤ headsEnd s k pos := by
  intro k
  induction k with
  | zero => exact fun pos => Nat.le_refl pos
  | succ k ih =>
    intro pos
    rw [headsEnd]
    split_ifs
    · have := ih (pos + 3)
      omega
    · omega

/-- `strncat` reads what it should when the text ends inside the content. -/
theorem appendSegment_iff : ∀ (n pos : ℕ) (string r : List UInt8), pos ≤ s.size →
    (appendSegment s n pos string = .ok r ↔
      TextInside s (pos, n) ∧ r = string ++ text s (pos, n)) := by
  intro n
  induction n with
  | zero =>
    intro pos string r hpos
    rw [appendSegment, text, List.take_zero, List.takeWhile_nil, List.append_nil]
    exact ⟨fun h => ⟨Or.inl hpos, (Except.ok.inj h).symm⟩, fun h => by rw [h.2]⟩
  | succ n ih =>
    intro pos string r hpos
    rw [appendSegment]
    rcases hget : s.bytes[pos]? with _ | b
    · have hout : s.bytes.length ≤ pos := List.getElem?_eq_none_iff.mp hget
      refine iff_of_false (by simp) fun h => ?_
      rcases h.1 with hle | hmem
      · dsimp only [PsiSection.size] at hle
        omega
      · rw [List.drop_eq_nil_of_le hout] at hmem
        cases hmem
    · obtain ⟨hlt, hb⟩ := List.getElem?_eq_some_iff.mp hget
      have hdrop : s.bytes.drop pos = b :: s.bytes.drop (pos + 1) := by
        rw [List.drop_eq_getElem_cons hlt, hb]
      dsimp only
      by_cases hzero : b = 0
      · rw [if_pos hzero, text, hdrop, List.take_succ_cons,
          List.takeWhile_cons_of_neg (by simp [hzero]), List.append_nil]
        refine ⟨fun h => ⟨Or.inr ?_, (Except.ok.inj h).symm⟩, fun h => by rw [h.2]⟩
        rw [hdrop, hzero]
        exact List.mem_cons_self
      · rw [if_neg hzero, ih (pos + 1) (string ++ [b]) r hlt, text, text, hdrop,
          List.take_succ_cons, List.takeWhile_cons_of_pos (by simp [hzero]), List.append_assoc]
        refine and_congr (or_congr ?_ ?_) Iff.rfl
        · omega
        · rw [hdrop, List.mem_cons]
          exact (or_iff_right (Ne.symm hzero)).symm

/-- A segment is appended when its text ends inside the content and there is a place for it. -/
theorem nameSegments_step {k pos e : ℕ} {string r : List UInt8} (h3 : pos + 3 ≤ s.size)
    (hrest : ∀ t : List UInt8, t.length < 1024 → (nameSegments s k (pos + 3) t = .ok (e, r) ↔
      headsEnd s k (pos + 3) ≤ s.size ∧ (∀ t ∈ segments s k (pos + 3), TextInside s t) ∧
      (t ++ (segments s k (pos + 3)).flatMap (text s)).length < 1024 ∧
      e = headsEnd s k (pos + 3) ∧ r = t ++ (segments s k (pos + 3)).flatMap (text s))) :
    ((do
      let string ← appendSegment s (s.value (pos + 2)) (pos + 3) string
      if 1024 ≤ string.length then .error .outside else nameSegments s k (pos + 3) string) =
        .ok (e, r) ↔
      headsEnd s k (pos + 3) ≤ s.size ∧
      (∀ t ∈ (pos + 3, s.value (pos + 2)) :: segments s k (pos + 3), TextInside s t) ∧
      (string ++ ((pos + 3, s.value (pos + 2)) :: segments s k (pos + 3)).flatMap
        (text s)).length < 1024 ∧
      e = headsEnd s k (pos + 3) ∧
      r = string ++ ((pos + 3, s.value (pos + 2)) :: segments s k (pos + 3)).flatMap (text s)) := by
  have happend := appendSegment_iff (s := s) (s.value (pos + 2)) (pos + 3) string
  rw [List.forall_mem_cons, List.flatMap_cons, ← List.append_assoc]
  rcases htext : appendSegment s (s.value (pos + 2)) (pos + 3) string with stop | t
  · rw [PsiSection.error_bind]
    refine iff_of_false (by simp) fun h => ?_
    have := (happend _ h3).mpr ⟨h.2.1.1, rfl⟩
    rw [htext] at this
    cases this
  · obtain ⟨hinside, rfl⟩ := (happend t h3).mp htext
    rw [PsiSection.ok_bind]
    split_ifs with hlong
    · refine iff_of_false (by simp) fun h => ?_
      have := h.2.2.1
      rw [List.length_append] at this
      omega
    · rw [hrest _ (by omega), and_iff_right hinside]

/-- The segments of a string are read when they fit. -/
theorem nameSegments_iff : ∀ (k pos : ℕ) (string : List UInt8) (e : ℕ) (r : List UInt8),
    pos ≤ s.size → string.length < 1024 →
    (nameSegments s k pos string = .ok (e, r) ↔
      headsEnd s k pos ≤ s.size ∧ (∀ t ∈ segments s k pos, TextInside s t) ∧
      (string ++ (segments s k pos).flatMap (text s)).length < 1024 ∧
      e = headsEnd s k pos ∧ r = string ++ (segments s k pos).flatMap (text s)) := by
  intro k
  induction k with
  | zero =>
    intro pos string e r hpos hstring
    rw [nameSegments, headsEnd, segments, List.flatMap_nil, List.append_nil]
    constructor
    · intro h
      obtain ⟨rfl, rfl⟩ := Prod.mk.inj (Except.ok.inj h)
      exact ⟨hpos, by simp, hstring, rfl, rfl⟩
    · rintro ⟨-, -, -, rfl, rfl⟩
      rfl
  | succ k ih =>
    intro pos string e r hpos hstring
    by_cases h2 : pos + 2 ≤ s.size
    · rw [nameSegments, PsiSection.byte_eq_value (by omega), PsiSection.ok_bind,
        PsiSection.byte_eq_value (by omega), PsiSection.ok_bind, headsEnd, segments]
      by_cases hzero : s.value pos = 0 ∧ s.value (pos + 1) = 0
      · rw [if_neg (by omega), if_pos hzero, if_pos hzero]
        by_cases h3 : pos + 3 ≤ s.size
        · rw [PsiSection.byte_eq_value (by omega), PsiSection.ok_bind]
          exact nameSegments_step h3 (fun t ht => ih (pos + 3) t e r h3 ht)
        · rw [PsiSection.byte_overread (by omega), PsiSection.error_bind]
          have := le_headsEnd (s := s) k (pos + 3)
          exact iff_of_false (by simp) fun h => absurd h.1 (by omega)
      · rw [if_pos (by omega), if_neg hzero, if_neg hzero, List.flatMap_nil, List.append_nil]
        constructor
        · intro h
          obtain ⟨rfl, rfl⟩ := Prod.mk.inj (Except.ok.inj h)
          exact ⟨h2, by simp, hstring, rfl, rfl⟩
        · rintro ⟨-, -, -, rfl, rfl⟩
          rfl
    · have hend : pos + 2 ≤ headsEnd s (k + 1) pos := by
        rw [headsEnd]
        have := le_headsEnd (s := s) k (pos + 3)
        split_ifs <;> omega
      refine iff_of_false (fun h => ?_) fun h => absurd h.1 (by omega)
      obtain ⟨c, -, h⟩ := PsiSection.bind_eq_ok h
      obtain ⟨m, hm, -⟩ := PsiSection.bind_eq_ok h
      have := (PsiSection.byte_eq_ok hm).1
      omega

/-! ## The strings -/

/-- **The strings are read when all that is read of them is inside the content**, and then they are
what is found there. -/
theorem readStrings_iff : ∀ (n pos : ℕ) (r : List (ℕ × LangString)),
    readStrings s n pos = .ok r ↔ StringsFit s n pos ∧ r = stringsAt s n pos := by
  intro n
  induction n with
  | zero =>
    intro pos r
    rw [readStrings, StringsFit, stringsAt, true_and]
    exact ⟨fun h => (Except.ok.inj h).symm, fun h => by rw [h]⟩
  | succ n ih =>
    intro pos r
    by_cases h4 : pos + 4 ≤ s.size
    · rw [readStrings, PsiSection.byte_eq_value (by omega), PsiSection.ok_bind,
        PsiSection.byte_eq_value (by omega), PsiSection.ok_bind,
        PsiSection.byte_eq_value (by omega), PsiSection.ok_bind,
        PsiSection.byte_eq_value (by omega), PsiSection.ok_bind, StringsFit, stringsAt]
      have hsegments := nameSegments_iff (s := s) (s.value (pos + 3)) (pos + 4) []
      rcases hnames : nameSegments s (s.value (pos + 3)) (pos + 4) [] with stop | ⟨e, string⟩
      · rw [PsiSection.error_bind]
        refine iff_of_false (by simp) fun h => ?_
        obtain ⟨⟨-, hfits, -⟩, -⟩ := h
        have := (hsegments _ _ h4 (by decide)).mpr ⟨hfits.heads, hfits.texts, hfits.length, rfl, rfl⟩
        rw [hnames] at this
        cases this
      · obtain ⟨hheads, htexts, hlength, rfl, rfl⟩ := (hsegments e string h4 (by decide)).mp hnames
        rw [PsiSection.ok_bind]
        dsimp only
        constructor
        · intro h
          obtain ⟨strings, hstrings, h⟩ := PsiSection.bind_eq_ok h
          obtain ⟨hfit, rfl⟩ := (ih _ _).mp hstrings
          exact ⟨⟨h4, ⟨hheads, htexts, hlength⟩, hfit⟩, (Except.ok.inj h).symm⟩
        · rintro ⟨⟨-, -, hfit⟩, rfl⟩
          rw [(ih _ _).mpr ⟨hfit, rfl⟩]
          rfl
    · refine iff_of_false (fun h => ?_) fun h => h4 h.1.1
      obtain ⟨-, -, h⟩ := PsiSection.bind_eq_ok h
      obtain ⟨-, -, h⟩ := PsiSection.bind_eq_ok h
      obtain ⟨-, -, h⟩ := PsiSection.bind_eq_ok h
      obtain ⟨k, hk, -⟩ := PsiSection.bind_eq_ok h
      have := (PsiSection.byte_eq_ok hk).1
      omega

theorem names_cons (l : LangString) (strings : List LangString) :
    names (l :: strings) = names strings ++ if l.string = [] then [] else [l] := by
  rw [names, names, List.filter_cons]
  split_ifs with h h' <;> simp_all

/-- The names that are kept are those of the strings that are read. -/
theorem nameStrings_eq : ∀ (n pos : ℕ) (kept : List LangString),
    nameStrings s n pos kept =
      (readStrings s n pos).map fun strings => names (strings.map Prod.snd) ++ kept := by
  intro n
  induction n with
  | zero => exact fun _ _ => rfl
  | succ n ih =>
    intro pos kept
    rw [nameStrings, readStrings]
    rcases s.byte pos with stop | b₁
    · rfl
    rcases s.byte (pos + 1) with stop | b₂
    · rfl
    rcases s.byte (pos + 2) with stop | b₃
    · rfl
    rcases s.byte (pos + 3) with stop | k
    · rfl
    rcases hnames : nameSegments s k (pos + 4) [] with stop | ⟨e, string⟩
    · simp only [PsiSection.ok_bind, hnames]
      rfl
    · simp only [PsiSection.ok_bind, hnames]
      rw [ih]
      rcases readStrings s n e with stop | strings
      · rfl
      · refine congrArg Except.ok ?_
        dsimp only
        rw [List.map_cons, names_cons]
        split_ifs <;> simp_all

end ComponentNames

/-! ## Well-formed component names -/

/-- A string of a multiple string structure: uncompressed segments in mode 0. -/
structure MssString where
  language : List UInt8
  segments : List (List UInt8)
  length_language : language.length = 3
  /-- three characters -/
  nulFree_language : (0 : UInt8) ∉ language
  length_segments : segments.length < 256
  length_segment : ∀ t ∈ segments, t.length < 256
  /-- zero ends a string -/
  nulFree : ∀ t ∈ segments, (0 : UInt8) ∉ t

/-- The bytes of some segments. -/
def segmentBytes (segments : List (List UInt8)) : List UInt8 :=
  segments.flatMap fun t => 0 :: 0 :: UInt8.ofNat t.length :: t

namespace MssString

/-- Its bytes. -/
def encode (g : MssString) : List UInt8 :=
  g.language ++ UInt8.ofNat g.segments.length :: segmentBytes g.segments

/-- Its language and its segments, one after another. -/
def name (g : MssString) : LangString := ⟨g.language, g.segments.flatten⟩

end MssString

/-- A component name descriptor. -/
structure ComponentName where
  strings : List MssString
  length_strings : strings.length < 256

/-- Its content. -/
def ComponentName.encode (d : ComponentName) : List UInt8 :=
  UInt8.ofNat d.strings.length :: d.strings.flatMap MssString.encode

namespace ComponentNames

variable {s : PsiSection}

/-- Strings, and where they are. -/
def places : ℕ → List MssString → List (ℕ × LangString)
  | _, [] => []
  | pos, g :: gs => (pos, g.name) :: places (pos + g.encode.length) gs

/-- Only the last string has text, and that in one segment. -/
def LastOnly : List MssString → Prop
  | [] => True
  | [g] => g.segments.countP (fun t => decide (t ≠ [])) ≤ 1
  | g :: gs => (∀ t ∈ g.segments, t = []) ∧ LastOnly gs

/-! ## How they are read -/

/-- How far the heads of segments are read: the first byte of a text is not zero, so that the head
behind it is not one of a segment. -/
def stops : List (List UInt8) → ℕ
  | [] => 0
  | t :: ts => if t = [] then 3 + stops ts else if ts = [] then 3 else 5

/-- The first text. -/
def firstText : List (List UInt8) → List UInt8
  | [] => []
  | t :: ts => if t = [] then firstText ts else t

theorem segmentBytes_cons (t : List UInt8) (ts : List (List UInt8)) :
    segmentBytes (t :: ts) = 0 :: 0 :: UInt8.ofNat t.length :: (t ++ segmentBytes ts) := by
  rw [segmentBytes, List.flatMap_cons]
  rfl

theorem value_of_drop {pos : ℕ} {l : List UInt8} {b : UInt8} (h : s.bytes.drop pos = l) (k : ℕ)
    (hb : l[k]? = some b) : s.value (pos + k) = b.toNat := by
  rw [PsiSection.value, ← List.getElem?_drop, h, hb]
  rfl

/-- What is read of well-formed segments. -/
theorem read_segmentBytes (rest : List UInt8) : ∀ (ts : List (List UInt8)) (pos : ℕ),
    (∀ t ∈ ts, t.length < 256) → (∀ t ∈ ts, (0 : UInt8) ∉ t) →
    s.bytes.drop pos = segmentBytes ts ++ rest →
    headsEnd s ts.length pos = pos + stops ts ∧
      (segments s ts.length pos).flatMap (text s) = firstText ts := by
  intro ts
  induction ts with
  | nil =>
    intro pos _ _ _
    exact ⟨rfl, rfl⟩
  | cons t ts ih =>
    intro pos hlen hnul hdrop
    have ht := hlen t List.mem_cons_self
    have htnul := hnul t List.mem_cons_self
    rw [segmentBytes_cons] at hdrop
    have hc : s.value pos = 0 := value_of_drop hdrop 0 rfl
    have hm : s.value (pos + 1) = 0 := value_of_drop hdrop 1 rfl
    have hn : s.value (pos + 2) = t.length := by
      rw [value_of_drop hdrop 2 rfl, UInt8.toNat_ofNat', Nat.mod_eq_of_lt ht]
    have hnext : s.bytes.drop (pos + 3) = t ++ (segmentBytes ts ++ rest) := by
      rw [← List.drop_drop, hdrop]
      simp
    have htext : text s (pos + 3, t.length) = t := by
      rw [text, hnext, List.take_left]
      exact List.takeWhile_eq_self_iff.mpr fun b hb => by
        simpa using fun h : b = 0 => htnul (h ▸ hb)
    rw [List.length_cons, headsEnd, segments, if_pos ⟨hc, hm⟩, if_pos ⟨hc, hm⟩, hn,
      List.flatMap_cons, htext, stops, firstText]
    rcases t with _ | ⟨b, t⟩
    · obtain ⟨hend, hfirst⟩ := ih (pos + 3) (fun t ht => hlen t (List.mem_cons_of_mem _ ht))
        (fun t ht => hnul t (List.mem_cons_of_mem _ ht)) hnext
      rw [hend, hfirst, if_pos rfl, if_pos rfl, List.nil_append, Nat.add_assoc]
      exact ⟨rfl, rfl⟩
    · rw [if_neg (List.cons_ne_nil b t), if_neg (List.cons_ne_nil b t)]
      -- the text is read as the head of the next segment, and that is not one of mode 0
      have hb : ¬(s.value (pos + 3) = 0 ∧ s.value (pos + 3 + 1) = 0) := by
        intro h
        have hvalue : s.value (pos + 3) = b.toNat := value_of_drop hnext 0 rfl
        refine htnul (List.mem_cons.mpr (Or.inl (UInt8.toNat_inj.mp ?_)))
        rw [← hvalue, h.1]
        rfl
      rcases ts with _ | ⟨u, ts⟩
      · exact ⟨rfl, List.append_nil _⟩
      · rw [List.length_cons, headsEnd, segments, if_neg hb, if_neg hb, if_neg (by simp),
          List.flatMap_nil, List.append_nil]
        exact ⟨rfl, rfl⟩

/-- The heads are read up to the end of the segments when there is no text. -/
theorem stops_eq_iff : ∀ ts : List (List UInt8),
    stops ts = (segmentBytes ts).length ↔ ∀ t ∈ ts, t = [] := by
  intro ts
  induction ts with
  | nil => simp [stops, segmentBytes]
  | cons t ts ih =>
    rw [stops, segmentBytes_cons, List.forall_mem_cons]
    simp only [List.length_cons, List.length_append]
    by_cases ht : t = []
    · rw [if_pos ht, and_iff_right ht, ← ih, ht, List.length_nil]
      omega
    · have hlength := List.length_pos_iff.mpr ht
      rw [if_neg ht]
      refine iff_of_false ?_ fun h => ht h.1
      rcases ts with _ | ⟨u, ts⟩
      · rw [if_pos rfl]
        omega
      · rw [if_neg (List.cons_ne_nil u ts), segmentBytes_cons]
        simp only [List.length_cons]
        omega

/-- The first text is all the text when there is no other. -/
theorem firstText_eq_iff : ∀ ts : List (List UInt8),
    firstText ts = ts.flatten ↔ ts.countP (fun t => decide (t ≠ [])) ≤ 1 := by
  intro ts
  induction ts with
  | nil => simp [firstText]
  | cons t ts ih =>
    rw [firstText, List.flatten_cons, List.countP_cons]
    by_cases ht : t = []
    · rw [if_pos ht, ht, List.nil_append, ih, if_neg (by simp), Nat.add_zero]
    · rw [if_neg ht, if_pos (by simpa using ht)]
      have hnone : ts.countP (fun t => decide (t ≠ [])) + 1 ≤ 1 ↔
          ts.countP (fun t => decide (t ≠ [])) = 0 := by omega
      rw [List.self_eq_append_right, List.flatten_eq_nil_iff, hnone, List.countP_eq_zero]
      simp

/-- What is read of a well-formed string. -/
theorem read_string {g : MssString} {pos : ℕ} {rest : List UInt8}
    (hdrop : s.bytes.drop pos = g.encode ++ rest) :
    s.value (pos + 3) = g.segments.length ∧ languageAt s pos = g.language ∧
      headsEnd s g.segments.length (pos + 4) = pos + 4 + stops g.segments ∧
      (segments s g.segments.length (pos + 4)).flatMap (text s) = firstText g.segments := by
  rw [MssString.encode, List.append_assoc, List.cons_append] at hdrop
  have hcount : s.value (pos + 3) = g.segments.length := by
    rw [value_of_drop hdrop 3 (b := UInt8.ofNat g.segments.length)
      (by rw [← g.length_language]; simp), UInt8.toNat_ofNat', Nat.mod_eq_of_lt g.length_segments]
  have hnext : s.bytes.drop (pos + 4) = segmentBytes g.segments ++ rest := by
    rw [show pos + 4 = pos + g.language.length + 1 by rw [g.length_language], ← List.drop_drop,
      ← List.drop_drop, hdrop, List.drop_left]
    rfl
  obtain ⟨hend, htext⟩ := read_segmentBytes rest g.segments (pos + 4) g.length_segment g.nulFree
    hnext
  refine ⟨hcount, ?_, hend, htext⟩
  rw [languageAt, hdrop, ← g.length_language, List.take_left]
  exact List.takeWhile_eq_self_iff.mpr fun b hb =>
    decide_eq_true fun h => g.nulFree_language (h ▸ hb)

/-- **The strings are read at their places when only the last one has text, and that in one
segment.** -/
theorem stringsAt_eq_iff : ∀ (gs : List MssString) (pos : ℕ),
    s.bytes.drop pos = gs.flatMap MssString.encode →
    (stringsAt s gs.length pos = places pos gs ↔ LastOnly gs) := by
  intro gs
  induction gs with
  | nil => exact fun _ _ => iff_of_true rfl trivial
  | cons g gs ih =>
    intro pos hdrop
    rw [List.flatMap_cons] at hdrop
    obtain ⟨hcount, hlanguage, hend, htext⟩ := read_string hdrop
    have hlength : g.encode.length = 4 + (segmentBytes g.segments).length := by
      rw [MssString.encode, List.length_append, List.length_cons, g.length_language]
      omega
    rw [List.length_cons, stringsAt, places, hcount, hlanguage, hend, htext, List.cons.injEq,
      MssString.name, Prod.mk.injEq, and_iff_right rfl, LangString.mk.injEq, and_iff_right rfl,
      firstText_eq_iff]
    rcases gs with _ | ⟨g', gs⟩
    · rw [LastOnly]
      exact and_iff_left rfl
    · rw [LastOnly, ← stops_eq_iff]
      swap
      · exact List.cons_ne_nil g' gs
      by_cases hstops : stops g.segments = (segmentBytes g.segments).length
      · have hempty := (stops_eq_iff g.segments).mp hstops
        have hnone : g.segments.countP (fun t => decide (t ≠ [])) ≤ 1 := by
          rw [List.countP_eq_zero.mpr (by simpa using hempty)]
          exact Nat.zero_le 1
        have hnext : s.bytes.drop (pos + g.encode.length) =
            (g' :: gs).flatMap MssString.encode := by
          rw [← List.drop_drop, hdrop, List.drop_left]
        rw [and_iff_right hnone, and_iff_right hstops, hstops, Nat.add_assoc, ← hlength]
        exact ih _ hnext
      · refine iff_of_false (fun h => hstops ?_) fun h => hstops h.1
        have hpos := h.2
        rw [List.length_cons, stringsAt, places, List.cons.injEq, Prod.mk.injEq] at hpos
        omega

/-! ## What a descriptor does to a stream -/

/-- What a descriptor should do to the stream it is for: it is kept as it is, and when it is a
well-formed component name descriptor, the names that are not empty are kept, the last one first. -/
structure Described (s : PsiSection) (tag : ℕ) (e e' : ElementaryStream) : Prop where
  descriptors : e'.descriptors = e.descriptors ++ [⟨tag, s.bytes⟩]
  pid : e'.elementary_PID = e.elementary_PID
  type : e'.elementary_stream_type = e.elementary_stream_type
  names : tag = 0xA3 → ∀ d : ComponentName, s.bytes = d.encode →
    e'.service_component_names = names (d.strings.map MssString.name)

/-- What `SetDescriptor` should do to the streams: all that is read is inside the content, and the
first stream with the PID and the type is the only one that changes. -/
def Sets (s : PsiSection) (pid type tag : ℕ) (streams : List ElementaryStream) : Prop :=
  ∃ streams', setDescriptor s pid type tag s.size 0 streams = .ok streams' ∧
    ((∀ e ∈ streams, e.isFor pid type = false) → streams' = streams) ∧
    ∀ before e after, streams = before ++ e :: after →
      (∀ e ∈ before, e.isFor pid type = false) → e.isFor pid type = true →
      ∃ e', streams' = before ++ e' :: after ∧ Described s tag e e'

/-- The strings of a well-formed component name descriptor are read as they are, and each is read
where it is. -/
def InPlace (s : PsiSection) : Prop :=
  ∀ d : ComponentName, s.bytes = d.encode →
    readStrings s d.strings.length 1 = .ok (places 1 d.strings)

/-- The contents a stream can be described by. A language descriptor is none or has four bytes; in
component names all that the heads lead to is inside, and when they are well-formed, only the last
string has text, and that in one segment. -/
def Sound (s : PsiSection) (tag : ℕ) : Prop :=
  (tag = 0x0A → 0 < s.size → 4 ≤ s.size) ∧
    (tag = 0xA3 → 0 < s.size ∧ StringsFit s (s.value 0) 1 ∧
      ∀ d : ComponentName, s.bytes = d.encode → LastOnly d.strings)

/-- The streams go one by one up to the one that is changed. -/
theorem setDescriptor_of_first {pid type : ℕ} {e : ElementaryStream} (tag length pos : ℕ)
    (after : List ElementaryStream) (he : e.isFor pid type = true) :
    ∀ before : List ElementaryStream, (∀ e ∈ before, e.isFor pid type = false) →
      setDescriptor s pid type tag length pos (before ++ e :: after) =
        (e.describe s tag length pos).map fun e' => before ++ e' :: after := by
  intro before
  induction before with
  | nil =>
    intro _
    rw [List.nil_append, setDescriptor, if_pos he]
    rfl
  | cons x before ih =>
    intro hbefore
    rw [List.forall_mem_cons] at hbefore
    rw [List.cons_append, setDescriptor, if_neg (by simp [hbefore.1]), ih hbefore.2]
    rcases e.describe s tag length pos with stop | e' <;> rfl

/-- No stream is changed when none has the PID and the type. -/
theorem setDescriptor_of_none {pid type tag length pos : ℕ} :
    ∀ streams : List ElementaryStream, (∀ e ∈ streams, e.isFor pid type = false) →
      setDescriptor s pid type tag length pos streams = .ok streams := by
  intro streams
  induction streams with
  | nil => exact fun _ => rfl
  | cons x streams ih =>
    intro hnone
    rw [List.forall_mem_cons] at hnone
    rw [setDescriptor, if_neg (by simp [hnone.1]), ih hnone.2]
    rfl

/-- The number of strings of a well-formed descriptor. -/
theorem value_zero {d : ComponentName} (hd : s.bytes = d.encode) :
    s.value 0 = d.strings.length := by
  rw [PsiSection.value, hd, ComponentName.encode]
  exact (UInt8.toNat_ofNat' ..).trans (Nat.mod_eq_of_lt d.length_strings)

theorem copy_size : s.copy 0 s.size = .ok s.bytes := by
  rw [PsiSection.copy, if_pos (by omega), List.drop_zero, PsiSection.size, List.take_length]

/-- The names of a descriptor are those of the strings that are read, when they fit. -/
theorem componentNames_iff {r : List LangString} : componentNames s 0 = .ok r ↔
    0 < s.size ∧ StringsFit s (s.value 0) 1 ∧
      r = names ((stringsAt s (s.value 0) 1).map Prod.snd) := by
  rw [componentNames]
  by_cases hpos : 0 < s.size
  · rw [PsiSection.byte_eq_value hpos, PsiSection.ok_bind, nameStrings_eq, and_iff_right hpos]
    have hread := readStrings_iff (s := s) (s.value 0) 1
    rcases hstrings : readStrings s (s.value 0) 1 with stop | strings
    · refine iff_of_false (fun h => nomatch h) fun h => ?_
      have := (hread _).mpr ⟨h.1, rfl⟩
      rw [hstrings] at this
      cases this
    · obtain ⟨hfit, rfl⟩ := (hread strings).mp hstrings
      rw [and_iff_right hfit, Except.map, List.append_nil]
      exact ⟨fun h => (Except.ok.inj h).symm, fun h => by rw [h]⟩
  · rw [PsiSection.byte_overread (by omega), PsiSection.error_bind]
    exact iff_of_false (fun h => nomatch h) fun h => hpos h.1

/-- What a stream is after a descriptor that is read. -/
theorem describe_eq_ok {e e' : ElementaryStream} {tag : ℕ}
    (h : e.describe s tag s.size 0 = .ok e') :
    e'.descriptors = e.descriptors ++ [⟨tag, s.bytes⟩] ∧ e'.elementary_PID = e.elementary_PID ∧
      e'.elementary_stream_type = e.elementary_stream_type ∧
      (tag = 0x0A → 0 < s.size → 4 ≤ s.size) ∧
      (tag = 0xA3 → componentNames s 0 = .ok e'.service_component_names) := by
  obtain ⟨language, hlanguage, h⟩ := PsiSection.bind_eq_ok h
  obtain ⟨kept, hnames, h⟩ := PsiSection.bind_eq_ok h
  rw [copy_size, PsiSection.ok_bind] at h
  obtain rfl := Except.ok.inj h
  refine ⟨rfl, rfl, rfl, fun htag hpos => ?_, fun htag => ?_⟩
  · rw [ElementaryStream.languageAfter, if_pos ⟨htag, hpos⟩, PsiSection.copy] at hlanguage
    split_ifs at hlanguage with h4
    omega
  · rw [ElementaryStream.namesAfter, if_pos htag] at hnames
    exact hnames

/-- A descriptor is read when the language is, and the names are. -/
theorem exists_describe (e : ElementaryStream) {tag : ℕ}
    (hlanguage : tag = 0x0A → 0 < s.size → 4 ≤ s.size)
    (hnames : tag = 0xA3 → ∃ r, componentNames s 0 = .ok r) :
    ∃ e', e.describe s tag s.size 0 = .ok e' := by
  have hl : ∃ l, e.languageAfter s tag s.size 0 = .ok l := by
    rw [ElementaryStream.languageAfter]
    split_ifs with h
    · rw [PsiSection.copy, if_pos (by have := hlanguage h.1 h.2; omega)]
      exact ⟨_, rfl⟩
    · exact ⟨_, rfl⟩
  have hn : ∃ r, e.namesAfter s tag 0 = .ok r := by
    rw [ElementaryStream.namesAfter]
    split_ifs with h
    · exact hnames h
    · exact ⟨_, rfl⟩
  obtain ⟨l, hl⟩ := hl
  obtain ⟨r, hn⟩ := hn
  rw [ElementaryStream.describe, hl, PsiSection.ok_bind, hn, PsiSection.ok_bind, copy_size]
  exact ⟨_, rfl⟩

/-- The strings of a well-formed descriptor that fits are read in place when only the last one has
text. -/
theorem readStrings_encode {d : ComponentName} (hd : s.bytes = d.encode)
    (hfit : StringsFit s (s.value 0) 1) :
    readStrings s d.strings.length 1 = .ok (places 1 d.strings) ↔ LastOnly d.strings := by
  have hdrop : s.bytes.drop 1 = d.strings.flatMap MssString.encode := by
    rw [hd]
    rfl
  rw [value_zero hd] at hfit
  rw [readStrings_iff, and_iff_right hfit, eq_comm, stringsAt_eq_iff _ _ hdrop]

theorem places_map_snd : ∀ (gs : List MssString) (pos : ℕ),
    (places pos gs).map Prod.snd = gs.map MssString.name := by
  intro gs
  induction gs with
  | nil => exact fun _ => rfl
  | cons g gs ih => exact fun pos => congrArg (g.name :: ·) (ih _)

/-- Of a content that is sound the names are those of the strings. -/
theorem described_of_sound {tag : ℕ} {e e' : ElementaryStream} (hsound : Sound s tag)
    (h : e.describe s tag s.size 0 = .ok e') : Described s tag e e' := by
  obtain ⟨hdescriptors, hpid, htype, -, hnames⟩ := describe_eq_ok h
  refine ⟨hdescriptors, hpid, htype, fun htag d hd => ?_⟩
  obtain ⟨-, hfit, hkept⟩ := componentNames_iff.mp (hnames htag)
  have hread := (readStrings_encode hd hfit).mpr ((hsound.2 htag).2.2 d hd)
  rw [hkept, value_zero hd, ← ((readStrings_iff _ _ _).mp hread).2, places_map_snd]

/-- **A descriptor is read from its content, kept by the first stream it is for, and its strings are
read in place, exactly when its content is sound** or there is no stream it is for. -/
theorem sets_iff (s : PsiSection) (pid type tag : ℕ) (streams : List ElementaryStream) :
    (Sets s pid type tag streams ∧
      ((∃ e ∈ streams, e.isFor pid type = true) → tag = 0xA3 → InPlace s)) ↔
    ((∃ e ∈ streams, e.isFor pid type = true) → Sound s tag) := by
  by_cases hfor : ∃ e ∈ streams, e.isFor pid type = true
  · rw [forall_prop_of_true hfor, forall_prop_of_true hfor]
    obtain ⟨x, hx⟩ := Option.isSome_iff_exists.mp (List.find?_isSome.mpr hfor)
    obtain ⟨hxfor, before, after, rfl, hbefore⟩ := List.find?_eq_some_iff_append.mp hx
    have hfirst := setDescriptor_of_first (s := s) tag s.size 0 after hxfor before (by simpa using hbefore)
    constructor
    · rintro ⟨⟨streams', hset, -⟩, hplace⟩
      rw [hfirst] at hset
      rcases hdescribe : x.describe s tag s.size 0 with stop | x'
      · rw [hdescribe] at hset
        cases hset
      · obtain ⟨-, -, -, hlanguage, hnames⟩ := describe_eq_ok hdescribe
        refine ⟨hlanguage, fun htag => ?_⟩
        obtain ⟨hpos, hfit, -⟩ := componentNames_iff.mp (hnames htag)
        exact ⟨hpos, hfit, fun d hd => (readStrings_encode hd hfit).mp (hplace htag d hd)⟩
    · intro hsound
      have hread : ∀ e : ElementaryStream, ∃ e', e.describe s tag s.size 0 = .ok e' := fun e =>
        exists_describe e hsound.1 fun htag =>
          ⟨_, componentNames_iff.mpr ⟨(hsound.2 htag).1, (hsound.2 htag).2.1, rfl⟩⟩
      refine ⟨?_, fun htag d hd =>
        (readStrings_encode hd (hsound.2 htag).2.1).mpr ((hsound.2 htag).2.2 d hd)⟩
      obtain ⟨x', hx'⟩ := hread x
      refine ⟨before ++ x' :: after, by rw [hfirst, hx']; rfl, fun hnone => ?_, ?_⟩
      · have := hnone x (List.mem_append_right before List.mem_cons_self)
        rw [hxfor] at this
        cases this
      · intro before₁ e after₁ hstreams hbefore₁ he
        have hsame := setDescriptor_of_first (s := s) tag s.size 0 after₁ he before₁ hbefore₁
        obtain ⟨e', he'⟩ := hread e
        rw [← hstreams, hfirst, hx', he'] at hsame
        exact ⟨e', Except.ok.inj hsame, described_of_sound hsound he'⟩
  · rw [forall_prop_of_false hfor, forall_prop_of_false hfor, and_true, iff_true]
    have hnone : ∀ e ∈ streams, e.isFor pid type = false := by simpa using hfor
    refine ⟨streams, setDescriptor_of_none streams hnone, fun _ => rfl, ?_⟩
    rintro before e after rfl - he
    have := hnone e (List.mem_append_right before List.mem_cons_self)
    rw [he] at this
    cases this

/-- The names "a" in English and "b" in French. -/
def twoNames : ComponentName where
  strings := [
    ⟨[0x65, 0x6E, 0x67], [[0x61]], rfl, by decide, by decide, by decide, by decide⟩,
    ⟨[0x66, 0x72, 0x61], [[0x62]], rfl, by decide, by decide, by decide, by decide⟩]
  length_strings := by decide

/-- Their descriptor. -/
def twoNamesContent : PsiSection := ⟨twoNames.encode, by decide⟩

/-- An audio stream without descriptors. -/
def audioStream : ElementaryStream := ⟨0x81, 0x21, 0, [], [0, 0, 0, 0], []⟩

/-- The second name is lost: its string is looked for at the text of the first one. -/
theorem not_sets_twoNames : ¬Sets twoNamesContent 0x21 0x81 0xA3 [audioStream] := by
  rintro ⟨streams', hset, -, hfirst⟩
  obtain ⟨e', rfl, hdescribed⟩ := hfirst [] audioStream [] rfl (by simp) rfl
  have hread : setDescriptor twoNamesContent 0x21 0x81 0xA3 twoNamesContent.size 0 [audioStream] =
      .ok [{ audioStream with
        descriptors := [⟨0xA3, twoNames.encode⟩]
        service_component_names := [⟨[0x65, 0x6E, 0x67], [0x61]⟩] }] := by decide
  obtain rfl := List.head_eq_of_cons_eq (Except.ok.inj (hread.symm.trans hset))
  exact absurd (hdescribed.names rfl twoNames rfl) (by decide)

end ComponentNames

end MediaFramework
