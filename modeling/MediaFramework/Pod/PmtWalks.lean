import MediaFramework.Pod.PmtTable

/-!
# The two walks over a PMT

The streams of a section fit (`StreamsFit`) if every one whose fields are not all in the buffer is
the last one the second walk comes to, and its descriptors fit (`DescriptorsFit`) if those that are
copied are inside the others and the buffer. Then, and only then, the second walk writes no more
streams than the first one has counted (`parseStreamsFrom_iff`).
-/

namespace MediaFramework

namespace VlTablePMT

variable {m : DataModel} {buf s : List UInt8} {L p n mk k len rounds : ℕ}
  {list : List VlCondAccessesDescsInfo}

theorem bind_of {α β : Type} {x : PmtRead α} {f : α → PmtRead β} {b b' : VlSimpleBitstream} {a : α}
    (h : x b = some (a, b')) : (x >>= f) b = f a b' := by
  change (x b).bind _ = _
  rw [h]
  rfl

/-! ## Descriptors -/

/-- The descriptors from an octet on can be read, and those that are copied are inside. -/
inductive DescriptorsFit (s : List UInt8) (len : ℕ) : ℕ → Prop
  | done {k : ℕ} : len ≤ k → DescriptorsFit s len k
  | last {k : ℕ} {tag : UInt8} : k + 1 = len → s[k]? = some tag → tag.toNat ≠ descCondAccess →
      DescriptorsFit s len k
  | next {k : ℕ} {tag size : UInt8} : k + 1 < len → s[k]? = some tag → s[k + 1]? = some size →
      (tag.toNat = descCondAccess → k + 2 + size.toNat ≤ len ∧ k + 2 + size.toNat ≤ s.length) →
      DescriptorsFit s len (k + 2 + size.toNat) → DescriptorsFit s len k

/-- The descriptors are where they were said to be. -/
def Inside (len : ℕ) (list : List VlCondAccessesDescsInfo) : Prop :=
  ∀ d ∈ list, d.place + d.condAccessesRawBuff.length ≤ len

theorem inside_nil : Inside len [] := fun _ hd => by cases hd

theorem inside_concat {d : VlCondAccessesDescsInfo} :
    Inside len (list ++ [d]) ↔ Inside len list ∧ d.place + d.condAccessesRawBuff.length ≤ len := by
  simp only [Inside, List.mem_append, List.mem_singleton, or_imp, forall_and, forall_eq]

theorem parseDescriptorsFrom_done (h : len ≤ k) :
    parseDescriptorsFrom m s len rounds list (stream s len (8 * k) 0) =
      some (list, stream s len (8 * k) 0) := by
  have hpos : ¬8 * k < len * 8 := by omega
  cases rounds
  · rw [parseDescriptorsFrom, bind_of rfl]
    exact congrFun (if_neg hpos) _
  · rw [parseDescriptorsFrom, bind_of rfl]
    exact congrFun (if_neg hpos) _

/-- The rest of a round, when the tag and the size were read. -/
theorem copyDescriptor_bind (ptr : ℕ) (tag size : UInt8) (hsmall : 8 * ptr < 2 ^ 31) :
    ((liftM (copyDescriptor s (8 * k / 8) (8 * ptr / 8) tag.toNat size.toNat list) :
      PmtRead (List VlCondAccessesDescsInfo)) >>= fun list => do
        skipBits m (size.toNat * 8)
        parseDescriptorsFrom m s len rounds list) (stream s len (8 * ptr) 0) =
      (copyDescriptor s k ptr tag.toNat size.toNat list).bind fun list =>
        parseDescriptorsFrom m s len rounds list (stream s len (8 * (ptr + size.toNat)) 0) := by
  have hskip : skipBits m (size.toNat * 8) (stream s len (8 * ptr) 0) =
      some ((), stream s len (8 * (ptr + size.toNat)) 0) := by
    have hsize := size.toNat_lt
    rw [skipBits_stream (by omega), Nat.mul_add, Nat.mul_comm size.toNat]
  rw [Nat.mul_div_cancel_left k (by decide), Nat.mul_div_cancel_left ptr (by decide)]
  cases copyDescriptor s k ptr tag.toNat size.toNat list with
  | none => rfl
  | some list =>
    rw [bind_of rfl, bind_of hskip]
    rfl

/-- A round with a tag and a size. -/
theorem parseDescriptorsFrom_next (hk : k + 1 < len) (hlen : len < 2 ^ 12) :
    parseDescriptorsFrom m s len (rounds + 1) list (stream s len (8 * k) 0) =
      s[k]?.bind fun tag => s[k + 1]?.bind fun size =>
        (copyDescriptor s k (k + 2) tag.toNat size.toNat list).bind fun list =>
          parseDescriptorsFrom m s len rounds list (stream s len (8 * (k + 2 + size.toNat)) 0) := by
  have hpos : 8 * k < len * 8 := by omega
  rw [parseDescriptorsFrom, bind_of rfl]
  refine (congrFun (if_pos hpos) _).trans ?_
  change ((getBits m 8) (stream s len (8 * k) 0)).bind _ = _
  rw [getBits_octet (k := k) (by omega) (by omega)]
  cases s[k]? with
  | none => rfl
  | some tag =>
    change ((getBits m 8) (stream s len (8 * (k + 1)) 0)).bind _ = _
    rw [getBits_octet hk (by omega)]
    cases s[k + 1]? with
    | none => rfl
    | some size => exact copyDescriptor_bind (k + 2) tag size (by omega)

/-- The last octet is a tag. -/
theorem parseDescriptorsFrom_last (hk : k + 1 = len) (hlen : len < 2 ^ 12) :
    parseDescriptorsFrom m s len (rounds + 1) list (stream s len (8 * k) 0) =
      s[k]?.bind fun tag => (copyDescriptor s k (k + 1) tag.toNat 0 list).bind fun list =>
        parseDescriptorsFrom m s len rounds list (stream s len (8 * (k + 1)) 0) := by
  have hpos : 8 * k < len * 8 := by omega
  rw [parseDescriptorsFrom, bind_of rfl]
  refine (congrFun (if_pos hpos) _).trans ?_
  change ((getBits m 8) (stream s len (8 * k) 0)).bind _ = _
  rw [getBits_octet (k := k) (by omega) (by omega)]
  cases htag : s[k]? with
  | none => rfl
  | some tag =>
    obtain ⟨hs, -⟩ := List.getElem?_eq_some_iff.mp htag
    have hsize : getBits m 8 (stream s len (8 * (k + 1)) 0) =
        some (0, stream s len (8 * (k + 1)) 0) := by
      rw [getBits_stream (hk ▸ hs) (by decide) (by decide) (by omega)
        (.inr ((by omega : 8 * len ≤ 8 * (k + 1)).trans (VlSimpleBitstream.le_lastRound _ _))),
        bitsWithin, if_neg (by omega), advance, Nat.min_eq_right (by omega),
        Nat.max_eq_left (by omega)]
    change (getBits m 8 (stream s len (8 * (k + 1)) 0)).bind _ = _
    rw [hsize]
    exact copyDescriptor_bind (k + 1) tag 0 (by omega)

/-- What is copied is where it should be, and inside the others. -/
theorem copyDescriptor_iff {ptr tag size : ℕ} (hlist : Inside len list)
    (hptr : ptr ≤ s.length) :
    (∃ list', copyDescriptor s k ptr tag size list = some list' ∧ Inside len list') ↔
      (tag = descCondAccess →
        k + 2 + size ≤ len ∧ ptr + size ≤ s.length) := by
  rw [copyDescriptor]
  by_cases htag : tag = descCondAccess
  · rw [if_pos htag, octets]
    by_cases hmem : ptr + size ≤ s.length
    · have hdata : ((s.drop ptr).take size).length = size := by
        rw [List.length_take, List.length_drop]
        omega
      rw [if_pos hmem]
      simp only [Option.map_some, Option.some.injEq, exists_eq_left', inside_concat, hlist, hdata,
        List.length_cons, htag, hmem, true_and, and_true, forall_const]
      omega
    · rw [if_neg hmem]
      refine iff_of_false ?_ fun h => hmem (h htag).2
      rintro ⟨list', hlist', -⟩
      cases hlist'
  · rw [if_neg htag]
    exact iff_of_true ⟨list, rfl, hlist⟩ fun h => absurd h htag

/-- What was inside of a longer list. -/
theorem inside_of_copyDescriptor {ptr tag size : ℕ} {list' : List VlCondAccessesDescsInfo}
    (h : copyDescriptor s k ptr tag size list = some list') (hin : Inside len list') :
    Inside len list := by
  rw [copyDescriptor] at h
  split_ifs at h
  · obtain ⟨data, -, rfl⟩ := Option.map_eq_some_iff.mp h
    exact (inside_concat.mp hin).1
  · cases h
    exact hin

theorem inside_of_parseDescriptorsFrom (hlen : len < 2 ^ 12)
    {list' : List VlCondAccessesDescsInfo} {b : VlSimpleBitstream}
    (h : parseDescriptorsFrom m s len rounds list (stream s len (8 * k) 0) = some (list', b))
    (hin : Inside len list') : Inside len list := by
  induction rounds generalizing k list with
  | zero =>
    by_cases hdone : len ≤ k
    · rw [parseDescriptorsFrom_done hdone] at h
      obtain ⟨rfl, -⟩ := Prod.mk.inj (Option.some.inj h)
      exact hin
    · have hpos : 8 * k < len * 8 := by omega
      have hnone : parseDescriptorsFrom m s len 0 list (stream s len (8 * k) 0) = none := by
        rw [parseDescriptorsFrom, bind_of rfl]
        exact congrFun (if_pos hpos) _
      rw [hnone] at h
      cases h
  | succ rounds ih =>
    rcases Nat.lt_trichotomy (k + 1) len with hk | hk | hk
    · rw [parseDescriptorsFrom_next hk hlen] at h
      obtain ⟨tag, -, h⟩ := Option.bind_eq_some_iff.mp h
      obtain ⟨size, -, h⟩ := Option.bind_eq_some_iff.mp h
      obtain ⟨next, hnext, h⟩ := Option.bind_eq_some_iff.mp h
      exact inside_of_copyDescriptor hnext (ih h)
    · rw [parseDescriptorsFrom_last hk hlen] at h
      obtain ⟨tag, -, h⟩ := Option.bind_eq_some_iff.mp h
      obtain ⟨next, hnext, h⟩ := Option.bind_eq_some_iff.mp h
      exact inside_of_copyDescriptor hnext (ih h)
    · rw [parseDescriptorsFrom_done (by omega)] at h
      obtain ⟨rfl, -⟩ := Prod.mk.inj (Option.some.inj h)
      exact hin

/-- **The descriptors** that are copied are inside just if they fit. -/
theorem parseDescriptorsFrom_iff (hlen : len < 2 ^ 12) (hrounds : len ≤ k + rounds)
    (hlist : Inside len list) :
    (∃ list' b, parseDescriptorsFrom m s len rounds list (stream s len (8 * k) 0) =
      some (list', b) ∧ Inside len list') ↔ DescriptorsFit s len k := by
  induction rounds generalizing k list with
  | zero =>
    rw [parseDescriptorsFrom_done (by omega)]
    exact iff_of_true ⟨list, _, rfl, hlist⟩ (.done (by omega))
  | succ rounds ih =>
    rcases Nat.lt_trichotomy (k + 1) len with hk | hk | hk
    · rw [parseDescriptorsFrom_next hk hlen]
      constructor
      · rintro ⟨list', b, h, hin⟩
        obtain ⟨tag, htag, h⟩ := Option.bind_eq_some_iff.mp h
        obtain ⟨size, hsize, h⟩ := Option.bind_eq_some_iff.mp h
        obtain ⟨next, hnext, h⟩ := Option.bind_eq_some_iff.mp h
        obtain ⟨hmem, -⟩ := List.getElem?_eq_some_iff.mp hsize
        have hinside := inside_of_parseDescriptorsFrom hlen h hin
        exact .next hk htag hsize ((copyDescriptor_iff hlist hmem).mp ⟨next, hnext, hinside⟩)
          ((ih (by omega) hinside).mp ⟨list', b, h, hin⟩)
      · intro h
        cases h with
        | done hdone => omega
        | last hlast => omega
        | @next _ tag size _ htag hsize hcopy hrest =>
          obtain ⟨hmem, -⟩ := List.getElem?_eq_some_iff.mp hsize
          obtain ⟨next, hnext, hinside⟩ := (copyDescriptor_iff hlist hmem).mpr hcopy
          obtain ⟨list', b, h, hin⟩ := (ih (by omega) hinside).mpr hrest
          refine ⟨list', b, ?_, hin⟩
          rw [htag, hsize, Option.bind_some, Option.bind_some, hnext, Option.bind_some, h]
    · rw [parseDescriptorsFrom_last hk hlen]
      constructor
      · rintro ⟨list', b, h, hin⟩
        obtain ⟨tag, htag, h⟩ := Option.bind_eq_some_iff.mp h
        obtain ⟨next, hnext, h⟩ := Option.bind_eq_some_iff.mp h
        obtain ⟨hmem, -⟩ := List.getElem?_eq_some_iff.mp htag
        have hinside := inside_of_parseDescriptorsFrom hlen h hin
        refine .last hk htag fun heq => ?_
        have := ((copyDescriptor_iff hlist hmem).mp ⟨next, hnext, hinside⟩ heq).1
        omega
      · intro h
        cases h with
        | done hdone => omega
        | @last _ tag _ htag hne =>
          obtain ⟨hmem, -⟩ := List.getElem?_eq_some_iff.mp htag
          have hsucc : k + 1 ≤ s.length := hmem
          obtain ⟨next, hnext, hinside⟩ := (copyDescriptor_iff hlist hsucc).mpr
            fun (heq : tag.toNat = descCondAccess) => absurd heq hne
          obtain ⟨list', b, h, hin⟩ := (ih (k := k + 1) (by omega) hinside).mpr (.done (by omega))
          refine ⟨list', b, ?_, hin⟩
          rw [htag, Option.bind_some, hnext, Option.bind_some, h]
        | next hnext => omega
    · rw [parseDescriptorsFrom_done (by omega)]
      exact iff_of_true ⟨list, _, rfl, hlist⟩ (.done (by omega))

/-- The descriptors from their first one on. -/
theorem parseDescriptors_iff (hlen : len < 2 ^ 12) :
    (∃ list, parseDescriptors m s len = some list ∧ Inside len list) ↔ DescriptorsFit s len 0 := by
  have hmod : len % 2 ^ (m.longBits - 3) = len := 
    Nat.mod_eq_of_lt (hlen.trans_le (by cases m <;> decide))
  have hiff := parseDescriptorsFrom_iff (m := m) (s := s) (k := 0) hlen (Nat.le_add_left len 0)
    inside_nil
  rw [← hiff, parseDescriptors, create_eq, hmod]
  constructor
  · rintro ⟨list, h, hin⟩
    obtain ⟨⟨list', b⟩, hlist', rfl⟩ := Option.map_eq_some_iff.mp h
    exact ⟨list', b, hlist', hin⟩
  · rintro ⟨list, b, h, hin⟩
    refine ⟨list, Option.map_eq_some_iff.mpr ⟨_, h, rfl⟩, hin⟩

/-! ## Streams -/

/-- Where the fields of a stream end. -/
def afterStream (L p : ℕ) : ℕ := advance L (advance L (advance L p 8 + 3) 13 + 4) 12

/-- The length of the descriptors of a stream; 0 when its fields are not all in the buffer. -/
def esInfoLen (buf : List UInt8) (L p : ℕ) : ℕ := bitsWithin buf L (p + 28) 12

/-- A stream begins with an octet, or nothing is left. -/
def AtStream (L p : ℕ) : Prop := p % 8 = 0 ∨ 8 * L ≤ p

theorem advance_of_le (h : p + n ≤ 8 * L) : advance L p n = p + n := by
  rw [advance, Nat.min_eq_left h, Nat.max_eq_right (Nat.le_add_right p n)]

theorem le_advance_of_lt (h : 8 * L < p + n) : 8 * L ≤ advance L p n := by
  rw [advance, Nat.min_eq_right h.le]
  exact Nat.le_max_right _ _

theorem advance_le (L p n : ℕ) : advance L p n ≤ p + n :=
  Nat.max_le.mpr ⟨Nat.le_add_right p n, Nat.min_le_left _ _⟩

theorem le_advance (L p n : ℕ) : p ≤ advance L p n := Nat.le_max_left _ _

theorem pieces_of_end (h : 8 * L ≤ p) (n : ℕ) : Pieces L p n :=
  .inr (h.trans (VlSimpleBitstream.le_lastRound p n))

/-- An octet. -/
theorem pieces_octet (h : AtStream L p) : Pieces L p 8 := by
  rcases h with h | h
  · have hround : VlSimpleBitstream.lastRound p 8 = p := if_pos (by omega)
    rw [Pieces, hround]
    omega
  · exact pieces_of_end h 8

/-- A field that begins inside an octet and ends with the next one. -/
theorem pieces_field (hn : 8 ≤ n) (hn' : n < 16) (hp : p % 8 ≠ 0) (hend : (p + n) % 8 = 0) :
    Pieces L p n := by
  have hround : VlSimpleBitstream.lastRound p n = p + n - 8 := by
    rw [VlSimpleBitstream.lastRound, if_neg (by omega), if_pos hend]
    omega
  rw [Pieces, hround]
  omega

theorem afterStream_of_le (h : p + 40 ≤ 8 * L) : afterStream L p = p + 40 := by
  rw [afterStream, advance_of_le (p := p) (by omega), advance_of_le (p := p + 8 + 3) (by omega),
    advance_of_le (by omega)]

theorem afterStream_bounds (L p : ℕ) : p + 7 ≤ afterStream L p ∧ afterStream L p ≤ p + 40 := by
  have htype := le_advance L p 8
  have htype' := advance_le L p 8
  have hpid := le_advance L (advance L p 8 + 3) 13
  have hpid' := advance_le L (advance L p 8 + 3) 13
  have hlen := le_advance L (advance L (advance L p 8 + 3) 13 + 4) 12
  have hlen' := advance_le L (advance L (advance L p 8 + 3) 13 + 4) 12
  rw [afterStream]
  omega

/-- At the end of the buffer. -/
theorem afterStream_of_end (h : 8 * L ≤ p) : afterStream L p = p + 7 := by
  have hadvance : ∀ q n, p ≤ q → advance L q n = q := fun q n hq => by
    rw [advance, Nat.min_eq_right (by omega), Nat.max_eq_left (by omega)]
  rw [afterStream, hadvance p 8 (Nat.le_refl p), hadvance _ 13 (by omega), hadvance _ 12 (by omega)]

/-- Where the buffer ends inside the fields of a stream. -/
theorem afterStream_of_lt (hp : p % 8 = 0) (hle : p ≤ 8 * L) (h : 8 * L < p + 40) :
    8 * L ≤ afterStream L p ∧ afterStream L p ≤ p + 32 := by
  obtain ⟨r, hr, hr'⟩ : ∃ r < 5, 8 * L = p + 8 * r := ⟨L - p / 8, by omega, by omega⟩
  simp only [afterStream, advance, hr']
  omega

theorem le_afterStream (h : 8 * L < p + 40) (hp : AtStream L p) :
    8 * L ≤ afterStream L p ∧ afterStream L p ≤ p + 32 := by
  rcases Nat.le_total p (8 * L) with hle | hle
  · rcases hp with hp | hp
    · exact afterStream_of_lt hp hle h
    · rw [afterStream_of_end hp]
      omega
  · rw [afterStream_of_end hle]
    omega

theorem esInfoLen_of_lt (h : 8 * L < p + 40) : esInfoLen buf L p = 0 := if_neg (by omega)

theorem bitsWithin_lt (buf : List UInt8) (L p n : ℕ) : bitsWithin buf L p n < 2 ^ n := by
  rw [bitsWithin]
  split_ifs
  · exact bitsAt_lt buf p n
  · exact Nat.two_pow_pos n

theorem esInfoLen_lt (buf : List UInt8) (L p : ℕ) : esInfoLen buf L p < 2 ^ 12 :=
  bitsWithin_lt buf L _ 12

/-- **The fields of a stream.** -/
theorem readStream_eq (hL : L ≤ buf.length) (hp : p < 2 ^ 30) (hat : AtStream L p) :
    readStream m (stream buf L p mk) =
      some ((bitsWithin buf L p 8, bitsWithin buf L (advance L p 8 + 3) 13, esInfoLen buf L p),
        stream buf L (afterStream L p) mk) := by
  have hpid : Pieces L (advance L p 8 + 3) 13 := by
    rcases Nat.lt_or_ge (8 * L) (p + 8) with hlt | hle
    · exact pieces_of_end (by have := le_advance_of_lt hlt; omega) 13
    · have hmod : p % 8 = 0 := hat.resolve_right (by omega)
      rw [advance_of_le hle]
      exact pieces_field (by decide) (by decide) (by omega) (by omega)
  have hplace : 8 * L ≤ advance L (advance L p 8 + 3) 13 + 4 ∨
      p % 8 = 0 ∧ advance L (advance L p 8 + 3) 13 + 4 = p + 28 := by
    rcases Nat.lt_or_ge (8 * L) (p + 24) with hlt | hle
    · have hpast : 8 * L < advance L p 8 + 3 + 13 := by
        have := le_advance L p 8
        rcases Nat.lt_or_ge (8 * L) (p + 8) with hlt | hle
        · have := le_advance_of_lt hlt
          omega
        · rw [advance_of_le hle]
          omega
      exact .inl (Nat.le_add_right_of_le (le_advance_of_lt hpast))
    · rw [advance_of_le (p := p) (by omega), advance_of_le (p := p + 8 + 3) (by omega)]
      exact .inr ⟨hat.resolve_right (by omega), rfl⟩
  have hlen : Pieces L (advance L (advance L p 8 + 3) 13 + 4) 12 := by
    rcases hplace with hend | ⟨hmod, hplace⟩
    · exact pieces_of_end hend 12
    · rw [hplace]
      exact pieces_field (by decide) (by decide) (by omega) (by omega)
  have hes : bitsWithin buf L (advance L (advance L p 8 + 3) 13 + 4) 12 = esInfoLen buf L p := by
    have hpid := advance_le L (advance L p 8 + 3) 13
    have htype := advance_le L p 8
    rcases hplace with hend | ⟨-, hplace⟩
    · rw [esInfoLen, bitsWithin, bitsWithin, if_neg (by omega), if_neg (by omega)]
    · rw [hplace, esInfoLen]
  have hbound : advance L p 8 + 3 ≤ p + 11 ∧
      advance L (advance L p 8 + 3) 13 + 4 ≤ p + 28 := by
    have htype := advance_le L p 8
    have hpid := advance_le L (advance L p 8 + 3) 13
    omega
  rw [readStream, bind_of (getBits_stream hL (by decide) (by decide) (by omega) (pieces_octet hat)),
    bind_of (skipBits_stream (by omega)),
    bind_of (getBits_stream hL (by decide) (by decide) (by omega) hpid),
    bind_of (skipBits_stream (by omega)),
    bind_of (getBits_stream hL (by decide) (by decide) (by omega) hlen), hes]
  rfl

/-- Where the next stream begins. -/
def nextStream (buf : List UInt8) (L p : ℕ) : ℕ := afterStream L p + esInfoLen buf L p * 8

theorem nextStream_of_le (h : p + 40 ≤ 8 * L) :
    nextStream buf L p = p + 40 + esInfoLen buf L p * 8 := by
  rw [nextStream, afterStream_of_le h]

theorem nextStream_of_lt (h : 8 * L < p + 40) : nextStream buf L p = afterStream L p := by
  rw [nextStream, esInfoLen_of_lt h, Nat.zero_mul, Nat.add_zero]

theorem AtStream.next (hp : AtStream L p) : AtStream L (nextStream buf L p) := by
  rcases Nat.lt_or_ge (8 * L) (p + 40) with hlt | hle
  · rw [nextStream_of_lt hlt]
    exact .inr (le_afterStream hlt hp).1
  · have hmod : p % 8 = 0 := hp.resolve_right (by omega)
    rw [nextStream_of_le hle]
    exact .inl (by omega)

/-! ## The first walk -/

/-- The streams that are counted. -/
def countFrom (buf : List UInt8) (L p : ℕ) (nBytes : ℤ) : ℕ :=
  if 0 < nBytes then
    countFrom buf L (nextStream buf L p) (nBytes - (5 + esInfoLen buf L p)) + 1
  else 0
termination_by nBytes.toNat
decreasing_by omega

theorem countFrom_of_le {nBytes : ℤ} (h : nBytes ≤ 0) : countFrom buf L p nBytes = 0 := by
  rw [countFrom, if_neg (by omega)]

/-- A stream has five octets at least. -/
theorem countFrom_le (buf : List UInt8) (L p : ℕ) (nBytes : ℤ) :
    5 * countFrom buf L p nBytes ≤ (nBytes + 4).toNat := by
  induction hk : nBytes.toNat using Nat.strong_induction_on generalizing p nBytes with
  | _ k ih =>
    rw [countFrom]
    split_ifs with hpos
    · have hrest := ih _ (by omega) (nextStream buf L p) (nBytes - (5 + esInfoLen buf L p)) rfl
      omega
    · omega

theorem getStreamsCountFrom_eq (hL : L ≤ buf.length) (hat : AtStream L p) {nBytes : ℤ}
    (hbound : p + 8 * nBytes ≤ 2 ^ 20) (mk nCount : ℕ) :
    ∃ q, getStreamsCountFrom m nCount nBytes (stream buf L p mk) =
      some (nCount + countFrom buf L p nBytes, stream buf L q mk) := by
  induction hk : nBytes.toNat using Nat.strong_induction_on generalizing p nBytes nCount with
  | _ k ih =>
    rw [getStreamsCountFrom, countFrom]
    by_cases hpos : 0 < nBytes
    · have hes := esInfoLen_lt buf L p
      have hafter := (afterStream_bounds L p).2
      have hskip : ∀ x : PmtRead ℕ, (if esInfoLen buf L p > 0 then do
            skipBits m (esInfoLen buf L p * 8)
            x
          else x) (stream buf L (afterStream L p) mk) =
          x (stream buf L (nextStream buf L p) mk) := by
        intro x
        by_cases hzero : esInfoLen buf L p > 0
        · rw [if_pos hzero, bind_of (skipBits_stream (by omega)), nextStream]
        · rw [if_neg hzero, nextStream, Nat.eq_zero_of_not_pos hzero, Nat.zero_mul, Nat.add_zero]
      have hnext : AtStream L (nextStream buf L p) := hat.next
      have hrest : nextStream buf L p + 8 * (nBytes - (5 + esInfoLen buf L p)) ≤ 2 ^ 20 := by
        rw [nextStream]
        push_cast
        omega
      obtain ⟨q, hq⟩ := ih _ (by omega) hnext hrest (nCount + 1) rfl
      refine ⟨q, ?_⟩
      rw [if_pos hpos, if_pos hpos, bind_of (readStream_eq hL (by omega) hat)]
      refine (hskip _).trans (hq.trans ?_)
      rw [Nat.add_assoc, Nat.add_comm 1]
    · rw [if_neg hpos, if_neg hpos]
      exact ⟨p, rfl⟩

/-- **The number of streams.** The stream of bits is where it was. -/
theorem getStreamsCount_eq (hL : L ≤ buf.length) (hat : AtStream L p) {nBytes : ℤ}
    (hbound : p + 8 * nBytes ≤ 2 ^ 20) :
    getStreamsCount m nBytes (stream buf L p mk) =
      some (countFrom buf L p nBytes, stream buf L p p) := by
  obtain ⟨q, hq⟩ := getStreamsCountFrom_eq (m := m) hL hat hbound p 0
  rw [getStreamsCount, bind_of rfl]
  refine (bind_of hq).trans ?_
  rw [Nat.zero_add]
  rfl

/-! ## The second walk -/

/-- The streams from a bit on can be written, and their descriptors fit. -/
inductive StreamsFit (buf : List UInt8) (L bound : ℕ) : ℕ → Prop
  | done {p : ℕ} : bound ≤ p / 8 → StreamsFit buf L bound p
  | last {p : ℕ} : p / 8 < bound → 8 * L < p + 40 → 8 * bound ≤ afterStream L p →
      StreamsFit buf L bound p
  | next {p : ℕ} : p / 8 < bound → p + 40 ≤ 8 * L →
      DescriptorsFit (buf.drop (p / 8 + 5)) (esInfoLen buf L p) 0 →
      StreamsFit buf L bound (p + 40 + esInfoLen buf L p * 8) → StreamsFit buf L bound p

/-- The descriptors of a program or of a stream, if there are any. -/
def infoAt (m : DataModel) (s : List UInt8) (p len : ℕ) :
    Option (Option (List VlCondAccessesDescsInfo)) :=
  if 0 < len then (parseDescriptors m (s.drop (p / 8)) len).map some else some none

/-- The copied descriptors are inside the others. -/
def InfoInside (len : ℕ) (desc : Option (List VlCondAccessesDescsInfo)) : Prop :=
  ∀ list ∈ desc, Inside len list

theorem parseInfo_stream (hp : p + len * 8 < 2 ^ 32) :
    parseInfo m s len (stream buf L p mk) =
      (infoAt m s p len).map fun desc => (desc, stream buf L (p + len * 8) mk) := by
  rw [parseInfo, infoAt]
  by_cases hpos : 0 < len
  · rw [if_pos hpos, if_pos hpos, bind_of rfl]
    change (((parseDescriptors m (s.drop (p / 8)) len).bind fun list =>
      some (list, stream buf L p mk)).bind _) = _
    cases parseDescriptors m (s.drop (p / 8)) len with
    | none => rfl
    | some list => exact bind_of (skipBits_stream hp)
  · rw [if_neg hpos, if_neg hpos, Nat.eq_zero_of_not_pos hpos]
    rfl

theorem infoAt_iff (hlen : len < 2 ^ 12) :
    (∃ desc, infoAt m s p len = some desc ∧ InfoInside len desc) ↔
      DescriptorsFit (s.drop (p / 8)) len 0 := by
  rw [infoAt]
  by_cases hpos : 0 < len
  · rw [if_pos hpos, ← parseDescriptors_iff (m := m) hlen]
    constructor
    · rintro ⟨desc, hdesc, hin⟩
      obtain ⟨list, hlist, rfl⟩ := Option.map_eq_some_iff.mp hdesc
      exact ⟨list, hlist, hin list rfl⟩
    · rintro ⟨list, hlist, hin⟩
      refine ⟨some list, by rw [hlist]; rfl, fun list' hlist' => ?_⟩
      cases hlist'
      exact hin
  · rw [if_neg hpos]
    exact iff_of_true ⟨none, rfl, fun _ h => by cases h⟩ (.done (by omega))

section Streams

variable {bound left : ℕ} {streams : List VlPmtStream}

/-- The copied descriptors of the streams are inside the others of their streams. -/
def StreamsInside (streams : List VlPmtStream) : Prop :=
  ∀ stream ∈ streams, InfoInside stream.es_info_len stream.desc

theorem parseStreamsFrom_done (h : bound ≤ p / 8) :
    parseStreamsFrom m s bound left streams (stream buf L p mk) =
      some (streams, stream buf L p mk) := by
  have hpos : ¬p / 8 < bound := Nat.not_lt.mpr h
  cases left
  · rw [parseStreamsFrom, bind_of rfl]
    exact congrFun (if_neg hpos) _
  · rw [parseStreamsFrom, bind_of rfl]
    exact congrFun (if_neg hpos) _

/-- The array is full. -/
theorem parseStreamsFrom_full (h : p / 8 < bound) :
    parseStreamsFrom m s bound 0 streams (stream buf L p mk) = none := by
  rw [parseStreamsFrom, bind_of rfl]
  exact congrFun (if_pos h) _

/-- A stream is written. -/
theorem parseStreamsFrom_succ (h : p / 8 < bound) (hL : L ≤ buf.length) (hp : p < 2 ^ 30)
    (hat : AtStream L p) :
    parseStreamsFrom m s bound (left + 1) streams (stream buf L p mk) =
      (infoAt m s (afterStream L p) (esInfoLen buf L p)).bind fun desc =>
        parseStreamsFrom m s bound left
          (streams ++ [⟨bitsWithin buf L p 8, bitsWithin buf L (advance L p 8 + 3) 13,
            esInfoLen buf L p, desc⟩])
          (stream buf L (nextStream buf L p) mk) := by
  have hes := esInfoLen_lt buf L p
  have hafter := (afterStream_bounds L p).2
  rw [parseStreamsFrom, bind_of rfl]
  refine (congrFun (if_pos h) _).trans ?_
  rw [bind_of (readStream_eq hL hp hat)]
  change (parseInfo m s (esInfoLen buf L p) (stream buf L (afterStream L p) mk)).bind _ = _
  rw [parseInfo_stream (by omega)]
  cases infoAt m s (afterStream L p) (esInfoLen buf L p) <;> rfl

/-- Behind the end of the buffer a round takes seven bits. -/
theorem parseStreamsFrom_past (hL : L ≤ buf.length) (hend : 8 * L ≤ p) (hbound : bound < 2 ^ 20)
    (hleft : p + 7 * left < 8 * bound) :
    parseStreamsFrom m s bound left streams (stream buf L p mk) = none := by
  induction left generalizing p streams with
  | zero => exact parseStreamsFrom_full (by omega)
  | succ left ih =>
    have hlt : 8 * L < p + 40 := by omega
    rw [parseStreamsFrom_succ (by omega) hL (by omega) (.inr hend), esInfoLen_of_lt hlt,
      nextStream_of_lt hlt, afterStream_of_end hend]
    exact ih (by omega) (by omega)

theorem streamsInside_of_parse (hL : L ≤ buf.length) (hbound : bound < 2 ^ 20)
    (hat : AtStream L p) {list : List VlPmtStream} {b : VlSimpleBitstream}
    (h : parseStreamsFrom m s bound left streams (stream buf L p mk) = some (list, b))
    (hin : StreamsInside list) : StreamsInside streams := by
  induction left generalizing p streams with
  | zero =>
    rcases Nat.lt_or_ge (p / 8) bound with hlt | hle
    · rw [parseStreamsFrom_full hlt] at h
      cases h
    · rw [parseStreamsFrom_done hle] at h
      obtain ⟨rfl, -⟩ := Prod.mk.inj (Option.some.inj h)
      exact hin
  | succ left ih =>
    rcases Nat.lt_or_ge (p / 8) bound with hlt | hle
    · rw [parseStreamsFrom_succ hlt hL (by omega) hat] at h
      obtain ⟨desc, -, h⟩ := Option.bind_eq_some_iff.mp h
      exact fun stream hmem => ih hat.next h stream (List.mem_append_left _ hmem)
    · rw [parseStreamsFrom_done hle] at h
      obtain ⟨rfl, -⟩ := Prod.mk.inj (Option.some.inj h)
      exact hin

/-- At a stream whose fields are not all in the buffer, the second walk comes to more streams than
the first one, if it goes on. -/
theorem parseStreamsFrom_truncated (hL : L ≤ buf.length) (hbound : bound < 2 ^ 20)
    (hat : AtStream L p) (hlt : 8 * L < p + 40)
    (hleft : 5 * left ≤ ((bound - (p / 8 : ℕ) : ℤ) - 5 + 4).toNat)
    (hnext : afterStream L p < 8 * bound) :
    parseStreamsFrom m s bound left streams (stream buf L (afterStream L p) mk) = none := by
  obtain ⟨hend, hafter⟩ := le_afterStream hlt hat
  exact parseStreamsFrom_past hL hend hbound (by omega)

/-- **The second walk** writes no more streams than the first one has counted, and copies what is
inside only, just if the streams fit. -/
theorem parseStreamsFrom_iff (hL : L ≤ buf.length) (hbound : bound < 2 ^ 16) (hat : AtStream L p)
    (hstreams : StreamsInside streams) :
    (∃ list b, parseStreamsFrom m buf bound
      (countFrom buf L p (bound - (p / 8 : ℕ))) streams (stream buf L p mk) = some (list, b) ∧
        StreamsInside list) ↔ StreamsFit buf L bound p := by
  induction hk : bound - p / 8 using Nat.strong_induction_on generalizing p streams with
  | _ k ih =>
    rcases Nat.lt_or_ge (p / 8) bound with hlt | hle
    · have hes := esInfoLen_lt buf L p
      rw [countFrom, if_pos (by omega), parseStreamsFrom_succ hlt hL (by omega) hat]
      rcases Nat.lt_or_ge (8 * L) (p + 40) with hshort | hfits
      · rw [esInfoLen_of_lt hshort, nextStream_of_lt hshort]
        have hleft := countFrom_le buf L (afterStream L p)
          (bound - (p / 8 : ℕ) - (5 + (0 : ℕ)))
        constructor
        · rintro ⟨list, b, h, hin⟩
          refine .last hlt hshort (Nat.le_of_not_lt fun hnext => ?_)
          rw [infoAt, if_neg (Nat.lt_irrefl 0), Option.bind_some, parseStreamsFrom_truncated hL
            (by omega) hat hshort (by omega) hnext] at h
          cases h
        · intro h
          cases h with
          | done hdone => omega
          | last _ _ hnext =>
            refine ⟨_, _, parseStreamsFrom_done (by omega), fun stream hstream => ?_⟩
            rcases List.mem_append.mp hstream with hmem | hmem
            · exact hstreams stream hmem
            · rw [List.mem_singleton.mp hmem]
              exact fun _ h => by cases h
          | next _ hfits => omega
      · have hplace : afterStream L p / 8 = p / 8 + 5 := by
          rw [afterStream_of_le hfits]
          omega
        have hrest : (bound - (p / 8 : ℕ) : ℤ) - (5 + esInfoLen buf L p) =
            bound - (nextStream buf L p / 8 : ℕ) := by
          rw [nextStream_of_le hfits]
          omega
        have hless : bound - nextStream buf L p / 8 < k := by
          rw [nextStream_of_le hfits]
          omega
        rw [hrest]
        have hinfo := infoAt_iff (m := m) (s := buf) (p := afterStream L p) hes
        rw [hplace] at hinfo
        constructor
        · rintro ⟨list, b, h, hin⟩
          obtain ⟨desc, hdesc, h⟩ := Option.bind_eq_some_iff.mp h
          have hinside := streamsInside_of_parse hL (by omega) hat.next h hin
          have hlast := hinside _ (List.mem_append_right _ List.mem_cons_self)
          have hfit := hinfo.mp ⟨desc, hdesc, hlast⟩
          have hnext := (ih _ hless hat.next hinside rfl).mp ⟨list, b, h, hin⟩
          rw [nextStream_of_le hfits] at hnext
          exact .next hlt hfits hfit hnext
        · intro h
          cases h with
          | done hdone => omega
          | last _ hshort => omega
          | next _ _ hfit hnext =>
            obtain ⟨desc, hdesc, hin⟩ := hinfo.mpr hfit
            rw [← nextStream_of_le hfits] at hnext
            rw [hdesc]
            refine (ih _ hless hat.next ?_ rfl).mpr hnext
            intro stream hstream
            rcases List.mem_append.mp hstream with hmem | hmem
            · exact hstreams stream hmem
            · rw [List.mem_singleton.mp hmem]
              exact hin
    · rw [parseStreamsFrom_done hle]
      exact iff_of_true ⟨streams, _, rfl, hstreams⟩ (.done hle)

end Streams

end VlTablePMT

end MediaFramework
