import MediaFramework.Pod.CmHashLoad

/-!
# A hash table and its file

A line that fits is one chunk, and `parse` gives back what was escaped. A longer line is cut, and the
rest of it is taken for a line of its own. What is read from a chunk is not longer than the chunk
when it is escaped again, so the entry of that line is read from nowhere.
-/

namespace MediaFramework

namespace CMHash

/-! ## Escaped texts -/

/-- What is written for a character. -/
def escapeOf (c : UInt8) : List UInt8 :=
  if c = newline ∨ c = backslash ∨ c = equals then
    [backslash, if c = newline then letterN else c]
  else [c]

/-- An escaped text. -/
def escape (text : List UInt8) : List UInt8 := text.flatMap escapeOf

theorem writeEscaped_eq (line text : List UInt8) :
    writeEscaped line text = line ++ escape text := by
  fun_induction writeEscaped line text with
  | case1 line => exact (List.append_nil line).symm
  | case2 line c str hc ih =>
    rw [ih, escape, escape, List.flatMap_cons, escapeOf, if_pos hc]
    rfl
  | case3 line c str hc ih =>
    rw [ih, escape, escape, List.flatMap_cons, escapeOf, if_neg hc, List.append_assoc]

theorem newline_notMem_escape (text : List UInt8) : newline ∉ escape text := by
  intro hmem
  obtain ⟨c, -, hc⟩ := List.mem_flatMap.mp hmem
  rw [escapeOf] at hc
  split at hc
  case isTrue h =>
    rcases h with rfl | rfl | rfl
    · exact absurd hc (by decide)
    · exact absurd hc (by decide)
    · exact absurd hc (by decide)
  case isFalse h => exact h (Or.inl (List.mem_singleton.mp hc).symm)

theorem length_escapeOf_le (c : UInt8) : (escapeOf c).length ≤ 2 := by
  rw [escapeOf]
  split
  · exact Nat.le_refl 2
  · exact Nat.le_succ 1

namespace LineTexts

/-- The characters of a text, one after the other. -/
def puts (t : LineTexts) (text : List UInt8) : LineTexts := text.foldl put t

theorem puts_eq (t : LineTexts) (text : List UInt8) :
    t.puts text = if t.done then { t with value := t.value ++ text }
      else { t with key := t.key ++ text } := by
  induction text generalizing t with
  | nil =>
    obtain ⟨key, value, done⟩ := t
    cases done <;> simp [puts]
  | cons c text ih =>
    rw [puts, List.foldl_cons]
    refine (ih (t.put c)).trans ?_
    cases hdone : t.done <;> simp [put, hdone]

/-- How long the texts are when they are escaped again, with the `=`. -/
def weight (t : LineTexts) : ℕ :=
  (escape t.key).length + (escape t.value).length + t.done.toNat

theorem weight_put (t : LineTexts) (c : UInt8) :
    (t.put c).weight = t.weight + (escapeOf c).length := by
  cases hdone : t.done
  · simp [put, weight, escape, hdone]
    omega
  · simp [put, weight, escape, hdone]
    omega

end LineTexts

variable {rest : List UInt8}

theorem scan_end {i : ℕ} {t : LineTexts} {c : UInt8}
    (hc : c = newline ∨ c = 0) : scan i t (c :: rest) = some t := by
  rw [scan.eq_def]
  exact if_pos hc

theorem scan_backslash {i : ℕ} {t : LineTexts} {d : UInt8} (hi : i < 1022)
    (hd : d ≠ 0) : scan i t (backslash :: d :: rest) =
      scan (i + 2) (t.put (if d = letterN then newline else d)) rest := by
  rw [scan, if_neg (by decide), if_neg (by decide), if_pos ⟨rfl, hi⟩, if_neg hd]

theorem scan_plain {i : ℕ} {t : LineTexts} {c : UInt8}
    (hc : ¬(c = newline ∨ c = backslash ∨ c = equals)) (hzero : c ≠ 0) :
    scan i t (c :: rest) = scan (i + 1) (t.put c) rest := by
  rw [not_or, not_or] at hc
  rw [scan.eq_def]
  dsimp only
  rw [if_neg (not_or.mpr ⟨hc.1, hzero⟩), if_neg hc.2.2, if_neg fun h => hc.2.1 h.1]

theorem scan_equals {i : ℕ} {t : LineTexts} (hdone : t.done = false) :
    scan i t (equals :: rest) = scan (i + 1) { t with done := true } rest := by
  rw [scan.eq_def]
  dsimp only
  rw [if_neg (by decide), if_pos rfl, if_neg (by simp [hdone])]

/-- **What was escaped is read back.** -/
theorem scan_escape {text : List UInt8} (hzero : ∀ c ∈ text, c ≠ 0) {i : ℕ} {t : LineTexts}
    (hlength : i + (escape text).length ≤ 1023) :
    scan i t (escape text ++ rest) = scan (i + (escape text).length) (t.puts text) rest := by
  induction text generalizing i t with
  | nil => rfl
  | cons c text ih =>
    rw [escape, List.flatMap_cons, ← escape, List.length_append] at hlength ⊢
    have hcons := ih (fun d hd => hzero d (List.mem_cons_of_mem c hd))
      (i := i + (escapeOf c).length) (t := t.put c) (by omega)
    rw [Nat.add_assoc] at hcons
    rw [LineTexts.puts, List.foldl_cons, ← LineTexts.puts, ← hcons, List.append_assoc]
    have hc := hzero c List.mem_cons_self
    rw [escapeOf] at hlength ⊢
    split
    case isTrue hspecial =>
      rw [if_pos hspecial] at hlength
      have hi : i < 1022 := by
        simp only [List.length_cons, List.length_nil] at hlength
        omega
      rcases hspecial with rfl | rfl | rfl
      · exact scan_backslash hi (by decide)
      · exact scan_backslash hi (by decide)
      · exact scan_backslash hi (by decide)
    case isFalse hplain => exact scan_plain hplain hc

/-- **The weight of what is read.** The texts are not longer than what they are read from, when they
are escaped again; but for a backslash at the end of a full buffer, which is read as it stands. -/
theorem weight_scan {i : ℕ} {t t' : LineTexts}
    (h : scan i t rest = some t') (hlength : i + rest.length ≤ 1023) :
    t'.weight ≤ t.weight + rest.length ∨
      t'.weight = t.weight + rest.length + 1 ∧ t'.current.getLast? = some backslash := by
  fun_induction scan i t rest with
  | case1 i t => exact Or.inl (Option.some.inj h ▸ Nat.le_refl _)
  | case2 i t c rest hend => exact Or.inl (Option.some.inj h ▸ Nat.le_add_right _ _)
  | case3 => cases h
  | case4 i t rest hdone _ ih =>
    rw [List.length_cons] at hlength ⊢
    have ht : LineTexts.weight { t with done := true } = t.weight + 1 := by
      simp [LineTexts.weight, hdone]
    rcases ih h (by omega) with hle | ⟨heq, hlast⟩
    · exact Or.inl (by omega)
    · exact Or.inr ⟨by omega, hlast⟩
  | case5 => cases h
  | case6 => cases h
  | case7 i t c hend heq hb d rest hzero ih =>
    rw [List.length_cons, List.length_cons] at hlength ⊢
    rw [LineTexts.weight_put] at ih
    have hle := length_escapeOf_le (if d = letterN then newline else d)
    rcases ih h (by omega) with hle | ⟨heq, hlast⟩
    · exact Or.inl (by omega)
    · rcases Nat.lt_or_eq_of_le hle with hlt | htwo
      · exact Or.inl (by omega)
      · exact Or.inr ⟨by omega, hlast⟩
  | case8 i t c rest hend heq hb ih =>
    rw [List.length_cons] at hlength ⊢
    by_cases hc : c = backslash
    · -- the backslash is the last character that is in the buffer
      have hi : ¬i < 1022 := fun hi => hb ⟨hc, hi⟩
      obtain rfl : rest = [] := List.eq_nil_of_length_eq_zero (by omega)
      cases h
      refine Or.inr ⟨?_, ?_⟩
      · rw [LineTexts.weight_put, hc]
        rfl
      · rw [LineTexts.current_put, List.getLast?_concat, hc]
    · have hplain : escapeOf c = [c] :=
        if_neg fun hspecial => hspecial.elim (fun h => hend (Or.inl h)) (·.elim hc heq)
      rw [LineTexts.weight_put, hplain, List.length_singleton] at ih
      rcases ih h (by omega) with hle | ⟨heq, hlast⟩
      · exact Or.inl (by omega)
      · exact Or.inr ⟨by omega, hlast⟩

/-! ## Lines -/

/-- The line of a key and a value. -/
def lineOf (key value : CString) : List UInt8 :=
  escape key.bytes ++ equals :: escape value.bytes ++ [newline]

variable {key value : CString}

theorem length_lineOf : (lineOf key value).length =
    (escape key.bytes).length + (escape value.bytes).length + 2 := by
  simp [lineOf]
  omega

/-- **A line that fits is read back.** -/
theorem parse_lineOf (h : (lineOf key value).length ≤ 1023) :
    parse (lineOf key value) = some (key, value) := by
  rw [length_lineOf] at h
  rw [parse, lineOf, List.append_assoc, scan_escape key.nulFree (by omega), LineTexts.puts_eq,
    List.cons_append, scan_equals rfl, scan_escape value.nulFree (by omega), LineTexts.puts_eq]
  simp [scan]

/-- No zero is read. -/
theorem nulFree_scan {i : ℕ} {t t' : LineTexts} (h : scan i t rest = some t')
    (ht : ∀ c ∈ t.key ++ t.value, c ≠ 0) : ∀ c ∈ t'.key ++ t'.value, c ≠ 0 := by
  have hput : ∀ {t : LineTexts} {d}, (∀ c ∈ t.key ++ t.value, c ≠ 0) → d ≠ 0 →
      ∀ c ∈ (t.put d).key ++ (t.put d).value, c ≠ 0 := by
    intro t d ht hd c hc
    have hmem : c ∈ t.key ++ t.value ∨ c = d := by
      rw [LineTexts.put] at hc
      split at hc
      · simpa [or_assoc] using hc
      · simpa [or_assoc, or_comm, or_left_comm] using hc
    exact hmem.elim (ht c) fun h => h ▸ hd
  fun_induction scan i t rest with
  | case1 => exact Option.some.inj h ▸ ht
  | case2 => exact Option.some.inj h ▸ ht
  | case3 => cases h
  | case4 i t rest hdone _ ih => exact ih h ht
  | case5 => cases h
  | case6 => cases h
  | case7 i t c hend heq hb d rest hzero ih =>
    refine ih h (hput ht ?_)
    split
    · decide
    · exact hzero
  | case8 i t c rest hend heq hb ih => exact ih h (hput ht fun hc => hend (Or.inr hc))

/-- **What is read is not longer than its chunk.** -/
theorem length_lineOf_le {chunk : List UInt8} (hlength : chunk.length ≤ 1023)
    (h : parse chunk = some (key, value)) :
    (lineOf key value).length ≤ 1024 ∨
      (lineOf key value).length = 1025 ∧ value.bytes.getLast? = some backslash := by
  obtain ⟨t, hscan, h⟩ := Option.bind_eq_some_iff.mp h
  have hnul := nulFree_scan hscan (by simp)
  have hbytes : ∀ {text : List UInt8}, (∀ c ∈ text, c ≠ 0) → (CString.ofBuffer text).bytes = text :=
    fun htext => List.takeWhile_eq_self_iff.mpr fun b hb => by simpa using htext b hb
  cases hdone : t.done with
  | false =>
    simp only [hdone] at h
    cases h
  | true =>
    simp only [hdone, if_true] at h
    obtain ⟨rfl, rfl⟩ := Prod.ext_iff.mp (Option.some.inj h)
    have hkey := hbytes fun c hc => hnul c (List.mem_append_left _ hc)
    have hvalue := hbytes fun c hc => hnul c (List.mem_append_right _ hc)
    have hweight := weight_scan hscan (Nat.zero_add _ ▸ hlength)
    have hstart : LineTexts.weight ⟨[], [], false⟩ = 0 := rfl
    rw [hstart, LineTexts.weight, LineTexts.current, hdone, if_pos rfl, Bool.toNat_true] at hweight
    rw [length_lineOf, hkey, hvalue]
    rcases hweight with hle | ⟨heq, hlast⟩
    · exact Or.inl (by omega)
    · rcases Nat.lt_or_ge chunk.length 1023 with hlt | hge
      · exact Or.inl (by omega)
      · exact Or.inr ⟨by omega, hlast⟩

/-! ## The chunks of lines -/

/-- `fgets` before a newline. -/
theorem fgets_line {n : ℕ} {body : List UInt8} (hbody : newline ∉ body) (rest : List UInt8) :
    fgets n (body ++ newline :: rest) =
      if body.length < n then (body ++ [newline], rest, false)
      else (body.take n, body.drop n ++ newline :: rest, false) := by
  induction body generalizing n with
  | nil => cases n <;> rfl
  | cons c body ih =>
    rw [List.mem_cons, not_or] at hbody
    cases n with
    | zero => rfl
    | succ n =>
      rw [List.cons_append, fgets, if_neg (Ne.symm hbody.1), ih hbody.2]
      simp only [List.length_cons, Nat.add_lt_add_iff_right]
      split
      · rfl
      · rfl

theorem chunks_line {body : List UInt8} (hbody : newline ∉ body) (rest : List UInt8) :
    chunks (body ++ newline :: rest) =
      if body.length < 1023 then (body ++ [newline]) :: chunks rest
      else body.take 1023 :: chunks (body.drop 1023 ++ newline :: rest) := by
  rw [chunks_of_ne_nil (by simp), fgets_line hbody]
  split
  · rfl
  · rfl

/-- **The chunks of two lines** are those of the one and those of the other. -/
theorem chunks_append {body : List UInt8} (hbody : newline ∉ body) (rest : List UInt8) :
    chunks (body ++ newline :: rest) = chunks (body ++ [newline]) ++ chunks rest := by
  induction hn : body.length using Nat.strong_induction_on generalizing body with
  | h n ih =>
    rw [chunks_line hbody, chunks_line hbody]
    split
    case isTrue => rw [chunks_nil, List.singleton_append]
    case isFalse hge =>
      rw [ih _ (by rw [List.length_drop]; omega)
        (fun hmem => hbody (List.mem_of_mem_drop hmem)) rfl, List.cons_append]

theorem newline_notMem_body : newline ∉ escape key.bytes ++ equals :: escape value.bytes := by
  rw [List.mem_append, List.mem_cons]
  rintro (h | h | h)
  · exact newline_notMem_escape _ h
  · exact absurd h (by decide)
  · exact newline_notMem_escape _ h

theorem lineOf_append (rest : List UInt8) : lineOf key value ++ rest =
    (escape key.bytes ++ equals :: escape value.bytes) ++ newline :: rest := by
  simp [lineOf]

theorem chunks_lineOf_append (rest : List UInt8) :
    chunks (lineOf key value ++ rest) = chunks (lineOf key value) ++ chunks rest := by
  rw [lineOf_append, chunks_append newline_notMem_body, ← lineOf_append, List.append_nil]

/-- A line that fits is one chunk. -/
theorem chunks_lineOf (h : (lineOf key value).length ≤ 1023) :
    chunks (lineOf key value) = [lineOf key value] := by
  rw [← List.append_nil (lineOf key value), lineOf_append, chunks_line newline_notMem_body,
    if_pos, chunks_nil]
  rw [length_lineOf] at h
  rw [List.length_append, List.length_cons]
  omega

/-- **The rest of a line** that is a little too long is a chunk from which no entry is read. -/
theorem exists_refused (h : (lineOf key value).length = 1024 ∨
    (lineOf key value).length = 1025 ∧ value.bytes.getLast? = some backslash) :
    ∃ chunk ∈ chunks (lineOf key value), chunk.head? ≠ some 0 ∧ parse chunk = none := by
  rw [length_lineOf] at h
  have hbody : (escape key.bytes ++ equals :: escape value.bytes).length =
      (escape key.bytes).length + (escape value.bytes).length + 1 := by
    rw [List.length_append, List.length_cons]
    omega
  rw [← List.append_nil (lineOf key value), lineOf_append, chunks_line newline_notMem_body,
    if_neg (by omega)]
  -- what is left of the line
  have hrest : (escape key.bytes ++ equals :: escape value.bytes).drop 1023 = [] ∨
      (escape key.bytes ++ equals :: escape value.bytes).drop 1023 = [backslash] := by
    rcases h with h | ⟨h, hlast⟩
    · exact Or.inl (List.drop_eq_nil_of_le (by omega))
    · obtain ⟨front, hfront⟩ := List.getLast?_eq_some_iff.mp hlast
      have hlast : escape key.bytes ++ equals :: escape value.bytes =
          (escape key.bytes ++ equals :: escape front ++ [backslash]) ++ [backslash] := by
        rw [hfront, escape, escape, escape, List.flatMap_append]
        simp [escapeOf]
        decide
      rw [hlast] at hbody ⊢
      rw [List.length_append, List.length_singleton] at hbody
      exact Or.inr (List.drop_left' (by omega))
  rcases hrest with hrest | hrest
  · refine ⟨[newline], List.mem_cons_of_mem _ ?_, by decide, rfl⟩
    rw [hrest, chunks_line (by decide), if_pos (by decide)]
    exact List.mem_cons_self
  · refine ⟨[backslash, newline], List.mem_cons_of_mem _ ?_, by decide, rfl⟩
    rw [hrest, chunks_line (by decide), if_pos (by decide)]
    exact List.mem_cons_self

/-! ## What is read and what was written -/

/-- The entries that are read from the chunks, if each has one. -/
def parsed : List (List UInt8) → Option (List (CString × CString))
  | [] => some []
  | chunk :: chunks =>
    if chunk.head? = some 0 then parsed chunks
    else do
      let e ← parse chunk
      let es ← parsed chunks
      return e :: es

/-- An entry that was read is read from a chunk. -/
theorem exists_parse {cs : List (List UInt8)} {es : List (CString × CString)}
    (h : parsed cs = some es) {e : CString × CString} (he : e ∈ es) :
    ∃ chunk ∈ cs, parse chunk = some e := by
  induction cs generalizing es with
  | nil =>
    cases h
    cases he
  | cons chunk cs ih =>
    rw [parsed] at h
    split_ifs at h with hzero
    · obtain ⟨c, hc, hparse⟩ := ih h he
      exact ⟨c, List.mem_cons_of_mem _ hc, hparse⟩
    · obtain ⟨e', he', h⟩ := Option.bind_eq_some_iff.mp h
      obtain ⟨es', hes', h⟩ := Option.bind_eq_some_iff.mp h
      cases h
      rcases List.mem_cons.mp he with rfl | he
      · exact ⟨chunk, List.mem_cons_self, he'⟩
      · obtain ⟨c, hc, hparse⟩ := ih hes' he
        exact ⟨c, List.mem_cons_of_mem _ hc, hparse⟩

/-- From every chunk an entry was read, but for those that are passed over. -/
theorem parsed_eq_none {cs : List (List UInt8)} {chunk : List UInt8} (hmem : chunk ∈ cs)
    (hzero : chunk.head? ≠ some 0) (hparse : parse chunk = none) : parsed cs = none := by
  induction cs with
  | nil => cases hmem
  | cons c cs ih =>
    rw [parsed]
    rcases List.mem_cons.mp hmem with rfl | hmem
    · rw [if_neg hzero, hparse]
      rfl
    · rw [ih hmem]
      split
      · rfl
      · cases parse c <;> rfl

/-- The lines of entries, if they fit, are read back. -/
theorem parsed_lines {es : List (CString × CString)}
    (h : ∀ e ∈ es, (lineOf e.1 e.2).length ≤ 1023) :
    parsed (chunks (es.flatMap fun e => lineOf e.1 e.2)) = some es := by
  induction es with
  | nil => rw [List.flatMap_nil, chunks_nil]; rfl
  | cons e es ih =>
    have he := h e List.mem_cons_self
    have hparse := parse_lineOf he
    have hzero : (lineOf e.1 e.2).head? ≠ some 0 := by
      intro hhead
      obtain ⟨rest, hrest⟩ := List.head?_eq_some_iff.mp hhead
      rw [hrest, parse, scan_end (Or.inr rfl)] at hparse
      cases hparse
    rw [List.flatMap_cons, chunks_lineOf_append, chunks_lineOf he, List.singleton_append, parsed,
      if_neg hzero, hparse, ih fun e he => h e (List.mem_cons_of_mem _ he)]
    rfl

theorem mem_chunks_lines {es : List (CString × CString)} {e : CString × CString} (he : e ∈ es)
    {chunk : List UInt8} (hchunk : chunk ∈ chunks (lineOf e.1 e.2)) :
    chunk ∈ chunks (es.flatMap fun e => lineOf e.1 e.2) := by
  induction es with
  | nil => cases he
  | cons e' es ih =>
    rw [List.flatMap_cons, chunks_lineOf_append]
    rcases List.mem_cons.mp he with rfl | he
    · exact List.mem_append_left _ hchunk
    · exact List.mem_append_right _ (ih he)

variable {w : ℕ} {widen : UInt8 → BitVec w} {h : CMHash} {f : Values}
  {es : List (CString × CString)}

/-- The values behind the entries that were written. -/
def written (f : Values) (es : List (CString × CString)) : Values :=
  es.foldl (fun f e => valuesAfter f (.writeText e.1 e.2)) f

/-- **What the chunks make of a table.** -/
theorem Inv.loadChunks (hinv : h.Inv widen f) (cs : List (List UInt8)) :
    match parsed cs with
    | none => ∃ h', CMHash.loadChunks widen cs h = some (1, h')
    | some es => ∃ h', CMHash.loadChunks widen cs h = some (0, h') ∧
      h'.Inv widen (written f es) := by
  induction cs generalizing h f with
  | nil => exact ⟨h, rfl, hinv⟩
  | cons chunk cs ih =>
    rw [parsed, CMHash.loadChunks]
    split_ifs with hzero
    · exact ih hinv
    · rcases parse chunk with _ | ⟨key, value⟩
      · exact ⟨h, rfl⟩
      · obtain ⟨h₁, hwrite, hinv₁⟩ := hinv.call (.writeText key value)
        have hwrite : h.writeText widen key value = some h₁ := hwrite
        have hrest := ih hinv₁
        dsimp only
        rw [hwrite, Option.bind_some]
        rcases hes : parsed cs with _ | es
        · rw [hes] at hrest
          exact hrest
        · rw [hes] at hrest
          exact hrest

/-- The text under a key. -/
theorem Inv.readText (hinv : h.Inv widen f) (key : CString) : h.readText widen key =
    match f key with
    | some value => (textAt value).map some
    | none => some none := by
  rw [CMHash.readText, hinv.finds key]
  cases f key with
  | none => rfl
  | some value =>
    change (textAt value >>= fun text => pure (some text)) = (textAt value).map some
    cases textAt value with
    | none => rfl
    | some text => rfl

theorem textAt_written (value : CString) :
    textAt (value.bytes ++ [0] ++ [0]) = some value := by
  rw [textAt, if_pos (by simp), List.append_assoc, List.singleton_append,
    CString.ofBuffer_terminated, CString.ofBuffer_bytes]

theorem written_cons (f : Values) (e : CString × CString) (es : List (CString × CString)) :
    written f (e :: es) =
      written (Function.update f e.1 (some (e.2.bytes ++ [0] ++ [0]))) es := rfl

/-- A value was there before or was written. -/
theorem written_cases {m : List UInt8} (h : written f es key = some m) :
    (∃ v, (key, v) ∈ es ∧ m = v.bytes ++ [0] ++ [0]) ∨ f key = some m := by
  induction es generalizing f with
  | nil => exact Or.inr h
  | cons e es ih =>
    rw [written_cons] at h
    rcases ih h with ⟨v, hv, hm⟩ | hf
    · exact Or.inl ⟨v, List.mem_cons_of_mem e hv, hm⟩
    · by_cases hk : key = e.1
      · rw [hk, Function.update_self] at hf
        exact Or.inl ⟨e.2, hk ▸ List.mem_cons_self, (Option.some.inj hf).symm⟩
      · exact Or.inr ((Function.update_of_ne hk _ _).symm.trans hf)

theorem written_of_notMem (h : key ∉ es.map Prod.fst) : written f es key = f key := by
  induction es generalizing f with
  | nil => rfl
  | cons e es ih =>
    rw [List.map_cons, List.mem_cons, not_or] at h
    rw [written_cons, ih h.2, Function.update_of_ne h.1]

/-- With distinct keys every value that was written is there. -/
theorem written_of_mem {v : CString} (hd : (es.map Prod.fst).Nodup) (h : (key, v) ∈ es) :
    written f es key = some (v.bytes ++ [0] ++ [0]) := by
  induction es generalizing f with
  | nil => cases h
  | cons e es ih =>
    rw [List.map_cons, List.nodup_cons] at hd
    rw [written_cons]
    rcases List.mem_cons.mp h with rfl | h
    · rw [written_of_notMem hd.1, Function.update_self]
    · exact ih hd.2 h

/-- A table without a bucket takes no entry. -/
theorem loadChunks_of_nil (hnil : h.nodes = []) {cs : List (List UInt8)} {r : ℤ} {h' : CMHash}
    (hload : loadChunks widen cs h = some (r, h')) : h' = h := by
  induction cs with
  | nil => exact (Prod.ext_iff.mp (Option.some.inj hload)).2.symm
  | cons chunk cs ih =>
    rw [loadChunks] at hload
    split_ifs at hload with hzero
    · exact ih hload
    · rcases hparse : parse chunk with _ | ⟨key, value⟩
      · rw [hparse] at hload
        exact (Prod.ext_iff.mp (Option.some.inj hload)).2.symm
      · rw [hparse] at hload
        simp only [writeText, write, setValue, chain_of_nil hnil] at hload
        cases hload

/-- A table that calls leave: its nodes are where they are looked for, and its values are texts. -/
structure Content (widen : UInt8 → BitVec w) where
  table : CMHash
  values : Values
  inv : table.Inv widen values
  terminated : ∀ key value, values key = some value → 0 ∈ value

namespace Content

variable (c : Content widen)

/-- The entries, in the order of the nodes. -/
def entries : List (CString × CString) :=
  c.table.nodes.flatten.map fun node => (node.key, CString.ofBuffer node.value)

theorem value_of_mem {node : CMHashNode} (hnode : node ∈ c.table.nodes.flatten) :
    c.values node.key = some node.value :=
  c.inv.maps.eq_some_iff.mpr ⟨node, hnode, rfl, rfl⟩

theorem textAt_value {m : List UInt8} (h : c.values key = some m) :
    textAt m = some (CString.ofBuffer m) := if_pos (c.terminated key m h)

theorem saveNode_eq {node : CMHashNode} (hnode : node ∈ c.table.nodes.flatten) :
    saveNode node = some (lineOf node.key (CString.ofBuffer node.value)) := by
  rw [saveNode, c.textAt_value (c.value_of_mem hnode), writeEscaped_eq, lineOf]
  simp [writeEscaped_eq]

/-- **The file** has a line for each entry. -/
theorem saveToDisk_eq :
    c.table.saveToDisk = some (c.entries.flatMap fun e => lineOf e.1 e.2) := by
  have hlines : ∀ nodes : List CMHashNode, (∀ node ∈ nodes, node ∈ c.table.nodes.flatten) →
      nodes.mapM saveNode =
        some (nodes.map fun node => lineOf node.key (CString.ofBuffer node.value)) := by
    intro nodes hnodes
    induction nodes with
    | nil => rfl
    | cons node nodes ih =>
      rw [List.mapM_cons, c.saveNode_eq (hnodes node List.mem_cons_self),
        ih fun node hnode => hnodes node (List.mem_cons_of_mem _ hnode)]
      rfl
  rw [saveToDisk, hlines _ fun _ hnode => hnode, entries, List.flatMap_def, List.map_map]
  rfl

theorem readText_eq (key : CString) :
    c.table.readText widen key = some ((c.values key).map CString.ofBuffer) := by
  rw [c.inv.readText]
  rcases hm : c.values key with _ | m
  · rfl
  · dsimp only
    rw [c.textAt_value hm]
    rfl

theorem nodup_entries : (c.entries.map Prod.fst).Nodup := by
  have hd := c.inv.maps.sorted.distinct_flatten
  rw [entries, List.map_map]
  exact hd

/-- **The round trip**: the file is loaded into an empty table, and the same text is then found under
each key. -/
def RoundTrips (b : LineBuffers) (size : ℕ) : Prop :=
  ∃ file h, c.table.saveToDisk = some file ∧
    loadFromDisk widen b (new size) (some file) = some (0, h) ∧
    ∀ key, ∃ text, c.table.readText widen key = some text ∧ h.readText widen key = some text

/-- Every line that is written fits the buffer as far as `fgets` fills it. -/
def Fits : Prop :=
  ∀ node ∈ c.table.nodes.flatten, ∀ line ∈ saveNode node, line.length ≤ 1023

theorem fits_iff : c.Fits ↔ ∀ e ∈ c.entries, (lineOf e.1 e.2).length ≤ 1023 := by
  rw [entries, List.forall_mem_map]
  refine forall₂_congr fun node hnode => ?_
  rw [c.saveNode_eq hnode]
  simp only [Option.mem_def, Option.some.injEq, forall_eq']

/-- Lines that fit come back. -/
theorem roundTrips_of_fits {size : ℕ} (hsize : 0 < size) (hfits : c.Fits) (b : LineBuffers) :
    c.RoundTrips b size := by
  have hnew : (new size).Inv widen fun _ => none := inv_new hsize
  have hload := hnew.loadChunks (chunks (c.entries.flatMap fun e => lineOf e.1 e.2))
  rw [parsed_lines (c.fits_iff.mp hfits)] at hload
  obtain ⟨h, hload, hinv⟩ := hload
  refine ⟨_, h, c.saveToDisk_eq, (loadFromDisk_eq b _).trans hload, fun key => ?_⟩
  refine ⟨_, c.readText_eq key, ?_⟩
  rw [hinv.readText]
  rcases hm : c.values key with _ | m
  · have hnone : written (fun _ => none) c.entries key = none := by
      rw [Option.eq_none_iff_forall_ne_some]
      intro m' hm'
      rcases written_cases hm' with ⟨v, hv, -⟩ | hf
      · obtain ⟨node, hnode, he⟩ := List.mem_map.mp hv
        have hk : node.key = key := (Prod.ext_iff.mp he).1
        have hvalue := c.value_of_mem hnode
        rw [hk, hm] at hvalue
        cases hvalue
      · cases hf
    rw [hnone]
    rfl
  · obtain ⟨node, hnode, hk, hv⟩ := c.inv.maps.eq_some_iff.mp hm
    have hmem : (key, CString.ofBuffer m) ∈ c.entries :=
      List.mem_map.mpr ⟨node, hnode, by rw [hk, hv]⟩
    rw [written_of_mem c.nodup_entries hmem]
    dsimp only
    rw [textAt_written]
    rfl

/-- **A line that does not fit does not come back.** -/
theorem fits_of_roundTrips {size : ℕ} {b : LineBuffers} (hsize : 0 < size)
    (hround : c.RoundTrips b size) : c.Fits := by
  obtain ⟨file, h, hsave, hload, htexts⟩ := hround
  obtain rfl := Option.some.inj (hsave.symm.trans c.saveToDisk_eq)
  rw [loadFromDisk_eq] at hload
  have hnew : (new size).Inv widen fun _ => none := inv_new hsize
  have hchunks := hnew.loadChunks (chunks (c.entries.flatMap fun e => lineOf e.1 e.2))
  rcases hparsed : parsed (chunks (c.entries.flatMap fun e => lineOf e.1 e.2)) with _ | es
  · rw [hparsed] at hchunks
    obtain ⟨h', hload'⟩ := hchunks
    rw [hload] at hload'
    cases hload'
  rw [hparsed] at hchunks
  obtain ⟨h', hload', hinv⟩ := hchunks
  obtain rfl := (Prod.ext_iff.mp (Option.some.inj (hload.symm.trans hload'))).2
  rw [fits_iff]
  intro e he
  by_contra hlong
  -- the entry is read from some chunk
  have hread : e ∈ es := by
    obtain ⟨node, hnode, rfl⟩ := List.mem_map.mp he
    have hvalue := c.value_of_mem hnode
    obtain ⟨text, htext, htext'⟩ := htexts node.key
    rw [c.readText_eq, hvalue] at htext
    cases htext
    rw [hinv.readText] at htext'
    rcases hm : written (fun _ => none) es node.key with _ | m
    · rw [hm] at htext'
      cases htext'
    · rw [hm] at htext'
      rcases written_cases hm with ⟨v, hv, rfl⟩ | hf
      · dsimp only at htext'
        rw [textAt_written] at htext'
        obtain rfl := Option.some.inj (Option.some.inj htext')
        exact hv
      · cases hf
  obtain ⟨chunk, hchunk, hparse⟩ := exists_parse hparsed hread
  -- so its line is hardly too long, and the rest of it is refused
  have hlength := length_lineOf_le (length_le_of_mem_chunks hchunk) hparse
  have hrefused : (lineOf e.1 e.2).length = 1024 ∨
      (lineOf e.1 e.2).length = 1025 ∧ e.2.bytes.getLast? = some backslash := by
    rcases hlength with hle | hlast
    · exact Or.inl (by omega)
    · exact Or.inr hlast
  obtain ⟨rest, hrest, hzero, hnone⟩ := exists_refused hrefused
  rw [parsed_eq_none (mem_chunks_lines he hrest) hzero hnone] at hparsed
  cases hparsed

/-- **Every file is read to its end**, within the buffers. -/
theorem isSome_loadFromDisk (b : LineBuffers) (file : List UInt8) :
    (loadFromDisk widen b c.table (some file)).isSome := by
  have hload := c.inv.loadChunks (chunks file)
  rw [loadFromDisk_eq]
  rcases hparsed : parsed (chunks file) with _ | es
  · rw [hparsed] at hload
    obtain ⟨h', hload⟩ := hload
    rw [hload]
    rfl
  · rw [hparsed] at hload
    obtain ⟨h', hload, -⟩ := hload
    rw [hload]
    rfl

/-- **When a table comes back from its file.** Exactly when no line that is written for it has more
than 1023 characters with its newline. And any file is read to its end within the buffers, into any
table. -/
theorem roundTrips_iff (b : LineBuffers) (size : ℕ) :
    (c.RoundTrips b size ∧ ∀ (t : Content widen) (file : List UInt8),
      (loadFromDisk widen b t.table (some file)).isSome) ↔ 0 < size ∧ c.Fits := by
  refine ⟨fun ⟨hround, _⟩ => ?_, fun ⟨hsize, hfits⟩ =>
    ⟨c.roundTrips_of_fits hsize hfits b, fun t file => t.isSome_loadFromDisk b file⟩⟩
  rcases Nat.eq_zero_or_pos size with rfl | hsize
  · -- without a bucket nothing is found
    obtain ⟨file, h, -, hload, htexts⟩ := hround
    rw [loadFromDisk_eq] at hload
    obtain rfl := loadChunks_of_nil rfl hload
    obtain ⟨text, -, htext⟩ := htexts ⟨[], by simp⟩
    rw [readText, getValue, findNode, chain_of_nil rfl] at htext
    cases htext
  · exact ⟨hsize, c.fits_of_roundTrips hsize hround⟩

/-- **What any file makes of a table.** Loading succeeds exactly if an entry is read from each chunk
that has no zero in front; then the entries are found as if they had been written one by one. -/
theorem loadFromDisk_finds (b : LineBuffers) (file : List UInt8) :
    ∃ code h, loadFromDisk widen b c.table (some file) = some (code, h) ∧
      (code = 0 ↔ (parsed (chunks file)).isSome) ∧
      ∀ es ∈ parsed (chunks file), h.Finds widen (written c.values es) := by
  have hload := c.inv.loadChunks (chunks file)
  rw [loadFromDisk_eq]
  cases hparsed : parsed (chunks file) with
  | none =>
    rw [hparsed] at hload
    obtain ⟨h, hload⟩ := hload
    exact ⟨1, h, hload, by simp, by simp⟩
  | some es =>
    rw [hparsed] at hload
    obtain ⟨h, hload, hinv⟩ := hload
    exact ⟨0, h, hload, by simp, by simpa using hinv.finds⟩

end Content

/-- A text of so many letters `a`. -/
def letters (n : ℕ) : CString :=
  ⟨List.replicate n 97, fun c hc => by rw [List.eq_of_mem_replicate hc]; decide⟩

/-- The key `k`. -/
def letterK : CString := ⟨ascii "k", nulFree_k⟩

theorem length_lineOf_letters (n : ℕ) : (lineOf letterK (letters n)).length = n + 3 := by
  have hkey : (escape letterK.bytes).length = 1 := rfl
  have hescape : escapeOf 97 = [97] := rfl
  rw [length_lineOf, hkey, letters, escape, List.flatMap_replicate, hescape]
  simp
  omega

/-- The key `k` with a value of 1100 letters: the line fits `string`, and does not come back. -/
theorem not_roundTrips_long :
    ∃ c : Content fun c => c.toBitVec.signExtend 32,
      (new 127).writeText (fun c => c.toBitVec.signExtend 32) letterK (letters 1100) =
        some c.table ∧
      (∀ node ∈ c.table.nodes.flatten, ∀ line ∈ saveNode node, line.length < 2049) ∧
      ¬c.RoundTrips ⟨Vector.replicate 2049 0, Vector.replicate 1024 0, Vector.replicate 1024 0⟩
        127 := by
  have hnew : (new 127).Inv (fun c => c.toBitVec.signExtend 32) fun _ => none :=
    inv_new (by decide)
  obtain ⟨h, hwrite, hinv, -⟩ := hnew.setValue letterK ((letters 1100).bytes ++ [0] ++ [0])
  have hvalue : ∀ {key m}, Function.update (fun _ => none : Values) letterK
      (some ((letters 1100).bytes ++ [0] ++ [0])) key = some m →
      key = letterK ∧ m = (letters 1100).bytes ++ [0] ++ [0] := by
    intro key m hm
    by_cases hk : key = letterK
    · rw [hk, Function.update_self] at hm
      exact ⟨hk, (Option.some.inj hm).symm⟩
    · rw [Function.update_of_ne hk] at hm
      cases hm
  let c : Content fun c => c.toBitVec.signExtend 32 :=
    ⟨h, _, hinv, fun key m hm => by rw [(hvalue hm).2]; simp⟩
  -- there is one line
  have hline : ∀ node ∈ c.table.nodes.flatten, saveNode node =
      some (lineOf letterK (letters 1100)) := by
    intro node hnode
    obtain ⟨hk, hm⟩ := hvalue (c.value_of_mem hnode)
    rw [c.saveNode_eq hnode, hk, hm, List.append_assoc, List.singleton_append,
      CString.ofBuffer_terminated, CString.ofBuffer_bytes]
  refine ⟨c, hwrite, fun node hnode line hl => ?_, fun hround => ?_⟩
  · rw [hline node hnode] at hl
    obtain rfl := Option.some.inj hl
    rw [length_lineOf_letters]
    decide
  · have hfits := c.fits_of_roundTrips (by decide) hround
    have hthere : Function.update (fun _ => none : Values) letterK
        (some ((letters 1100).bytes ++ [0] ++ [0])) letterK = _ := Function.update_self _ _ _
    obtain ⟨node, hnode, -⟩ := hinv.maps.eq_some_iff.mp hthere
    have hlength := hfits node hnode _ (hline node hnode)
    rw [length_lineOf_letters] at hlength
    omega

end CMHash

end MediaFramework
