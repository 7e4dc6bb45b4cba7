import MediaFramework.Pod.CmHash

/-!
# The file of a hash table (`cmhash.cpp`)

`save_to_disk` writes a line for each node, the key and the value with `=` between them. A newline,
a backslash and a `=` in them are escaped. `load_from_disk` reads the file with `fgets`, line by line or
what `fgets` makes of a line, into the buffer `string`, and takes the line apart into the buffers
`key` and `value`, a character at a time.

The buffers have their sizes, and an access outside them is undefined (`none`). So is a loop that
does not come to its end. In the second half of this file it is shown that neither happens, for any
file, and what the reader makes of a line is said by `parse`, which knows of no buffers.
-/

namespace MediaFramework

namespace CMHash

/-- `'\\n'`, `'='`, `'\\'` and `'n'`. -/
abbrev newline : UInt8 := 10
abbrev equals : UInt8 := 61
abbrev backslash : UInt8 := 92
abbrev letterN : UInt8 := 110

/-- The text at the start of some memory, if it comes to an end there. -/
def textAt (memory : List UInt8) : Option CString :=
  if 0 ∈ memory then some (CString.ofBuffer memory) else none

/-! ## Writing -/

/-- The loop of `save_to_disk` over one text, from `str_ptr` on. In front of it, from `line_ptr` on,
there are characters that are not yet written. -/
def writeEscaped : List UInt8 → List UInt8 → List UInt8
  | line, [] => line
  | line, c :: str =>
    if c = newline ∨ c = backslash ∨ c = equals then
      line ++ backslash :: (if c = newline then letterN else c) :: writeEscaped [] str
    else writeEscaped (line ++ [c]) str

/-- The line of a node. -/
def saveNode (node : CMHashNode) : Option (List UInt8) := do
  let value ← textAt node.value
  return writeEscaped [] node.key.bytes ++ equals :: writeEscaped [] value.bytes ++ [newline]

/-- `save_to_disk`, with the file it writes. -/
def saveToDisk (h : CMHash) : Option (List UInt8) := do
  return (← h.nodes.flatten.mapM saveNode).flatten

/-- `read`, of a text, without an alternate table. -/
def readText {w : ℕ} (widen : UInt8 → BitVec w) (h : CMHash) (key : CString) :
    Option (Option CString) := do
  match ← h.getValue widen key with
  | some value => return some (← textAt value)
  | none => return none

/-! ## Reading a line -/

/-- `fgets`, of at most `n` characters: what is put in front of the terminator, the rest of the file,
and whether its end was met. -/
def fgets : ℕ → List UInt8 → List UInt8 × List UInt8 × Bool
  | 0, file => ([], file, false)
  | _ + 1, [] => ([], [], true)
  | n + 1, c :: file =>
    if c = newline then ([c], file, false)
    else ((c :: (fgets n file).1), (fgets n file).2)

/-- The buffers of `load_from_disk`. -/
structure LineBuffers where
  string : Vector UInt8 2049
  key : Vector UInt8 1024
  value : Vector UInt8 1024

/-- The buffers and the pointers into them. -/
structure LineReader extends LineBuffers where
  /-- `str_ptr`, in `string` -/
  str : ℕ
  /-- `buf_ptr`, in `key` or in `value` -/
  buf : ℕ
  key_done : Bool
  nLength : ℕ

/-- What `fgets` puts into `string`. -/
def LineBuffers.enter (b : LineBuffers) (chunk : List UInt8) : Option LineBuffers :=
  if chunk.length < 2049 then
    some { b with string := Vector.ofFn fun i =>
      if i < chunk.length then chunk.getD i 0 else if i = chunk.length then 0 else b.string[i] }
  else none

namespace LineReader

/-- `*buf_ptr = c` -/
def put (s : LineReader) (c : UInt8) : Option LineReader :=
  if h : s.buf < 1024 then
    if s.key_done then some { s with value := s.value.set s.buf c }
    else some { s with key := s.key.set s.buf c }
  else none

/-- The end of a round: the character at `str_ptr` is copied, if there is room. -/
def copy (s : LineReader) : Option LineReader :=
  if s.nLength < 1023 then do
    let c ← s.string[s.str]?
    let s ← s.put c
    let s := { s with buf := s.buf + 1, str := s.str + 1 }
    let s ← s.put 0
    return { s with nLength := s.nLength + 1 }
  else return s

/-- A round of the loop over the characters: it goes on, comes to the end of the line, or makes
`load_from_disk` return 1. -/
def round (s : LineReader) : Option (Option LineReader ⊕ LineReader) := do
  let c ← s.string[s.str]?
  if c = newline ∨ c = 0 then return .inl (some s)
  else if c = equals then
    if s.key_done then return .inl none
    else
      let s ← s.put 0
      return .inr { s with buf := 0, str := s.str + 1, key_done := true, nLength := 0 }
  else if c = backslash ∧ s.str < 1022 then
    let s := { s with str := s.str + 1 }
    let c ← s.string[s.str]?
    if c = 0 then return .inl none
    else if c = letterN then
      let s ← s.put newline
      return .inr { s with buf := s.buf + 1, str := s.str + 1 }
    else return .inr (← s.copy)
  else return .inr (← s.copy)

/-- The loop over the characters, for so many rounds. -/
def loop : ℕ → LineReader → Option (Option LineReader)
  | 0, _ => none
  | fuel + 1, s => do
    match ← s.round with
    | .inl r => return r
    | .inr s => loop fuel s

end LineReader

section

variable {w : ℕ} (widen : UInt8 → BitVec w)

/-- The line in `string` is taken apart and its value written, or `load_from_disk` returns 1. -/
def loadLine (b : LineBuffers) (h : CMHash) : Option (Option (LineBuffers × CMHash)) := do
  match ← LineReader.loop 2049 ⟨b, 0, 0, false, 0⟩ with
  | none => return none
  | some s =>
    if s.key_done ∧ s.buf < 1023 then
      let s ← s.put 0
      let h ← h.writeText widen (← textAt s.key.toList) (← textAt s.value.toList)
      return some (s.toLineBuffers, h)
    else return none

/-- The loop of `load_from_disk` over the file, for so many rounds. -/
def loadLoop : ℕ → List UInt8 → Bool → LineBuffers → CMHash → Option (ℤ × CMHash)
  | 0, _, _, _, _ => none
  | fuel + 1, file, eof, b, h =>
    if eof then some (0, h)
    else do
      let b := { b with string := b.string.set 0 0, value := b.value.set 0 0 }
      -- `fgets (string, CM_HASH_TEXT_LEN * sizeof(char), file)`
      let b ← b.enter (fgets 1023 file).1
      if b.string[0] = 0 then loadLoop fuel (fgets 1023 file).2.1 (fgets 1023 file).2.2 b h
      else
        match ← loadLine widen b h with
        | none => return (1, h)
        | some (b, h) => loadLoop fuel (fgets 1023 file).2.1 (fgets 1023 file).2.2 b h

/-- `load_from_disk`, of the file at the path, if there is one. The buffers are as they come. -/
def loadFromDisk (b : LineBuffers) (h : CMHash) : Option (List UInt8) → Option (ℤ × CMHash)
  | none => some (1, h)
  | some file => loadLoop widen (file.length + 2) file false b h

end

/-! ## What is made of a line -/

/-- The texts that a line is taken apart into. -/
structure LineTexts where
  key : List UInt8
  value : List UInt8
  done : Bool

/-- One more character. -/
def LineTexts.put (t : LineTexts) (c : UInt8) : LineTexts :=
  if t.done then { t with value := t.value ++ [c] } else { t with key := t.key ++ [c] }

/-- The characters from place `i` on are read. -/
def scan : ℕ → LineTexts → List UInt8 → Option LineTexts
  | _, t, [] => some t
  | i, t, c :: rest =>
    if c = newline ∨ c = 0 then some t
    else if c = equals then if t.done then none else scan (i + 1) { t with done := true } rest
    else if c = backslash ∧ i < 1022 then
      match rest with
      | [] => none
      | d :: rest =>
        if d = 0 then none
        else scan (i + 2) (t.put (if d = letterN then newline else d)) rest
    else scan (i + 1) (t.put c) rest

/-- **What is made of a line**, if it has a `=`. -/
def parse (chunk : List UInt8) : Option (CString × CString) := do
  let t ← scan 0 ⟨[], [], false⟩ chunk
  if t.done then return (CString.ofBuffer t.key, CString.ofBuffer t.value) else none

/-! ## The reader and its buffers -/

section Prefix

variable {l : List UInt8} {n : ℕ} {v : Vector UInt8 n} {c : UInt8}

/-- One more character is stored behind those that are there. -/
theorem prefix_set (h : l <+: v.toList) (hlt : l.length < n) :
    l ++ [c] <+: (v.set l.length c).toList := by
  obtain ⟨r, hr⟩ := h
  have hlength := congrArg List.length hr
  rw [List.length_append, Vector.length_toList] at hlength
  rw [Vector.toList_set, ← hr]
  cases r with
  | nil =>
    rw [List.length_nil] at hlength
    omega
  | cons d r => exact ⟨r, by simp⟩

/-- Then the text in the buffer is known. -/
theorem textAt_of_prefix (h : l ++ [0] <+: v.toList) :
    textAt v.toList = some (CString.ofBuffer l) := by
  obtain ⟨r, hr⟩ := h
  rw [List.append_assoc, List.singleton_append] at hr
  rw [textAt, if_pos (by simp [← hr]), ← hr, CString.ofBuffer_terminated]

theorem getElem?_of_prefix {i : ℕ} (h : c :: l <+: v.toList.drop i) : v[i]? = some c := by
  obtain ⟨r, hr⟩ := h
  rw [← Vector.getElem?_toList, ← Nat.add_zero i, ← List.getElem?_drop, ← hr]
  rfl

theorem prefix_drop {i : ℕ} (h : c :: l <+: v.toList.drop i) : l <+: v.toList.drop (i + 1) := by
  obtain ⟨r, hr⟩ := h
  refine ⟨r, ?_⟩
  rw [← List.drop_drop, ← hr]
  rfl

end Prefix

namespace LineTexts

/-- The text that is being read. -/
def current (t : LineTexts) : List UInt8 := if t.done then t.value else t.key

theorem current_put (t : LineTexts) (c : UInt8) : (t.put c).current = t.current ++ [c] := by
  cases hdone : t.done <;> simp [put, current, hdone]

@[simp] theorem done_put (t : LineTexts) (c : UInt8) : (t.put c).done = t.done := by
  cases hdone : t.done <;> simp [put, hdone]

theorem key_put (t : LineTexts) (c : UInt8) (h : t.done = true) : (t.put c).key = t.key := by
  simp [put, h]

theorem value_put (t : LineTexts) (c : UInt8) (h : t.done = false) :
    (t.put c).value = t.value := by
  simp [put, h]

end LineTexts

namespace LineReader

/-- The buffer that `buf_ptr` points into. -/
def buffer (s : LineReader) : Vector UInt8 1024 := if s.key_done then s.value else s.key

/-- The texts are in the buffers. -/
structure Holds (s : LineReader) (t : LineTexts) : Prop where
  done : s.key_done = t.done
  buf : s.buf = t.current.length
  current : t.current <+: s.buffer.toList
  /-- the key is ended where the value is read -/
  key : t.done = true → t.key ++ [0] <+: s.key.toList
  value : t.done = false → t.value = []
  /-- nothing is stored that was not read -/
  room : s.buf + t.done.toNat ≤ s.str
  nLength : s.nLength ≤ s.buf

/-- Everything but the texts. -/
structure Alike (s s' : LineReader) : Prop where
  string : s'.string = s.string
  str : s'.str = s.str
  buf : s'.buf = s.buf
  done : s'.key_done = s.key_done
  nLength : s'.nLength = s.nLength

variable {s s' : LineReader} {t : LineTexts} {c : UInt8}

/-- **A character is stored** behind the current text. -/
theorem Holds.put (h : s.Holds t) (hlt : s.buf < 1024) (c : UInt8) :
    ∃ s', s.put c = some s' ∧ Alike s s' ∧ t.current ++ [c] <+: s'.buffer.toList ∧
      (t.done = true → s'.key = s.key) := by
  have hset := prefix_set (c := c) h.current (h.buf ▸ hlt)
  rw [LineReader.put, dif_pos hlt]
  cases hdone : s.key_done with
  | true =>
    simp only [buffer, hdone, if_true, ← h.buf] at hset
    exact ⟨_, rfl, ⟨rfl, rfl, rfl, hdone.symm ▸ rfl, rfl⟩, by simpa [buffer] using hset,
      fun _ => rfl⟩
  | false =>
    simp only [buffer, hdone, ← h.buf] at hset
    refine ⟨_, rfl, ⟨rfl, rfl, rfl, hdone.symm ▸ rfl, rfl⟩, by simpa [buffer] using hset,
      fun ht => ?_⟩
    rw [← h.done, hdone] at ht
    cases ht

/-- One character more is read into the texts. -/
theorem Holds.append (h : s.Holds t) (hlt : s.buf < 1024) (c : UInt8) :
    ∃ s', s.put c = some s' ∧ Alike s s' ∧
      ∀ str nLength, s.str < str → nLength ≤ s.buf + 1 →
        Holds { s' with buf := s'.buf + 1, str := str, nLength := nLength } (t.put c) := by
  obtain ⟨s', hput, halike, hcurrent, hkey⟩ := h.put hlt c
  refine ⟨s', hput, halike, fun str nLength hstr hn => ?_⟩
  have hroom := h.room
  exact
    { done := by rw [LineTexts.done_put, ← h.done]; exact halike.done
      buf := by rw [LineTexts.current_put, List.length_append, ← h.buf, ← halike.buf]; rfl
      current := by rw [LineTexts.current_put]; exact hcurrent
      key := fun hd => by
        rw [LineTexts.done_put] at hd
        rw [LineTexts.key_put t c hd]
        exact hkey hd ▸ h.key hd
      value := fun hd => by
        rw [LineTexts.done_put] at hd
        rw [LineTexts.value_put t c hd]
        exact h.value hd
      room := by
        rw [LineTexts.done_put]
        dsimp only
        rw [halike.buf]
        omega
      nLength := by
        rw [halike.buf]
        exact hn }

/-- A terminator is stored behind the current text. -/
theorem Holds.terminate (h : s.Holds t) (hlt : s.buf < 1024) :
    ∃ s', s.put 0 = some s' ∧ Alike s s' ∧ s'.Holds t ∧
      t.current ++ [0] <+: s'.buffer.toList := by
  obtain ⟨s', hput, halike, hcurrent, hkey⟩ := h.put hlt 0
  exact ⟨s', hput, halike,
    { done := halike.done.trans h.done
      buf := halike.buf.trans h.buf
      current := (List.prefix_append _ _).trans hcurrent
      key := fun hd => hkey hd ▸ h.key hd
      value := h.value
      room := by rw [halike.buf, halike.str]; exact h.room
      nLength := by rw [halike.buf, halike.nLength]; exact h.nLength }, hcurrent⟩

/-- The character at `str_ptr` is copied: there is room for it. -/
theorem Holds.copy (h : s.Holds t) (hc : s.string[s.str]? = some c) (hstr : s.str < 1023) :
    ∃ s', s.copy = some s' ∧ s'.Holds (t.put c) ∧ s'.string = s.string ∧ s'.str = s.str + 1 := by
  have hroom := h.room
  have hn := h.nLength
  obtain ⟨s₁, hput, halike, happend⟩ := h.append (by omega) c
  have h₁ := happend (s₁.str + 1) s₁.nLength (by rw [halike.str]; omega)
    (by rw [halike.nLength]; omega)
  obtain ⟨s₂, hput₂, halike₂, h₂, -⟩ := h₁.terminate (by dsimp only; rw [halike.buf]; omega)
  refine ⟨{ s₂ with nLength := s₂.nLength + 1 }, ?_, ?_, ?_, ?_⟩
  · rw [LineReader.copy, if_pos (by omega), hc]
    exact (congrArg (· >>= _) hput).trans (congrArg (· >>= _) hput₂)
  · exact
      { done := h₂.done
        buf := h₂.buf
        current := h₂.current
        key := h₂.key
        value := h₂.value
        room := h₂.room
        nLength := by
          have h₂n := halike₂.nLength
          have h₂b := halike₂.buf
          dsimp only at h₂n h₂b ⊢
          rw [h₂n, h₂b, halike.nLength, halike.buf]
          omega }
  · exact halike₂.string.trans halike.string
  · exact halike₂.str.trans (congrArg (· + 1) halike.str)

/-- The key is ended, and the value begun. -/
theorem Holds.begin (h : s.Holds t) (hdone : t.done = false) (hstr : s.str < 1023) :
    ∃ s', s.put 0 = some s' ∧ s'.string = s.string ∧ s'.str = s.str ∧
      Holds { s' with buf := 0, str := s'.str + 1, key_done := true, nLength := 0 }
        { t with done := true } := by
  have hroom := h.room
  obtain ⟨s', hput, halike, -, hcurrent⟩ := h.terminate (by omega)
  have hvalue := h.value hdone
  refine ⟨s', hput, halike.string, halike.str, ?_⟩
  have hs' : s'.key_done = false := by rw [halike.done, h.done, hdone]
  simp only [buffer, hs', LineTexts.current, hdone] at hcurrent
  exact
    { done := rfl
      buf := by simp [LineTexts.current, hvalue]
      current := by simp [LineTexts.current, hvalue]
      key := fun _ => by simpa using hcurrent
      value := fun hd => by cases hd
      room := by simp
      nLength := Nat.le_refl 0 }

/-! ## A round, by its character -/

theorem round_end (hc : s.string[s.str]? = some c) (hend : c = newline ∨ c = 0) :
    s.round = some (.inl (some s)) := by
  simp [round, hc, hend]

theorem round_second (h : s.Holds t) (hc : s.string[s.str]? = some equals)
    (hdone : t.done = true) : s.round = some (.inl none) := by
  simp only [round, hc, Option.bind_eq_bind, Option.bind_some, h.done, hdone]
  rfl

theorem Holds.round_equals (h : s.Holds t) (hc : s.string[s.str]? = some equals)
    (hdone : t.done = false) (hstr : s.str < 1023) :
    ∃ s', s.round = some (.inr s') ∧ s'.Holds { t with done := true } ∧ s'.string = s.string ∧
      s'.str = s.str + 1 := by
  obtain ⟨s', hput, hstring, hstr', h'⟩ := h.begin hdone hstr
  refine ⟨_, ?_, h', hstring, congrArg (· + 1) hstr'⟩
  simp only [round, hc, Option.bind_eq_bind, Option.bind_some, h.done, hdone, hput]
  rfl

theorem round_escape_end {d : UInt8} (hc : s.string[s.str]? = some c)
    (hend : ¬(c = newline ∨ c = 0)) (heq : ¬c = equals) (hb : c = backslash ∧ s.str < 1022)
    (hd : s.string[s.str + 1]? = some d) (hzero : d = 0) : s.round = some (.inl none) := by
  simp only [round, hc, Option.bind_eq_bind, Option.bind_some, if_neg hend, if_neg heq, if_pos hb,
    hd, if_pos hzero]
  rfl

theorem Holds.round_escape {d : UInt8} (h : s.Holds t) (hc : s.string[s.str]? = some c)
    (hend : ¬(c = newline ∨ c = 0)) (heq : ¬c = equals) (hb : c = backslash ∧ s.str < 1022)
    (hd : s.string[s.str + 1]? = some d) (hzero : ¬d = 0) :
    ∃ s', s.round = some (.inr s') ∧ s'.Holds (t.put (if d = letterN then newline else d)) ∧
      s'.string = s.string ∧ s'.str = s.str + 2 := by
  have hstr := hb.2
  -- the backslash itself is stepped over
  have h₁ : Holds { s with str := s.str + 1 } t :=
    { h with room := Nat.le_succ_of_le h.room }
  simp only [round, hc, Option.bind_eq_bind, Option.bind_some, if_neg hend, if_neg heq, if_pos hb,
    hd, if_neg hzero]
  by_cases hn : d = letterN
  · have hroom := h.room
    obtain ⟨s', hput, halike, happend⟩ := h₁.append (by dsimp only; omega) newline
    refine ⟨{ s' with buf := s'.buf + 1, str := s'.str + 1 }, ?_, ?_, halike.string, ?_⟩
    · rw [if_pos hn, hput]
      rfl
    · rw [if_pos hn]
      exact happend (s'.str + 1) s'.nLength (by rw [halike.str]; exact Nat.lt_succ_self _)
        (by rw [halike.nLength]; exact Nat.le_succ_of_le h₁.nLength)
    · exact congrArg (· + 1) halike.str
  · obtain ⟨s', hcopy, h', hstring, hstr'⟩ := h₁.copy hd (Nat.succ_lt_succ hstr)
    refine ⟨s', ?_, ?_, hstring, hstr'⟩
    · rw [if_neg hn, hcopy]
      rfl
    · rw [if_neg hn]
      exact h'

theorem Holds.round_plain (h : s.Holds t) (hc : s.string[s.str]? = some c)
    (hend : ¬(c = newline ∨ c = 0)) (heq : ¬c = equals) (hb : ¬(c = backslash ∧ s.str < 1022))
    (hstr : s.str < 1023) :
    ∃ s', s.round = some (.inr s') ∧ s'.Holds (t.put c) ∧ s'.string = s.string ∧
      s'.str = s.str + 1 := by
  obtain ⟨s', hcopy, h', hstring, hstr'⟩ := h.copy hc hstr
  refine ⟨s', ?_, h', hstring, hstr'⟩
  simp only [round, hc, Option.bind_eq_bind, Option.bind_some, if_neg hend, if_neg heq, if_neg hb,
    hcopy]
  rfl

theorem loop_leave {r : Option LineReader} (hround : s.round = some (.inl r)) (fuel : ℕ) :
    loop (fuel + 1) s = some r := by
  simp [loop, hround]

theorem loop_go (hround : s.round = some (.inr s')) (fuel : ℕ) :
    loop (fuel + 1) s = loop fuel s' := by
  simp [loop, hround]

/-- What the loop leaves, by what `scan` reads. -/
def Reads (fuel : ℕ) (s : LineReader) : Option LineTexts → Prop
  | none => loop fuel s = some none
  | some t => ∃ s', loop fuel s = some (some s') ∧ s'.Holds t ∧ s'.str ≤ 1023

theorem Reads.of_round {fuel : ℕ} {r : Option LineTexts} (h : Reads fuel s' r)
    (hround : s.round = some (.inr s')) : Reads (fuel + 1) s r := by
  cases r with
  | none => exact (loop_go hround fuel).trans h
  | some t =>
    obtain ⟨s'', hloop, h''⟩ := h
    exact ⟨s'', (loop_go hround fuel).trans hloop, h''⟩

/-- **The loop reads what `scan` reads**, and comes to an end within the buffers. -/
theorem Holds.reads {i fuel : ℕ} {rest : List UInt8} (h : s.Holds t) (hi : s.str = i)
    (hrest : rest ++ [0] <+: s.string.toList.drop i) (hlength : i + rest.length ≤ 1023)
    (hfuel : rest.length < fuel) : Reads fuel s (scan i t rest) := by
  -- a round at a time; the fuel is one more than what is left for the rest
  obtain ⟨fuel, rfl⟩ := Nat.exists_eq_add_one_of_ne_zero (Nat.ne_zero_of_lt hfuel)
  rw [Nat.lt_add_one_iff] at hfuel
  fun_induction scan i t rest generalizing fuel s with
  | case1 i t =>
    have hc := hi.symm ▸ getElem?_of_prefix hrest
    exact ⟨s, loop_leave (round_end hc (Or.inr rfl)) fuel, h, hi ▸ hlength⟩
  | case2 i t c rest hend =>
    have hc := hi.symm ▸ getElem?_of_prefix hrest
    exact ⟨s, loop_leave (round_end hc hend) fuel, h, by omega⟩
  | case3 i t rest hdone =>
    have hc := hi.symm ▸ getElem?_of_prefix hrest
    exact loop_leave (round_second h hc hdone) fuel
  | case4 i t rest hdone _ ih =>
    have hc := hi.symm ▸ getElem?_of_prefix hrest
    rw [List.length_cons] at hlength hfuel
    obtain ⟨s', hround, h', hstring, hstr⟩ :=
      h.round_equals hc (Bool.eq_false_iff.mpr hdone) (by omega)
    obtain ⟨fuel, rfl⟩ := Nat.exists_eq_add_one_of_ne_zero (Nat.ne_zero_of_lt hfuel)
    exact (ih h' (by omega) (hstring ▸ prefix_drop hrest) (by omega) fuel (by omega)).of_round hround
  | case5 i t c hend heq hb | case6 i t c hend heq hb rest =>
    have hc := hi.symm ▸ getElem?_of_prefix hrest
    have hd := hi.symm ▸ getElem?_of_prefix (prefix_drop hrest)
    exact loop_leave (round_escape_end hc hend heq (hi.symm ▸ hb) hd rfl) fuel
  | case7 i t c hend heq hb d rest hzero ih =>
    have hc := hi.symm ▸ getElem?_of_prefix hrest
    have hd := hi.symm ▸ getElem?_of_prefix (prefix_drop hrest)
    rw [List.length_cons, List.length_cons] at hlength hfuel
    obtain ⟨s', hround, h', hstring, hstr⟩ := h.round_escape hc hend heq (hi.symm ▸ hb) hd hzero
    obtain ⟨fuel, rfl⟩ := Nat.exists_eq_add_one_of_ne_zero (Nat.ne_zero_of_lt hfuel)
    exact (ih h' (by omega) (hstring ▸ prefix_drop (prefix_drop hrest)) (by omega) fuel
      (by omega)).of_round hround
  | case8 i t c rest hend heq hb ih =>
    have hc := hi.symm ▸ getElem?_of_prefix hrest
    rw [List.length_cons] at hlength hfuel
    obtain ⟨s', hround, h', hstring, hstr⟩ :=
      h.round_plain hc hend heq (hi.symm ▸ hb) (by omega)
    obtain ⟨fuel, rfl⟩ := Nat.exists_eq_add_one_of_ne_zero (Nat.ne_zero_of_lt hfuel)
    exact (ih h' (by omega) (hstring ▸ prefix_drop hrest) (by omega) fuel (by omega)).of_round hround

end LineReader

end CMHash

end MediaFramework
