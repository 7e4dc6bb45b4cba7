import MediaFramework.Pod.CmHashFile

/-!
# What is loaded from a file

`load_from_disk` in two steps. `fgets` cuts the file into `chunks`, each of them a line or at most
1023 characters of one; and from each chunk an entry is read by `parse` and written to the table, or
there is none and the file is refused. Neither knows of the buffers.
-/

namespace MediaFramework

namespace CMHash

/-! ## The chunks of a file -/

theorem fgets_append (n : ℕ) (file : List UInt8) :
    (fgets n file).1 ++ (fgets n file).2.1 = file := by
  fun_induction fgets n file with
  | case1 => rfl
  | case2 => rfl
  | case3 => rfl
  | case4 n c file hc ih => exact congrArg (c :: ·) ih

theorem length_fgets_le (n : ℕ) (file : List UInt8) : (fgets n file).1.length ≤ n := by
  fun_induction fgets n file with
  | case1 => exact Nat.le_refl 0
  | case2 => exact Nat.zero_le _
  | case3 => exact Nat.succ_le_succ (Nat.zero_le _)
  | case4 n c file hc ih => exact Nat.succ_le_succ ih

/-- The end of the file is met behind its last character. -/
theorem fgets_eof {n : ℕ} {file : List UInt8} (h : (fgets n file).2.2 = true) :
    (fgets n file).2.1 = [] := by
  fun_induction fgets n file with
  | case1 => cases h
  | case2 => rfl
  | case3 => cases h
  | case4 n c file hc ih => exact ih h

/-- Some of a file is read. -/
theorem fgets_ne_nil {n : ℕ} {file : List UInt8} (h : file ≠ []) : (fgets (n + 1) file).1 ≠ [] := by
  cases file with
  | nil => exact absurd rfl h
  | cons c file =>
    rw [fgets]
    split
    · exact List.cons_ne_nil _ _
    · exact List.cons_ne_nil _ _

theorem length_fgets_lt {n : ℕ} {file : List UInt8} (h : file ≠ []) :
    (fgets (n + 1) file).2.1.length < file.length := by
  have happend := congrArg List.length (fgets_append (n + 1) file)
  have hpos := List.length_pos_iff.mpr (fgets_ne_nil (n := n) h)
  rw [List.length_append] at happend
  omega

/-- What `fgets` reads, one call after the other. -/
def chunks (file : List UInt8) : List (List UInt8) :=
  if _ : file = [] then [] else (fgets 1023 file).1 :: chunks (fgets 1023 file).2.1
termination_by file.length
decreasing_by exact length_fgets_lt ‹_›

@[simp] theorem chunks_nil : chunks [] = [] := by
  rw [chunks, dif_pos rfl]

theorem chunks_of_ne_nil {file : List UInt8} (h : file ≠ []) :
    chunks file = (fgets 1023 file).1 :: chunks (fgets 1023 file).2.1 := by
  rw [chunks, dif_neg h]

theorem length_le_of_mem_chunks {file chunk : List UInt8} (h : chunk ∈ chunks file) :
    chunk.length ≤ 1023 := by
  fun_induction chunks file with
  | case1 => cases h
  | case2 file hfile ih =>
    rcases List.mem_cons.mp h with rfl | h
    · exact length_fgets_le 1023 file
    · exact ih h

/-! ## What is loaded -/

namespace LineBuffers

variable {b b' : LineBuffers} {chunk : List UInt8}

/-- A chunk and a terminator behind it. -/
theorem exists_enter (h : chunk.length ≤ 1023) :
    ∃ b', b.enter chunk = some b' ∧ chunk ++ [0] <+: b'.string.toList := by
  refine ⟨_, if_pos (by omega), ?_⟩
  rw [List.prefix_iff_eq_take]
  refine List.ext_getElem ?_ fun i hi hi' => ?_
  · simp
    omega
  · rw [List.length_append, List.length_singleton] at hi
    rw [List.getElem_take, Vector.getElem_toList, Vector.getElem_ofFn]
    by_cases hlt : i < chunk.length
    · simp [hlt]
    · simp [show i = chunk.length by omega]

/-- The reader at the start of a line. -/
theorem holds_start : LineReader.Holds ⟨b, 0, 0, false, 0⟩ ⟨[], [], false⟩ where
  done := rfl
  buf := rfl
  current := List.nil_prefix
  key := fun h => by cases h
  value := fun _ => rfl
  room := Nat.le_refl 0
  nLength := Nat.le_refl 0

end LineBuffers

section

variable {w : ℕ} (widen : UInt8 → BitVec w)

/-- **What is loaded**, chunk after chunk. One with a zero in front is passed over. -/
def loadChunks : List (List UInt8) → CMHash → Option (ℤ × CMHash)
  | [], h => some (0, h)
  | chunk :: chunks, h =>
    if chunk.head? = some 0 then loadChunks chunks h
    else
      match parse chunk with
      | none => some (1, h)
      | some (key, value) => (h.writeText widen key value).bind (loadChunks chunks)

variable {widen} {h : CMHash}

/-- **One line**, from a chunk in `string`. -/
theorem exists_loadLine_eq (widen : UInt8 → BitVec w) (h : CMHash) {b : LineBuffers}
    {chunk : List UInt8} (hlength : chunk.length ≤ 1023)
    (hstring : chunk ++ [0] <+: b.string.toList) :
    ∃ b', loadLine widen b h =
      match parse chunk with
      | none => some none
      | some (key, value) => (h.writeText widen key value).map fun h => some (b', h) := by
  have hstart : LineReader.Holds ⟨b, 0, 0, false, 0⟩ ⟨[], [], false⟩ := LineBuffers.holds_start
  have hfuel : chunk.length < 2049 := by omega
  have hreads := hstart.reads rfl hstring (Nat.zero_add _ ▸ hlength) hfuel
  rcases hscan : scan 0 ⟨[], [], false⟩ chunk with _ | t
  · rw [hscan] at hreads
    refine ⟨b, ?_⟩
    rw [loadLine, parse, hscan, show LineReader.loop 2049 _ = _ from hreads]
    rfl
  · rw [hscan] at hreads
    obtain ⟨s, hloop, hholds, hstr⟩ := hreads
    have hroom := hholds.room
    rw [loadLine, parse, hscan, hloop]
    cases hdone : t.done with
    | false =>
      refine ⟨b, ?_⟩
      simp [hholds.done, hdone]
    | true =>
      rw [hdone, Bool.toNat_true] at hroom
      obtain ⟨s', hput, halike, hholds', hvalue⟩ := hholds.terminate (by omega)
      have hdone' : s'.key_done = true := hholds'.done.trans hdone
      rw [LineReader.buffer, if_pos hdone', LineTexts.current, if_pos hdone] at hvalue
      refine ⟨s'.toLineBuffers, ?_⟩
      have hbuf : s.buf < 1023 := by omega
      simp [hholds.done, hdone, hbuf, hput, textAt_of_prefix (hholds'.key hdone),
        textAt_of_prefix hvalue]
      cases h.writeText widen (CString.ofBuffer t.key) (CString.ofBuffer t.value) <;> rfl

/-- A round of the loop over the file, with the chunk in `string`. -/
theorem loadLoop_succ (widen : UInt8 → BitVec w) (fuel : ℕ) (file : List UInt8)
    (b : LineBuffers) (h : CMHash) :
    ∃ b' : LineBuffers, (fgets 1023 file).1 ++ [0] <+: b'.string.toList ∧
      loadLoop widen (fuel + 1) file false b h =
        if b'.string[0]? = some 0 then
          loadLoop widen fuel (fgets 1023 file).2.1 (fgets 1023 file).2.2 b' h
        else (loadLine widen b' h).bind fun
          | none => some (1, h)
          | some (b, h) =>
            loadLoop widen fuel (fgets 1023 file).2.1 (fgets 1023 file).2.2 b h := by
  obtain ⟨b', henter, hstring⟩ := LineBuffers.exists_enter
    (b := { b with string := b.string.set 0 0, value := b.value.set 0 0 })
    (length_fgets_le 1023 file)
  refine ⟨b', hstring, ?_⟩
  have hiff : b'.string[0]? = some 0 ↔ b'.string[0] = 0 :=
    ⟨Option.some.inj, fun hzero => congrArg some hzero⟩
  simp only [loadLoop, henter, hiff]
  rfl

/-- **The loop over the file loads the chunks**, whatever the buffers hold before. -/
theorem loadLoop_eq {fuel : ℕ} {file : List UInt8} (b : LineBuffers)
    (hfuel : file.length + 1 < fuel) :
    loadLoop widen fuel file false b h = loadChunks widen (chunks file) h := by
  induction fuel generalizing file b h with
  | zero => exact absurd hfuel (Nat.not_lt_zero _)
  | succ fuel ih =>
    obtain ⟨b', hstring, hround⟩ := loadLoop_succ widen fuel file b h
    rw [hround]
    by_cases hfile : file = []
    · subst hfile
      have hzero := getElem?_of_prefix (i := 0) hstring
      obtain ⟨fuel, rfl⟩ := Nat.exists_eq_add_one_of_ne_zero
        (Nat.ne_zero_of_lt (Nat.lt_of_succ_lt_succ hfuel))
      rw [if_pos hzero, chunks_nil]
      rfl
    · -- behind the chunk, at the end of the file or not
      have hnext : ∀ b h, loadLoop widen fuel (fgets 1023 file).2.1 (fgets 1023 file).2.2 b h =
          loadChunks widen (chunks (fgets 1023 file).2.1) h := by
        intro b h
        have hlt : (fgets 1023 file).2.1.length < file.length := length_fgets_lt hfile
        rcases heof : (fgets 1023 file).2.2 with _ | _
        · exact ih b (by omega)
        · obtain ⟨fuel, rfl⟩ := Nat.exists_eq_add_one_of_ne_zero
            (Nat.ne_zero_of_lt (Nat.lt_of_succ_lt_succ hfuel))
          rw [fgets_eof heof, chunks_nil]
          rfl
      rw [chunks_of_ne_nil hfile, loadChunks]
      rcases hchunk : (fgets 1023 file).1 with _ | ⟨c, chunk⟩
      · exact absurd hchunk (fgets_ne_nil hfile)
      · rw [hchunk] at hstring
        have hc := getElem?_of_prefix (i := 0) hstring
        rw [hc, List.head?_cons]
        by_cases hzero : c = 0
        · rw [if_pos (congrArg some hzero), if_pos (congrArg some hzero), hnext]
        · have hlength := length_fgets_le 1023 file
          rw [hchunk] at hlength
          have hne : some c ≠ some 0 := fun h => hzero (Option.some.inj h)
          rw [if_neg hne, if_neg hne]
          obtain ⟨b'', hline⟩ := exists_loadLine_eq widen h hlength hstring
          rw [hline]
          rcases parse (c :: chunk) with _ | ⟨key, value⟩
          · rfl
          · simp only [Option.bind_map, Function.comp_def, hnext]

/-- **Every file is read to its end**, within the buffers. -/
theorem loadFromDisk_eq (b : LineBuffers) (file : List UInt8) :
    loadFromDisk widen b h (some file) = loadChunks widen (chunks file) h :=
  loadLoop_eq b (Nat.lt_succ_self _)

end

end CMHash

end MediaFramework
