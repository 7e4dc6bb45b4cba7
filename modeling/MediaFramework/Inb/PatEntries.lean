import MediaFramework.Inb.PatParser

/-!
# The entries of a program association table

What a PAT section is, stated of its bytes: a header whose length field fits, entries of four octets
with valid PIDs, and a CRC. The loop of the parser is followed over the entries one round at a time;
over what is left then, four to seven bytes, it leaves, fails or stays for ever.
-/

namespace MediaFramework

/-! ## Sections and their entries -/

/-- `pat_table_struc2` -/
structure PatEntry where
  program_number_octet1 : UInt8
  program_number_octet2 : UInt8
  unknown_pid_octet3 : UInt8
  unknown_pid_octet4 : UInt8
  deriving DecidableEq

namespace PatEntry

def octets (e : PatEntry) : List UInt8 :=
  [e.program_number_octet1, e.program_number_octet2, e.unknown_pid_octet3, e.unknown_pid_octet4]

def programNumber (e : PatEntry) : ℕ :=
  e.program_number_octet1.toNat <<< 8 ||| e.program_number_octet2.toNat

def pid (e : PatEntry) : ℕ :=
  (e.unknown_pid_octet3.toNat <<< 8 ||| e.unknown_pid_octet4.toNat) &&& 0x1FFF

def info (e : PatEntry) : PmtInfo := ⟨e.programNumber, e.pid⟩

@[simp] theorem length_octets (e : PatEntry) : e.octets.length = 4 := rfl

end PatEntry

/-- The programs an association table lists: those of its entries that are not for the network. -/
def patPrograms (entries : List PatEntry) : List PmtInfo :=
  (entries.filter fun e => e.programNumber != 0).map PatEntry.info

/-- The groups of four octets behind which more is left. -/
def patLooked : List UInt8 → List PatEntry
  | a :: b :: c :: d :: e :: rest => ⟨a, b, c, d⟩ :: patLooked (e :: rest)
  | _ => []

namespace PsiSection

/-- The header of an association table: the table id, the syntax indicator, and a section length
that is not too long and says how many bytes follow it. -/
structure PatFits (s : PsiSection) : Prop where
  three_le : 3 ≤ s.size
  table_id : s.value 0 = 0
  syntaxSet : getBits (s.value 1) 8 8 ≠ 0
  length_le : getBits (s.value 1) 4 1 <<< 8 ||| s.value 2 ≤ 1021
  length_eq : getBits (s.value 1) 4 1 <<< 8 ||| s.value 2 = s.size - 3

instance (s : PsiSection) : Decidable s.PatFits :=
  decidable_of_iff (3 ≤ s.size ∧ s.value 0 = 0 ∧ getBits (s.value 1) 8 8 ≠ 0 ∧
      getBits (s.value 1) 4 1 <<< 8 ||| s.value 2 ≤ 1021 ∧
      getBits (s.value 1) 4 1 <<< 8 ||| s.value 2 = s.size - 3)
    ⟨fun ⟨h₁, h₂, h₃, h₄, h₅⟩ => ⟨h₁, h₂, h₃, h₄, h₅⟩,
      fun ⟨h₁, h₂, h₃, h₄, h₅⟩ => ⟨h₁, h₂, h₃, h₄, h₅⟩⟩

/-- The section is an association table of these entries: after the header its program loop is a
whole number of them, each with a valid PID, and then comes the CRC. -/
structure IsPat (s : PsiSection) (entries : List PatEntry) : Prop where
  fits : s.PatFits
  layout : ∃ head crc, head.length = 8 ∧ crc.length = 4 ∧
    s.bytes = head ++ (entries.flatMap PatEntry.octets ++ crc)
  pids : ∀ e ∈ entries, validPid e.pid = true

/-! ## Reading -/

variable {s : PsiSection}

/-- The two bytes a pointer is at. -/
theorem word_of_drop {pos : ℕ} {a b : UInt8} {rest : List UInt8}
    (h : s.bytes.drop pos = a :: b :: rest) : s.word pos = .ok (a.toNat <<< 8 ||| b.toNat) := by
  have ha : s.bytes[pos]? = some a := by
    have hdrop : (s.bytes.drop pos)[0]? = s.bytes[pos + 0]? := List.getElem?_drop
    rw [h] at hdrop
    exact hdrop.symm
  have hb : s.bytes[pos + 1]? = some b := by
    have hdrop : (s.bytes.drop pos)[1]? = s.bytes[pos + 1]? := List.getElem?_drop
    rw [h] at hdrop
    exact hdrop.symm
  rw [word, byte_ok ha, byte_ok hb]
  rfl

theorem word_overread {pos : ℕ} (h : s.size ≤ pos) : s.word pos = .error .outside := by
  rw [word, byte_overread h]
  rfl

end PsiSection

/-! ## Cutting a program loop into entries -/

theorem patLooked_entries (entries : List PatEntry) {tail : List UInt8} (htail : tail ≠ []) :
    patLooked (entries.flatMap PatEntry.octets ++ tail) = entries ++ patLooked tail := by
  induction entries with
  | nil => rfl
  | cons e entries ih =>
    have hne : entries.flatMap PatEntry.octets ++ tail ≠ [] := by simp [htail]
    obtain ⟨x, xs, hx⟩ := List.exists_cons_of_ne_nil hne
    rw [hx] at ih
    simp only [List.flatMap_cons, PatEntry.octets, List.cons_append, List.nil_append, hx, patLooked,
      ih]

/-- Whatever is long enough for a CRC is entries and four to seven bytes more. -/
theorem exists_patEntries : ∀ (n : ℕ) {l : List UInt8}, l.length ≤ n → 4 ≤ l.length →
    ∃ (entries : List PatEntry) (tail : List UInt8),
      l = entries.flatMap PatEntry.octets ++ tail ∧ 4 ≤ tail.length ∧ tail.length < 8 := by
  intro n
  induction n with
  | zero =>
    intro l hn h4
    omega
  | succ n ih =>
    intro l hn h4
    by_cases h8 : l.length < 8
    · exact ⟨[], l, rfl, h4, h8⟩
    · rcases l with _ | ⟨a, _ | ⟨b, _ | ⟨c, _ | ⟨d, l⟩⟩⟩⟩ <;> simp only [List.length_cons,
        List.length_nil] at hn h4 h8
      · omega
      · omega
      · omega
      · omega
      · obtain ⟨entries, tail, rfl, h₁, h₂⟩ := ih (l := l) (by omega) (by omega)
        exact ⟨⟨a, b, c, d⟩ :: entries, tail, rfl, h₁, h₂⟩

/-! ## The loop over the entries -/

/-- What an entry adds to the programs found. -/
def PatPrograms.enter (c : PatPrograms) (e : PatEntry) : PatPrograms :=
  if e.programNumber ≠ 0 then c.take e.programNumber e.pid else c

section Rounds

variable {s : PsiSection} {l : PatLoop} {e : PatEntry} {rest : List UInt8}

/-- An entry in the loop, with more behind it. -/
theorem patBody_entry (e : PatEntry) (rest : List UInt8)
    (hlen : l.section_length = rest.length + 4) (hrest : 0 < rest.length)
    (hat : s.bytes.drop l.pos = e.octets ++ rest) :
    patBody s l = patRound l e.programNumber e.pid := by
  have hfst : s.word l.pos = .ok e.programNumber := PsiSection.word_of_drop hat
  have hsnd : s.word (l.pos + 2) =
      .ok (e.unknown_pid_octet3.toNat <<< 8 ||| e.unknown_pid_octet4.toNat) := by
    refine @PsiSection.word_of_drop s _ _ _ rest ?_
    rw [← List.drop_drop, hat]
    rfl
  rw [patBody, if_pos (by omega), hfst, hsnd]
  rfl

/-- A valid entry with a CRC behind it is gone past. -/
theorem patBody_next (hlen : l.section_length = rest.length + 4) (hrest : 4 ≤ rest.length)
    (hlt : l.section_length < 2 ^ 32) (hat : s.bytes.drop l.pos = e.octets ++ rest)
    (hpid : validPid e.pid = true) :
    patBody s l = .inr ⟨rest.length, l.pos + 4, l.found.enter e⟩ := by
  rw [patBody_entry e rest hlen (by omega) hat, patRound, if_pos hpid]
  simp only [PatPrograms.enter]
  rw [if_pos (show 4 + 4 ≤ l.section_length by omega), minus_of_le (by omega), hlen,
    Nat.add_sub_cancel]

/-- **Over the entries.** Valid entries take a round each. -/
theorem iterate_patEntries {tail : List UInt8} (htail : 4 ≤ tail.length) (fuel : ℕ) :
    ∀ (entries : List PatEntry) {l : PatLoop},
      l.section_length = (entries.flatMap PatEntry.octets ++ tail).length →
      l.section_length < 2 ^ 32 →
      s.bytes.drop l.pos = entries.flatMap PatEntry.octets ++ tail →
      (∀ e ∈ entries, validPid e.pid = true) →
      iterate (patBody s) (fuel + entries.length) l = iterate (patBody s) fuel
        ⟨tail.length, l.pos + 4 * entries.length, entries.foldl PatPrograms.enter l.found⟩ := by
  intro entries
  induction entries with
  | nil =>
    intro l hlen _ _ _
    obtain ⟨section_length, pos, found⟩ := l
    obtain rfl : section_length = tail.length := hlen
    rfl
  | cons e entries ih =>
    intro l hlen hlt hat hpids
    rw [List.flatMap_cons, List.append_assoc] at hlen hat
    have hround : patBody s l = .inr ⟨(entries.flatMap PatEntry.octets ++ tail).length, l.pos + 4,
        l.found.enter e⟩ := by
      refine patBody_next ?_ ?_ hlt hat (hpids e List.mem_cons_self)
      · rw [hlen, List.length_append, PatEntry.length_octets, Nat.add_comm]
      · rw [List.length_append]
        omega
    rw [List.length_cons, ← Nat.add_assoc, iterate_round hround, ih rfl ?_ ?_
      (fun f hf => hpids f (List.mem_cons_of_mem e hf)), List.foldl_cons]
    · congr 2
      dsimp only
      omega
    · rw [hlen, List.length_append] at hlt
      dsimp only
      omega
    · rw [← List.drop_drop, hat]
      rfl

/-- **An invalid PID.** The loop stops at the first entry it looks at that has one. -/
theorem iterate_patInvalid {tail : List UInt8} (htail : 4 ≤ tail.length) (fuel : ℕ) :
    ∀ (entries : List PatEntry) {l : PatLoop},
      l.section_length = (entries.flatMap PatEntry.octets ++ tail).length →
      l.section_length < 2 ^ 32 →
      s.bytes.drop l.pos = entries.flatMap PatEntry.octets ++ tail →
      (∃ e ∈ entries ++ patLooked tail, validPid e.pid = false) → tail.length < 8 →
      iterate (patBody s) (fuel + entries.length + 1) l = some (.error (.error 7)) := by
  intro entries
  induction entries with
  | nil =>
    rintro l hlen hlt hat ⟨e, he, hpid⟩ h8
    -- the bytes left over are looked at as an entry, though they are none
    rcases tail with _ | ⟨a, _ | ⟨b, _ | ⟨c, _ | ⟨d, _ | ⟨x, rest⟩⟩⟩⟩⟩ <;>
      simp only [List.nil_append, List.length_cons, List.length_nil] at hlen htail h8 he
    · omega
    · omega
    · omega
    · omega
    · cases he
    · have hrest : patLooked (x :: rest) = [] := by
        rcases rest with _ | ⟨_, _ | ⟨_, _ | ⟨_, rest⟩⟩⟩
        · rfl
        · rfl
        · rfl
        · simp only [List.length_cons] at h8
          omega
      rw [patLooked, hrest, List.mem_singleton] at he
      subst he
      refine iterate_leave ?_ _
      rw [patBody_entry ⟨a, b, c, d⟩ (x :: rest) (by simpa using hlen) (by simp) hat,
        patRound, if_neg (by simp [hpid])]
  | cons e entries ih =>
    rintro l hlen hlt hat hbad h8
    rw [List.flatMap_cons, List.append_assoc] at hlen hat
    have hrest : 4 ≤ (entries.flatMap PatEntry.octets ++ tail).length := by
      rw [List.length_append]
      omega
    have hlen' : l.section_length = (entries.flatMap PatEntry.octets ++ tail).length + 4 := by
      rw [hlen, List.length_append, PatEntry.length_octets, Nat.add_comm]
    by_cases hpid : validPid e.pid = true
    · rw [iterate_round (patBody_next hlen' hrest hlt hat hpid), List.length_cons, ← Nat.add_assoc,
        ih rfl ?_ ?_ ?_ h8]
      · dsimp only
        omega
      · rw [← List.drop_drop, hat]
        rfl
      · obtain ⟨f, hf, hbad⟩ := hbad
        refine ⟨f, ?_, hbad⟩
        rcases List.mem_cons.mp hf with rfl | hf
        · rw [hbad] at hpid
          cases hpid
        · exact hf
    · refine iterate_leave ?_ _
      rw [patBody_entry e _ hlen' (by omega) hat, patRound, if_neg hpid]

/-- **Bytes left over.** One to three bytes beside the CRC, and a PID among them that is valid: the
loop stays there. -/
theorem iterate_patRagged {tail : List UInt8} (htail : 4 < tail.length) (h8 : tail.length < 8)
    (hlen : l.section_length = tail.length) (hat : s.bytes.drop l.pos = tail)
    (hpids : ∀ e ∈ patLooked tail, validPid e.pid = true) (fuel : ℕ) :
    iterate (patBody s) fuel l = none := by
  rcases tail with _ | ⟨a, _ | ⟨b, _ | ⟨c, _ | ⟨d, _ | ⟨x, rest⟩⟩⟩⟩⟩ <;>
    simp only [List.length_cons, List.length_nil] at htail h8 hlen
  · omega
  · omega
  · omega
  · omega
  · omega
  · have hpid := hpids ⟨a, b, c, d⟩ (by simp [patLooked])
    refine iterate_eq_none (I := fun k => k.section_length = l.section_length ∧ k.pos = l.pos)
      (fun k hk => ?_) fuel ⟨rfl, rfl⟩
    obtain ⟨hk₁, hk₂⟩ := hk
    refine ⟨⟨k.section_length, k.pos, k.found.enter ⟨a, b, c, d⟩⟩, ?_, hk₁, hk₂⟩
    rw [patBody_entry ⟨a, b, c, d⟩ (x :: rest) (by simp [hk₁, hlen]) (by simp)
      (by rw [hk₂, hat]; rfl), patRound, if_pos hpid]
    simp only [PatPrograms.enter]
    rw [if_neg (by omega)]

end Rounds

/-! ## The programs found -/

/-- What has been found among some entries: the count of their programs and, as far as there is room
for them, the programs themselves. -/
theorem PatPrograms.enter_entries : ∀ (entries : List PatEntry) {c : PatPrograms},
    c.number_of_PMTs + entries.length < 2 ^ 32 →
    (entries.foldl enter c).number_of_PMTs = c.number_of_PMTs + (patPrograms entries).length ∧
    (c.number_of_PMTs + (patPrograms entries).length ≤ 128 →
      load (entries.foldl enter c).pmtInfo 0 (c.number_of_PMTs + (patPrograms entries).length) =
        load c.pmtInfo 0 c.number_of_PMTs ++ patPrograms entries) := by
  intro entries
  induction entries with
  | nil =>
    intro c _
    exact ⟨rfl, fun _ => (List.append_nil _).symm⟩
  | cons e entries ih =>
    intro c hlt
    rw [List.length_cons] at hlt
    rw [List.foldl_cons]
    by_cases hp : e.programNumber = 0
    · have hprograms : patPrograms (e :: entries) = patPrograms entries := by
        simp [patPrograms, hp]
      rw [hprograms, enter, if_neg (by simp [hp])]
      exact ih (by omega)
    · have hprograms : patPrograms (e :: entries) = e.info :: patPrograms entries := by
        simp [patPrograms, hp]
      have henter : c.enter e = c.take e.programNumber e.pid := if_pos hp
      have hnumber : (c.enter e).number_of_PMTs = c.number_of_PMTs + 1 := by
        rw [henter, take, Nat.mod_eq_of_lt (by omega)]
      obtain ⟨hcount, hload⟩ := ih (c := c.enter e) (by rw [hnumber]; omega)
      rw [hprograms, List.length_cons]
      rw [hnumber] at hcount hload
      refine ⟨by rw [hcount]; omega, fun hroom => ?_⟩
      rw [show c.number_of_PMTs + ((patPrograms entries).length + 1) =
        c.number_of_PMTs + 1 + (patPrograms entries).length by omega, hload (by omega),
        load_concat, henter, take, if_pos (by omega)]
      dsimp only
      rw [Nat.zero_add, Function.update_self, load_update (by omega), List.append_assoc]
      rfl

/-- The programs of a table, found from the start. -/
theorem found_patEntries {entries : List PatEntry} (hlt : entries.length < 2 ^ 32)
    (f : ℕ → PmtInfo) :
    (entries.foldl PatPrograms.enter ⟨0, f⟩).number_of_PMTs = (patPrograms entries).length ∧
    ((patPrograms entries).length ≤ 128 →
      load (entries.foldl PatPrograms.enter ⟨0, f⟩).pmtInfo 0 (patPrograms entries).length =
        patPrograms entries) := by
  have h := PatPrograms.enter_entries entries (c := ⟨0, f⟩) (by simpa using hlt)
  simpa using h

end MediaFramework
