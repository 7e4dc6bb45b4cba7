import MediaFramework.Inb.PmtParser

/-!
# The descriptors and streams of a program map table

What a PMT section is, stated of its bytes: twelve bytes of header, as many bytes of outer
descriptors as it says, elementary streams each with as many bytes of descriptors as it says, and a
CRC. Here the loops of the parser are followed over such bytes, and over the bytes of sections that
are none.

The two passes go the same way over the streams, and are followed together: `passStreams` is what
they do to the list of streams, nothing in the case of the first one.
-/

namespace MediaFramework

/-! ## Descriptors and streams, as bytes -/

/-- `generic_descriptor_struc`, and the content behind it. -/
structure DescriptorBytes where
  tag : UInt8
  content : List UInt8
  /-- the length is one octet -/
  length_lt : content.length < 256

namespace DescriptorBytes

def octets (d : DescriptorBytes) : List UInt8 :=
  d.tag :: UInt8.ofNat d.content.length :: d.content

/-- As it is stored. -/
def info (d : DescriptorBytes) : PmtDescriptor := ⟨d.tag.toNat, d.content⟩

@[simp] theorem length_octets (d : DescriptorBytes) : d.octets.length = d.content.length + 2 := rfl

theorem toNat_length (d : DescriptorBytes) :
    (UInt8.ofNat d.content.length).toNat = d.content.length :=
  UInt8.toNat_ofNat_of_lt d.length_lt

/-- The descriptor a tag, a length and enough bytes are the beginning of. -/
def ofOctets (tag length : UInt8) (rest : List UInt8) : DescriptorBytes where
  tag := tag
  content := rest.take length.toNat
  length_lt := by
    rw [List.length_take]
    exact Nat.lt_of_le_of_lt (Nat.min_le_left _ _) length.toNat_lt

theorem octets_ofOctets {tag length : UInt8} {rest : List UInt8} (h : length.toNat ≤ rest.length) :
    (ofOctets tag length rest).octets ++ rest.drop length.toNat = tag :: length :: rest := by
  have hlen : (rest.take length.toNat).length = length.toNat := by
    rw [List.length_take, Nat.min_eq_left h]
  simp only [octets, ofOctets, hlen, UInt8.ofNat_toNat, List.cons_append, List.take_append_drop]

end DescriptorBytes

/-- The bytes of some descriptors. -/
def descriptorOctets (ds : List DescriptorBytes) : List UInt8 := ds.flatMap DescriptorBytes.octets

@[simp] theorem descriptorOctets_nil : descriptorOctets [] = [] := rfl

@[simp] theorem descriptorOctets_cons (d : DescriptorBytes) (ds : List DescriptorBytes) :
    descriptorOctets (d :: ds) = d.octets ++ descriptorOctets ds := rfl

theorem length_descriptorOctets_ne_one (ds : List DescriptorBytes) :
    (descriptorOctets ds).length ≠ 1 := by
  rcases ds with _ | ⟨d, ds⟩
  · decide
  · rw [descriptorOctets_cons, List.length_append, DescriptorBytes.length_octets]
    omega

/-- `pmt_table_struc3`, and the descriptors behind it. -/
structure StreamBytes where
  stream_type_octet1 : UInt8
  elementary_pid_octet2 : UInt8
  elementary_pid_octet3 : UInt8
  es_info_length_octet4 : UInt8
  es_info_length_octet5 : UInt8
  descriptors : List DescriptorBytes

namespace StreamBytes

def head (x : StreamBytes) : List UInt8 :=
  [x.stream_type_octet1, x.elementary_pid_octet2, x.elementary_pid_octet3, x.es_info_length_octet4,
    x.es_info_length_octet5]

def octets (x : StreamBytes) : List UInt8 := x.head ++ descriptorOctets x.descriptors

def type (x : StreamBytes) : ℕ := x.stream_type_octet1.toNat

def pid (x : StreamBytes) : ℕ :=
  (x.elementary_pid_octet2.toNat &&& 0x1F) <<< 8 ||| x.elementary_pid_octet3.toNat

/-- `es_info_length`: ten bits of it. -/
def esInfoLength (x : StreamBytes) : ℕ :=
  ((x.es_info_length_octet4.toNat &&& 0x0F) <<< 8 ||| x.es_info_length_octet5.toNat) % 1024

@[simp] theorem length_octets (x : StreamBytes) :
    x.octets.length = (descriptorOctets x.descriptors).length + 5 := by
  rw [octets, List.length_append, head]
  simp only [List.length_cons, List.length_nil]
  omega

/-- What the first pass lets pass: descriptors of the length that is said, or nothing where the
length that is said is one. -/
def Passed (noPcr : Bool) (x : StreamBytes) : Prop :=
  (x.esInfoLength = (descriptorOctets x.descriptors).length ∨
    x.esInfoLength = 1 ∧ x.descriptors = []) ∧ ¬ (noPcr = true ∧ nonPrivate x.type = true)

end StreamBytes

/-- The bytes of some streams. -/
def streamOctets (xs : List StreamBytes) : List UInt8 := xs.flatMap StreamBytes.octets

@[simp] theorem streamOctets_nil : streamOctets [] = [] := rfl

@[simp] theorem streamOctets_cons (x : StreamBytes) (xs : List StreamBytes) :
    streamOctets (x :: xs) = x.octets ++ streamOctets xs := rfl

namespace PsiSection

/-- The section is a program map table of these outer descriptors and streams. -/
structure IsPmt (s : PsiSection) (outer : List DescriptorBytes) (streams : List StreamBytes) :
    Prop where
  layout : ∃ head crc, head.length = 12 ∧ crc.length = 4 ∧
    s.bytes = head ++ (descriptorOctets outer ++ (streamOctets streams ++ crc))
  program_info_length :
    (descriptorOctets outer).length = (s.value 10 &&& 0x0F) <<< 8 ||| s.value 11
  es_info_length : ∀ x ∈ streams, x.esInfoLength = (descriptorOctets x.descriptors).length

end PsiSection

/-- The streams the loop goes over, with enough behind the head of each for a CRC. -/
def Walked (noPcr : Bool) : List StreamBytes → List UInt8 → Prop
  | [], _ => True
  | x :: xs, rest =>
    9 ≤ (x.octets ++ (streamOctets xs ++ rest)).length ∧ x.Passed noPcr ∧ Walked noPcr xs rest

/-! ## What the passes do to the list of streams -/

/-- Of a descriptor whose content is at `pos`. -/
def passDescriptor (first : Bool) (s : PsiSection) (pid type pos : ℕ) (d : DescriptorBytes)
    (streams : List ElementaryStream) : Except PsiStop (List ElementaryStream) :=
  if first then .ok streams
  else setDescriptor s pid type d.tag.toNat d.content.length pos streams

/-- Of the descriptors from `pos` on. -/
def passDescriptors (first : Bool) (s : PsiSection) (pid type : ℕ) :
    ℕ → List DescriptorBytes → List ElementaryStream → Except PsiStop (List ElementaryStream)
  | _, [], streams => .ok streams
  | pos, d :: ds, streams => do
    let streams ← passDescriptor first s pid type (pos + 2) d streams
    passDescriptors first s pid type (pos + 2 + d.content.length) ds streams

/-- Of the head of a stream. -/
def passHead (first : Bool) (x : StreamBytes) (streams : List ElementaryStream) :
    List ElementaryStream :=
  if first then streams
  else setESInfoLength x.pid x.type x.esInfoLength (setElementaryStream x.type x.pid streams)

/-- Of the streams from `pos` on. -/
def passStreams (first : Bool) (s : PsiSection) :
    ℕ → List StreamBytes → List ElementaryStream → Except PsiStop (List ElementaryStream)
  | _, [], streams => .ok streams
  | pos, x :: xs, streams => do
    let streams ← passDescriptors first s x.pid x.type (pos + 5) x.descriptors
      (passHead first x streams)
    passStreams first s (pos + x.octets.length) xs streams

/-- The first pass does nothing to it. -/
theorem passStreams_first (s : PsiSection) : ∀ (xs : List StreamBytes) (pos : ℕ)
    (streams : List ElementaryStream), passStreams true s pos xs streams = .ok streams := by
  have hds : ∀ (pid type : ℕ) (ds : List DescriptorBytes) (pos : ℕ)
      (streams : List ElementaryStream),
      passDescriptors true s pid type pos ds streams = .ok streams := by
    intro pid type ds
    induction ds with
    | nil => exact fun _ _ => rfl
    | cons d ds ih => exact fun pos streams => ih _ streams
  intro xs
  induction xs with
  | nil => exact fun _ _ => rfl
  | cons x xs ih =>
    intro pos streams
    rw [passStreams, hds]
    exact ih _ streams

/-- The loop has come to a state, or has stopped, as its effect says. -/
def Comes {σ ρ α : Type} (body : σ → Except PsiStop ρ ⊕ σ) (w : σ) (effect : Except PsiStop α)
    (after : α → σ) : Prop :=
  match effect with
  | .ok a => Rounds body w (after a)
  | .error stop => Leaves body w (.error stop)

section Comes

variable {σ ρ α β : Type} {body : σ → Except PsiStop ρ ⊕ σ} {w w' : σ}

theorem Comes.of_rounds {effect : Except PsiStop α} {after : α → σ} (h : Rounds body w w')
    (h' : Comes body w' effect after) : Comes body w effect after := by
  rcases effect with stop | a
  · exact h.leaves h'
  · exact h.trans h'

/-- One way after another. -/
theorem Comes.bind {x : Except PsiStop α} {f : α → Except PsiStop β} (mid : α → σ) {after : β → σ}
    (h : Comes body w x mid) (h' : ∀ a, x = .ok a → Comes body (mid a) (f a) after) :
    Comes body w (x >>= f) after := by
  rcases x with stop | a
  · exact h
  · exact Comes.of_rounds h (h' a rfl)

/-- A round that goes on, or stops. -/
theorem Comes.round {body : σ → Except PsiStop σ ⊕ σ} {x : Except PsiStop α} (after : α → σ)
    (h : body w = goOn (x >>= fun a => .ok (after a))) : Comes body w x after := by
  rcases x with stop | a
  · exact Leaves.of_leave h
  · exact Rounds.one h

end Comes

/-! ## The passes over well-formed streams -/

section Walk

variable {first : Bool} {pcr : ℕ} {s : PsiSection} {w : PmtWalk} {i : EsInfo} {d : DescriptorBytes}
  {x : StreamBytes} {rest : List UInt8}

/-- A descriptor within its stream. -/
theorem pmtDescriptor_eq (hat : s.bytes.drop w.pos = d.octets ++ rest)
    (hinfo : d.content.length + 2 ≤ i.es_info_length)
    (hne : i.es_info_length - 2 - d.content.length ≠ 1)
    (hsection : d.content.length + 2 ≤ w.section_length) :
    pmtDescriptor first s w i =
      passDescriptor first s i.elementary_pid i.stream_type (w.pos + 2) d w.elementary_streams >>=
        fun streams => .ok ⟨w.section_length - 2 - d.content.length, w.pos + 2 + d.content.length,
          some { i with es_info_length := i.es_info_length - 2 - d.content.length }, streams⟩ := by
  have htag : s.byte w.pos = .ok d.tag.toNat := PsiSection.byte_of_drop (k := 0) hat rfl
  have hlength : s.byte (w.pos + 1) = .ok d.content.length := by
    rw [PsiSection.byte_of_drop (k := 1) hat rfl, d.toNat_length]
  have hfits : ¬ i.es_info_length - 2 < d.content.length := by omega
  have hminus : minus (minus w.section_length 2) d.content.length =
      w.section_length - 2 - d.content.length := by
    rw [minus_of_le (show 2 ≤ w.section_length by omega), minus_of_le (by omega)]
  rw [pmtDescriptor, htag, hlength]
  cases first with
  | true =>
    simp only [PsiSection.ok_bind, if_neg hfits, hminus, passDescriptor, if_true, hne, and_false,
      if_false]
    rfl
  | false =>
    simp only [PsiSection.ok_bind, if_neg hfits, if_neg hne, hminus, passDescriptor,
      Bool.false_eq_true, if_false, false_and]
    rfl

/-- A descriptor with one byte behind it, in the first pass. -/
theorem pmtDescriptor_oneLeft (hat : s.bytes.drop w.pos = d.octets ++ rest)
    (hinfo : d.content.length + 2 ≤ i.es_info_length)
    (hone : i.es_info_length - 2 - d.content.length = 1) :
    pmtDescriptor true s w i = .error (.error 26) := by
  have htag : s.byte w.pos = .ok d.tag.toNat := PsiSection.byte_of_drop (k := 0) hat rfl
  have hlength : s.byte (w.pos + 1) = .ok d.content.length := by
    rw [PsiSection.byte_of_drop (k := 1) hat rfl, d.toNat_length]
  have hfits : ¬ i.es_info_length - 2 < d.content.length := by omega
  rw [pmtDescriptor, htag, hlength]
  simp only [PsiSection.ok_bind, if_neg hfits, hone, if_true, and_self]

/-- **Over the descriptors of a stream.** -/
theorem comes_descriptors : ∀ (ds : List DescriptorBytes) {w : PmtWalk} {i : EsInfo},
    w.inner = some i → i.es_info_length = (descriptorOctets ds).length →
    w.section_length = (descriptorOctets ds).length + rest.length →
    s.bytes.drop w.pos = descriptorOctets ds ++ rest →
    Comes (pmtBody first pcr s) w
      (passDescriptors first s i.elementary_pid i.stream_type w.pos ds w.elementary_streams)
      fun streams => ⟨rest.length, w.pos + (descriptorOctets ds).length, none, streams⟩ := by
  intro ds
  induction ds with
  | nil =>
    intro w i hinner hinfo hlen _
    refine Rounds.one ?_
    rw [pmtBody, hinner]
    simp only
    rw [if_neg (by rw [hinfo]; decide), hlen]
    simp
  | cons d ds ih =>
    intro w i hinner hinfo hlen hat
    rw [descriptorOctets_cons, List.length_append, DescriptorBytes.length_octets] at hinfo hlen
    rw [descriptorOctets_cons, List.append_assoc] at hat
    have hne := length_descriptorOctets_ne_one ds
    refine Comes.bind (fun streams =>
      ⟨w.section_length - 2 - d.content.length, w.pos + 2 + d.content.length,
        some { i with es_info_length := i.es_info_length - 2 - d.content.length }, streams⟩)
      (Comes.round _ ?_) fun streams _ => ?_
    · rw [pmtBody, hinner]
      simp only
      rw [if_pos (by omega), pmtDescriptor_eq hat (by omega) (by omega) (by omega)]
    · have hnext := ih (w := ⟨w.section_length - 2 - d.content.length, w.pos + 2 + d.content.length,
        some { i with es_info_length := i.es_info_length - 2 - d.content.length }, streams⟩)
        rfl (by dsimp only; omega) (by dsimp only; omega) ?_
      · have hpos : w.pos + 2 + d.content.length + (descriptorOctets ds).length =
            w.pos + (descriptorOctets (d :: ds)).length := by
          rw [descriptorOctets_cons, List.length_append, DescriptorBytes.length_octets]
          omega
        rw [← hpos]
        exact hnext
      · have hdrop := congrArg (List.drop (d.content.length + 2)) hat
        rw [List.drop_drop, ← d.length_octets, List.drop_left] at hdrop
        rw [← hdrop, d.length_octets]
        congr 1
        dsimp only
        omega

/-- The ten bits of a stream's `es_info_length`. -/
theorem mask_esInfoLength (n : ℕ) : (if 1023 < n then n &&& 0x03FF else n) = n % 1024 := by
  split_ifs with h
  · exact Nat.and_two_pow_sub_one_eq_mod n 10
  · exact (Nat.mod_eq_of_lt (by omega)).symm

/-- The head of a stream that is not refused. -/
theorem pmtStream_head (first : Bool) (pcr : ℕ) (hat : s.bytes.drop w.pos = x.head ++ rest)
    (hpcr : ¬ (first = true ∧ pcr = noPcrPid ∧ nonPrivate x.type = true))
    (hsection : 5 ≤ w.section_length) :
    pmtStream first pcr s w =
      if first = true ∧ w.section_length - 5 < x.esInfoLength then .error (.error 24) else
        .ok ⟨w.section_length - 5, w.pos + 5, some ⟨x.type, x.pid, x.esInfoLength⟩,
          passHead first x w.elementary_streams⟩ := by
  have h₁ : s.byte w.pos = .ok x.type := PsiSection.byte_of_drop (k := 0) hat rfl
  have h₂ := PsiSection.byte_of_drop (k := 1) hat rfl
  have h₃ := PsiSection.byte_of_drop (k := 2) hat rfl
  have h₄ := PsiSection.byte_of_drop (k := 3) hat rfl
  have h₅ := PsiSection.byte_of_drop (k := 4) hat rfl
  rw [pmtStream, h₁, h₂, h₃, h₄, h₅]
  simp only [PsiSection.ok_bind, if_neg hpcr, mask_esInfoLength, minus_of_le hsection]
  rfl

/-- Its descriptors are in the section. -/
theorem pmtStream_eq (first : Bool) (pcr : ℕ) (hat : s.bytes.drop w.pos = x.head ++ rest)
    (hpcr : ¬ (first = true ∧ pcr = noPcrPid ∧ nonPrivate x.type = true))
    (hinfo : x.esInfoLength ≤ w.section_length - 5) (hsection : 5 ≤ w.section_length) :
    pmtStream first pcr s w = .ok ⟨w.section_length - 5, w.pos + 5,
      some ⟨x.type, x.pid, x.esInfoLength⟩, passHead first x w.elementary_streams⟩ := by
  rw [pmtStream_head first pcr hat hpcr hsection]
  refine if_neg ?_
  rintro ⟨-, hlt⟩
  omega

/-- **Over the streams.** Each is gone past with its descriptors. -/
theorem comes_streams (first : Bool) : ∀ (xs : List StreamBytes) {w : PmtWalk}, w.inner = none →
    w.section_length = (streamOctets xs).length + rest.length →
    s.bytes.drop w.pos = streamOctets xs ++ rest → Walked (decide (pcr = noPcrPid)) xs rest →
    Comes (pmtBody first pcr s) w (passStreams first s w.pos xs w.elementary_streams)
      fun streams => ⟨rest.length, w.pos + (streamOctets xs).length, none, streams⟩ := by
  intro xs
  induction xs with
  | nil =>
    intro w hinner hlen _ _
    obtain ⟨section_length, pos, inner, streams⟩ := w
    obtain rfl : inner = none := hinner
    obtain rfl : section_length = rest.length := by simpa using hlen
    exact Rounds.refl _
  | cons x xs ih =>
    rintro w hinner hlen hat ⟨h9, hpassed, hwalked⟩
    rw [streamOctets_cons, List.length_append, x.length_octets] at hlen
    rw [List.length_append, List.length_append, x.length_octets] at h9
    rw [streamOctets_cons, List.append_assoc] at hat
    have hat' : s.bytes.drop w.pos =
        x.head ++ (descriptorOctets x.descriptors ++ (streamOctets xs ++ rest)) := by
      rw [hat, StreamBytes.octets, List.append_assoc]
    obtain ⟨hinfo, hpcr⟩ := hpassed
    have hle : x.esInfoLength ≤ w.section_length - 5 := by
      rcases hinfo with hinfo | ⟨hinfo, -⟩ <;> omega
    have hstream := pmtStream_eq first pcr hat'
      (fun h => hpcr ⟨decide_eq_true h.2.1, h.2.2⟩) hle (by omega)
    -- the head of the stream
    have hround : pmtBody first pcr s w = .inr ⟨w.section_length - 5, w.pos + 5,
        some ⟨x.type, x.pid, x.esInfoLength⟩, passHead first x w.elementary_streams⟩ := by
      rw [pmtBody, hinner]
      simp only
      rw [if_pos (by rw [minus_of_le (by omega)]; omega), hstream]
      rfl
    have hdrop : s.bytes.drop (w.pos + 5) =
        descriptorOctets x.descriptors ++ (streamOctets xs ++ rest) := by
      rw [← List.drop_drop, hat']
      rfl
    refine Comes.of_rounds (Rounds.one hround) (Comes.bind (fun streams =>
      ⟨(streamOctets xs ++ rest).length, w.pos + x.octets.length, none, streams⟩) ?_
        fun streams _ => ?_)
    · -- its descriptors
      have hpos : w.pos + x.octets.length =
          w.pos + 5 + (descriptorOctets x.descriptors).length := by
        rw [x.length_octets]
        omega
      rw [hpos]
      rcases hinfo with hinfo | ⟨hinfo, hnil⟩
      · refine comes_descriptors (w := ⟨w.section_length - 5, w.pos + 5, some ⟨x.type, x.pid,
          x.esInfoLength⟩, passHead first x w.elementary_streams⟩) x.descriptors rfl hinfo ?_ hdrop
        rw [List.length_append]
        dsimp only
        omega
      · -- a length of one: nothing is gone past
        rw [hnil, descriptorOctets_nil, List.length_nil] at hlen ⊢
        have hleft : w.section_length - 5 = (streamOctets xs ++ rest).length := by
          rw [List.length_append]
          omega
        rw [hinfo, hleft]
        exact Rounds.one rfl
    · -- the streams after it
      have hnext := ih (w := ⟨(streamOctets xs ++ rest).length, w.pos + x.octets.length, none,
        streams⟩) rfl (by rw [List.length_append]) ?_ hwalked
      · have hpos : w.pos + x.octets.length + (streamOctets xs).length =
            w.pos + (streamOctets (x :: xs)).length := by
          rw [streamOctets_cons, List.length_append]
          omega
        rw [← hpos]
        exact hnext
      · rw [← List.drop_drop, hat, List.drop_left]

end Walk

/-! ## The first pass over other bytes -/

/-- A stream the first pass refuses by its type alone. -/
def refusedHead (noPcr : Bool) : List UInt8 → Bool
  | [] => false
  | b :: _ => noPcr && nonPrivate b.toNat

section FirstPass

variable {pcr : ℕ} {s : PsiSection} {w : PmtWalk} {i : EsInfo} {rest : List UInt8}

/-- The type of a stream is refused. -/
theorem pmtBody_refused (hinner : w.inner = none) (hlen : 5 ≤ minus w.section_length 4)
    (hat : s.bytes.drop w.pos = rest) (h : refusedHead (decide (pcr = noPcrPid)) rest = true) :
    pmtBody true pcr s w = .inl (.error (.error 20)) := by
  rcases rest with _ | ⟨b, rest⟩
  · cases h
  · obtain ⟨hpcr, htype⟩ := Bool.and_eq_true_iff.mp h
    have hbyte : s.byte w.pos = .ok b.toNat := PsiSection.byte_of_drop (k := 0) hat rfl
    rw [pmtBody, hinner]
    simp only
    rw [if_pos hlen, pmtStream, hbyte, PsiSection.ok_bind,
      if_pos ⟨rfl, of_decide_eq_true hpcr, htype⟩]
    rfl

/-- **No CRC left.** The length of one is taken off a shorter length, and the loop goes on to look
for a stream. -/
theorem pmtBody_outside (hinner : w.inner = none) (hlen : w.section_length = rest.length)
    (h4 : rest.length < 4) (hat : s.bytes.drop w.pos = rest)
    (h : refusedHead (decide (pcr = noPcrPid)) rest = false) :
    pmtBody true pcr s w = .inl (.error .outside) := by
  have hsize : s.size ≤ w.pos + rest.length := by
    have := congrArg List.length hat
    rw [List.length_drop] at this
    rw [PsiSection.size]
    omega
  have hstream : pmtStream true pcr s w = .error .outside := by
    have hlast : s.byte (w.pos + 4) = .error .outside := PsiSection.byte_overread (by omega)
    rw [pmtStream]
    rcases rest with _ | ⟨b, rest⟩
    · rw [PsiSection.byte_overread (show s.size ≤ w.pos from hsize)]
      rfl
    · have hbyte : s.byte w.pos = .ok b.toNat := PsiSection.byte_of_drop (k := 0) hat rfl
      have htype : ¬ (true = true ∧ pcr = noPcrPid ∧ nonPrivate b.toNat = true) := by
        rintro ⟨-, hpcr, htype⟩
        rw [refusedHead, htype, decide_eq_true hpcr] at h
        cases h
      rw [hbyte, PsiSection.ok_bind, if_neg htype, hlast]
      rcases s.byte_cases (w.pos + 1) with ⟨-, n₁, h₁⟩ | ⟨-, h₁⟩
      · rcases s.byte_cases (w.pos + 2) with ⟨-, n₂, h₂⟩ | ⟨-, h₂⟩
        · rcases s.byte_cases (w.pos + 3) with ⟨-, n₃, h₃⟩ | ⟨-, h₃⟩
          · rw [h₁, h₂, h₃]
            rfl
          · rw [h₁, h₂, h₃]
            rfl
        · rw [h₁, h₂]
          rfl
      · rw [h₁]
        rfl
  rw [pmtBody, hinner]
  simp only
  rw [if_pos (by rw [minus_of_lt (by omega)]; omega), hstream]
  rfl

/-- **Descriptors that do not fit.** The first pass stops at one that is too long, or when one byte is
left. -/
theorem leaves_badDescriptors : ∀ (n : ℕ) {l : List UInt8} {w : PmtWalk} {i : EsInfo},
    l.length ≤ n → w.inner = some i → i.es_info_length = l.length → l.length ≠ 1 →
    w.section_length = l.length + rest.length → s.bytes.drop w.pos = l ++ rest →
    (∀ ds, l ≠ descriptorOctets ds) →
    ∃ code, code ≠ 0 ∧ Leaves (pmtBody true pcr s) w (.error (.error code)) := by
  intro n
  induction n with
  | zero =>
    intro l w i hn _ _ _ _ _ hbad
    exact absurd (List.length_eq_zero_iff.mp (Nat.le_zero.mp hn)) (hbad [])
  | succ n ih =>
    intro l w i hn hinner hinfo hone hlen hat hbad
    rcases l with _ | ⟨tag, _ | ⟨length, l⟩⟩
    · exact absurd rfl (hbad [])
    · exact absurd rfl hone
    · simp only [List.length_cons] at hn hinfo hlen
      by_cases hfit : length.toNat ≤ l.length
      · have hcut := @DescriptorBytes.octets_ofOctets tag length l hfit
        obtain ⟨d, hd⟩ : ∃ d, d = DescriptorBytes.ofOctets tag length l := ⟨_, rfl⟩
        have hcontent : d.content.length = length.toNat := by
          rw [hd, DescriptorBytes.ofOctets, List.length_take, Nat.min_eq_left hfit]
        have hdrop : (l.drop length.toNat).length = l.length - length.toNat := List.length_drop
        rw [← hcut, ← hd, List.append_assoc] at hat
        by_cases hleft : (l.drop length.toNat).length = 1
        · refine ⟨26, by decide, Leaves.of_leave ?_⟩
          rw [pmtBody, hinner]
          simp only
          rw [if_pos (by omega), pmtDescriptor_oneLeft hat (by omega) (by omega)]
          rfl
        · have hat' : s.bytes.drop (w.pos + 2 + d.content.length) = l.drop length.toNat ++ rest := by
            have h := congrArg (List.drop d.octets.length) hat
            rw [List.drop_drop, List.drop_left, d.length_octets] at h
            rw [← h]
            congr 1
            omega
          have hbad' : ∀ ds, l.drop length.toNat ≠ descriptorOctets ds := by
            intro ds hds
            refine hbad (d :: ds) ?_
            rw [descriptorOctets_cons, ← hds, hd, hcut]
          obtain ⟨code, hcode, hleaves⟩ := ih (l := l.drop length.toNat)
            (w := ⟨w.section_length - 2 - d.content.length, w.pos + 2 + d.content.length,
              some { i with es_info_length := i.es_info_length - 2 - d.content.length },
              w.elementary_streams⟩) (by omega) rfl (by dsimp only; omega) hleft
            (by dsimp only; omega) hat' hbad'
          refine ⟨code, hcode, (Rounds.one ?_).leaves hleaves⟩
          rw [pmtBody, hinner]
          simp only
          rw [if_pos (by omega), pmtDescriptor_eq hat (by omega) (by omega) (by omega)]
          rfl
      · have htag : s.byte w.pos = .ok tag.toNat := PsiSection.byte_of_drop (k := 0) hat rfl
        have hlength : s.byte (w.pos + 1) = .ok length.toNat :=
          PsiSection.byte_of_drop (k := 1) hat rfl
        refine ⟨25, by decide, Leaves.of_leave ?_⟩
        rw [pmtBody, hinner]
        simp only
        rw [if_pos (by omega), pmtDescriptor, htag, hlength]
        simp only [PsiSection.ok_bind]
        rw [if_pos (by omega)]
        rfl

/-- **What the first pass comes to.** It goes over streams until a CRC is left, or less than that; or
it refuses the section; or more is left than a CRC. -/
theorem firstPass_cases : ∀ (n : ℕ) {l : List UInt8} {w : PmtWalk}, l.length ≤ n →
    w.inner = none → w.section_length = l.length → s.bytes.drop w.pos = l →
    (∃ xs rest, l = streamOctets xs ++ rest ∧ Walked (decide (pcr = noPcrPid)) xs rest ∧
      (rest.length = 4 ∨ rest.length < 4 ∧ refusedHead (decide (pcr = noPcrPid)) rest = false)) ∨
    (∃ code, code ≠ 0 ∧ Leaves (pmtBody true pcr s) w (.error (.error code))) ∨
    ∃ w', Leaves (pmtBody true pcr s) w (.ok w') ∧ 4 < w'.section_length := by
  intro n
  induction n with
  | zero =>
    intro l w hn _ _ _
    obtain rfl := List.length_eq_zero_iff.mp (Nat.le_zero.mp hn)
    exact .inl ⟨[], [], rfl, trivial, .inr ⟨by decide, rfl⟩⟩
  | succ n ih =>
    intro l w hn hinner hlen hat
    by_cases h9 : 9 ≤ l.length
    · have hlong : 5 ≤ minus w.section_length 4 := by
        rw [minus_of_le (by omega)]
        omega
      rcases hrefused : refusedHead (decide (pcr = noPcrPid)) l with _ | _
      · -- a stream, if its descriptors are in order
        rcases l with _ | ⟨a, _ | ⟨b, _ | ⟨c, _ | ⟨d, _ | ⟨e, l⟩⟩⟩⟩⟩ <;>
          simp only [List.length_cons, List.length_nil] at hn hlen h9
        · omega
        · omega
        · omega
        · omega
        · omega
        · have htype : ¬ (decide (pcr = noPcrPid) = true ∧ nonPrivate a.toNat = true) := by
            rintro ⟨hpcr, htype⟩
            rw [refusedHead, hpcr, htype] at hrefused
            cases hrefused
          -- a stream that is gone past
          have hpast : ∀ (x : StreamBytes) (tail : List UInt8), x.head = [a, b, c, d, e] →
              l = descriptorOctets x.descriptors ++ tail → x.Passed (decide (pcr = noPcrPid)) →
              (∃ xs rest, a :: b :: c :: d :: e :: l = streamOctets xs ++ rest ∧
                Walked (decide (pcr = noPcrPid)) xs rest ∧ (rest.length = 4 ∨
                  rest.length < 4 ∧ refusedHead (decide (pcr = noPcrPid)) rest = false)) ∨
              (∃ code, code ≠ 0 ∧ Leaves (pmtBody true pcr s) w (.error (.error code))) ∨
              ∃ w', Leaves (pmtBody true pcr s) w (.ok w') ∧ 4 < w'.section_length := by
            intro x tail hhead hl hpassed
            have hx : x.octets ++ tail = a :: b :: c :: d :: e :: l := by
              rw [StreamBytes.octets, hhead, List.append_assoc, ← hl]
              rfl
            have hxlen : x.octets.length + tail.length = l.length + 5 := by
              have := congrArg List.length hx
              rw [List.length_append] at this
              exact this
            have h5 := x.length_octets
            have hwalked : Walked (decide (pcr = noPcrPid)) [x] tail :=
              ⟨by rw [List.length_append, streamOctets_nil, List.nil_append]; omega, hpassed, trivial⟩
            have hrounds := comes_streams true [x] hinner
              (by rw [streamOctets_cons, streamOctets_nil, List.append_nil]; omega)
              (by rw [hat, streamOctets_cons, streamOctets_nil, List.append_nil, hx]) hwalked
            rw [passStreams_first] at hrounds
            have hnext := ih (l := tail) (w := ⟨tail.length, w.pos + (streamOctets [x]).length, none,
              w.elementary_streams⟩) (by omega) rfl rfl ?_
            · rcases hnext with ⟨xs, rest, rfl, hxs, hrest⟩ | ⟨code, hcode, hleaves⟩ |
                ⟨w', hleaves, hmore⟩
              · refine .inl ⟨x :: xs, rest, ?_, ⟨?_, hpassed, hxs⟩, hrest⟩
                · rw [streamOctets_cons, List.append_assoc, hx]
                · rw [List.length_append]
                  omega
              · exact .inr (.inl ⟨code, hcode, hrounds.leaves hleaves⟩)
              · exact .inr (.inr ⟨w', hrounds.leaves hleaves, hmore⟩)
            · rw [← List.drop_drop, hat, ← hx, streamOctets_cons, streamOctets_nil, List.append_nil,
                List.drop_left]
          obtain ⟨x, hx⟩ : ∃ x, x = StreamBytes.mk a b c d e [] := ⟨_, rfl⟩
          have hhead : x.head = [a, b, c, d, e] := by rw [hx, StreamBytes.head]
          have hat' : s.bytes.drop w.pos = x.head ++ l := by
            rw [hat, hhead]
            rfl
          have hpcr : ¬ (true = true ∧ pcr = noPcrPid ∧ nonPrivate x.type = true) := by
            rintro ⟨-, hpcr, hprivate⟩
            rw [hx] at hprivate
            exact htype ⟨decide_eq_true hpcr, hprivate⟩
          by_cases hover : l.length < x.esInfoLength
          · refine .inr (.inl ⟨24, by decide, Leaves.of_leave ?_⟩)
            rw [pmtBody, hinner]
            simp only
            rw [if_pos hlong, pmtStream_head true pcr hat' hpcr (by omega), if_pos ⟨rfl, by omega⟩]
            rfl
          · by_cases hone : x.esInfoLength = 1
            · exact hpast x l hhead (by rw [hx]; rfl) ⟨.inr ⟨hone, by rw [hx]⟩, by rw [hx]; exact htype⟩
            · by_cases hds : ∃ ds, l.take x.esInfoLength = descriptorOctets ds
              · obtain ⟨ds, hds⟩ := hds
                refine hpast { x with descriptors := ds } (l.drop x.esInfoLength) hhead ?_
                  ⟨.inl ?_, by rw [hx]; exact htype⟩
                · rw [← hds, List.take_append_drop]
                · rw [← hds, List.length_take]
                  exact (Nat.min_eq_left (Nat.le_of_not_lt hover)).symm
              · have htake : (l.take x.esInfoLength).length = x.esInfoLength := by
                  rw [List.length_take]
                  exact Nat.min_eq_left (Nat.le_of_not_lt hover)
                have hcut : (l.take x.esInfoLength).length + (l.drop x.esInfoLength).length =
                    l.length := by
                  rw [← List.length_append, List.take_append_drop]
                have hdrop : s.bytes.drop (w.pos + 5) =
                    l.take x.esInfoLength ++ l.drop x.esInfoLength := by
                  rw [← List.drop_drop, hat', List.take_append_drop, hhead]
                  rfl
                obtain ⟨code, hcode, hleaves⟩ := leaves_badDescriptors _ (w := ⟨w.section_length - 5, w.pos + 5,
                    some ⟨x.type, x.pid, x.esInfoLength⟩, w.elementary_streams⟩)
                  (Nat.le_refl _) rfl htake.symm (by rw [htake]; exact hone)
                  (by dsimp only; omega) hdrop fun ds h => hds ⟨ds, h⟩
                refine .inr (.inl ⟨code, hcode, (Rounds.one ?_).leaves hleaves⟩)
                rw [pmtBody, hinner]
                simp only
                rw [if_pos hlong, pmtStream_eq true pcr hat' hpcr (by omega) (by omega)]
                rfl
      · exact .inr (.inl ⟨20, by decide, Leaves.of_leave (pmtBody_refused hinner hlong hat hrefused)⟩)
    · by_cases h4 : 4 < l.length
      · -- neither a stream nor a CRC
        refine .inr (.inr ⟨w, Leaves.of_leave ?_, by omega⟩)
        rw [pmtBody, hinner]
        simp only
        rw [if_neg (by rw [minus_of_le (by omega)]; omega)]
      · rcases hrefused : refusedHead (decide (pcr = noPcrPid)) l with _ | _
        · refine .inl ⟨[], l, rfl, trivial, ?_⟩
          by_cases h : l.length = 4
          · exact .inl h
          · exact .inr ⟨by omega, hrefused⟩
        · by_cases h : l.length = 4
          · exact .inl ⟨[], l, rfl, trivial, .inl h⟩
          · refine .inr (.inl ⟨20, by decide, Leaves.of_leave (pmtBody_refused hinner ?_ hat hrefused)⟩)
            rw [minus_of_lt (by omega)]
            omega

end FirstPass

end MediaFramework
