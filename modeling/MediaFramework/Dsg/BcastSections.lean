import MediaFramework.Dsg.ClientController
import MediaFramework.Lib.Cells
import MediaFramework.Lib.Crc
import MediaFramework.Lib.Loop
import MediaFramework.Lib.Octets

/-!
# The sections of a broadcast packet (`vlDsgClientController.c`)

A packet from a broadcast tunnel is a row of sections with padding behind them. The sections are
taken off one after another, and those with the right CRC go to the clients.

How long a section is is read from the section, and not compared with what is left of the packet; so
a section that is cut off is read beyond the end. The loop goes on while more than seven bytes are
left, though a section may have just seven. And at a table that needs an IP address the whole packet
is given up if the host has none.

The packet is the memory: a read outside it has no result. `nPacketSize` is the number of bytes that
are left.
-/

namespace MediaFramework

/-! ## The CRC -/

/-- `POLYNOMIAL` -/
def crcPolynomial : BitVec 32 := 0x04C11DB7#32

/-- `CRC_ACCUM` -/
def crcAccum : BitVec 32 := 0xFFFFFFFF#32

/-- `guiCrcTable`, as `GenerateCrcTable` makes it. -/
def guiCrcTable (i : ℕ) : BitVec 32 :=
  (List.range 8).foldl
    (fun crcAccum _ =>
      if crcAccum &&& 0x80000000#32 ≠ 0#32 then crcAccum <<< 1 ^^^ crcPolynomial else crcAccum <<< 1)
    (BitVec.ofNat 32 i <<< 24)

/-- `Crc32` -/
def crc32 (pData : List UInt8) : BitVec 32 :=
  ~~~pData.foldl
    (fun crcAccum b =>
      let i := ((crcAccum >>> 24) ^^^ BitVec.ofNat 32 b.toNat) &&& 0xFF#32
      crcAccum <<< 8 ^^^ guiCrcTable i.toNat)
    crcAccum

/-! ## The loop -/

/-- What a broadcast is dispatched with. -/
structure BcastContext where
  eClientType : ClientIdEncType
  nClientId : BitVec 64
  /-- `vlXchanCheckIfHostAcquiredIpAddress` -/
  hostAcquiredIp : Bool
  vlg_bVctIdReceived : Bool
  vlg_nDsgVctId : ℕ

/-- What a broadcast has come to. -/
structure BcastOutcome where
  clients : ClientController
  eDispatch : ClientController.DispatchResult := .dropped
  /-- the callbacks, with what they were given -/
  calls : List (Fin maxDsgClients × List UInt8) := []
  /-- ghost: what was dispatched -/
  dispatched : List (List UInt8) := []

namespace BcastContext

variable (g : BcastContext)

/-- The call of `vlDsgDispatchToDSGCC`. -/
def dispatch (o : BcastOutcome) (pData : List UInt8) : BcastOutcome :=
  let (eDispatch, called, clients) := o.clients.dispatchToDSGCC
    { eClientType := g.eClientType
      nClientId := g.nClientId
      nBytes := BitVec.ofNat 64 pData.length
      -- the CRC behind an MPEG header
      crcFailed := crc32 (pData.drop 2) ≠ crcAccum }
  { clients := clients
    eDispatch := eDispatch
    calls := o.calls ++ called.map fun i => (i, pData)
    dispatched := o.dispatched ++ [pData] }

/-- `vlDsgCheckVctId`, without the statistics. -/
def vlDsgCheckVctId (nTableId : ℕ) (pData : List UInt8) : Option Bool :=
  if 0xC4 ≠ nTableId then some true
  else if g.vlg_bVctIdReceived = false then some true
  else (number pData 5 2).map fun nVctId => nVctId = g.vlg_nDsgVctId

/-- Whether a section goes to the clients. -/
def isDispatched (nTableId : ℕ) (pData : List UInt8) : Option Bool :=
  if crc32 pData = crcAccum then g.vlDsgCheckVctId nTableId pData else some false

end BcastContext

/-- The first loop over padding, for four bytes at a time. -/
def discardFours : List UInt8 → List UInt8
  | a :: b :: c :: d :: e :: pData =>
    if a = 0xFF ∧ b = 0xFF ∧ c = 0xFF ∧ d = 0xFF then discardFours (e :: pData)
    else a :: b :: c :: d :: e :: pData
  | pData => pData

/-- The second loop over padding. -/
def discardOnes : List UInt8 → List UInt8
  | a :: b :: pData => if a = 0xFF then discardOnes (b :: pData) else a :: b :: pData
  | pData => pData

/-- Discard any padding; the last byte stays. -/
def discardPadding (pData : List UInt8) : List UInt8 := discardOnes (discardFours pData)

/-- `nTableId` and `Size` -/
def sectionHeader (pData : List UInt8) : Option (ℕ × ℕ) := do
  let nTableId ← octet pData 0
  let length ← number pData 1 2
  return (nTableId, 3 + (length &&& 0xFFF))

namespace BcastContext

variable (g : BcastContext)

/-- The packet is given up at a section. -/
def GivesUp (header : ℕ × ℕ) : Prop :=
  (header.1 = 0x74 ∧ g.hostAcquiredIp = false) ∨ header.2 < 7 ∨ 4096 < header.2

instance (header : ℕ × ℕ) : Decidable (g.GivesUp header) := inferInstanceAs (Decidable (_ ∨ _))

/-- A round of `vlDsgDispatchBcastToDSGCC`. It leaves with nothing when it reads outside. -/
def round : List UInt8 × BcastOutcome → Option BcastOutcome ⊕ (List UInt8 × BcastOutcome)
  | (pData, o) =>
    if pData.length ≤ 7 then .inl (some o)
    else
      let pData := discardPadding pData
      if pData.length < 7 then .inr (pData, o)
      else
        match sectionHeader pData with
        | none => .inl none
        | some header =>
          if g.GivesUp header then .inl (some o)
          else
            match octets pData 0 header.2 with
            | none => .inl none
            | some content =>
              match g.isDispatched header.1 content with
              | none => .inl none
              | some ok =>
                .inr (discardPadding (pData.drop header.2), if ok then g.dispatch o content else o)

/-- `vlDsgDispatchBcastToDSGCC`, for so many rounds. -/
def vlDsgDispatchBcastToDSGCC (clients : ClientController) (pData : List UInt8) (fuel : ℕ) :
    Option (Option BcastOutcome) :=
  iterate g.round fuel (pData, { clients := clients })

end BcastContext

/-! ## What a broadcast should come to -/

/-- The four bytes at the end are the CRC of what comes before them. -/
def HasCrc (pData : List UInt8) : Prop :=
  Crc.crc crcPolynomial crcAccum (pData.take (pData.length - 4)) =
    Crc.word (pData.drop (pData.length - 4))

instance (pData : List UInt8) : Decidable (HasCrc pData) := inferInstanceAs (Decidable (_ = _))

/-- A section is well formed: its header gives its length, and there is room for a CRC. A table id
is not `0xFF`. -/
structure IsSection (pData : List UInt8) : Prop where
  header : ∃ nTableId, nTableId ≠ 0xFF ∧ sectionHeader pData = some (nTableId, pData.length)
  long : 7 ≤ pData.length
  short : pData.length ≤ 4096

/-- A packet of some sections and so many bytes of padding. -/
structure IsPacket (pData : List UInt8) (sections : List (List UInt8)) (padding : ℕ) : Prop where
  bytes : pData = sections.flatten ++ List.replicate padding 0xFF
  sound : ∀ sec ∈ sections, IsSection sec

namespace BcastContext

variable (g : BcastContext)

/-- The VCT id of a section is the one that was received, if it has one and one was. -/
def VctIdMatches (sec : List UInt8) : Prop :=
  octet sec 0 = some 0xC4 → g.vlg_bVctIdReceived = true → number sec 5 2 = some g.vlg_nDsgVctId

instance (sec : List UInt8) : Decidable (g.VctIdMatches sec) :=
  inferInstanceAs (Decidable (_ → _ → _))

/-- A section that should go to the clients. -/
def Accepted (sec : List UInt8) : Prop := HasCrc sec ∧ g.VctIdMatches sec

instance (sec : List UInt8) : Decidable (g.Accepted sec) := inferInstanceAs (Decidable (_ ∧ _))

/-- **The broadcast is right.** Whatever the bytes are, the loop leaves, and nothing is read outside
them. In a packet the sections that should go to the clients are dispatched, each whole and in
order, and nothing else. -/
def Dispatches (clients : ClientController) (pData : List UInt8) : Prop :=
  (∃ o, Leaves g.round (pData, { clients := clients }) (some o)) ∧
    ∀ sections padding, IsPacket pData sections padding →
      Leaves g.round (pData, { clients := clients })
        (some ((sections.filter (g.Accepted ·)).foldl g.dispatch { clients := clients }))

/-- Every section that the loop comes to is whole, until it gives up or little is left. -/
inductive Complete : List UInt8 → Prop
  | done {pData : List UInt8} (h : pData.length ≤ 7 ∨ (discardPadding pData).length < 7) :
    Complete pData
  | givesUp {pData : List UInt8} {header : ℕ × ℕ}
    (hheader : sectionHeader (discardPadding pData) = some header) (h : g.GivesUp header) :
    Complete pData
  | next {pData : List UInt8} {header : ℕ × ℕ}
    (hheader : sectionHeader (discardPadding pData) = some header) (hgoes : ¬ g.GivesUp header)
    (hwhole : header.2 ≤ (discardPadding pData).length)
    (h : Complete (discardPadding ((discardPadding pData).drop header.2))) : Complete pData

/-- The loop does not get past this section of a packet: it is the last one, of seven bytes and
without padding, or it needs an IP address that the host does not have. -/
def StopsAt (padding : ℕ) (sec : List UInt8) (after : List (List UInt8)) : Prop :=
  (after = [] ∧ padding = 0 ∧ sec.length = 7) ∨ (octet sec 0 = some 0x74 ∧ g.hostAcquiredIp = false)

instance (padding : ℕ) (sec : List UInt8) (after : List (List UInt8)) :
    Decidable (g.StopsAt padding sec after) := inferInstanceAs (Decidable (_ ∨ _))

/-- Where the loop stops, no section is left that should go to the clients. -/
def NoneLost (sections : List (List UInt8)) (padding : ℕ) : Prop :=
  ∀ sec after, (sec :: after) <:+ sections → g.StopsAt padding sec after →
    ∀ lost ∈ sec :: after, ¬ g.Accepted lost

/-- The sections that the loop gets past. -/
def reached (padding : ℕ) : List (List UInt8) → List (List UInt8)
  | [] => []
  | sec :: after => if g.StopsAt padding sec after then [] else sec :: reached padding after

end BcastContext

/-! ## The CRC by the polynomial -/

theorem guiCrcTable_eq (i : BitVec 32) :
    guiCrcTable (i &&& 0xFF#32).toNat = Crc.table crcPolynomial i := by
  have hbyte : (i &&& 0xFF#32) <<< 24 = i <<< 24 := by
    refine BitVec.eq_of_getLsbD_eq fun k hk => ?_
    rw [BitVec.getLsbD_shiftLeft, BitVec.getLsbD_shiftLeft, BitVec.getLsbD_and]
    by_cases h : k < 24
    · simp [h]
    · have hones : ∀ j < 8, (0xFF#32).getLsbD j = true := by decide
      rw [hones (k - 24) (by omega), Bool.and_true]
  rw [guiCrcTable, Crc.foldl_shiftOne, BitVec.ofNat_toNat, BitVec.setWidth_eq, hbyte, Crc.table]

theorem crc32_eq (pData : List UInt8) :
    crc32 pData = ~~~Crc.crc crcPolynomial crcAccum pData := by
  rw [crc32, Crc.crc]
  congr 2
  funext x b
  rw [Crc.crcByte_eq, ← guiCrcTable_eq]
  rfl

/-- **The CRC.** What `Crc32` finds is the one at the end of the section. -/
theorem crc32_eq_iff {pData : List UInt8} (h : 4 ≤ pData.length) :
    crc32 pData = crcAccum ↔ HasCrc pData := by
  have hlast : (pData.drop (pData.length - 4)).length = 4 := by
    rw [List.length_drop]
    omega
  have hparts : Crc.crc crcPolynomial crcAccum
        (pData.take (pData.length - 4) ++ pData.drop (pData.length - 4)) = 0#32 ↔ _ :=
    Crc.crc_append_eq_zero_iff (by decide) crcAccum hlast
  rw [List.take_append_drop] at hparts
  rw [crc32_eq, show crcAccum = ~~~0#32 from rfl, BitVec.not_inj]
  exact hparts

/-! ## Padding -/

theorem discardFours_suffix (pData : List UInt8) : discardFours pData <:+ pData := by
  fun_induction discardFours pData with
  | case1 a b c d e pData hall ih => exact ih.trans ⟨[a, b, c, d], rfl⟩
  | case2 => exact List.suffix_refl _
  | case3 => exact List.suffix_refl _

theorem discardOnes_suffix (pData : List UInt8) : discardOnes pData <:+ pData := by
  fun_induction discardOnes pData with
  | case1 b pData ih => exact ih.trans (List.suffix_cons _ _)
  | case2 => exact List.suffix_refl _
  | case3 => exact List.suffix_refl _

theorem discardPadding_suffix (pData : List UInt8) : discardPadding pData <:+ pData :=
  (discardOnes_suffix _).trans (discardFours_suffix _)

theorem length_discardPadding_le (pData : List UInt8) :
    (discardPadding pData).length ≤ pData.length :=
  (discardPadding_suffix pData).length_le

/-- A section is not padding. -/
theorem discardPadding_cons {b : UInt8} (hb : b ≠ 0xFF) (pData : List UInt8) :
    discardPadding (b :: pData) = b :: pData := by
  have hfours : discardFours (b :: pData) = b :: pData := by
    rw [discardFours.eq_def]
    split
    · rename_i heq
      cases heq
      rw [if_neg fun h => hb h.1]
    · rfl
  rw [discardPadding, hfours, discardOnes.eq_def]
  split
  · rename_i heq
    cases heq
    rw [if_neg hb]
  · rfl

theorem discardOnes_padding {pData : List UInt8} (h : ∀ b ∈ pData, b = 0xFF) :
    (discardOnes pData).length ≤ 1 := by
  fun_induction discardOnes pData with
  | case1 b pData ih => exact ih fun c hc => h c (List.mem_cons_of_mem _ hc)
  | case2 a b pData hne => exact absurd (h a List.mem_cons_self) hne
  | case3 pData hshort =>
    match pData with
    | [] => exact Nat.zero_le _
    | [a] => exact Nat.le_refl _
    | a :: b :: pData => exact absurd rfl (hshort a b pData)

/-- Of padding at most a byte is left. -/
theorem length_discardPadding_replicate (padding : ℕ) :
    (discardPadding (List.replicate padding 0xFF)).length ≤ 1 :=
  discardOnes_padding fun _ hb =>
    List.eq_of_mem_replicate ((discardFours_suffix _).subset hb)

/-! ## A round -/

namespace IsSection

variable {sec : List UInt8}

theorem sectionHeader_append (h : IsSection sec) (rest : List UInt8) :
    sectionHeader (sec ++ rest) = sectionHeader sec := by
  have hlong := h.long
  rw [sectionHeader, sectionHeader, octet_append_left (by omega), number_append_left (by omega)]

/-- The header of a section, and its table id. -/
theorem exists_header (h : IsSection sec) : ∃ nTableId,
    sectionHeader sec = some (nTableId, sec.length) ∧ octet sec 0 = some nTableId := by
  obtain ⟨nTableId, -, hheader⟩ := h.header
  refine ⟨nTableId, hheader, ?_⟩
  rw [sectionHeader, Option.bind_eq_bind, Option.bind_eq_some_iff] at hheader
  obtain ⟨k, hk, hlength⟩ := hheader
  obtain ⟨n, -, hn⟩ := Option.bind_eq_some_iff.mp hlength
  obtain rfl := congrArg Prod.fst (Option.some.inj hn)
  exact hk

theorem discardPadding_append (h : IsSection sec) (rest : List UInt8) :
    discardPadding (sec ++ rest) = sec ++ rest := by
  obtain ⟨nTableId, hne, hheader⟩ := h.header
  obtain ⟨k, hk, hoctet⟩ := h.exists_header
  obtain rfl : nTableId = k := congrArg Prod.fst (Option.some.inj (hheader.symm.trans hk))
  match sec with
  | [] => cases hoctet
  | b :: sec =>
    refine discardPadding_cons (fun hb => hne ?_) _
    rw [octet_cons_zero, hb] at hoctet
    exact (Option.some.inj hoctet).symm

end IsSection

namespace BcastContext

variable {g : BcastContext} {pData : List UInt8} {o : BcastOutcome}

theorem round_short (h : pData.length ≤ 7) : g.round (pData, o) = .inl (some o) := if_pos h

theorem round_padding (h : 7 < pData.length) (hpad : (discardPadding pData).length < 7) :
    g.round (pData, o) = .inr (discardPadding pData, o) := by
  rw [round, if_neg (by omega)]
  exact if_pos hpad

/-- A round that has come to a section. -/
theorem round_header (h : 7 < pData.length)
    (hpad : 7 ≤ (discardPadding pData).length)
    {header : ℕ × ℕ} (hheader : sectionHeader (discardPadding pData) = some header) :
    g.round (pData, o) =
      if g.GivesUp header then .inl (some o)
      else
        match octets (discardPadding pData) 0 header.2 with
        | none => .inl none
        | some content =>
          match g.isDispatched header.1 content with
          | none => .inl none
          | some ok =>
            .inr (discardPadding ((discardPadding pData).drop header.2),
              if ok then g.dispatch o content else o) := by
  rw [round, if_neg (by omega)]
  rw [if_neg (by omega), hheader]

/-- Nothing is read outside a section to find out about it. -/
theorem exists_isDispatched {sec : List UInt8} (h : 7 ≤ sec.length) (nTableId : ℕ) :
    ∃ ok, g.isDispatched nTableId sec = some ok := by
  have hnumber : ∃ nVctId, number sec 5 2 = some nVctId := by
    obtain ⟨a, ha⟩ := exists_octet (by omega : 5 < sec.length)
    obtain ⟨b, hb⟩ := exists_octet (by omega : 6 < sec.length)
    exact ⟨_, by rw [number, number, number, ha, hb]; rfl⟩
  obtain ⟨nVctId, hvct⟩ := hnumber
  rw [isDispatched, vlDsgCheckVctId, hvct]
  split_ifs
  · exact ⟨_, rfl⟩
  · exact ⟨_, rfl⟩
  · exact ⟨_, rfl⟩
  · exact ⟨_, rfl⟩

theorem isDispatched_eq {sec : List UInt8} {nTableId : ℕ} (h : 7 ≤ sec.length)
    (htable : octet sec 0 = some nTableId) :
    g.isDispatched nTableId sec = some (decide (g.Accepted sec)) := by
  obtain ⟨ok, hok⟩ := exists_isDispatched (g := g) h nTableId
  rw [hok]
  congr 1
  rw [isDispatched] at hok
  rw [Bool.eq_iff_iff, decide_eq_true_eq, Accepted, ← crc32_eq_iff (by omega), VctIdMatches, htable]
  split_ifs at hok with hcrc
  · rw [vlDsgCheckVctId] at hok
    split_ifs at hok with htab hrec
    · cases hok
      exact iff_of_true rfl ⟨hcrc, fun h => absurd (Option.some.inj h).symm htab⟩
    · cases hok
      exact iff_of_true rfl ⟨hcrc, fun _ h => absurd (hrec.symm.trans h) Bool.false_ne_true⟩
    · obtain ⟨nVctId, hnumber, hid⟩ := Option.map_eq_some_iff.mp hok
      rw [← hid, hnumber, decide_eq_true_eq]
      refine ⟨fun heq => ⟨hcrc, fun _ _ => congrArg some heq⟩, fun hacc => ?_⟩
      refine Option.some.inj (hacc.2 ?_ ?_)
      · rw [← not_not.mp htab]
      · exact eq_true_of_ne_false hrec
  · cases hok
    exact iff_of_false Bool.false_ne_true fun hacc => hcrc hacc.1

/-- **A round takes a section** and what is behind it stays, without padding. -/
theorem round_section {sec : List UInt8} (h : IsSection sec) (rest : List UInt8)
    (hlong : 7 < (sec ++ rest).length) :
    g.round (sec ++ rest, o) =
      if octet sec 0 = some 0x74 ∧ g.hostAcquiredIp = false then .inl (some o)
      else .inr (discardPadding rest, if g.Accepted sec then g.dispatch o sec else o) := by
  obtain ⟨nTableId, hheader, htable⟩ := h.exists_header
  have hseven := h.long
  have hmax := h.short
  have hpad := h.discardPadding_append rest
  have hgives : g.GivesUp (nTableId, sec.length) ↔
      octet sec 0 = some 0x74 ∧ g.hostAcquiredIp = false := by
    rw [GivesUp, htable, Option.some_inj]
    refine or_iff_left ?_
    omega
  have hsection : sectionHeader (discardPadding (sec ++ rest)) = some (nTableId, sec.length) := by
    rw [hpad, h.sectionHeader_append, hheader]
  rw [round_header hlong (by rw [hpad]; omega) hsection, hpad]
  refine if_congr hgives rfl ?_
  rw [octets_self, List.drop_left]
  dsimp only
  rw [isDispatched_eq hseven htable]
  simp only [decide_eq_true_eq]

/-! ## The loop over a packet -/

variable {sections : List (List UInt8)} {padding : ℕ}

theorem leaves_short (h : pData.length ≤ 7) : Leaves g.round (pData, o) (some o) :=
  Leaves.of_leave (round_short h)

theorem leaves_padding (padding : ℕ) (o : BcastOutcome) :
    Leaves g.round (List.replicate padding 0xFF, o) (some o) := by
  have hone := length_discardPadding_replicate padding
  by_cases hshort : (List.replicate padding (0xFF : UInt8)).length ≤ 7
  · exact leaves_short hshort
  · have hround : g.round (List.replicate padding 0xFF, o) = .inr _ :=
      round_padding (by omega) (by omega)
    exact (Rounds.one hround).leaves (leaves_short (by omega))

/-- What is left behind a section of a packet, without padding. -/
theorem leaves_behind {after : List (List UInt8)} {r : Option BcastOutcome}
    (hsound : ∀ sec ∈ after, IsSection sec)
    (h : Leaves g.round (after.flatten ++ List.replicate padding 0xFF, o) r) :
    Leaves g.round (discardPadding (after.flatten ++ List.replicate padding 0xFF), o) r := by
  match after with
  | [] =>
    have hone := length_discardPadding_replicate padding
    obtain rfl := h.unique (leaves_padding padding o)
    exact leaves_short (by rw [List.flatten_nil, List.nil_append]; omega)
  | sec :: after =>
    rw [List.flatten_cons, List.append_assoc] at h ⊢
    rwa [(hsound sec List.mem_cons_self).discardPadding_append]

/-- **The loop over a packet.** The sections that the loop gets past and that should go to the
clients are dispatched. The induction is on the sections. -/
theorem leaves_packet (hsound : ∀ sec ∈ sections, IsSection sec) (padding : ℕ) (o : BcastOutcome) :
    Leaves g.round (sections.flatten ++ List.replicate padding 0xFF, o)
      (some (((g.reached padding sections).filter (g.Accepted ·)).foldl g.dispatch o)) := by
  induction sections generalizing o with
  | nil => exact leaves_padding padding o
  | cons sec after ih =>
    obtain ⟨hsec, hafter⟩ := List.forall_mem_cons.mp hsound
    have hseven := hsec.long
    rw [List.flatten_cons, List.append_assoc, reached]
    by_cases hlong : 7 < (sec ++ (after.flatten ++ List.replicate padding 0xFF)).length
    · have hround := round_section (g := g) (o := o) hsec _ hlong
      by_cases hgate : octet sec 0 = some 0x74 ∧ g.hostAcquiredIp = false
      · rw [if_pos hgate] at hround
        rw [if_pos (show g.StopsAt padding sec after from .inr hgate)]
        exact Leaves.of_leave hround
      · have hpast : ¬ g.StopsAt padding sec after := by
          rintro (⟨rfl, rfl, hlast⟩ | h)
          · rw [List.length_append, hlast] at hlong
            exact absurd hlong (by decide)
          · exact hgate h
        rw [if_neg hgate] at hround
        rw [if_neg hpast]
        refine (Rounds.one hround).leaves (leaves_behind hafter ?_)
        by_cases hacc : g.Accepted sec
        · rw [if_pos hacc, List.filter_cons, if_pos (decide_eq_true hacc)]
          exact ih hafter _
        · rw [if_neg hacc, List.filter_cons, if_neg (by rwa [decide_eq_true_eq])]
          exact ih hafter _
    · -- nothing can be behind a section where so little is left
      have hlast : g.StopsAt padding sec after := by
        rw [List.length_append, List.length_append, List.length_replicate] at hlong
        refine .inl ⟨?_, by omega, by omega⟩
        match after with
        | [] => rfl
        | next :: after =>
          have := (hafter next List.mem_cons_self).long
          rw [List.flatten_cons, List.length_append] at hlong
          omega
      rw [if_pos hlast]
      exact leaves_short (by omega)

/-- Nothing is lost exactly when every section that should go to the clients is reached. -/
theorem filter_reached_eq_iff :
    (g.reached padding sections).filter (g.Accepted ·) = sections.filter (g.Accepted ·) ↔
      g.NoneLost sections padding := by
  induction sections with
  | nil =>
    refine iff_of_true rfl fun sec after h => ?_
    exact absurd (List.suffix_nil.mp h) (List.cons_ne_nil _ _)
  | cons sec after ih =>
    rw [reached]
    by_cases hstop : g.StopsAt padding sec after
    · rw [if_pos hstop, List.filter_nil, eq_comm, List.filter_eq_nil_iff]
      constructor
      · intro hnone sec' after' hsuffix _ lost hlost
        exact fun hacc => hnone lost (hsuffix.subset hlost) (decide_eq_true hacc)
      · intro hnone lost hlost hacc
        exact hnone sec after (List.suffix_refl _) hstop lost hlost (of_decide_eq_true hacc)
    · rw [if_neg hstop, List.filter_cons, List.filter_cons]
      have hrest : g.NoneLost (sec :: after) padding ↔ g.NoneLost after padding := by
        constructor
        · exact fun h sec' after' hsuffix => h sec' after' (hsuffix.trans (List.suffix_cons _ _))
        · intro h sec' after' hsuffix
          rcases List.suffix_cons_iff.mp hsuffix with heq | hsuffix
          · obtain ⟨rfl, rfl⟩ := List.cons.inj heq
            exact fun hstop' => absurd hstop' hstop
          · exact h sec' after' hsuffix
      rw [hrest, ← ih]
      split_ifs
      · exact List.cons_inj_right _
      · exact Iff.rfl

theorem foldl_dispatch (l : List (List UInt8)) (o : BcastOutcome) :
    (l.foldl g.dispatch o).dispatched = o.dispatched ++ l := by
  induction l generalizing o with
  | nil => exact (List.append_nil _).symm
  | cons pData l ih =>
    rw [List.foldl_cons, ih, dispatch, List.append_assoc]
    rfl

/-! ## The loop over any bytes -/

/-- A round where enough is left: the packet is given up, the section is cut off, or it is taken. -/
theorem round_cases (h : 7 < pData.length) (hpad : 7 ≤ (discardPadding pData).length)
    (o : BcastOutcome) : ∃ header, sectionHeader (discardPadding pData) = some header ∧
      (g.GivesUp header ∧ g.round (pData, o) = .inl (some o) ∨
        ¬ g.GivesUp header ∧ (discardPadding pData).length < header.2 ∧
          g.round (pData, o) = .inl none ∨
        ¬ g.GivesUp header ∧ header.2 ≤ (discardPadding pData).length ∧ ∃ o', g.round (pData, o) =
          .inr (discardPadding ((discardPadding pData).drop header.2), o')) := by
  have hread : ∃ header, sectionHeader (discardPadding pData) = some header := by
    obtain ⟨a, ha⟩ := exists_octet (by omega : 0 < (discardPadding pData).length)
    obtain ⟨b, hb⟩ := exists_octet (by omega : 1 < (discardPadding pData).length)
    obtain ⟨c, hc⟩ := exists_octet (by omega : 2 < (discardPadding pData).length)
    exact ⟨_, by rw [sectionHeader, number, number, number, ha, hb, hc]; rfl⟩
  obtain ⟨header, hheader⟩ := hread
  refine ⟨header, hheader, ?_⟩
  rw [round_header h hpad hheader]
  by_cases hgives : g.GivesUp header
  · exact .inl ⟨hgives, if_pos hgives⟩
  · rw [if_neg hgives]
    by_cases hwhole : header.2 ≤ (discardPadding pData).length
    · have hseven : 7 ≤ header.2 := by
        by_contra hlt
        exact hgives (.inr (.inl (by omega)))
      have hlength : ((discardPadding pData).take header.2).length = header.2 := by
        rw [List.length_take, Nat.min_eq_left hwhole]
      obtain ⟨ok, hok⟩ := exists_isDispatched (g := g) (hseven.trans hlength.ge) header.1
      rw [octets, if_pos (by omega), List.drop_zero]
      dsimp only
      rw [hok]
      exact .inr (.inr ⟨hgives, hwhole, _, rfl⟩)
    · rw [octets_eq_none (by omega)]
      exact .inr (.inl ⟨hgives, by omega, rfl⟩)

/-- **Reading within the bytes.** The loop leaves with an outcome just if every section that it
comes to is whole. The induction is on the rounds for one direction, and on the sections for the
other. -/
theorem leaves_iff (pData : List UInt8) (o : BcastOutcome) :
    (∃ o', Leaves g.round (pData, o) (some o')) ↔ g.Complete pData := by
  constructor
  · rintro ⟨o', fuel, hleaves⟩
    induction fuel generalizing pData o with
    | zero => cases hleaves
    | succ fuel ih =>
      by_cases hshort : pData.length ≤ 7
      · exact .done (.inl hshort)
      by_cases hpad : (discardPadding pData).length < 7
      · exact .done (.inr hpad)
      obtain ⟨header, hheader, ⟨hgives, -⟩ | ⟨-, -, hr⟩ | ⟨hgives, hwhole, o'', hr⟩⟩ :=
        round_cases (g := g) (by omega) (Nat.le_of_not_lt hpad) o
      · exact .givesUp hheader hgives
      · rw [iterate_leave hr] at hleaves
        cases Option.some.inj hleaves
      · rw [iterate_round hr] at hleaves
        exact .next hheader hgives hwhole (ih _ _ hleaves)
  · intro hcomplete
    induction hcomplete generalizing o with
    | @done pData h =>
      by_cases hshort : pData.length ≤ 7
      · exact ⟨o, leaves_short hshort⟩
      · have hpad := h.resolve_left hshort
        exact ⟨o, (Rounds.one (round_padding (by omega) hpad)).leaves (leaves_short (by omega))⟩
    | @givesUp pData header hheader hgives =>
      by_cases hshort : pData.length ≤ 7
      · exact ⟨o, leaves_short hshort⟩
      by_cases hpad : (discardPadding pData).length < 7
      · exact ⟨o, (Rounds.one (round_padding (by omega) hpad)).leaves (leaves_short (by omega))⟩
      · refine ⟨o, Leaves.of_leave ?_⟩
        rw [round_header (by omega) (by omega) hheader, if_pos hgives]
    | @next pData header hheader hgives hwhole _ ih =>
      by_cases hshort : pData.length ≤ 7
      · exact ⟨o, leaves_short hshort⟩
      by_cases hpad : (discardPadding pData).length < 7
      · exact ⟨o, (Rounds.one (round_padding (by omega) hpad)).leaves (leaves_short (by omega))⟩
      obtain ⟨header', hheader', hcases⟩ :=
        round_cases (g := g) (by omega) (Nat.le_of_not_lt hpad) o
      obtain rfl := Option.some.inj (hheader.symm.trans hheader')
      obtain ⟨hgives', -⟩ | ⟨-, hcut, -⟩ | ⟨-, -, o'', hr⟩ := hcases
      · exact absurd hgives' hgives
      · omega
      · obtain ⟨o', hleaves⟩ := ih o''
        exact ⟨o', (Rounds.one hr).leaves hleaves⟩

/-- **Broadcasts.** The loop reads within the bytes and dispatches the sections of a packet exactly
when every section that it comes to is whole and, in a packet, none is lost where it stops. -/
theorem dispatches_iff (g : BcastContext) (clients : ClientController) (pData : List UInt8) :
    g.Dispatches clients pData ↔ g.Complete pData ∧
      ∀ sections padding, IsPacket pData sections padding → g.NoneLost sections padding := by
  refine and_congr (leaves_iff pData _) ?_
  refine forall_congr' fun sections => forall_congr' fun padding => ?_
  refine imp_congr_right fun hpacket => ?_
  have hloop := leaves_packet (g := g) hpacket.sound padding { clients := clients }
  rw [← hpacket.bytes] at hloop
  rw [← filter_reached_eq_iff]
  constructor
  · intro hleaves
    have hsame := congrArg BcastOutcome.dispatched (Option.some.inj (hloop.unique hleaves))
    rwa [foldl_dispatch, foldl_dispatch, List.append_cancel_left_eq] at hsame
  · intro hsame
    rwa [hsame] at hloop

/-- A section is cut off: its header says that it has 19 bytes, and eight are there. -/
theorem not_dispatches_cutOff :
    ¬ Dispatches ⟨.bcast, 0, true, false, 0⟩ {} [0xC2, 0x00, 0x10, 0x00, 0x00, 0x00, 0x00, 0x00] := by
  rintro ⟨⟨o, hleaves⟩, -⟩
  cases hleaves.unique (Leaves.of_leave (r := none) rfl)

/-! ## The loop in memory

A section that is cut off does not stop the loop: its bytes are taken from what lies behind the
packet, the size falls to 0 or below, and the loop leaves where it is looked at next. All that is
asked of the size is the same of a size below 0 as of none, so that the bytes that are left say
enough.
-/

/-- A round of `vlDsgDispatchBcastToDSGCC` with the memory behind the packet. -/
def roundOn (behind : ℕ → UInt8) :
    List UInt8 × BcastOutcome → BcastOutcome ⊕ (List UInt8 × BcastOutcome)
  | (pData, o) =>
    if pData.length ≤ 7 then .inl o
    else
      let pData := discardPadding pData
      if pData.length < 7 then .inr (pData, o)
      else
        match sectionHeader pData with
        -- not with seven bytes
        | none => .inl o
        | some header =>
          if g.GivesUp header then .inl o
          else
            let content := pData.take header.2 ++ load behind 0 (header.2 - pData.length)
            let ok := (g.isDispatched header.1 content).getD false
            .inr (discardPadding (pData.drop header.2), if ok then g.dispatch o content else o)

/-- A round that has come to a section, whole or cut off. -/
theorem roundOn_header {behind : ℕ → UInt8} (hshort : ¬pData.length ≤ 7)
    (hpad : ¬(discardPadding pData).length < 7) {header : ℕ × ℕ}
    (hheader : sectionHeader (discardPadding pData) = some header) :
    g.roundOn behind (pData, o) =
      if g.GivesUp header then .inl o
      else
        .inr (discardPadding ((discardPadding pData).drop header.2),
          if (g.isDispatched header.1 ((discardPadding pData).take header.2 ++
              load behind 0 (header.2 - (discardPadding pData).length))).getD false then
            g.dispatch o ((discardPadding pData).take header.2 ++
              load behind 0 (header.2 - (discardPadding pData).length))
          else o) := by
  rw [roundOn, if_neg hshort]
  dsimp only
  rw [if_neg hpad, hheader]

/-- **A round takes something away**, if it does not leave: the padding that leaves less than seven
bytes, or a section, which has at least seven. -/
theorem roundOn_lt {behind : ℕ → UInt8} {s t : List UInt8 × BcastOutcome}
    (h : g.roundOn behind s = .inr t) : t.1.length < s.1.length := by
  obtain ⟨pData, o⟩ := s
  have hpadding := length_discardPadding_le pData
  by_cases hshort : pData.length ≤ 7
  · rw [roundOn, if_pos hshort] at h
    cases h
  by_cases hpad : (discardPadding pData).length < 7
  · rw [roundOn, if_neg hshort] at h
    obtain rfl := Sum.inr.inj ((if_pos hpad).symm.trans h)
    dsimp only
    omega
  obtain ⟨header, hheader, -⟩ := round_cases (g := g) (by omega) (Nat.le_of_not_lt hpad) o
  rw [roundOn_header hshort hpad hheader] at h
  by_cases hgives : g.GivesUp header
  · rw [if_pos hgives] at h
    cases h
  rw [if_neg hgives] at h
  obtain rfl := Sum.inr.inj h
  have hseven : 7 ≤ header.2 := by
    by_contra hlt
    exact hgives (.inr (.inl (by omega)))
  have hle := length_discardPadding_le ((discardPadding pData).drop header.2)
  rw [List.length_drop] at hle
  dsimp only
  omega

/-- A round that reads within the packet is the same with any memory behind it. -/
theorem roundOn_eq (behind : ℕ → UInt8) (pData : List UInt8) (o : BcastOutcome) :
    (∀ o', g.round (pData, o) = .inl (some o') → g.roundOn behind (pData, o) = .inl o') ∧
      ∀ t, g.round (pData, o) = .inr t → g.roundOn behind (pData, o) = .inr t := by
  by_cases hshort : pData.length ≤ 7
  · rw [round_short hshort, roundOn, if_pos hshort]
    exact ⟨fun o' h => (by cases h; rfl), fun t h => (by cases h)⟩
  by_cases hpad : (discardPadding pData).length < 7
  · rw [round_padding (by omega) hpad, roundOn, if_neg hshort]
    refine ⟨fun o' h => (by cases h), fun t h => ?_⟩
    cases h
    exact if_pos hpad
  obtain ⟨header, hheader, -⟩ := round_cases (g := g) (by omega) (Nat.le_of_not_lt hpad) o
  rw [round_header (by omega) (Nat.le_of_not_lt hpad) hheader, roundOn_header hshort hpad hheader]
  by_cases hgives : g.GivesUp header
  · rw [if_pos hgives, if_pos hgives]
    exact ⟨fun o' h => (by cases h; rfl), fun t h => (by cases h)⟩
  rw [if_neg hgives, if_neg hgives]
  by_cases hwhole : header.2 ≤ (discardPadding pData).length
  · have hseven : 7 ≤ ((discardPadding pData).take header.2).length := by
      have : ¬header.2 < 7 := fun hlt => hgives (.inr (.inl hlt))
      rw [List.length_take]
      omega
    obtain ⟨ok, hok⟩ := exists_isDispatched (g := g) hseven header.1
    rw [octets, if_pos (by omega), List.drop_zero, Nat.sub_eq_zero_of_le hwhole, load_zero,
      List.append_nil]
    dsimp only
    rw [hok]
    exact ⟨fun o' h => (by cases h), fun t h => (by cases h; rfl)⟩
  · rw [octets_eq_none (by omega)]
    exact ⟨fun o' h => (by cases h), fun t h => (by cases h)⟩

/-- So is the loop. -/
theorem iterate_roundOn {behind : ℕ → UInt8} {fuel : ℕ} {s : List UInt8 × BcastOutcome}
    {o : BcastOutcome} (h : iterate g.round fuel s = some (some o)) :
    iterate (g.roundOn behind) fuel s = some o := by
  induction fuel generalizing s with
  | zero => cases h
  | succ fuel ih =>
    obtain ⟨hleave, hround⟩ := roundOn_eq (g := g) behind s.1 s.2
    rcases hs : g.round s with r | t
    · rw [iterate_leave hs] at h
      rw [Option.some.inj h] at hs
      exact iterate_leave (hleave o hs) fuel
    · rw [iterate_round hs] at h
      rw [iterate_round (hround t hs)]
      exact ih h

/-- **The loop ends.** Whatever the bytes are and whatever lies behind them, each round that does not
leave takes at least a byte away, so that the loop leaves within as many rounds as there are bytes,
and one more; and what it leaves with is what it leaves with while it reads within the packet. -/
theorem broadcast_ends (clients : ClientController) (behind : ℕ → UInt8) (pData : List UInt8) :
    (∀ s t, g.roundOn behind s = .inr t → t.1.length < s.1.length) ∧
      (∃ o, iterate (g.roundOn behind) (pData.length + 1) (pData, { clients := clients }) =
        some o) ∧
      ∀ fuel o, g.vlDsgDispatchBcastToDSGCC clients pData fuel = some (some o) →
        iterate (g.roundOn behind) fuel (pData, { clients := clients }) = some o := by
  refine ⟨fun s t => roundOn_lt, ?_, fun fuel o => iterate_roundOn⟩
  have hround : ∀ s : List UInt8 × BcastOutcome, True →
      (∃ o, g.roundOn behind s = .inl o ∧ True) ∨
        ∃ t, g.roundOn behind s = .inr t ∧ True ∧ t.1.length < s.1.length := by
    intro s _
    rcases hs : g.roundOn behind s with o | t
    · exact .inl ⟨o, rfl, trivial⟩
    · exact .inr ⟨t, rfl, trivial, roundOn_lt hs⟩
  obtain ⟨o, ho, -⟩ := exists_iterate (fun s => s.1.length) hround (n := pData.length + 1)
    (s := (pData, { clients := clients })) trivial (Nat.lt_succ_self _)
  exact ⟨o, ho⟩

end BcastContext

end MediaFramework
