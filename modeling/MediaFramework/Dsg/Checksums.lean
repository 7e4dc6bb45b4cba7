import MediaFramework.Dsg.TunnelHeaders
import MediaFramework.Lib.OnesComplement
import MediaFramework.Pod.LengthField

/-!
# The checksums of a packet from a DSG tunnel (`dsg-main.c`)

The words of a header, or of a segment behind its pseudo-header, are summed without the checksum,
and the complement of the sum is compared with that. A checksum of all ones counts as zero.

The check of an IP header fails every header of more than 32 bytes, though a header has up to 60,
and sums the others without looking at the length that it is given. A checksum of zero is accepted
from a TCP segment as it is from a UDP packet, where it says that there is none.
-/

namespace MediaFramework

open BufStream OnesComplement

/-! ## The checks -/

/-- The three lines that add a word. -/
def addWord (nCalculatedChecksum w : ℕ) : ℕ :=
  let n := nCalculatedChecksum + w
  n + n >>> 16 &&& 0xFFFF

/-- The loops, for `k` words from `pData` on. The word at the offset `skip` is left out. -/
def sumWords (skip : Option ℕ) : ℕ → ℕ → List UInt8 → ℕ → Option ℕ
  | _, 0, _, n => some n
  | i, k + 1, pData, n =>
    (if skip = some i then some n else (number pData 0 2).map (addWord n)).bind fun n =>
      sumWords skip (i + 2) k (pData.drop 2) n

/-- The checksum of a header, as it is compared. -/
def nHeaderChecksum (c : ℕ) : ℕ := if c = 0xFFFF then 0 else c

/-- The complement of the sum. -/
def nCalculatedChecksum (n : ℕ) : ℕ := (n ^^^ 0xFFFF) &&& 0xFFFF

/-- `vlDsgIsValidIpHeaderChecksum`; the length that is given is that of `pData`. -/
def vlDsgIsValidIpHeaderChecksum (pIpHeader : DsgIpHeader) (pData : List UInt8) : Option Bool :=
  let nHeaderLength := pIpHeader.headerLength * 4
  if 32 < nHeaderLength then some false
  else do
    let n ← sumWords (some 10) 0 (nHeaderLength / 2) pData 0
    return nHeaderChecksum pIpHeader.headerCRC = nCalculatedChecksum n

/-- The pseudo-header, which is written to a buffer of 32 bytes: the buffer and `nFinalLength`. -/
def writePseudoHeader (pIpHeader : DsgIpHeader) (nPayLoadLength : ℕ) : Option (List UInt8 × ℤ) := do
  let mem := List.replicate 32 0
  let (n₁, mem, s) ← (inst mem).vlWriteNByteLong mem 4 pIpHeader.srcIpAddress
  let (n₂, mem, s) ← s.vlWriteNByteLong mem 4 pIpHeader.dstIpAddress
  let (n₃, mem, s) ← s.vlWriteNByteLong mem 1 0
  let (n₄, mem, s) ← s.vlWriteNByteLong mem 1 pIpHeader.eProtocol
  let (n₅, mem, _) ← s.vlWriteNByteLong mem 2 nPayLoadLength
  return (mem, n₁ + n₂ + n₃ + n₄ + n₅)

/-- `vlDsgIsValidUdpChecksum` and `vlDsgIsValidTcpChecksum`: the checksum is at the offset `skip`. -/
def isValidSegmentChecksum (skip : ℕ) (pIpHeader : DsgIpHeader) (nChecksum : ℕ)
    (pPayload : List UInt8) :
    Option Bool :=
  if nChecksum = 0 then some true
  else do
    let (pseudo, nFinalLength) ← writePseudoHeader pIpHeader pPayload.length
    let n ← sumWords none 0 ((nFinalLength.toNat + 1) / 2) pseudo 0
    let n ← sumWords (some skip) 0 (pPayload.length / 2) pPayload n
    let n ← if pPayload.length % 2 = 1 then
        (octet pPayload (pPayload.length - 1)).map fun b => addWord n (b <<< 8)
      else some n
    return nHeaderChecksum nChecksum = nCalculatedChecksum n

/-- `vlDsgIsValidUdpChecksum` -/
def vlDsgIsValidUdpChecksum (pIpHeader : DsgIpHeader) (pUdpHeader : DsgUdpHeader)
    (pPayload : List UInt8) : Option Bool :=
  isValidSegmentChecksum 6 pIpHeader pUdpHeader.nChecksum pPayload

/-- `vlDsgIsValidTcpChecksum` -/
def vlDsgIsValidTcpChecksum (pIpHeader : DsgIpHeader) (pTcpHeader : DsgTcpHeader)
    (pPayload : List UInt8) : Option Bool :=
  isValidSegmentChecksum 16 pIpHeader pTcpHeader.nChecksum pPayload

/-! ## The sums -/

section Sums

variable {n w i k m : ℕ} {xs : List UInt8}

theorem addWord_eq (hn : n < 2 ^ 16) (hw : w < 2 ^ 16) : addWord n w = onesAdd n w := by
  rw [addWord, onesAdd, show 0xFFFF = 2 ^ 16 - 1 from rfl, Nat.and_two_pow_sub_one_eq_mod,
    Nat.shiftRight_eq_div_pow]
  split_ifs <;> omega

theorem addWord_reduce (hw : w < 2 ^ 16) : addWord (reduce n) w = reduce (n + w) := by
  rw [addWord_eq (reduce_lt n) hw, onesAdd_reduce hw]

theorem nCalculatedChecksum_eq (hn : n < 2 ^ 16) : nCalculatedChecksum n = 0xFFFF - n := by
  have hxor : (BitVec.ofNat 16 n ^^^ BitVec.allOnes 16).toNat = 2 ^ 16 - 1 - n := by
    rw [BitVec.xor_allOnes, BitVec.toNat_not, BitVec.toNat_ofNat, Nat.mod_eq_of_lt hn]
  rw [BitVec.toNat_xor, BitVec.toNat_ofNat, Nat.mod_eq_of_lt hn, BitVec.toNat_allOnes] at hxor
  rw [nCalculatedChecksum, show 0xFFFF = 2 ^ 16 - 1 from rfl, hxor, Nat.and_two_pow_sub_one_eq_mod]
  omega

/-- The sum of words, without the one at the offset `skip`. The first one is at the offset `i`. -/
def sumWithout (skip : Option ℕ) : ℕ → List ℕ → ℕ
  | _, [] => 0
  | i, w :: words => (if skip = some i then 0 else w) + sumWithout skip (i + 2) words

theorem sumWithout_none (i : ℕ) (words : List ℕ) : sumWithout none i words = words.sum := by
  induction words generalizing i with
  | nil => rfl
  | cons w words ih => rw [sumWithout, if_neg (by simp), ih, List.sum_cons]

/-- Nothing is left out before the first word. -/
theorem sumWithout_of_lt (h : m < i) (words : List ℕ) :
    sumWithout (some m) i words = words.sum := by
  induction words generalizing i with
  | nil => rfl
  | cons w words ih =>
    rw [sumWithout, if_neg (by simp; omega), ih (by omega), List.sum_cons]

/-- **The word that is left out.** -/
theorem sumWithout_add {words : List ℕ} {j : ℕ} (h : words[j]? = some w) :
    sumWithout (some (i + 2 * j)) i words + w = words.sum := by
  induction words generalizing i j with
  | nil => cases h
  | cons v words ih =>
    cases j with
    | zero =>
      cases h
      rw [Nat.mul_zero, Nat.add_zero, sumWithout, if_pos rfl, sumWithout_of_lt (by omega),
        List.sum_cons]
      omega
    | succ j =>
      have hrest := ih (i := i + 2) (j := j) h
      rw [show i + 2 + 2 * j = i + 2 * (j + 1) by omega] at hrest
      rw [sumWithout, if_neg (by simp), List.sum_cons, Nat.add_assoc, hrest]

theorem number_two (a b : UInt8) (xs : List UInt8) :
    number (a :: b :: xs) 0 2 = some (a.toNat <<< 8 ||| b.toNat) := by
  have hone : number (a :: b :: xs) 0 1 = some (0 <<< 8 ||| a.toNat) := rfl
  rw [Nat.zero_shiftLeft, Nat.zero_or] at hone
  rw [number, hone]
  rfl

/-- **The loop.** -/
theorem sumWords_eq (skip : Option ℕ) (xs : List UInt8) (h : 2 * k ≤ xs.length) :
    sumWords skip i k xs (reduce n) =
      some (reduce (n + sumWithout skip i (wordsOf (xs.take (2 * k))))) := by
  induction k generalizing i n xs with
  | zero => rfl
  | succ k ih =>
    match xs, h with
    | a :: b :: xs, h =>
      rw [List.length_cons, List.length_cons] at h
      have htake : (a :: b :: xs).take (2 * (k + 1)) = a :: b :: xs.take (2 * k) := rfl
      have hrest : 2 * k ≤ xs.length := by omega
      rw [sumWords, htake, wordsOf, sumWithout, number_two]
      split_ifs with hskip
      · rw [Nat.zero_add]
        exact ih _ hrest
      · rw [Option.map_some, addWord_reduce (shiftLeft_or_lt a b), ← Nat.add_assoc]
        exact ih _ hrest

/-- The last word is read outside, unless it is left out. -/
theorem sumWords_short {skip : Option ℕ} (h : xs.length < 2 * (k + 1))
    (hlast : skip ≠ some (i + 2 * k)) : sumWords skip i (k + 1) xs n = none := by
  induction k generalizing i n xs with
  | zero =>
    have hnone : number xs 0 2 = none := by
      match xs, h with
      | [], _ => rfl
      | [a], _ => rfl
    rw [Nat.mul_zero, Nat.add_zero] at hlast
    rw [sumWords, if_neg hlast, hnone]
    rfl
  | succ k ih =>
    rw [sumWords]
    rcases (if skip = some i then some n else (number xs 0 2).map (addWord n)) with _ | n
    · rfl
    · refine ih (by rw [List.length_drop]; omega) ?_
      rwa [show i + 2 + 2 * k = i + 2 * (k + 1) by omega]

end Sums

/-! ## The pseudo-header -/

/-- The header that is summed before a segment: the addresses, the protocol and the length. -/
def pseudoHeader (pIpHeader : DsgIpHeader) (nPayLoadLength : ℕ) : List UInt8 :=
  toOctets 4 pIpHeader.srcIpAddress ++ toOctets 4 pIpHeader.dstIpAddress ++ toOctets 1 0 ++
    toOctets 1 pIpHeader.eProtocol ++ toOctets 2 nPayLoadLength

section PseudoHeader

variable {ip : DsgIpHeader} {len : ℕ}

theorem length_pseudoHeader : (pseudoHeader ip len).length = 12 := by
  simp only [pseudoHeader, List.length_append, length_toOctets]

/-- A number is written behind the others. -/
theorem write_next {front : List UInt8} {p : ℕ} (hp : front.length = p) (n m v : ℕ)
    (hsize : p + n + m = 32) :
    (⟨32, p, 0⟩ : BufStream).vlWriteNByteLong (front ++ List.replicate (n + m) 0) n v =
      some ((n : ℤ), front ++ toOctets n v ++ List.replicate m 0,
        (⟨32, (p + n : ℕ), 0⟩ : BufStream)) := by
  have hint : int32 ((p : ℤ) + n) = (p + n : ℕ) := int32_of_range (by omega) (by omega)
  have hcan : (⟨32, p, 0⟩ : BufStream).canUse n = true := by
    rw [canUse, hint]
    exact decide_eq_true (by dsimp only; omega)
  have hplace : (⟨32, p, 0⟩ : BufStream).currentBuf = front.length := by
    rw [currentBuf, hp]
    exact Int.zero_add _
  rw [vlWriteNByteLong, if_pos hcan, hplace, Int.toNat_natCast, bytesOf_eq_toOctets,
    List.replicate_add, writeAt_split rfl (by rw [List.length_replicate, length_toOctets]),
    advanceBuf, hint, List.append_assoc]
  rfl

/-- A number is written, and what is done then. -/
theorem write_then {α : Type} {f : ℤ × List UInt8 × BufStream → Option α} {r : Option α}
    (front : List UInt8) {p : ℕ} (hp : front.length = p) (n m v : ℕ) (hsize : p + n + m = 32)
    (hf : f ((n : ℤ), front ++ toOctets n v ++ List.replicate m 0, ⟨32, (p + n : ℕ), 0⟩) = r) :
    ((⟨32, p, 0⟩ : BufStream).vlWriteNByteLong (front ++ List.replicate (n + m) 0) n v >>= f) =
      r := by
  rw [write_next hp n m v hsize]
  exact hf

/-- **The pseudo-header is written.** -/
theorem writePseudoHeader_eq : writePseudoHeader ip len =
    some (pseudoHeader ip len ++ List.replicate 20 0, 12) := by
  have hlength : ∀ (xs : List UInt8) (n v : ℕ), (xs ++ toOctets n v).length = xs.length + n :=
    fun xs n v => by rw [List.length_append, length_toOctets]
  rw [writePseudoHeader]
  refine write_then [] (p := 0) rfl 4 28 ip.srcIpAddress rfl ?_
  refine write_then _ (p := 4) (hlength _ _ _) 4 24 ip.dstIpAddress rfl ?_
  refine write_then _ (p := 8) (by rw [hlength, hlength]; rfl) 1 23 0 rfl ?_
  refine write_then _ (p := 9) (by rw [hlength, hlength, hlength]; rfl) 1 22 ip.eProtocol rfl ?_
  refine write_then _ (p := 10) (by rw [hlength, hlength, hlength, hlength]; rfl) 2 20 len rfl ?_
  rfl

theorem sum_pseudoHeader_pos (len : ℕ) (h : ip.eProtocol % 256 ≠ 0) :
    0 < (wordsOf (pseudoHeader ip len)).sum := by
  refine sum_wordsOf_pos (b := UInt8.ofNat ip.eProtocol) ?_ fun hzero => h ?_
  · rw [pseudoHeader]
    exact List.mem_append_left _ (List.mem_append_right _ (List.mem_singleton_self _))
  · have := congrArg UInt8.toNat hzero
    rwa [UInt8.toNat_ofNat'] at this

end PseudoHeader

/-! ## What is accepted -/

section Accepted

variable {ip : DsgIpHeader} {n c j : ℕ} {xs : List UInt8} {b : UInt8}

/-- The comparison at the end. -/
theorem compares_complement (hn : 0 < n) (hc : c < 2 ^ 16) :
    nHeaderChecksum c = nCalculatedChecksum (reduce n) ↔ reduce (n + c) = 0xFFFF := by
  rw [nCalculatedChecksum_eq (reduce_lt n), nHeaderChecksum, complement_iff hn hc]

/-- The words of a segment, with the one that is padded. -/
theorem sum_wordsOf (xs : List UInt8) : (wordsOf xs).sum =
    (wordsOf (xs.take (2 * (xs.length / 2)))).sum +
      (wordsOf (xs.drop (2 * (xs.length / 2)))).sum := by
  have hsplit := List.take_append_drop (2 * (xs.length / 2)) xs
  have heven : (xs.take (2 * (xs.length / 2))).length % 2 = 0 := by
    rw [List.length_take_of_le (by omega)]
    omega
  rw [← List.sum_append, ← wordsOf_append heven, hsplit]

/-- The last octet, where the number of octets is odd. -/
theorem drop_odd (h : xs.length % 2 = 1) :
    ∃ b : UInt8, xs.drop (2 * (xs.length / 2)) = [b] ∧ octet xs (xs.length - 1) = some b.toNat := by
  have hlt : 2 * (xs.length / 2) < xs.length := by omega
  refine ⟨xs[2 * (xs.length / 2)], ?_, ?_⟩
  · rw [List.drop_eq_getElem_cons hlt, List.drop_eq_nil_of_le (by omega)]
  · rw [show xs.length - 1 = 2 * (xs.length / 2) by omega, octet, List.getElem?_eq_getElem hlt]
    rfl

/-- **A segment** with a checksum is accepted just if its sum with the pseudo-header is all ones. -/
theorem isValidSegmentChecksum_eq (hprotocol : ip.eProtocol % 256 ≠ 0) (hzero : c ≠ 0)
    (hj : 2 * j + 2 ≤ xs.length) (hc : ofOctets ((xs.drop (2 * j)).take 2) = c) :
    isValidSegmentChecksum (2 * j) ip c xs =
      some (decide (Verifies (pseudoHeader ip xs.length ++ xs))) := by
  have hpos := sum_pseudoHeader_pos xs.length hprotocol
  have hlength : (pseudoHeader ip xs.length).length % 2 = 0 := by rw [length_pseudoHeader]
  have hfield : (wordsOf (xs.take (2 * (xs.length / 2))))[j]? = some c := by
    rw [getElem?_wordsOf, ← hc, List.drop_take, List.take_take, Nat.min_eq_left (by omega)]
    rw [List.length_take]
    omega
  have hlt : c < 2 ^ 16 := wordsOf_lt _ c (List.mem_of_getElem? hfield)
  have hwithout := sumWithout_add (i := 0) hfield
  have hpseudo : sumWords none 0 6 (pseudoHeader ip xs.length ++ List.replicate 20 0) 0 =
      some (reduce (wordsOf (pseudoHeader ip xs.length)).sum) := by
    have hloop := sumWords_eq none (i := 0) (n := 0) (k := 6)
      (pseudoHeader ip xs.length ++ List.replicate 20 0)
      (by rw [List.length_append, length_pseudoHeader]; omega)
    rwa [List.take_left' length_pseudoHeader, sumWithout_none, Nat.zero_add] at hloop
  have hloop := sumWords_eq (some (2 * j)) (i := 0) (k := xs.length / 2) xs
    (n := (wordsOf (pseudoHeader ip xs.length)).sum) (by omega)
  rw [Nat.zero_add] at hwithout
  rw [isValidSegmentChecksum, if_neg hzero, writePseudoHeader_eq]
  simp only [Option.bind_eq_bind, Option.bind_some]
  rw [show ((12 : ℤ).toNat + 1) / 2 = 6 from rfl, hpseudo, Option.bind_some, hloop,
    Option.bind_some]
  have hverifies : Verifies (pseudoHeader ip xs.length ++ xs) ↔
      reduce ((wordsOf (pseudoHeader ip xs.length)).sum + (wordsOf xs).sum) = 0xFFFF := by
    rw [verifies_iff, wordsOf_append hlength, List.sum_append]
  rw [sum_wordsOf xs, ← hwithout] at hverifies
  split_ifs with hodd
  · obtain ⟨b, hdrop, hlast⟩ := drop_odd hodd
    have hb := shiftLeft_or_lt b 0
    rw [UInt8.toNat_zero, Nat.or_zero] at hb
    have hword : (wordsOf [b]).sum = b.toNat <<< 8 := List.sum_singleton
    rw [hlast, Option.map_some, Option.bind_some, addWord_reduce hb]
    refine congrArg some (decide_eq_decide.mpr ((compares_complement (by omega) hlt).trans ?_))
    rw [hverifies, hdrop, hword]
    refine iff_of_eq (congrArg (fun n => reduce n = 0xFFFF) ?_)
    omega
  · have hdrop : xs.drop (2 * (xs.length / 2)) = [] := List.drop_eq_nil_of_le (by omega)
    refine congrArg some (decide_eq_decide.mpr ((compares_complement (by omega) hlt).trans ?_))
    rw [hverifies, hdrop]
    refine iff_of_eq (congrArg (fun n => reduce n = 0xFFFF) ?_)
    rw [wordsOf, List.sum_nil]
    omega

/-- The first word of a header is summed. -/
theorem sumWithout_pos (hfirst : xs[0]? = some b) (hb : b ≠ 0) (hm : 0 < n) :
    0 < sumWithout (some n) 0 (wordsOf xs) := by
  have hpos : 0 < b.toNat := Nat.pos_of_ne_zero fun h => hb (UInt8.toNat_inj.mp h)
  have hskip : ¬some n = some 0 := by simp; omega
  match xs, hfirst with
  | [_], rfl =>
    rw [wordsOf, sumWithout, if_neg hskip, Nat.shiftLeft_eq]
    omega
  | _ :: d :: _, rfl =>
    rw [wordsOf, sumWithout, if_neg hskip, ← Nat.shiftLeft_add_eq_or_of_lt d.toNat_lt,
      Nat.shiftLeft_eq]
    omega

/-- **A header** of no more than 32 bytes is accepted just if its sum is all ones. -/
theorem vlDsgIsValidIpHeaderChecksum_eq (hrange : 5 ≤ ip.headerLength ∧ ip.headerLength ≤ 8)
    (hlength : 4 * ip.headerLength ≤ xs.length)
    (hc : ofOctets ((xs.drop 10).take 2) = ip.headerCRC) (hfirst : xs[0]? = some b) (hb : b ≠ 0) :
    vlDsgIsValidIpHeaderChecksum ip xs =
      some (decide (Verifies (xs.take (4 * ip.headerLength)))) := by
  have hsize : ip.headerLength * 4 / 2 = 2 * ip.headerLength := by omega
  have hend : 2 * (2 * ip.headerLength) = 4 * ip.headerLength := by omega
  have hfield : (wordsOf (xs.take (4 * ip.headerLength)))[5]? = some ip.headerCRC := by
    rw [getElem?_wordsOf, ← hc, List.drop_take, List.take_take, Nat.min_eq_left (by omega)]
    rw [List.length_take]
    omega
  have hlt : ip.headerCRC < 2 ^ 16 := wordsOf_lt _ _ (List.mem_of_getElem? hfield)
  have hwithout := sumWithout_add (i := 0) hfield
  have hloop := sumWords_eq (some 10) (i := 0) (n := 0) (k := 2 * ip.headerLength)
    xs (by omega)
  have hpos := sumWithout_pos (n := 10)
    ((List.getElem?_take_of_lt (by omega)).trans hfirst :
      (xs.take (4 * ip.headerLength))[0]? = some b) hb (by omega)
  rw [hend, Nat.zero_add] at hloop
  rw [vlDsgIsValidIpHeaderChecksum, if_neg (by omega), hsize]
  refine (congrArg (· >>= _) hloop).trans (congrArg some (decide_eq_decide.mpr ?_))
  rw [compares_complement hpos hlt, verifies_iff, ← hwithout]

/-- A header is read beyond the bytes that are given, if these are too few. -/
theorem vlDsgIsValidIpHeaderChecksum_short (hrange : 5 ≤ ip.headerLength ∧ ip.headerLength ≤ 8)
    (hlength : xs.length < 4 * ip.headerLength) : vlDsgIsValidIpHeaderChecksum ip xs = none := by
  have hsize : ip.headerLength * 4 / 2 = 2 * ip.headerLength - 1 + 1 := by omega
  have hlast : some 10 ≠ some (0 + 2 * (2 * ip.headerLength - 1)) := by simp; omega
  have hloop : sumWords (some 10) 0 (2 * ip.headerLength - 1 + 1) xs 0 = none :=
    sumWords_short (by omega) hlast
  rw [vlDsgIsValidIpHeaderChecksum, if_neg (by omega), hsize, hloop]
  rfl

/-- A header of more than 32 bytes is not accepted. -/
theorem vlDsgIsValidIpHeaderChecksum_long (h : 8 < ip.headerLength) :
    vlDsgIsValidIpHeaderChecksum ip xs = some false := if_pos (by omega)

end Accepted

/-! ## The headers as they are parsed -/

/-- What a read at a place of a whole packet gives: zero where there is not enough left. -/
def peek (mem : List UInt8) (p n : ℕ) : ℕ :=
  if p + n ≤ mem.length then ofOctets ((mem.drop p).take n) else 0

section Parsed

variable {m : DataModel} {mem : List UInt8} {s : BufStream} {p n : ℕ}

theorem readNByteLong_inst (hmem : mem.length < 2 ^ 31) (hp : p + n < 2 ^ 31) :
    ((inst mem).advanceBuf p).readNByteLong mem n =
      some (peek mem p n, (inst mem).advanceBuf (p + n : ℕ)) := by
  rw [peek]
  split_ifs with hroom
  · have hahead : (inst mem).Ahead mem (mem ++ []) := by
      rw [List.append_nil]
      exact ahead_inst (by omega)
    exact readNByteLong_header hahead hroom
  · have hposition : ((inst mem).advanceBuf p).iPosition = p := by
      have hzero : (inst mem).iPosition = 0 := rfl
      rw [advanceBuf, hzero, Int.zero_add, int32_of_range (by omega) (by omega)]
    have hcan : ((inst mem).advanceBuf p).canUse n = false := by
      rw [canUse, hposition, int32_of_range (by omega) (by omega)]
      exact decide_eq_false (by rw [advanceBuf, inst]; dsimp only; omega)
    rw [readNByteLong, hcan, if_neg Bool.false_ne_true, advanceBuf_advanceBuf]
    rfl

/-- A read, and what is done then. -/
theorem peek_then {α : Type} {f : ℕ × BufStream → Option α} {r : Option α}
    (hmem : mem.length < 2 ^ 31) (hp : p + n < 2 ^ 31)
    (hf : f (peek mem p n, (inst mem).advanceBuf (p + n : ℕ)) = r) :
    (((inst mem).advanceBuf p).readNByteLong mem n >>= f) = r := by
  rw [readNByteLong_inst hmem hp]
  exact hf

theorem peekLong_then {α : Type} {f : ℕ × BufStream → Option α} {r : Option α}
    (hmem : mem.length < 2 ^ 31) (hp : p + 4 < 2 ^ 31)
    (hf : f (m.ofInt (peek mem p 4), (inst mem).advanceBuf (p + 4 : ℕ)) = r) :
    (((inst mem).advanceBuf p).vlParseLong mem m >>= f) = r := by
  rw [vlParseLong, readNByteLong_inst hmem hp]
  exact hf

theorem inst_advanceBuf_zero (hmem : mem.length < 2 ^ 31) :
    (inst mem).advanceBuf (0 : ℕ) = inst mem :=
  (ahead_inst (by omega : (mem.length : ℤ) < 2 ^ 31)).advanceBuf_zero

theorem nChecksum_of_udp {udp : DsgUdpHeader} (hmem : mem.length < 2 ^ 31)
    (h : vlParseDsgUdpHeader mem (inst mem) = some (udp, s)) : udp.nChecksum = peek mem 6 2 := by
  have hparse : vlParseDsgUdpHeader mem (inst mem) =
      some (⟨peek mem 0 2, peek mem 2 2, peek mem 4 2, peek mem 6 2⟩,
        (inst mem).advanceBuf (8 : ℕ)) := by
    nth_rewrite 1 [← inst_advanceBuf_zero hmem]
    iterate 4 refine peek_then hmem (by omega) ?_
    rfl
  rw [h] at hparse
  cases hparse
  rfl

theorem nChecksum_of_tcp {tcp : DsgTcpHeader} (hmem : mem.length < 2 ^ 31)
    (h : vlParseDsgTcpHeader m mem (inst mem) = some (tcp, s)) : tcp.nChecksum = peek mem 16 2 := by
  have hparse : vlParseDsgTcpHeader m mem (inst mem) =
      (vlParseDsgOptions mem ((inst mem).advanceBuf (20 : ℕ))
        (((peek mem 12 1 >>> 4 &&& 0xF : ℕ) - 5) * 4)).bind fun s =>
          some (⟨peek mem 0 2, peek mem 2 2, m.ofInt (peek mem 4 4), m.ofInt (peek mem 8 4),
            peek mem 12 1, peek mem 13 1, peek mem 14 2, peek mem 16 2, peek mem 18 2⟩, s) := by
    nth_rewrite 1 [← inst_advanceBuf_zero hmem]
    iterate 2 refine peek_then hmem (by omega) ?_
    iterate 2 refine peekLong_then hmem (by omega) ?_
    iterate 5 refine peek_then hmem (by omega) ?_
    rfl
  rw [h] at hparse
  obtain ⟨_, -, hheader⟩ := Option.bind_eq_some_iff.mp hparse.symm
  cases hheader
  rfl

/-- The first byte and the checksum of an IP header. -/
theorem header_of_ip {ip : DsgIpHeader} (hmem : mem.length < 2 ^ 31)
    (h : vlParseDsgIpHeader m mem (inst mem) = some (ip, s)) (hversion : ip.version = 4) :
    peek mem 0 1 >>> 4 &&& 0xF = 4 ∧ ip.headerLength = peek mem 0 1 &&& 0xF ∧
      ip.headerCRC = peek mem 10 2 := by
  by_cases hfour : peek mem 0 1 >>> 4 &&& 0xF = 4
  · have hparse : vlParseDsgIpHeader m mem (inst mem) =
        (vlParseDsgOptions mem ((inst mem).advanceBuf (12 : ℕ))
          (((peek mem 0 1 &&& 0xF : ℕ) - 5) * 4)).bind fun s =>
            (s.vlParseLong mem m).bind fun src => (src.2.vlParseLong mem m).bind fun dst =>
              some (⟨peek mem 0 1 >>> 4 &&& 0xF, peek mem 0 1 &&& 0xF, peek mem 1 1, peek mem 2 2,
                peek mem 4 2, peek mem 6 2 >>> 14 &&& 0x1, peek mem 6 2 >>> 13 &&& 0x1,
                8 * (peek mem 6 2 &&& 0x1FFF), peek mem 8 1, peek mem 9 1, peek mem 10 2, src.1,
                dst.1⟩, dst.2) := by
      nth_rewrite 1 [← inst_advanceBuf_zero hmem]
      refine peek_then hmem (by omega) ?_
      dsimp only
      rw [if_neg (fun hne => hne hfour)]
      iterate 7 refine peek_then hmem (by omega) ?_
      rfl
    rw [h] at hparse
    obtain ⟨_, -, hparse⟩ := Option.bind_eq_some_iff.mp hparse.symm
    obtain ⟨_, -, hparse⟩ := Option.bind_eq_some_iff.mp hparse
    obtain ⟨_, -, hparse⟩ := Option.bind_eq_some_iff.mp hparse
    cases hparse
    exact ⟨hfour, rfl, rfl⟩
  · have hparse : vlParseDsgIpHeader m mem (inst mem) =
        some ({ version := peek mem 0 1 >>> 4 &&& 0xF, headerLength := peek mem 0 1 &&& 0xF },
          (inst mem).advanceBuf (1 : ℕ)) := by
      nth_rewrite 1 [← inst_advanceBuf_zero hmem]
      refine peek_then hmem (by omega) ?_
      dsimp only
      rw [if_pos hfour]
      rfl
    rw [h] at hparse
    cases hparse
    exact absurd hversion hfour

/-- The bytes that a read takes, where it is not zero. -/
theorem peek_ne_zero (h : peek mem p n ≠ 0) :
    p + n ≤ mem.length ∧ ofOctets ((mem.drop p).take n) = peek mem p n := by
  rw [peek] at h ⊢
  split_ifs at h ⊢ with hroom
  · exact ⟨hroom, rfl⟩
  · exact absurd rfl h

theorem peek_zero_one {b : UInt8} (h : mem[0]? = some b) : peek mem 0 1 = b.toNat := by
  match mem, h with
  | _ :: _, rfl => exact Nat.zero_or _

end Parsed

/-! ## What is checked -/

/-- An IP header that is parsed from some bytes, a number that an `int` holds. -/
structure IpHead where
  model : DataModel
  bytes : List UInt8
  header : DsgIpHeader
  rest : BufStream
  length_spec : bytes.length < 2 ^ 31
  parsed : vlParseDsgIpHeader model bytes (inst bytes) = some (header, rest)
  /-- other packets are dropped before -/
  version_spec : header.version = 4
  range : 5 ≤ header.headerLength

/-- A UDP packet behind its IP header. -/
structure UdpSegment where
  ip : DsgIpHeader
  bytes : List UInt8
  header : DsgUdpHeader
  rest : BufStream
  length_spec : bytes.length < 2 ^ 31
  parsed : vlParseDsgUdpHeader bytes (inst bytes) = some (header, rest)
  protocol_spec : ip.eProtocol = 0x11

/-- A TCP segment behind its IP header. -/
structure TcpSegment where
  model : DataModel
  ip : DsgIpHeader
  bytes : List UInt8
  header : DsgTcpHeader
  rest : BufStream
  length_spec : bytes.length < 2 ^ 31
  parsed : vlParseDsgTcpHeader model bytes (inst bytes) = some (header, rest)
  protocol_spec : ip.eProtocol = 0x06

namespace IpHead

variable (p : IpHead)

/-- The header is there, and its sum is all ones. -/
def Sound : Prop :=
  4 * p.header.headerLength ≤ p.bytes.length ∧ Verifies (p.bytes.take (4 * p.header.headerLength))

/-- Only the bytes are read, and the header is accepted just if it is sound. -/
def Checked : Prop :=
  ∃ valid, vlDsgIsValidIpHeaderChecksum p.header p.bytes = some valid ∧ (valid = true ↔ p.Sound)

/-- **When an IP header is checked.** -/
theorem checked_iff : p.Checked ↔
    if p.header.headerLength ≤ 8 then 4 * p.header.headerLength ≤ p.bytes.length else ¬p.Sound := by
  obtain ⟨hfour, hlow, hcrc⟩ := header_of_ip p.length_spec p.parsed p.version_spec
  rw [Checked]
  split_ifs with hshort
  · by_cases hlength : 4 * p.header.headerLength ≤ p.bytes.length
    · have hrange := p.range
      obtain ⟨b, hb⟩ : ∃ b, p.bytes[0]? = some b := ⟨_, List.getElem?_eq_getElem (by omega)⟩
      have hfirst : b ≠ 0 := by
        rintro rfl
        rw [peek_zero_one hb] at hfour
        exact absurd hfour (by decide)
      have hfield : ofOctets ((p.bytes.drop 10).take 2) = p.header.headerCRC := by
        rw [hcrc, peek, if_pos (by omega)]
      refine iff_of_true ⟨_, vlDsgIsValidIpHeaderChecksum_eq ⟨hrange, hshort⟩ hlength hfield hb
        hfirst, ?_⟩ hlength
      rw [decide_eq_true_iff, Sound, and_iff_right hlength]
    · refine iff_of_false ?_ hlength
      rintro ⟨valid, hvalid, -⟩
      rw [vlDsgIsValidIpHeaderChecksum_short ⟨p.range, hshort⟩ (by omega)] at hvalid
      cases hvalid
  · rw [vlDsgIsValidIpHeaderChecksum_long (by omega)]
    refine ⟨?_, fun hsound => ⟨false, rfl, iff_of_false Bool.false_ne_true hsound⟩⟩
    rintro ⟨valid, hvalid, hiff⟩
    cases hvalid
    exact fun hsound => Bool.false_ne_true (hiff.mpr hsound)

end IpHead

/-- **A checksum other than zero.** -/
theorem isValidSegmentChecksum_peek {ip : DsgIpHeader} {bytes : List UInt8} {j : ℕ}
    (hprotocol : ip.eProtocol % 256 ≠ 0) (hzero : peek bytes (2 * j) 2 ≠ 0) :
    isValidSegmentChecksum (2 * j) ip (peek bytes (2 * j) 2) bytes =
      some (decide (Verifies (pseudoHeader ip bytes.length ++ bytes))) :=
  isValidSegmentChecksum_eq hprotocol hzero (peek_ne_zero hzero).1 (peek_ne_zero hzero).2

namespace UdpSegment

variable (p : UdpSegment)

/-- Only the bytes are read, and the packet is accepted just if it has no checksum or its sum is all
ones. -/
def Checked : Prop :=
  ∃ valid, vlDsgIsValidUdpChecksum p.ip p.header p.bytes = some valid ∧
    (valid = true ↔ p.header.nChecksum = 0 ∨
      Verifies (pseudoHeader p.ip p.bytes.length ++ p.bytes))

/-- **A UDP packet is always checked.** -/
theorem checked : p.Checked := by
  have hprotocol : p.ip.eProtocol % 256 ≠ 0 := by rw [p.protocol_spec]; decide
  rw [Checked, vlDsgIsValidUdpChecksum]
  by_cases hzero : p.header.nChecksum = 0
  · exact ⟨true, if_pos hzero, iff_of_true rfl (Or.inl hzero)⟩
  · have hchecksum := nChecksum_of_udp p.length_spec p.parsed
    refine ⟨decide (Verifies (pseudoHeader p.ip p.bytes.length ++ p.bytes)), ?_, ?_⟩
    · rw [hchecksum] at hzero ⊢
      exact isValidSegmentChecksum_peek (j := 3) hprotocol hzero
    · rw [decide_eq_true_iff, or_iff_right hzero]

end UdpSegment

namespace TcpSegment

variable (p : TcpSegment)

/-- The sum is all ones. -/
def Sound : Prop := Verifies (pseudoHeader p.ip p.bytes.length ++ p.bytes)

/-- Only the bytes are read, and the segment is accepted just if its sum is all ones. -/
def Checked : Prop :=
  ∃ valid, vlDsgIsValidTcpChecksum p.ip p.header p.bytes = some valid ∧ (valid = true ↔ p.Sound)

/-- **When a TCP segment is checked.** -/
theorem checked_iff : p.Checked ↔ (p.header.nChecksum = 0 → p.Sound) := by
  have hprotocol : p.ip.eProtocol % 256 ≠ 0 := by rw [p.protocol_spec]; decide
  rw [Checked, vlDsgIsValidTcpChecksum]
  by_cases hzero : p.header.nChecksum = 0
  · rw [isValidSegmentChecksum, if_pos hzero, imp_iff_right hzero]
    refine ⟨?_, fun hsound => ⟨true, rfl, iff_of_true rfl hsound⟩⟩
    rintro ⟨valid, hvalid, hiff⟩
    cases hvalid
    exact hiff.mp rfl
  · have hchecksum := nChecksum_of_tcp p.length_spec p.parsed
    refine iff_of_true ⟨decide (Verifies (pseudoHeader p.ip p.bytes.length ++ p.bytes)), ?_, ?_⟩
      fun h => absurd h hzero
    · rw [hchecksum] at hzero ⊢
      exact isValidSegmentChecksum_peek (j := 8) hprotocol hzero
    · rw [decide_eq_true_iff, Sound]

end TcpSegment

/-- **When the checksums are checked.** A UDP packet always is. An IP header is if it has at most 32
bytes and they are all there, or is not sound anyway; and a TCP segment, if its checksum is not zero
or its sum is all ones. -/
theorem checksums_checked_iff (ip : IpHead) (udp : UdpSegment) (tcp : TcpSegment) :
    (ip.Checked ↔
      if ip.header.headerLength ≤ 8 then 4 * ip.header.headerLength ≤ ip.bytes.length
      else ¬ip.Sound) ∧
    udp.Checked ∧
    (tcp.Checked ↔ (tcp.header.nChecksum = 0 → tcp.Sound)) :=
  ⟨ip.checked_iff, udp.checked, tcp.checked_iff⟩

/-- A header that is cut off after ten bytes. -/
def cutHeader : IpHead where
  model := .ilp32
  bytes := [0x45, 0, 0, 20, 0, 0, 0, 0, 64, 6]
  header :=
    { version := 4, headerLength := 5, nTotalLength := 20, timeToLive := 64, eProtocol := 6 }
  rest := ⟨10, 20, 0⟩
  length_spec := by decide
  parsed := by decide
  version_spec := rfl
  range := by decide

/-- A header with sixteen bytes of options. -/
def longHeader : IpHead where
  model := .ilp32
  bytes := [0x49, 0, 0, 36, 0, 0, 0, 0, 64, 6, 0x5A, 0xCA, 10, 0, 0, 1, 10, 0, 0, 2] ++
    List.replicate 16 1
  header :=
    { version := 4, headerLength := 9, nTotalLength := 36, timeToLive := 64, eProtocol := 6
      headerCRC := 0x5ACA, srcIpAddress := 0x01010101, dstIpAddress := 0x01010101 }
  rest := ⟨36, 36, 0⟩
  length_spec := by decide
  parsed := by decide
  version_spec := rfl
  range := by decide

/-- A TCP segment with a checksum of zero, which is wrong. -/
def zeroChecksum : TcpSegment where
  model := .ilp32
  ip := { eProtocol := 6 }
  bytes := List.replicate 12 0 ++ [0x50] ++ List.replicate 7 0
  header := { nDataOffsetRsvd := 0x50 }
  rest := ⟨20, 20, 0⟩
  length_spec := by decide
  parsed := by decide
  protocol_spec := rfl

/-- The first one is read outside, the second one is refused although it is sound, and the third one
is accepted. -/
theorem not_checksums_checked :
    ¬cutHeader.Checked ∧ ¬longHeader.Checked ∧ ¬zeroChecksum.Checked := by
  refine ⟨?_, ?_, ?_⟩
  · rintro ⟨valid, hvalid, -⟩
    have hnone : vlDsgIsValidIpHeaderChecksum cutHeader.header cutHeader.bytes = none := by decide
    rw [hnone] at hvalid
    cases hvalid
  · rintro ⟨valid, hvalid, hiff⟩
    obtain rfl : valid = false := Option.some.inj (hvalid.symm.trans (by decide))
    exact Bool.false_ne_true (hiff.mpr ⟨by decide, by decide⟩)
  · rintro ⟨valid, hvalid, hiff⟩
    obtain rfl : valid = true := Option.some.inj (hvalid.symm.trans (by decide))
    have hsum : ¬Verifies (pseudoHeader zeroChecksum.ip zeroChecksum.bytes.length ++
      zeroChecksum.bytes) := by decide
    exact hsum (hiff.mp rfl)

end MediaFramework
