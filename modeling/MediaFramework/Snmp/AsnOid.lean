import MediaFramework.Lib.Bits
import MediaFramework.Lib.Octets
import Mathlib.Data.List.TakeWhile
import Mathlib.Tactic.Ring

/-!
# Encoded object identifiers (`TlvConfig::vlGetAsnEncodedOidParseBuff`)

The arcs of an object identifier after the first two are encoded in base 128, each in as many octets
as it takes, and all of these but the last have their highest bit set. The decoder looks at that bit
of the *next* octet instead: an octet and those behind it that have the bit set make one arc.
-/

namespace MediaFramework

/-! ## The decoder -/

namespace AsnOid

variable (bytes : List UInt8) (nLength : ℕ)

/-- `nOidNum <<= 7; nOidNum |= (buffparse[i]&0x7F)`, of an `int` of 32 bits. -/
def shiftIn (nOidNum b : ℕ) : ℕ := nOidNum <<< 7 % 2 ^ 32 ||| (b &&& 0x7F)

/-- The inner loop: an arc, and where the next one begins. -/
def parseArc : ℕ → ℕ → ℕ → Option (ℕ × ℕ)
  | 0, _, _ => none
  | fuel + 1, i, nOidNum => do
    let b ← octet bytes i
    if i + 1 < nLength then
      let next ← octet bytes (i + 1)
      if next &&& 0x80 = 0x80 then parseArc fuel (i + 1) (shiftIn nOidNum b)
      else return (shiftIn nOidNum b, i + 1)
    else return (shiftIn nOidNum b, i + 1)

/-- The outer loop. -/
def parseArcs : ℕ → ℕ → Option (List ℕ)
  | 0, _ => none
  | fuel + 1, i =>
    if i < bytes.length then do
      let (nOidNum, i) ← parseArc bytes nLength (bytes.length + 1) i 0
      let arcs ← parseArcs fuel i
      return nOidNum :: arcs
    else some []

/-- `vlGetAsnEncodedOidParseBuff` -/
def vlGetAsnEncodedOidParseBuff : Option (List ℕ) :=
  if bytes.length = 0 then some []
  else do
    let first ← octet bytes 0
    if 40 ≤ first then
      let arcs ← parseArcs bytes nLength (bytes.length + 1) 1
      return first / 40 :: first % 40 :: arcs
    else parseArcs bytes nLength (bytes.length + 1) 0

end AsnOid

/-! ## Object identifiers -/

/-- An object identifier whose first arc is 1. -/
structure ObjectId where
  /-- its second arc -/
  second : ℕ
  /-- the other ones -/
  arcs : List ℕ
  second_lt : second < 40
  arcs_lt : ∀ a ∈ arcs, a < 2 ^ 31

namespace ObjectId

/-- The octets that others follow. -/
def continued (n : ℕ) : List UInt8 :=
  if n = 0 then [] else continued (n / 128) ++ [UInt8.ofNat (128 + n % 128)]
termination_by n
decreasing_by omega

/-- An arc. -/
def encodeArc (a : ℕ) : List UInt8 := continued (a / 128) ++ [UInt8.ofNat (a % 128)]

/-- The encoding. -/
def encode (oid : ObjectId) : List UInt8 :=
  UInt8.ofNat (40 + oid.second) :: oid.arcs.flatMap encodeArc

end ObjectId

namespace AsnOid

open ObjectId

/-! ## What the decoder makes of octets -/

/-- The highest bit is set. -/
def continues (b : UInt8) : Bool := decide (128 ≤ b.toNat)

theorem and_80_iff {b : UInt8} : b.toNat &&& 0x80 = 0x80 ↔ continues b = true := by
  have hlt := b.toNat_lt
  have hand : b.toNat &&& 0x80 = b.toNat / 2 ^ 7 % 2 ^ 1 * 2 ^ 7 := and_mask b.toNat 1 7
  rw [hand, continues, decide_eq_true_iff]
  omega

theorem shiftIn_eq (n b : ℕ) : shiftIn n b = n * 128 % 2 ^ 32 + b % 128 := by
  have hand : b &&& 0x7F = b % 2 ^ 7 := and_low b 7
  rw [shiftIn, hand, Nat.shiftLeft_eq, @or_eq_add 7 _ _ (by omega) (by omega)]
  rfl

/-- An octet and those that seem to belong to it. -/
def arcsOf : List UInt8 → List ℕ
  | [] => []
  | b :: l => (b :: l.takeWhile continues).foldl (fun n b => shiftIn n b.toNat) 0 ::
      arcsOf (l.dropWhile continues)
termination_by l => l.length
decreasing_by
  have := (List.dropWhile_suffix (p := continues) (l := l)).length_le
  simp only [List.length_cons]
  omega

variable {bytes : List UInt8}

/-- The inner loop, in a buffer that is as long as it is said to be. -/
theorem parseArc_eq : ∀ (l : List UInt8) (fuel i n : ℕ) (b : UInt8), bytes.drop i = b :: l →
    l.length < fuel → parseArc bytes bytes.length fuel i n =
      some ((b :: l.takeWhile continues).foldl (fun n b => shiftIn n b.toNat) n,
        i + 1 + (l.takeWhile continues).length) := by
  intro l
  induction l with
  | nil =>
    intro fuel i n b hdrop hfuel
    obtain ⟨fuel, rfl⟩ : ∃ k, fuel = k + 1 := ⟨fuel - 1, by omega⟩
    have hlen : bytes.length = i + 1 := by
      have := congrArg List.length hdrop
      rw [List.length_drop, List.length_singleton] at this
      omega
    rw [parseArc, octet_of_drop hdrop, Option.bind_eq_bind, Option.bind_some,
      if_neg (by omega)]
    rfl
  | cons c l ih =>
    intro fuel i n b hdrop hfuel
    obtain ⟨fuel, rfl⟩ : ∃ k, fuel = k + 1 := ⟨fuel - 1, by omega⟩
    have hdrop' : bytes.drop (i + 1) = c :: l := by
      rw [← List.drop_drop, hdrop]
      rfl
    have hlen : i + 1 < bytes.length := by
      have := congrArg List.length hdrop'
      rw [List.length_drop, List.length_cons] at this
      omega
    rw [parseArc, octet_of_drop hdrop, Option.bind_eq_bind, Option.bind_some, if_pos hlen,
      octet_of_drop hdrop', Option.bind_some]
    rcases hc : continues c with _ | _
    · have hnext : ¬(c.toNat &&& 0x80 = 0x80) := by
        rw [and_80_iff, hc]
        exact Bool.false_ne_true
      rw [if_neg hnext, List.takeWhile_cons_of_neg (by simp [hc])]
      rfl
    · rw [List.length_cons] at hfuel
      rw [if_pos (and_80_iff.mpr hc), ih fuel (i + 1) (shiftIn n b.toNat) c hdrop' (by omega),
        List.takeWhile_cons_of_pos hc]
      rw [List.length_cons]
      congr 2
      omega

/-- The outer loop. -/
theorem parseArcs_eq : ∀ (fuel i : ℕ), i ≤ bytes.length → bytes.length < i + fuel →
    parseArcs bytes bytes.length fuel i = some (arcsOf (bytes.drop i)) := by
  intro fuel
  induction fuel with
  | zero =>
    intro i hi hfuel
    omega
  | succ fuel ih =>
    intro i hi hfuel
    rw [parseArcs]
    rcases hdrop : bytes.drop i with _ | ⟨b, l⟩
    · rw [if_neg (Nat.not_lt_of_le (List.drop_eq_nil_iff.mp hdrop)), arcsOf]
    · have hlen := congrArg List.length hdrop
      rw [List.length_drop, List.length_cons] at hlen
      rw [if_pos (by omega), parseArc_eq l _ i 0 b hdrop (by omega), Option.bind_eq_bind,
        Option.bind_some]
      dsimp only
      have htake := (List.takeWhile_prefix (p := continues) (l := l)).length_le
      have hrest : bytes.drop (i + 1 + (l.takeWhile continues).length) =
          l.dropWhile continues := by
        rw [← List.drop_drop, ← List.drop_drop, hdrop, List.drop_one, List.tail_cons]
        nth_rewrite 2 [← List.takeWhile_append_dropWhile (p := continues) (l := l)]
        rw [List.drop_left]
      rw [ih _ (by omega) (by omega), Option.bind_eq_bind, Option.bind_some, hrest, arcsOf]
      rfl

/-- **The decoder always comes to an end**, and reads nothing behind the buffer. -/
theorem vlGetAsnEncodedOidParseBuff_eq (bytes : List UInt8) :
    vlGetAsnEncodedOidParseBuff bytes bytes.length = some (match bytes with
      | [] => []
      | b :: l => if 40 ≤ b.toNat then b.toNat / 40 :: b.toNat % 40 :: arcsOf l
        else arcsOf (b :: l)) := by
  rw [vlGetAsnEncodedOidParseBuff]
  rcases bytes with _ | ⟨b, l⟩
  · rfl
  · rw [if_neg (by simp), octet_cons_zero, Option.bind_eq_bind, Option.bind_some]
    dsimp only
    split_ifs with hb
    · rw [parseArcs_eq _ 1 (by simp) (by omega), Option.bind_eq_bind, Option.bind_some, List.drop_one,
        List.tail_cons]
      rfl
    · rw [parseArcs_eq _ 0 (by omega) (by omega), List.drop_zero]

/-! ## The octets of an arc -/

theorem continued_of_pos {n : ℕ} (hn : n ≠ 0) :
    continued n = continued (n / 128) ++ [UInt8.ofNat (128 + n % 128)] := by
  rw [continued, if_neg hn]

theorem continues_of_mem_continued {n : ℕ} {b : UInt8} (hb : b ∈ continued n) :
    continues b = true := by
  induction n using continued.induct with
  | case1 => simp [continued] at hb
  | case2 n hn ih =>
    rw [continued_of_pos hn, List.mem_append, List.mem_singleton] at hb
    rcases hb with hb | rfl
    · exact ih hb
    · rw [continues, UInt8.toNat_ofNat', decide_eq_true_iff]
      omega

/-- As many octets follow as the number has digits. -/
theorem length_continued {n : ℕ} (hn : n ≠ 0) :
    n < 128 ^ (continued n).length ∧ 128 ^ (continued n).length ≤ 128 * n := by
  induction n using continued.induct with
  | case1 => exact absurd rfl hn
  | case2 n _ ih =>
    rw [continued_of_pos hn, List.length_append, List.length_singleton, pow_succ]
    rcases Nat.eq_zero_or_pos (n / 128) with hzero | hpos
    · rw [hzero, continued, if_pos rfl, List.length_nil, pow_zero]
      omega
    · omega

/-- What the decoder has after such octets. -/
theorem foldl_continued (v n : ℕ) (hv : v < 2 ^ 32) :
    (continued n).foldl (fun n b => shiftIn n b.toNat) v =
      (v * 128 ^ (continued n).length + n) % 2 ^ 32 := by
  induction n using continued.induct with
  | case1 =>
    rw [continued, if_pos rfl, List.foldl_nil, List.length_nil]
    omega
  | case2 n hn ih =>
    rw [continued_of_pos hn, List.foldl_append, ih, List.length_append, List.length_singleton,
      pow_succ _ (continued (n / 128)).length, ← mul_assoc]
    simp only [List.foldl_cons, List.foldl_nil, shiftIn_eq, UInt8.toNat_ofNat']
    generalize v * 128 ^ (continued (n / 128)).length = x
    omega

theorem not_continues_last (a : ℕ) : continues (UInt8.ofNat (a % 128)) = false := by
  rw [continues, UInt8.toNat_ofNat', decide_eq_false_iff_not]
  omega

theorem encodeArc_of_lt {a : ℕ} (ha : a < 128) : encodeArc a = [UInt8.ofNat a] := by
  rw [encodeArc, Nat.div_eq_of_lt ha, Nat.mod_eq_of_lt ha, continued, if_pos rfl, List.nil_append]

/-- Those of the first octets of an encoded arc that continue. -/
theorem takeWhile_encodeArc (a : ℕ) (l : List UInt8) :
    (encodeArc a ++ l).takeWhile continues = continued (a / 128) := by
  rw [encodeArc, List.append_assoc,
    List.takeWhile_append_of_pos fun b hb => continues_of_mem_continued hb, List.singleton_append,
    List.takeWhile_cons_of_neg (by simp [not_continues_last]), List.append_nil]

/-! ## Which object identifiers are decoded -/

/-- After an arc of one octet come the octets of the next one that have others behind them. -/
theorem arcsOf_cons_of_lt {a : ℕ} (ha : a < 128) (l : List UInt8) :
    arcsOf (UInt8.ofNat a :: l) = (l.takeWhile continues).foldl (fun n b => shiftIn n b.toNat) a ::
      arcsOf (l.dropWhile continues) := by
  rw [arcsOf, List.foldl_cons, shiftIn_eq, UInt8.toNat_ofNat']
  congr 2
  omega

/-- Arcs of one octet come out as they are. -/
theorem arcsOf_of_lt (arcs : List ℕ) (harcs : ∀ a ∈ arcs, a < 128) :
    arcsOf (arcs.flatMap encodeArc) = arcs := by
  induction arcs with
  | nil => rw [List.flatMap_nil, arcsOf]
  | cons a arcs ih =>
    have ha := harcs a List.mem_cons_self
    have hrest : (arcs.flatMap encodeArc).takeWhile continues = [] := by
      rcases arcs with _ | ⟨a', arcs⟩
      · rfl
      · have ha' := harcs a' (by simp)
        rw [List.flatMap_cons, takeWhile_encodeArc, Nat.div_eq_of_lt ha', continued, if_pos rfl]
    have hall := List.takeWhile_append_dropWhile (p := continues) (l := arcs.flatMap encodeArc)
    rw [hrest, List.nil_append] at hall
    rw [List.flatMap_cons, encodeArc_of_lt ha, List.singleton_append, arcsOf_cons_of_lt ha, hrest,
      hall, ih fun a h => harcs a (List.mem_cons_of_mem _ h)]
    rfl

/-- The first arc that comes out is not the first one encoded, when that takes several octets. -/
theorem head_of_le {a : ℕ} (hlt : a < 2 ^ 31) (ha : 128 ≤ a) (l : List UInt8) :
    (arcsOf (encodeArc a ++ l)).head? ≠ some a := by
  have hfirst := takeWhile_encodeArc a l
  have hlen := length_continued (n := a / 128) (by omega)
  rcases hbytes : encodeArc a ++ l with _ | ⟨b, rest⟩
  · simp [encodeArc] at hbytes
  · rw [hbytes] at hfirst
    have hb : continues b = true := by
      by_contra hb
      rw [List.takeWhile_cons_of_neg hb] at hfirst
      rw [← hfirst, List.length_nil] at hlen
      omega
    rw [List.takeWhile_cons_of_pos hb] at hfirst
    rw [arcsOf, hfirst, foldl_continued 0 _ (by omega), List.head?_cons, zero_mul, zero_add,
      Nat.mod_eq_of_lt (by omega)]
    intro h
    have := Option.some.inj h
    omega

/-- Nor is an arc of one octet the first one to come out, when the next takes several. -/
theorem head_of_lt_of_le {a a' : ℕ} (ha : a < 128) (hlt : a' < 2 ^ 31) (ha' : 128 ≤ a')
    (l : List UInt8) : (arcsOf (UInt8.ofNat a :: (encodeArc a' ++ l))).head? ≠ some a := by
  obtain ⟨hlow, hhigh⟩ := length_continued (n := a' / 128) (by omega)
  rw [arcsOf_cons_of_lt ha, takeWhile_encodeArc, foldl_continued _ _ (by omega), List.head?_cons]
  intro h
  have heq := Option.some.inj h
  have hlen : (continued (a' / 128)).length < 5 := by
    rw [← Nat.pow_lt_pow_iff_right (a := 128) (by omega)]
    omega
  generalize (continued (a' / 128)).length = k at *
  have hdvd : 128 ^ k ∣ 128 ^ 4 := pow_dvd_pow 128 (by omega)
  have hmod : a' / 128 % 128 ^ k = a % 128 ^ k := by
    rw [← Nat.mul_add_mod_self_right a (128 ^ k) (a' / 128),
      ← Nat.mod_mod_of_dvd _ (hdvd.trans (by norm_num : 128 ^ 4 ∣ 2 ^ 32)), heq]
  rcases Nat.lt_or_ge k 2 with hk | hk
  · obtain rfl | rfl : k = 0 ∨ k = 1 := by omega
    · omega
    · rw [Nat.mod_eq_of_lt (by omega)] at heq
      omega
  · have hpow : 128 ^ 2 ≤ 128 ^ k := Nat.pow_le_pow_right (by omega) hk
    rw [Nat.mod_eq_of_lt hlow, Nat.mod_eq_of_lt (by omega)] at hmod
    omega

/-- Arcs come out as they are only if each takes one octet. -/
theorem lt_of_arcsOf (arcs : List ℕ) (hlt : ∀ a ∈ arcs, a < 2 ^ 31)
    (heq : arcsOf (arcs.flatMap encodeArc) = arcs) : ∀ a ∈ arcs, a < 128 := by
  induction arcs with
  | nil => simp
  | cons a arcs ih =>
    rw [List.flatMap_cons] at heq
    have ha : a < 128 := by
      by_contra ha
      refine head_of_le (hlt a List.mem_cons_self) (by omega) (arcs.flatMap encodeArc) ?_
      rw [heq, List.head?_cons]
    rw [encodeArc_of_lt ha, List.singleton_append] at heq
    have hrest : ∀ a ∈ arcs, a < 2 ^ 31 := fun a h => hlt a (List.mem_cons_of_mem _ h)
    have hnext : (arcs.flatMap encodeArc).takeWhile continues = [] := by
      rcases arcs with _ | ⟨a', arcs⟩
      · rfl
      · rw [List.flatMap_cons, takeWhile_encodeArc]
        have ha' : a' < 128 := by
          by_contra ha'
          refine head_of_lt_of_le ha (hrest a' List.mem_cons_self) (by omega)
            (arcs.flatMap encodeArc) ?_
          rw [← List.flatMap_cons, heq, List.head?_cons]
        rw [Nat.div_eq_of_lt ha', continued, if_pos rfl]
    have hall := List.takeWhile_append_dropWhile (p := continues) (l := arcs.flatMap encodeArc)
    rw [hnext, List.nil_append] at hall
    rw [arcsOf_cons_of_lt ha, hall] at heq
    intro x hx
    rcases List.mem_cons.mp hx with rfl | hx
    · exact ha
    · exact ih hrest (List.cons.inj heq).2 x hx

/-- What is decoded of the encoding of an object identifier. -/
theorem decode_encode (oid : ObjectId) :
    vlGetAsnEncodedOidParseBuff oid.encode oid.encode.length =
      some (1 :: oid.second :: arcsOf (oid.arcs.flatMap encodeArc)) := by
  have hlt := oid.second_lt
  rw [vlGetAsnEncodedOidParseBuff_eq, encode]
  dsimp only
  rw [UInt8.toNat_ofNat', if_pos (by omega), Nat.mod_eq_of_lt (by omega)]
  congr 2
  · omega
  · congr 1
    omega

/-- **Object identifiers are decoded exactly when each arc takes one octet**; whatever the octets,
the decoder comes to an end and reads nothing behind them. -/
theorem decodes_iff (oid : ObjectId) :
    (vlGetAsnEncodedOidParseBuff oid.encode oid.encode.length =
        some (1 :: oid.second :: oid.arcs) ∧
      ∀ bytes, ∃ arcs, vlGetAsnEncodedOidParseBuff bytes bytes.length = some arcs) ↔
      ∀ a ∈ oid.arcs, a < 128 := by
  rw [decode_encode]
  constructor
  · rintro ⟨heq, _⟩
    have := Option.some.inj heq
    exact lt_of_arcsOf oid.arcs oid.arcs_lt (List.cons.inj (List.cons.inj this).2).2
  · intro harcs
    rw [arcsOf_of_lt oid.arcs harcs]
    exact ⟨rfl, fun bytes => ⟨_, vlGetAsnEncodedOidParseBuff_eq bytes⟩⟩

/-- `1.3.6.1.4.1.4491`, of a cable standard. -/
def enterprise : ObjectId where
  second := 3
  arcs := [6, 1, 4, 1, 4491]
  second_lt := by decide
  arcs_lt := by decide

/-- An enterprise number and the arc in front of it do not come out of their encoding. -/
theorem not_decodes_enterprise :
    ¬ ((vlGetAsnEncodedOidParseBuff enterprise.encode enterprise.encode.length =
        some (1 :: enterprise.second :: enterprise.arcs)) ∧
      ∀ bytes, ∃ arcs, vlGetAsnEncodedOidParseBuff bytes bytes.length = some arcs) := by
  rintro ⟨heq, _⟩
  rw [decode_encode] at heq
  have := List.cons.inj (List.cons.inj (Option.some.inj heq)).2
  have harcs := lt_of_arcsOf enterprise.arcs enterprise.arcs_lt this.2 4491 (by decide)
  omega

end AsnOid

end MediaFramework
