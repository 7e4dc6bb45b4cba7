import MediaFramework.Lib.BitNumber
import MediaFramework.Lib.Crc

/-!
# Errors in adjacent bits

The bits of a message, taken as one number, have a remainder by the polynomial, and that of the
difference of two messages is the difference of their remainders (`remainder_xor`). A difference of
at most 32 adjacent bits is a number below 2^32 that is shifted, and nothing but zero is shifted to
zero: so it has a remainder (`IsBurst.remainder_ne_zero`).

Behind the message there are 32 bits more, which are to be its check. Of a burst that crosses the
border, the part before the border is smaller than the part behind it (`IsBurst.div_lt_mod`), and
its remainder is that part as it stands. So which bursts are not noticed depends on how the 32 bits
are read as a number: `IsBurst.remainder_div_eq_iff`.
-/

namespace MediaFramework.Crc

variable (p : BitVec 32)

/-- The remainder of a number whose bits are the coefficients. -/
def remainder (n : ℕ) : BitVec 32 :=
  if n = 0 then 0#32 else shiftOne p (remainder (n / 2)) ^^^ BitVec.ofNat 32 (n % 2)

/-- The check of a message: the complement of the remainder, of the message with its first 32 bits
complemented. -/
def check (bytes : List UInt8) : BitVec 32 :=
  ~~~remainder p (ofOctets bytes ^^^ (2 ^ 32 - 1) * 2 ^ (8 * (bytes.length - 4)))

/-- Some bits are not 0, and all of these are among `w` adjacent ones. -/
def IsBurst (w e : ℕ) : Prop := ∃ m k, 0 < m ∧ m < 2 ^ w ∧ e = m * 2 ^ k

variable {p}

@[simp] theorem shiftOne_zero : shiftOne p 0#32 = 0#32 := by simp [shiftOne]

@[simp] theorem shift_zero (n : ℕ) : shift p n 0#32 = 0#32 := by
  induction n with
  | zero => rfl
  | succ n ih => rw [shift, shiftOne_zero, ih]

@[simp] theorem remainder_zero : remainder p 0 = 0#32 := by rw [remainder, if_pos rfl]

/-- One bit more. -/
theorem remainder_eq (n : ℕ) :
    remainder p n = shiftOne p (remainder p (n / 2)) ^^^ BitVec.ofNat 32 (n % 2) := by
  by_cases hn : n = 0
  · simp [hn]
  · rw [remainder, if_neg hn]

theorem remainder_xor (a b : ℕ) : remainder p (a ^^^ b) = remainder p a ^^^ remainder p b := by
  induction a using Nat.strong_induction_on generalizing b with
  | _ a ih =>
    rcases Nat.eq_zero_or_pos a with rfl | ha
    · simp
    · have hhalf := ih (a / 2) (Nat.div_lt_self ha (by decide)) (b / 2)
      have hmod : (a ^^^ b) % 2 = a % 2 ^^^ b % 2 := Nat.xor_mod_two_pow (n := 1)
      rw [remainder_eq (a ^^^ b), remainder_eq a, remainder_eq b, Nat.xor_div_two, hhalf, hmod,
        shiftOne_xor, BitVec.ofNat_xor]
      ac_rfl

theorem mul_two_xor (r : ℕ) : r / 2 * 2 ^ 1 ^^^ r % 2 = r := by
  have hdiv : (r / 2 * 2 ^ 1 ^^^ r % 2) / 2 = r / 2 := by
    rw [Nat.xor_div_two, Nat.div_eq_of_lt (Nat.mod_lt r (by decide)), Nat.xor_zero]
    omega
  have hmod : (r / 2 * 2 ^ 1 ^^^ r % 2) % 2 = r % 2 := by
    rw [Nat.xor_mod_two_eq]
    omega
  omega

/-- Some bits more. -/
theorem remainder_append (n : ℕ) {k r : ℕ} (hr : r < 2 ^ k) (hk : k ≤ 32) :
    remainder p (n * 2 ^ k + r) = shift p k (remainder p n) ^^^ BitVec.ofNat 32 r := by
  induction k generalizing r with
  | zero =>
    obtain rfl : r = 0 := by omega
    simp [shift]
  | succ k ih =>
    have hpow : 2 ^ (k + 1) = 2 * 2 ^ k := Nat.pow_succ'
    have hhalf : (n * 2 ^ (k + 1) + r) / 2 = n * 2 ^ k + r / 2 := by
      rw [hpow, Nat.mul_left_comm]
      omega
    have hmod : (n * 2 ^ (k + 1) + r) % 2 = r % 2 := by
      rw [hpow, Nat.mul_left_comm]
      omega
    have hlt : r < 2 ^ 32 := Nat.lt_of_lt_of_le hr (Nat.pow_le_pow_right (by decide) hk)
    have hlow : shiftOne p (BitVec.ofNat 32 (r / 2)) ^^^ BitVec.ofNat 32 (r % 2) =
        BitVec.ofNat 32 r := by
      have hshift : shiftOne p (BitVec.ofNat 32 (r / 2)) = BitVec.ofNat 32 (r / 2) <<< 1 := by
        refine shift_eq_shiftLeft (n := 1) ?_ (by decide)
        rw [BitVec.toNat_ofNat]
        omega
      rw [hshift]
      refine BitVec.eq_of_toNat_eq ?_
      have hr : r % 2 ^ 32 = r := Nat.mod_eq_of_lt hlt
      have hhalf : r / 2 % 2 ^ 32 = r / 2 := Nat.mod_eq_of_lt (by omega)
      have hbit : r % 2 % 2 ^ 32 = r % 2 := Nat.mod_eq_of_lt (by omega)
      have hdouble : r / 2 * 2 ^ 1 % 2 ^ 32 = r / 2 * 2 ^ 1 := Nat.mod_eq_of_lt (by omega)
      rw [BitVec.toNat_xor, BitVec.toNat_shiftLeft, BitVec.toNat_ofNat, BitVec.toNat_ofNat,
        BitVec.toNat_ofNat, hhalf, hbit, hr, Nat.shiftLeft_eq, hdouble]
      exact mul_two_xor r
    rw [remainder_eq, hhalf, hmod, ih (by omega) (by omega), shiftOne_xor, shift_add,
      BitVec.xor_assoc, hlow]
    rfl

/-- A number that fits is its own remainder. -/
theorem remainder_of_lt {n : ℕ} (hn : n < 2 ^ 32) : remainder p n = BitVec.ofNat 32 n := by
  have happend := remainder_append (p := p) 0 hn (Nat.le_refl 32)
  rwa [Nat.zero_mul, Nat.zero_add, remainder_zero, shift_zero, BitVec.zero_xor] at happend

theorem remainder_mul (m k : ℕ) : remainder p (m * 2 ^ k) = shift p k (remainder p m) := by
  induction k with
  | zero => simp [shift]
  | succ k ih =>
    have happend := remainder_append (p := p) (m * 2 ^ k) (k := 1) (r := 0) (by decide) (by decide)
    rw [Nat.add_zero, Nat.mul_assoc, ← Nat.pow_add, ih, BitVec.xor_zero, ← shift_add] at happend
    exact happend

/-- A register into which bytes are taken at its lower end. -/
theorem foldl_shift (x : BitVec 32) (bytes : List UInt8) :
    bytes.foldl (fun x b => shift p 8 x ^^^ low b) x =
      shift p (8 * bytes.length) x ^^^ remainder p (ofOctets bytes) := by
  induction bytes using List.reverseRecOn with
  | nil => simp [shift, ofOctets]
  | append_singleton bytes b ih =>
    have hbyte : remainder p (ofOctets bytes * 256 + b.toNat) =
        shift p 8 (remainder p (ofOctets bytes)) ^^^ low b :=
      remainder_append (k := 8) _ b.toNat_lt (by decide)
    rw [List.foldl_concat, ih, shift_xor, ← shift_add, ofOctets_concat, hbyte, List.length_append,
      List.length_singleton, Nat.mul_add, BitVec.xor_assoc]

theorem remainder_ofOctets_append (xs ys : List UInt8) : remainder p (ofOctets (xs ++ ys)) =
    shift p (8 * ys.length) (remainder p (ofOctets xs)) ^^^ remainder p (ofOctets ys) := by
  have hall := foldl_shift (p := p) 0#32 (xs ++ ys)
  rw [List.foldl_append, foldl_shift, foldl_shift] at hall
  simpa using hall.symm

/-- The register behind a message: it is shifted by 32 bits more than the message is long. -/
theorem crc_eq (x : BitVec 32) (bytes : List UInt8) : crc p x bytes =
    shift p (8 * bytes.length) x ^^^ shift p 32 (remainder p (ofOctets bytes)) := by
  have hlow : ∀ b : UInt8, shift p 32 (low b) = shift p 8 (low b <<< 24) := by
    intro b
    have hbyte := shift_low (p := p) (n := 24) (k := 0) rfl b
    rw [BitVec.shiftLeft_zero] at hbyte
    rw [shift_add 24 8, hbyte]
  rw [crc]
  induction bytes using List.reverseRecOn with
  | nil => simp [shift, ofOctets]
  | append_singleton bytes b ih =>
    have hshift : shift p 8 (shift p 32 (remainder p (ofOctets bytes))) =
        shift p 32 (shift p 8 (remainder p (ofOctets bytes))) := by rw [← shift_add, ← shift_add]
    have hone : remainder p (ofOctets [b]) = low b := by
      rw [ofOctets_singleton, remainder_of_lt (b.toNat_lt.trans (by decide)), low]
    rw [List.foldl_concat, ih, crcByte, remainder_ofOctets_append, hone, shift_xor, shift_xor,
      shift_xor 32, hshift, hlow, ← shift_add, List.length_append, List.length_singleton,
      Nat.mul_add, BitVec.xor_assoc]

/-- What the complement of the first 32 bits comes to. -/
theorem check_eq {bytes : List UInt8} : check p bytes = ~~~(remainder p (ofOctets bytes) ^^^
    shift p (8 * (bytes.length - 4)) (BitVec.allOnes 32)) := by
  have hones : remainder p (2 ^ 32 - 1) = BitVec.allOnes 32 := remainder_of_lt (by decide)
  rw [check, remainder_xor, remainder_mul, hones]

/-- **The difference of two checks** of messages as long. -/
theorem check_xor_check {xs ys : List UInt8} (hlen : xs.length = ys.length) :
    check p xs ^^^ check p ys = remainder p (ofOctets xs ^^^ ofOctets ys) := by
  have hnot : ∀ x y : BitVec 32, ~~~x ^^^ ~~~y = x ^^^ y := by
    intro x y
    rw [← BitVec.xor_allOnes, ← BitVec.xor_allOnes, xor_cancel]
  rw [check_eq, check_eq, hnot, hlen, xor_cancel, remainder_xor]

/-! ## Bursts -/

/-- The difference of two messages, in two parts. -/
theorem ofOctets_xor_append {xs ys zs ws : List UInt8} (hlen : zs.length = ws.length) :
    ofOctets (xs ++ zs) ^^^ ofOctets (ys ++ ws) =
      (ofOctets xs ^^^ ofOctets ys) * 2 ^ (8 * zs.length) + (ofOctets zs ^^^ ofOctets ws) := by
  have hlt : ∀ l : List UInt8, l.length = zs.length → ofOctets l < 2 ^ (8 * zs.length) := by
    intro l hl
    rw [Nat.pow_mul, ← hl]
    exact ofOctets_lt l
  have hparts : ∀ a l : List UInt8, l.length = zs.length →
      ofOctets (a ++ l) / 2 ^ (8 * zs.length) = ofOctets a ∧
        ofOctets (a ++ l) % 2 ^ (8 * zs.length) = ofOctets l := by
    intro a l hl
    rw [ofOctets_append, hl, Nat.mul_comm]
    exact ⟨by rw [Nat.mul_add_div (Nat.two_pow_pos _), Nat.div_eq_of_lt (hlt l hl), Nat.add_zero],
      by rw [Nat.mul_add_mod, Nat.mod_eq_of_lt (hlt l hl)]⟩
  obtain ⟨hxs, hzs⟩ := hparts xs zs rfl
  obtain ⟨hys, hws⟩ := hparts ys ws hlen.symm
  have hdivmod := Nat.div_add_mod' (ofOctets (xs ++ zs) ^^^ ofOctets (ys ++ ws))
    (2 ^ (8 * zs.length))
  rwa [Nat.xor_div_two_pow, Nat.xor_mod_two_pow, hxs, hzs, hys, hws, eq_comm] at hdivmod

/-- **A burst has a remainder.** -/
theorem IsBurst.remainder_ne_zero (hp : p.getLsbD 0 = true) {e : ℕ} (h : IsBurst 32 e) :
    remainder p e ≠ 0#32 := by
  obtain ⟨m, k, hpos, hlt, rfl⟩ := h
  intro hzero
  rw [remainder_mul, shift_eq_zero_iff hp, remainder_of_lt hlt] at hzero
  have hnat := congrArg BitVec.toNat hzero
  rw [BitVec.toNat_ofNat, BitVec.toNat_ofNat, Nat.mod_eq_of_lt hlt] at hnat
  omega

/-- A burst before the border. -/
theorem IsBurst.div {w e : ℕ} (h : IsBurst w e) (hmod : e % 2 ^ w = 0) : IsBurst w (e / 2 ^ w) := by
  obtain ⟨m, k, hpos, hlt, rfl⟩ := h
  have hw := Nat.two_pow_pos w
  rcases Nat.le_total w k with hle | hle
  · refine ⟨m, k - w, hpos, hlt, ?_⟩
    rw [Nat.mul_div_assoc _ (Nat.pow_dvd_pow 2 hle), Nat.pow_div hle (by decide)]
  · refine ⟨m * 2 ^ k / 2 ^ w, 0, ?_, ?_, by simp⟩
    · have hdvd := Nat.dvd_of_mod_eq_zero hmod
      exact Nat.div_pos (Nat.le_of_dvd (Nat.mul_pos hpos (Nat.two_pow_pos k)) hdvd) hw
    · rw [Nat.div_lt_iff_lt_mul hw]
      exact Nat.mul_lt_mul_of_lt_of_le hlt (Nat.pow_le_pow_right (by decide) hle) hw

/-- **A burst that crosses the border** is less before it than behind it. -/
theorem IsBurst.div_lt_mod {w e : ℕ} (h : IsBurst w e) (hmod : e % 2 ^ w ≠ 0) :
    e / 2 ^ w < e % 2 ^ w := by
  obtain ⟨m, k, hpos, hlt, rfl⟩ := h
  have hkw : k < w := by
    by_contra hge
    exact hmod (Nat.mod_eq_zero_of_dvd ((Nat.pow_dvd_pow 2 (Nat.le_of_not_lt hge)).mul_left m))
  have hbefore : m * 2 ^ k / 2 ^ w < 2 ^ k := by
    rw [Nat.div_lt_iff_lt_mul (Nat.two_pow_pos w), Nat.mul_comm]
    exact Nat.mul_lt_mul_of_pos_left hlt (Nat.two_pow_pos k)
  have hdvd : 2 ^ k ∣ m * 2 ^ k % 2 ^ w :=
    (Nat.dvd_mod_iff (Nat.pow_dvd_pow 2 hkw.le)).mpr (Nat.dvd_mul_left _ m)
  exact Nat.lt_of_lt_of_le hbefore (Nat.le_of_dvd (Nat.pos_of_ne_zero hmod) hdvd)

/-- **Which bursts are not noticed.** The 32 bits behind the border are read as a number of some
kind, of which `f` is the difference: it is the remainder just if the burst crosses the border and
is that number before it. -/
theorem IsBurst.remainder_div_eq_iff (hp : p.getLsbD 0 = true) {e f : ℕ} (h : IsBurst 32 e)
    (hf : f < 2 ^ 32) (hzero : f = 0 ↔ e % 2 ^ 32 = 0) :
    remainder p (e / 2 ^ 32) = BitVec.ofNat 32 f ↔ e % 2 ^ 32 ≠ 0 ∧ e / 2 ^ 32 = f := by
  by_cases hmod : e % 2 ^ 32 = 0
  · refine iff_of_false ?_ fun hcross => hcross.1 hmod
    rw [hzero.mpr hmod]
    exact (h.div hmod).remainder_ne_zero hp
  · have hlt : e / 2 ^ 32 < 2 ^ 32 :=
      Nat.lt_trans (h.div_lt_mod hmod) (Nat.mod_lt e (Nat.two_pow_pos 32))
    rw [remainder_of_lt hlt, and_iff_right hmod]
    refine ⟨fun heq => ?_, fun heq => by rw [heq]⟩
    have hnat := congrArg BitVec.toNat heq
    rwa [BitVec.toNat_ofNat, BitVec.toNat_ofNat, Nat.mod_eq_of_lt hlt, Nat.mod_eq_of_lt hf] at hnat

end MediaFramework.Crc
