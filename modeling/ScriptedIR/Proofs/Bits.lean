import Mathlib.Algebra.Group.Nat.Defs
import ScriptedIR.Run.Arith

/-!
Integers as bit vectors. A word of the machine is read as the vector of its low bits, and a vector is
kept as one word, its normal form. Operations on words at a width are operations on these vectors, and
so are comparisons and changes of the width; no bits above the width have a part in them.
-/

namespace ScriptedIR

theorem setWidth_ofInt {m n : Nat} (h : m ≤ n) (z : Int) :
    (BitVec.ofInt n z).setWidth m = BitVec.ofInt m z := by
  rw [← BitVec.signExtend_eq_setWidth_of_le _ h]
  apply BitVec.eq_of_toInt_eq
  rw [BitVec.toInt_signExtend, BitVec.toInt_ofInt, BitVec.toInt_ofInt, Nat.min_eq_left h,
    Int.bmod_bmod_of_dvd (Nat.pow_dvd_pow 2 h)]

theorem sshiftRight_of_le {width : Nat} {x : BitVec width} {k : Nat} (h : width ≤ k) :
    x.sshiftRight k = if x.msb then .allOnes width else .ofNat width 0 := by
  ext i hi
  have hfar : ¬ k + i < width := by omega
  rw [BitVec.getElem_sshiftRight, dif_neg hfar]
  cases x.msb <;> simp

namespace Word

def low (width : Nat) (v : Int64) : BitVec width := v.toBitVec.setWidth width

/--
The word that stands for bits: the number that they are in two's complement, but 0 or 1 for a single
bit.
-/
def ofBits {width : Nat} (x : BitVec width) : Int64 :=
  .ofInt (if width = 1 then x.toNat else x.toInt)

variable {width : Nat}

theorem toNat_mask (h : width < 64) :
    ((1 : UInt64) <<< UInt64.ofNat width - 1).toNat = 2 ^ width - 1 := by
  have hpow : 2 ^ width < 2 ^ 64 := Nat.pow_lt_pow_right (by omega) h
  have hwidth : (UInt64.ofNat width).toNat % 64 = width := by
    rw [UInt64.toNat_ofNat']
    omega
  have hshift : ((1 : UInt64) <<< UInt64.ofNat width).toNat = 2 ^ width := by
    rw [UInt64.toNat_shiftLeft, hwidth, Nat.shiftLeft_eq, UInt64.toNat_one, Nat.one_mul,
      Nat.mod_eq_of_lt hpow]
  have hone : (1 : UInt64) ≤ 1 <<< UInt64.ofNat width := by
    rw [UInt64.le_iff_toNat_le, hshift]
    exact Nat.one_le_two_pow
  rw [UInt64.toNat_sub_of_le _ _ hone, hshift]
  rfl

theorem toNat_unsigned (width : Nat) (v : Int64) : (unsigned width v).toNat = (low width v).toNat := by
  unfold unsigned low
  rw [BitVec.toNat_setWidth]
  split
  . next h =>
    have hlt : v.toBitVec.toNat < 2 ^ width :=
      Nat.lt_of_lt_of_le v.toBitVec.isLt (Nat.pow_le_pow_right (by omega) h)
    rw [Nat.mod_eq_of_lt hlt]
    rfl
  . next h =>
    rw [UInt64.toNat_and, toNat_mask (by omega), Nat.and_two_pow_sub_one_eq_mod]
    rfl

theorem toNat_smod {amount : Nat} (h : amount < 64) :
    ((BitVec.ofNat 64 amount).smod 64).toNat = amount := by
  have hall : ∀ k < 64, ((BitVec.ofNat 64 k).smod 64).toNat = k := by decide
  exact hall amount h

theorem sshiftRight_shiftLeft (x : BitVec 64) (h : width < 64) (hpos : width ≠ 0) :
    (x <<< (64 - width)).sshiftRight (64 - width) = (x.setWidth width).signExtend 64 := by
  ext i hi
  simp only [BitVec.getElem_sshiftRight, BitVec.getElem_shiftLeft, BitVec.getElem_signExtend,
    BitVec.msb_shiftLeft]
  by_cases hlow : i < width
  . have hback : 64 - width + i < 64 := by omega
    simp [hlow, hback, BitVec.getLsbD_eq_getElem hi]
  . have hback : ¬ 64 - width + i < 64 := by omega
    have hlast : 63 - (64 - width) = width - 1 := by omega
    have hlt : 64 - width < 64 := by omega
    have htop : width - 1 < width := by omega
    simp [hlow, hback, hlast, hlt, htop, BitVec.msb_eq_getLsbD_last, BitVec.getMsbD]

theorem toBitVec_normalize (hone : width ≠ 1) (v : Int64) :
    (normalize width v).toBitVec = (low width v).signExtend 64 := by
  unfold normalize low
  split
  . next hzero =>
    subst hzero
    rw [BitVec.eq_nil (v.toBitVec.setWidth 0)]
    rfl
  . next hzero =>
    split
    . next hwide =>
      rw [BitVec.signExtend_eq_setWidth_of_le _ hwide, BitVec.setWidth_setWidth_of_le _ hwide,
        BitVec.setWidth_eq]
    . next hwide =>
      have hamount : 64 - width < 64 := by omega
      dsimp only
      rw [Int64.toBitVec_shiftRight, Int64.toBitVec_shiftLeft, BitVec.sshiftRight_eq',
        BitVec.shiftLeft_eq', Int64.toBitVec_ofNat', toNat_smod hamount,
        sshiftRight_shiftLeft _ (by omega) hzero]

theorem and_one_cases (v : Int64) :
    v &&& 1 = 0 ∧ low 1 v = 0 ∨ v &&& 1 = 1 ∧ low 1 v = 1 := by
  have hand : (v &&& 1).toBitVec = (low 1 v).setWidth 64 := by
    apply BitVec.eq_of_toNat_eq
    have hbit : v.toBitVec.toNat % 2 < 2 ^ 64 := by omega
    rw [Int64.toBitVec_and, BitVec.toNat_and, low, BitVec.toNat_setWidth, BitVec.toNat_setWidth,
      Nat.pow_one, Nat.mod_eq_of_lt hbit]
    exact Nat.and_one_is_mod _
  rcases BitVec.eq_zero_or_eq_one (low 1 v) with h | h
  . refine .inl ⟨Int64.toBitVec.inj ?_, h⟩
    rw [hand, h]
    rfl
  . refine .inr ⟨Int64.toBitVec.inj ?_, h⟩
    rw [hand, h]
    rfl

theorem normalize_eq_ofBits (width : Nat) (v : Int64) : normalize width v = ofBits (low width v) := by
  by_cases hone : width = 1
  . subst hone
    change v &&& 1 = _
    rcases and_one_cases v with ⟨hand, hlow⟩ | ⟨hand, hlow⟩
    . rw [hand, hlow]
      rfl
    . rw [hand, hlow]
      rfl
  . apply Int64.toBitVec.inj
    rw [toBitVec_normalize hone, ofBits, if_neg hone, Int64.toBitVec_ofInt]
    rfl

theorem toInt_signed (h : width ≤ 64) (v : Int64) : (signed width v).toInt = (low width v).toInt := by
  unfold signed
  split
  . next hone =>
    subst hone
    rcases and_one_cases v with ⟨hand, hlow⟩ | ⟨hand, hlow⟩
    . rw [hand, hlow]
      rfl
    . rw [hand, hlow]
      rfl
  . next hone =>
    rw [← Int64.toInt_toBitVec, toBitVec_normalize hone, BitVec.toInt_signExtend_of_le h]

theorem low_toInt64 (width : Nat) (u : UInt64) : low width u.toInt64 = .ofNat width u.toNat := by
  unfold low
  rw [UInt64.toBitVec_toInt64]
  exact (BitVec.ofNat_toNat _ _).symm

theorem signed_eq_zero_iff (h : width ≤ 64) {v : Int64} :
    signed width v = 0 ↔ low width v = .ofNat width 0 := by
  rw [← Int64.toInt_inj, toInt_signed h, ← BitVec.toInt_inj, Int64.toInt_zero, BitVec.toInt_zero]

theorem unsigned_eq_zero_iff {v : Int64} : unsigned width v = 0 ↔ low width v = .ofNat width 0 := by
  rw [← UInt64.toNat_inj, toNat_unsigned, ← BitVec.toNat_inj]
  rfl

theorem signed_neg_iff (h : width ≤ 64) {v : Int64} : signed width v < 0 ↔ (low width v).msb := by
  rw [Int64.lt_iff_toInt_lt, toInt_signed h, Int64.toInt_zero, BitVec.msb_eq_toInt, decide_eq_true_iff]

theorem ofBits_zero : ofBits (BitVec.ofNat width 0) = 0 := by
  unfold ofBits
  split <;> simp

theorem low_zero : low width 0 = .ofNat width 0 := by
  simp [low]

section Low

variable (h : width ≤ 64)

include h

theorem low_ofInt (z : Int) : low width (.ofInt z) = .ofInt width z := by
  unfold low
  rw [Int64.toBitVec_ofInt, setWidth_ofInt h]

theorem low_eq_ofInt (v : Int64) : low width v = .ofInt width v.toInt := by
  rw [← low_ofInt h, Int64.ofInt_toInt]

theorem low_ofBits (x : BitVec width) : low width (ofBits x) = x := by
  unfold ofBits
  rw [low_ofInt h]
  split
  . rw [BitVec.ofInt_natCast, BitVec.ofNat_toNat, BitVec.setWidth_eq]
  . exact BitVec.ofInt_toInt

theorem low_neg_one : low width (-1) = .allOnes width := by
  rw [← BitVec.neg_one_eq_allOnes]
  exact (low_ofInt h (-1)).trans BitVec.neg_ofNat_eq_ofInt_neg.symm

theorem low_add (a b : Int64) : low width (a + b) = low width a + low width b :=
  BitVec.setWidth_add _ _ h

theorem low_sub (a b : Int64) : low width (a - b) = low width a - low width b := by
  unfold low
  rw [Int64.toBitVec_sub, BitVec.sub_eq_add_neg, BitVec.setWidth_add _ _ h,
    BitVec.setWidth_neg_of_le h, ← BitVec.sub_eq_add_neg]

theorem low_mul (a b : Int64) : low width (a * b) = low width a * low width b :=
  BitVec.setWidth_mul _ _ h

theorem low_sdiv (a b : Int64) :
    low width (signed width a / signed width b) = (low width a).sdiv (low width b) := by
  apply BitVec.eq_of_toInt_eq
  rw [low_eq_ofInt h, BitVec.toInt_ofInt, Int64.toInt_div, toInt_signed h, toInt_signed h,
    Int.bmod_bmod_of_dvd (Nat.pow_dvd_pow 2 h), BitVec.toInt_sdiv]

theorem low_srem (a b : Int64) :
    low width (signed width a % signed width b) = (low width a).srem (low width b) := by
  rw [low_eq_ofInt h, Int64.toInt_mod, toInt_signed h, toInt_signed h, ← BitVec.toInt_srem,
    BitVec.ofInt_toInt]

omit h in
theorem low_udiv (a b : Int64) :
    low width (unsigned width a / unsigned width b).toInt64 = low width a / low width b := by
  rw [low_toInt64, UInt64.toNat_div, toNat_unsigned, toNat_unsigned, BitVec.udiv_def]

omit h in
theorem low_urem (a b : Int64) :
    low width (unsigned width a % unsigned width b).toInt64 = low width a % low width b := by
  rw [low_toInt64, UInt64.toNat_mod, toNat_unsigned, toNat_unsigned, BitVec.umod_def]

theorem toNat_amount {b : Int64} (hb : (low width b).toNat < width) :
    ((unsigned width b).toInt64.toBitVec.smod 64).toNat = (low width b).toNat := by
  have hbits : (unsigned width b).toBitVec = .ofNat 64 (low width b).toNat := by
    apply BitVec.eq_of_toNat_eq
    rw [BitVec.toNat_ofNat, Nat.mod_eq_of_lt (by omega)]
    exact toNat_unsigned width b
  rw [UInt64.toBitVec_toInt64, hbits, toNat_smod (Nat.lt_of_lt_of_le hb h)]

theorem low_shl (a b : Int64) :
    low width (if width ≤ (unsigned width b).toNat then 0 else a <<< (unsigned width b).toInt64) =
      low width a <<< (low width b).toNat := by
  rw [toNat_unsigned]
  split
  . next hfar => rw [low_zero, BitVec.shiftLeft_eq_zero hfar]
  . next hnear =>
    have hamount := toNat_amount h (Nat.lt_of_not_le hnear)
    unfold low at *
    rw [Int64.toBitVec_shiftLeft, BitVec.shiftLeft_eq', hamount, BitVec.setWidth_shiftLeft_of_le h]

theorem low_lshr (a b : Int64) :
    low width (if width ≤ (unsigned width b).toNat then 0
        else (unsigned width a >>> unsigned width b).toInt64) =
      low width a >>> (low width b).toNat := by
  rw [toNat_unsigned]
  split
  . next hfar => rw [low_zero, BitVec.ushiftRight_eq_zero hfar]
  . next hnear =>
    have hamount : (low width b).toNat % 64 = (low width b).toNat := Nat.mod_eq_of_lt (by omega)
    rw [low_toInt64, UInt64.toNat_shiftRight, toNat_unsigned, toNat_unsigned, hamount,
      ← BitVec.toNat_ushiftRight, BitVec.ofNat_toNat, BitVec.setWidth_eq]

theorem low_ashr (a b : Int64) :
    low width (if width ≤ (unsigned width b).toNat then (if signed width a < 0 then -1 else 0)
        else signed width a >>> (unsigned width b).toInt64) =
      (low width a).sshiftRight (low width b).toNat := by
  rw [toNat_unsigned]
  split
  . next hfar =>
    simp only [signed_neg_iff h, sshiftRight_of_le hfar]
    split
    . exact low_neg_one h
    . exact low_zero
  . next hnear =>
    rw [low_eq_ofInt h, ← Int64.toInt_toBitVec, Int64.toBitVec_shiftRight,
      BitVec.toInt_sshiftRight', toNat_amount h (Nat.lt_of_not_le hnear), Int64.toInt_toBitVec,
      toInt_signed h, ← BitVec.toInt_sshiftRight, BitVec.ofInt_toInt]

end Low

theorem normalize_normalize (width : Nat) (v : Int64) :
    normalize width (normalize width v) = normalize width v := by
  by_cases h : width ≤ 64
  . rw [normalize_eq_ofBits, normalize_eq_ofBits, low_ofBits h]
  . have hwide (u : Int64) : normalize width u = u := by
      unfold normalize
      rw [if_neg (by omega), if_neg (by omega), if_pos (by omega)]
    rw [hwide, hwide]

theorem normalize_toInt64 (v : Int32) : normalize 32 v.toInt64 = v.toInt64 := by
  have hlow : low 32 v.toInt64 = v.toBitVec := by
    rw [low_eq_ofInt (by omega), Int32.toInt_toInt64, BitVec.ofInt_int32ToInt]
  rw [normalize_eq_ofBits, hlow, ofBits, if_neg (by omega), Int32.toInt_toBitVec]
  rfl

end Word

/--
What an integer operation does to bit vectors. The amount of a shift is an unsigned number. Operations
on floats give nothing of use.
-/
def BinaryOp.onBits {width : Nat} (op : BinaryOp) (x y : BitVec width) : BitVec width :=
  match op with
  | add => x + y
  | sub => x - y
  | mul => x * y
  | sdiv => x.sdiv y
  | srem => x.srem y
  | udiv => x / y
  | urem => x % y
  | and => x &&& y
  | or => x ||| y
  | xor => x ^^^ y
  | shl => x <<< y.toNat
  | lshr => x >>> y.toNat
  | ashr => x.sshiftRight y.toNat
  | fadd | fsub | fmul | fdiv | frem => .ofNat width 0

def IntPredicate.onBits {width : Nat} (p : IntPredicate) (x y : BitVec width) : Bool :=
  match p with
  | eq => x = y
  | ne => x ≠ y
  | ugt => y.ult x
  | uge => y.ule x
  | ult => x.ult y
  | ule => x.ule y
  | sgt => y.slt x
  | sge => y.sle x
  | slt => x.slt y
  | sle => x.sle y

def CastOp.onBits {m : Nat} (op : CastOp) (n : Nat) (x : BitVec m) : BitVec n :=
  match op with
  | trunc => x.truncate n
  | zext => x.zeroExtend n
  | sext => x.signExtend n
  | _ => .ofNat n 0

section Integers

open Word

variable {width : Nat} (h : width ≤ 64) (a b : Int64)

include h

theorem intBinary_eq (function : String) (op : BinaryOp) :
    intBinary function op width a b =
      if op.isFloat then .error (.typeError (.notAnInteger op))
      else if op.isDivision ∧ low width b = .ofNat width 0 then .error (.divisionByZero function)
      else .ok (ofBits (op.onBits (low width a) (low width b))) := by
  have hnormal {v : Int64} {x : BitVec width} (hv : low width v = x) :
      (.ok (normalize width v) : Except RunError Int64) = .ok (ofBits x) := by
    rw [normalize_eq_ofBits, hv]
  unfold intBinary
  dsimp only
  -- a lemma for each operation says that its low bits come from the low bits of the words alone
  cases op with
  | fadd | fsub | fmul | fdiv | frem => rfl
  | add => exact hnormal (low_add h a b)
  | sub => exact hnormal (low_sub h a b)
  | mul => exact hnormal (low_mul h a b)
  | and => exact hnormal BitVec.setWidth_and
  | or => exact hnormal BitVec.setWidth_or
  | xor => exact hnormal BitVec.setWidth_xor
  | sdiv =>
    simp only [signed_eq_zero_iff h, hnormal (low_sdiv h a b), BinaryOp.isDivision, true_and]
    rfl
  | srem =>
    simp only [signed_eq_zero_iff h, hnormal (low_srem h a b), BinaryOp.isDivision, true_and]
    rfl
  | udiv =>
    simp only [unsigned_eq_zero_iff, hnormal (low_udiv a b), BinaryOp.isDivision, true_and]
    rfl
  | urem =>
    simp only [unsigned_eq_zero_iff, hnormal (low_urem a b), BinaryOp.isDivision, true_and]
    rfl
  | shl =>
    simp only [decide_eq_true_eq]
    exact hnormal (low_shl h a b)
  | lshr =>
    simp only [decide_eq_true_eq]
    exact hnormal (low_lshr h a b)
  | ashr =>
    simp only [decide_eq_true_eq]
    exact hnormal (low_ashr h a b)

theorem intBinary_ok (function : String) {op : BinaryOp} (hfloat : op.isFloat = false)
    (hdivisor : op.isDivision → low width b ≠ .ofNat width 0) :
    intBinary function op width a b = .ok (ofBits (op.onBits (low width a) (low width b))) := by
  have hzero : ¬ (op.isDivision ∧ low width b = .ofNat width 0) := fun hzero => hdivisor hzero.1 hzero.2
  rw [intBinary_eq h, hfloat, if_neg hzero]
  rfl

theorem compareInts_eq (p : IntPredicate) :
    compareInts p width a b = p.onBits (low width a) (low width b) := by
  have heq : unsigned width a = unsigned width b ↔ low width a = low width b := by
    rw [← UInt64.toNat_inj, toNat_unsigned, toNat_unsigned, BitVec.toNat_inj]
  unfold compareInts
  dsimp only
  cases p with
  | eq | ne =>
    simp only [ne_eq, heq]
    rfl
  | ugt | uge | ult | ule =>
    simp only [UInt64.lt_iff_toNat_lt, UInt64.le_iff_toNat_le, toNat_unsigned]
    rfl
  | sgt | sge | slt | sle =>
    simp only [Int64.lt_iff_toInt_lt, Int64.le_iff_toInt_le, toInt_signed h]
    rfl

end Integers

theorem IntWidth.bits_le (w : IntWidth) : w.bits ≤ 64 := by
  cases w <;> decide

section Exactness

open Word

/--
Integer arithmetic is exact in two's complement at every width. Whatever the words are, the operation is
done on their low bits and the result is in normal form; nothing but a divisor without a bit set is an
error. The least number over -1 is the least number again, with no remainder. A shift that goes as far
as the width or farther leaves zeros, or copies of the sign.
-/
theorem intBinary_exact (function : String) (op : BinaryOp) (w : IntWidth) (a b : Int64) :
    normalize w.bits a = ofBits (low w.bits a) ∧
    intBinary function op w.bits a b =
      (if op.isFloat then .error (.typeError (.notAnInteger op))
      else if op.isDivision ∧ low w.bits b = .ofNat w.bits 0 then .error (.divisionByZero function)
      else .ok (ofBits (op.onBits (low w.bits a) (low w.bits b)))) ∧
    (low w.bits a = .intMin w.bits → low w.bits b = -BitVec.ofNat w.bits 1 →
      intBinary function .sdiv w.bits a b = .ok (ofBits (.intMin w.bits)) ∧
      intBinary function .srem w.bits a b = .ok 0) ∧
    (w.bits ≤ (low w.bits b).toNat →
      intBinary function .shl w.bits a b = .ok 0 ∧ intBinary function .lshr w.bits a b = .ok 0 ∧
      intBinary function .ashr w.bits a b =
        .ok (ofBits (if (low w.bits a).msb then .allOnes w.bits else .ofNat w.bits 0))) := by
  have hok {op : BinaryOp} := @intBinary_ok _ w.bits_le a b function op
  refine ⟨normalize_eq_ofBits _ _, intBinary_eq w.bits_le a b function op, ?_, ?_⟩
  . intro hmin hone
    have hne : low w.bits b ≠ .ofNat w.bits 0 := by
      rw [hone]
      cases w <;> decide
    have hrem : (BitVec.intMin w.bits).srem (-BitVec.ofNat w.bits 1) = .ofNat w.bits 0 := by
      cases w <;> decide
    rw [hok rfl fun _ => hne, hok rfl fun _ => hne, hmin, hone]
    simp only [BinaryOp.onBits, BitVec.intMin_sdiv_neg_one, hrem, ofBits_zero, and_self]
  . intro hfar
    rw [hok rfl (by rintro ⟨⟩), hok rfl (by rintro ⟨⟩), hok rfl (by rintro ⟨⟩)]
    simp only [BinaryOp.onBits, BitVec.shiftLeft_eq_zero hfar, BitVec.ushiftRight_eq_zero hfar,
      sshiftRight_of_le hfar, ofBits_zero, and_self]

theorem byte_exact :
    intBinary "f" .sdiv 8 384 255 = .ok (-128) ∧ intBinary "f" .srem 8 384 255 = .ok 0 ∧
    intBinary "f" .ashr 8 384 255 = .ok (-1) ∧
    intBinary "f" .urem 8 384 256 = .error (.divisionByZero "f") := by
  obtain ⟨-, -, hmin, hfar⟩ := intBinary_exact "f" .sdiv .w8 384 255
  obtain ⟨-, hzero, -, -⟩ := intBinary_exact "f" .urem .w8 384 256
  exact ⟨(hmin rfl rfl).1, (hmin rfl rfl).2, (hfar (by decide)).2.2, hzero⟩

end Exactness

end ScriptedIR
