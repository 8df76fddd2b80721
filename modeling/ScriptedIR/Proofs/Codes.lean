import Mathlib.Algebra.Group.Int.Defs
import Mathlib.Algebra.Group.Nat.Defs
import ScriptedIR.Proofs.Bits

/-!
Pointers as integers. Null is zero, and a pointer to an element of an allocation has the two numbers in
the halves of a word. As long as they fit, nothing is lost on the way to the integer and back, and the
integers stand in the order of the pointers.
-/

namespace ScriptedIR

def IntPredicate.ofOrder (p : IntPredicate) (x y : Int) : Bool :=
  match p with
  | .eq => x = y
  | .ne => x ≠ y
  | .ugt | .sgt => y < x
  | .uge | .sge => y ≤ x
  | .ult | .slt => x < y
  | .ule | .sle => x ≤ y

theorem compareInts_of_nonneg (predicate : IntPredicate) {a b : Int64} (ha : 0 ≤ a.toInt)
    (hb : 0 ≤ b.toInt) : compareInts predicate 64 a b = predicate.ofOrder a.toInt b.toInt := by
  have hnat {v : Int64} (hv : 0 ≤ v.toInt) : (v.toUInt64.toNat : Int) = v.toInt := by
    have hsmall : 2 * v.toBitVec.toNat < 2 ^ 64 := BitVec.toInt_pos_iff.1 hv
    exact (BitVec.toInt_eq_toNat_of_lt hsmall).symm
  have hunsigned (v : Int64) : Word.unsigned 64 v = v.toUInt64 := rfl
  have hsigned (v : Int64) : Word.signed 64 v = v := rfl
  have hna := hnat ha
  have hnb := hnat hb
  unfold compareInts IntPredicate.ofOrder
  simp only [hunsigned, hsigned]
  cases predicate with
  | eq | ne =>
    simp only [← UInt64.toNat_inj, ne_eq, decide_eq_decide]
    omega
  | ugt | uge | ult | ule =>
    simp only [UInt64.lt_iff_toNat_lt, UInt64.le_iff_toNat_le, decide_eq_decide]
    omega
  | sgt | sge | slt | sle => simp only [Int64.lt_iff_toInt_lt, Int64.le_iff_toInt_le]

namespace Pointer

/--
The pointers with an integer of their own: null, and those to an element of an allocation if the two
numbers fit in the halves of a word that is not negative.
-/
inductive HasCode : Pointer → Prop
  | null : HasCode .null
  | element {alloc : Nat} {i : Int} :
      alloc < 2 ^ 31 - 1 → 0 ≤ i → i < 2 ^ 32 → HasCode (.memory alloc [i])

def code : Pointer → Int
  | .null => 0
  | .memory alloc path => (alloc + 1) * UInt32.size + path.headD 0

theorem code_element (alloc : Nat) (i : Int) :
    (memory alloc [i]).code = (alloc + 1) * 4294967296 + i := rfl

namespace HasCode

variable {p q : Pointer}

theorem code_bounds (h : p.HasCode) : 0 ≤ p.code ∧ p.code < 2 ^ 63 := by
  cases h with
  | null => decide
  | element halloc hpos hlt =>
    rw [code_element]
    omega

theorem toInt_ofInt_code (h : p.HasCode) : (Int64.ofInt p.code).toInt = p.code := by
  obtain ⟨hpos, hlt⟩ := h.code_bounds
  exact Int64.toInt_ofInt_of_le (by omega) hlt

theorem place_eq_iff (hp : p.HasCode) (hq : q.HasCode) : p.place = q.place ↔ p.code = q.code := by
  cases hp with
  | null =>
    cases hq with
    | null => simp
    | element halloc hpos hlt =>
      rw [code_element]
      simp only [place, code, Prod.mk.injEq, reduceCtorEq, and_false, false_iff]
      omega
  | element halloc hpos hlt =>
    cases hq with
    | null =>
      rw [code_element]
      simp only [place, code, Prod.mk.injEq, reduceCtorEq, and_false, false_iff]
      omega
    | element halloc' hpos' hlt' =>
      rw [code_element, code_element]
      simp only [place, Prod.mk.injEq, List.cons.injEq, and_true]
      rw [← Int64.toInt_inj, Int64.toInt_ofNat_of_lt (by omega), Int64.toInt_ofNat_of_lt (by omega)]
      omega

theorem before_iff (hp : p.HasCode) (hq : q.HasCode) : p.before q ↔ p.code < q.code := by
  have hnull : (-1 : Int64).toInt = -1 := rfl
  unfold before
  simp only [Bool.or_eq_true, Bool.and_eq_true, decide_eq_true_eq, Int64.lt_iff_toInt_lt,
    ← Int64.toInt_inj]
  cases hp with
  | null =>
    cases hq with
    | null => simp [place]
    | element halloc hpos hlt =>
      rw [code_element]
      simp only [place, code, hnull, List.nil_lt_cons, and_true]
      rw [Int64.toInt_ofNat_of_lt (by omega)]
      omega
  | element halloc hpos hlt =>
    cases hq with
    | null =>
      rw [code_element]
      simp only [place, code, hnull, List.not_lt_nil, and_false, or_false]
      rw [Int64.toInt_ofNat_of_lt (by omega)]
      omega
    | element halloc' hpos' hlt' =>
      rw [code_element, code_element]
      simp only [place, List.cons_lt_cons_iff, List.not_lt_nil, and_false, or_false]
      rw [Int64.toInt_ofNat_of_lt (by omega), Int64.toInt_ofNat_of_lt (by omega)]
      omega

end HasCode

end Pointer

theorem comparePointers_of_hasCode (predicate : IntPredicate) {p q : Pointer} (hp : p.HasCode)
    (hq : q.HasCode) : comparePointers predicate p q = predicate.ofOrder p.code q.code := by
  have hbefore {p q : Pointer} (hp : p.HasCode) (hq : q.HasCode) :
      p.before q = decide (p.code < q.code) := by
    rw [Bool.eq_iff_iff, hp.before_iff hq, decide_eq_true_iff]
  unfold comparePointers IntPredicate.ofOrder
  cases predicate with
  | eq | ne => simp only [ne_eq, hp.place_eq_iff hq]
  | ugt | sgt | ult | slt => simp only [hbefore hp hq, hbefore hq hp]
  | uge | sge | ule | sle => simp only [hbefore hp hq, hbefore hq hp, ← decide_not, Int.not_lt]

theorem Word.checked_of_lt (verb : String) {v : Int} (hlow : 0 ≤ v) (hhigh : v < 2 ^ 63) :
    Word.checked verb v = .ok (.ofInt v) := by
  have hmin : Int64.minValue.toInt = -2 ^ 63 := rfl
  have hmax : Int64.maxValue.toInt = 2 ^ 63 - 1 := rfl
  rw [Word.checked, if_pos]
  omega

theorem encodePointer_of_hasCode {p : Pointer} (h : p.HasCode) :
    encodePointer p = .ok (.ofInt p.code) := by
  cases h with
  | null => rfl
  | @element alloc i halloc hpos hlt =>
    have toInt_ofInt {v : Int} (hlow : 0 ≤ v) (hhigh : v < 2 ^ 63) : (Int64.ofInt v).toInt = v :=
      Int64.toInt_ofInt_of_le (by omega) (by omega)
    rw [Pointer.code_element]
    simp only [encodePointer, UInt32.size]
    rw [Int64.toInt_ofNat_of_lt (by omega), Word.checked_of_lt "add" (by omega) (by omega)]
    simp only [bind, Except.bind]
    rw [toInt_ofInt (v := alloc + 1) (by omega) (by omega), toInt_ofInt (by omega) (by omega),
      toInt_ofInt hpos (by omega)]
    exact Word.checked_of_lt "add" (by omega) (by omega)

theorem decodePointer_code {p : Pointer} (h : p.HasCode) : decodePointer (.ofInt p.code) = p := by
  have hcode := h.toInt_ofInt_code
  unfold decodePointer
  dsimp only
  rw [hcode]
  cases h with
  | null => rfl
  | @element alloc i halloc hpos hlt =>
    -- the element fits in the low half, so that a quotient and a remainder give both numbers back
    rw [Pointer.code_element] at hcode ⊢
    have hne : Int64.ofInt ((alloc + 1) * 4294967296 + i) ≠ 0 := by
      intro hzero
      rw [hzero, Int64.toInt_zero] at hcode
      omega
    rw [if_neg hne]
    have halloc : ((((alloc : Int) + 1) * 4294967296 + i) / UInt32.size - 1).toNat = alloc := by
      simp only [UInt32.size]
      omega
    have hi : (((alloc : Int) + 1) * 4294967296 + i) % UInt32.size = i := by
      simp only [UInt32.size]
      omega
    rw [halloc, hi]

theorem encodePointer_decodePointer {v : Int64} (h : v = 0 ∨ 2 ^ 32 ≤ v.toInt) :
    encodePointer (decodePointer v) = .ok v := by
  unfold decodePointer
  rcases h with rfl | h
  . rfl
  . have hne : v ≠ 0 := by
      rintro rfl
      rw [Int64.toInt_zero] at h
      omega
    have hmax := v.toInt_lt
    have hcode : (Pointer.memory (v.toInt / UInt32.size - 1).toNat [v.toInt % UInt32.size]).HasCode := by
      simp only [UInt32.size]
      exact .element (by omega) (by omega) (by omega)
    have hword : (Pointer.memory (v.toInt / UInt32.size - 1).toNat [v.toInt % UInt32.size]).code =
        v.toInt := by
      rw [Pointer.code_element]
      simp only [UInt32.size]
      omega
    rw [if_neg hne]
    dsimp only
    rw [encodePointer_of_hasCode hcode, hword, Int64.ofInt_toInt]

/--
Pointers survive as integers. Whatever has an integer of its own is found again from it, also by casts
that are executed, and no two such pointers share one. The integers are compared as the pointers are,
with their sign or without it. Zero and the words from the first allocation on are the integers of what
they are taken for.
-/
theorem encodePointer_faithful :
    (∀ p : Pointer, p.HasCode → ∃ a, encodePointer p = .ok a ∧ decodePointer a = p ∧
      ∀ source target : Ty, castDatum .ptrtoint (.pointer p) source .i64 = .ok (.int a) ∧
        castDatum .inttoptr (.int a) .i64 target = .ok (.pointer p)) ∧
    (∀ p q : Pointer, p.HasCode → q.HasCode → p ≠ q → encodePointer p ≠ encodePointer q) ∧
    (∀ (p q : Pointer) (a b : Int64) (predicate : IntPredicate), p.HasCode → q.HasCode →
      encodePointer p = .ok a → encodePointer q = .ok b →
      comparePointers predicate p q = compareInts predicate 64 a b) ∧
    ∀ v : Int64, v = 0 ∨ 2 ^ 32 ≤ v.toInt → encodePointer (decodePointer v) = .ok v := by
  refine ⟨?_, ?_, ?_, fun v h => encodePointer_decodePointer h⟩
  . intro p hp
    have hencode := encodePointer_of_hasCode hp
    have hdecode := decodePointer_code hp
    refine ⟨_, hencode, hdecode, fun source target => ⟨?_, congrArg _ (congrArg _ hdecode)⟩⟩
    change (do return Datum.int (Word.normalize 64 (← encodePointer p))) = _
    rw [hencode]
    rfl
  . intro p q hp hq hne heq
    rw [encodePointer_of_hasCode hp, encodePointer_of_hasCode hq, Except.ok.injEq] at heq
    apply hne
    rw [← decodePointer_code hp, heq, decodePointer_code hq]
  . intro p q a b predicate hp hq ha hb
    rw [encodePointer_of_hasCode hp, Except.ok.injEq] at ha
    rw [encodePointer_of_hasCode hq, Except.ok.injEq] at hb
    subst ha hb
    have hpos := hp.code_bounds.1
    have hpos' := hq.code_bounds.1
    rw [← hp.toInt_ofInt_code] at hpos
    rw [← hq.toInt_ofInt_code] at hpos'
    rw [comparePointers_of_hasCode predicate hp hq, compareInts_of_nonneg predicate hpos hpos',
      hp.toInt_ofInt_code, hq.toInt_ofInt_code]

theorem last_element_faithful :
    decodePointer Int64.maxValue = .memory 2147483646 [4294967295] ∧
    encodePointer .null ≠ encodePointer (.memory 0 [0]) ∧
    comparePointers .ult .null (.memory 0 [0]) = compareInts .ult 64 0 4294967296 ∧
    encodePointer (decodePointer 4294967296) = .ok 4294967296 := by
  obtain ⟨hback, hapart, hcompare, hforth⟩ := encodePointer_faithful
  have hnull := Pointer.HasCode.null
  have hfirst : (Pointer.memory 0 [0]).HasCode := .element (by decide) (by decide) (by decide)
  have hlast : (Pointer.memory 2147483646 [4294967295]).HasCode :=
    .element (by decide) (by decide) (by decide)
  obtain ⟨a, ha, hdecode, -⟩ := hback _ hlast
  cases ha
  exact ⟨hdecode, hapart _ _ hnull hfirst (by decide), hcompare _ _ _ _ _ hnull hfirst rfl rfl,
    hforth _ (.inr (by decide))⟩

end ScriptedIR
