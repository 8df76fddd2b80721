import Mathlib.Algebra.Group.Nat.Defs
import ScriptedIR.Script.Operand

/-!
Integers read from texts. What counts is the longest numeral behind the leading blanks: an optional
sign and digits. Its value is the operand's if it has a digit and fits in 64 bits, and otherwise the
operand is zero. So the decimal text of an integer is read back as this integer, whatever blanks
stand in front of it and whatever stands behind it that is no further digit.
-/

namespace ScriptedIR

namespace Text

def placeValue : List Char → Nat
  | [] => 0
  | d :: ds => (d.toNat - '0'.toNat) * 10 ^ ds.length + placeValue ds

theorem ofDigits_eq_ofDigitChars (ds : List Char) : ofDigits ds = Nat.ofDigitChars 10 ds 0 :=
  Nat.ofDigitChars_eq_foldl.symm

theorem ofDigits_eq_placeValue (ds : List Char) : ofDigits ds = placeValue ds := by
  rw [ofDigits_eq_ofDigitChars]
  induction ds with
  | nil => rfl
  | cons d ds ih =>
    rw [Nat.ofDigitChars_cons, Nat.ofDigitChars_eq_ofDigitChars_zero, ih, placeValue, Nat.mul_zero,
      Nat.zero_add, Nat.mul_comm]

theorem placeValue_toDigits (n : Nat) : placeValue (Nat.toDigits 10 n) = n := by
  rw [← ofDigits_eq_placeValue, ofDigits_eq_ofDigitChars, Nat.ofDigitChars_ten_toDigits]

/--
`Numeral text digits n` tells that the text is an optional sign in front of the digits, of which
there may be none, and that `n` is the number it spells.
-/
inductive Numeral : List Char → List Char → Int → Prop
  | plain {digits : List Char} : (∀ d ∈ digits, d.isDigit) →
    Numeral digits digits (placeValue digits)
  | plus {digits : List Char} : (∀ d ∈ digits, d.isDigit) →
    Numeral ('+' :: digits) digits (placeValue digits)
  | minus {digits : List Char} : (∀ d ∈ digits, d.isDigit) →
    Numeral ('-' :: digits) digits (-(placeValue digits : Int))

structure LongestNumeral (cs text digits : List Char) (n : Int) : Prop where
  numeral : Numeral text digits n
  starts : text <+: cs
  longest : ∀ {text' digits' n'}, Numeral text' digits' n' → text' <+: cs →
    text'.length ≤ text.length

def fitted (n : Int) : Int64 :=
  if Int64.minValue.toInt ≤ n ∧ n ≤ Int64.maxValue.toInt then Int64.ofInt n else 0

theorem fitted_toInt (n : Int64) : fitted n.toInt = n := by
  rw [fitted, if_pos ⟨n.minValue_le_toInt, n.toInt_le⟩, Int64.ofInt_toInt]

theorem isDigit_not_blank {c : Char} (h : c.isDigit) : isBlank c = false := by
  simp only [Char.isDigit, ge_iff_le, Bool.and_eq_true, decide_eq_true_eq, UInt32.le_iff_toNat_le]
    at h
  simp only [isBlank, Char.toNat]
  simp at h ⊢
  omega

theorem isDigit_ne_sign {c : Char} (h : c.isDigit) : c ≠ '-' ∧ c ≠ '+' := by
  constructor <;> rintro rfl <;> exact absurd h (by decide)

theorem prefix_digits_length_le {ds ds' rest : List Char} (hds : ∀ d ∈ ds', d.isDigit)
    (hrest : ∀ c ∈ rest.head?, ¬c.isDigit) (h : ds' <+: ds ++ rest) :
    ds'.length ≤ ds.length := by
  induction ds generalizing ds' with
  | nil =>
    cases ds' with
    | nil => exact Nat.le_refl _
    | cons d ds' =>
      obtain ⟨tail, htail⟩ := h
      have hd : d ∈ rest.head? := by
        rw [List.nil_append] at htail
        simp [← htail]
      exact absurd (hds d List.mem_cons_self) (hrest d hd)
  | cons e ds ih =>
    cases ds' with
    | nil => exact Nat.zero_le _
    | cons d ds' =>
      rw [List.cons_append, List.cons_prefix_cons] at h
      exact Nat.succ_le_succ (ih (fun d hd => hds d (List.mem_cons_of_mem _ hd)) h.2)

namespace Numeral

variable {text digits : List Char} {n : Int}

theorem head_not_blank (h : Numeral text digits n) : ∀ c ∈ text.head?, isBlank c = false := by
  intro c hc
  cases h with
  | plain hdigits => exact isDigit_not_blank (hdigits c (List.mem_of_mem_head? hc))
  | plus hdigits =>
    cases hc
    rfl
  | minus hdigits =>
    cases hc
    rfl

theorem eq_zero_of_no_digits (h : Numeral text [] n) : n = 0 := by
  cases h <;> rfl

theorem value_unique {digits' : List Char} {n' : Int} (h : Numeral text digits n)
    (h' : Numeral text digits' n') : n = n' := by
  have hplus : ∀ {ds : List Char}, ¬∀ d ∈ '+' :: ds, d.isDigit := fun hall =>
    absurd (hall '+' List.mem_cons_self) (by decide)
  have hminus : ∀ {ds : List Char}, ¬∀ d ∈ '-' :: ds, d.isDigit := fun hall =>
    absurd (hall '-' List.mem_cons_self) (by decide)
  cases h with
  | plain hdigits =>
    cases h' with
    | plain _ => rfl
    | plus _ => exact absurd hdigits hplus
    | minus _ => exact absurd hdigits hminus
  | plus _ =>
    cases h' with
    | plain hdigits' => exact absurd hdigits' hplus
    | plus _ => rfl
  | minus _ =>
    cases h' with
    | plain hdigits' => exact absurd hdigits' hminus
    | minus _ => rfl

theorem prefix_sign_cases {c : Char} {cs : List Char} (h : Numeral text digits n)
    (hc : c = '-' ∨ c = '+') (hstarts : text <+: c :: cs) :
    text = [] ∨ ∃ ds, text = c :: ds ∧ ds <+: cs ∧ ∀ d ∈ ds, d.isDigit := by
  cases h with
  | plain hdigits =>
    cases text with
    | nil => exact .inl rfl
    | cons d ds =>
      obtain ⟨rfl, -⟩ := List.cons_prefix_cons.1 hstarts
      have hd := isDigit_ne_sign (hdigits d List.mem_cons_self)
      exact absurd hc (not_or.2 hd)
  | plus hdigits =>
    obtain ⟨rfl, htail⟩ := List.cons_prefix_cons.1 hstarts
    exact .inr ⟨digits, rfl, htail, hdigits⟩
  | minus hdigits =>
    obtain ⟨rfl, htail⟩ := List.cons_prefix_cons.1 hstarts
    exact .inr ⟨digits, rfl, htail, hdigits⟩

theorem longest_of_stop {rest : List Char} (h : Numeral text digits n)
    (hrest : ∀ c ∈ rest.head?, ¬c.isDigit)
    (hsign : text = [] → ∀ c ∈ rest.head?, c ≠ '-' ∧ c ≠ '+') :
    LongestNumeral (text ++ rest) text digits n := by
  refine ⟨h, List.prefix_append text rest, ?_⟩
  intro text' digits' n' h' hstarts
  have hsigned : ∀ {c ds}, c = '-' ∨ c = '+' → text' <+: c :: (ds ++ rest) →
      text'.length ≤ (c :: ds).length := by
    intro c ds hc hstarts
    obtain rfl | ⟨ds', rfl, htail, hds'⟩ := h'.prefix_sign_cases hc hstarts
    . exact Nat.zero_le _
    . exact Nat.succ_le_succ (prefix_digits_length_le hds' hrest htail)
  cases h with
  | plus _ => exact hsigned (.inr rfl) hstarts
  | minus _ => exact hsigned (.inl rfl) hstarts
  | plain hdigits =>
    -- neither a digit nor what follows an empty numeral is a sign
    have hhead : ∀ c ∈ (text ++ rest).head?, c ≠ '-' ∧ c ≠ '+' := by
      cases text with
      | nil => exact hsign rfl
      | cons d ds =>
        intro c hc
        cases hc
        exact isDigit_ne_sign (hdigits d List.mem_cons_self)
    cases h' with
    | plain hdigits' => exact prefix_digits_length_le hdigits' hrest hstarts
    | plus _ =>
      obtain ⟨tail, htail⟩ := hstarts
      exact absurd rfl (hhead '+' (by simp [← htail])).2
    | minus _ =>
      obtain ⟨tail, htail⟩ := hstarts
      exact absurd rfl (hhead '-' (by simp [← htail])).1

end Numeral

theorem LongestNumeral.value_unique {cs text text' digits digits' : List Char} {n n' : Int}
    (h : LongestNumeral cs text digits n) (h' : LongestNumeral cs text' digits' n') : n = n' := by
  have hlength : text.length = text'.length :=
    Nat.le_antisymm (h'.longest h.numeral h.starts) (h.longest h'.numeral h'.starts)
  have htext : text = text' :=
    (List.prefix_of_prefix_length_le h.starts h'.starts
      (Nat.le_of_eq hlength)).eq_of_length hlength
  subst htext
  exact h.numeral.value_unique h'.numeral

/-
Reading
-/

theorem head_dropWhile_isDigit (cs : List Char) :
    ∀ c ∈ (cs.dropWhile Char.isDigit).head?, ¬c.isDigit := by
  intro c hc
  have := List.head?_dropWhile_not Char.isDigit cs
  rw [Option.mem_def.1 hc] at this
  simpa using this

theorem longestNumeral_splitSign (cs : List Char) :
    ∃ text, LongestNumeral cs text ((splitSign cs).2.takeWhile Char.isDigit)
      (if (splitSign cs).1 then -(placeValue ((splitSign cs).2.takeWhile Char.isDigit) : Int)
        else placeValue ((splitSign cs).2.takeWhile Char.isDigit)) := by
  have hall : ∀ ds : List Char, ∀ d ∈ ds.takeWhile Char.isDigit, d.isDigit := fun ds d hd =>
    List.all_eq_true.1 List.all_takeWhile d hd
  fun_cases splitSign cs with
  | case1 ds =>
    have h := (Numeral.minus (hall ds)).longest_of_stop (head_dropWhile_isDigit ds) (by simp)
    rw [List.cons_append, List.takeWhile_append_dropWhile] at h
    exact ⟨_, h⟩
  | case2 ds =>
    have h := (Numeral.plus (hall ds)).longest_of_stop (head_dropWhile_isDigit ds) (by simp)
    rw [List.cons_append, List.takeWhile_append_dropWhile] at h
    exact ⟨_, h⟩
  | case3 _ hminus hplus =>
    have h := (Numeral.plain (hall cs)).longest_of_stop (head_dropWhile_isDigit cs) ?_
    . rw [List.takeWhile_append_dropWhile] at h
      exact ⟨_, h⟩
    . intro hnil c hc
      -- without a digit at its start the whole text is left, and it starts with no sign
      have hcs : cs.dropWhile Char.isDigit = cs := by
        have h := List.takeWhile_append_dropWhile (p := Char.isDigit) (l := cs)
        rwa [hnil, List.nil_append] at h
      rw [hcs] at hc
      obtain ⟨tail, rfl⟩ := List.head?_eq_some_iff.1 hc
      constructor
      . rintro rfl
        exact hminus tail rfl
      . rintro rfl
        exact hplus tail rfl

theorem leadingInt_of_longest {s : String} {text digits : List Char} {n : Int}
    (h : LongestNumeral (s.toList.dropWhile isBlank) text digits n) :
    leadingInt s = fitted n := by
  obtain ⟨text', h'⟩ := longestNumeral_splitSign (s.toList.dropWhile isBlank)
  rw [h.value_unique h']
  simp only [leadingInt, fitted, ofDigits_eq_placeValue]

theorem leadingInt_of_numeral {s : String} {blanks text digits rest : List Char} {n : Int}
    (hs : s.toList = blanks ++ (text ++ rest)) (hblanks : ∀ c ∈ blanks, isBlank c)
    (h : Numeral text digits n) (hdigits : digits ≠ [])
    (hrest : ∀ c ∈ rest.head?, ¬c.isDigit) : leadingInt s = fitted n := by
  have htext : text ≠ [] := by
    rintro rfl
    cases h
    exact hdigits rfl
  have hstart : s.toList.dropWhile isBlank = text ++ rest := by
    rw [hs, List.dropWhile_append_of_pos hblanks]
    obtain ⟨c, tail, rfl⟩ := List.exists_cons_of_ne_nil htext
    have hc : isBlank c = false := h.head_not_blank c rfl
    rw [List.cons_append, List.dropWhile_cons_of_neg (by simp [hc])]
  apply leadingInt_of_longest
  rw [hstart]
  exact h.longest_of_stop hrest (fun hnil => absurd hnil htext)

/-
Decimal texts
-/

theorem isDigit_toDigits (n : Nat) : ∀ d ∈ Nat.toDigits 10 n, d.isDigit := fun _ hd =>
  Nat.isDigit_of_mem_toDigits (by decide) (by decide) hd

theorem toString_of_nonneg {n : Int} (h : 0 ≤ n) :
    (toString n).toList = Nat.toDigits 10 n.toNat := by
  rw [Int.toString_eq_repr, Int.repr_eq_if, if_pos h, Nat.toList_repr]

theorem toString_of_neg {n : Int} (h : ¬0 ≤ n) :
    (toString n).toList = '-' :: Nat.toDigits 10 (-n).toNat := by
  rw [Int.toString_eq_repr, Int.repr_eq_if, if_neg h, String.toList_append, Nat.toList_repr]
  rfl

theorem numeral_toString (n : Int) :
    ∃ digits, digits ≠ [] ∧ Numeral (toString n).toList digits n := by
  by_cases h : 0 ≤ n
  . refine ⟨Nat.toDigits 10 n.toNat, Nat.toDigits_ne_nil, ?_⟩
    have hnumeral := Numeral.plain (isDigit_toDigits n.toNat)
    rw [placeValue_toDigits, Int.toNat_of_nonneg h] at hnumeral
    rwa [toString_of_nonneg h]
  . refine ⟨Nat.toDigits 10 (-n).toNat, Nat.toDigits_ne_nil, ?_⟩
    have hnumeral := Numeral.minus (isDigit_toDigits (-n).toNat)
    rw [placeValue_toDigits, Int.toNat_of_nonneg (by omega), Int.neg_neg] at hnumeral
    rwa [toString_of_neg h]

theorem numeral_plus_toString {n : Int} (h : 0 ≤ n) :
    ∃ digits, digits ≠ [] ∧ Numeral ('+' :: (toString n).toList) digits n := by
  refine ⟨Nat.toDigits 10 n.toNat, Nat.toDigits_ne_nil, ?_⟩
  have hnumeral := Numeral.plus (isDigit_toDigits n.toNat)
  rw [placeValue_toDigits, Int.toNat_of_nonneg h] at hnumeral
  rwa [toString_of_nonneg h]

end Text

namespace Operand

open Text

/--
The decimal text of a 64 bit integer is read back between blanks and anything that does not start
with a digit, also with a plus in front. Of any text the longest numeral behind the blanks is read,
as zero if it has no digit or does not fit.
-/
theorem str_reads_numeral :
    (∀ (n : Int64) (blanks suffix : String), (∀ c ∈ blanks.toList, isBlank c) →
      (∀ c ∈ suffix.toList.head?, ¬c.isDigit) →
        (str (blanks ++ toString n.toInt ++ suffix)).toInt? = some n ∧
        (0 ≤ n.toInt → (str (blanks ++ "+" ++ toString n.toInt ++ suffix)).toInt? = some n)) ∧
    ∀ s : String, ∃ text digits n, LongestNumeral (s.toList.dropWhile isBlank) text digits n ∧
      (str s).toInt? = some
        (if digits ≠ [] ∧ Int64.minValue.toInt ≤ n ∧ n ≤ Int64.maxValue.toInt then Int64.ofInt n
          else 0) := by
  constructor
  . intro n blanks suffix hblanks hsuffix
    constructor
    . obtain ⟨digits, hdigits, hnumeral⟩ := numeral_toString n.toInt
      have hs : (blanks ++ toString n.toInt ++ suffix).toList =
          blanks.toList ++ ((toString n.toInt).toList ++ suffix.toList) := by
        simp only [String.toList_append, List.append_assoc]
      rw [toInt?, leadingInt_of_numeral hs hblanks hnumeral hdigits hsuffix, fitted_toInt]
    . intro hn
      obtain ⟨digits, hdigits, hnumeral⟩ := numeral_plus_toString hn
      have hs : (blanks ++ "+" ++ toString n.toInt ++ suffix).toList =
          blanks.toList ++ ('+' :: (toString n.toInt).toList ++ suffix.toList) := by
        simp only [String.toList_append, List.append_assoc]
        rfl
      rw [toInt?, leadingInt_of_numeral hs hblanks hnumeral hdigits hsuffix, fitted_toInt]
  . intro s
    obtain ⟨text, h⟩ := longestNumeral_splitSign (s.toList.dropWhile isBlank)
    refine ⟨text, _, _, h, ?_⟩
    rw [toInt?, leadingInt_of_longest h]
    generalize hdigits : (splitSign (s.toList.dropWhile isBlank)).2.takeWhile Char.isDigit = digits
      at h ⊢
    cases digits with
    | nil => rw [h.numeral.eq_zero_of_no_digits]; rfl
    | cons d ds => simp only [fitted, ne_eq, reduceCtorEq, not_false_eq_true, true_and]

theorem least_reads_numeral :
    (∀ c ∈ "\u3000 \t".toList, isBlank c) ∧ (∀ c ∈ "é5".toList.head?, ¬c.isDigit) ∧
      (str ("\u3000 \t" ++ toString Int64.minValue.toInt ++ "é5")).toInt? =
        some Int64.minValue := by
  have hblanks : ∀ c ∈ "\u3000 \t".toList, isBlank c := by simp [isBlank]
  have hsuffix : ∀ c ∈ "é5".toList.head?, ¬c.isDigit := by simp [Char.isDigit]
  exact ⟨hblanks, hsuffix,
    (str_reads_numeral.1 Int64.minValue "\u3000 \t" "é5" hblanks hsuffix).1⟩

end Operand

end ScriptedIR
