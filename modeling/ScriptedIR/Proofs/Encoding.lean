import ScriptedIR.Text.Utf8

/-!
UTF-8 is read back as it was written, character by character. A zero byte is written for the NUL
character only, so the bytes up to the first one are those of the characters up to the first NUL.
-/

namespace ScriptedIR.Text.Utf8

theorem decodeFrom_start (b : UInt8) (bytes : List UInt8) :
    decodeFrom .start (b :: bytes) = (begin b).1 ++ decodeFrom (begin b).2 bytes := rfl

theorem decodeFrom_within (bits need : Nat) (low high b : UInt8) (bytes : List UInt8) :
    decodeFrom (.within bits need low high) (b :: bytes) =
      (step (.within bits need low high) b).1 ++
        decodeFrom (step (.within bits need low high) b).2 bytes := rfl

theorem decodeFrom_continue {bits need : Nat} {low high b : UInt8} (hneed : 2 ≤ need)
    (hlow : low ≤ b) (hhigh : b ≤ high) (bytes : List UInt8) :
    decodeFrom (.within bits need low high) (b :: bytes) =
      decodeFrom (.within (bits * 0x40 + b.toNat % 0x40) (need - 1) 0x80 0xBF) bytes := by
  have hneed' : ¬need ≤ 1 := by omega
  simp [decodeFrom_within, step, hlow, hhigh, hneed']

theorem decodeFrom_complete {bits : Nat} {low high b : UInt8} (hlow : low ≤ b) (hhigh : b ≤ high)
    (bytes : List UInt8) :
    decodeFrom (.within bits 1 low high) (b :: bytes) =
      Char.ofNat (bits * 0x40 + b.toNat % 0x40) :: decodeFrom .start bytes := by
  simp [decodeFrom_within, step, hlow, hhigh]

theorem begin_one {b : UInt8} (h : b.toNat < 0x80) : begin b = ([Char.ofNat b.toNat], .start) :=
  if_pos (UInt8.lt_iff_toNat_lt.2 h)

theorem begin_two {b : UInt8} (h : 0xC2 ≤ b.toNat) (h' : b.toNat < 0xE0) :
    begin b = ([], .within (b.toNat % 0x20) 1 0x80 0xBF) := by
  unfold begin
  simp only [UInt8.lt_iff_toNat_lt, UInt8.reduceToNat]
  rw [if_neg (by omega), if_neg (by omega), if_pos h']

/--
The second byte is bounded so that no character has more bytes than it needs, or is a surrogate.
-/
theorem begin_three {b : UInt8} (h : 0xE0 ≤ b.toNat) (h' : b.toNat < 0xF0) :
    begin b = ([], .within (b.toNat % 0x10) 2 (if b = 0xE0 then 0xA0 else 0x80)
      (if b = 0xED then 0x9F else 0xBF)) := by
  unfold begin
  simp only [UInt8.lt_iff_toNat_lt, UInt8.reduceToNat, beq_iff_eq]
  rw [if_neg (by omega), if_neg (by omega), if_neg (by omega)]
  by_cases hfirst : b = 0xE0
  . subst hfirst
    rfl
  . by_cases hsurrogate : b = 0xED
    . subst hsurrogate
      rfl
    . simp [hfirst, hsurrogate, h']

theorem begin_four {b : UInt8} (h : 0xF0 ≤ b.toNat) (h' : b.toNat ≤ 0xF4) :
    begin b = ([], .within (b.toNat % 0x08) 3 (if b = 0xF0 then 0x90 else 0x80)
      (if b = 0xF4 then 0x8F else 0xBF)) := by
  unfold begin
  simp only [UInt8.lt_iff_toNat_lt, UInt8.reduceToNat, beq_iff_eq, ← UInt8.toNat_inj]
  rw [if_neg (by omega), if_neg (by omega), if_neg (by omega), if_neg (by omega),
    if_neg (by omega), if_neg (by omega)]
  by_cases hfirst : b.toNat = 0xF0
  . simp [hfirst]
  . by_cases hlast : b.toNat = 0xF4
    . simp [hlast]
    . have hlt : b.toNat < 0xF4 := by omega
      simp [hfirst, hlast, hlt]

theorem toNat_ofNat_of_lt {n : Nat} (h : n < 256) : (UInt8.ofNat n).toNat = n := by
  simp
  omega

theorem continuation_bounds (v : Nat) :
    (0x80 : UInt8) ≤ UInt8.ofNat (v % 0x40 + 0x80) ∧ UInt8.ofNat (v % 0x40 + 0x80) ≤ 0xBF ∧
      (UInt8.ofNat (v % 0x40 + 0x80)).toNat = v % 0x40 + 0x80 := by
  have htoNat : (UInt8.ofNat (v % 0x40 + 0x80)).toNat = v % 0x40 + 0x80 :=
    toNat_ofNat_of_lt (by omega)
  refine ⟨?_, ?_, htoNat⟩
  . rw [UInt8.le_iff_toNat_le, htoNat]
    exact Nat.le_add_left _ _
  . rw [UInt8.le_iff_toNat_le, htoNat]
    change v % 0x40 + 0x80 ≤ 0xBF
    omega

section Encoded

variable {c : Char} {v : Nat}

theorem decodeFrom_two (hc : Char.ofNat v = c) (hlow : 0x80 ≤ v) (hhigh : v < 0x800)
    (bytes : List UInt8) :
    decodeFrom .start
        (UInt8.ofNat (v / 64 % 0x20 + 0xc0) :: UInt8.ofNat (v % 0x40 + 0x80) :: bytes) =
      c :: decodeFrom .start bytes := by
  have hlead : (UInt8.ofNat (v / 64 % 0x20 + 0xc0)).toNat = v / 64 + 0xc0 := by
    rw [toNat_ofNat_of_lt (by omega)]
    omega
  obtain ⟨hge, hle, hbits⟩ := continuation_bounds v
  rw [decodeFrom_start, begin_two (by omega) (by omega), List.nil_append,
    decodeFrom_complete hge hle, hlead, hbits, ← hc]
  congr 2
  omega

theorem decodeFrom_three (hc : Char.ofNat v = c) (hlow : 0x800 ≤ v) (hhigh : v < 0x10000)
    (hvalid : v < 0xd800 ∨ 0xdfff < v) (bytes : List UInt8) :
    decodeFrom .start (UInt8.ofNat (v / 4096 % 0x10 + 0xe0) ::
        UInt8.ofNat (v / 64 % 0x40 + 0x80) :: UInt8.ofNat (v % 0x40 + 0x80) :: bytes) =
      c :: decodeFrom .start bytes := by
  have hlead : (UInt8.ofNat (v / 4096 % 0x10 + 0xe0)).toNat = v / 4096 + 0xe0 := by
    rw [toNat_ofNat_of_lt (by omega)]
    omega
  obtain ⟨-, -, hbits⟩ := continuation_bounds (v / 64)
  obtain ⟨hge, hle, hbits'⟩ := continuation_bounds v
  rw [decodeFrom_start, begin_three (by omega) (by omega), List.nil_append,
    decodeFrom_continue (by decide) _ _, decodeFrom_complete hge hle, hlead, hbits, hbits', ← hc]
  . congr 2
    omega
  . -- the second byte is bounded from below, as no character has more bytes than it needs
    split
    . next hfirst =>
      simp only [← UInt8.toNat_inj, hlead, UInt8.reduceToNat] at hfirst
      simp only [UInt8.le_iff_toNat_le, hbits, UInt8.reduceToNat]
      omega
    . exact (continuation_bounds (v / 64)).1
  . -- and from above, as no character is a surrogate
    split
    . next hsurrogate =>
      simp only [← UInt8.toNat_inj, hlead, UInt8.reduceToNat] at hsurrogate
      simp only [UInt8.le_iff_toNat_le, hbits, UInt8.reduceToNat]
      omega
    . exact (continuation_bounds (v / 64)).2.1

theorem decodeFrom_four (hc : Char.ofNat v = c) (hlow : 0x10000 ≤ v) (hhigh : v < 0x110000)
    (bytes : List UInt8) :
    decodeFrom .start (UInt8.ofNat (v / 262144 % 0x08 + 0xf0) ::
        UInt8.ofNat (v / 4096 % 0x40 + 0x80) :: UInt8.ofNat (v / 64 % 0x40 + 0x80) ::
        UInt8.ofNat (v % 0x40 + 0x80) :: bytes) = c :: decodeFrom .start bytes := by
  have hlead : (UInt8.ofNat (v / 262144 % 0x08 + 0xf0)).toNat = v / 262144 + 0xf0 := by
    rw [toNat_ofNat_of_lt (by omega)]
    omega
  obtain ⟨-, -, hbits⟩ := continuation_bounds (v / 4096)
  obtain ⟨hge', hle', hbits'⟩ := continuation_bounds (v / 64)
  obtain ⟨hge, hle, hbits''⟩ := continuation_bounds v
  rw [decodeFrom_start, begin_four (by omega) (by omega), List.nil_append,
    decodeFrom_continue (by decide) _ _, decodeFrom_continue (by decide) hge' hle',
    decodeFrom_complete hge hle, hlead, hbits, hbits', hbits'', ← hc]
  . congr 2
    omega
  . split
    . next hfirst =>
      simp only [← UInt8.toNat_inj, hlead, UInt8.reduceToNat] at hfirst
      simp only [UInt8.le_iff_toNat_le, hbits, UInt8.reduceToNat]
      omega
    . exact (continuation_bounds (v / 4096)).1
  . split
    . next hlast =>
      simp only [← UInt8.toNat_inj, hlead, UInt8.reduceToNat] at hlast
      simp only [UInt8.le_iff_toNat_le, hbits, UInt8.reduceToNat]
      omega
    . exact (continuation_bounds (v / 4096)).2.1

end Encoded

theorem decodeFrom_encodeChar (c : Char) (bytes : List UInt8) :
    decodeFrom .start (String.utf8EncodeChar c ++ bytes) = c :: decodeFrom .start bytes := by
  have hvalid := c.valid
  have hc : Char.ofNat c.val.toNat = c := Char.ofNat_toNat c
  unfold String.utf8EncodeChar
  unfold UInt32.isValidChar Nat.isValidChar at hvalid
  generalize c.val.toNat = v at *
  dsimp only
  split
  . next h =>
    have hlead := toNat_ofNat_of_lt (Nat.lt_of_le_of_lt h (by decide : 0x7f < 256))
    rw [List.singleton_append, decodeFrom_start, begin_one (by omega), hlead, hc]
    rfl
  . split
    . exact decodeFrom_two hc (by omega) (by omega) bytes
    . split
      . exact decodeFrom_three hc (by omega) (by omega) (by omega) bytes
      . exact decodeFrom_four hc (by omega) (by omega) bytes

theorem decode_encode (text : String) : decode (encode text) = text := by
  have h (cs : List Char) : decodeFrom .start (cs.flatMap String.utf8EncodeChar) = cs := by
    induction cs with
    | nil => rfl
    | cons c cs ih => rw [List.flatMap_cons, decodeFrom_encodeChar, ih]
  unfold decode encode
  rw [h, String.ofList_toList]

theorem ofNat_ne_zero {n : Nat} (hpos : 0 < n) (hlt : n < 256) : UInt8.ofNat n ≠ 0 := by
  rw [ne_eq, ← UInt8.toNat_inj, toNat_ofNat_of_lt hlt]
  exact Nat.ne_of_gt hpos

theorem encodeChar_ne_zero {c : Char} (hc : c ≠ '\x00') :
    ∀ b ∈ String.utf8EncodeChar c, b ≠ 0 := by
  have hpos : 0 < c.val.toNat := by
    apply Nat.pos_of_ne_zero
    intro hzero
    apply hc
    rw [← Char.ofNat_toNat c]
    exact congrArg Char.ofNat hzero
  unfold String.utf8EncodeChar
  generalize c.val.toNat = v at *
  dsimp only
  repeat' split
  all_goals
    simp only [List.forall_mem_cons, List.not_mem_nil, false_implies, implies_true, and_true]
    and_intros <;> exact ofNat_ne_zero (by omega) (by omega)

theorem encode_splits (text : String) :
    ∃ rest, encode text ++ [0] =
        encode (String.ofList (text.toList.takeWhile (· ≠ '\x00'))) ++ 0 :: rest ∧
      ∀ b ∈ encode (String.ofList (text.toList.takeWhile (· ≠ '\x00'))), b ≠ 0 := by
  unfold encode
  rw [String.toList_ofList]
  generalize text.toList = cs
  induction cs with
  | nil => exact ⟨[], rfl, by simp⟩
  | cons c cs ih =>
    by_cases hc : c = '\x00'
    . subst hc
      exact ⟨cs.flatMap String.utf8EncodeChar ++ [0], rfl, by simp⟩
    . obtain ⟨rest, hsplit, hne⟩ := ih
      rw [List.takeWhile_cons_of_pos (by simpa using hc)]
      refine ⟨rest, ?_, ?_⟩
      . rw [List.flatMap_cons, List.flatMap_cons, List.append_assoc, hsplit, List.append_assoc]
      . rw [List.flatMap_cons]
        intro b hb
        rcases List.mem_append.1 hb with hb | hb
        . exact encodeChar_ne_zero hc b hb
        . exact hne b hb

end ScriptedIR.Text.Utf8
