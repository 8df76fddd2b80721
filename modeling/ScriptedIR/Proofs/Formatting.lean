import ScriptedIR.Proofs.Faults
import ScriptedIR.Proofs.Reading

/-!
Formats part by part. A format is made of characters that stand for themselves and of conversions, and
what it gives is what its parts give, each of which takes at most one argument. So formats can be joined
as long as the first one does not end in the middle of a conversion.
-/

namespace ScriptedIR.Host

inductive Part where
  | plain (c : Char) (h : c ≠ '%')
  | percent (marks : Nat) (c : Char) (h : c ≠ 'l')

namespace Part

def chars : Part → List Char
  | plain c _ => [c]
  | percent marks c _ => '%' :: List.replicate marks 'l' ++ [c]

def kind? : Part → Option Conversion
  | plain _ _ => none
  | percent _ c _ => Conversion.ofChar? c

def literal : Part → String
  | plain c _ => c.toString
  | percent _ c _ => if c = '%' then "%" else "%" ++ c.toString

def format (m : Memory) (part : Part) (args : List Datum) : Except RunError (String × List Datum) :=
  match part.kind? with
  | none => .ok (part.literal, args)
  | some kind =>
    match args with
    | [] => .error (.typeError .formatArguments)
    | arg :: args => do return (← kind.render m arg, args)

def formatAll (m : Memory) : List Part → List Datum → Except RunError (String × List Datum)
  | [], args => .ok ("", args)
  | part :: parts, args => do
    let (text, args) ← part.format m args
    let (rest, args) ← formatAll m parts args
    return (text ++ rest, args)

end Part

/--
Whether a format ends in the middle of a conversion: at a percent sign that begins one, with nothing
but length marks behind it.
-/
def endsInside (format : List Char) : Bool :=
  format.foldl (fun inside c => if inside then c = 'l' else c = '%') false

def TakesAll (m : Memory) (format : List Char) (args : List Datum) : Prop :=
  ∀ n < args.length, ∀ text, formatText m format (args.take n) ≠ .ok text

def doubled (text : String) : List Char :=
  text.toList.flatMap fun c => if c = '%' then ['%', '%'] else [c]

theorem exists_parts_aux (cs : List Char) :
    (cs.foldl (fun inside c => if inside then c = 'l' else c = '%') false = false →
      ∃ parts : List Part, cs = parts.flatMap Part.chars) ∧
    ∀ marks, cs.foldl (fun inside c => if inside then c = 'l' else c = '%') true = false →
      ∃ parts : List Part, '%' :: List.replicate marks 'l' ++ cs = parts.flatMap Part.chars := by
  -- the second half is about what stands behind a percent sign and marks that were read before
  induction cs with
  | nil => exact ⟨fun _ => ⟨[], rfl⟩, nofun⟩
  | cons c cs ih =>
    obtain ⟨hplain, hinside⟩ := ih
    constructor
    . intro h
      by_cases hc : c = '%'
      . subst hc
        exact hinside 0 h
      . obtain ⟨parts, rfl⟩ := hplain (by simpa [hc] using h)
        exact ⟨.plain c hc :: parts, rfl⟩
    . intro marks h
      by_cases hc : c = 'l'
      . subst hc
        obtain ⟨parts, hparts⟩ := hinside (marks + 1) h
        rw [List.replicate_succ'] at hparts
        exact ⟨parts, by simpa using hparts⟩
      . obtain ⟨parts, rfl⟩ := hplain (by simpa [hc] using h)
        exact ⟨.percent marks c hc :: parts, by simp [Part.chars]⟩

theorem exists_parts {format : List Char} (h : endsInside format = false) :
    ∃ parts : List Part, format = parts.flatMap Part.chars := by
  apply (exists_parts_aux format).1 h

variable {m : Memory}

theorem formatConversion_marks (m : Memory) (marks : Nat) (cs : List Char) (args : List Datum) :
    formatConversion m (List.replicate marks 'l' ++ cs) args = formatConversion m cs args := by
  induction marks with
  | zero => rfl
  | succ marks ih => simpa [List.replicate_succ, formatConversion] using ih

theorem formatText_part (m : Memory) (part : Part) (cs : List Char) (args : List Datum) :
    formatText m (part.chars ++ cs) args = (do
      let (text, args) ← part.format m args
      return text ++ (← formatText m cs args)) := by
  cases part with
  | plain c hc =>
    rw [Part.chars, List.singleton_append, formatText, if_neg hc]
    rfl
  | percent marks c hc =>
    have hmarks : formatText m ('%' :: List.replicate marks 'l' ++ [c] ++ cs) args =
        formatConversion m (c :: cs) args := by
      rw [List.append_assoc, List.cons_append, formatText, if_pos rfl, formatConversion_marks]
      rfl
    rw [Part.chars, hmarks, formatConversion, if_neg hc]
    simp only [Part.format, Part.kind?, Part.literal]
    split
    . next hpercent =>
      subst hpercent
      rfl
    . cases Conversion.ofChar? c with
      | none => rfl
      | some kind =>
        cases args with
        | nil => rfl
        | cons arg args =>
          dsimp only
          cases kind.render m arg <;> rfl

theorem formatText_parts (m : Memory) (parts : List Part) (cs : List Char) (args : List Datum) :
    formatText m (parts.flatMap Part.chars ++ cs) args = (do
      let (text, args) ← Part.formatAll m parts args
      return text ++ (← formatText m cs args)) := by
  induction parts generalizing args with
  | nil =>
    change formatText m cs args = (formatText m cs args).map ("" ++ ·)
    cases formatText m cs args <;> simp [Except.map]
  | cons part parts ih =>
    simp only [List.flatMap_cons, List.append_assoc, formatText_part, Part.formatAll, ih, bind_assoc,
      pure_bind, String.append_assoc]

namespace Part

theorem format_uses {part : Part} {args left : List Datum} {text : String}
    (h : part.format m args = .ok (text, left)) :
    ∃ used, args = used ++ left ∧ ∀ more, part.format m (used ++ more) = .ok (text, more) := by
  unfold format at *
  cases hkind : part.kind? with
  | none =>
    simp only [hkind] at h
    cases h
    exact ⟨[], rfl, fun _ => rfl⟩
  | some kind =>
    simp only [hkind] at h
    cases args with
    | nil => cases h
    | cons arg args =>
      obtain ⟨rendered, hrender, h⟩ := bind_eq_ok_iff.1 h
      cases h
      refine ⟨[arg], rfl, fun more => ?_⟩
      simp only [List.singleton_append, hrender]
      rfl

theorem formatAll_uses {parts : List Part} {args left : List Datum} {text : String}
    (h : formatAll m parts args = .ok (text, left)) :
    ∃ used, args = used ++ left ∧ ∀ more, formatAll m parts (used ++ more) = .ok (text, more) := by
  induction parts generalizing args text with
  | nil =>
    cases h
    exact ⟨[], rfl, fun _ => rfl⟩
  | cons part parts ih =>
    obtain ⟨⟨first, rest⟩, hpart, h⟩ := bind_eq_ok_iff.1 h
    obtain ⟨⟨last, _⟩, hparts, h⟩ := bind_eq_ok_iff.1 h
    cases h
    obtain ⟨used, rfl, hused⟩ := format_uses hpart
    obtain ⟨used', rfl, hused'⟩ := ih hparts
    refine ⟨used ++ used', (List.append_assoc ..).symm, fun more => ?_⟩
    rw [List.append_assoc, formatAll, hused]
    change formatAll m parts (used' ++ more) >>= _ = _
    rw [hused']
    rfl

end Part

theorem formatText_flatMap {parts : List Part} {args : List Datum} {text : String} :
    formatText m (parts.flatMap Part.chars) args = .ok text ↔
      ∃ left, Part.formatAll m parts args = .ok (text, left) := by
  have h := formatText_parts m parts [] args
  rw [List.append_nil] at h
  rw [h, bind_eq_ok_iff]
  simp [formatText, bind, Except.bind, pure, Except.pure]

theorem formatText_append {f g : List Char} {args more : List Datum} {first last : String}
    (hf : formatText m f args = .ok first) (hall : TakesAll m f args) (hinside : endsInside f = false)
    (hg : formatText m g more = .ok last) :
    formatText m (f ++ g) (args ++ more) = .ok (first ++ last) := by
  obtain ⟨parts, rfl⟩ := exists_parts hinside
  obtain ⟨left, hparts⟩ := formatText_flatMap.1 hf
  obtain ⟨used, rfl, hused⟩ := Part.formatAll_uses hparts
  have hfew : formatText m (parts.flatMap Part.chars) ((used ++ left).take used.length) =
      .ok first := by
    rw [List.take_left]
    apply formatText_flatMap.2
    exact ⟨[], by simpa using hused []⟩
  have hlength : ¬ used.length < (used ++ left).length := by
    intro hlt
    exact hall _ hlt _ hfew
  have hleft : left = [] := by
    apply List.eq_nil_of_length_eq_zero
    rw [List.length_append] at hlength
    omega
  subst hleft
  rw [List.append_nil, formatText_parts, hused]
  change (formatText m g more).map (first ++ ·) = _
  rw [hg]
  rfl

theorem formatText_doubled (m : Memory) (text : String) (args : List Datum) :
    formatText m (doubled text) args = .ok text := by
  unfold doubled
  rw [← @String.ofList_toList text, String.toList_ofList]
  induction text.toList with
  | nil => rfl
  | cons c cs ih =>
    have hpart : ∃ part : Part, part.chars = (if c = '%' then ['%', '%'] else [c]) ∧
        part.format m args = .ok (c.toString, args) := by
      by_cases hc : c = '%'
      . subst hc
        exact ⟨.percent 0 '%' (by decide), rfl, rfl⟩
      . exact ⟨.plain c hc, (if_neg hc).symm, rfl⟩
    obtain ⟨part, hchars, hformat⟩ := hpart
    rw [List.flatMap_cons, ← hchars, formatText_part, hformat]
    change (formatText m _ args).map (c.toString ++ ·) = _
    rw [ih]
    apply congrArg Except.ok
    apply String.toList_injective
    simp

section Writing

variable {f : Memory → List Datum → Except RunError (String × Int64)} {store after : Store}
  {args : List Datum}

theorem writing_eq_ok_iff {d : Datum} :
    writing f store args = (.ok d, after) ↔
      ∃ text v, f store.memory args = .ok (text, v) ∧ d = .int v ∧ after = store.write text := by
  unfold writing
  split
  . next text v h =>
    rw [Prod.mk.injEq, Except.ok.injEq]
    constructor
    . rintro ⟨rfl, rfl⟩
      exact ⟨text, v, h, rfl, rfl⟩
    . rintro ⟨text', v', h', rfl, rfl⟩
      cases h.symm.trans h'
      exact ⟨rfl, rfl⟩
  . next e h => simp [h]

theorem writing_error {e : RunError} (h : writing f store args = (.error e, after)) :
    after = store := by
  unfold writing at h
  split at h
  . cases h
  . cases h
    rfl

end Writing

theorem pointerArg_zero {host : String} {args : List Datum} {p : Pointer} :
    pointerArg host args 0 = .ok p ↔ ∃ rest, args = .pointer p :: rest := by
  unfold pointerArg
  cases args with
  | nil => simp
  | cons d rest => cases d <;> simp

theorem printf_eq_ok_iff {store after : Store} {args : List Datum} {d : Datum} :
    printf store args = (.ok d, after) ↔
      ∃ p rest format text, args = .pointer p :: rest ∧ store.memory.readText p = .ok format ∧
        formatText store.memory format.toList rest = .ok text ∧
        d = .int (Int64.ofNat text.utf8ByteSize) ∧ after = store.write text := by
  unfold printf
  simp only [writing_eq_ok_iff, bind_eq_ok_iff, pointerArg_zero]
  constructor
  . rintro ⟨text, v, ⟨p, ⟨rest, rfl⟩, format, hformat, _, htext, hpure⟩, rfl, rfl⟩
    cases hpure
    exact ⟨p, rest, format, text, rfl, hformat, htext, rfl, rfl⟩
  . rintro ⟨p, rest, format, text, rfl, hformat, htext, rfl, rfl⟩
    exact ⟨text, _, ⟨p, ⟨rest, rfl⟩, format, hformat, text, htext, rfl⟩, rfl, rfl⟩

/--
Formats can be joined. If the first one gives a text, does so with no fewer arguments and does not end
in the middle of a conversion, and the second one gives a text with further arguments, then both
together give the one text and the other behind it. A text whose percent signs are doubled is a format
of itself. `printf` writes what its format and its further arguments give and returns the length of
that in bytes; if there is no such text, it fails and changes nothing.
-/
theorem formatting_composes (store : Store) :
    (∀ (f g : String) (args more : List Datum) (first last : String),
      formatText store.memory f.toList args = .ok first → TakesAll store.memory f.toList args →
      endsInside f.toList = false → formatText store.memory g.toList more = .ok last →
      formatText store.memory (f ++ g).toList (args ++ more) = .ok (first ++ last)) ∧
    (∀ text, formatText store.memory (doubled text) [] = .ok text) ∧
    ∀ args, (∀ d after, printf store args = (.ok d, after) ↔
        ∃ p rest format text, args = .pointer p :: rest ∧ store.memory.readText p = .ok format ∧
          formatText store.memory format.toList rest = .ok text ∧
          d = .int (Int64.ofNat text.utf8ByteSize) ∧
          after = { store with output := store.output ++ text }) ∧
      ∀ e after, printf store args = (.error e, after) → after = store := by
  refine ⟨?_, fun text => formatText_doubled _ text [], ?_⟩
  . intro f g args more first last hf hall hinside hg
    rw [String.toList_append]
    exact formatText_append hf hall hinside hg
  . intro args
    exact ⟨fun d after => printf_eq_ok_iff, fun e after => writing_error⟩

def greeting : Store := { memory := ⟨#[some [.int 104, .int 105, .int 0]]⟩, output := "> " }

theorem greeting_readText : greeting.memory.readText (.memory 0 [0]) = .ok "hi" := by
  apply (Memory.readText_eq_ok_iff _ _ _).2
  exact ⟨_, 0, [104, 105], .allocation 0 rfl, by decide, ⟨by decide, [], rfl⟩, by decide⟩

theorem greeting_composes :
    formatText greeting.memory ("%ld%%:" ++ " %s%q").toList
        ([.int 5] ++ [.pointer (.memory 0 [0])]) = .ok ("5%:" ++ " hi%q") ∧
      formatText greeting.memory (doubled "100%") [] = .ok "100%" ∧
      printf greeting [.pointer (.memory 0 [0])] =
        (.ok (.int 2), { greeting with output := "> hi" }) := by
  obtain ⟨hjoin, hdoubled, hprintf⟩ := formatting_composes greeting
  refine ⟨?_, hdoubled "100%", ?_⟩
  . apply hjoin
    . rfl
    . intro n hn text
      obtain rfl : n = 0 := by simpa using hn
      intro h
      cases h
    . decide
    . simp [formatText, formatConversion, Conversion.ofChar?, Conversion.render, greeting_readText,
        bind, Except.bind, pure, Except.pure]
  . apply ((hprintf _).1 _ _).2
    exact ⟨_, [], "hi", "hi", rfl, greeting_readText, rfl, rfl, rfl⟩

end ScriptedIR.Host
