import ScriptedIR.Module
import ScriptedIR.Proofs.Lookup

/-!
Linking of modules. A name has at most one definition among all that is linked, or the link fails.
If it succeeds, what is found under a name is the definition of either module before any declaration
of it. So the order in which modules are linked into another one does not matter to the definitions.
-/

namespace ScriptedIR

namespace Module

section Symbols

variable {α : Type} {name : α → String} {isDeclaration : α → Bool} {new : α}
variable {news symbols linked : List α} {n : String}

def definition? (name : α → String) (isDeclaration : α → Bool) (symbols : List α) (n : String) :
    Option α :=
  (symbols.find? (name · = n)).filter (!isDeclaration ·)

def definitions (name : α → String) (isDeclaration : α → Bool) (symbols : List α) (n : String) :
    List α :=
  symbols.filter fun s => name s = n && !isDeclaration s

/--
What counts of the things found under one name in two places: a definition before a declaration, and
the first place before the second.
-/
def resolve (isDeclaration : α → Bool) (first second : Option α) : Option α :=
  first.filter (!isDeclaration ·) <|> second.filter (!isDeclaration ·) <|> first <|> second

theorem resolve_none_left (isDeclaration : α → Bool) (second : Option α) :
    resolve isDeclaration none second = second := by
  cases second with
  | none => rfl
  | some a => cases h : isDeclaration a <;> simp [resolve, Option.filter, h]

theorem resolve_none_right (isDeclaration : α → Bool) (first : Option α) :
    resolve isDeclaration first none = first := by
  cases first with
  | none => rfl
  | some a => cases h : isDeclaration a <;> simp [resolve, Option.filter, h]

theorem filter_resolve (isDeclaration : α → Bool) (first second : Option α) :
    (resolve isDeclaration first second).filter (!isDeclaration ·) =
      (first.filter (!isDeclaration ·) <|> second.filter (!isDeclaration ·)) := by
  cases first with
  | none => simp [resolve_none_left]
  | some a =>
    cases second with
    | none => simp [resolve_none_right]
    | some b =>
      cases ha : isDeclaration a <;> cases hb : isDeclaration b <;>
        simp [resolve, Option.filter, ha, hb]

theorem find?_singleton (name : α → String) (new : α) (n : String) :
    [new].find? (name · = n) = if name new = n then some new else none := by
  by_cases h : name new = n <;> simp [h]

theorem find?_linkSymbol (h : linkSymbol name isDeclaration new symbols = .ok linked) (n : String) :
    linked.find? (name · = n) =
      resolve isDeclaration (symbols.find? (name · = n)) ([new].find? (name · = n)) := by
  rw [find?_singleton]
  unfold linkSymbol at h
  split at h
  . next hnone =>
    cases h
    rw [List.find?_append, find?_singleton]
    split
    . next hn => rw [← hn, hnone, resolve_none_left, Option.none_or]
    . rw [resolve_none_right, Option.or_none]
  . next old hold =>
    split at h
    . next hnew =>
      cases h
      split
      . next hn =>
        rw [← hn, hold]
        cases hd : isDeclaration old <;> simp [resolve, Option.filter, hnew, hd]
      . rw [resolve_none_right]
    . next hnew =>
      split at h
      . next hd =>
        cases h
        rw [find?_modifyFirst fun _ _ => rfl]
        split
        . next hn =>
          rw [hn, hold, if_pos rfl]
          simp [resolve, Option.filter, hnew, hd]
        . next hn => rw [if_neg (Ne.symm hn), resolve_none_right]
      . cases h

theorem linkSymbol_names (h : linkSymbol name isDeclaration new symbols = .ok linked)
    (hnodup : (symbols.map name).Nodup) : (linked.map name).Nodup := by
  unfold linkSymbol at h
  split at h
  . next hnone =>
    cases h
    exact nodup_key_concat hnodup hnone
  . split at h
    . cases h
      exact hnodup
    . split at h
      . cases h
        rwa [map_key_modifyFirst]
        intro a ha
        exact (of_decide_eq_true ha).symm
      . cases h

theorem mem_of_mem_linkSymbol {a : α} (h : linkSymbol name isDeclaration new symbols = .ok linked)
    (ha : a ∈ linked) : a ∈ symbols ∨ a = new := by
  unfold linkSymbol at h
  split at h
  . cases h
    simpa using ha
  . split at h
    . cases h
      exact .inl ha
    . split at h
      . cases h
        rcases of_mem_modifyFirst ha with ha | ⟨b, -, -, rfl⟩
        . exact .inl ha
        . exact .inr rfl
      . cases h

theorem linkSymbol_ok_iff :
    (∃ linked, linkSymbol name isDeclaration new symbols = .ok linked) ↔
      isDeclaration new = true ∨ definition? name isDeclaration symbols (name new) = none := by
  unfold linkSymbol definition?
  cases hold : symbols.find? (name · = name new) with
  | none => simp
  | some old =>
    cases hnew : isDeclaration new <;> cases hd : isDeclaration old <;>
      simp [Option.filter, hd]

theorem toList_definition?_linkSymbol
    (h : linkSymbol name isDeclaration new symbols = .ok linked) (n : String) :
    (definition? name isDeclaration linked n).toList =
      (definition? name isDeclaration symbols n).toList ++
        definitions name isDeclaration [new] n := by
  have hok := linkSymbol_ok_iff.1 ⟨linked, h⟩
  have hlinked : definition? name isDeclaration linked n =
      (definition? name isDeclaration symbols n <|>
        definition? name isDeclaration [new] n) := by
    unfold definition?
    rw [find?_linkSymbol h, filter_resolve]
  rw [hlinked]
  by_cases hn : name new = n
  . cases hnew : isDeclaration new with
    | true => simp [definition?, definitions, Option.filter, hn, hnew]
    | false =>
      rw [hnew, hn] at hok
      have hnone := hok.resolve_left Bool.false_ne_true
      rw [hnone]
      simp [definition?, definitions, Option.filter, hn, hnew]
  . simp [definition?, definitions, hn]

theorem linkSymbols_cons (h : linkSymbol name isDeclaration new symbols = .ok linked) :
    linkSymbols name isDeclaration (new :: news) symbols =
      linkSymbols name isDeclaration news linked := by
  rw [linkSymbols, h]

theorem linkSymbols_cons_ok
    (h : (linkSymbols name isDeclaration (new :: news) symbols).1 = .ok ()) :
    ∃ linked, linkSymbol name isDeclaration new symbols = .ok linked := by
  rw [linkSymbols] at h
  split at h
  . next linked hlinked => exact ⟨linked, hlinked⟩
  . cases h

theorem toList_definition?_linkSymbols
    (h : (linkSymbols name isDeclaration news symbols).1 = .ok ()) (n : String) :
    (definition? name isDeclaration (linkSymbols name isDeclaration news symbols).2 n).toList =
      (definition? name isDeclaration symbols n).toList ++
        definitions name isDeclaration news n := by
  induction news generalizing symbols with
  | nil => simp [linkSymbols, definitions]
  | cons new news ih =>
    obtain ⟨linked, hlinked⟩ := linkSymbols_cons_ok h
    rw [linkSymbols_cons hlinked] at h ⊢
    rw [ih h, toList_definition?_linkSymbol hlinked, List.append_assoc]
    unfold definitions
    rw [← List.filter_append, List.singleton_append]

theorem linkSymbols_ok_iff :
    (linkSymbols name isDeclaration news symbols).1 = .ok () ↔
      ∀ n, ((definition? name isDeclaration symbols n).toList ++
        definitions name isDeclaration news n).length ≤ 1 := by
  constructor
  . intro h n
    rw [← toList_definition?_linkSymbols h]
    exact Option.length_toList_le
  . intro h
    induction news generalizing symbols with
    | nil => rfl
    | cons new news ih =>
      have hok : ∃ linked, linkSymbol name isDeclaration new symbols = .ok linked := by
        rw [linkSymbol_ok_iff]
        cases hnew : isDeclaration new with
        | true => exact .inl rfl
        | false =>
          have hone := h (name new)
          rw [definitions, List.filter_cons_of_pos (by simp [hnew]), List.length_append,
            List.length_cons] at hone
          right
          rw [← Option.toList_eq_nil_iff, ← List.length_eq_zero_iff]
          omega
      obtain ⟨linked, hlinked⟩ := hok
      rw [linkSymbols_cons hlinked]
      apply ih
      intro n
      have hn := h n
      rw [toList_definition?_linkSymbol hlinked, List.append_assoc]
      unfold definitions at hn ⊢
      rwa [← List.filter_append, List.singleton_append]

theorem find?_linkSymbols (h : (linkSymbols name isDeclaration news symbols).1 = .ok ())
    (hnodup : (news.map name).Nodup) (n : String) :
    (linkSymbols name isDeclaration news symbols).2.find? (name · = n) =
      resolve isDeclaration (symbols.find? (name · = n)) (news.find? (name · = n)) := by
  induction news generalizing symbols with
  | nil => rw [List.find?_nil, resolve_none_right, linkSymbols]
  | cons new news ih =>
    rw [List.map_cons, List.nodup_cons] at hnodup
    obtain ⟨linked, hlinked⟩ := linkSymbols_cons_ok h
    rw [linkSymbols_cons hlinked] at h ⊢
    rw [ih h hnodup.2, find?_linkSymbol hlinked, find?_singleton]
    split
    . next hn =>
      have hnone : news.find? (name · = n) = none := by
        rw [find?_key_eq_none_iff, ← hn]
        exact hnodup.1
      rw [hnone, resolve_none_right, List.find?_cons_of_pos (by simpa using hn)]
    . next hn => rw [resolve_none_right, List.find?_cons_of_neg (by simpa using hn)]

theorem linkSymbols_names (hnodup : (symbols.map name).Nodup) (news : List α) :
    ((linkSymbols name isDeclaration news symbols).2.map name).Nodup := by
  induction news generalizing symbols with
  | nil => exact hnodup
  | cons new news ih =>
    rw [linkSymbols]
    split
    . next hlinked => exact ih (linkSymbol_names hlinked hnodup)
    . exact hnodup

theorem mem_of_mem_linkSymbols {a : α}
    (h : a ∈ (linkSymbols name isDeclaration news symbols).2) : a ∈ symbols ∨ a ∈ news := by
  induction news generalizing symbols with
  | nil => exact .inl h
  | cons new news ih =>
    rw [linkSymbols] at h
    split at h
    . next hlinked =>
      rcases ih h with h | h
      . rcases mem_of_mem_linkSymbol hlinked h with h | rfl
        . exact .inl h
        . exact .inr List.mem_cons_self
      . exact .inr (List.mem_cons_of_mem _ h)
    . exact .inl h

theorem linkSymbols_swap_ok {others : List α}
    (h : (linkSymbols name isDeclaration news symbols).1 = .ok ())
    (h' : (linkSymbols name isDeclaration others
      (linkSymbols name isDeclaration news symbols).2).1 = .ok ()) :
    (linkSymbols name isDeclaration others symbols).1 = .ok () ∧
      (linkSymbols name isDeclaration news
        (linkSymbols name isDeclaration others symbols).2).1 = .ok () := by
  rw [linkSymbols_ok_iff] at h'
  simp only [toList_definition?_linkSymbols h, List.length_append] at h'
  have hothers : (linkSymbols name isDeclaration others symbols).1 = .ok () := by
    rw [linkSymbols_ok_iff]
    intro n
    have hn := h' n
    rw [List.length_append]
    omega
  refine ⟨hothers, ?_⟩
  rw [linkSymbols_ok_iff]
  intro n
  have hn := h' n
  rw [toList_definition?_linkSymbols hothers]
  simp only [List.length_append]
  omega

theorem definition?_linkSymbols_swap {others : List α}
    (h : (linkSymbols name isDeclaration news symbols).1 = .ok ())
    (h' : (linkSymbols name isDeclaration others
      (linkSymbols name isDeclaration news symbols).2).1 = .ok ()) (n : String) :
    definition? name isDeclaration (linkSymbols name isDeclaration others
        (linkSymbols name isDeclaration news symbols).2).2 n =
      definition? name isDeclaration (linkSymbols name isDeclaration news
        (linkSymbols name isDeclaration others symbols).2).2 n := by
  obtain ⟨hothers, hnews⟩ := linkSymbols_swap_ok h h'
  have hone := linkSymbols_ok_iff.1 h' n
  have hlists : (definition? name isDeclaration (linkSymbols name isDeclaration others
        (linkSymbols name isDeclaration news symbols).2).2 n).toList =
      (definition? name isDeclaration (linkSymbols name isDeclaration news
        (linkSymbols name isDeclaration others symbols).2).2 n).toList := by
    rw [toList_definition?_linkSymbols h', toList_definition?_linkSymbols hnews,
      toList_definition?_linkSymbols hothers, toList_definition?_linkSymbols h,
      List.append_assoc, List.append_assoc]
    rw [toList_definition?_linkSymbols h] at hone
    simp only [List.length_append] at hone
    congr 1
    rcases Nat.eq_zero_or_pos (definitions name isDeclaration news n).length with hnil | hpos
    . rw [List.length_eq_zero_iff.1 hnil, List.append_nil, List.nil_append]
    . have hnil : (definitions name isDeclaration others n).length = 0 := by omega
      rw [List.length_eq_zero_iff.1 hnil, List.append_nil, List.nil_append]
  simpa using congrArg List.head? hlists

theorem find?_linkSymbol_cases (h : linkSymbol name isDeclaration new symbols = .ok linked)
    (n : String) :
    linked.find? (name · = n) = symbols.find? (name · = n) ∨
      definition? name isDeclaration symbols n = none ∧ name new = n ∧
        linked.find? (name · = n) = some new := by
  have hfind := find?_linkSymbol h n
  rw [find?_singleton] at hfind
  split at hfind
  . next hn =>
    cases hold : symbols.find? (name · = n) with
    | none =>
      rw [hold, resolve_none_left] at hfind
      exact .inr ⟨by simp [definition?, hold], hn, hfind⟩
    | some old =>
      rw [hold] at hfind
      cases hd : isDeclaration old <;> cases hnew : isDeclaration new <;>
        simp [resolve, definition?, Option.filter, hold, hd, hnew, hn] at hfind ⊢
      all_goals simp [hfind]
  . rw [resolve_none_right] at hfind
    exact .inl hfind

theorem find?_linkSymbols_cases (news symbols : List α) (n : String) :
    (linkSymbols name isDeclaration news symbols).2.find? (name · = n) =
        symbols.find? (name · = n) ∨
      definition? name isDeclaration symbols n = none ∧ ∃ s ∈ news, name s = n ∧
        (linkSymbols name isDeclaration news symbols).2.find? (name · = n) = some s := by
  induction news generalizing symbols with
  | nil => exact .inl rfl
  | cons new news ih =>
    cases hlinked : linkSymbol name isDeclaration new symbols with
    | error e => exact .inl (by rw [linkSymbols, hlinked])
    | ok linked =>
      rw [linkSymbols_cons hlinked]
      rcases ih linked with hsame | ⟨hnone, s, hs, hname, hfound⟩
      . rw [hsame]
        rcases find?_linkSymbol_cases hlinked n with hsame' | ⟨hnone, hname, hfound⟩
        . exact .inl hsame'
        . exact .inr ⟨hnone, new, List.mem_cons_self, hname, hfound⟩
      . refine .inr ⟨?_, s, List.mem_cons_of_mem _ hs, hname, hfound⟩
        rcases find?_linkSymbol_cases hlinked n with hsame | ⟨hnone', -⟩
        . unfold definition? at hnone ⊢
          rwa [← hsame]
        . exact hnone'

theorem definitions_eq_toList (h : (symbols.map name).Nodup) (n : String) :
    definitions name isDeclaration symbols n =
      (definition? name isDeclaration symbols n).toList := by
  induction symbols with
  | nil => rfl
  | cons s symbols ih =>
    rw [List.map_cons, List.nodup_cons] at h
    unfold definitions definition? at *
    by_cases hs : name s = n
    . have hothers : symbols.filter (fun t => name t = n && !isDeclaration t) = [] := by
        rw [List.filter_eq_nil_iff]
        intro t ht htn
        have hname : name t = n := by simp at htn; exact htn.1
        exact h.1 (List.mem_map.2 ⟨t, ht, hname.trans hs.symm⟩)
      rw [List.find?_cons_of_pos (by simpa using hs)]
      cases hd : isDeclaration s <;> simp [Option.filter, hs, hd, hothers]
    . rw [List.find?_cons_of_neg (by simpa using hs), List.filter_cons_of_neg (by simp [hs]),
        ih h.2]

theorem linkSymbols_ok_iff_of_nodup (hs : (symbols.map name).Nodup) (hn : (news.map name).Nodup) :
    (linkSymbols name isDeclaration news symbols).1 = .ok () ↔
      ∀ s ∈ symbols, ∀ t ∈ news, name s = name t →
        isDeclaration s = true ∨ isDeclaration t = true := by
  rw [linkSymbols_ok_iff]
  constructor
  . intro h s hmem t hmem' hname
    cases hd : isDeclaration s with
    | true => exact .inl rfl
    | false =>
      cases hd' : isDeclaration t with
      | true => exact .inr rfl
      | false =>
        have hone := h (name t)
        have hfound := (find?_key_eq_some_iff hs).2 ⟨hmem, hname⟩
        have hfound' := (find?_key_eq_some_iff hn).2 ⟨hmem', rfl⟩
        rw [definitions_eq_toList hn] at hone
        simp [definition?, hfound, hfound', Option.filter, hd, hd'] at hone
  . intro h n
    rw [definitions_eq_toList hn]
    cases hs' : definition? name isDeclaration symbols n with
    | none => exact Option.length_toList_le
    | some s =>
      cases hn' : definition? name isDeclaration news n with
      | none => exact Nat.le_refl 1
      | some t =>
        unfold definition? at hs' hn'
        obtain ⟨hfound, hd⟩ := Option.filter_eq_some_iff.1 hs'
        obtain ⟨hfound', hd'⟩ := Option.filter_eq_some_iff.1 hn'
        obtain ⟨hmem, hname⟩ := (find?_key_eq_some_iff hs).1 hfound
        obtain ⟨hmem', hname'⟩ := (find?_key_eq_some_iff hn).1 hfound'
        have := h s hmem t hmem' (hname.trans hname'.symm)
        simp_all

end Symbols

structure Unambiguous (m : Module) : Prop where
  functions : (m.functions.map Function.name).Nodup
  globals : (m.globals.map Global.name).Nodup

def functionDefinition? (m : Module) (n : String) : Option Function :=
  (m.function? n).filter (!·.isDeclaration)

def globalDefinition? (m : Module) (n : String) : Option Global :=
  (m.global? n).filter (!·.isDeclaration)

def Links (m other : Module) : Prop := (m.link other).1 = .ok ()

def linked (m other : Module) : Module := (m.link other).2

section Link

variable {m other : Module}

theorem links_iff :
    m.Links other ↔
      (linkSymbols Function.name Function.isDeclaration other.functions m.functions).1 = .ok () ∧
      (linkSymbols Global.name Global.isDeclaration other.globals m.globals).1 = .ok () := by
  unfold Links link
  split
  . next h => simp [h]
  . next h =>
    split
    . next h' => simp [h, h']
    . next h' => simp [h, h']

-- Functions come first, so that they are linked as far as possible in any case.
theorem functions_linked :
    (m.linked other).functions =
      (linkSymbols Function.name Function.isDeclaration other.functions m.functions).2 := by
  unfold linked link
  split
  . next hf => rw [hf]
  . next hf =>
    rw [hf]
    split
    . rfl
    . rfl

theorem globals_linked (h : m.Links other) :
    (m.linked other).globals =
      (linkSymbols Global.name Global.isDeclaration other.globals m.globals).2 := by
  obtain ⟨hf, -⟩ := links_iff.1 h
  unfold linked link
  split
  . next hf' => rw [hf'] at hf; cases hf
  . split
    . next hg => rw [hg]
    . next hg => rw [hg]

-- A conflict of functions leaves the globals alone.
theorem globals_linked_cases :
    (m.linked other).globals = m.globals ∨
      (m.linked other).globals =
        (linkSymbols Global.name Global.isDeclaration other.globals m.globals).2 := by
  unfold linked link
  split
  . exact .inl rfl
  . split
    . next hg => rw [hg]; exact .inr rfl
    . next hg => rw [hg]; exact .inr rfl

theorem strings_linked : (m.linked other).strings = m.strings := by
  unfold linked link
  repeat' split
  all_goals rfl

theorem name_linked : (m.linked other).name = m.name := by
  unfold linked link
  repeat' split
  all_goals rfl

theorem function?_linked_cases (n : String) :
    (m.linked other).function? n = m.function? n ∨
      m.functionDefinition? n = none ∧ ∃ f ∈ other.functions, f.name = n ∧
        (m.linked other).function? n = some f := by
  unfold function? functionDefinition?
  rw [functions_linked]
  exact find?_linkSymbols_cases other.functions m.functions n

theorem global?_linked_cases (n : String) :
    (m.linked other).global? n = m.global? n ∨
      m.globalDefinition? n = none ∧ ∃ g ∈ other.globals, g.name = n ∧
        (m.linked other).global? n = some g := by
  unfold global? globalDefinition?
  rcases globals_linked_cases with hsame | hlinked
  . exact .inl (by rw [hsame])
  . rw [hlinked]
    exact find?_linkSymbols_cases other.globals m.globals n

theorem Unambiguous.links_iff (hm : m.Unambiguous) (hother : other.Unambiguous) :
    m.Links other ↔
      (∀ f ∈ m.functions, ∀ g ∈ other.functions, f.name = g.name →
        f.isDeclaration = true ∨ g.isDeclaration = true) ∧
      ∀ f ∈ m.globals, ∀ g ∈ other.globals, f.name = g.name →
        f.isDeclaration = true ∨ g.isDeclaration = true := by
  rw [Module.links_iff, linkSymbols_ok_iff_of_nodup hm.functions hother.functions,
    linkSymbols_ok_iff_of_nodup hm.globals hother.globals]

theorem Unambiguous.linked (hm : m.Unambiguous) (h : m.Links other) :
    (m.linked other).Unambiguous := by
  constructor
  . rw [functions_linked]
    exact linkSymbols_names hm.functions _
  . rw [globals_linked h]
    exact linkSymbols_names hm.globals _

theorem function?_linked (hother : other.Unambiguous) (h : m.Links other) (n : String) :
    (m.linked other).function? n =
      resolve Function.isDeclaration (m.function? n) (other.function? n) := by
  unfold function?
  rw [functions_linked]
  exact find?_linkSymbols (links_iff.1 h).1 hother.functions n

theorem global?_linked (hother : other.Unambiguous) (h : m.Links other) (n : String) :
    (m.linked other).global? n =
      resolve Global.isDeclaration (m.global? n) (other.global? n) := by
  unfold global?
  rw [globals_linked h]
  exact find?_linkSymbols (links_iff.1 h).2 hother.globals n

variable {third : Module}

theorem Links.swap (h : m.Links other) (h' : (m.linked other).Links third) :
    m.Links third ∧ (m.linked third).Links other := by
  have h'' := links_iff.1 h'
  rw [functions_linked, globals_linked h] at h''
  obtain ⟨hf, hf'⟩ := linkSymbols_swap_ok (links_iff.1 h).1 h''.1
  obtain ⟨hg, hg'⟩ := linkSymbols_swap_ok (links_iff.1 h).2 h''.2
  have hthird : m.Links third := links_iff.2 ⟨hf, hg⟩
  refine ⟨hthird, links_iff.2 ?_⟩
  rw [functions_linked, globals_linked hthird]
  exact ⟨hf', hg'⟩

theorem functionDefinition?_swap (h : m.Links other) (h' : (m.linked other).Links third)
    (n : String) :
    ((m.linked other).linked third).functionDefinition? n =
      ((m.linked third).linked other).functionDefinition? n := by
  have hf := (links_iff.1 h').1
  rw [functions_linked] at hf
  have hswap := definition?_linkSymbols_swap (links_iff.1 h).1 hf n
  unfold definition? at hswap
  unfold functionDefinition? function?
  simpa only [functions_linked] using hswap

theorem globalDefinition?_swap (h : m.Links other) (h' : (m.linked other).Links third)
    (n : String) :
    ((m.linked other).linked third).globalDefinition? n =
      ((m.linked third).linked other).globalDefinition? n := by
  obtain ⟨hthird, hother⟩ := h.swap h'
  have hg := (links_iff.1 h').2
  rw [globals_linked h] at hg
  have hswap := definition?_linkSymbols_swap (links_iff.1 h).2 hg n
  unfold definition? at hswap
  unfold globalDefinition? global?
  rw [globals_linked h', globals_linked h, globals_linked hother, globals_linked hthird]
  exact hswap

end Link

/--
Two modules link unless a function is defined in both or a global is initialized in both. Names stay
distinct then, and what is found under a name is the definition in the first module, or in the
second, or else the declaration in the first one, or in the second. So two modules can be linked
into a third one in either order, and every name has the same definition in the end.
-/
theorem link_resolves {a b : Module} (ha : a.Unambiguous) (hb : b.Unambiguous) :
    (a.Links b ↔
      (∀ f ∈ a.functions, ∀ g ∈ b.functions, f.name = g.name →
        f.isDeclaration = true ∨ g.isDeclaration = true) ∧
      ∀ f ∈ a.globals, ∀ g ∈ b.globals, f.name = g.name →
        f.isDeclaration = true ∨ g.isDeclaration = true) ∧
    (a.Links b → (a.linked b).Unambiguous ∧ ∀ n,
      (a.linked b).function? n =
        (a.functionDefinition? n <|> b.functionDefinition? n <|> a.function? n <|> b.function? n) ∧
      (a.linked b).global? n =
        (a.globalDefinition? n <|> b.globalDefinition? n <|> a.global? n <|> b.global? n)) ∧
    ∀ c : Module,
      (a.Links b ∧ (a.linked b).Links c ↔ a.Links c ∧ (a.linked c).Links b) ∧
      (a.Links b → (a.linked b).Links c → ∀ n,
        ((a.linked b).linked c).functionDefinition? n =
          ((a.linked c).linked b).functionDefinition? n ∧
        ((a.linked b).linked c).globalDefinition? n =
          ((a.linked c).linked b).globalDefinition? n) := by
  refine ⟨ha.links_iff hb, ?_, ?_⟩
  . intro h
    exact ⟨ha.linked h, fun n => ⟨function?_linked hb h n, global?_linked hb h n⟩⟩
  . intro c
    refine ⟨⟨fun h => h.1.swap h.2, fun h => h.1.swap h.2⟩, ?_⟩
    intro h h' n
    exact ⟨functionDefinition?_swap h h' n, globalDefinition?_swap h h' n⟩

def trivialFunction (name : String) : Function :=
  { name, result := .void, params := [], variadic := false, blocks := [⟨0, "entry", [.ret none]⟩] }

def user : Module :=
  { name := "user"
    functions := [{ trivialFunction "f" with blocks := [] }, trivialFunction "g"]
    globals := [{ name := "v", ty := .i32, initializer := none }] }

def provider : Module :=
  { name := "provider"
    functions := [{ trivialFunction "g" with blocks := [] }, trivialFunction "f"]
    globals := [{ name := "v", ty := .i32, initializer := some (.ofInt .i32 7) }] }

theorem user_resolves :
    user.Links provider ∧
    (user.linked provider).function? "f" = some (trivialFunction "f") ∧
    (user.linked provider).function? "g" = some (trivialFunction "g") ∧
    (user.linked provider).global? "v" = provider.global? "v" ∧
    ¬(user.Links user) ∧
    (user.Links user ∧ (user.linked user).Links provider ↔
      user.Links provider ∧ (user.linked provider).Links user) := by
  have huser : user.Unambiguous := ⟨by decide, by decide⟩
  have hprovider : provider.Unambiguous := ⟨by decide, by decide⟩
  obtain ⟨hiff, hfound, hswap⟩ := link_resolves huser hprovider
  have hlinks : user.Links provider := hiff.2
    ⟨by simp [user, provider, trivialFunction, Function.isDeclaration],
      by simp [user, provider, Global.isDeclaration]⟩
  obtain ⟨-, hfound⟩ := hfound hlinks
  refine ⟨hlinks, (hfound "f").1, (hfound "g").1, (hfound "v").2, ?_, (hswap user).1.symm⟩
  rw [(link_resolves huser huser).1]
  intro h
  have := h.1 (trivialFunction "g") (by simp [user]) (trivialFunction "g") (by simp [user]) rfl
  simp [trivialFunction, Function.isDeclaration] at this

end Module

end ScriptedIR
