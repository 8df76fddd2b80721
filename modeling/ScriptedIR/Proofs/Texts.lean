import ScriptedIR.Proofs.Conversion
import ScriptedIR.Proofs.Interning

/-!
What conversion does to a module. Whether it succeeds or fails, all that is new in the module are
private globals with texts of the operand, one for each text that the module did not have before.
-/

namespace ScriptedIR

theorem Constant.ofByte_injective : Function.Injective Constant.ofByte := by
  intro a b h
  have hwords : a.toInt8.toInt64 = b.toInt8.toInt64 := (Constant.int.inj h).2
  rw [← a.toUInt8_toInt8, ← b.toUInt8_toInt8, ← a.toInt8.toInt8_toInt64, hwords,
    Int8.toInt8_toInt64]

namespace Global

theorem StoresText.unique {g : Global} {t u : String} (ht : g.StoresText t) (hu : g.StoresText u) :
    t = u := by
  have hbytes := (Constant.array.inj (Option.some.inj (ht.initializer.symm.trans hu.initializer))).2
  have hlists := List.append_cancel_right (Constant.ofByte_injective.list_map hbytes)
  exact String.toByteArray_inj.1 (ByteArray.ext (Array.toList_inj.1 hlists))

structure KeepsText (g : Global) (t : String) : Prop where
  isPrivate : g.linkage = .hidden
  isConstant : g.isConstant = true
  stores : g.StoresText t

theorem KeepsText.of_mem {g : Global} {gs : List Global} {ts : List String}
    (h : List.Forall₂ KeepsText gs ts) (hg : g ∈ gs) : ∃ t ∈ ts, g.KeepsText t := by
  induction h with
  | nil => cases hg
  | cons hfirst _ ih =>
    rcases List.mem_cons.1 hg with rfl | hg
    . exact ⟨_, List.mem_cons_self, hfirst⟩
    . obtain ⟨t, ht, hkeeps⟩ := ih hg
      exact ⟨t, List.mem_cons_of_mem _ ht, hkeeps⟩

end Global

namespace Module

def interned? (m : Module) (t : String) : Option Global := m.strings[t]?.bind m.global?

/--
A module that has gained globals for texts that were not interned, and nothing else.
-/
structure Gains (m : Module) (fresh : List String) (m' : Module) : Prop where
  name : m'.name = m.name
  functions : m'.functions = m.functions
  typeDefinitions : m'.typeDefinitions = m.typeDefinitions
  globals : ∃ added, m'.globals = m.globals ++ added ∧ List.Forall₂ Global.KeepsText added fresh
  nodup : fresh.Nodup
  unknown : ∀ t ∈ fresh, m.interned? t = none
  known : ∀ t ∈ fresh, m'.interned? t ≠ none
  kept : ∀ t g, m.interned? t = some g → m'.interned? t = some g
  unchanged : fresh = [] → m' = m

namespace Gains

variable {m m' m'' : Module} {fresh more : List String}

theorem refl (m : Module) : Gains m [] m where
  name := rfl
  functions := rfl
  typeDefinitions := rfl
  globals := ⟨[], by simp, .nil⟩
  nodup := .nil
  unknown := by simp
  known := by simp
  kept _ _ := id
  unchanged _ := rfl

theorem trans (h : Gains m fresh m') (h' : Gains m' more m'') : Gains m (fresh ++ more) m'' where
  name := h'.name.trans h.name
  functions := h'.functions.trans h.functions
  typeDefinitions := h'.typeDefinitions.trans h.typeDefinitions
  globals := by
    obtain ⟨added, hglobals, htexts⟩ := h.globals
    obtain ⟨added', hglobals', htexts'⟩ := h'.globals
    refine ⟨added ++ added', ?_, List.rel_append htexts htexts'⟩
    rw [hglobals', hglobals, List.append_assoc]
  nodup := by
    refine List.nodup_append.2 ⟨h.nodup, h'.nodup, ?_⟩
    rintro t ht _ ht' rfl
    exact h.known t ht (h'.unknown t ht')
  unknown := by
    intro t ht
    rcases List.mem_append.1 ht with ht | ht
    . exact h.unknown t ht
    . cases hknown : m.interned? t with
      | none => rfl
      | some g =>
        have hnone := h'.unknown t ht
        rw [h.kept t g hknown] at hnone
        cases hnone
  known := by
    intro t ht
    rcases List.mem_append.1 ht with ht | ht
    . obtain ⟨g, hg⟩ := Option.ne_none_iff_exists'.1 (h.known t ht)
      rw [h'.kept t g hg]
      exact Option.some_ne_none g
    . exact h'.known t ht
  kept t g hg := h'.kept t g (h.kept t g hg)
  unchanged hnone := by
    obtain ⟨hfresh, hmore⟩ := List.append_eq_nil_iff.1 hnone
    rw [h'.unchanged hmore, h.unchanged hfresh]

theorem textGlobal {t : String} (ht : m.interned? t = none) :
    Gains m [t] { m.addGlobal (m.textGlobal t) with
      strings := m.strings.insert t (m.textName m.strings.size) } where
  name := rfl
  functions := rfl
  typeDefinitions := rfl
  globals := ⟨[m.textGlobal t], rfl, .cons ⟨rfl, rfl, m.textGlobal_storesText t⟩ .nil⟩
  nodup := by simp
  unknown := by simpa using ht
  known := by
    simp only [List.mem_singleton, forall_eq]
    unfold interned?
    rw [getElem?_insert_text, if_pos rfl]
    change (m.addGlobal (m.textGlobal t)).global? (m.textName m.strings.size) ≠ none
    rw [global?_addGlobal]
    simp [Module.textGlobal]
  kept := by
    intro u g hu
    have hne : t ≠ u := by
      rintro rfl
      rw [ht] at hu
      cases hu
    obtain ⟨n, hn, hg⟩ := Option.bind_eq_some_iff.1 hu
    unfold interned?
    rw [getElem?_insert_text, if_neg hne, hn]
    change (m.addGlobal (m.textGlobal t)).global? n = some g
    rw [global?_addGlobal, hg, Option.some_or]
  unchanged := by simp

theorem intern (m : Module) (t : String) : ∃ fresh ⊆ [t], Gains m fresh (m.intern t).2 := by
  rcases m.intern_cases t with ⟨n, g, -, -, heq⟩ | ⟨hnone, heq⟩
  . rw [heq]
    exact ⟨[], by simp, refl m⟩
  . rw [heq]
    refine ⟨[t], by simp, textGlobal ?_⟩
    unfold interned?
    cases ht : m.strings[t]? with
    | none => rfl
    | some n => exact hnone n ht

end Gains

theorem intern_of_interned {m : Module} {t : String} {g : Global} (h : m.interned? t = some g) :
    m.intern t = (g.address, m) := by
  obtain ⟨n, hn, hg⟩ := Option.bind_eq_some_iff.1 h
  rcases m.intern_cases t with ⟨n', g', hn', hg', heq⟩ | ⟨hnone, -⟩
  . rw [hn] at hn'
    cases hn'
    rw [hg] at hg'
    cases hg'
    exact heq
  . rw [hnone n hn] at hg
    cases hg

def internAll (m : Module) (texts : List String) : Module := m.addAll (texts.map .text)

variable {m : Module} {texts : List String}

theorem internAll_append (m : Module) (texts more : List String) :
    m.internAll (texts ++ more) = (m.internAll texts).internAll more := by
  unfold internAll addAll
  rw [List.map_append, List.foldl_append]

theorem internAll_gains (m : Module) (texts : List String) :
    ∃ fresh ⊆ texts, Gains m fresh (m.internAll texts) := by
  induction texts generalizing m with
  | nil => exact ⟨[], List.Subset.refl _, .refl m⟩
  | cons t texts ih =>
    obtain ⟨fresh, hfresh, hfirst⟩ := Gains.intern m t
    obtain ⟨more, hmore, hrest⟩ := ih (m.intern t).2
    have hfirst' : fresh ⊆ t :: texts := fun u hu => by simp [List.mem_singleton.1 (hfresh hu)]
    have hrest' : more ⊆ t :: texts := fun u hu => List.mem_cons_of_mem t (hmore hu)
    exact ⟨fresh ++ more, List.append_subset.2 ⟨hfirst', hrest'⟩, hfirst.trans hrest⟩

theorem internAll_eq (m : Module) (texts : List String) :
    ∃ added strings, m.internAll texts =
        { m with globals := m.globals ++ added, strings } ∧
      (∀ g ∈ added, g.isConstant = true ∧ g.linkage = .hidden ∧ ∃ t ∈ texts, g.StoresText t) ∧
      (added = [] → strings = m.strings) := by
  obtain ⟨fresh, hfresh, hgains⟩ := m.internAll_gains texts
  obtain ⟨added, hglobals, htexts⟩ := hgains.globals
  refine ⟨added, (m.internAll texts).strings, ?_, ?_, ?_⟩
  . rw [← hglobals, ← hgains.name, ← hgains.functions, ← hgains.typeDefinitions]
  . intro g hg
    obtain ⟨t, ht, hkeeps⟩ := Global.KeepsText.of_mem htexts hg
    exact ⟨hkeeps.isConstant, hkeeps.isPrivate, t, hfresh ht, hkeeps.stores⟩
  . rintro rfl
    cases htexts
    rw [hgains.unchanged rfl]

theorem functions_internAll (m : Module) (texts : List String) :
    (m.internAll texts).functions = m.functions := by
  obtain ⟨_, -, hgains⟩ := m.internAll_gains texts
  exact hgains.functions

theorem global?_internAll {n : String} {g : Global} (h : m.global? n = some g) (texts : List String) :
    (m.internAll texts).global? n = some g := by
  obtain ⟨_, -, hgains⟩ := m.internAll_gains texts
  obtain ⟨_, hglobals, -⟩ := hgains.globals
  unfold global? at *
  rw [hglobals, List.find?_append, h]
  rfl

end Module

namespace Operand

open Interning

mutual

theorem convert_interns (o : Operand) (hint : Option Hint) (m : Module) :
    ∃ texts, (∀ t ∈ texts, str t ∈ o.leaves) ∧ (o.convert hint m).2 = m.internAll texts := by
  have hcases := o.convert_cases hint m
  generalize o.convert hint m = r at hcases
  cases hcases with
  | refused | value | function | integer | decimal | null | bytes => exact ⟨[], by simp, rfl⟩
  | @text s => exact ⟨[s], by simp [leaves], rfl⟩
  | list _ hitems | item _ hitems | untyped _ hitems =>
    have hmodule := congrArg Prod.snd hitems
    dsimp only at hmodule ⊢
    rw [← hmodule]
    exact convertItems_interns _ _ _ m

theorem convertItems_interns (kind : Kind) (items : List Operand) (element : Option Ty) (m : Module) :
    ∃ texts, (∀ t ∈ texts, str t ∈ leavesAll items) ∧
      (convertItems kind items element m).2 = m.internAll texts := by
  cases items with
  | nil =>
    rw [convertItems]
    exact ⟨[], by simp, rfl⟩
  | cons item items =>
    obtain ⟨texts, htexts, hmodule⟩ := convert_interns item (element.map .type) m
    have hleaves (t : String) (ht : t ∈ texts) : str t ∈ leavesAll (item :: items) :=
      List.mem_append_left _ (htexts t ht)
    rw [convertItems, bind_apply]
    split
    . next v m₁ hitem =>
      rw [hitem] at hmodule
      cases v with
      | temp => exact ⟨texts, hleaves, hmodule⟩
      | const c =>
        obtain ⟨more, hmore, hrest⟩ := convertItems_interns kind items (some (element.getD c.ty)) m₁
        have hboth : (convertItems kind items (some (element.getD c.ty)) m₁).2 =
            m.internAll (texts ++ more) := by
          rw [Module.internAll_append, ← hmodule]
          exact hrest
        have hall (t : String) (ht : t ∈ texts ++ more) : str t ∈ leavesAll (item :: items) := by
          rcases List.mem_append.1 ht with ht | ht
          . exact hleaves t ht
          . exact List.mem_append_right _ (hmore t ht)
        refine ⟨texts ++ more, hall, ?_⟩
        -- what the rest has interned stays, be it converted or not
        dsimp only
        rw [bind_apply]
        split
        . next hitems =>
          rw [hitems] at hboth
          exact hboth
        . next hitems =>
          rw [hitems] at hboth
          exact hboth
    . next hitem =>
      rw [hitem] at hmodule
      exact ⟨texts, hleaves, hmodule⟩

end

theorem convert_keepsFunctions (o : Operand) (hint : Option Hint) (m : Module) :
    (o.convert hint m).2.functions = m.functions := by
  obtain ⟨texts, -, hmodule⟩ := o.convert_interns hint m
  rw [hmodule, Module.functions_internAll]

/--
Conversion only ever adds texts, whether it succeeds or fails: private globals behind those that are
there, for different texts of the operand. A text that the module has keeps its address.
-/
theorem convert_adds_texts (o : Operand) (hint : Option Hint) (m : Module) :
    let m' := (o.convert hint m).2
    m'.name = m.name ∧ m'.functions = m.functions ∧ m'.typeDefinitions = m.typeDefinitions ∧
      ∃ added fresh, m'.globals = m.globals ++ added ∧
        List.Forall₂ Global.KeepsText added fresh ∧ fresh.Nodup ∧ (∀ t ∈ fresh, str t ∈ o.leaves) ∧
        ∀ t g, m.interned? t = some g →
          m.intern t = (g.address, m) ∧ m'.intern t = (g.address, m') ∧
            ∀ g' ∈ added, ¬g'.StoresText t := by
  intro m'
  obtain ⟨texts, htexts, hmodule⟩ := o.convert_interns hint m
  obtain ⟨fresh, hfresh, hgains⟩ := m.internAll_gains texts
  rw [← hmodule] at hgains
  obtain ⟨added, hglobals, hkeeps⟩ := hgains.globals
  refine ⟨hgains.name, hgains.functions, hgains.typeDefinitions, added, fresh, hglobals, hkeeps,
    hgains.nodup, fun t ht => htexts t (hfresh ht), ?_⟩
  intro t g hg
  refine ⟨Module.intern_of_interned hg, Module.intern_of_interned (hgains.kept t g hg), ?_⟩
  intro g' hg' hstores
  obtain ⟨u, hu, hkeep⟩ := Global.KeepsText.of_mem hkeeps hg'
  have hunknown := hgains.unknown u hu
  rw [hkeep.stores.unique hstores, hg] at hunknown
  cases hunknown

def lettered : Module := (Module.intern { name := "m" } "a").2

def spoiled : Operand := list [list [str "b", str "a"], list [str "b", bool true]]

theorem spoiled_adds_texts :
    let m := lettered
    let m' := (spoiled.convert none m).2
    (spoiled.convert none m).1 = .error (.typeMismatch (bool true) (some (.type .bytePointer))) ∧
      ∃ g added fresh, m.interned? "a" = some g ∧ m'.intern "a" = (g.address, m') ∧
        m'.globals = m.globals ++ added ∧ List.Forall₂ Global.KeepsText added fresh ∧
        fresh.Nodup ∧ (∀ t ∈ fresh, str t ∈ spoiled.leaves) ∧ ∀ g' ∈ added, ¬g'.StoresText "a" := by
  intro m m'
  have hfails : (spoiled.convert none m).1 =
      .error (.typeMismatch (bool true) (some (.type .bytePointer))) := rfl
  obtain ⟨g, hg⟩ := Option.isSome_iff_exists.1 (show (m.interned? "a").isSome by decide)
  obtain ⟨-, -, -, added, fresh, hglobals, hkeeps, hnodup, hleaves, hkept⟩ :=
    convert_adds_texts spoiled none m
  obtain ⟨-, haddress, hnew⟩ := hkept "a" g hg
  exact ⟨hfails, g, added, fresh, hg, haddress, hglobals, hkeeps, hnodup, hleaves, hnew⟩

end Operand

end ScriptedIR
