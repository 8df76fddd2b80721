import ScriptedIR.Proofs.Entries

/-!
Imports. A library that imports another one knows exactly the exported names of the other library in
addition to, or in place of, its own, whatever they stand for there. All bodies of both are in its code
then.
-/

namespace ScriptedIR

namespace Table

variable {α : Type} {t : Table α} {v w : Visibility} {name : String} {a b : α}
  {entries : List (String × α)}

def insertAll (t : Table α) (v : Visibility) (entries : List (String × α)) : Table α :=
  entries.foldl (fun t entry => t.insert entry.1 v entry.2) t

theorem holds_insertAll (h : entries.Pairwise (·.1 ≠ ·.1)) :
    (t.insertAll v entries).Holds w name a ↔
      (name, a) ∈ entries ∧ w = v ∨ (∀ b, (name, b) ∉ entries) ∧ t.Holds w name a := by
  induction entries generalizing t with
  | nil => simp [insertAll]
  | cons entry entries ih =>
    obtain ⟨other, c⟩ := entry
    obtain ⟨hnew, h⟩ := List.pairwise_cons.1 h
    have hcons : t.insertAll v ((other, c) :: entries) = (t.insert other v c).insertAll v entries := rfl
    rw [hcons, ih h, holds_insert]
    by_cases heq : name = other
    . subst heq
      -- none of the later entries has this name
      have hlater (b) : (name, b) ∉ entries := fun hb => hnew (name, b) hb rfl
      simp [hlater, and_comm]
    . simp [heq]

/--
A table becomes another one by taking over names on a side. All other names stand for what they stood
for.
-/
def TakesOver (t : Table α) (v : Visibility) (names : Names α) (t' : Table α) : Prop :=
  ∀ name w a, t'.Holds w name a ↔
    match names[name]? with
    | some b => w = v ∧ a = b
    | none => t.Holds w name a

theorem TakesOver.insertAll (t : Table α) (v : Visibility) (names : Names α) :
    t.TakesOver v names (t.insertAll v names.toList) := by
  have hdistinct : names.toList.Pairwise (·.1 ≠ ·.1) :=
    Std.ExtTreeMap.distinct_keys_toList.imp fun hne heq => hne (by simp [heq])
  intro name w a
  rw [holds_insertAll hdistinct]
  simp only [Std.ExtTreeMap.mem_toList_iff_getElem?_eq_some]
  cases names[name]? with
  | none => simp
  | some b => simp [eq_comm, and_comm]

end Table

namespace Module

section Symbols

variable {α : Type} {name : α → String} {isDeclaration : α → Bool} {new a : α}
  {news symbols linked : List α}

theorem mem_linkSymbol_of_defined (h : linkSymbol name isDeclaration new symbols = .ok linked)
    (ha : a ∈ symbols) (hdefined : isDeclaration a = false) : a ∈ linked := by
  unfold linkSymbol at h
  split at h
  . cases h
    exact List.mem_append_left _ ha
  . next old hold =>
    split at h
    . cases h
      exact ha
    . split at h
      . next hdeclared =>
        cases h
        apply mem_modifyFirst ha
        rw [hold]
        rintro ⟨⟩
        rw [hdefined] at hdeclared
        cases hdeclared
      . cases h

theorem mem_linkSymbols_of_defined (ha : a ∈ symbols) (hdefined : isDeclaration a = false)
    (news : List α) : a ∈ (linkSymbols name isDeclaration news symbols).2 := by
  induction news generalizing symbols with
  | nil => exact ha
  | cons new news ih =>
    cases hlinked : linkSymbol name isDeclaration new symbols with
    | error e =>
      rw [linkSymbols, hlinked]
      exact ha
    | ok linked =>
      rw [linkSymbols_cons hlinked]
      exact ih (mem_linkSymbol_of_defined hlinked ha hdefined)

theorem definition?_linkSymbols_of_mem
    (h : (linkSymbols name isDeclaration news symbols).1 = .ok ()) (ha : a ∈ news)
    (hdefined : isDeclaration a = false) :
    definition? name isDeclaration (linkSymbols name isDeclaration news symbols).2 (name a) =
      some a := by
  have hlist := toList_definition?_linkSymbols h (name a)
  have hmem : a ∈ definitions name isDeclaration news (name a) := by
    simp [definitions, ha, hdefined]
  have hfound := List.mem_append_right (definition? name isDeclaration symbols (name a)).toList hmem
  rw [← hlist] at hfound
  exact Option.mem_toList.1 hfound

end Symbols

variable {m other : Module} {f : Function} {n : String}

theorem function?_linked_of_mem (h : m.Links other) (hf : f ∈ other.functions)
    (hdefined : f.isDeclaration = false) : (m.linked other).function? f.name = some f := by
  have hfound := definition?_linkSymbols_of_mem (links_iff.1 h).1 hf hdefined
  rw [← functions_linked] at hfound
  exact (Option.filter_eq_some_iff.1 hfound).1

theorem function?_linked_of_defined (hf : m.function? n = some f) (hdefined : f.isDeclaration = false)
    (other : Module) : (m.linked other).function? n = some f := by
  obtain hsame | ⟨hnone, -⟩ := @function?_linked_cases m other n
  . exact hsame.trans hf
  . simp [functionDefinition?, hf, hdefined] at hnone

theorem mem_linked_of_defined (hf : f ∈ m.functions) (hdefined : f.isDeclaration = false)
    (other : Module) : f ∈ (m.linked other).functions := by
  rw [functions_linked]
  exact mem_linkSymbols_of_defined hf hdefined other.functions

end Module

namespace Library

variable {lib other : Library}

theorem foldl_importMacro (entries : List (String × Macro)) (lib : Library) :
    entries.foldl importMacro lib =
      { lib with macros := lib.macros.insertAll lib.visibility entries } := by
  induction entries generalizing lib with
  | nil => rfl
  | cons entry entries ih =>
    rw [List.foldl_cons, ih]
    rfl

theorem foldl_importFunction (entries : List (String × FunctionRef)) (lib : Library) :
    ∃ added diagnostics, entries.foldl importFunction lib =
      { lib with
        module := { lib.module with functions := lib.module.functions ++ added }
        functions := lib.functions.insertAll lib.visibility entries
        diagnostics } := by
  induction entries generalizing lib with
  | nil => exact ⟨[], lib.diagnostics, by simp [Table.insertAll]⟩
  | cons entry entries ih =>
    obtain ⟨added, diagnostics, h⟩ := ih (lib.importFunction entry)
    rw [List.foldl_cons, h]
    unfold importFunction
    dsimp only
    split
    . exact ⟨added, diagnostics, rfl⟩
    . next hnew =>
      refine ⟨declaration entry.2.symbol entry.2.signature :: added, diagnostics, ?_⟩
      simp [Module.addFunction, Table.insertAll]

theorem foldl_importGlobal (entries : List (String × GlobalRef)) (lib : Library) :
    ∃ globals diagnostics, entries.foldl importGlobal lib =
      { lib with
        module := { lib.module with globals }
        globals := lib.globals.insertAll lib.visibility entries
        diagnostics } := by
  induction entries generalizing lib with
  | nil => exact ⟨lib.module.globals, lib.diagnostics, rfl⟩
  | cons entry entries ih =>
    obtain ⟨globals, diagnostics, h⟩ := ih (lib.importGlobal entry)
    rw [List.foldl_cons, h]
    refine ⟨globals, diagnostics, ?_⟩
    unfold importGlobal
    dsimp only
    split <;> rfl

theorem foldl_importLayout (entries : List (String × Layout)) (lib : Library) :
    ∃ layouts, entries.foldl importLayout lib = { lib with layouts } := by
  induction entries generalizing lib with
  | nil => exact ⟨lib.layouts, rfl⟩
  | cons entry entries ih =>
    obtain ⟨layouts, h⟩ := ih (lib.importLayout entry)
    exact ⟨layouts, h⟩

def prepared (lib other : Library) : Library :=
  let lib := other.macros.exported.toList.foldl importMacro lib
  let lib := other.functions.exported.toList.foldl importFunction lib
  let lib := other.globals.exported.toList.foldl importGlobal lib
  other.layouts.toList.foldl importLayout lib

theorem prepared_eq (lib other : Library) :
    ∃ added globals layouts diagnostics, lib.prepared other =
      { lib with
        module := { lib.module with functions := lib.module.functions ++ added, globals }
        macros := lib.macros.insertAll lib.visibility other.macros.exported.toList
        functions := lib.functions.insertAll lib.visibility other.functions.exported.toList
        globals := lib.globals.insertAll lib.visibility other.globals.exported.toList
        layouts
        diagnostics } := by
  unfold prepared
  extract_lets lib₁ lib₂ lib₃
  have hmacros : lib₁ = _ := foldl_importMacro other.macros.exported.toList lib
  obtain ⟨added, _, hfunctions⟩ := foldl_importFunction other.functions.exported.toList lib₁
  obtain ⟨globals, diagnostics, hglobals⟩ := foldl_importGlobal other.globals.exported.toList lib₂
  obtain ⟨layouts, hlayouts⟩ := foldl_importLayout other.layouts.toList lib₃
  change lib₂ = _ at hfunctions
  change lib₃ = _ at hglobals
  refine ⟨added, globals, layouts, diagnostics, ?_⟩
  rw [hlayouts, hglobals, hfunctions, hmacros]

theorem importFrom_prepared (other lib : Library) :
    (importFrom other lib).2 =
      { lib.prepared other with module := (lib.prepared other).module.linked other.module } :=
  importFrom_eq other lib

theorem importFrom_ok_iff :
    (importFrom other lib).1 = .ok () ↔ (lib.prepared other).module.Links other.module := by
  unfold importFrom Module.Links prepared
  simp only [Defining.bind_apply, Defining.modify_apply, Defining.get_apply, Defining.set_apply]
  generalize other.layouts.toList.foldl importLayout _ = lib₁
  cases (lib₁.module.link other.module).1 with
  | ok => exact iff_of_true rfl rfl
  | error e => exact iff_of_false nofun nofun

/--
An import that succeeds gives every exported name of the other library the meaning that it has there,
on the side that the library defines things on, and leaves all other names alone. Every function that
has a body in the other library is found with it, whether it is exported or not, and so is every one
that had a body before.
-/
theorem import_exposes {after : Library} (h : importFrom other lib = (.ok (), after)) :
    lib.macros.TakesOver lib.visibility other.macros.exported after.macros ∧
    lib.functions.TakesOver lib.visibility other.functions.exported after.functions ∧
    lib.globals.TakesOver lib.visibility other.globals.exported after.globals ∧
    (∀ f ∈ other.module.functions, f.isDeclaration = false →
      after.module.function? f.name = some f) ∧
    (∀ f ∈ lib.module.functions, f.isDeclaration = false → f ∈ after.module.functions ∧
      (lib.module.function? f.name = some f → after.module.function? f.name = some f)) := by
  have hlinks := importFrom_ok_iff.1 (congrArg Prod.fst h)
  obtain rfl : _ = after := (importFrom_prepared other lib).symm.trans (congrArg Prod.snd h)
  obtain ⟨added, globals, layouts, diagnostics, hprepared⟩ := prepared_eq lib other
  rw [hprepared] at hlinks ⊢
  refine ⟨.insertAll _ _ _, .insertAll _ _ _, .insertAll _ _ _, ?_, ?_⟩
  . exact fun f hf hdefined => Module.function?_linked_of_mem hlinks hf hdefined
  . intro f hf hdefined
    refine ⟨Module.mem_linked_of_defined (List.mem_append_left _ hf) hdefined _, fun hfound => ?_⟩
    apply Module.function?_linked_of_defined _ hdefined
    unfold Module.function? at hfound ⊢
    rw [List.find?_append, hfound, Option.some_or]

def returning (n : Int64) : Body := .script [.ret (.operand (.int n))]

def offering : Library :=
  let lib := ({ name := "util", address := "util" } : Library).edit
    (.function "f" ⟨.i32, [], false⟩ (returning 1))
  let lib := lib.edit (.defineMacro ⟨"g", 0, [], [], .operand (.int 2)⟩)
  let lib := lib.edit (.defineGlobal "v" (.int 3) true)
  (lib.withVisibility .internal fun lib =>
    ((), lib.edit (.function "h" ⟨.i32, [], false⟩ (returning 4)))).2

def receiving : Library :=
  let lib := ({ name := "app", address := "app" } : Library).edit
    (.function "f" ⟨.i32, [], false⟩ (returning 5))
  let lib := lib.edit (.function "h" ⟨.i32, [], false⟩ (returning 6))
  { lib with visibility := .internal }

theorem receiving_exposes :
    ∃ after, importFrom offering receiving = (.ok (), after) ∧
      after.functions.Holds .internal "f" ⟨"f", "util.f", ⟨.i32, [], false⟩⟩ ∧
      after.functions.Holds .exported "h" ⟨"h", "app.h", ⟨.i32, [], false⟩⟩ ∧
      (∃ m, after.macros.Holds .internal "g" m) ∧
      after.globals.Holds .internal "v" ⟨"util.v", .i32⟩ ∧
      (∀ f ∈ offering.module.functions, after.module.function? f.name = some f) ∧
      ∀ f ∈ receiving.module.functions, f ∈ after.module.functions := by
  have hok : (importFrom offering receiving).1.toBool = true := by decide +kernel
  rcases h : importFrom offering receiving with ⟨e | ⟨⟩, after⟩
  . rw [h] at hok
    cases hok
  . obtain ⟨hmacros, hfunctions, hglobals, hother, hlib⟩ := import_exposes h
    have hf : offering.functions.exported["f"]? = some ⟨"f", "util.f", ⟨.i32, [], false⟩⟩ := by
      decide +kernel
    have hh : offering.functions.exported["h"]? = none := by decide +kernel
    have hg : (offering.macros.exported["g"]?).isSome := by decide +kernel
    have hv : offering.globals.exported["v"]? = some ⟨"util.v", .i32⟩ := by decide +kernel
    have hdefined : ∀ f ∈ offering.module.functions ++ receiving.module.functions,
        f.isDeclaration = false := by decide +kernel
    obtain ⟨m, hm⟩ := Option.isSome_iff_exists.1 hg
    refine ⟨after, rfl, ?_, ?_, ⟨m, ?_⟩, ?_, fun f hf => ?_, fun f hf => ?_⟩
    . rw [hfunctions, hf]
      exact ⟨rfl, rfl⟩
    . rw [hfunctions, hh]
      show receiving.functions.exported["h"]? = _
      decide +kernel
    . rw [hmacros, hm]
      exact ⟨rfl, rfl⟩
    . rw [hglobals, hv]
      exact ⟨rfl, rfl⟩
    . exact hother f hf (hdefined f (List.mem_append_left _ hf))
    . exact (hlib f hf (hdefined f (List.mem_append_right _ hf))).1

end Library

end ScriptedIR
