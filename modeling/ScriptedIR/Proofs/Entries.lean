import ScriptedIR.Proofs.History

/-!
Functions of a library, which are entries of its table and functions in its code. Most changes leave
them alone, and those that do not come down to a few kinds: one more entry, an entry that moves to the
other side, and a function that gets a body or loses it.
-/

namespace ScriptedIR

theorem Function.linkage_of_clearBody {f g : Function} (h : f.clearBody = g.clearBody) :
    f.linkage = g.linkage := by
  have hlinkage := congrArg linkage h
  exact hlinkage

theorem Function.name_of_clearBody {f g : Function} (h : f.clearBody = g.clearBody) :
    f.name = g.name := by
  have hname := congrArg name h
  exact hname

namespace Module

variable {m : Module} {f g : Function} {n symbol : String}

theorem function?_addFunction :
    (m.addFunction f).function? n = (m.function? n).or (if f.name = n then some f else none) := by
  unfold function? addFunction
  rw [List.find?_append, find?_singleton]

theorem function?_addFunction_of_some (h : m.function? n = some g) :
    (m.addFunction f).function? n = some g := by
  rw [function?_addFunction, h, Option.some_or]

theorem function?_modifyFunction_eq {change : Function → Function}
    (h : ∀ f, f.name = symbol → (change f).name = symbol) (n : String) :
    (m.modifyFunction symbol change).function? n =
      if n = symbol then (m.function? symbol).map change else m.function? n :=
  find?_modifyFirst h n m.functions

theorem name_of_function? (h : m.function? n = some f) : f.name = n := by
  simpa using List.find?_some h

end Module

namespace Library

variable {rules : Rules} {I : Library → Prop} {lib lib' other : Library} {name n : String}
  {v : Visibility} {f : FunctionRef} {code g : Function}

structure SameFunctions (lib lib' : Library) : Prop where
  table : lib'.functions = lib.functions
  code : lib'.module.functions = lib.module.functions
  built : lib'.built = lib.built
  address : lib'.address = lib.address
  isPrefixed : lib'.prefixed = lib.prefixed

theorem SameFunctions.function? (h : lib.SameFunctions lib') (n : String) :
    lib'.module.function? n = lib.module.function? n := by
  unfold Module.function?
  rw [h.code]

theorem SameFunctions.intern (lib : Library) (texts : List String) :
    lib.SameFunctions { lib with module := lib.module.internAll texts } :=
  ⟨rfl, lib.module.functions_internAll texts, rfl, rfl, rfl⟩

def relinked (lib : Library) (v : Visibility) (name : String) (f : FunctionRef) : Library :=
  { lib with
    module := lib.module.modifyFunction f.symbol ({ · with linkage := v.linkage })
    functions := lib.functions.insert name v f }

theorem changeOne_cases (lib : Library) (v : Visibility) (name : String) :
    lib.SameFunctions (lib.changeOne v name) ∨
      ∃ f, lib.function? name = some f ∧
        (lib.relinked v name f).SameFunctions (lib.changeOne v name) := by
  unfold changeOne relinked Table.move
  cases hf : lib.function? name with
  | none =>
    left
    unfold function? at hf
    rw [hf]
    dsimp only
    split <;> exact ⟨rfl, rfl, rfl, rfl, rfl⟩
  | some f =>
    refine .inr ⟨f, rfl, ?_⟩
    unfold function? at hf
    rw [hf]
    dsimp only
    split <;> exact ⟨rfl, rfl, rfl, rfl, rfl⟩

structure FunctionInvariant (rules : Rules) (I : Library → Prop) : Prop where
  new : ∀ name address isPrefixed, I { name, address, prefixed := isPrefixed }
  same : ∀ {lib lib'}, I lib → lib.SameFunctions lib' → I lib'
  declared : ∀ {lib name signature}, I lib → lib.function? name = none →
    rules.declares lib name signature → I (lib.declared name signature)
  external : ∀ {lib name signature}, I lib → rules.declaresExternal lib name signature →
    I (lib.entered name .exported { name, symbol := name, signature })
  relinked : ∀ {lib name f} v, I lib → lib.function? name = some f → I (lib.relinked v name f)
  rebuilt : ∀ {lib name f code g built}, I lib → lib.function? name = some f →
    f.symbol ∉ lib.built → lib.module.function? f.symbol = some code →
    lib.Outcome f code g built →
    I { lib with module := lib.module.modifyFunction f.symbol fun _ => g, built }
  importFrom : ∀ {lib other}, I lib → I other → rules.imports lib other →
    I (importFrom other lib).2

namespace FunctionInvariant

variable (h : FunctionInvariant rules I)

include h

theorem build (name : String) (body : Body) (hlib : I lib) : I (build name body.run lib).2 := by
  obtain heq | ⟨f, code, g, built, texts, diagnostics, hf, hnew, hcode, houtcome, heq⟩ :=
    build_cases lib name body
  . rw [heq]
    exact hlib
  . rw [heq]
    refine h.same (h.rebuilt hlib hf hnew hcode houtcome) ⟨rfl, ?_, rfl, rfl, rfl⟩
    unfold Module.modifyFunction
    rw [lib.module.functions_internAll texts]

theorem declare (name : String) (signature : Ty.Signature) (hlib : I lib)
    (hrule : rules.declares lib name signature) : I (declare name signature lib).2 := by
  cases hf : lib.function? name with
  | none =>
    rw [declare_of_none hf]
    exact h.declared hlib hf hrule
  | some f =>
    rw [declare_of_some hf]
    exact hlib

theorem changeOne (v : Visibility) (name : String) (hlib : I lib) : I (lib.changeOne v name) := by
  rcases changeOne_cases lib v name with hsame | ⟨f, hf, hsame⟩
  . exact h.same hlib hsame
  . exact h.same (h.relinked v hlib hf) hsame

theorem maintains : Maintains rules I where
  new := h.new
  visible v hlib := h.same hlib ⟨rfl, rfl, rfl, rfl, rfl⟩
  importFrom := h.importFrom
  edit {lib e} hlib hallowed := by
    cases e with
    | declare name signature => exact h.declare name signature hlib hallowed
    | build name body => exact h.build name body hlib
    | function name signature body =>
      have hdeclared := h.declare name signature hlib hallowed
      rcases function_cases lib name signature body.run with heq | heq
      . rw [edit, heq]
        exact hdeclared
      . rw [edit, heq]
        exact h.build name body hdeclared
    | declareExternal name signature => exact h.external hlib hallowed
    | defineMacro m => exact h.same hlib ⟨rfl, rfl, rfl, rfl, rfl⟩
    | defineGlobal name init isConstant =>
      obtain ⟨texts, _, rfl, heq | ⟨g, -, -, -, heq⟩⟩ := defineGlobal_cases lib name init isConstant
      . rw [edit, heq]
        exact h.same hlib (.intern lib texts)
      . rw [edit, heq]
        exact h.same (h.same hlib (.intern lib texts)) ⟨rfl, rfl, rfl, rfl, rfl⟩
    | declareGlobal name ty =>
      refine h.same hlib ⟨rfl, ?_, rfl, rfl, rfl⟩
      dsimp only [edit, Library.declareGlobal]
      split <;> rfl
    | internText text =>
      obtain ⟨texts, heq⟩ := internText_eq lib text
      rw [edit, heq]
      exact h.same hlib (.intern lib texts)
    | defineStruct layout =>
      obtain ⟨typeDefinitions, layouts, heq⟩ := defineStruct_eq layout lib
      rw [edit, heq]
      exact h.same hlib ⟨rfl, rfl, rfl, rfl, rfl⟩
    | changeVisibility v names =>
      exact changeVisibility_induction (fun name hlib => h.changeOne v name hlib) names hlib

end FunctionInvariant

theorem importFrom_induction {J : Library → Prop}
    (hsame : ∀ {lib lib'}, I lib → lib.SameFunctions lib' → I lib')
    (henter : ∀ {lib name f}, I lib → other.functions.Holds .exported name f →
      I (lib.entered name lib.visibility f))
    (hlink : ∀ {lib}, I lib → J { lib with module := lib.module.linked other.module })
    (hlib : I lib) : J (importFrom other lib).2 := by
  rw [importFrom_eq]
  -- macros, functions, globals and structs are taken over in turn, and only functions matter
  refine hlink (List.foldlRecOn _ _ (List.foldlRecOn _ _ (List.foldlRecOn _ _
    (List.foldlRecOn _ _ hlib ?_) ?_) ?_) ?_)
  . exact fun lib hlib entry _ => hsame hlib ⟨rfl, rfl, rfl, rfl, rfl⟩
  . rintro lib hlib ⟨name, f⟩ hentry
    have hholds : other.functions.exported[name]? = some f :=
      Std.ExtTreeMap.mem_toList_iff_getElem?_eq_some.1 hentry
    refine hsame (henter hlib hholds) ?_
    unfold importFunction entered
    dsimp only
    split <;> exact ⟨rfl, rfl, rfl, rfl, rfl⟩
  . rintro lib hlib ⟨name, g⟩ -
    refine hsame hlib ?_
    unfold importGlobal
    dsimp only
    split <;> exact ⟨rfl, rfl, rfl, rfl, rfl⟩
  . exact fun lib hlib entry _ => hsame hlib ⟨rfl, rfl, rfl, rfl, rfl⟩

def Matched (P : Visibility → String → FunctionRef → Function → Prop) (lib : Library) : Prop :=
  lib.functions.Matched (fun f => lib.module.function? f.symbol) P

section Matched

variable {P : Visibility → String → FunctionRef → Function → Prop}

theorem Matched.found (h : lib.Matched P) (hf : lib.functions.Holds v name f) :
    ∃ code, lib.module.function? f.symbol = some code ∧ P v name f code := h v name f hf

theorem Matched.same (h : lib.Matched P)
    (hsame : lib.SameFunctions lib') : lib'.Matched P :=
  h.keep hsame.table fun _ hcode hP => ⟨_, (hsame.function? _).trans hcode, hP⟩

end Matched

section Found

variable (hcode : lib.module.function? n = some code)

include hcode

theorem function?_declared (name : String) (signature : Ty.Signature) :
    (lib.declared name signature).module.function? n = some code :=
  Module.function?_addFunction_of_some hcode

theorem function?_entered (name : String) (v : Visibility) (f : FunctionRef) :
    (lib.entered name v f).module.function? n = some code := by
  unfold entered
  split
  . exact hcode
  . exact Module.function?_addFunction_of_some hcode

end Found

theorem holds_entered (lib : Library) (name : String) (v : Visibility) (f : FunctionRef) :
    (lib.entered name v f).functions.Holds v name f :=
  Table.holds_insert_self

theorem function?_entered_self (lib : Library) (name : String) (v : Visibility) (f : FunctionRef) :
    ∃ code, (lib.entered name v f).module.function? f.symbol = some code ∧
      (lib.module.function? f.symbol = some code ∨
        lib.module.function? f.symbol = none ∧ code = declaration f.symbol f.signature) := by
  cases hcode : lib.module.function? f.symbol with
  | some code => exact ⟨code, function?_entered hcode name v f, .inl rfl⟩
  | none =>
    refine ⟨_, ?_, .inr ⟨rfl, rfl⟩⟩
    simp [entered, hcode, Module.function?_addFunction, declaration]

theorem function?_declared_self (hfree : lib.module.function? (lib.symbol name) = none)
    (signature : Ty.Signature) :
    (lib.declared name signature).module.function? (lib.symbol name) =
      some (declaration (lib.symbol name) signature lib.visibility.linkage) := by
  simp [declared, Module.function?_addFunction, hfree, declaration]

theorem function?_relinked (lib : Library) (v : Visibility) (name : String) (f : FunctionRef)
    (n : String) :
    (lib.relinked v name f).module.function? n =
      if n = f.symbol then
        (lib.module.function? f.symbol).map ({ · with linkage := v.linkage })
      else lib.module.function? n := by
  unfold relinked
  rw [Module.function?_modifyFunction_eq]
  exact fun _ hname => hname

theorem function?_relinked_of_some (hcode : lib.module.function? n = some code) (v : Visibility)
    (name : String) (f : FunctionRef) :
    ∃ linkage, (lib.relinked v name f).module.function? n = some { code with linkage } := by
  rw [function?_relinked]
  split
  . next heq =>
    rw [← heq, hcode]
    exact ⟨v.linkage, rfl⟩
  . exact ⟨code.linkage, hcode⟩

theorem names_relinked (lib : Library) (v : Visibility) (name : String) (f : FunctionRef) :
    (lib.relinked v name f).module.functions.map Function.name =
      lib.module.functions.map Function.name := by
  unfold relinked Module.modifyFunction
  dsimp only
  rw [map_key_modifyFirst]
  exact fun _ _ => rfl

theorem Outcome.names {built : List String} (h : lib.Outcome f code g built)
    (hcode : lib.module.function? f.symbol = some code) :
    (lib.module.modifyFunction f.symbol fun _ => g).functions.map Function.name =
      lib.module.functions.map Function.name := by
  refine map_key_modifyFirst (fun code' hname => ?_) _
  have hsymbol : code'.name = f.symbol := by simpa using hname
  rw [Function.name_of_clearBody h.header, Module.name_of_function? hcode, hsymbol]

theorem Outcome.function? {built : List String} (h : lib.Outcome f code g built)
    (hcode : lib.module.function? f.symbol = some code) (n : String) :
    (lib.module.modifyFunction f.symbol fun _ => g).function? n =
      if n = f.symbol then some g else lib.module.function? n := by
  have hname : g.name = f.symbol :=
    (Function.name_of_clearBody h.header).trans (Module.name_of_function? hcode)
  rw [Module.function?_modifyFunction_eq fun _ _ => hname, hcode]
  rfl

theorem Outcome.function?_of_some {built : List String} {code' : Function}
    (h : lib.Outcome f code g built) (hcode : lib.module.function? f.symbol = some code)
    (hcode' : lib.module.function? n = some code') :
    ∃ g', (lib.module.modifyFunction f.symbol fun _ => g).function? n = some g' ∧
      g'.clearBody = code'.clearBody := by
  rw [h.function? hcode]
  split
  . next heq =>
    rw [heq, hcode] at hcode'
    cases hcode'
    exact ⟨g, rfl, h.header⟩
  . exact ⟨code', hcode', rfl⟩

end Library

end ScriptedIR
