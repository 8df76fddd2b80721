import ScriptedIR.Proofs.Entries

/-!
Building again. A function that was only declared is as it was after a body that fails, so another
body can be given to it. A function that was built in the library keeps its body for good, but the
library does not count what it imported as built.
-/

namespace ScriptedIR

namespace Module

variable {m other : Module} {f g : Function} {symbol n : String}

def Defines (m : Module) (symbol : String) : Prop :=
  ∃ code, m.function? symbol = some code ∧ code.isDeclaration = false

theorem Defines.of_function? (h : m.Defines symbol)
    (hsame : other.function? symbol = m.function? symbol) : other.Defines symbol := by
  unfold Defines
  rw [hsame]
  exact h

theorem Defines.isDeclaration (h : m.Defines symbol) (hf : m.function? symbol = some f) :
    f.isDeclaration = false := by
  obtain ⟨code, hcode, hdefined⟩ := h
  cases hcode.symm.trans hf
  exact hdefined

theorem defines_addFunction (hg : g.isDeclaration = true) :
    (m.addFunction g).Defines symbol ↔ m.Defines symbol := by
  unfold Defines
  rw [function?_addFunction]
  cases m.function? symbol with
  | some code => rfl
  | none =>
    rw [Option.none_or]
    constructor
    . rintro ⟨code, hcode, hdefined⟩
      split at hcode
      . cases hcode
        simp [hg] at hdefined
      . cases hcode
    . rintro ⟨_, ⟨⟩, _⟩

theorem Defines.linked (h : m.Defines symbol) (other : Module) : (m.linked other).Defines symbol := by
  obtain hsame | ⟨hnone, -⟩ := @function?_linked_cases m other symbol
  . exact h.of_function? hsame
  . obtain ⟨code, hcode, hdefined⟩ := h
    simp [functionDefinition?, hcode, hdefined] at hnone

theorem defines_of_linked (h : (m.linked other).Defines symbol) :
    m.Defines symbol ∨ ∃ g ∈ other.functions, g.name = symbol ∧ g.isDeclaration = false := by
  obtain hsame | ⟨-, g, hg, hname, hfound⟩ := @function?_linked_cases m other symbol
  . exact .inl (h.of_function? hsame.symm)
  . exact .inr ⟨g, hg, hname, h.isDeclaration hfound⟩

def Fresh (m : Module) : Prop := ∀ g ∈ m.functions, g.isDeclaration = true → g.clearBody = g

theorem Fresh.addFunction (h : m.Fresh) (hg : g.clearBody = g) : (m.addFunction g).Fresh := by
  intro f hf hdeclared
  rcases List.mem_append.1 hf with hf | hf
  . exact h f hf hdeclared
  . rw [List.mem_singleton.1 hf]
    exact hg

theorem Fresh.modifyFunction {change : Function → Function} (h : m.Fresh)
    (hchange : ∀ f ∈ m.functions, (change f).isDeclaration = true →
      (change f).clearBody = change f) :
    (m.modifyFunction n change).Fresh := by
  intro f hf hdeclared
  rcases of_mem_modifyFirst hf with hf | ⟨g, hg, -, rfl⟩
  . exact h f hf hdeclared
  . exact hchange g hg hdeclared

theorem Fresh.linked (h : m.Fresh) (hother : other.Fresh) : (m.linked other).Fresh := by
  unfold Fresh
  rw [functions_linked]
  intro f hf hdeclared
  rcases mem_of_mem_linkSymbols hf with hf | hf
  . exact h f hf hdeclared
  . exact hother f hf hdeclared

end Module

namespace Library

variable {lib lib' other : Library} {name symbol : String} {v : Visibility} {f : FunctionRef}
  {code g : Function} {built : List String}

theorem defines_declared (lib : Library) (name : String) (signature : Ty.Signature)
    (symbol : String) :
    (lib.declared name signature).module.Defines symbol ↔ lib.module.Defines symbol :=
  Module.defines_addFunction rfl

theorem defines_entered (lib : Library) (name : String) (v : Visibility) (f : FunctionRef)
    (symbol : String) :
    (lib.entered name v f).module.Defines symbol ↔ lib.module.Defines symbol := by
  unfold entered
  split
  . rfl
  . exact Module.defines_addFunction rfl

theorem defines_relinked (lib : Library) (v : Visibility) (name : String) (f : FunctionRef)
    (symbol : String) :
    (lib.relinked v name f).module.Defines symbol ↔ lib.module.Defines symbol := by
  unfold Module.Defines
  rw [function?_relinked]
  split
  . next heq =>
    subst heq
    cases lib.module.function? f.symbol with
    | none => rfl
    | some code => simp [Function.isDeclaration]
  . rfl

theorem Outcome.defines (h : lib.Outcome f code g built)
    (hcode : lib.module.function? f.symbol = some code) (symbol : String) :
    (lib.module.modifyFunction f.symbol fun _ => g).Defines symbol ↔
      if symbol = f.symbol then g.isDeclaration = false else lib.module.Defines symbol := by
  unfold Module.Defines
  rw [h.function? hcode]
  split
  . simp
  . rfl

structure Accounted (lib : Library) : Prop where
  fresh : lib.module.Fresh
  built : ∀ symbol ∈ lib.built, lib.module.Defines symbol

namespace Accounted

theorem entered (h : lib.Accounted) (name : String) (v : Visibility) (f : FunctionRef) :
    (lib.entered name v f).Accounted := by
  refine ⟨?_, fun symbol hsymbol => (defines_entered ..).2 (h.built symbol hsymbol)⟩
  unfold Library.entered
  split
  . exact h.fresh
  . exact h.fresh.addFunction rfl

theorem rebuilt (h : lib.Accounted) (hcode : lib.module.function? f.symbol = some code)
    (hnew : f.symbol ∉ lib.built) (houtcome : lib.Outcome f code g built) :
    Accounted { lib with module := lib.module.modifyFunction f.symbol fun _ => g, built } := by
  -- Only what is not built gets a body or loses one, so what is built stays as it is.
  have hothers (symbol) (hsymbol : symbol ∈ lib.built) :
      (lib.module.modifyFunction f.symbol fun _ => g).Defines symbol := by
    rw [houtcome.defines hcode, if_neg (ne_of_mem_of_not_mem hsymbol hnew)]
    exact h.built symbol hsymbol
  cases houtcome with
  | defined hheader hdefined =>
    refine ⟨h.fresh.modifyFunction ?_, ?_⟩
    . simp [hdefined]
    . intro symbol hsymbol
      rcases List.mem_cons.1 hsymbol with rfl | hsymbol
      . rw [(Outcome.defined hheader hdefined).defines hcode, if_pos rfl]
        exact hdefined
      . exact hothers symbol hsymbol
  | cleared => exact ⟨h.fresh.modifyFunction fun _ _ _ => rfl, hothers⟩

theorem same (h : lib.Accounted) (hsame : lib.SameFunctions lib') : lib'.Accounted := by
  constructor
  . unfold Module.Fresh
    rw [hsame.code]
    exact h.fresh
  . rw [hsame.built]
    exact fun symbol hsymbol => (h.built symbol hsymbol).of_function? (hsame.function? symbol)

theorem functionInvariant : FunctionInvariant .any Accounted where
  new _ _ _ := ⟨by simp [Module.Fresh], by simp⟩
  same := same
  declared h _ _ :=
    ⟨h.fresh.addFunction rfl, fun symbol hsymbol => (defines_declared ..).2 (h.built symbol hsymbol)⟩
  external h _ := h.entered _ _ _
  relinked {_ _ _} v h _ := by
    refine ⟨h.fresh.modifyFunction ?_, fun symbol hsymbol =>
      (defines_relinked ..).2 (h.built symbol hsymbol)⟩
    intro g hg hdeclared
    exact congrArg ({ · with linkage := v.linkage }) (h.fresh g hg hdeclared)
  rebuilt h _ hnew hcode houtcome := h.rebuilt hcode hnew houtcome
  importFrom {_ other} h hother _ := by
    refine importFrom_induction same (fun h _ => h.entered _ _ _) (fun h => ?_) h
    exact ⟨h.fresh.linked hother.fresh, fun symbol hsymbol =>
      (h.built symbol hsymbol).linked other.module⟩

end Accounted

def Rules.without (symbol : String) : Rules where
  imports _ other := ∀ g ∈ other.module.functions, g.name = symbol → g.isDeclaration = true

def BuildsItself (symbol : String) (lib : Library) : Prop :=
  lib.module.Defines symbol → symbol ∈ lib.built

namespace BuildsItself

theorem same (h : lib.BuildsItself symbol) (hsame : lib.SameFunctions lib') :
    lib'.BuildsItself symbol := by
  intro hdefines
  rw [hsame.built]
  exact h (hdefines.of_function? (hsame.function? symbol).symm)

theorem entered (h : lib.BuildsItself symbol) (name : String) (v : Visibility) (f : FunctionRef) :
    (lib.entered name v f).BuildsItself symbol :=
  fun hdefines => h ((defines_entered ..).1 hdefines)

theorem rebuilt (h : lib.BuildsItself symbol)
    (hcode : lib.module.function? f.symbol = some code) (houtcome : lib.Outcome f code g built) :
    BuildsItself symbol
      { lib with module := lib.module.modifyFunction f.symbol fun _ => g, built } := by
  intro hdefines
  rw [houtcome.defines hcode] at hdefines
  cases houtcome with
  | defined =>
    split at hdefines
    . next heq => exact heq ▸ List.mem_cons_self
    . exact List.mem_cons_of_mem _ (h hdefines)
  | cleared =>
    split at hdefines
    . cases hdefines
    . exact h hdefines

theorem linked (h : lib.BuildsItself symbol) (hother : (Rules.without symbol).imports lib other) :
    BuildsItself symbol { lib with module := lib.module.linked other.module } := by
  intro hdefines
  obtain hdefines | ⟨g, hg, hname, hdefined⟩ := Module.defines_of_linked hdefines
  . exact h hdefines
  . simp [hother g hg hname] at hdefined

theorem functionInvariant : FunctionInvariant (.without symbol) (BuildsItself symbol) where
  new _ _ _ := by
    rintro ⟨_, ⟨⟩, _⟩
  same := same
  declared h _ _ := fun hdefines => h ((defines_declared ..).1 hdefines)
  external h _ := h.entered _ _ _
  relinked _ h _ := fun hdefines => h ((defines_relinked ..).1 hdefines)
  rebuilt h _ _ hcode houtcome := h.rebuilt hcode houtcome
  importFrom h _ hrule :=
    importFrom_induction same (fun h _ => h.entered _ _ _) (fun h => h.linked hrule) h

end BuildsItself

theorem function_of_built (hf : lib.function? name = some f) (hbuilt : f.symbol ∈ lib.built)
    (signature : Ty.Signature) (body : Gen Unit) : (function name signature body lib).2 = lib := by
  have hdeclare := declare_of_some hf signature
  rcases function_cases lib name signature body with heq | heq
  . rw [heq, hdeclare]
  . rw [heq, hdeclare, build_of_built hf hbuilt]

theorem function?_of_error (hf : lib.function? name = some f) (hnew : f.symbol ∉ lib.built)
    (hcode : lib.module.function? f.symbol = some code) {body : Body} {e : ScriptError}
    (hfails : (body.run.exec (lib.startState f code)).1 = .error e) :
    (build name body.run lib).2.module.function? f.symbol = some code.clearBody := by
  obtain ⟨texts, heq⟩ := build_of_error hf hnew hcode hfails
  have hname := Module.name_of_function? hcode
  have hfound : (lib.module.internAll texts).function? f.symbol = some code :=
    ((SameFunctions.intern lib texts).function? f.symbol).trans hcode
  have hcleared (g : Function) (_ : g.name = f.symbol) : code.clearBody.name = f.symbol := hname
  rw [heq]
  dsimp only
  rw [Module.function?_modifyFunction_eq hcleared, if_pos rfl, hfound, Option.map_some]

/--
A function that was only declared is as it was after a body that fails. The library differs by texts
that were interned, which adds constants and nothing else. If there are no new ones, every other body
meets the library as if nothing had happened.
-/
theorem build_rolls_back (hlib : Reached .any lib) (hf : lib.function? name = some f)
    (hcode : lib.module.function? f.symbol = some code) (hdeclared : code.isDeclaration = true)
    (body : Body) {e : ScriptError}
    (hfails : (body.run.exec (lib.startState f code)).1 = .error e) :
    ∃ texts added strings,
      build name body.run lib = (.error e, { lib with module := lib.module.internAll texts }) ∧
      lib.module.internAll texts =
        { lib.module with globals := lib.module.globals ++ added, strings } ∧
      (∀ g ∈ added, g.isConstant = true ∧ g.linkage = .hidden ∧ ∃ t ∈ texts, g.StoresText t) ∧
      (added = [] → (build name body.run lib).2 = lib ∧
        ∀ second : Gen Unit, build name second (build name body.run lib).2 = build name second lib) := by
  have haccounted := hlib.invariant Accounted.functionInvariant.maintains
  have hnew : f.symbol ∉ lib.built := by
    intro hbuilt
    have hdefined := (haccounted.built f.symbol hbuilt).isDeclaration hcode
    simp [hdeclared] at hdefined
  have hfresh : code.clearBody = code :=
    haccounted.fresh code (List.mem_of_find?_eq_some hcode) hdeclared
  obtain ⟨texts, heq⟩ := build_of_error hf hnew hcode hfails
  obtain ⟨added, strings, hinterned, hadded, hsame⟩ := lib.module.internAll_eq texts
  -- The function is put back where it was found.
  have hrestored : (lib.module.internAll texts).modifyFunction f.symbol (fun _ => code.clearBody) =
      lib.module.internAll texts := by
    unfold Module.modifyFunction
    rw [hfresh, Module.functions_internAll, modifyFirst_eq_self hcode,
      ← Module.functions_internAll lib.module texts]
  rw [hrestored] at heq
  refine ⟨texts, added, strings, heq, hinterned, hadded, fun hnone => ?_⟩
  have hback : (build name body.run lib).2 = lib := by
    rw [heq, hinterned, hnone, hsame hnone, List.append_nil]
  rw [hback]
  exact ⟨rfl, fun _ => rfl⟩

def pending : Library :=
  ({ name := "m", address := "m" } : Library).edit (.declare "f" ⟨.bytePointer, [], false⟩)

def talking : Body := .script [.ret (.operand (.str "text")), .fail "no"]

def silent : Body := .script [.ret (.operand .null), .fail "no"]

theorem pending_rolls_back :
    Reached .any pending ∧
    (∃ e texts, build "f" talking.run pending =
        (.error e, { pending with module := pending.module.internAll texts }) ∧
      (pending.module.internAll texts).globals.length = 1) ∧
    (∃ e, build "f" silent.run pending = (.error e, pending)) := by
  have hreached : Reached .any pending := ⟨"m", "m", true, History.refl.edit trivial⟩
  let f : FunctionRef := ⟨"f", "m.f", ⟨.bytePointer, [], false⟩⟩
  let code := declaration "m.f" ⟨.bytePointer, [], false⟩
  have hf : pending.function? "f" = some f := by decide +kernel
  have hcode : pending.module.function? f.symbol = some code := rfl
  have hfails (body : Body) (h : (body.run.exec (pending.startState f code)).1.toBool = false) :
      ∃ e, (body.run.exec (pending.startState f code)).1 = .error e := by
    cases hrun : (body.run.exec (pending.startState f code)).1 with
    | error e => exact ⟨e, rfl⟩
    | ok =>
      rw [hrun] at h
      cases h
  refine ⟨hreached, ?_, ?_⟩
  . obtain ⟨e, htalking⟩ := hfails talking (by decide +kernel)
    obtain ⟨texts, -, -, heq, -⟩ := build_rolls_back hreached hf hcode rfl talking htalking
    have hinterned : (build "f" talking.run pending).2.module.globals.length = 1 := by
      decide +kernel
    rw [heq] at hinterned
    exact ⟨e, texts, heq, hinterned⟩
  . obtain ⟨e, hsilent⟩ := hfails silent (by decide +kernel)
    obtain ⟨texts, added, strings, heq, hinterned, -, hsame⟩ :=
      build_rolls_back hreached hf hcode rfl silent hsilent
    have hnone : (build "f" silent.run pending).2.module.globals.length = 0 := by decide +kernel
    rw [heq, hinterned] at hnone
    have hadded : pending.module.globals = [] ∧ added = [] := by simpa using hnone
    have hresult : (build "f" silent.run pending).1 = .error e := by rw [heq]
    exact ⟨e, Prod.ext hresult (hsame hadded.2).1⟩

/--
A function with a body keeps it for every other body exactly if it counts as built, and then nothing
else changes either. It does if no import brought the body.
-/
theorem definition_kept_iff_built (hf : lib.function? name = some f)
    (hcode : lib.module.function? f.symbol = some code) (hdefined : code.isDeclaration = false) :
    ((∀ (body : Body) (signature : Ty.Signature),
        (build name body.run lib).2.module.function? f.symbol = some code ∧
          (function name signature body.run lib).2.module.function? f.symbol = some code) ↔
      f.symbol ∈ lib.built) ∧
    (f.symbol ∈ lib.built → ∀ (body : Body) (signature : Ty.Signature),
      build name body.run lib = (.ok (), lib) ∧ (function name signature body.run lib).2 = lib) ∧
    (Reached (.without f.symbol) lib → f.symbol ∈ lib.built) := by
  have hunchanged (hbuilt : f.symbol ∈ lib.built) (body : Body) (signature : Ty.Signature) :
      build name body.run lib = (.ok (), lib) ∧ (function name signature body.run lib).2 = lib :=
    ⟨build_of_built hf hbuilt body.run, function_of_built hf hbuilt signature body.run⟩
  refine ⟨⟨fun hkept => ?_, fun hbuilt body signature => ?_⟩, hunchanged, fun hlib => ?_⟩
  . by_cases hbuilt : f.symbol ∈ lib.built
    . exact hbuilt
    . -- A body that fails at once is enough to lose the one that was there.
      have hsame := (hkept (.failing (.unresolved name)) f.signature).1
      rw [function?_of_error hf hbuilt hcode rfl] at hsame
      rw [← Option.some.inj hsame] at hdefined
      cases hdefined
  . obtain ⟨hbuild, hfunction⟩ := hunchanged hbuilt body signature
    rw [hbuild, hfunction]
    exact ⟨hcode, hcode⟩
  . exact hlib.invariant BuildsItself.functionInvariant.maintains ⟨code, hcode, hdefined⟩

def answering : Library :=
  ({ name := "util", address := "util" } : Library).edit
    (.function "f" ⟨.i32, [], false⟩ (.script [.ret (.operand (.int 1))]))

theorem answering_keeps_definition :
    Reached (.without "util.f") answering ∧
    ∃ code, answering.module.function? "util.f" = some code ∧ code.isDeclaration = false ∧
      ∀ (body : Body) (signature : Ty.Signature), build "f" body.run answering = (.ok (), answering) ∧
        (function "f" signature body.run answering).2 = answering := by
  have hreached : Reached (.without "util.f") answering :=
    ⟨"util", "util", true, History.refl.edit trivial⟩
  have hf : answering.function? "f" = some ⟨"f", "util.f", ⟨.i32, [], false⟩⟩ := by decide +kernel
  have hfound : (answering.module.function? "util.f").any (!·.isDeclaration) = true := by
    decide +kernel
  obtain ⟨code, hcode, hdefined⟩ := (Option.any_eq_true _ _).1 hfound
  have hdefined : code.isDeclaration = false := by simpa using hdefined
  obtain ⟨-, hkept, hbuilt⟩ := definition_kept_iff_built hf hcode hdefined
  exact ⟨hreached, code, hcode, hdefined, hkept (hbuilt hreached)⟩

def importing : Library :=
  (importFrom answering { name := "p", address := "p", prefixed := false }).2

/--
What was imported has a body and does not count as built, so a body that fails clears it.
-/
theorem import_loses_definition :
    Reached .any importing ∧
    (∃ code, importing.module.function? "util.f" = some code ∧ code.isDeclaration = false) ∧
    ∃ code, (build "f" (Body.script [.fail "no"]).run importing).2.module.function? "util.f" =
      some code ∧ code.isDeclaration = true := by
  have hdefined : (importing.module.function? "util.f").any (!·.isDeclaration) = true := by
    decide +kernel
  have hcleared : ((build "f" (Body.script [.fail "no"]).run importing).2.module.function?
      "util.f").any (·.isDeclaration) = true := by
    decide +kernel
  refine ⟨⟨"p", "p", false, .importFrom .refl (History.refl.edit trivial) trivial⟩, ?_, ?_⟩
  . simpa [Option.any_eq_true] using hdefined
  . exact (Option.any_eq_true _ _).1 hcleared

end Library

end ScriptedIR
