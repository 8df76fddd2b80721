import ScriptedIR.Proofs.Bodies

/-!
Histories of libraries. A library is made by changes, some of them under another visibility for a
while, and by imports of libraries that were made in the same way. What the changes keep holds of all
libraries that can be reached.
-/

namespace ScriptedIR

namespace Table

variable {α : Type} {t : Table α} {name other : String} {v w : Visibility} {a b : α}

def Holds (t : Table α) (v : Visibility) (name : String) (a : α) : Prop :=
  match v with
  | .exported => t.exported[name]? = some a
  | .internal => t.internal[name]? = some a

theorem not_holds_new : ¬ ({} : Table α).Holds v name a := by
  cases v <;> simp [Holds]

theorem holds_insert :
    (t.insert name v a).Holds w other b ↔
      if other = name then w = v ∧ b = a else t.Holds w other b := by
  by_cases h : other = name
  . subst h
    cases v <;> cases w <;> simp [insert, Holds, eq_comm]
  . have hne : ¬ name = other := fun heq => h heq.symm
    cases v <;> cases w <;> simp [insert, Holds, Std.ExtTreeMap.getElem?_insert,
      Std.ExtTreeMap.getElem?_erase, h, hne]

theorem holds_insert_self : (t.insert name v a).Holds v name a := by
  simp [holds_insert]

theorem forall_holds_insert {P : String → α → Prop} (h : ∀ w other b, t.Holds w other b → P other b)
    (hnew : P name a) : ∀ w other b, (t.insert name v a).Holds w other b → P other b := by
  intro w other b hb
  rw [holds_insert] at hb
  split at hb
  . next heq =>
    obtain ⟨-, rfl⟩ := hb
    exact heq ▸ hnew
  . exact h w other b hb

theorem exists_holds_insert (h : ∃ w b, t.Holds w other b) :
    ∃ w b, (t.insert name v a).Holds w other b := by
  obtain ⟨w, b, hb⟩ := h
  by_cases heq : other = name
  . exact ⟨v, a, heq ▸ holds_insert_self⟩
  . exact ⟨w, b, holds_insert.2 (by rwa [if_neg heq])⟩

theorem exists_holds_of_get? (h : t.get? name .everything = some a) : ∃ v, t.Holds v name a := by
  rcases Option.or_eq_some_iff.1 h with h | ⟨-, h⟩
  . exact ⟨.exported, h⟩
  . exact ⟨.internal, h⟩

theorem not_holds_of_get? (h : t.get? name .everything = none) : ¬ t.Holds v name a := by
  obtain ⟨hexported, hinternal⟩ := Option.or_eq_none_iff.1 h
  cases v <;> simp [Holds, hexported, hinternal]

section Matched

variable {β : Type} {t' : Table α} {find find' : α → Option β}
  {P : Visibility → String → α → β → Prop}

def Matched (t : Table α) (find : α → Option β) (P : Visibility → String → α → β → Prop) : Prop :=
  ∀ v name a, t.Holds v name a → ∃ b, find a = some b ∧ P v name a b

theorem Matched.new : ({} : Table α).Matched find P := fun _ _ _ ha => absurd ha not_holds_new

theorem Matched.keep (h : t.Matched find P) (htable : t' = t)
    (hfound : ∀ {v name a b}, t.Holds v name a → find a = some b → P v name a b →
      ∃ b', find' a = some b' ∧ P v name a b') : t'.Matched find' P := by
  subst htable
  intro v name a ha
  obtain ⟨b, hb, hP⟩ := h v name a ha
  exact hfound ha hb hP

theorem Matched.insert (h : t.Matched find P) (htable : t' = t.insert name v a)
    (hnew : ∃ b, find' a = some b ∧ P v name a b)
    (hfound : ∀ {w other c b}, other ≠ name → t.Holds w other c → find c = some b → P w other c b →
      ∃ b', find' c = some b' ∧ P w other c b') : t'.Matched find' P := by
  subst htable
  intro w other c hc
  rw [holds_insert] at hc
  split at hc
  . next heq =>
    obtain ⟨rfl, rfl⟩ := hc
    exact heq ▸ hnew
  . next hne =>
    obtain ⟨b, hb, hP⟩ := h w other c hc
    exact hfound hne hc hb hP

end Matched

end Table

theorem Defining.bind_apply (x : Defining α) (f : α → Defining β) (lib : Library) :
    (x >>= f) lib =
      match x lib with
      | (.ok a, lib') => f a lib'
      | (.error e, lib') => (.error e, lib') := by
  simp only [bind, ExceptT.bind, ExceptT.mk, StateT.bind]
  cases x lib with
  | mk result lib' => cases result <;> rfl

theorem Defining.get_apply (lib : Library) : (get : Defining Library) lib = (.ok lib, lib) := rfl

theorem Defining.set_apply (lib lib' : Library) :
    (set lib' : Defining PUnit) lib = (.ok ⟨⟩, lib') := rfl

theorem Defining.modify_apply (change : Library → Library) (lib : Library) :
    (modify change : Defining PUnit) lib = (.ok ⟨⟩, change lib) := rfl

namespace Library

inductive Edit where
  | declare (name : String) (signature : Ty.Signature)
  | build (name : String) (body : Body)
  | function (name : String) (signature : Ty.Signature) (body : Body)
  | declareExternal (name : String) (signature : Ty.Signature)
  | defineMacro (m : Macro)
  | defineGlobal (name : String) (init : Operand) (isConstant : Bool)
  | declareGlobal (name : String) (ty : Ty)
  | internText (text : String)
  | defineStruct (layout : Layout)
  | changeVisibility (v : Visibility) (names : List String)

def edit (lib : Library) : Edit → Library
  | .declare name signature => (declare name signature lib).2
  | .build name body => (build name body.run lib).2
  | .function name signature body => (function name signature body.run lib).2
  | .declareExternal name signature => (declareExternal name signature lib).2
  | .defineMacro m => lib.defineMacro m
  | .defineGlobal name init isConstant => (defineGlobal name init isConstant lib).2
  | .declareGlobal name ty => (lib.declareGlobal name ty).2
  | .internText text => (internText text lib).2
  | .defineStruct layout => (defineStruct layout lib).2
  | .changeVisibility v names => (changeVisibility v names lib).2

/--
What may be asked of a library, depending on what it has become.
-/
structure Rules where
  declares : Library → String → Ty.Signature → Prop := fun _ _ _ => True
  declaresExternal : Library → String → Ty.Signature → Prop := fun _ _ _ => True
  declaresGlobal : Library → String → Ty → Prop := fun _ _ _ => True
  imports : Library → Library → Prop := fun _ _ => True

namespace Rules

def any : Rules := {}

def own : Rules where
  declaresExternal _ _ _ := False
  declaresGlobal _ _ _ := False
  imports _ _ := False

def allows (rules : Rules) (lib : Library) : Edit → Prop
  | .declare name signature | .function name signature _ => rules.declares lib name signature
  | .declareExternal name signature => rules.declaresExternal lib name signature
  | .declareGlobal name ty => rules.declaresGlobal lib name ty
  | _ => True

end Rules

/--
A library becomes another one by what the rules allow.
-/
inductive History (rules : Rules) : Library → Library → Prop
  | refl {lib : Library} : History rules lib lib
  | edit {start lib : Library} {e : Edit} :
      History rules start lib → rules.allows lib e → History rules start (lib.edit e)
  | visible {start lib : Library} (v : Visibility) :
      History rules start lib → History rules start { lib with visibility := v }
  | within {start lib : Library} {v : Visibility} {f : Library → Unit × Library} :
      History rules start lib →
      History rules { lib with visibility := v } (f { lib with visibility := v }).2 →
      History rules start (lib.withVisibility v f).2
  | importFrom {start lib other : Library} {name address : String} {isPrefixed : Bool} :
      History rules start lib → History rules { name, address, prefixed := isPrefixed } other →
      rules.imports lib other → History rules start (importFrom other lib).2

def Reached (rules : Rules) (lib : Library) : Prop :=
  ∃ name address isPrefixed, History rules { name, address, prefixed := isPrefixed } lib

structure Maintains (rules : Rules) (I : Library → Prop) : Prop where
  new : ∀ name address isPrefixed, I { name, address, prefixed := isPrefixed }
  edit : ∀ {lib e}, I lib → rules.allows lib e → I (lib.edit e)
  visible : ∀ {lib} v, I lib → I { lib with visibility := v }
  importFrom : ∀ {lib other}, I lib → I other → rules.imports lib other →
    I (importFrom other lib).2

variable {rules : Rules} {I : Library → Prop} {start lib lib' other : Library}

theorem History.invariant (h : History rules start lib) (hI : Maintains rules I) (hstart : I start) :
    I lib := by
  induction h with
  | refl => exact hstart
  | edit _ hallowed ih => exact hI.edit (ih hstart) hallowed
  | visible v _ ih => exact hI.visible v (ih hstart)
  | within _ _ ih ihinner => exact hI.visible _ (ihinner (hI.visible _ (ih hstart)))
  | importFrom _ _ himports ih ihother =>
    exact hI.importFrom (ih hstart) (ihother (hI.new _ _ _)) himports

theorem Reached.invariant (h : Reached rules lib) (hI : Maintains rules I) : I lib := by
  obtain ⟨name, address, isPrefixed, h⟩ := h
  exact h.invariant hI (hI.new name address isPrefixed)

section Specs

variable {name : String} {f : FunctionRef}

def declared (lib : Library) (name : String) (signature : Ty.Signature) : Library :=
  { lib with
    module := lib.module.addFunction
      (declaration (lib.symbol name) signature lib.visibility.linkage)
    functions := lib.functions.insert name lib.visibility
      { name, symbol := lib.symbol name, signature } }

theorem declare_of_some (hf : lib.function? name = some f) (signature : Ty.Signature) :
    (declare name signature lib).2 = lib := by
  unfold declare
  simp only [Defining.bind_apply, Defining.get_apply, hf]
  split <;> rfl

theorem declare_of_none (hf : lib.function? name = none) (signature : Ty.Signature) :
    (declare name signature lib).2 = lib.declared name signature := by
  unfold declare
  simp only [Defining.bind_apply, Defining.get_apply, hf]
  rfl

theorem function_cases (lib : Library) (name : String) (signature : Ty.Signature) (body : Gen Unit) :
    (function name signature body lib).2 = (declare name signature lib).2 ∨
      (function name signature body lib).2 = (build name body (declare name signature lib).2).2 := by
  unfold function functionTraced
  split
  . next h => simp [h]
  . next h => simp [h, build]

theorem changeVisibility_induction {I : Library → Prop} {v : Visibility}
    (h : ∀ {lib} name, I lib → I (lib.changeOne v name)) (names : List String) (hlib : I lib) :
    I (changeVisibility v names lib).2 := by
  induction names generalizing lib with
  | nil => exact hlib
  | cons name names ih =>
    rw [changeVisibility]
    change I ((if (lib.resolve name .everything).isNone then _ else _ : Defining Unit) lib).2
    split
    . exact hlib
    . exact ih (h name hlib)

theorem interning_convert (o : Operand) (hint : Option Hint) (lib : Library) :
    ∃ texts, (interning (o.convert hint) lib).2 =
      { lib with module := lib.module.internAll texts } := by
  obtain ⟨texts, -, htexts⟩ := o.convert_interns hint lib.module
  refine ⟨texts, ?_⟩
  rw [← htexts]
  rfl

theorem internText_eq (lib : Library) (text : String) :
    ∃ texts, (internText text lib).2 = { lib with module := lib.module.internAll texts } :=
  interning_convert (.str text) none lib

def withGlobal (lib : Library) (name : String) (g : Global) : Library :=
  { lib with
    module := lib.module.addGlobal g
    globals := lib.globals.insert name lib.visibility (.ofGlobal g) }

theorem defineGlobal_cases (lib : Library) (name : String) (init : Operand) (isConstant : Bool) :
    ∃ texts lib', lib' = { lib with module := lib.module.internAll texts } ∧
      ((defineGlobal name init isConstant lib).2 = lib' ∨
        ∃ g : Global, g.name = lib'.symbol name ∧ g.linkage = lib'.visibility.linkage ∧
          lib'.module.global? g.name = none ∧
          (defineGlobal name init isConstant lib).2 = lib'.withGlobal name g) := by
  obtain ⟨texts, htexts⟩ := interning_convert init none lib
  refine ⟨texts, _, htexts, ?_⟩
  unfold defineGlobal
  rw [Defining.bind_apply]
  rcases hrun : interning (init.convert none) lib with ⟨e | value, lib'⟩
  . exact .inl rfl
  . cases value with
    | temp => exact .inl rfl
    | const c =>
      by_cases htaken : (lib'.module.global? (lib'.symbol name)).isSome
      . left
        change ((if _ then _ else _ : Defining Value) lib').2 = _
        rw [if_pos htaken]
        rfl
      . right
        let g : Global :=
          { name := lib'.symbol name, ty := c.ty, isConstant, initializer := some c,
            linkage := lib'.visibility.linkage }
        refine ⟨g, rfl, rfl, by simpa using htaken, ?_⟩
        change ((if _ then _ else _ : Defining Value) lib').2 = _
        rw [if_neg htaken]
        rfl

theorem foldl_registerLayout (layouts : List Layout) (lib : Library) :
    ∃ typeDefinitions layouts', layouts.foldl registerLayout lib =
      { lib with module := { lib.module with typeDefinitions }, layouts := layouts' } := by
  induction layouts generalizing lib with
  | nil => exact ⟨lib.module.typeDefinitions, lib.layouts, rfl⟩
  | cons layout layouts ih =>
    obtain ⟨typeDefinitions, layouts', h⟩ := ih (lib.registerLayout layout)
    refine ⟨typeDefinitions, layouts', ?_⟩
    rw [List.foldl_cons, h]
    unfold registerLayout
    split <;> rfl

theorem defineStruct_eq (layout : Layout) (lib : Library) :
    ∃ typeDefinitions layouts, (defineStruct layout lib).2 =
      { lib with module := { lib.module with typeDefinitions }, layouts } := by
  unfold defineStruct
  split
  . exact ⟨lib.module.typeDefinitions, lib.layouts, rfl⟩
  . exact foldl_registerLayout _ lib

def entered (lib : Library) (name : String) (v : Visibility) (f : FunctionRef) : Library :=
  { lib with
    module :=
      if (lib.module.function? f.symbol).isSome then lib.module
      else lib.module.addFunction (declaration f.symbol f.signature)
    functions := lib.functions.insert name v f }

theorem declareExternal_eq (lib : Library) (name : String) (signature : Ty.Signature) :
    (declareExternal name signature lib).2 =
      lib.entered name .exported { name, symbol := name, signature } := rfl

theorem importFrom_eq (other lib : Library) :
    (importFrom other lib).2 =
      let lib := other.macros.exported.toList.foldl importMacro lib
      let lib := other.functions.exported.toList.foldl importFunction lib
      let lib := other.globals.exported.toList.foldl importGlobal lib
      let lib := other.layouts.toList.foldl importLayout lib
      { lib with module := lib.module.linked other.module } := by
  unfold importFrom
  simp only [Defining.bind_apply, Defining.modify_apply, Defining.get_apply, Defining.set_apply]
  generalize other.layouts.toList.foldl importLayout _ = lib₁
  cases (lib₁.module.link other.module).1 <;> rfl

end Specs

end Library

end ScriptedIR
