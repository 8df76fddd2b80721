import ScriptedIR.Script.Convert
import ScriptedIR.Script.Stmt
import ScriptedIR.Script.Table

/-!
Libraries: functions, macros, globals and struct layouts under short names, together with the module
that holds their code. In the code, symbols have the address of their library in front, so that
libraries can be linked.
-/

namespace ScriptedIR

structure GlobalRef where
  symbol : String
  ty : Ty
deriving DecidableEq, Repr

namespace GlobalRef

def address (g : GlobalRef) : Value := .const (.globalAddr g.symbol (.pointer g.ty))

def ofGlobal (g : Global) : GlobalRef := ⟨g.name, g.ty⟩

end GlobalRef

structure Library where
  name : String
  address : String
  prefixed : Bool := true
  module : Module := { name := address }
  functions : Table FunctionRef := {}
  macros : Table Macro := {}
  globals : Table GlobalRef := {}
  layouts : Names Layout := ∅
  visibility : Visibility := .exported
  diagnostics : List Diagnostic := []
  /-- Symbols of the functions that have a body already. -/
  built : List String := []

inductive Resolution where
  | inlined (m : Macro)
  | function (f : FunctionRef)
  | global (g : GlobalRef)

/--
Computations that define things in a library. What was defined before a failure stays.
-/
abbrev Defining := ExceptT ScriptError (StateM Library)

def addressOf (name : String) : String :=
  String.ofList (name.toList.filter (· ≠ ' '))

namespace Library

def named (name : String) : Library := { name, address := addressOf name }

def symbol (lib : Library) (name : String) : String :=
  if lib.prefixed then lib.address ++ "." ++ name else name

/--
What a name stands for: a macro first, else a function, else a global.
-/
def resolve (lib : Library) (name : String) (reach : Reach) : Option Resolution :=
  ((lib.macros.get? name reach).map .inlined).or <|
    ((lib.functions.get? name reach).map .function).or <|
      (lib.globals.get? name reach).map .global

def function? (lib : Library) (name : String) : Option FunctionRef :=
  lib.functions.get? name .everything

def warn (lib : Library) (d : Diagnostic) : Library :=
  { lib with diagnostics := lib.diagnostics ++ [d] }

def withVisibility (lib : Library) (v : Visibility) (f : Library → α × Library) : α × Library :=
  let (a, inner) := f { lib with visibility := v }
  (a, { inner with visibility := lib.visibility })

def declaration (symbol : String) (s : Ty.Signature) (linkage : Linkage := .external) : Function :=
  { name := symbol, result := s.result, params := s.params, variadic := s.variadic, linkage }

def changeOne (lib : Library) (v : Visibility) (name : String) : Library :=
  let relink (m : Module) : Option FunctionRef → Module
    | some f => m.modifyFunction f.symbol ({ · with linkage := v.linkage })
    | none => m
  let relinkGlobal (m : Module) : Option GlobalRef → Module
    | some g => m.modifyGlobal g.symbol ({ · with linkage := v.linkage })
    | none => m
  { lib with
    module := relinkGlobal (relink lib.module (lib.function? name))
      (lib.globals.get? name .everything)
    functions := lib.functions.move name v
    macros := lib.macros.move name v
    globals := lib.globals.move name v }

def changeVisibility (v : Visibility) : List String → Defining Unit
  | [] => return
  | name :: names => do
    let lib ← get
    if (lib.resolve name .everything).isNone then throw (.argument (.unknownSymbol name))
    set (lib.changeOne v name)
    changeVisibility v names

def interning (x : Interning α) : Defining α := fun lib =>
  let (result, module) := x lib.module
  (result, { lib with module })

def declare (name : String) (signature : Ty.Signature) : Defining FunctionRef := do
  let lib ← get
  match lib.function? name with
  | some f =>
    if f.signature = signature then return f
    else throw (.argument (.alreadyDeclared name f.signature.ty))
  | none =>
    let f : FunctionRef := { name, symbol := lib.symbol name, signature }
    set { lib with
      module := lib.module.addFunction (declaration f.symbol signature lib.visibility.linkage)
      functions := lib.functions.insert name lib.visibility f }
    return f

/--
Declares a function that is defined elsewhere, under its plain name. A function of this name in the
code stays as it is.
-/
def declareExternal (name : String) (signature : Ty.Signature) : Defining FunctionRef := do
  let lib ← get
  let f : FunctionRef := { name, symbol := name, signature }
  set { lib with
    module :=
      if (lib.module.function? name).isSome then lib.module
      else lib.module.addFunction (declaration name signature)
    functions := lib.functions.insert name .exported f }
  return f

def defineMacro (lib : Library) (m : Macro) : Library :=
  { lib with macros := lib.macros.insert m.name lib.visibility m }

def defineGlobal (name : String) (init : Operand) (isConstant : Bool) : Defining Value := do
  match ← interning (init.convert none) with
  | .temp .. => throw (.argument (.globalNotConstant name))
  | .const c =>
    let lib ← get
    let symbol := lib.symbol name
    if (lib.module.global? symbol).isSome then throw (.argument (.globalDefined name))
    let g : Global :=
      { name := symbol, ty := c.ty, isConstant, initializer := some c,
        linkage := lib.visibility.linkage }
    set { lib with
      module := lib.module.addGlobal g
      globals := lib.globals.insert name lib.visibility (.ofGlobal g) }
    return (GlobalRef.ofGlobal g).address

def declareGlobal (lib : Library) (name : String) (ty : Ty) : Value × Library :=
  let g := (lib.module.global? name).getD { name, ty, initializer := none }
  let module :=
    if (lib.module.global? name).isSome then lib.module else lib.module.addGlobal g
  let ref := GlobalRef.ofGlobal g
  (ref.address, { lib with module, globals := lib.globals.insert name .exported ref })

def internText (text : String) : Defining Value :=
  interning ((Operand.str text).convert none)

def registerLayout (lib : Library) (layout : Layout) : Library :=
  match layout.ty with
  | .struct (some name) fields packed =>
    let definitions := lib.module.typeDefinitions.insert name (.struct none fields packed)
    { lib with
      module := { lib.module with typeDefinitions := definitions }
      layouts := lib.layouts.insert name layout }
  | _ => lib

def defineStruct (layout : Layout) : Defining Ty := do
  if layout.name.isNone then throw (.argument .unnamedStruct)
  modify fun lib => (layout.nested ++ [layout]).foldl registerLayout lib
  return layout.ty

def keepsDefinition (lib : Library) (symbol : String) : Diagnostic :=
  { message := lib.address ++ " already defines " ++ symbol ++ "; keeping the existing definition" }

def importMacro (lib : Library) (entry : String × Macro) : Library :=
  { lib with macros := lib.macros.insert entry.1 lib.visibility entry.2 }

def importFunction (lib : Library) (entry : String × FunctionRef) : Library :=
  let (name, f) := entry
  let lib :=
    if (lib.module.function? f.symbol).isSome then lib.warn (lib.keepsDefinition f.symbol)
    else { lib with module := lib.module.addFunction (declaration f.symbol f.signature) }
  { lib with functions := lib.functions.insert name lib.visibility f }

def importGlobal (lib : Library) (entry : String × GlobalRef) : Library :=
  let (name, g) := entry
  let lib :=
    if (lib.module.global? g.symbol).isSome then lib.warn (lib.keepsDefinition g.symbol)
    else
      let declared : Global := { name := g.symbol, ty := g.ty, initializer := none }
      { lib with module := lib.module.addGlobal declared }
  { lib with globals := lib.globals.insert name lib.visibility g }

def importLayout (lib : Library) (entry : String × Layout) : Library :=
  { lib with layouts := lib.layouts.insertIfNew entry.1 entry.2 }

/--
Takes over what another library exports, and links its code.
-/
def importFrom (other : Library) : Defining Unit := do
  modify (other.macros.exported.toList.foldl importMacro)
  modify (other.functions.exported.toList.foldl importFunction)
  modify (other.globals.exported.toList.foldl importGlobal)
  modify (other.layouts.toList.foldl importLayout)
  let lib ← get
  let (result, module) := lib.module.link other.module
  set { lib with module }
  match result with
  | .ok () => return
  | .error e => throw (.linkFailure other.name e.message)

def description (lib : Library) : String :=
  let list (names : List String) := "[" ++ ", ".intercalate (names.map Text.quoted) ++ "]"
  "Library \x7b name: " ++ Text.quoted lib.name ++ ", address: " ++ Text.quoted lib.address ++
    ", functions: " ++ list (lib.functions.names .everything) ++
    ", macros: " ++ list (lib.macros.names .everything) ++
    ", globals: " ++ list (lib.globals.names .everything) ++ ", .. \x7d"

end Library

def Macro.description (m : Macro) : String :=
  "Macro \x7b name: " ++ Text.quoted m.name ++ ", arity: " ++ toString m.arity ++ ", .. \x7d"

end ScriptedIR
