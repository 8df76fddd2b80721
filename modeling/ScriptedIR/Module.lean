import ScriptedIR.Function
import ScriptedIR.Text.Utf8
import Std.Data.ExtTreeMap

/-!
Modules: functions and global variables under names, named type definitions, and a table of interned
strings. `Module.link` merges one module into another.
-/

namespace ScriptedIR

abbrev Names (α : Type) := Std.ExtTreeMap String α

structure Global where
  name : String
  ty : Ty
  isConstant : Bool := false
  initializer : Option Constant
  linkage : Linkage := .external
deriving Repr

namespace Global

def isDeclaration (g : Global) : Bool := g.initializer.isNone

def address (g : Global) : Constant := .globalAddr g.name (.pointer g.ty)

def text (g : Global) : String :=
  "@" ++ g.name ++ " = " ++ g.linkage.text ++ (if g.isDeclaration then "external " else "")
    ++ (if g.isConstant then "constant " else "global ") ++ g.ty.text
    ++ match g.initializer with
      | some c => " " ++ c.text
      | none => ""

end Global

structure Module where
  name : String
  functions : List Function := []
  globals : List Global := []
  typeDefinitions : Names Ty := ∅
  strings : Names String := ∅

namespace Module

def addFunction (m : Module) (f : Function) : Module :=
  { m with functions := m.functions ++ [f] }

def addGlobal (m : Module) (g : Global) : Module :=
  { m with globals := m.globals ++ [g] }

def function? (m : Module) (name : String) : Option Function :=
  m.functions.find? (·.name = name)

def functionIndex? (m : Module) (name : String) : Option Nat :=
  m.functions.findIdx? (·.name = name)

def modifyFunction (m : Module) (name : String) (change : Function → Function) : Module :=
  { m with functions := modifyFirst (·.name = name) change m.functions }

def global? (m : Module) (name : String) : Option Global :=
  m.globals.find? (·.name = name)

def modifyGlobal (m : Module) (name : String) (change : Global → Global) : Module :=
  { m with globals := modifyFirst (·.name = name) change m.globals }

def stringConstant (text : String) : Constant :=
  let bytes := (Text.Utf8.encode text ++ [0]).map fun (b : UInt8) =>
    Constant.ofInt .i8 (Int64.ofNat b.toNat)
  .array (.array bytes.length .i8) bytes

def intern (m : Module) (text : String) : Constant × Module :=
  match m.strings[text]?.bind m.global? with
  | some g => (g.address, m)
  | none =>
    let name := m.name ++ ".str." ++ toString m.strings.size
    let init := stringConstant text
    let g : Global :=
      { name, ty := init.ty, isConstant := true, initializer := some init, linkage := .hidden }
    (g.address, { m.addGlobal g with strings := m.strings.insert text name })

/--
Puts one symbol among others. A definition replaces a declaration of the same name, a declaration
gives way to what is there, and of two definitions neither can.
-/
def linkSymbol (name : α → String) (isDeclaration : α → Bool) (new : α) (symbols : List α) :
    Except CodeError (List α) :=
  match symbols.find? (name · = name new) with
  | none => .ok (symbols ++ [new])
  | some old =>
    if isDeclaration new then .ok symbols
    else if isDeclaration old then .ok (modifyFirst (name · = name new) (fun _ => new) symbols)
    else .error (.linkConflict (name new))

def linkSymbols (name : α → String) (isDeclaration : α → Bool) :
    List α → List α → Except CodeError Unit × List α
  | [], symbols => (.ok (), symbols)
  | new :: rest, symbols =>
    match linkSymbol name isDeclaration new symbols with
    | .ok symbols => linkSymbols name isDeclaration rest symbols
    | .error e => (.error e, symbols)

/--
Merges functions, then globals, then type definitions of another module. What was merged before a
conflict stays. Interned strings keep their globals but are not shared.
-/
def link (m other : Module) : Except CodeError Unit × Module :=
  match linkSymbols Function.name Function.isDeclaration other.functions m.functions with
  | (.error e, functions) => (.error e, { m with functions })
  | (.ok (), functions) =>
    match linkSymbols Global.name Global.isDeclaration other.globals m.globals with
    | (.error e, globals) => (.error e, { m with functions, globals })
    | (.ok (), globals) =>
      let typeDefinitions := other.typeDefinitions.toList.foldl
        (fun defs (name, ty) => defs.insertIfNew name ty) m.typeDefinitions
      (.ok (), { m with functions, globals, typeDefinitions })

def typeDefinitionText : String × Ty → String
  | (name, .struct _ fields _) =>
    "%" ++ name ++ " = type \x7b " ++ ", ".intercalate (fields.map Ty.text) ++ " \x7d\n"
  | _ => ""

def text (m : Module) : String :=
  "; ModuleID = '" ++ m.name ++ "'\n"
    ++ String.join (m.typeDefinitions.toList.map typeDefinitionText)
    ++ String.join (m.globals.map fun g => g.text ++ "\n")
    ++ String.join (m.functions.map fun f => "\n" ++ f.text)

end Module

end ScriptedIR
