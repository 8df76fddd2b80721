import ScriptedIR.CodeError
import ScriptedIR.Layout
import ScriptedIR.Run.Error
import ScriptedIR.Script.Operand

/-!
What can go wrong while scripts are built, linked and run, with the wording of each cause in one
place, and the warnings that a library keeps.
-/

namespace ScriptedIR

inductive ArgumentFault where
  | elementNotConstant (list : Kind) (found : Ty)
  | emptyList (list : Kind)
  | blockTerminated (block : BlockId) (function : String)
  | notAPointer (operation : String) (found : Ty)
  | notAValue (operation : String)
  | unknownOperator (name : String)
  | operatorUnsupported (operator : String) (found : Ty)
  | noCast (source target : Ty)
  | notCallable (found : Ty)
  | leadingField (field : String)
  | fieldOfNoStruct (field : String) (found : Option Ty)
  | unknownStruct (name : String)
  | layout (e : LayoutError)
  | indexNotConstant (operation : String)
  | noMember (index : Nat) (found : Ty)
  | maskNotConstant
  | emptyLoop
  | noReturnValue (function : String)
  | noSuchBlock
  | noSuchParameter (index : Nat)
  | expansionDepth
  | unknownSymbol (name : String)
  | alreadyDeclared (name : String) (ty : Ty)
  | globalNotConstant (name : String)
  | globalDefined (name : String)
  | unnamedStruct
  | noMain (program : String)
  | alreadyDefined (name kind : String)
  | unknownNode (node : Nat)
  | unknownLibrary (name : String)
  | notALibrary (name : String)
  | importsItself (name : String)
  | importsIntoNamespace (name node : String)
  | raised (message : String)
deriving Repr

def ArgumentFault.message : ArgumentFault → String
  | elementNotConstant list found =>
    list.text ++ " elements must be constants, found " ++ found.name
  | emptyList list => "cannot infer the element type of an empty " ++ list.text
  | blockTerminated block function =>
    "cannot emit into " ++ block.text ++ " of " ++ function ++ ": the block is already terminated"
  | notAPointer operation found => operation ++ " requires a pointer, " ++ found.name ++ " given"
  | notAValue operation => operation ++ " requires an IR value"
  | unknownOperator name => "Invalid operator '" ++ name ++ "'"
  | operatorUnsupported operator found =>
    "operator '" ++ operator ++ "' cannot be applied to " ++ found.name
  | noCast source target => "cannot cast " ++ source.name ++ " to " ++ target.name
  | notCallable found => "cannot call a value of type " ++ found.name
  | leadingField field =>
    "gep cannot start with field '" ++ field ++ "'; the first index steps over the pointer"
  | fieldOfNoStruct field found =>
    "field '" ++ field ++ "' requires a named struct, " ++ (found.getD .void).name ++ " given"
  | unknownStruct name => "Unknown struct '" ++ name ++ "'"
  | layout e => e.message
  | indexNotConstant operation =>
    operation ++ " on an aggregate needs a constant, non-negative index"
  | noMember index found =>
    "insert needs an array or struct with an element " ++ toString index ++ ", " ++ found.name ++
      " given"
  | maskNotConstant => "shuffle mask must be a constant vector of lane numbers"
  | emptyLoop => "a loop needs at least one of a body, a comparison or an increment"
  | noReturnValue function => function ++ " must return a value"
  | noSuchBlock => "no such block"
  | noSuchParameter index => "no parameter " ++ toString index
  | expansionDepth => "macros are nested too deeply"
  | unknownSymbol name => "Unknown function, macro or global " ++ name
  | alreadyDeclared name ty => name ++ " is already declared as " ++ ty.text
  | globalNotConstant name => "global " ++ name ++ " needs a constant initializer"
  | globalDefined name => "global " ++ name ++ " is already defined"
  | unnamedStruct => "only named structs can be defined"
  | noMain program => program ++ " has no main function"
  | alreadyDefined name kind => name ++ " is already defined as a " ++ kind
  | unknownNode node => "unknown session node " ++ toString node
  | unknownLibrary name => "Unknown library " ++ name
  | notALibrary name => name ++ " is not a library"
  | importsItself name => name ++ " cannot import itself"
  | importsIntoNamespace name node => "cannot import " ++ name ++ " into namespace " ++ node
  | raised message => message

inductive ScriptError where
  | typeMismatch (given : Operand) (expected : Option Hint)
  | divisionByZero
  | argumentCount (name : String) (expected given : Nat)
  | unresolved (name : String)
  | argument (fault : ArgumentFault)
  | linkFailure (library message : String)
  | code (e : CodeError)
  | exitCode (found : Datum)
  | run (e : RunError)
deriving Repr

namespace ScriptError

def message : ScriptError → String
  | typeMismatch given expected =>
    let expected := match expected with
      | some hint => hint.name
      | none => "IR value, number, list, string or boolean"
    "Value passed to generator should be a " ++ expected ++ ". " ++ given.typeName ++ " given."
  | divisionByZero => "Division by zero"
  | argumentCount name expected given =>
    "Wrong number of arguments for " ++ name ++ " (" ++ toString given ++ " for " ++
      toString expected ++ ")"
  | unresolved name => "Undefined function, macro or global '" ++ name ++ "'"
  | argument fault => "Argument error: " ++ fault.message
  | linkFailure library message => "Failed to link library, " ++ library ++ ": " ++ message
  | code e => "Backend error: " ++ e.message
  | exitCode found => "Backend error: main returned " ++ found.description
  | run e => "Execution error: " ++ e.message

def ofCode : CodeError → ScriptError
  | .linkConflict symbol => linkFailure "" ("symbol '" ++ symbol ++ "' is defined more than once")
  | e => code e

end ScriptError

structure Diagnostic where
  message : String
  symbol : Option String := none
deriving DecidableEq, Repr

def Diagnostic.text (d : Diagnostic) : String :=
  "warning: " ++ d.message ++
    match d.symbol with
    | some symbol => " [" ++ symbol ++ "]"
    | none => ""

end ScriptedIR
