import ScriptedIR.Constant
import ScriptedIR.Text.Number

/-!
Operands: what a script hands to an operation, before it is a typed value. A `Hint` says what an
operation expects.
-/

namespace ScriptedIR

structure FunctionRef where
  name : String
  symbol : String
  signature : Ty.Signature
deriving DecidableEq, Repr

namespace FunctionRef

def pointerType (f : FunctionRef) : Ty := .pointer f.signature.ty

def address (f : FunctionRef) : Value := .const (.functionAddr f.symbol f.pointerType)

end FunctionRef

inductive Operand where
  | value (v : Value)
  | bool (b : Bool)
  | int (n : Int64)
  | float (x : Float)
  | str (s : String)
  | list (items : List Operand)
  /-- Zero, a null pointer or no value at all, as the operation has it. -/
  | null
  | function (f : FunctionRef)
deriving Repr

def Ty.innermost : Ty → Ty
  | .pointer t => t.innermost
  | t => t

def Kind.name (k : Kind) : String := k.text.capitalize

def Ty.name : Ty → String
  | .int width => "Int" ++ toString width.bits
  | .float .single => "Float"
  | .float .double => "Double"
  | .pointer t => t.innermost.kind.name ++ " pointer"
  | t => t.kind.name

namespace Operand

def isNull : Operand → Bool
  | null => true
  | _ => false

def asValue? : Operand → Option Value
  | value v => some v
  | _ => none

def toInt? : Operand → Option Int64
  | int n => some n
  | float x => some x.toInt64
  | str s => some (Text.leadingInt s)
  | null => some 0
  | _ => none

def toFloat? : Operand → Option Float
  | int n => some n.toFloat
  | float x => some x
  | str s => some (Text.leadingFloat s)
  | null => some 0.0
  | _ => none

def typeName : Operand → String
  | value v => v.ty.name
  | bool _ => "Boolean"
  | int _ => "Integer"
  | float _ => "Float"
  | str _ => "String"
  | list _ => "Array"
  | null => "Nil"
  | function _ => "Function"

end Operand

inductive Hint where
  | type (ty : Ty)
  | kind (k : Kind)
deriving Repr

namespace Hint

def toKind : Hint → Kind
  | type ty => ty.kind
  | kind k => k

def type? : Hint → Option Ty
  | type ty => some ty
  | kind _ => none

def name : Hint → String
  | type ty => ty.name
  | kind k => k.name

def accepts : Hint → Ty → Bool
  | type ty, found => found = ty
  | kind k, found => k.accepts found.kind

end Hint

end ScriptedIR
