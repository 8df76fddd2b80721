import ScriptedIR.Constant
import ScriptedIR.Text.Quoted

/-!
Data of a running program: what temporaries and memory cells hold. A pointer names an allocation and
a path into it: an element of the allocation first, then members of aggregates.
-/

namespace ScriptedIR

inductive Pointer where
  | null
  | memory (alloc : Nat) (path : List Int)
deriving DecidableEq, Repr

def shiftLast (amount : Int) : List Int → List Int
  | [] => []
  | [i] => [i + amount]
  | i :: j :: rest => i :: shiftLast amount (j :: rest)

namespace Pointer

def isNull : Pointer → Bool
  | null => true
  | memory .. => false

def alloc : Pointer → Nat
  | null => 0
  | memory alloc _ => alloc

def path : Pointer → List Int
  | null => []
  | memory _ path => path

def offset (p : Pointer) (amount : Int) : Pointer :=
  match p with
  | null => null
  | memory alloc path => memory alloc (shiftLast amount path)

def child (p : Pointer) (index : Int) : Pointer :=
  match p with
  | null => null
  | memory alloc path => memory alloc (path ++ [index])

@[simp]
theorem path_offset (p : Pointer) (amount : Int) :
    (p.offset amount).path = shiftLast amount p.path := by
  cases p <;> simp [offset, path, shiftLast]

def text : Pointer → String
  | null => "null"
  | memory alloc path =>
    "&" ++ toString alloc ++ String.join (path.map fun i => "[" ++ toString i ++ "]")

end Pointer

inductive Datum where
  | int (value : Int64)
  | float (value : Float)
  | pointer (p : Pointer)
  | function (name : String)
  | aggregate (members : List Datum)
  | undef
  | void
deriving Repr, Inhabited

namespace Datum

def ofInt (ty : Ty) (value : Int64) : Datum :=
  .int (Word.normalize ty.wordWidth value)

def ofBool (b : Bool) : Datum :=
  .int (if b then 1 else 0)

mutual

def zero : Ty → Datum
  | .int _ => .int 0
  | .float _ => .float 0.0
  | .pointer _ => .pointer .null
  | .array n t => .aggregate (List.replicate n (zero t))
  | .vector n t => .aggregate (List.replicate n (zero t))
  | .struct _ fields _ => .aggregate (zeros fields)
  | _ => .undef

def zeros : List Ty → List Datum
  | [] => []
  | t :: ts => zero t :: zeros ts

end

def asInt? : Datum → Option Int64
  | int v => some v
  | _ => none

def asFloat? : Datum → Option Float
  | float x => some x
  | _ => none

def asPointer? : Datum → Option Pointer
  | pointer p => some p
  | _ => none

def asAggregate? : Datum → Option (List Datum)
  | aggregate ds => some ds
  | _ => none

def floatStyle : Decimal.Style where
  positional _ := true
  pointed := false

mutual

def text : Datum → String
  | .int v => toString v.toInt
  | .float x => floatStyle.text x
  | .pointer p => p.text
  | .function name => "@" ++ name
  | .aggregate ds => "[" ++ ", ".intercalate (texts ds) ++ "]"
  | .undef => "undef"
  | .void => "void"

def texts : List Datum → List String
  | [] => []
  | d :: ds => text d :: texts ds

end

def pointerDescription : Pointer → String
  | .null => "Null"
  | .memory alloc path =>
    "Memory \x7b alloc: " ++ toString alloc ++ ", path: ["
      ++ ", ".intercalate (path.map toString) ++ "] \x7d"

mutual

def description : Datum → String
  | .int v => "Int(" ++ toString v.toInt ++ ")"
  | .float x => "Float(" ++ Constant.floatStyle.text x ++ ")"
  | .pointer p => "Pointer(" ++ pointerDescription p ++ ")"
  | .function name => "Function(" ++ Text.quoted name ++ ")"
  | .aggregate ds => "Aggregate([" ++ ", ".intercalate (descriptions ds) ++ "])"
  | .undef => "Undef"
  | .void => "Void"

def descriptions : List Datum → List String
  | [] => []
  | d :: ds => description d :: descriptions ds

end

end Datum

end ScriptedIR
