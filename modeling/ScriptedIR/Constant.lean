import ScriptedIR.Decimal.Text
import ScriptedIR.Ty
import ScriptedIR.Word

/-!
Constants and values. A constant carries its type; nothing forces the parts of an aggregate to fit
it. A value is what an instruction takes as operand: a temporary or a constant.
-/

namespace ScriptedIR

abbrev Temp := Nat

inductive Constant where
  | int (ty : Ty) (value : Int64)
  | float (ty : Ty) (value : Float)
  | null (ty : Ty)
  | undef (ty : Ty)
  | array (ty : Ty) (elements : List Constant)
  | vector (ty : Ty) (elements : List Constant)
  | struct (ty : Ty) (fields : List Constant)
  | globalAddr (name : String) (ty : Ty)
  | functionAddr (name : String) (ty : Ty)
  | bitCast (value : Constant) (ty : Ty)
deriving Repr, Inhabited

namespace Constant

def ofInt (ty : Ty) (value : Int64) : Constant :=
  .int ty (Word.normalize ty.wordWidth value)

def ofFloat (ty : Ty) (value : Float) : Constant :=
  .float ty (ty.round value)

def ofBool (b : Bool) : Constant :=
  .int .i1 (if b then 1 else 0)

mutual

/--
Zero of a type: zeros in every member of an aggregate, the null pointer, and no definite value where
the type has no zero.
-/
def zero : Ty → Constant
  | .int w => ofInt (.int w) 0
  | .float p => ofFloat (.float p) 0.0
  | .pointer t => .null (.pointer t)
  | .array n t => .array (.array n t) (List.replicate n (zero t))
  | .vector n t => .vector (.vector n t) (List.replicate n (zero t))
  | .struct name fields packed => .struct (.struct name fields packed) (zeros fields)
  | t => .undef t

def zeros : List Ty → List Constant
  | [] => []
  | t :: ts => zero t :: zeros ts

end

def ty : Constant → Ty
  | int ty _ | float ty _ | null ty | undef ty | array ty _ | vector ty _ | struct ty _
  | globalAddr _ ty | functionAddr _ ty | bitCast _ ty => ty

mutual

def isZero : Constant → Bool
  | .int _ v => v = 0
  | .float _ x => x == 0.0
  | .null _ => true
  | .array _ cs => allZero cs
  | .vector _ cs => allZero cs
  | .struct _ cs => allZero cs
  | _ => false

def allZero : List Constant → Bool
  | [] => true
  | c :: cs => isZero c && allZero cs

end

def asInt? : Constant → Option Int64
  | int _ v => some v
  | _ => none

def floatStyle : Decimal.Style where
  positional e := -4 ≤ e && e < 16
  pointed := true

mutual

def text : Constant → String
  | .int (.int .w1) v => if v = 0 then "false" else "true"
  | .int _ v => toString v.toInt
  | .float _ x => floatStyle.text x
  | .null _ => "null"
  | .undef _ => "undef"
  | .array _ cs => "[" ++ ", ".intercalate (typedTexts cs) ++ "]"
  | .vector _ cs => "<" ++ ", ".intercalate (typedTexts cs) ++ ">"
  | .struct _ cs => "\x7b " ++ ", ".intercalate (typedTexts cs) ++ " \x7d"
  | .globalAddr name _ => "@" ++ name
  | .functionAddr name _ => "@" ++ name
  | .bitCast c t => "bitcast (" ++ c.ty.text ++ " " ++ text c ++ " to " ++ t.text ++ ")"

def typedTexts : List Constant → List String
  | [] => []
  | c :: cs => (c.ty.text ++ " " ++ text c) :: typedTexts cs

end

end Constant

inductive Value where
  | temp (id : Temp) (ty : Ty)
  | const (c : Constant)
deriving Repr, Inhabited

namespace Value

def ofInt (ty : Ty) (value : Int64) : Value := .const (.ofInt ty value)

def ofFloat (ty : Ty) (value : Float) : Value := .const (.ofFloat ty value)

def ty : Value → Ty
  | temp _ ty => ty
  | const c => c.ty

def asConstant? : Value → Option Constant
  | const c => some c
  | temp .. => none

def isZero : Value → Bool
  | const c => c.isZero
  | temp .. => false

def text : Value → String
  | temp id _ => "%" ++ toString id
  | const c => c.text

def typedText (v : Value) : String :=
  v.ty.text ++ " " ++ v.text

end Value

end ScriptedIR
