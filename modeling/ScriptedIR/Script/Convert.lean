import ScriptedIR.Module
import ScriptedIR.Script.Error

/-!
Conversion of operands to typed values. Literals become constants of the hinted type, or of a type
of their own when there is no hint; a text becomes a pointer to an interned copy of it, so
conversion may add to a module. What was interned before a failure stays.
-/

namespace ScriptedIR

abbrev Interning := ExceptT ScriptError (StateM Module)

def Interning.text (s : String) : Interning Constant :=
  fun m => let (c, m) := m.intern s; (.ok c, m)

namespace Hint

def decimalType : Option Hint → Ty
  | some (type (.float p)) => .float p
  | _ => .f32

def integerType (default : Ty) : Option Hint → Ty
  | some (type (.int w)) => .int w
  | _ => default

def pointerType : Option Hint → Ty
  | some (type ty) => ty
  | _ => .bytePointer

end Hint

def Constant.ofElements (kind : Kind) (element : Ty) (cs : List Constant) : Constant :=
  if kind = .vector then .vector (.vector cs.length element) cs
  else .array (.array cs.length element) cs

namespace Operand

def mismatch (o : Operand) (hint : Option Hint) : Interning α :=
  throw (.typeMismatch o hint)

def decimal (o : Operand) (hint : Option Hint) : Interning Value :=
  match o.toFloat? with
  | some x => return .ofFloat (Hint.decimalType hint) x
  | none => o.mismatch hint

def integer (o : Operand) (hint : Option Hint) : Interning Value :=
  match o.toInt? with
  | some n => return .ofInt (Hint.integerType .i32 hint) n
  | none => o.mismatch hint

mutual

/--
Converts an operand to a value as hinted.

A typed value has to be as hinted already. A function becomes its address, whatever the hint. Zero
and null become a null pointer where a pointer is hinted. A text that is hinted to be a number reads
as the number at its start, and one that is hinted to be an array as its bytes with a zero behind.
The elements of a list take the hinted element type, or that of the first one, and have to be
constants.
-/
def convert : Operand → Option Hint → Interning Value
  | .value v, hint =>
    if hint.all (·.accepts v.ty) then return v else (value v).mismatch hint
  | .function f, _ => return f.address
  | .bool b, hint =>
    match hint.map Hint.toKind with
    | none | some .numeric | some .integer =>
      return .ofInt (Hint.integerType .i1 hint) (if b then 1 else 0)
    | _ => (bool b).mismatch hint
  | .null, hint =>
    match hint.map Hint.toKind with
    | some .pointer => return .const (.null (Hint.pointerType hint))
    | some .decimal => null.decimal hint
    | some .integer | some .numeric => null.integer hint
    | _ => null.mismatch hint
  | .int n, hint =>
    match hint.map Hint.toKind with
    | some .pointer =>
      if n = 0 then return .const (.null (Hint.pointerType hint)) else (int n).mismatch hint
    | some .decimal => (int n).decimal hint
    | none | some .integer | some .numeric => (int n).integer hint
    | _ => (int n).mismatch hint
  | .float x, hint =>
    match hint.map Hint.toKind with
    | none | some .decimal | some .numeric => (float x).decimal hint
    | some .integer => (float x).integer hint
    | _ => (float x).mismatch hint
  | .str s, hint =>
    match hint.map Hint.toKind with
    | some .decimal => (str s).decimal hint
    | some .integer | some .numeric => (str s).integer hint
    | none | some .pointer => do
      return .const (.bitCast (← Interning.text s) (Hint.pointerType hint))
    | some .array =>
      let bytes := Module.stringConstant s
      if hint.all fun h => h.type?.all (· = bytes.ty) then return .const bytes
      else (str s).mismatch hint
    | _ => (str s).mismatch hint
  | .list items, hint => do
    let kind ← match hint.map Hint.toKind with
      | none | some .array => pure Kind.array
      | some .vector => pure Kind.vector
      | _ => (list items).mismatch hint
    let ty := hint.bind Hint.type?
    if ty.any (·.length? ≠ some items.length) then (list items).mismatch hint
    let (cs, element) ← convertItems kind items (ty.bind Ty.element?)
    match element with
    | some element => return .const (.ofElements kind element cs)
    | none => throw (.argument (.emptyList kind))

def convertItems (kind : Kind) : List Operand → Option Ty → Interning (List Constant × Option Ty)
  | [], element => return ([], element)
  | item :: items, element => do
    match ← item.convert (element.map .type) with
    | .const c =>
      let (cs, element) ← convertItems kind items (some (element.getD c.ty))
      return (c :: cs, element)
    | v => throw (.argument (.elementNotConstant kind v.ty))

end

end Operand

end ScriptedIR
