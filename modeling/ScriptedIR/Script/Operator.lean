import ScriptedIR.Op
import ScriptedIR.Script.Error

/-!
The named operators of scripts: comparisons, and the bitwise operations. Each is either for integers
or for decimal numbers, or chooses the instruction by what it is applied to.
-/

namespace ScriptedIR

inductive Operator where
  | and
  | or
  | xor
  | eq
  | ne
  | ugt
  | uge
  | ult
  | ule
  | sgt
  | sge
  | slt
  | sle
  | oeq
  | ogt
  | oge
  | olt
  | ole
  | one
  | ord
  | uno
  | ueq
  | une
deriving DecidableEq, Repr

inductive Lowering where
  | bitwise (op : BinaryOp)
  | integer (p : IntPredicate)
  | decimal (p : FloatPredicate)
deriving DecidableEq, Repr

namespace Operator

def text : Operator → String
  | and => "and"
  | or => "or"
  | xor => "xor"
  | eq => "eq"
  | ne => "ne"
  | ugt => "ugt"
  | uge => "uge"
  | ult => "ult"
  | ule => "ule"
  | sgt => "sgt"
  | sge => "sge"
  | slt => "slt"
  | sle => "sle"
  | oeq => "oeq"
  | ogt => "ogt"
  | oge => "oge"
  | olt => "olt"
  | ole => "ole"
  | one => "one"
  | ord => "ord"
  | uno => "uno"
  | ueq => "ueq"
  | une => "une"

def all : List Operator :=
  [and, or, xor, eq, ne, ugt, uge, ult, ule, sgt, sge, slt, sle, oeq, ogt, oge, olt, ole, one, ord,
    uno, ueq, une]

def parse (s : String) : Except ScriptError Operator :=
  match all.find? (·.text = s) with
  | some op => .ok op
  | none => .error (.argument (.unknownOperator s))

theorem parse_text (op : Operator) : parse op.text = .ok op := by
  cases op <;> rfl

def onIntegers? : Operator → Option Lowering
  | and => some (.bitwise .and)
  | or => some (.bitwise .or)
  | xor => some (.bitwise .xor)
  | eq => some (.integer .eq)
  | ne => some (.integer .ne)
  | sgt => some (.integer .sgt)
  | sge => some (.integer .sge)
  | slt => some (.integer .slt)
  | sle => some (.integer .sle)
  | ugt => some (.integer .ugt)
  | uge => some (.integer .uge)
  | ult => some (.integer .ult)
  | ule => some (.integer .ule)
  | _ => none

/--
The instruction for decimal numbers. A number that is none is equal to nothing.
-/
def onDecimals? : Operator → Option Lowering
  | eq => some (.decimal .oeq)
  | ne => some (.decimal .une)
  | ugt => some (.decimal .ugt)
  | uge => some (.decimal .uge)
  | ult => some (.decimal .ult)
  | ule => some (.decimal .ule)
  | oeq => some (.decimal .oeq)
  | ogt => some (.decimal .ogt)
  | oge => some (.decimal .oge)
  | olt => some (.decimal .olt)
  | ole => some (.decimal .ole)
  | one => some (.decimal .one)
  | ord => some (.decimal .ord)
  | uno => some (.decimal .uno)
  | ueq => some (.decimal .ueq)
  | une => some (.decimal .une)
  | _ => none

end Operator

end ScriptedIR
