/-!
Operators of the code: two-operand arithmetic, comparison predicates and casts.
-/

namespace ScriptedIR

inductive BinaryOp where
  | add
  | sub
  | mul
  | sdiv
  | udiv
  | srem
  | urem
  | fadd
  | fsub
  | fmul
  | fdiv
  | frem
  | and
  | or
  | xor
  | shl
  | lshr
  | ashr
deriving DecidableEq, Repr

namespace BinaryOp

def isFloat : BinaryOp → Bool
  | fadd | fsub | fmul | fdiv | frem => true
  | _ => false

def isDivision : BinaryOp → Bool
  | sdiv | udiv | srem | urem | fdiv | frem => true
  | _ => false

def text : BinaryOp → String
  | add => "add"
  | sub => "sub"
  | mul => "mul"
  | sdiv => "sdiv"
  | udiv => "udiv"
  | srem => "srem"
  | urem => "urem"
  | fadd => "fadd"
  | fsub => "fsub"
  | fmul => "fmul"
  | fdiv => "fdiv"
  | frem => "frem"
  | and => "and"
  | or => "or"
  | xor => "xor"
  | shl => "shl"
  | lshr => "lshr"
  | ashr => "ashr"

end BinaryOp

inductive IntPredicate where
  | eq
  | ne
  | ugt
  | uge
  | ult
  | ule
  | sgt
  | sge
  | slt
  | sle
deriving DecidableEq, Repr

def IntPredicate.text : IntPredicate → String
  | eq => "eq"
  | ne => "ne"
  | ugt => "ugt"
  | uge => "uge"
  | ult => "ult"
  | ule => "ule"
  | sgt => "sgt"
  | sge => "sge"
  | slt => "slt"
  | sle => "sle"

/--
Comparisons of floats. With a NaN among the operands the ordered ones are false and the unordered
ones are true.
-/
inductive FloatPredicate where
  | oeq
  | ogt
  | oge
  | olt
  | ole
  | one
  | ord
  | ueq
  | ugt
  | uge
  | ult
  | ule
  | une
  | uno
deriving DecidableEq, Repr

namespace FloatPredicate

def text : FloatPredicate → String
  | oeq => "oeq"
  | ogt => "ogt"
  | oge => "oge"
  | olt => "olt"
  | ole => "ole"
  | one => "one"
  | ord => "ord"
  | ueq => "ueq"
  | ugt => "ugt"
  | uge => "uge"
  | ult => "ult"
  | ule => "ule"
  | une => "une"
  | uno => "uno"

def holds (p : FloatPredicate) (x y : Float) : Bool :=
  let unordered := x.isNaN || y.isNaN
  match p with
  | oeq => !unordered && x == y
  | ogt => !unordered && y < x
  | oge => !unordered && y ≤ x
  | olt => !unordered && x < y
  | ole => !unordered && x ≤ y
  | one => !unordered && x != y
  | ord => !unordered
  | ueq => unordered || x == y
  | ugt => unordered || y < x
  | uge => unordered || y ≤ x
  | ult => unordered || x < y
  | ule => unordered || x ≤ y
  | une => unordered || x != y
  | uno => unordered

end FloatPredicate

inductive CastOp where
  | trunc
  | zext
  | sext
  | fptrunc
  | fpext
  | fptosi
  | fptoui
  | sitofp
  | uitofp
  | ptrtoint
  | inttoptr
  | bitcast
deriving DecidableEq, Repr

def CastOp.text : CastOp → String
  | trunc => "trunc"
  | zext => "zext"
  | sext => "sext"
  | fptrunc => "fptrunc"
  | fpext => "fpext"
  | fptosi => "fptosi"
  | fptoui => "fptoui"
  | sitofp => "sitofp"
  | uitofp => "uitofp"
  | ptrtoint => "ptrtoint"
  | inttoptr => "inttoptr"
  | bitcast => "bitcast"

inductive Signedness where
  | signed
  | unsigned
deriving DecidableEq, Repr

end ScriptedIR
