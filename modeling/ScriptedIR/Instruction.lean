import ScriptedIR.Constant
import ScriptedIR.Op

/-!
Instructions. A right-hand side (`Rhs`) computes a value of a known type; an instruction names such
a value, calls a function, or acts without producing a value. The last instruction of a complete
block is a terminator.
-/

namespace ScriptedIR

abbrev BlockId := Nat

def BlockId.text (b : BlockId) : String := "bb" ++ toString b

inductive Rhs where
  | binary (op : BinaryOp) (lhs rhs : Value) (ty : Ty)
  | icmp (predicate : IntPredicate) (lhs rhs : Value)
  | fcmp (predicate : FloatPredicate) (lhs rhs : Value)
  | cast (op : CastOp) (value : Value) (target : Ty)
  | alloca (ty : Ty) (count : Option Value)
  | malloc (ty : Ty) (count : Option Value)
  | load (ptr : Value) (ty : Ty)
  | gep (ptr : Value) (indices : List Value) (ty : Ty)
  | extractValue (aggregate : Value) (path : List Nat) (ty : Ty)
  | insertValue (aggregate element : Value) (path : List Nat)
  | extractElement (vector index : Value) (ty : Ty)
  | insertElement (vector element index : Value)
  | shuffle (lhs rhs : Value) (mask : List Nat) (ty : Ty)
  | ptrDiff (lhs rhs : Value)
  | select (condition ifTrue ifFalse : Value)
deriving Repr

inductive Instruction where
  | define (result : Temp) (rhs : Rhs)
  | call (result : Option Temp) (callee : Value) (args : List Value) (ty : Ty)
  | free (ptr : Value)
  | store (value ptr : Value)
  | ret (value : Option Value)
  | branch (target : BlockId)
  | branchIf (condition : Value) (ifTrue ifFalse : BlockId)
  | unreachable
  | comment (text : String)
deriving Repr

namespace Rhs

def ty : Rhs → Ty
  | binary _ _ _ ty => ty
  | icmp .. => .i1
  | fcmp .. => .i1
  | cast _ _ target => target
  | alloca ty _ => .pointer ty
  | malloc ty _ => .pointer ty
  | load _ ty => ty
  | gep _ _ ty => ty
  | extractValue _ _ ty => ty
  | insertValue aggregate _ _ => aggregate.ty
  | extractElement _ _ ty => ty
  | insertElement vector _ _ => vector.ty
  | shuffle _ _ _ ty => ty
  | ptrDiff .. => .i64
  | select _ ifTrue _ => ifTrue.ty

def countText : Option Value → String
  | none => ""
  | some count => ", " ++ count.typedText

def pathText (path : List Nat) : String :=
  String.join (path.map fun i => ", " ++ toString i)

def text : Rhs → String
  | binary op lhs rhs ty => op.text ++ " " ++ ty.text ++ " " ++ lhs.text ++ ", " ++ rhs.text
  | icmp p lhs rhs => "icmp " ++ p.text ++ " " ++ lhs.typedText ++ ", " ++ rhs.text
  | fcmp p lhs rhs => "fcmp " ++ p.text ++ " " ++ lhs.typedText ++ ", " ++ rhs.text
  | cast op value target => op.text ++ " " ++ value.typedText ++ " to " ++ target.text
  | alloca ty count => "alloca " ++ ty.text ++ countText count
  | malloc ty count => "malloc " ++ ty.text ++ countText count
  | load ptr ty => "load " ++ ty.text ++ "* " ++ ptr.text
  | gep ptr indices _ =>
    "getelementptr " ++ ", ".intercalate ((ptr :: indices).map Value.typedText)
  | extractValue aggregate path _ => "extractvalue " ++ aggregate.typedText ++ pathText path
  | insertValue aggregate element path =>
    "insertvalue " ++ aggregate.typedText ++ ", " ++ element.typedText ++ pathText path
  | extractElement vector index _ =>
    "extractelement " ++ vector.typedText ++ ", " ++ index.typedText
  | insertElement vector element index =>
    "insertelement " ++ vector.typedText ++ ", " ++ element.typedText ++ ", " ++ index.typedText
  | shuffle lhs rhs mask _ =>
    "shufflevector " ++ lhs.typedText ++ ", " ++ rhs.typedText ++ ", <"
      ++ ", ".intercalate (mask.map fun lane => "i32 " ++ toString lane) ++ ">"
  | ptrDiff lhs rhs => "ptrdiff " ++ lhs.typedText ++ ", " ++ rhs.text
  | select condition ifTrue ifFalse =>
    "select i1 " ++ condition.text ++ ", " ++ ifTrue.typedText ++ ", " ++ ifFalse.typedText

end Rhs

namespace Instruction

def isTerminator : Instruction → Bool
  | ret _ | branch _ | branchIf .. | unreachable => true
  | _ => false

def result? : Instruction → Option Temp
  | define result _ => some result
  | call result .. => result
  | _ => none

def successors : Instruction → List BlockId
  | branch target => [target]
  | branchIf _ ifTrue ifFalse => [ifTrue, ifFalse]
  | _ => []

def resultText : Option Temp → String
  | some result => "%" ++ toString result ++ " = "
  | none => ""

def text : Instruction → String
  | define result rhs => resultText (some result) ++ rhs.text
  | call result callee args ty =>
    resultText result ++ "call " ++ ty.text ++ " " ++ callee.text ++ "("
      ++ ", ".intercalate (args.map Value.typedText) ++ ")"
  | free ptr => "free " ++ ptr.typedText
  | store value ptr => "store " ++ value.typedText ++ ", " ++ ptr.typedText
  | ret (some value) => "ret " ++ value.typedText
  | ret none => "ret void"
  | branch target => "br label %" ++ target.text
  | branchIf condition ifTrue ifFalse =>
    "br i1 " ++ condition.text ++ ", label %" ++ ifTrue.text ++ ", label %" ++ ifFalse.text
  | unreachable => "unreachable"
  | comment text => "; " ++ text

end Instruction

end ScriptedIR
