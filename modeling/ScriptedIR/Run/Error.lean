import ScriptedIR.Instruction
import ScriptedIR.Run.Datum

/-!
Why a run stops without a value. `RunError.message` holds the wording.
-/

namespace ScriptedIR

inductive PointerFault where
  | nullDereference
  | freed (p : Pointer)
  | emptyPath (p : Pointer)
  | outOfBounds (p : Pointer)
  | intoScalar (p : Pointer)
  | neverAllocated (p : Pointer)
  | freedTwice (p : Pointer)
  | notAByte (p : Pointer) (found : Datum)
  | unknownGlobal (name : String)
deriving Repr

def PointerFault.message : PointerFault → String
  | nullDereference => "null pointer dereference"
  | freed p => p.text ++ " refers to freed memory"
  | emptyPath p => p.text ++ " has an empty path"
  | outOfBounds p => p.text ++ " is out of bounds"
  | intoScalar p => p.text ++ " indexes into a scalar"
  | neverAllocated p => p.text ++ " was never allocated"
  | freedTwice p => p.text ++ " freed twice"
  | notAByte p found => p.text ++ " holds " ++ found.text ++ ", not a byte"
  | unknownGlobal name => "unknown global @" ++ name

inductive Shape where
  | integer
  | float
  | pointer
  | aggregate
deriving DecidableEq, Repr

def Shape.text : Shape → String
  | integer => "integer"
  | float => "float"
  | pointer => "pointer"
  | aggregate => "aggregate"

inductive TypeFault where
  | expected (shape : Shape) (found : Datum)
  | undefinedTemp (temp : Temp) (function : String)
  | tempRange (temp : Temp)
  | interiorPointer (p : Pointer)
  | notAnInteger (op : BinaryOp)
  | notAFloat (op : BinaryOp)
  | negativeCount
  | memberRange (index : Nat)
  | insertIntoScalar
  | laneRange (index : Int64)
  | insertLaneIntoScalar
  | maskRange (lane : Nat)
  | unrelatedPointers
  | notCallable (found : Datum)
  | hostPointer (host : String) (index : Nat)
  | hostInteger (host : String) (index : Nat)
  | formatArguments
  | refused (message : String)
deriving Repr

def TypeFault.message : TypeFault → String
  | expected shape found => "expected " ++ shape.text ++ ", found " ++ found.text
  | undefinedTemp temp function =>
    "%" ++ toString temp ++ " used before definition in '" ++ function ++ "'"
  | tempRange temp => "%" ++ toString temp ++ " out of range"
  | interiorPointer p => "cannot convert interior pointer " ++ p.text ++ " to an integer"
  | notAnInteger op => op.text ++ " is not an integer operation"
  | notAFloat op => op.text ++ " is not a float operation"
  | negativeCount => "negative allocation count"
  | memberRange index => "aggregate index " ++ toString index ++ " out of range"
  | insertIntoScalar => "insertvalue into a scalar"
  | laneRange index => "vector lane " ++ toString index.toInt ++ " out of range"
  | insertLaneIntoScalar => "insertelement into a scalar"
  | maskRange lane => "mask lane " ++ toString lane ++ " out of range"
  | unrelatedPointers => "ptrdiff between unrelated pointers"
  | notCallable found => "call through non-function value " ++ found.text
  | hostPointer host index =>
    host ++ ": argument " ++ toString index ++ " must be a pointer"
  | hostInteger host index =>
    host ++ ": argument " ++ toString index ++ " must be an integer"
  | formatArguments => "printf: too few arguments for format"
  | refused message => message

/--
What no error of a run stands for: the machine itself breaks down, in the middle of a call.
-/
inductive Breakdown where
  | slots (count : Nat)
  /-- The distance between two pointers without a last entry. -/
  | noEntry
  | overflow (verb : String)
deriving DecidableEq, Repr

def Breakdown.message : Breakdown → String
  | slots count =>
    "index out of bounds: the len is " ++ toString count ++ " but the index is " ++ toString count
  | noEntry => "attempt to subtract with overflow"
  | overflow verb => "attempt to " ++ verb ++ " with overflow"

inductive RunError where
  | unknownFunction (name : String)
  | unresolvedExternal (name : String)
  | argumentCount (function : String) (expected given : Nat)
  | invalidPointer (fault : PointerFault)
  | divisionByZero (function : String)
  | typeError (fault : TypeFault)
  | unreachable (function : String)
  | missingTerminator (function : String) (block : BlockId)
  | stepLimit (limit : Nat)
  | stackOverflow (depth : Nat)
  | breakdown (cause : Breakdown)
deriving Repr

def RunError.message : RunError → String
  | unknownFunction name => "Function '" ++ name ++ "' not found"
  | unresolvedExternal name => "External function '" ++ name ++ "' has no host implementation"
  | argumentCount function expected given =>
    "Function '" ++ function ++ "' expects " ++ toString expected ++ " arguments, "
      ++ toString given ++ " given"
  | invalidPointer fault => "Invalid pointer: " ++ fault.message
  | divisionByZero function => "Division by zero in '" ++ function ++ "'"
  | typeError fault => "Type error: " ++ fault.message
  | unreachable function => "Reached unreachable instruction in '" ++ function ++ "'"
  | missingTerminator function block =>
    "Block " ++ block.text ++ " of '" ++ function ++ "' has no terminator"
  | stepLimit limit => "Step limit of " ++ toString limit ++ " instructions exceeded"
  | stackOverflow depth => "Call depth limit of " ++ toString depth ++ " exceeded"
  | breakdown cause => cause.message

def Word.checked (verb : String) (v : Int) : Except RunError Int64 :=
  if Int64.minValue.toInt ≤ v ∧ v ≤ Int64.maxValue.toInt then .ok (Int64.ofInt v)
  else .error (.breakdown (.overflow verb))

def Pointer.move (p : Pointer) (amount : Int64) : Except RunError Pointer :=
  match p.path.getLast? with
  | none => .ok p
  | some last => do
    let _ ← Word.checked "add" ((Int64.ofInt last).toInt + amount.toInt)
    return p.offset amount.toInt

namespace Datum

def toInt : Datum → Except RunError Int64
  | int v => .ok v
  | d => .error (.typeError (.expected .integer d))

def toFloat : Datum → Except RunError Float
  | float x => .ok x
  | d => .error (.typeError (.expected .float d))

def toPointer : Datum → Except RunError Pointer
  | pointer p => .ok p
  | d => .error (.typeError (.expected .pointer d))

def toAggregate : Datum → Except RunError (List Datum)
  | aggregate ds => .ok ds
  | d => .error (.typeError (.expected .aggregate d))

end Datum

end ScriptedIR
