import ScriptedIR.Instruction

/-!
What can be wrong with code: refused instructions, missing blocks, symbols defined twice and blocks
that do not pass verification. `CodeError.message` holds the wording.
-/

namespace ScriptedIR

inductive Expectation where
  | type (ty : Ty)
  | kind (kind : Kind)
  | integerOrPointer
  | structOrArray
  | functionPointer
deriving DecidableEq, Repr

def Expectation.text : Expectation → String
  | type ty => ty.text
  | kind k => k.text
  | integerOrPointer => "integer or pointer"
  | structOrArray => "struct or array"
  | functionPointer => "function pointer"

inductive OperandFault where
  | noCast (source target : Ty)
  | noIndex
  | fieldNotConstant
  | noField (index : Int64) (ty : Ty)
  | notIndexable (ty : Ty)
  | memberRange (index : Nat) (ty : Ty)
  | laneRange (lane : Nat)
  | argumentCount (expected found : Nat)
deriving DecidableEq, Repr

def OperandFault.message : OperandFault → String
  | noCast source target => "cannot cast " ++ source.text ++ " to " ++ target.text
  | noIndex => "at least one index is required"
  | fieldNotConstant => "struct index must be a constant"
  | noField index ty => "no field " ++ toString index.toInt ++ " in " ++ ty.text
  | notIndexable ty => "cannot index into " ++ ty.text
  | memberRange index ty => "index " ++ toString index ++ " out of range for " ++ ty.text
  | laneRange lane => "mask lane " ++ toString lane ++ " out of range"
  | argumentCount expected found =>
    "expected " ++ toString expected ++ " arguments, found " ++ toString found

inductive BlockFault where
  | empty
  | unterminated
  | early (count : Nat)
  | unknownTarget (target : BlockId)
deriving DecidableEq, Repr

def BlockFault.message : BlockFault → String
  | empty => "block is empty"
  | unterminated => "block does not end in a terminator"
  | early count => toString count ++ " terminator(s) before the end of the block"
  | unknownTarget target => "branch to unknown block " ++ target.text

inductive CodeError where
  | unknownBlock (function : String) (block : BlockId)
  | typeMismatch (operation : String) (expected : Expectation) (found : Ty)
  | invalidOperand (operation : String) (fault : OperandFault)
  | blockTerminated (function : String) (block : BlockId)
  | linkConflict (symbol : String)
  | verification (function : String) (block : BlockId) (fault : BlockFault)
deriving DecidableEq, Repr

def CodeError.message : CodeError → String
  | unknownBlock function block =>
    "Block " ++ block.text ++ " not found in function '" ++ function ++ "'"
  | typeMismatch operation expected found =>
    operation ++ ": expected " ++ expected.text ++ ", found " ++ found.text
  | invalidOperand operation fault => operation ++ ": " ++ fault.message
  | blockTerminated function block =>
    "Block " ++ block.text ++ " of function '" ++ function ++ "' is already terminated"
  | linkConflict symbol => "Symbol '" ++ symbol ++ "' is defined more than once"
  | verification function block fault =>
    "Verification failed in '" ++ function ++ "' at " ++ block.text ++ ": " ++ fault.message

end ScriptedIR
