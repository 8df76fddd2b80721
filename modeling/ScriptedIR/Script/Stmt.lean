import ScriptedIR.Op
import ScriptedIR.Script.Operator

/-!
Scripts as data: expressions stand for operands, and statements are run one after another to build
the body of a function. A macro is a list of statements that is run wherever the macro is called.
-/

namespace ScriptedIR

inductive Expr where
  | operand (o : Operand)
  | list (items : List Expr)
  | function (name : String)
  | address (name : String)
  | var (name : String)
  | param (index : Nat)
deriving Repr

/--
Operations on two numbers. The integer or decimal flavour depends on the first one.
-/
inductive Arithmetic where
  | add
  | sub
  | mul
  | div (s : Signedness)
  | rem (s : Signedness)
  | shl
  | ashr
  | lshr
deriving DecidableEq, Repr

inductive Retyping where
  | bitcast
  | trunc
  | sext
  | zext
  | ftoi (s : Signedness)
  | itof (s : Signedness)
  | ptrtoint
  | inttoptr
  | resize
deriving DecidableEq, Repr

inductive Index (α : Type) where
  | element (a : α)
  | field (name : String)
deriving Repr

inductive Operation (α : Type) where
  | arithmetic (op : Arithmetic) (lhs rhs : α)
  | operator (op : Operator) (lhs rhs : α)
  | neg (a : α)
  | invert (a : α)
  | increase (ptr amount : α)
  | decrease (ptr amount : α)
  | select (condition ifTrue ifFalse : α)
  | isNull (a : α)
  | isNotNull (a : α)
  | retype (op : Retyping) (a : α) (target : Ty)
  | distance (lhs rhs : α)
  | alloca (ty : Ty) (size : Option α)
  | malloc (ty : Ty) (size : Option α)
  | load (ptr : α)
  | elementAddress (ptr : α) (indices : List (Index α))
  | loadElement (ptr : α) (indices : List (Index α))
  | storeElement (ptr : α) (indices : List (Index α)) (a : α)
  | extract (a index : α)
  | insert (a element index : α)
  | shuffle (lhs rhs mask : α)
  | global (name : String)
  | string (text : String)
  | convert (a : α) (hint : Option Hint)
deriving Repr

inductive BlockRef where
  | next
  | exit
  | returning
  | start
  | current
  | named (handle : String)
  | id (block : BlockId)
deriving DecidableEq, Repr

/--
A block that was built on its own: where it starts, where it ends and whether it is finished there.
-/
structure BlockHandle where
  start : BlockId
  current : BlockId
  finished : Bool
deriving DecidableEq, Repr

inductive HandleRef where
  | named (name : String)
  | given (handle : BlockHandle)
deriving DecidableEq, Repr

inductive Arm (β η : Type) where
  | body (b : β)
  | built (handle : η)
deriving Repr

inductive Stmt where
  | compute (op : Operation Expr) (name : Option String)
  | operate (op : String) (lhs rhs : Expr) (name : Option String)
  | free (ptr : Expr)
  | store (a ptr : Expr)
  | ret (a : Expr)
  | directRet (a : Expr)
  | prepareRet (a : Expr)
  | conditionalRet (condition a : Expr) (otherwise : Option BlockRef)
  | branch (target : BlockRef)
  | unreachable
  | finish
  | comment (text : String)
  | returnBlock
  | fail (message : String)
  | bind (a : Expr) (name : String)
  | call (callee : Expr) (args : List Expr) (name : Option String)
  | block (label : String) (body : List Stmt) (handle : Option String)
  | cond (condition : Expr) (ifTrue : Arm (List Stmt) HandleRef)
      (ifFalse : Option (Arm (List Stmt) HandleRef)) (exit : Option BlockRef)
  | loop (vars : List Expr) (names : List String) (compare : Option (List Stmt × Expr))
      (body increment : Option (List Stmt)) (exit : Option BlockRef)
  | inspect
  | attempt (s : Stmt)
deriving Repr

structure Macro where
  name : String
  arity : Nat
  params : List String
  body : List Stmt
  result : Expr
deriving Repr

namespace Operation

variable {α β : Type} {ε : Type}

def evaluate (f : α → Except ε β) : Operation α → Except ε (Operation β)
  | arithmetic op lhs rhs => return arithmetic op (← f lhs) (← f rhs)
  | operator op lhs rhs => return operator op (← f lhs) (← f rhs)
  | neg a => return neg (← f a)
  | invert a => return invert (← f a)
  | increase ptr amount => return increase (← f ptr) (← f amount)
  | decrease ptr amount => return decrease (← f ptr) (← f amount)
  | select condition ifTrue ifFalse => return select (← f condition) (← f ifTrue) (← f ifFalse)
  | isNull a => return isNull (← f a)
  | isNotNull a => return isNotNull (← f a)
  | retype op a target => return retype op (← f a) target
  | distance lhs rhs => return distance (← f lhs) (← f rhs)
  | alloca ty size => return alloca ty (← size.mapM f)
  | malloc ty size => return malloc ty (← size.mapM f)
  | load ptr => return load (← f ptr)
  | elementAddress ptr indices => return elementAddress (← f ptr) (← indices.mapM index)
  | loadElement ptr indices => return loadElement (← f ptr) (← indices.mapM index)
  | storeElement ptr indices a => return storeElement (← f ptr) (← indices.mapM index) (← f a)
  | extract a i => return extract (← f a) (← f i)
  | insert a element i => return insert (← f a) (← f element) (← f i)
  | shuffle lhs rhs mask => return shuffle (← f lhs) (← f rhs) (← f mask)
  | global name => return global name
  | string text => return string text
  | convert a hint => return convert (← f a) hint
where
  index : Index α → Except ε (Index β)
    | .element a => return .element (← f a)
    | .field name => return .field name

end Operation

end ScriptedIR
