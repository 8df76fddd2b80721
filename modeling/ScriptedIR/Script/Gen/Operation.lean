import ScriptedIR.Script.Gen

/-!
The operations of scripts that give a value: their operands are converted from left to right, as the
first of them or the operation demands, and the instruction follows.
-/

namespace ScriptedIR

namespace Arithmetic

def operandKind : Arithmetic → Kind
  | shl | ashr | lshr => .integer
  | _ => .numeric

def isDivision : Arithmetic → Bool
  | div _ | rem _ => true
  | _ => false

def instruction (decimal : Bool) : Arithmetic → BinaryOp
  | add => if decimal then .fadd else .add
  | sub => if decimal then .fsub else .sub
  | mul => if decimal then .fmul else .mul
  | div .signed => if decimal then .fdiv else .sdiv
  | div .unsigned => if decimal then .fdiv else .udiv
  | rem .signed => if decimal then .frem else .srem
  | rem .unsigned => if decimal then .frem else .urem
  | shl => .shl
  | ashr => .ashr
  | lshr => .lshr

end Arithmetic

def Constant.asIndex? (c : Constant) : Option Nat := do
  let n ← c.asInt?
  if 0 ≤ n.toInt ∧ n.toInt < UInt32.size then some n.toInt.toNat else none

namespace Value

def asIndex? (v : Value) : Option Nat := v.asConstant?.bind Constant.asIndex?

def asLanes? (v : Value) : Option (List Nat) :=
  match v.asConstant? with
  | some (.vector _ lanes) => lanes.mapM Constant.asIndex?
  | _ => none

end Value

def Ty.member? (ty : Ty) (index : Value) : Option Ty :=
  match ty with
  | .struct .. => index.asIndex?.bind ty.field?
  | _ => ty.field? 0

def Ty.resizing? (source target : Ty) : Option CastOp :=
  let shrinks := target.bitWidth?.getD 0 < source.bitWidth?.getD 0
  if source.isInteger && target.isInteger then some (if shrinks then .trunc else .sext)
  else if source.isDecimal && target.isDecimal then some (if shrinks then .fptrunc else .fpext)
  else if source.isPointer && target.isPointer then some .bitcast
  else none

namespace Gen

def arithmetic (op : Arithmetic) (lhs rhs : Operand) : Gen Value := do
  let lhs ← convertKind op.operandKind lhs
  let rhs ← convertTo lhs.ty rhs
  if op.isDivision && rhs.isZero then throw .divisionByZero
  emitValue (.binary (op.instruction lhs.ty.isDecimal) lhs rhs)

def operator (op : Operator) (lhs rhs : Operand) : Gen Value := do
  let lhs ← convertKind .numeric lhs
  let rhs ← convertTo lhs.ty rhs
  match if lhs.ty.isDecimal then op.onDecimals? else op.onIntegers? with
  | some (.bitwise op) => emitValue (.binary op lhs rhs)
  | some (.integer p) => emitValue (.icmp p lhs rhs)
  | some (.decimal p) => emitValue (.fcmp p lhs rhs)
  | none => throw (.argument (.operatorUnsupported op.text lhs.ty))

def neg (a : Operand) : Gen Value := do
  let v ← convertKind .numeric a
  let op := Arithmetic.sub.instruction v.ty.isDecimal
  emitValue (.binary op (.const (.zero v.ty)) v)

def invert (a : Operand) : Gen Value := do
  let v ← convertKind .integer a
  emitValue (.binary .xor v (.ofInt v.ty (-1)))

def step (operation : String) (op : Arithmetic) (ptr amount : Operand) : Gen Value := do
  let ptr ← pointer operation ptr
  let current ← emitValue (.load ptr)
  let updated ← arithmetic op (.value current) amount
  let _ ← emit (.store updated ptr)
  return ptr

def select (condition ifTrue ifFalse : Operand) : Gen Value := do
  let ifTrue ← convert ifTrue none
  let condition ← convertTo .i1 condition
  let ifFalse ← convertTo ifTrue.ty ifFalse
  emitValue (.select condition ifTrue ifFalse)

def compareNull (operation : String) (p : IntPredicate) (a : Operand) : Gen Value := do
  match a.asValue? with
  | some v => emitValue (.icmp p v (.const (.zero v.ty)))
  | none => throw (.argument (.notAValue operation))

def retype (op : Retyping) (a : Operand) (target : Ty) : Gen Value := do
  match op with
  | .bitcast => emitValue (.cast .bitcast (← convert a none) target)
  | .trunc => emitValue (.cast .trunc (← convertKind .integer a) target)
  | .sext => emitValue (.cast .sext (← convertKind .integer a) target)
  | .zext => emitValue (.cast .zext (← convertKind .integer a) target)
  | .ftoi .signed => emitValue (.cast .fptosi (← convertKind .decimal a) target)
  | .ftoi .unsigned => emitValue (.cast .fptoui (← convertKind .decimal a) target)
  | .itof .signed => emitValue (.cast .sitofp (← convertKind .integer a) target)
  | .itof .unsigned => emitValue (.cast .uitofp (← convertKind .integer a) target)
  | .ptrtoint => emitValue (.cast .ptrtoint (← pointer "ptrtoint" a) target)
  | .inttoptr => emitValue (.cast .inttoptr (← convertKind .integer a) target)
  | .resize =>
    let v ← convert a none
    if v.ty = target then return v
    match v.ty.resizing? target with
    | some op => emitValue (.cast op v target)
    | none => throw (.argument (.noCast v.ty target))

def distance (lhs rhs : Operand) : Gen Value := do
  let lhs ← pointer "diff" lhs
  let rhs ← pointer "diff" rhs
  emitValue (.ptrDiff lhs rhs)

def size (n : Option Operand) : Gen (Option Value) := n.mapM (convertKind .integer)

def load (ptr : Operand) : Gen Value := do
  emitValue (.load (← pointer "load" ptr))

def store (a ptr : Operand) : Gen Unit := do
  let ptr ← pointer "store" ptr
  let v ← convertTo (ptr.ty.pointee?.getD .void) a
  let _ ← emit (.store v ptr)

def free (ptr : Operand) : Gen Unit := do
  let _ ← emit (.free (← pointer "free" ptr))

def fieldPath (ty : Option Ty) (field : String) : Gen (List Nat) := do
  match ty with
  | some (.struct (some struct) _ _) =>
    match (← get).library.layouts[struct]? with
    | some layout =>
      match layout.index field with
      | .ok path => return path
      | .error e => throw (.argument (.layout e))
    | none => throw (.argument (.unknownStruct struct))
  | found => throw (.argument (.fieldOfNoStruct field found))

/--
The numbers that indices stand for, behind the first one. The type inside of which they step is kept
as far as it is known.
-/
def innerIndices : Option Ty → List (Index Operand) → Gen (List Value)
  | _, [] => return []
  | ty, .element o :: rest => do
    let v ← convertKind .integer o
    return v :: (← innerIndices (ty.bind (·.member? v)) rest)
  | ty, .field name :: rest => do
    let path := (← fieldPath ty name).map fun i => Value.ofInt .i32 (Int64.ofNat i)
    let ty := path.foldl (fun ty v => ty.bind (·.member? v)) ty
    return path ++ (← innerIndices ty rest)

def indices (pointee : Option Ty) : List (Index Operand) → Gen (List Value)
  | [] => return []
  | .element o :: rest => do
    let v ← convertKind .integer o
    return v :: (← innerIndices pointee rest)
  | .field name :: _ => throw (.argument (.leadingField name))

def elementAddress (ptr : Operand) (is : List (Index Operand)) : Gen Value := do
  let ptr ← pointer "gep" ptr
  let is ← indices ptr.ty.pointee? is
  emitValue (.gep ptr is)

def aggregateIndex (operation : String) (index : Operand) : Gen Nat := do
  match (← convertKind .integer index).asIndex? with
  | some i => return i
  | none => throw (.argument (.indexNotConstant operation))

def extract (a index : Operand) : Gen Value := do
  let v ← convert a none
  if v.ty.kind = .vector then
    let index ← convertKind .integer index
    emitValue (.extractElement v index)
  else
    let i ← aggregateIndex "extract" index
    emitValue (.extractValue v [i])

def insert (a element index : Operand) : Gen Value := do
  let v ← convert a none
  match v.ty with
  | .vector _ ty =>
    let element ← convertTo ty element
    let index ← convertKind .integer index
    emitValue (.insertElement v element index)
  | ty =>
    let i ← aggregateIndex "insert" index
    match ty.field? i with
    | some member =>
      let element ← convertTo member element
      emitValue (.insertValue v element [i])
    | none => throw (.argument (.noMember i ty))

def shuffle (lhs rhs mask : Operand) : Gen Value := do
  let lhs ← convertKind .vector lhs
  let rhs ← convertTo lhs.ty rhs
  let mask ← convertKind .vector mask
  match mask.asLanes? with
  | some lanes => emitValue (.shuffle lhs rhs lanes)
  | none => throw (.argument .maskNotConstant)

def global (name : String) : Gen Value := do
  match (← get).library.resolve name .everything with
  | some (.global g) => return g.address
  | _ => throw (.unresolved name)

def string (text : String) : Gen Value := convert (.str text) none

def perform : Operation Operand → Gen Value
  | .arithmetic op lhs rhs => arithmetic op lhs rhs
  | .operator op lhs rhs => operator op lhs rhs
  | .neg a => neg a
  | .invert a => invert a
  | .increase ptr amount => step "inc" .add ptr amount
  | .decrease ptr amount => step "dec" .sub ptr amount
  | .select condition ifTrue ifFalse => select condition ifTrue ifFalse
  | .isNull a => compareNull "is_null" .eq a
  | .isNotNull a => compareNull "is_not_null" .ne a
  | .retype op a target => retype op a target
  | .distance lhs rhs => distance lhs rhs
  | .alloca ty n => do emitValue (.alloca ty (← size n))
  | .malloc ty n => do emitValue (.malloc ty (← size n))
  | .load ptr => load ptr
  | .elementAddress ptr is => elementAddress ptr is
  | .loadElement ptr is => do load (.value (← elementAddress ptr is))
  | .storeElement ptr is a => do
    let element ← elementAddress ptr is
    store a (.value element)
    return element
  | .extract a index => extract a index
  | .insert a element index => insert a element index
  | .shuffle lhs rhs mask => shuffle lhs rhs mask
  | .global name => global name
  | .string text => string text
  | .convert a hint => convert a hint

end Gen

end ScriptedIR
