import ScriptedIR.Function

/-!
Emitting instructions. A `Request` asks for an instruction over given operands. `Request.check`
decides from the operand types alone whether the code may have it and what it will be; only an
accepted request changes the function, at the insertion point that a `Builder` holds.
-/

namespace ScriptedIR

inductive Request where
  | binary (op : BinaryOp) (lhs rhs : Value)
  | icmp (predicate : IntPredicate) (lhs rhs : Value)
  | fcmp (predicate : FloatPredicate) (lhs rhs : Value)
  | cast (op : CastOp) (value : Value) (target : Ty)
  | alloca (ty : Ty) (count : Option Value)
  | malloc (ty : Ty) (count : Option Value)
  | free (ptr : Value)
  | load (ptr : Value)
  | store (value ptr : Value)
  | gep (ptr : Value) (indices : List Value)
  | extractValue (aggregate : Value) (path : List Nat)
  | insertValue (aggregate element : Value) (path : List Nat)
  | extractElement (vector index : Value)
  | insertElement (vector element index : Value)
  | shuffle (lhs rhs : Value) (mask : List Nat)
  | ptrDiff (lhs rhs : Value)
  | select (condition ifTrue ifFalse : Value)
  | call (callee : Value) (args : List Value)
  | ret (value : Option Value)
  | branch (target : BlockId)
  | branchIf (condition : Value) (ifTrue ifFalse : BlockId)
  | unreachable
  | comment (text : String)
deriving Repr

inductive Draft where
  | value (rhs : Rhs)
  | call (callee : Value) (args : List Value) (ty : Ty)
  | effect (i : Instruction)
deriving Repr

namespace Draft

def ty? : Draft → Option Ty
  | value rhs => some rhs.ty
  | call _ _ ty => if ty.isVoid then none else some ty
  | effect _ => none

def instruction (result : Temp) : Draft → Instruction
  | value rhs => .define result rhs
  | call callee args ty => .call (if ty.isVoid then none else some result) callee args ty
  | effect i => i

end Draft

namespace Request

def sameType (operation : String) (lhs rhs : Value) : Except CodeError Unit :=
  if lhs.ty = rhs.ty then .ok () else .error (.typeMismatch operation (.type lhs.ty) rhs.ty)

def ofKind (operation : String) (k : Kind) (v : Value) : Except CodeError Unit :=
  if v.ty.kind = k then .ok () else .error (.typeMismatch operation (.kind k) v.ty)

def ofType (operation : String) (ty : Ty) (v : Value) : Except CodeError Unit :=
  if v.ty = ty then .ok () else .error (.typeMismatch operation (.type ty) v.ty)

def countIsInteger (operation : String) : Option Value → Except CodeError Unit
  | none => .ok ()
  | some count => ofKind operation .integer count

def castAllowed (op : CastOp) (source target : Ty) : Bool :=
  let m := source.bitWidth?.getD 0
  let n := target.bitWidth?.getD 0
  match op with
  | .trunc => source.isInteger && target.isInteger && n ≤ m
  | .zext | .sext => source.isInteger && target.isInteger && m ≤ n
  | .fptrunc => source.isDecimal && target.isDecimal && n ≤ m
  | .fpext => source.isDecimal && target.isDecimal && m ≤ n
  | .fptosi | .fptoui => source.isDecimal && target.isInteger
  | .sitofp | .uitofp => source.isInteger && target.isDecimal
  | .ptrtoint => source.isPointer && target.isInteger
  | .inttoptr => source.isInteger && target.isPointer
  | .bitcast => source.isPointer && target.isPointer || m ≠ 0 && m = n || source = target

def stepInto (ty : Ty) (index : Value) : Except CodeError Ty := do
  ofKind "getelementptr" .integer index
  match ty with
  | .struct _ fields _ =>
    match index.asConstant?.bind Constant.asInt? with
    | none => .error (.invalidOperand "getelementptr" .fieldNotConstant)
    | some i =>
      match if 0 ≤ i.toInt then fields[i.toInt.toNat]? else none with
      | some field => .ok field
      | none => .error (.invalidOperand "getelementptr" (.noField i ty))
  | .array _ element => .ok element
  | .vector _ element => .ok element
  | _ => .error (.invalidOperand "getelementptr" (.notIndexable ty))

/--
The type of the element that a list of indices selects behind a pointer. The first index steps over
whole elements; it is looked at last.
-/
def elementType (ptr : Ty) (indices : List Value) : Except CodeError Ty :=
  match ptr.pointee?, indices with
  | none, _ => .error (.typeMismatch "getelementptr" (.kind .pointer) ptr)
  | some _, [] => .error (.invalidOperand "getelementptr" .noIndex)
  | some pointee, first :: rest => do
    let ty ← rest.foldlM stepInto pointee
    ofKind "getelementptr" .integer first
    return ty

def memberStep (operation : String) (ty : Ty) (index : Nat) : Except CodeError Ty :=
  match ty.field? index, ty.length? with
  | some member, some n =>
    if index < n then .ok member else .error (.invalidOperand operation (.memberRange index ty))
  | _, _ => .error (.invalidOperand operation (.memberRange index ty))

def memberType (operation : String) (aggregate : Ty) (path : List Nat) : Except CodeError Ty :=
  match aggregate.kind with
  | .struct | .array => path.foldlM (memberStep operation) aggregate
  | _ => .error (.typeMismatch operation .structOrArray aggregate)

def laneType (operation : String) (vector index : Value) : Except CodeError Ty := do
  ofKind operation .integer index
  match vector.ty with
  | .vector _ element => .ok element
  | other => .error (.typeMismatch operation (.kind .vector) other)

def argumentsFit : List Ty → List Value → Except CodeError Unit
  | param :: params, arg :: args => do
    ofType "call" param arg
    argumentsFit params args
  | _, _ => .ok ()

def takes (params : Nat) (variadic : Bool) (args : Nat) : Bool :=
  if variadic then params ≤ args else args = params

def check (f : Function) : Request → Except CodeError Draft
  | binary op lhs rhs => do
    sameType op.text lhs rhs
    let wanted := if op.isFloat then .decimal else .integer
    if lhs.ty.scalarKind ≠ wanted then .error (.typeMismatch op.text (.kind wanted) lhs.ty)
    return .value (.binary op lhs rhs lhs.ty)
  | icmp p lhs rhs => do
    sameType "icmp" lhs rhs
    match lhs.ty.scalarKind with
    | .integer | .pointer => return .value (.icmp p lhs rhs)
    | _ => .error (.typeMismatch "icmp" .integerOrPointer lhs.ty)
  | fcmp p lhs rhs => do
    sameType "fcmp" lhs rhs
    if lhs.ty.scalarKind ≠ .decimal then .error (.typeMismatch "fcmp" (.kind .decimal) lhs.ty)
    return .value (.fcmp p lhs rhs)
  | cast op v target => do
    if !castAllowed op v.ty target then .error (.invalidOperand op.text (.noCast v.ty target))
    return .value (.cast op v target)
  | alloca ty count => do
    countIsInteger "alloca" count
    return .value (.alloca ty count)
  | malloc ty count => do
    countIsInteger "malloc" count
    return .value (.malloc ty count)
  | free ptr => do
    ofKind "free" .pointer ptr
    return .effect (.free ptr)
  | load ptr =>
    match ptr.ty.pointee? with
    | some ty => .ok (.value (.load ptr ty))
    | none => .error (.typeMismatch "load" (.kind .pointer) ptr.ty)
  | store v ptr =>
    match ptr.ty.pointee? with
    | some ty => do
      ofType "store" ty v
      return .effect (.store v ptr)
    | none => .error (.typeMismatch "store" (.kind .pointer) ptr.ty)
  | gep ptr indices => do
    let ty ← elementType ptr.ty indices
    return .value (.gep ptr indices (.pointer ty))
  | extractValue aggregate path => do
    let ty ← memberType "extractvalue" aggregate.ty path
    return .value (.extractValue aggregate path ty)
  | insertValue aggregate element path => do
    let ty ← memberType "insertvalue" aggregate.ty path
    ofType "insertvalue" ty element
    return .value (.insertValue aggregate element path)
  | extractElement vector index => do
    let ty ← laneType "extractelement" vector index
    return .value (.extractElement vector index ty)
  | insertElement vector element index => do
    let ty ← laneType "insertelement" vector index
    ofType "insertelement" ty element
    return .value (.insertElement vector element index)
  | shuffle lhs rhs mask => do
    sameType "shufflevector" lhs rhs
    match lhs.ty with
    | .vector size element =>
      match mask.find? (2 * size ≤ ·) with
      | some lane => .error (.invalidOperand "shufflevector" (.laneRange lane))
      | none => return .value (.shuffle lhs rhs mask (.vector mask.length element))
    | other => .error (.typeMismatch "shufflevector" (.kind .vector) other)
  | ptrDiff lhs rhs => do
    sameType "ptrdiff" lhs rhs
    ofKind "ptrdiff" .pointer lhs
    return .value (.ptrDiff lhs rhs)
  | select condition ifTrue ifFalse => do
    ofType "select" .i1 condition
    sameType "select" ifTrue ifFalse
    return .value (.select condition ifTrue ifFalse)
  | call callee args =>
    match callee.ty.callable? with
    | none => .error (.typeMismatch "call" .functionPointer callee.ty)
    | some ⟨result, params, variadic⟩ => do
      if !takes params.length variadic args.length then
        .error (.invalidOperand "call" (.argumentCount params.length args.length))
      argumentsFit params args
      return .call callee args result
  | ret (some v) => do
    ofType "ret" f.result v
    return .effect (.ret (some v))
  | ret none => do
    if !f.result.isVoid then .error (.typeMismatch "ret" (.type f.result) .void)
    return .effect (.ret none)
  | branch target => do
    discard <| f.block target
    return .effect (.branch target)
  | branchIf condition ifTrue ifFalse => do
    ofType "br" .i1 condition
    discard <| f.block ifTrue
    discard <| f.block ifFalse
    return .effect (.branchIf condition ifTrue ifFalse)
  | unreachable => .ok (.effect .unreachable)
  | comment text => .ok (.effect (.comment text))

end Request

/--
A function with an insertion point in one of its blocks. Without a position instructions are
appended, which a terminated block refuses; with one they are inserted there, one behind the other.
-/
structure Builder where
  function : Function
  block : BlockId
  position : Option Nat := none
deriving Repr

namespace Builder

def emit (b : Builder) (i : Instruction) : Except CodeError Builder := do
  let block ← b.function.block b.block
  match b.position with
  | some position =>
    let position := min position block.body.length
    return { b with
      function := b.function.modifyBlock b.block (·.insert position i)
      position := some (position + 1) }
  | none =>
    if block.isTerminated then .error (.blockTerminated b.function.name block.id)
    return { b with
      function := b.function.modifyBlock b.block fun c => { c with body := c.body ++ [i] } }

/--
Answers a request. A result gets the next temporary, which stays used up if the insertion point then
refuses the instruction.
-/
def build (b : Builder) (r : Request) : Except CodeError (Option Value) × Builder :=
  match r.check b.function with
  | .error e => (.error e, b)
  | .ok draft =>
    let result := b.function.nextTemp
    let function := if draft.ty?.isSome then b.function.newTemp.2 else b.function
    let b := { b with function }
    match b.emit (draft.instruction result) with
    | .ok b => (.ok (draft.ty?.map (.temp result)), b)
    | .error e => (.error e, b)

end Builder

end ScriptedIR
