import ScriptedIR.Script.Gen.Control

/-!
Running scripts. Every statement leaves an event in the trace, behind the events of the statements
inside it. Names are bound in one table for the whole script; a macro has a table of its own.
-/

namespace ScriptedIR

structure Surroundings where
  library : Library
  names : Names Operand := ∅
  params : List Value := []

namespace Surroundings

def function (env : Surroundings) (name : String) : Except ScriptError FunctionRef :=
  match env.library.function? name with
  | some f => .ok f
  | none => .error (.unresolved name)

end Surroundings

mutual

def Expr.eval (env : Surroundings) : Expr → Except ScriptError Operand
  | .operand o => .ok o
  | .list items => do return .list (← Expr.evalAll env items)
  | .function name => do return .function (← env.function name)
  | .address name => do return .value (← env.function name).address
  | .var name =>
    match env.names[name]? with
    | some o => .ok o
    | none => .error (.unresolved name)
  | .param index =>
    match env.params[index]? with
    | some v => .ok (.value v)
    | none => .error (.argument (.noSuchParameter index))

def Expr.evalAll (env : Surroundings) : List Expr → Except ScriptError (List Operand)
  | [] => .ok []
  | e :: es => do return (← e.eval env) :: (← Expr.evalAll env es)

end

namespace Gen

def surroundings : Gen Surroundings := do
  let s ← get
  return { library := s.library, names := s.names, params := s.function.paramValues }

def within (f : Surroundings → Except ScriptError α) : Gen α := do
  let env ← surroundings
  fun s => (f env, s)

def eval (e : Expr) : Gen Operand := within (e.eval ·)

def evalAll (es : List Expr) : Gen (List Operand) := within (Expr.evalAll · es)

def block (ref : BlockRef) : Gen BlockId := do
  let s ← get
  let found := fun (block : Option BlockId) => match block with
    | some block => pure block
    | none => throw (.argument .noSuchBlock)
  match ref with
  | .next => found s.cursor.next
  | .exit => found s.cursor.exit
  | .returning => returnBlock
  | .start => return s.cursor.start
  | .current => return s.cursor.block
  | .named name => found (s.handles[name]?.map BlockHandle.start)
  | .id block => return block

def handle : HandleRef → Gen BlockHandle
  | .named name => do
    match (← get).handles[name]? with
    | some handle => return handle
    | none => throw (.argument .noSuchBlock)
  | .given handle => return handle

def bindHandle (name : Option String) (h : BlockHandle) : Gen Unit :=
  match name with
  | some name => modify fun s => { s with handles := s.handles.insert name h }
  | none => return

def bindAll (names : List String) (vs : List Value) : Gen Unit :=
  (names.zip vs).forM fun (name, v) => bindName (some name) (.value v)

def callFunction (f : FunctionRef) (args : List Operand) : Gen Operand := do
  let hints := f.signature.params.map (some ∘ Hint.type)
  let hints := hints ++ List.replicate (args.length - hints.length) none
  let args ← (args.zip hints).mapM fun (arg, hint) => convert arg hint
  return (← emit (.call f.address args)).elim .null .value

def callValue (callee : Value) (args : List Operand) : Gen Operand := do
  if callee.ty.callable?.isNone then throw (.argument (.notCallable callee.ty))
  let args ← args.mapM (convert · none)
  return (← emit (.call callee args)).elim .null .value

def call (expand : Macro → List Operand → Gen Operand) (callee : Operand) (args : List Operand) :
    Gen Operand := do
  match callee with
  | .str name =>
    match (← get).library.resolve name .everything with
    | some (.inlined m) =>
      if m.arity ≠ args.length then throw (.argumentCount name m.arity args.length)
      expand m args
    | some (.function f) => callFunction f args
    | _ => throw (.unresolved name)
  | .function f => callFunction f args
  | .value v => callValue v args
  | _ => throw (.argument (.notAValue "call"))

def withNames (names : Names Operand) (x : Gen α) : Gen α := fun s =>
  let (result, t) := x { s with names, handles := ∅ }
  (result, { t with names := s.names, handles := s.handles })

mutual

/--
Runs a statement. Its operands are evaluated first, then the blocks that it refers to.
-/
def runStmt (expand : Macro → List Operand → Gen Operand) : Stmt → Gen Unit
  | .compute op name => do
    let op ← within fun env => op.evaluate (·.eval env)
    let v ← perform op
    bindName name (.value v)
    record (.value v)
  | .operate op lhs rhs name => do
    let op ← within fun _ => Operator.parse op
    let lhs ← eval lhs
    let rhs ← eval rhs
    let v ← operator op lhs rhs
    bindName name (.value v)
    record (.value v)
  | .free ptr => do
    free (← eval ptr)
    record .done
  | .store a ptr => do
    let a ← eval a
    let ptr ← eval ptr
    store a ptr
    record .done
  | .ret a => do
    let a ← eval a
    noting false (ret a)
  | .directRet a => do
    let a ← eval a
    noting true (directRet a)
  | .prepareRet a => do
    prepareRet (← eval a)
    record .done
  | .conditionalRet condition a otherwise => do
    let condition ← eval condition
    let a ← eval a
    let otherwise ← otherwise.mapM block
    conditionalRet condition a otherwise
    record .done
  | .branch target => do
    branch (← block target)
    record .done
  | .unreachable => do
    unreachable
    record .done
  | .finish => do
    finish
    record .done
  | .comment text => do
    comment text
    record .done
  | .returnBlock => do
    let block ← returnBlock
    record (.block block)
  | .fail message => throw (.argument (.raised message))
  | .bind a name => do
    let a ← eval a
    bindName (some name) a
    record (.operand a)
  | .call callee args name => do
    let callee ← eval callee
    let args ← evalAll args
    let result ← call expand callee args
    bindName name result
    record (.operand result)
  | .block label body name => do
    let h ← inBlock label (runStmts expand body)
    bindHandle name h
    record (.handle h)
  | .cond condition ifTrue ifFalse exit => do
    let condition ← eval condition
    let ifTrue ← match ifTrue with
      | .body b => pure (.body (runStmts expand b))
      | .built ref => .built <$> handle ref
    let ifFalse ← match ifFalse with
      | some (.body b) => pure (some (.body (runStmts expand b)))
      | some (.built ref) => (some ∘ .built) <$> handle ref
      | none => pure none
    let exit ← exit.mapM block
    cond condition ifTrue ifFalse exit
    record .done
  | .loop vars names compare body increment exit => do
    let vars ← evalAll vars
    let exit ← exit.mapM block
    let slots ← loop {
      vars
      compare := match compare with
        | some (b, result) => some fun values => do
          bindAll names values
          runStmts expand b
          eval result
        | none => none
      body := match body with
        | some b => some fun values => do
          bindAll names values
          runStmts expand b
        | none => none
      increment := match increment with
        | some b => some fun slots => do
          bindAll names slots
          runStmts expand b
        | none => none
      exit }
    bindAll names slots
    record (.slots slots)
  | .inspect => do
    let s ← snapshot
    record (.snapshot s)
  | .attempt s => tryCatch (runStmt expand s) fun e => record (.failed e)

def runStmts (expand : Macro → List Operand → Gen Operand) : List Stmt → Gen Unit
  | [] => return
  | s :: ss => do
    runStmt expand s
    runStmts expand ss

end

end Gen

open Gen in
/--
Runs the body of a macro on arguments and gives its result. Macros inside are expanded `depth` deep.
-/
def Macro.expand (depth : Nat) (m : Macro) (args : List Operand) : Gen Operand :=
  match depth with
  | 0 => throw (.argument .expansionDepth)
  | depth + 1 =>
    withNames (.ofList (m.params.zip args)) do
      runStmts (Macro.expand depth) m.body
      eval m.result

def Macro.maxDepth : Nat := 1024

def Gen.script (body : List Stmt) : Gen Unit := Gen.runStmts (Macro.expand Macro.maxDepth) body

end ScriptedIR
