import ScriptedIR.Proofs.Blocks
import ScriptedIR.Proofs.Evaluation
import ScriptedIR.Script.Build

/-!
Scripts as structured code. Outlining runs a script as generation does, with the same names and the
same temporaries, but the statements that branch become structured code and no blocks are made. What
lies in between, from one branch to the next, is straight-line code.
-/

namespace ScriptedIR

structure Outline (α : Type) where
  run : Gen (α × List Code)

def GenState.blank (s : GenState) : GenState :=
  { s with
    function := { s.function with blocks := [⟨0, "", []⟩] }
    cursor := { s.cursor with start := 0, block := 0 } }

def GenState.reopened (s : GenState) : GenState :=
  { s with cursor := { s.cursor with finished := false } }

namespace Outline

instance : Monad Outline where
  pure a := ⟨return (a, [])⟩
  bind x f := ⟨do
    let (a, code) ← x.run
    let (b, code') ← (f a).run
    return (b, code ++ code')⟩

def straight (x : Gen α) : Outline α := ⟨fun s =>
  let (result, t) := x.exec s.blank
  let code := ((t.function.code? 0).getD []).map Code.plain
  (result.map fun a => (a, code),
    { t with function := { t.function with blocks := s.function.blocks }, cursor := s.cursor })⟩

instance : MonadLift Gen Outline := ⟨straight⟩

def tell (code : List Code) : Outline Unit := ⟨return ((), code)⟩

def inside (x : Outline Unit) : Outline (List Code) := ⟨fun s =>
  let (result, t) := x.run.exec s.reopened
  (result.map fun r => (r.2, []), { t with cursor := s.cursor })⟩

def part : Option (Outline Unit) → Outline (List Code)
  | some x => inside x
  | none => return []

def last (c : Code) : Outline Unit := ⟨do
  Gen.finish
  return ((), [c])⟩

def unlessFinished (x : Outline Unit) : Outline Unit := do
  if !(← (get : Gen GenState)).cursor.finished then x

def withNames (names : Names Operand) (x : Outline α) : Outline α := ⟨Gen.withNames names x.run⟩

/--
The slot for the value to be returned. A temporary is kept beside it for what will be loaded from it; a
function that returns nothing has none.
-/
def returnSlot : Gen (Option Value) := do
  let s ← get
  match s.returnSlot with
  | some slot => return some slot
  | none =>
    if s.returnType.isVoid then return none
    else
      let slot := .temp s.function.nextTemp (.pointer s.returnType)
      set { s with
        function := { s.function with nextTemp := s.function.nextTemp + 2 }
        returnSlot := some slot }
      return some slot

/--
Converts a value to be returned and puts it into the slot, if there is one. A null operand returns what
the slot holds.
-/
def answer (a : Operand) : Option Value → Outline Answer
  | none => return .void
  | some slot =>
    if a.isNull then return .held slot
    else do
      let v ← Gen.convertTo (← (get : Gen GenState)).returnType a
      let _ ← Gen.emit (.store v slot)
      return .value v

def ret (a : Operand) : Outline Unit := unlessFinished do
  let a ← answer a (← returnSlot)
  last (.ret a)

def conditionalRet (condition a : Operand) : Outline Unit := unlessFinished do
  let condition ← Gen.convertTo .i1 condition
  let a ← answer a (← returnSlot)
  tell [.cond condition [.ret a] []]

def prepareRet (a : Operand) : Outline Unit := unlessFinished do
  let _ ← answer a (← returnSlot)

def returnPrepared : Outline Unit := do
  let slot ← returnSlot
  unlessFinished (last (.ret (slot.elim .void .held)))

def directRet (a : Operand) : Outline Unit := unlessFinished do
  let s ← (get : Gen GenState)
  if s.returnType.isVoid then last (.ret .void)
  else
    if a.isNull then (throw (.argument (.noReturnValue s.name)) : Gen Unit)
    let v ← Gen.convertTo s.returnType a
    last (.ret (.value v))

def call (expand : Macro → List Operand → Outline Operand) (callee : Operand)
    (args : List Operand) : Outline Operand := do
  let s ← (get : Gen GenState)
  let found := match callee with
    | .str name => s.library.resolve name .everything
    | _ => none
  match found with
  | some (.inlined m) => expand m args
  | _ => Gen.call (fun _ _ => throw (.argument .expansionDepth)) callee args

def cond (condition : Operand) (ifTrue : Outline Unit) (ifFalse : Option (Outline Unit)) :
    Outline Unit := do
  Gen.requireOpen
  let condition ← Gen.convertTo .i1 condition
  let ifTrue ← inside ifTrue
  let ifFalse ← part ifFalse
  tell [.cond condition ifTrue ifFalse]

structure Slot where
  id : Temp
  ty : Ty

def Slot.value (slot : Slot) : Value := .temp slot.id (.pointer slot.ty)

def fresh : Outline Temp := ⟨fun s =>
  (.ok (s.function.nextTemp, []),
    { s with function := { s.function with nextTemp := s.function.nextTemp + 1 } })⟩

def keep (v : Value) : Outline Slot := do
  let id ← fresh
  tell [.keep id v]
  return ⟨id, v.ty⟩

def keepAll : List Operand → Outline (List Slot)
  | [] => return []
  | a :: as => do
    let slot ← keep (← Gen.convert a none)
    return slot :: (← keepAll as)

def fetch (slot : Slot) : Outline Value := do
  let id ← fresh
  tell [.fetch id slot.value]
  return .temp id slot.ty

def fetchAll : List Slot → Outline (List Value)
  | [] => return []
  | slot :: slots => do
    let v ← fetch slot
    return v :: (← fetchAll slots)

structure LoopParts where
  vars : List Operand
  compare : Option (List Value → Outline Operand)
  body : Option (List Value → Outline Unit)
  increment : Option (List Value → Outline Unit)

namespace LoopParts

def turn (run : List Value → Outline Unit) (slots : List Slot) : Outline Unit := do
  run (← fetchAll slots)

def condition (run : List Value → Outline Operand) (slots : List Slot) : Outline Value := do
  let condition ← run (← fetchAll slots)
  Gen.convertTo .i1 condition

def test (run : List Value → Outline Operand) (slots : List Slot) : Outline Unit := do
  tell [.cond (← condition run slots) [] [.leave]]

end LoopParts

/--
Keeps variables in slots and repeats the parts of a loop, with the variables fetched for each of them.
The body is outlined first, as it is generated first.
-/
def loop (parts : LoopParts) : Outline (List Value) := do
  Gen.requireOpen
  let slots ← keepAll parts.vars
  let body ← part (parts.body.map (LoopParts.turn · slots))
  let test ← part (parts.compare.map (LoopParts.test · slots))
  let step ← part (parts.increment.map (· (slots.map Slot.value)))
  tell [.loop (test ++ body) step]
  return slots.map Slot.value

mutual

/--
Outlines a statement. A statement that is not structured has no outline.
-/
def stmt (expand : Macro → List Operand → Outline Operand) : Stmt → Outline Unit
  | .compute op name => do
    let op ← Gen.within fun env => op.evaluate (·.eval env)
    let v ← Gen.perform op
    Gen.bindName name (.value v)
  | .operate op lhs rhs name => do
    let op ← Gen.within fun _ => Operator.parse op
    let lhs ← Gen.eval lhs
    let rhs ← Gen.eval rhs
    let v ← Gen.operator op lhs rhs
    Gen.bindName name (.value v)
  | .free ptr => do
    Gen.free (← Gen.eval ptr)
  | .store a ptr => do
    let a ← Gen.eval a
    let ptr ← Gen.eval ptr
    Gen.store a ptr
  | .ret a => do
    ret (← Gen.eval a)
  | .directRet a => do
    directRet (← Gen.eval a)
  | .conditionalRet condition a none => do
    let condition ← Gen.eval condition
    let a ← Gen.eval a
    conditionalRet condition a
  | .prepareRet a => do
    prepareRet (← Gen.eval a)
  | .branch .next => unlessFinished (last .again)
  | .branch .exit => unlessFinished (last .leave)
  | .branch .returning => returnPrepared
  | .unreachable => do
    Gen.requireOpen
    last (.plain .unreachable)
  | .comment text => Gen.comment text
  | .bind a name => do
    Gen.bindName (some name) (← Gen.eval a)
  | .call callee args name => do
    let callee ← Gen.eval callee
    let args ← Gen.evalAll args
    let result ← call expand callee args
    Gen.bindName name result
  | .cond condition (.body ifTrue) ifFalse none => do
    let condition ← Gen.eval condition
    let ifFalse := match ifFalse with
      | some (.body b) => some (stmts expand b)
      | _ => none
    cond condition (stmts expand ifTrue) ifFalse
  | .loop vars names compare body increment none => do
    let vars ← Gen.evalAll vars
    let slots ← loop {
      vars
      compare := match compare with
        | some (b, result) => some fun values => do
          Gen.bindAll names values
          stmts expand b
          Gen.eval result
        | none => none
      body := match body with
        | some b => some fun values => do
          Gen.bindAll names values
          stmts expand b
        | none => none
      increment := match increment with
        | some b => some fun slots => do
          Gen.bindAll names slots
          stmts expand b
        | none => none }
    Gen.bindAll names slots
  | .inspect => return
  | .fail message => (throw (.argument (.raised message)) : Gen Unit)
  | _ => (throw (.argument (.raised "no outline")) : Gen Unit)

def stmts (expand : Macro → List Operand → Outline Operand) : List Stmt → Outline Unit
  | [] => return
  | s :: ss => do
    stmt expand s
    stmts expand ss

end

end Outline

def Macro.outline (depth : Nat) (m : Macro) (args : List Operand) : Outline Operand :=
  match depth with
  | 0 => (throw (.argument .expansionDepth) : Gen Operand)
  | depth + 1 => .withNames (.ofList (m.params.zip args)) do
    Outline.stmts (Macro.outline depth) m.body
    Gen.eval m.result

def Outline.script (body : List Stmt) : Outline Unit := stmts (Macro.outline Macro.maxDepth) body

def GenState.allocation (s : GenState) : List Code :=
  match s.returnSlot with
  | some (.temp slot (.pointer ty)) => [.plain (.define slot (.alloca ty none))]
  | _ => []

/--
A function as structured code: a declaration with all the temporaries that the code needs, but without
blocks.
-/
structure Outlined where
  function : Function
  code : List Code

def Outlined.run (o : Outlined) (env : Env) (fuel : Nat) (args : List Datum) (store : Store) :
    Option Flow :=
  Code.runAll env fuel o.code (.enter o.function args) store

def Outlined.call (o : Outlined) (env : Env) (fuel : Nat) (args : List Datum) (store : Store) :
    Option Flow :=
  if o.function.nextTemp < o.function.params.length then
    some (.stop (.error (.breakdown (.slots o.function.nextTemp))) store)
  else o.run env fuel args store

def GenState.outlined (s : GenState) (f : Function) (code : List Code) : Outlined where
  function := { f with nextTemp := s.function.nextTemp }
  code := s.allocation ++ code

def Library.outline (lib : Library) (f : FunctionRef) (code : Function) (body : List Stmt) :
    Except ScriptError Outlined :=
  match (Outline.script body).run.exec (lib.startState f code) with
  | (.ok ((), outlined), s) => .ok (s.outlined code outlined)
  | (.error e, _) => .error e

end ScriptedIR
