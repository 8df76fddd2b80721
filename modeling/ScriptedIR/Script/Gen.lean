import ScriptedIR.Builder
import ScriptedIR.Script.Library

/-!
Generation of function bodies. A computation in `Gen` emits instructions at a cursor into the
function being built, which is kept apart from the module until it is complete. Failing loses
nothing of what was emitted, so a script can go on after a failure.
-/

namespace ScriptedIR

structure Cursor where
  start : BlockId
  block : BlockId := start
  /-- Whether control leaves the block at its end, so that nothing more can be emitted. -/
  finished : Bool := false
  next : Option BlockId := none
  exit : Option BlockId := none
deriving DecidableEq, Repr

def Cursor.handle (c : Cursor) : BlockHandle := ⟨c.start, c.block, c.finished⟩

structure Snapshot where
  cursor : Cursor
  function : String
  returnType : Ty
  library : String
  params : List Value
deriving Repr

inductive Event where
  | done
  /-- A return, on the spot or not. In a block that was finished before there was nothing to do. -/
  | returned (direct finished : Bool)
  | value (v : Value)
  | operand (o : Operand)
  | block (id : BlockId)
  | handle (h : BlockHandle)
  | slots (vs : List Value)
  | snapshot (s : Snapshot)
  | failed (e : ScriptError)
deriving Repr

structure GenState where
  library : Library
  function : Function
  name : String
  returnType : Ty
  entry : BlockId
  /-- The place for the value to be returned, once there is a shared return block. -/
  returnSlot : Option Value := none
  returnBlock : Option BlockId := none
  cursor : Cursor
  names : Names Operand := ∅
  handles : Names BlockHandle := ∅
  trace : List Event := []

abbrev Gen := ExceptT ScriptError (StateM GenState)

namespace Gen

/--
Runs a computation. The state is that at its end, or at its failure.
-/
def exec (x : Gen α) (s : GenState) : Except ScriptError α × GenState := x s

@[simp]
theorem exec_pure (a : α) (s : GenState) : exec (pure a) s = (.ok a, s) := rfl

@[simp]
theorem exec_throw (e : ScriptError) (s : GenState) :
    exec (throw e : Gen α) s = (.error e, s) := rfl

theorem exec_bind (x : Gen α) (f : α → Gen β) (s : GenState) :
    exec (x >>= f) s =
      match exec x s with
      | (.ok a, t) => exec (f a) t
      | (.error e, t) => (.error e, t) := by
  simp only [exec, bind, ExceptT.bind, ExceptT.mk, StateT.bind]
  cases x s with
  | mk result t => cases result <;> rfl

def moveCursor (change : Cursor → Cursor) : Gen Unit :=
  modify fun s => { s with cursor := change s.cursor }

def finish : Gen Unit := moveCursor ({ · with finished := true })

def requireOpen : Gen Unit := do
  let s ← get
  if s.cursor.finished then throw (.argument (.blockTerminated s.cursor.block s.name))

def emitAt (block : BlockId) (position : Option Nat) (r : Request) : Gen (Option Value) := fun s =>
  let b : Builder := { function := s.function, block, position }
  let (result, b) := b.build r
  (result.mapError .ofCode, { s with function := b.function })

def emit (r : Request) : Gen (Option Value) := do
  requireOpen
  emitAt (← get).cursor.block none r

def emitValue (r : Request) : Gen Value := do
  return (← emit r).getD (.const (.undef .void))

def newBlock (label : String) : Gen BlockId := fun s =>
  let (id, function) := s.function.addBlock label
  (.ok id, { s with function })

def modifyFunction (change : Function → Except CodeError Function) : Gen Unit := fun s =>
  match change s.function with
  | .ok function => (.ok (), { s with function })
  | .error e => (.error (.ofCode e), s)

def isEmptyBlock (block : BlockId) : Gen Bool := do
  match (← get).function.block block with
  | .ok b => return b.body.isEmpty
  | .error e => throw (.ofCode e)

def convert (o : Operand) (hint : Option Hint) : Gen Value := fun s =>
  let (result, module) := o.convert hint s.library.module
  (result, { s with library := { s.library with module } })

def convertTo (ty : Ty) (o : Operand) : Gen Value := convert o (some (.type ty))

def convertKind (k : Kind) (o : Operand) : Gen Value := convert o (some (.kind k))

def pointer (operation : String) (o : Operand) : Gen Value := do
  let v ← convert o none
  if v.ty.isPointer then return v else throw (.argument (.notAPointer operation v.ty))

/--
Runs a computation on a cursor of its own and tells where that ends. The cursor outside stays where
it is, also when the computation fails.
-/
def onCursor (cursor : Cursor) (x : Gen α) : Gen (α × Cursor) := fun s =>
  let (result, t) := x { s with cursor }
  (result.map fun a => (a, t.cursor), { t with cursor := s.cursor })

def cursorAt (block : BlockId) : Gen Cursor := do
  return { (← get).cursor with start := block, block, finished := false }

def inBlock (label : String) (body : Gen Unit) : Gen BlockHandle := do
  let id ← newBlock label
  let ((), cursor) ← onCursor (← cursorAt id) body
  return cursor.handle

def snapshot : Gen Snapshot := do
  let s ← get
  return {
    cursor := s.cursor
    function := s.name
    returnType := s.returnType
    library := s.library.name
    params := s.function.paramValues }

def record (e : Event) : Gen Unit :=
  modify fun s => { s with trace := s.trace ++ [e] }

def noting (direct : Bool) (x : Gen Unit) : Gen Unit := do
  let s ← get
  x
  record (.returned direct s.cursor.finished)

def bindName (name : Option String) (o : Operand) : Gen Unit :=
  match name with
  | some name => modify fun s => { s with names := s.names.insert name o }
  | none => return

end Gen

end ScriptedIR
