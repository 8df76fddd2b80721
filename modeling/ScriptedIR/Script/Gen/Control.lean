import ScriptedIR.Script.Gen.Operation
import ScriptedIR.Script.Gen.Return

/-!
Conditionals and loops. Every part is generated on a cursor of its own; then the exit is moved
behind the last block that was filled, so that the code reads from top to bottom. The cursor goes on
at the exit, unless the exit was given: then control does not come back and the cursor is finished.
-/

namespace ScriptedIR.Gen

def branch (target : BlockId) : Gen Unit := unlessFinished do
  let _ ← emit (.branch target)
  finish

def unreachable : Gen Unit := do
  let _ ← emit .unreachable
  finish

def comment (text : String) : Gen Unit := do
  let _ ← emit (.comment text)

def buildArm (label : String) : Arm (Gen Unit) BlockHandle → Gen BlockHandle
  | .body run => inBlock label run
  | .built handle => return handle

def joinArm (arm : BlockHandle) (exit : BlockId) : Gen Unit := do
  if arm.current ≠ exit then
    let cursor ← cursorAt arm.current
    let _ ← onCursor { cursor with finished := arm.finished } (branch exit)

def moveBehind (block after : BlockId) : Gen Unit := do
  if block ≠ after then modifyFunction (·.moveAfter block after)

def continueAt (exit : BlockId) (given : Bool) : Gen Unit :=
  if given then finish else moveCursor ({ · with block := exit, finished := false })

/--
The exit of a conditional: the given one; else the block of the first arm, if that has stayed empty;
else a new one.
-/
def condExit (given : Option BlockId) (isBody : Bool) (arm : BlockHandle) : Gen BlockId := do
  match given with
  | some exit => return exit
  | none =>
    if isBody && !arm.finished && arm.start = arm.current then
      if ← isEmptyBlock arm.start then return arm.start
    newBlock "exit"

def cond (condition : Operand) (ifTrue : Arm (Gen Unit) BlockHandle)
    (ifFalse : Option (Arm (Gen Unit) BlockHandle)) (given : Option BlockId) : Gen Unit := do
  requireOpen
  let condition ← convertTo .i1 condition
  let arm ← buildArm "then" ifTrue
  let exit ← condExit given (ifTrue matches .body _) arm
  joinArm arm exit
  let other ← ifFalse.mapM fun ifFalse => do
    let other ← buildArm "else" ifFalse
    joinArm other exit
    return other
  moveBehind exit (other.getD arm).current
  let _ ← emit (.branchIf condition arm.start (other.elim exit BlockHandle.start))
  continueAt exit given.isSome

structure LoopParts where
  vars : List Operand
  compare : Option (List Value → Gen Operand)
  body : Option (List Value → Gen Unit)
  increment : Option (List Value → Gen Unit)
  exit : Option BlockId

def slot (init : Operand) : Gen Value := do
  let v ← convert init none
  let slot ← emitValue (.alloca v.ty none)
  let _ ← emit (.store v slot)
  return slot

def loadAll (slots : List Value) : Gen (List Value) :=
  slots.mapM fun slot => load (.value slot)

/--
The block where a loop starts: the one at the cursor, if that is still empty and not the entry; else
a new one.
-/
def loopHeader : Gen BlockId := do
  let s ← get
  let reusable ← if s.cursor.block = s.entry then pure false else isEmptyBlock s.cursor.block
  if reusable then return s.cursor.block
  let header ← newBlock "loop"
  branch header
  return header

/--
Repeats a body as long as a comparison holds, with an increment after each turn. What is left out
takes no block, and without a comparison the loop goes on until something branches out of it.
-/
def loop (parts : LoopParts) : Gen (List Value) := do
  if parts.compare.isNone && parts.body.isNone && parts.increment.isNone then
    throw (.argument .emptyLoop)
  requireOpen
  let slots ← parts.vars.mapM slot
  let header ← loopHeader
  let body ← if parts.compare.isSome then newBlock "body" else pure header
  let increment ←
    if parts.increment.isSome && (parts.compare.isSome || parts.body.isSome) then
      newBlock "increment"
    else pure header
  let exit ← match parts.exit with
    | some exit => pure exit
    | none => newBlock "break"
  let inside (block : BlockId) (x : Gen Unit) : Gen BlockId := do
    let cursor ← cursorAt block
    let ((), cursor) ← onCursor { cursor with next := some increment, exit := some exit } x
    return cursor.block
  let last ←
    if parts.body.isSome || parts.compare.isSome then
      inside body do
        match parts.body with
        | some run => run (← loadAll slots)
        | none => pure ()
        branch increment
    else pure header
  let last ← match parts.compare with
    | some run => do
      let reached ← inside header do
        let condition ← run (← loadAll slots)
        let condition ← convertTo .i1 condition
        let _ ← emit (.branchIf condition body exit)
        finish
      pure (if last = header then reached else last)
    | none => pure last
  let last ← match parts.increment with
    | some run => inside increment do
      run slots
      branch header
    | none => pure last
  moveBehind exit last
  continueAt exit parts.exit.isSome
  return slots

end ScriptedIR.Gen
