import ScriptedIR.Script.Gen

/-!
Returning from functions. All returns of a value go through one block, which loads the value from a
slot on the stack; both are made when the first return needs them.
-/

namespace ScriptedIR.Gen

/--
The shared return block. The slot is allocated at the very start of the function, where everything
can use it; a function that returns nothing has none.
-/
def returnBlock : Gen BlockId := do
  let s ← get
  match s.returnBlock with
  | some block => return block
  | none =>
    let block ← newBlock "return"
    let slot ← if s.returnType.isVoid then do
        let _ ← emitAt block none (.ret none)
        pure none
      else do
        let slot ← emitAt s.entry (some 0) (.alloca s.returnType none)
        let v ← emitAt block none (.load (slot.getD (.const (.undef .void))))
        let _ ← emitAt block none (.ret v)
        pure slot
    modify fun s => { s with returnSlot := slot, returnBlock := some block }
    return block

def fillReturnSlot (a : Operand) : Gen Unit := do
  let s ← get
  match s.returnSlot with
  | some slot =>
    if !a.isNull then
      let v ← convertTo s.returnType a
      let _ ← emit (.store v slot)
  | none => return

def unlessFinished (x : Gen Unit) : Gen Unit := do
  if !(← get).cursor.finished then x

def ret (a : Operand) : Gen Unit := unlessFinished do
  if (← get).returnType.isVoid then
    let _ ← emit (.ret none)
  else
    let block ← returnBlock
    fillReturnSlot a
    let _ ← emit (.branch block)
  finish

/--
Returns if the condition holds. Otherwise control goes to a given block, or to a new one where the
cursor then stands.
-/
def conditionalRet (condition a : Operand) (otherwise : Option BlockId) : Gen Unit :=
  unlessFinished do
    let condition ← convertTo .i1 condition
    let block ← returnBlock
    fillReturnSlot a
    match otherwise with
    | some other =>
      let _ ← emit (.branchIf condition block other)
      finish
    | none =>
      let other ← newBlock "block"
      let _ ← emit (.branchIf condition block other)
      moveCursor ({ · with block := other })

def directRet (a : Operand) : Gen Unit := unlessFinished do
  let s ← get
  if s.returnType.isVoid then
    let _ ← emit (.ret none)
  else
    if a.isNull then throw (.argument (.noReturnValue s.name))
    let v ← convertTo s.returnType a
    let _ ← emit (.ret (some v))
  finish

def prepareRet (a : Operand) : Gen Unit := unlessFinished do
  let _ ← returnBlock
  fillReturnSlot a

end ScriptedIR.Gen
