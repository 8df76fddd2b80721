import ScriptedIR.Proofs.Steps

/-!
Structured code and its evaluation. Control is nested here: a conditional holds both of its sides and
a loop its turn and its step, and there are no blocks. Evaluation works on one frame and calls other
functions on the machine. Loops and calls may not end, so it takes fuel, and gives nothing once that is
used up.
-/

namespace ScriptedIR

inductive Answer where
  | void
  | value (v : Value)
  | held (slot : Value)
deriving Repr

inductive Code where
  | plain (i : Instruction)
  | keep (slot : Temp) (v : Value)
  | fetch (result : Temp) (slot : Value)
  | cond (condition : Value) (ifTrue ifFalse : List Code)
  | loop (turn step : List Code)
  | leave
  | again
  | ret (a : Answer)
deriving Repr

/--
How the evaluation of code ends: at its end, on its way out of a turn of a loop, or with a result.
-/
inductive Flow where
  | next (frame : Frame) (store : Store)
  | leave (frame : Frame) (store : Store)
  | again (frame : Frame) (store : Store)
  | stop (result : Except RunError Datum) (store : Store)

namespace Flow

def outside : Flow → Flow
  | leave frame store => next frame store
  | flow => flow

def towardsStep : Flow → Flow
  | again frame store => next frame store
  | flow => flow

def andThen (flow : Option Flow) (rest : Frame → Store → Option Flow) : Option Flow :=
  match flow with
  | some (next frame store) => rest frame store
  | flow => flow

def steps (step : Frame → Store → Option Flow) : Nat → Frame → Store → Option Flow
  | 0, _, _ => none
  | n + 1, frame, store =>
    match step frame store with
    -- inside of a step, going on with the step of the loop starts it over
    | some (again frame store) => steps step n frame store
    | flow => flow

def turns (turn step : Frame → Store → Option Flow) : Nat → Frame → Store → Option Flow
  | 0, _, _ => none
  | n + 1, frame, store =>
    andThen ((turn frame store).map towardsStep) fun frame store =>
      andThen (step frame store) (turns turn step n)

end Flow

namespace Frame

def holds (env : Env) (frame : Frame) (condition : Value) : Except RunError Bool := do
  let c ← (← frame.value env condition).toInt
  return c ≠ 0

def answer (env : Env) (frame : Frame) (store : Store) : Answer → Except RunError Datum
  | .void => .ok .void
  | .value v => frame.value env v
  | .held slot => do store.memory.load (← (← frame.value env slot).toPointer)

/--
Finds a new place in the memory for a value. The place stays taken if there is no value.
-/
def keep (env : Env) (frame : Frame) (store : Store) (slot : Temp) (v : Value) : Flow :=
  let (p, memory) := store.memory.allocate v.ty 1
  let kept : Except RunError (Frame × Memory) := do
    let frame ← frame.set slot (.pointer p)
    return (frame, ← Memory.kept (memory.store p (← frame.value env v)))
  match kept with
  | .ok (frame, memory) => .next frame { store with memory }
  | .error e => .stop (.error e) { store with memory }

def fetch (env : Env) (frame : Frame) (store : Store) (result : Temp) (slot : Value) : Flow :=
  let fetched : Except RunError Frame := do
    frame.set result (← store.memory.load (← (← frame.value env slot).toPointer))
  match fetched with
  | .ok frame => .next frame store
  | .error e => .stop (.error e) store

end Frame

namespace Env

/--
Runs the machine until the frame at the bottom is at work again.
-/
def untilBack (env : Env) : Nat → State → Option Flow
  | _, { frame, callers := [], store } => some (.next frame store)
  | 0, { callers := _ :: _, .. } => none
  | fuel + 1, s =>
    match env.next s with
    | .running t => env.untilBack fuel t
    | .ended result store => some (.stop result store)

theorem untilBack_nil (env : Env) (fuel : Nat) (frame : Frame) (store : Store) :
    env.untilBack fuel ⟨frame, [], store⟩ = some (.next frame store) := by
  cases fuel <;> rfl

theorem untilBack_zero {env : Env} {s : State} (h : s.callers ≠ []) : env.untilBack 0 s = none := by
  obtain ⟨frame, callers, store⟩ := s
  cases callers with
  | nil => exact absurd rfl h
  | cons => rfl

theorem untilBack_succ {env : Env} {s : State} (h : s.callers ≠ []) (fuel : Nat) :
    env.untilBack (fuel + 1) s =
      match env.next s with
      | .running t => env.untilBack fuel t
      | .ended result store => some (.stop result store) := by
  obtain ⟨frame, callers, store⟩ := s
  cases callers with
  | nil => exact absurd rfl h
  | cons => rfl

def perform (env : Env) (fuel : Nat) (i : Instruction) (frame : Frame) (store : Store) :
    Option Flow :=
  match env.step { frame, callers := [], store } i with
  | .running s => env.untilBack fuel s
  | .ended result store => some (.stop result store)

end Env

mutual

def Code.run (env : Env) (fuel : Nat) : Code → Frame → Store → Option Flow
  | .plain i, frame, store => env.perform fuel i frame store
  | .keep slot v, frame, store => some (frame.keep env store slot v)
  | .fetch result slot, frame, store => some (frame.fetch env store result slot)
  | .cond condition ifTrue ifFalse, frame, store =>
    match frame.holds env condition with
    | .ok true => Code.runAll env fuel ifTrue frame store
    | .ok false => Code.runAll env fuel ifFalse frame store
    | .error e => some (.stop (.error e) store)
  | .loop turn step, frame, store =>
    let turn := Code.runAll env fuel turn
    let step := Flow.steps (Code.runAll env fuel step) fuel
    (Flow.turns turn step fuel frame store).map Flow.outside
  | .leave, frame, store => some (.leave frame store)
  | .again, frame, store => some (.again frame store)
  | .ret a, frame, store => some (.stop (frame.answer env store a) store)

def Code.runAll (env : Env) (fuel : Nat) : List Code → Frame → Store → Option Flow
  | [], frame, store => some (.next frame store)
  | c :: cs, frame, store => Flow.andThen (c.run env fuel frame store) (Code.runAll env fuel cs)

end

end ScriptedIR
