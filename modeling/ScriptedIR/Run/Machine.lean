import ScriptedIR.Module
import ScriptedIR.Run.Arith
import ScriptedIR.Run.Host

/-!
The machine that runs functions of a module. A state holds the frame at work, the frames that wait
for a call to return, and the store. `Env.step` executes one instruction; `Env.run` repeats it until
the run ends or its steps are used up, so every run ends.
-/

namespace ScriptedIR

structure Limits where
  steps : Nat := 10000000
  depth : Nat := 1024
deriving DecidableEq, Repr

/--
What a run does not change. Of several entries under one name the first counts.
-/
structure Env where
  module : Module
  limits : Limits := {}
  globals : List (String × Pointer) := []
  hosts : List (String × HostFunction) := Host.standard

namespace Env

def globalPointer (env : Env) (name : String) : Except RunError Pointer :=
  match env.globals.lookup name with
  | some p => .ok p
  | none => .error (.invalidPointer (.unknownGlobal name))

mutual

def constant (env : Env) : Constant → Except RunError Datum
  | .int _ v => .ok (.int v)
  | .float _ x => .ok (.float x)
  | .null _ => .ok (.pointer .null)
  | .undef _ => .ok .undef
  | .array _ cs => do return .aggregate (← constants env cs)
  | .vector _ cs => do return .aggregate (← constants env cs)
  | .struct _ cs => do return .aggregate (← constants env cs)
  | .globalAddr name _ => do return .pointer (← env.globalPointer name)
  | .functionAddr name _ => .ok (.function name)
  | .bitCast c ty => do bitCast (← constant env c) c.ty ty

def constants (env : Env) : List Constant → Except RunError (List Datum)
  | [] => .ok []
  | c :: cs => do return (← constant env c) :: (← constants env cs)

end

def initialized (env : Env) (memory : Memory) (g : Global) : Except RunError Memory :=
  match g.initializer with
  | none => .ok memory
  | some c => do
    let value ← env.constant c
    Memory.kept (memory.store (← env.globalPointer g.name) value)

end Env

structure Frame where
  function : Function
  temps : Array (Option Datum)
  block : BlockId
  rest : List Instruction
deriving Repr

namespace Frame

def jump (frame : Frame) (target : BlockId) : Frame :=
  { frame with
    block := target
    rest := match frame.function.block? target with
      | some b => b.body
      | none => [] }

def enter (f : Function) (args : List Datum) : Frame :=
  let temps := Array.ofFn fun i : Fin f.nextTemp => (args.take f.params.length)[i.val]?
  { function := f, temps, block := 0, rest := [] : Frame }.jump (f.entry?.getD 0)

@[simp]
theorem size_enter (f : Function) (args : List Datum) : (enter f args).temps.size = f.nextTemp := by
  simp [enter, jump]

theorem temps_enter (f : Function) (args : List Datum) (id : Temp) :
    (enter f args).temps[id]? =
      if id < f.nextTemp then some (args.take f.params.length)[id]? else none := by
  simp [enter, jump, Array.getElem?_ofFn]

def value (env : Env) (frame : Frame) : Value → Except RunError Datum
  | .temp id _ =>
    match frame.temps[id]? with
    | some (some d) => .ok d
    | _ => .error (.typeError (.undefinedTemp id frame.function.name))
  | .const c => env.constant c

def set (frame : Frame) (id : Temp) (d : Datum) : Except RunError Frame :=
  if id < frame.temps.size then .ok { frame with temps := frame.temps.setIfInBounds id (some d) }
  else .error (.typeError (.tempRange id))

def count (env : Env) (frame : Frame) : Option Value → Except RunError Nat
  | none => .ok 1
  | some v => do
    let n ← (← frame.value env v).toInt
    if n < 0 then .error (.typeError .negativeCount) else .ok n.toInt.toNat

def address (env : Env) (frame : Frame) (p : Pointer) : List Value → Except RunError Pointer
  | [] => .ok p
  | first :: rest => do
    let i ← (← frame.value env first).toInt
    rest.foldlM (fun p index => do
      return p.child (← (← frame.value env index).toInt).toInt) (← p.move i)

def compute (env : Env) (frame : Frame) (memory : Memory) : Rhs → Except RunError (Datum × Memory)
  | .binary op lhs rhs ty => do
    let a ← frame.value env lhs
    let b ← frame.value env rhs
    return (← binary frame.function.name op ty a b, memory)
  | .icmp predicate lhs rhs => do
    let a ← frame.value env lhs
    let b ← frame.value env rhs
    return (.ofBool (← compareData predicate lhs.ty a b), memory)
  | .fcmp predicate lhs rhs => do
    let x ← (← frame.value env lhs).toFloat
    let y ← (← frame.value env rhs).toFloat
    return (.ofBool (predicate.holds x y), memory)
  | .cast op v target => do
    return (← castDatum op (← frame.value env v) v.ty target, memory)
  | .alloca ty count | .malloc ty count => do
    let (p, memory) := memory.allocate ty (← frame.count env count)
    return (.pointer p, memory)
  | .load ptr _ => do
    return (← memory.load (← (← frame.value env ptr).toPointer), memory)
  | .gep ptr indices _ => do
    let p ← (← frame.value env ptr).toPointer
    return (.pointer (← frame.address env p indices), memory)
  | .extractValue aggregate path _ => do
    return (← extractMember (← frame.value env aggregate) path, memory)
  | .insertValue aggregate element path => do
    let d ← frame.value env aggregate
    let e ← frame.value env element
    return (← insertMember e d path, memory)
  | .extractElement vector index _ => do
    let d ← frame.value env vector
    let i ← (← frame.value env index).toInt
    return (← extractLane d i, memory)
  | .insertElement vector element index => do
    let d ← frame.value env vector
    let e ← frame.value env element
    let i ← (← frame.value env index).toInt
    return (← insertLane d e i, memory)
  | .shuffle lhs rhs mask _ => do
    let a ← frame.value env lhs
    let b ← frame.value env rhs
    return (← shuffleLanes a b mask, memory)
  | .ptrDiff lhs rhs => do
    let a ← frame.value env lhs
    let b ← frame.value env rhs
    let p ← a.toPointer
    return (.int (← pointerDistance p (← b.toPointer)), memory)
  | .select condition ifTrue ifFalse => do
    let c ← (← frame.value env condition).toInt
    return (← frame.value env (if c ≠ 0 then ifTrue else ifFalse), memory)

end Frame

structure Caller where
  frame : Frame
  result : Option Temp
deriving Repr

structure State where
  frame : Frame
  callers : List Caller
  store : Store
deriving Repr

inductive Progress where
  | running (s : State)
  | ended (result : Except RunError Datum) (store : Store)

inductive Dispatch (α : Type) where
  | refused (e : RunError)
  | host (f : α)
  | broken (cause : Breakdown)
  | frame (frame : Frame)

namespace Env

/--
Finds what to do for a call: the function has to exist and to take so many arguments; a declaration
is left to the host, and a definition needs room for another frame. Nothing has checked that the frame
has a slot for every argument.
-/
def dispatchTo (env : Env) (hosts : List (String × α)) (depth : Nat) (name : String)
    (args : List Datum) : Dispatch α :=
  match env.module.function? name with
  | none => .refused (.unknownFunction name)
  | some f =>
    let expected := f.params.length
    let fits := if f.variadic then expected ≤ args.length else args.length = expected
    if ¬fits then .refused (.argumentCount name expected args.length)
    else if f.isDeclaration then
      match hosts.lookup name with
      | some host => .host host
      | none => .refused (.unresolvedExternal name)
    else if env.limits.depth ≤ depth then .refused (.stackOverflow env.limits.depth)
    else if f.nextTemp < expected then .broken (.slots f.nextTemp)
    else .frame (.enter f args)

def dispatch (env : Env) (depth : Nat) (name : String) (args : List Datum) : Dispatch HostFunction :=
  env.dispatchTo env.hosts depth name args

def resume (frame : Frame) (result : Option Temp) (d : Datum) (callers : List Caller)
    (store : Store) : Progress :=
  match result with
  | none => .running { frame, callers, store }
  | some id =>
    match frame.set id d with
    | .ok frame => .running { frame, callers, store }
    | .error e => .ended (.error e) store

def invoke (env : Env) (s : State) (result : Option Temp) (callee : Value) (args : List Value) :
    Progress :=
  let { frame, callers, store } := s
  let target : Except RunError (String × List Datum) := do
    match ← frame.value env callee with
    | .function name => return (name, ← args.mapM (frame.value env))
    | d => .error (.typeError (.notCallable d))
  match target with
  | .error e => .ended (.error e) store
  | .ok (name, args) =>
    match env.dispatch (callers.length + 1) name args with
    | .refused e => .ended (.error e) store
    | .host f =>
      match f store args with
      | (.ok d, store) => resume frame result d callers store
      | (.error e, store) => .ended (.error e) store
    | .broken cause => .ended (.error (.breakdown cause)) store
    | .frame callee => .running { frame := callee, callers := ⟨frame, result⟩ :: callers, store }

def leave (s : State) (d : Datum) : Progress :=
  match s.callers with
  | [] => .ended (.ok d) s.store
  | caller :: callers => resume caller.frame caller.result d callers s.store

def proceed (store : Store) : Except RunError State → Progress
  | .ok s => .running s
  | .error e => .ended (.error e) store

def operate (s : State) (operation : Except RunError (Memory → Except RunError Unit × Memory)) :
    Progress :=
  match operation with
  | .error e => .ended (.error e) s.store
  | .ok operation =>
    match operation s.store.memory with
    | (.ok _, memory) => .running { s with store := { s.store with memory } }
    | (.error e, memory) => .ended (.error e) { s.store with memory }

def step (env : Env) (s : State) (i : Instruction) : Progress :=
  let { frame, callers, store } := s
  match i with
  | .define id rhs =>
    match frame.compute env store.memory rhs with
    | .error e => .ended (.error e) store
    | .ok (d, memory) =>
      let store := { store with memory }
      proceed store do return { frame := ← frame.set id d, callers, store }
  | .call result callee args _ => env.invoke { frame, callers, store } result callee args
  | .free ptr => operate { frame, callers, store } do
    let p ← (← frame.value env ptr).toPointer
    return fun memory => memory.free p
  | .store v ptr => operate { frame, callers, store } do
    let d ← frame.value env v
    let p ← (← frame.value env ptr).toPointer
    return fun memory => memory.store p d
  | .ret none => leave { frame, callers, store } .void
  | .ret (some v) =>
    match frame.value env v with
    | .ok d => leave { frame, callers, store } d
    | .error e => .ended (.error e) store
  | .branch target => .running { frame := frame.jump target, callers, store }
  | .branchIf condition ifTrue ifFalse => proceed store do
    let c ← (← frame.value env condition).toInt
    return { frame := frame.jump (if c ≠ 0 then ifTrue else ifFalse), callers, store }
  | .unreachable => .ended (.error (.unreachable frame.function.name)) store
  | .comment _ => .running { frame, callers, store }

theorem operate_ok {s : State} {f : Memory → Except RunError Unit × Memory}
    (h : ∀ {e m}, f s.store.memory = (.error e, m) → m = s.store.memory) :
    operate s (.ok f) = proceed s.store do
      let memory ← Memory.kept (f s.store.memory)
      return { s with store := { s.store with memory } } := by
  unfold operate
  dsimp only
  rcases hf : f s.store.memory with ⟨e | _, m⟩
  . rw [h hf]
    rfl
  . rfl

theorem step_free_eq (env : Env) (s : State) (ptr : Value) :
    env.step s (.free ptr) = proceed s.store do
      let p ← (← s.frame.value env ptr).toPointer
      let memory ← Memory.kept (s.store.memory.free p)
      return { s with store := { s.store with memory } } := by
  change operate s (s.frame.value env ptr >>= fun d => d.toPointer >>= fun p => pure _) = _
  cases s.frame.value env ptr with
  | error e => rfl
  | ok d =>
    change operate s (d.toPointer >>= fun p => pure _) = proceed s.store (d.toPointer >>= fun p => _)
    cases d.toPointer with
    | error e => rfl
    | ok p => exact operate_ok Memory.free_of_error

theorem step_store_eq (env : Env) (s : State) (v ptr : Value) :
    env.step s (.store v ptr) = proceed s.store do
      let d ← s.frame.value env v
      let p ← (← s.frame.value env ptr).toPointer
      let memory ← Memory.kept (s.store.memory.store p d)
      return { s with store := { s.store with memory } } := by
  change operate s (s.frame.value env v >>= fun d => s.frame.value env ptr >>= fun q =>
    q.toPointer >>= fun p => pure _) = _
  cases s.frame.value env v with
  | error e => rfl
  | ok d =>
    change operate s (s.frame.value env ptr >>= fun q => q.toPointer >>= fun p => pure _) =
      proceed s.store (s.frame.value env ptr >>= fun q => q.toPointer >>= fun p => _)
    cases s.frame.value env ptr with
    | error e => rfl
    | ok q =>
      change operate s (q.toPointer >>= fun p => pure _) = proceed s.store (q.toPointer >>= fun p => _)
      cases q.toPointer with
      | error e => rfl
      | ok p => exact operate_ok Memory.store_of_error

/--
How a run ended. Steps count every instruction that was begun, and one more if there were none left.
-/
structure Outcome where
  result : Except RunError Datum
  store : Store
  steps : Nat

/--
Executes up to `fuel` instructions. A block that ends without a terminator costs no step.
-/
def runFor (env : Env) : Nat → Nat → State → Outcome
  | 0, steps, s =>
    match s.frame.rest with
    | [] => ⟨.error (.missingTerminator s.frame.function.name s.frame.block), s.store, steps⟩
    | _ :: _ => ⟨.error (.stepLimit env.limits.steps), s.store, steps + 1⟩
  | fuel + 1, steps, s =>
    match s with
    | { frame := { function, temps, block, rest }, callers, store } =>
      match rest with
      | [] => ⟨.error (.missingTerminator function.name block), store, steps⟩
      | i :: rest =>
        match env.step { frame := { function, temps, block, rest }, callers, store } i with
        | .running s => runFor env fuel (steps + 1) s
        | .ended result store => ⟨result, store, steps + 1⟩

def run (env : Env) (store : Store) (name : String) (args : List Datum) : Outcome :=
  match env.dispatch 0 name args with
  | .refused e => ⟨.error e, store, 0⟩
  | .host f =>
    let (result, store) := f store args
    ⟨result, store, 0⟩
  | .broken cause => ⟨.error (.breakdown cause), store, 0⟩
  | .frame frame => env.runFor env.limits.steps 0 { frame, callers := [], store }

end Env

structure Machine where
  env : Env
  store : Store := {}
  steps : Nat := 0

namespace Machine

/--
Gives every global of a module a place in memory. Of several globals of one name the last one
counts.
-/
def placeGlobals (globals : List Global) (memory : Memory) :
    List (String × Pointer) × Memory :=
  globals.foldl (fun (places, memory) g =>
    let (p, memory) := memory.allocate g.ty 1
    ((g.name, p) :: places, memory)) ([], memory)

/--
A machine for a module, with all globals in place before the first of them is initialized.
-/
def create (module : Module) (limits : Limits := {}) : Except RunError Machine := do
  let (globals, memory) := placeGlobals module.globals {}
  let env : Env := { module, limits, globals }
  let memory ← module.globals.foldlM env.initialized memory
  return { env, store := { memory } }

def run (m : Machine) (name : String) (args : List Datum) : Except RunError Datum × Machine :=
  let outcome := m.env.run m.store name args
  (outcome.result, { m with store := outcome.store, steps := outcome.steps })

def register (m : Machine) (name : String) (f : HostFunction) : Machine :=
  { m with env := { m.env with hosts := (name, f) :: m.env.hosts } }

def readGlobal (m : Machine) (name : String) : Except RunError Datum := do
  m.store.memory.load (← m.env.globalPointer name)

end Machine

end ScriptedIR
