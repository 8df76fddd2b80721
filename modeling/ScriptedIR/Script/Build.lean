import ScriptedIR.Script.Body
import ScriptedIR.Verify

/-!
Building the functions of a library. A function is built once. When its script fails it goes back to
a mere declaration; otherwise the blocks are put in order and a function that may run past its end
is warned about.
-/

namespace ScriptedIR

namespace GenState

/--
The function with its blocks in order, and whether its last block is complete. An empty block that
nothing leads to is dropped from the end, and the return block is put there.
-/
def tidy (s : GenState) : Except CodeError (Function × Bool) := do
  let last := s.cursor.block
  let dropped ←
    if s.cursor.finished || last = s.entry then pure false
    else do
      let b ← s.function.block last
      pure (b.body.isEmpty && !s.function.isReferenced last)
  let f := if dropped then s.function.removeBlock last else s.function
  let f ← match s.returnBlock, f.last? with
    | some block, some tail => f.moveAfter block tail
    | _, _ => pure f
  return (f, s.cursor.finished || dropped)

end GenState

namespace Library

def putFunction (lib : Library) (symbol : String) (f : Function) : Library :=
  { lib with module := lib.module.modifyFunction symbol fun _ => f }

def noReturn (f : FunctionRef) : Diagnostic :=
  { message := f.name ++ " has no return at the end of the function!", symbol := some f.symbol }

def complete (f : FunctionRef) (s : GenState) : Except ScriptError Unit × Library :=
  let lib := { s.library with built := f.symbol :: s.library.built }
  match s.tidy with
  | .error e => (.error (.ofCode e), lib.putFunction f.symbol s.function)
  | .ok (code, terminated) =>
    let lib := lib.putFunction f.symbol code
    (.ok (), if terminated then lib else lib.warn (noReturn f))

def startState (lib : Library) (f : FunctionRef) (code : Function) : GenState :=
  let (entry, function) := code.addBlock "entry"
  { library := lib, function, name := f.name, returnType := f.signature.result, entry
    cursor := { start := entry } }

def buildTraced (lib : Library) (name : String) (body : Gen Unit) :
    (Except ScriptError Unit × Library) × List Event :=
  match lib.function? name with
  | none => ((.error (.unresolved name), lib), [])
  | some f =>
    if f.symbol ∈ lib.built then ((.ok (), lib), [])
    else
      match lib.module.function? f.symbol with
      | none => ((.error (.unresolved f.symbol), lib), [])
      | some code =>
        match body.exec (lib.startState f code) with
        | (.ok (), s) => (complete f s, s.trace)
        | (.error e, s) =>
          ((.error e, s.library.putFunction f.symbol s.function.clearBody), s.trace)

def functionTraced (lib : Library) (name : String) (signature : Ty.Signature) (body : Gen Unit) :
    (Except ScriptError FunctionRef × Library) × List Event :=
  match declare name signature lib with
  | (.error e, lib) => ((.error e, lib), [])
  | (.ok f, lib) =>
    let ((result, lib), trace) := lib.buildTraced name body
    ((result.map fun () => f, lib), trace)

def build (name : String) (body : Gen Unit) : Defining Unit :=
  fun lib => (lib.buildTraced name body).1

def function (name : String) (signature : Ty.Signature) (body : Gen Unit) : Defining FunctionRef :=
  fun lib => (lib.functionTraced name signature body).1

def verify (lib : Library) : Except ScriptError Unit := lib.module.verify.mapError .ofCode

end Library

end ScriptedIR
