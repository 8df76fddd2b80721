import ScriptedIR.Run.Machine
import ScriptedIR.Script.Build

/-!
Programs: libraries whose symbols are plain names and whose main function can be run.
-/

namespace ScriptedIR

structure Program where
  library : Library
  output : String := ""

namespace Program

def create (name address : String) : Program :=
  { library := { name, address, prefixed := false } }

def named (name : String) : Program := create name (addressOf name)

def mainSignature : Ty.Signature :=
  { result := .i32, params := [.i32, .pointer .bytePointer] }

def execute (p : Program) (limits : Limits) (symbol : String) (args : List Datum) :
    Except ScriptError Datum × Program :=
  match Machine.create p.library.module limits with
  | .error e => (.error (.run e), p)
  | .ok machine =>
    let (result, machine) := machine.run symbol args
    (result.mapError .run, { p with output := machine.store.output })

def run (p : Program) (limits : Limits) : Except ScriptError Int64 × Program :=
  match p.library.function? "main" with
  | none => (.error (.argument (.noMain p.library.name)), p)
  | some _ =>
    match p.execute limits "main" [.int 0, .pointer .null] with
    | (.ok (.int code), p) => (.ok code, p)
    | (.ok d, p) => (.error (.exitCode d), p)
    | (.error e, p) => (.error e, p)

def runFunction (p : Program) (name : String) (args : List Datum) :
    Except ScriptError Datum × Program :=
  match p.library.function? name with
  | none => (.error (.unresolved name), p)
  | some f => p.execute {} f.symbol args

end Program

end ScriptedIR
