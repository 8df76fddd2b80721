import ScriptedIR.Json.Module
import ScriptedIR.Samples

/-!
The command line: lists the samples, prints their code, verifies and runs them.
-/

namespace ScriptedIR.Cli

inductive Command where
  | version
  | list
  | dump (sample : String) (json : Bool)
  | run (sample : String) (steps : Nat)
  | verify (sample : String)
deriving DecidableEq, Repr

structure Arguments where
  positional : List String := []
  flags : List String := []
  options : List (String × String) := []
deriving Repr

def splitOption (arg : String) : String × Option String :=
  match arg.toList.span (· ≠ '=') with
  | (name, _ :: value) => (String.ofList name, some (String.ofList value))
  | (name, []) => (String.ofList name, none)

/--
Sorts arguments into flags, options with a value and positions. After `--` everything is a position,
and a lone hyphen is one. Nothing may be given twice, and a value does not start with a hyphen.
-/
def scan (flags options : List String) : List String → Option Arguments
  | [] => some {}
  | "--" :: rest => some { positional := rest }
  | arg :: rest => do
    if arg.startsWith "-" && arg ≠ "-" then
      let (name, value) := splitOption arg
      if flags.contains name && value.isNone then
        let args ← scan flags options rest
        if args.flags.contains name then none
        else some { args with flags := name :: args.flags }
      else if options.contains name then
        match value, rest with
        | some value, rest =>
          let args ← scan flags options rest
          if (args.options.lookup name).isSome then none
          else some { args with options := (name, value) :: args.options }
        | none, value :: rest =>
          let args ← scan flags options rest
          if value.startsWith "-" || (args.options.lookup name).isSome then none
          else some { args with options := (name, value) :: args.options }
        | none, [] => none
      else none
    else
      let args ← scan flags options rest
      some { args with positional := arg :: args.positional }

def number? (s : String) : Option Nat :=
  let digits := match s.toList with
    | '+' :: digits => digits
    | digits => digits
  let n := Text.ofDigits digits
  if digits.isEmpty || !digits.all Char.isDigit || UInt64.size ≤ n then none else some n

/--
The command that arguments ask for. When the version is asked for first, nothing behind that is
looked at, not even in the same argument as the short flag.
-/
def parse : List String → Option Command
  | "--version" :: _ => some .version
  | "list" :: rest => do
    match ← scan [] [] rest with
    | { positional := [], .. } => some .list
    | _ => none
  | "dump" :: rest => do
    match ← scan ["--json"] [] rest with
    | { positional := [sample], flags, .. } => some (.dump sample (flags.contains "--json"))
    | _ => none
  | "run" :: rest => do
    match ← scan [] ["--step-limit"] rest with
    | { positional := [sample], options, .. } =>
      match options.lookup "--step-limit" with
      | some limit => return .run sample (← number? limit)
      | none => some (.run sample ({} : Limits).steps)
    | _ => none
  | "verify" :: rest => do
    match ← scan [] [] rest with
    | { positional := [sample], .. } => some (.verify sample)
    | _ => none
  | flags :: _ => if flags.startsWith "-V" then some .version else none
  | [] => none

structure Outcome where
  code : Nat := 0
  stdout : String := ""
  stderr : String := ""
deriving DecidableEq, Repr

def usage : String :=
  "Usage: rls list | dump [--json] SAMPLE | run [--step-limit N] SAMPLE | verify SAMPLE\n"

def failure (message : String) : Outcome := { code := 1, stderr := "Error: " ++ message ++ "\n" }

def withSample (name : String) (f : Program → Outcome) : Outcome :=
  match Sample.find? name with
  | none => failure ("Unknown sample: " ++ name)
  | some sample =>
    match sample.program with
    | .error e => failure e.message
    | .ok program =>
      let warnings := program.library.diagnostics.map fun d => d.text ++ "\n"
      let outcome := f program
      { outcome with stderr := String.join warnings ++ outcome.stderr }

def padded (name : String) : String :=
  name ++ String.ofList (List.replicate (12 - name.length) ' ')

def listing : String :=
  String.join (Sample.all.map fun sample => padded sample.name ++ " " ++ sample.description ++ "\n")

def Command.execute : Command → Outcome
  | version => { stdout := "rls 0.1.0\n" }
  | list => { stdout := listing }
  | dump sample json => withSample sample fun p =>
    let m := p.library.module
    { stdout := if json then m.toJson.pretty 0 ++ "\n" else m.text }
  | run sample steps => withSample sample fun p =>
    match p.run { steps } with
    | (.ok code, p) => { stdout := p.output ++ "exit code: " ++ toString code.toInt ++ "\n" }
    | (.error e, _) => failure e.message
  | verify sample => withSample sample fun p =>
    match p.library.verify with
    | .ok () => { stdout := sample ++ ": ok\n" }
    | .error e => failure e.message

def run (args : List String) : Outcome :=
  match parse args with
  | some command => command.execute
  | none => { code := 2, stderr := usage }

end ScriptedIR.Cli
