import ScriptedIR.Cli

/-!
The command line program: prints what `Cli.run` says and exits with its code.
-/

def main (args : List String) : IO UInt32 := do
  let outcome := ScriptedIR.Cli.run args
  IO.print outcome.stdout
  IO.eprint outcome.stderr
  return outcome.code.toUInt32
