import ScriptedIR.Run.Memory

/-!
Host functions: what external functions do when a program calls them. They see the memory and write
to the output of the run. `formatText` is the formatting of `printf`.
-/

namespace ScriptedIR

structure Store where
  memory : Memory := {}
  output : String := ""
deriving Repr

def Store.write (s : Store) (text : String) : Store :=
  { s with output := s.output ++ text }

/--
A host function works on the store and on nothing else of the machine. It runs no functions, registers
no hosts and sees neither the steps nor the frames at work.
-/
abbrev HostFunction := Store → List Datum → Except RunError Datum × Store

namespace Host

inductive Conversion where
  | signed
  | unsigned
  | hexadecimal
  | character
  | fixed
  | text
deriving DecidableEq, Repr

def Conversion.ofChar? : Char → Option Conversion
  | 'd' | 'i' => some signed
  | 'u' => some unsigned
  | 'x' => some hexadecimal
  | 'c' => some character
  | 'f' => some fixed
  | 's' => some text
  | _ => none

def byteChar (v : Int64) : Char :=
  Char.ofNat v.toUInt64.toUInt8.toNat

def Conversion.render (m : Memory) : Conversion → Datum → Except RunError String
  | signed, .int v => .ok (toString v.toInt)
  | unsigned, .int v => .ok (toString v.toUInt64.toNat)
  | hexadecimal, .int v => .ok (Text.hex v.toUInt64.toNat)
  | character, .int v => .ok (byteChar v).toString
  | fixed, .float x => .ok (Decimal.fixedText 6 x)
  | text, .pointer p => m.readText p
  | _, _ => .error (.typeError .formatArguments)

mutual

/--
Text with the conversions replaced by arguments: `%d`, `%i`, `%u`, `%x`, `%c`, `%f`, `%s`. A doubled
percent sign is one; any other character after it stays as it is.
-/
def formatText (m : Memory) : List Char → List Datum → Except RunError String
  | [], _ => .ok ""
  | c :: cs, args =>
    if c = '%' then formatConversion m cs args
    else do return c.toString ++ (← formatText m cs args)

def formatConversion (m : Memory) : List Char → List Datum → Except RunError String
  | [], _ => .ok "%"
  | c :: cs, args =>
    if c = 'l' then formatConversion m cs args
    else if c = '%' then do return "%" ++ (← formatText m cs args)
    else
      match Conversion.ofChar? c with
      | none => do return "%" ++ c.toString ++ (← formatText m cs args)
      | some conversion =>
        match args with
        | [] => .error (.typeError .formatArguments)
        | arg :: args => do
          let text ← conversion.render m arg
          return text ++ (← formatText m cs args)

end

def pointerArg (host : String) (args : List Datum) (i : Nat) : Except RunError Pointer :=
  match args[i]? with
  | some (.pointer p) => .ok p
  | _ => .error (.typeError (.hostPointer host i))

def intArg (host : String) (args : List Datum) (i : Nat) : Except RunError Int64 :=
  match args[i]? with
  | some (.int v) => .ok v
  | _ => .error (.typeError (.hostInteger host i))

def writing (f : Memory → List Datum → Except RunError (String × Int64)) : HostFunction :=
  fun store args =>
    match f store.memory args with
    | .ok (text, v) => (.ok (.int v), store.write text)
    | .error e => (.error e, store)

def puts : HostFunction := writing fun m args => do
  let text ← m.readText (← pointerArg "puts" args 0)
  return (text ++ "\n", 0)

def putchar : HostFunction := writing fun _ args => do
  let v ← intArg "putchar" args 0
  return ((byteChar v).toString, v)

def printf : HostFunction := writing fun m args => do
  let format ← m.readText (← pointerArg "printf" args 0)
  let text ← formatText m format.toList args.tail
  return (text, Int64.ofNat text.utf8ByteSize)

def abs : HostFunction := writing fun _ args => do
  let v ← intArg "abs" args 0
  return ("", if v < 0 then -v else v)

def standard : List (String × HostFunction) :=
  [("puts", puts), ("putchar", putchar), ("printf", printf), ("abs", abs)]

end Host

end ScriptedIR
