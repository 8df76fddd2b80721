import ScriptedIR.Module

/-!
Verification: every block of a defined function is non-empty, has its only terminator at the end and
leads to blocks of the same function only.
-/

namespace ScriptedIR

def Block.fault? (f : Function) (b : Block) : Option BlockFault :=
  match b.body.getLast? with
  | none => some .empty
  | some last =>
    if !last.isTerminator then some .unterminated
    else
      let early := b.body.dropLast.countP Instruction.isTerminator
      if 0 < early then some (.early early)
      else
        match last.successors.find? fun target => (f.position? target).isNone with
        | some target => some (.unknownTarget target)
        | none => none

def Function.verify (f : Function) : Except CodeError Unit :=
  f.blocks.forM fun b =>
    match b.fault? f with
    | some fault => .error (.verification f.name b.id fault)
    | none => .ok ()

def Module.verify (m : Module) : Except CodeError Unit :=
  m.functions.forM Function.verify

end ScriptedIR
