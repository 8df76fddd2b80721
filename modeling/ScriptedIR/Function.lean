import ScriptedIR.CodeError

/-!
Blocks and functions. A function owns its blocks in layout order; the first one is its entry.
Parameters are the first temporaries. A function without blocks is a declaration.
-/

namespace ScriptedIR

def modifyFirst (test : α → Bool) (change : α → α) : List α → List α
  | [] => []
  | a :: as => if test a then change a :: as else a :: modifyFirst test change as

structure Block where
  id : BlockId
  name : String
  body : List Instruction
deriving Repr

namespace Block

def terminator? (b : Block) : Option Instruction :=
  b.body.getLast?.filter Instruction.isTerminator

def isTerminated (b : Block) : Bool := b.terminator?.isSome

def successors (b : Block) : List BlockId :=
  match b.terminator? with
  | some i => i.successors
  | none => []

def insert (b : Block) (position : Nat) (i : Instruction) : Block :=
  { b with body := b.body.take position ++ i :: b.body.drop position }

def text (b : Block) : String :=
  b.id.text ++ ":  ; " ++ b.name ++ "\n"
    ++ String.join (b.body.map fun i => "  " ++ i.text ++ "\n")

end Block

inductive Linkage where
  | external
  | hidden
deriving DecidableEq, Repr

def Linkage.text : Linkage → String
  | external => ""
  | hidden => "private "

structure Function where
  name : String
  result : Ty
  params : List Ty
  variadic : Bool
  linkage : Linkage := .external
  blocks : List Block := []
  nextTemp : Temp := params.length
  nextBlock : BlockId := 0
deriving Repr

namespace Function

def isDeclaration (f : Function) : Bool := f.blocks.isEmpty

def ty (f : Function) : Ty := .function f.result f.params f.variadic

def address (f : Function) : Constant := .functionAddr f.name (.pointer f.ty)

def param? (f : Function) (i : Nat) : Option Value :=
  f.params[i]?.map (.temp i)

def paramValues (f : Function) : List Value :=
  f.params.mapIdx .temp

def newTemp (f : Function) : Temp × Function :=
  (f.nextTemp, { f with nextTemp := f.nextTemp + 1 })

def addBlock (f : Function) (name : String) : BlockId × Function :=
  (f.nextBlock,
    { f with nextBlock := f.nextBlock + 1, blocks := f.blocks ++ [⟨f.nextBlock, name, []⟩] })

def entry? (f : Function) : Option BlockId := f.blocks.head?.map Block.id

def last? (f : Function) : Option BlockId := f.blocks.getLast?.map Block.id

def position? (f : Function) (id : BlockId) : Option Nat :=
  f.blocks.findIdx? (·.id = id)

def block? (f : Function) (id : BlockId) : Option Block :=
  f.blocks.find? (·.id = id)

def block (f : Function) (id : BlockId) : Except CodeError Block :=
  match f.block? id with
  | some b => .ok b
  | none => .error (.unknownBlock f.name id)

def modifyBlock (f : Function) (id : BlockId) (change : Block → Block) : Function :=
  { f with blocks := modifyFirst (·.id = id) change f.blocks }

def insertInstruction (f : Function) (id : BlockId) (position : Nat) (i : Instruction) :
    Except CodeError Function := do
  discard <| f.block id
  return f.modifyBlock id (·.insert position i)

def withoutBlock (f : Function) (id : BlockId) : List Block :=
  f.blocks.eraseP (·.id = id)

/--
Takes a block out and puts it back at a place that is found among the other blocks: `offset` behind
the block `anchor`. If that does not exist, it goes back to where it was.
-/
def relocate (f : Function) (id anchor : BlockId) (offset : Nat) :
    Except CodeError Unit × Function :=
  if id = anchor then (.ok (), f)
  else
    match f.block? id with
    | none => (.error (.unknownBlock f.name id), f)
    | some b =>
      let rest := f.withoutBlock id
      match rest.findIdx? (·.id = anchor) with
      | some i => (.ok (), { f with blocks := rest.insertIdx (i + offset) b })
      | none =>
        let place := f.blocks.findIdx (·.id = id)
        (.error (.unknownBlock f.name anchor), { f with blocks := rest.insertIdx place b })

def moveNear (f : Function) (id anchor : BlockId) (offset : Nat) : Except CodeError Function :=
  match f.relocate id anchor offset with
  | (.ok (), g) => .ok g
  | (.error e, _) => .error e

def moveAfter (f : Function) (id after : BlockId) : Except CodeError Function :=
  f.moveNear id after 1

def moveBefore (f : Function) (id before : BlockId) : Except CodeError Function :=
  f.moveNear id before 0

def clearBody (f : Function) : Function :=
  { f with blocks := [], nextTemp := f.params.length, nextBlock := 0 }

def removeBlock (f : Function) (id : BlockId) : Function :=
  { f with blocks := f.withoutBlock id }

def predecessors (f : Function) (id : BlockId) : List BlockId :=
  (f.blocks.filter (·.successors.contains id)).map Block.id

def isReferenced (f : Function) (id : BlockId) : Bool :=
  f.blocks.any fun b => b.body.any (·.successors.contains id)

def text (f : Function) : String :=
  let params := f.params.mapIdx fun i t => t.text ++ " %" ++ toString i
  let head := f.linkage.text ++ f.result.text ++ " @" ++ f.name
    ++ Ty.signatureText params f.variadic
  if f.isDeclaration then "declare " ++ head ++ "\n"
  else "define " ++ head ++ " \x7b\n" ++ String.join (f.blocks.map Block.text) ++ "\x7d\n"

end Function

end ScriptedIR
