import ScriptedIR.Json.Code

/-!
The JSON form of blocks, functions, globals and modules. These are records: they are written as
objects, and read from objects or from arrays of their members. Tables under names are objects.
-/

namespace ScriptedIR

open Json Instruction

def Linkage.toJson : Linkage → Json
  | external => .str "External"
  | hidden => .str "Private"

def Linkage.ofJson? (j : Json) : Option Linkage := do
  match ← j.plainTag? with
  | "External" => return .external
  | "Private" => return .hidden
  | _ => none

def Block.toJson (b : Block) : Json :=
  .obj [("id", .ofNat b.id), ("name", .str b.name),
    ("instructions", .ofList Instruction.toJson b.body)]

def Block.ofJson? (j : Json) : Option Block := do
  let j ← j.record? ["id", "name", "instructions"]
  return {
    id := ← member? j "id" Json.index?
    name := ← member? j "name" Json.str?
    body := ← member? j "instructions" (list? Instruction.ofJson?) }

def Function.toJson (f : Function) : Json :=
  .obj [("name", .str f.name), ("return_type", f.result.toJson),
    ("params", .ofList Ty.toJson f.params), ("is_vararg", .bool f.variadic),
    ("linkage", f.linkage.toJson), ("blocks", .ofList Block.toJson f.blocks),
    ("temps", .obj [("next_id", .ofNat f.nextTemp)]), ("next_block", .ofNat f.nextBlock)]

def nextTemp? (j : Json) : Option Temp := do
  member? (← j.record? ["next_id"]) "next_id" Json.index?

def Function.ofJson? (j : Json) : Option Function := do
  let j ← j.record? ["name", "return_type", "params", "is_vararg", "linkage", "blocks", "temps",
    "next_block"]
  return {
    name := ← member? j "name" Json.str?
    result := ← member? j "return_type" Ty.ofJson?
    params := ← member? j "params" (list? Ty.ofJson?)
    variadic := ← member? j "is_vararg" Json.bool?
    linkage := ← member? j "linkage" Linkage.ofJson?
    blocks := ← member? j "blocks" (list? Block.ofJson?)
    nextTemp := ← member? j "temps" nextTemp?
    nextBlock := ← member? j "next_block" Json.index? }

def Global.toJson (g : Global) : Json :=
  .obj [("name", .str g.name), ("ty", g.ty.toJson), ("is_constant", .bool g.isConstant),
    ("initializer", ofOption Constant.toJson g.initializer), ("linkage", g.linkage.toJson)]

def Global.ofJson? (j : Json) : Option Global := do
  let j ← j.record? ["name", "ty", "is_constant", "initializer", "linkage"]
  return {
    name := ← member? j "name" Json.str?
    ty := ← member? j "ty" Ty.ofJson?
    isConstant := ← member? j "is_constant" Json.bool?
    initializer := ← optional? j "initializer" Constant.ofJson?
    linkage := ← member? j "linkage" Linkage.ofJson? }

def Names.toJson (f : α → Json) (names : Names α) : Json :=
  .obj (names.toList.map fun (name, a) => (name, f a))

def Names.ofJson? (read : Json → Option α) : Json → Option (Names α)
  | .obj members => do
    let entries ← members.mapM fun (name, j) => (read j).map (name, ·)
    return entries.foldl (fun names (name, a) => names.insert name a) ∅
  | _ => none

def Module.toJson (m : Module) : Json :=
  .obj [("name", .str m.name), ("functions", .ofList Function.toJson m.functions),
    ("globals", .ofList Global.toJson m.globals),
    ("type_definitions", Names.toJson Ty.toJson m.typeDefinitions),
    ("strings", Names.toJson .str m.strings)]

def Module.ofJson? (j : Json) : Option Module := do
  let j ← j.record? ["name", "functions", "globals", "type_definitions", "strings"]
  return {
    name := ← member? j "name" Json.str?
    functions := ← member? j "functions" (list? Function.ofJson?)
    globals := ← member? j "globals" (list? Global.ofJson?)
    typeDefinitions := ← member? j "type_definitions" (Names.ofJson? Ty.ofJson?)
    strings := ← member? j "strings" (Names.ofJson? Json.str?) }

end ScriptedIR
