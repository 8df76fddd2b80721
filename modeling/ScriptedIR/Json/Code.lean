import ScriptedIR.Json
import ScriptedIR.Module

/-!
The JSON form of code. An alternative without parts is its name; one with parts is an object with
the name as its only member. `toJson` writes, `ofJson?` reads; members that a reader does not know
are passed over, and null may stand for the parts of an alternative that has none.
-/

namespace ScriptedIR

open Json

def named (name : α → String) (all : List α) (tag : String) : Option α :=
  all.find? (name · = tag)

namespace Ty

mutual

def toJson : Ty → Json
  | .void => .str "Void"
  | .int .w1 => .str "I1"
  | .int .w8 => .str "I8"
  | .int .w16 => .str "I16"
  | .int .w32 => .str "I32"
  | .int .w64 => .str "I64"
  | .float .single => .str "F32"
  | .float .double => .str "F64"
  | .pointer t => .obj [("Pointer", toJson t)]
  | .array n t => .obj [("Array", .obj [("size", .ofNat n), ("element_type", toJson t)])]
  | .vector n t => .obj [("Vector", .obj [("size", .ofNat n), ("element_type", toJson t)])]
  | .struct name fields packed =>
    .obj [("Struct", .obj [("name", ofOption .str name), ("fields", .arr (toJsons fields)),
      ("packed", .bool packed)])]
  | .function r ps v =>
    .obj [("Function", .obj [("return_type", toJson r), ("param_types", .arr (toJsons ps)),
      ("is_vararg", .bool v)])]
  | .label => .str "Label"

def toJsons : List Ty → List Json
  | [] => []
  | t :: ts => toJson t :: toJsons ts

end

def plain? : String → Option Ty
  | "Void" => some .void
  | "I1" => some .i1
  | "I8" => some .i8
  | "I16" => some .i16
  | "I32" => some .i32
  | "I64" => some .i64
  | "F32" => some .f32
  | "F64" => some .f64
  | "Label" => some .label
  | _ => none

def ofJson? (j : Json) : Option Ty := do
  let (tag, payload) ← j.tagged?
  match tag, payload with
  | tag, none => plain? tag
  | "Pointer", some ⟨p, _⟩ => return .pointer (← ofJson? p)
  | "Array", some ⟨p, _⟩ =>
    let size ← (← p.get? "size").val.size?
    let ⟨e, _⟩ ← p.get? "element_type"
    return .array size (← ofJson? e)
  | "Vector", some ⟨p, _⟩ =>
    let size ← (← p.get? "size").val.size?
    let ⟨e, _⟩ ← p.get? "element_type"
    return .vector size (← ofJson? e)
  | "Struct", some ⟨p, _⟩ =>
    let name ← match p.optional "name" with
      | none => pure none
      | some ⟨n, _⟩ => some <$> n.str?
    let ⟨fs, _⟩ ← p.get? "fields"
    let fields ← (← fs.items?).mapM fun ⟨f, _⟩ => ofJson? f
    return .struct name fields (← (← p.get? "packed").val.bool?)
  | "Function", some ⟨p, _⟩ =>
    let ⟨r, _⟩ ← p.get? "return_type"
    let result ← ofJson? r
    let ⟨ps, _⟩ ← p.get? "param_types"
    let params ← (← ps.items?).mapM fun ⟨q, _⟩ => ofJson? q
    return .function result params (← (← p.get? "is_vararg").val.bool?)
  | tag, some ⟨.null, _⟩ => plain? tag
  | _, _ => none
termination_by sizeOf j
decreasing_by all_goals omega

end Ty

namespace Constant

mutual

def toJson : Constant → Json
  | .int ty v => .obj [("Int", .obj [("ty", ty.toJson), ("value", .int v.toInt)])]
  | .float ty x => .obj [("Float", .obj [("ty", ty.toJson), ("value", .real x)])]
  | .null ty => .obj [("Null", ty.toJson)]
  | .undef ty => .obj [("Undef", ty.toJson)]
  | .array ty cs => .obj [("Array", .obj [("ty", ty.toJson), ("elements", .arr (toJsons cs))])]
  | .vector ty cs => .obj [("Vector", .obj [("ty", ty.toJson), ("elements", .arr (toJsons cs))])]
  | .struct ty cs => .obj [("Struct", .obj [("ty", ty.toJson), ("fields", .arr (toJsons cs))])]
  | .globalAddr name ty => .obj [("GlobalAddr", .obj [("name", .str name), ("ty", ty.toJson)])]
  | .functionAddr name ty => .obj [("FunctionAddr", .obj [("name", .str name), ("ty", ty.toJson)])]
  | .bitCast c ty => .obj [("BitCast", .obj [("value", toJson c), ("ty", ty.toJson)])]

def toJsons : List Constant → List Json
  | [] => []
  | c :: cs => toJson c :: toJsons cs

end

def typeMember? (j : Json) : Option Ty := do
  Ty.ofJson? (← j.get? "ty").val

def ofJson? (j : Json) : Option Constant := do
  let (tag, payload) ← j.tagged?
  match tag, payload with
  | "Int", some ⟨p, _⟩ => return .int (← typeMember? p) (← (← p.get? "value").val.int64?)
  | "Float", some ⟨p, _⟩ => return .float (← typeMember? p) (← (← p.get? "value").val.float?)
  | "Null", some ⟨p, _⟩ => return .null (← Ty.ofJson? p)
  | "Undef", some ⟨p, _⟩ => return .undef (← Ty.ofJson? p)
  | "Array", some ⟨p, _⟩ =>
    let ⟨es, _⟩ ← p.get? "elements"
    return .array (← typeMember? p) (← (← es.items?).mapM fun ⟨e, _⟩ => ofJson? e)
  | "Vector", some ⟨p, _⟩ =>
    let ⟨es, _⟩ ← p.get? "elements"
    return .vector (← typeMember? p) (← (← es.items?).mapM fun ⟨e, _⟩ => ofJson? e)
  | "Struct", some ⟨p, _⟩ =>
    let ⟨fs, _⟩ ← p.get? "fields"
    return .struct (← typeMember? p) (← (← fs.items?).mapM fun ⟨f, _⟩ => ofJson? f)
  | "GlobalAddr", some ⟨p, _⟩ =>
    return .globalAddr (← (← p.get? "name").val.str?) (← typeMember? p)
  | "FunctionAddr", some ⟨p, _⟩ =>
    return .functionAddr (← (← p.get? "name").val.str?) (← typeMember? p)
  | "BitCast", some ⟨p, _⟩ =>
    let ⟨c, _⟩ ← p.get? "value"
    return .bitCast (← ofJson? c) (← typeMember? p)
  | _, _ => none
termination_by sizeOf j
decreasing_by all_goals omega

end Constant

namespace Value

def toJson : Value → Json
  | temp id ty => .obj [("Temp", .obj [("id", .ofNat id), ("ty", ty.toJson)])]
  | const c => .obj [("Constant", c.toJson)]

def ofJson? (j : Json) : Option Value := do
  match ← j.tagged? with
  | ("Temp", some ⟨p, _⟩) =>
    return .temp (← (← p.get? "id").val.index?) (← Ty.ofJson? (← p.get? "ty").val)
  | ("Constant", some ⟨p, _⟩) => return .const (← Constant.ofJson? p)
  | _ => none

end Value

def BinaryOp.name : BinaryOp → String
  | add => "Add"
  | sub => "Sub"
  | mul => "Mul"
  | sdiv => "SDiv"
  | udiv => "UDiv"
  | srem => "SRem"
  | urem => "URem"
  | fadd => "FAdd"
  | fsub => "FSub"
  | fmul => "FMul"
  | fdiv => "FDiv"
  | frem => "FRem"
  | and => "And"
  | or => "Or"
  | xor => "Xor"
  | shl => "Shl"
  | lshr => "LShr"
  | ashr => "AShr"

def BinaryOp.ofName? : String → Option BinaryOp :=
  named BinaryOp.name [.add, .sub, .mul, .sdiv, .udiv, .srem, .urem, .fadd, .fsub, .fmul, .fdiv,
    .frem, .and, .or, .xor, .shl, .lshr, .ashr]

def IntPredicate.name (p : IntPredicate) : String := p.text.capitalize

def IntPredicate.ofName? : String → Option IntPredicate :=
  named IntPredicate.name [.eq, .ne, .ugt, .uge, .ult, .ule, .sgt, .sge, .slt, .sle]

def FloatPredicate.name (p : FloatPredicate) : String := p.text.capitalize

def FloatPredicate.ofName? : String → Option FloatPredicate :=
  named FloatPredicate.name [.oeq, .ogt, .oge, .olt, .ole, .one, .ord, .ueq, .ugt, .uge, .ult, .ule,
    .une, .uno]

def CastOp.name : CastOp → String
  | trunc => "Trunc"
  | zext => "ZExt"
  | sext => "SExt"
  | fptrunc => "FPTrunc"
  | fpext => "FPExt"
  | fptosi => "FPToSI"
  | fptoui => "FPToUI"
  | sitofp => "SIToFP"
  | uitofp => "UIToFP"
  | ptrtoint => "PtrToInt"
  | inttoptr => "IntToPtr"
  | bitcast => "BitCast"

def CastOp.ofName? : String → Option CastOp :=
  named CastOp.name [.trunc, .zext, .sext, .fptrunc, .fpext, .fptosi, .fptoui, .sitofp, .uitofp,
    .ptrtoint, .inttoptr, .bitcast]

namespace Instruction

def defineJson (result : Temp) : Rhs → Json
  | .binary op lhs rhs ty => of "Binary"
      [("op", .str op.name), ("lhs", lhs.toJson), ("rhs", rhs.toJson), ("result_type", ty.toJson)]
  | .icmp p lhs rhs => of "ICmp"
      [("predicate", .str p.name), ("lhs", lhs.toJson), ("rhs", rhs.toJson)]
  | .fcmp p lhs rhs => of "FCmp"
      [("predicate", .str p.name), ("lhs", lhs.toJson), ("rhs", rhs.toJson)]
  | .cast op v target => of "Cast"
      [("op", .str op.name), ("value", v.toJson), ("target_type", target.toJson)]
  | .alloca ty count => of "Alloca"
      [("alloc_type", ty.toJson), ("count", ofOption Value.toJson count)]
  | .malloc ty count => of "Malloc"
      [("alloc_type", ty.toJson), ("count", ofOption Value.toJson count)]
  | .load ptr ty => of "Load" [("ptr", ptr.toJson), ("result_type", ty.toJson)]
  | .gep ptr indices ty => of "GetElementPtr"
      [("ptr", ptr.toJson), ("indices", .ofList Value.toJson indices), ("result_type", ty.toJson)]
  | .extractValue aggregate path ty => of "ExtractValue"
      [("aggregate", aggregate.toJson), ("indices", .ofList .ofNat path),
        ("result_type", ty.toJson)]
  | .insertValue aggregate element path => of "InsertValue"
      [("aggregate", aggregate.toJson), ("element", element.toJson),
        ("indices", .ofList .ofNat path)]
  | .extractElement vector index ty => of "ExtractElement"
      [("vector", vector.toJson), ("index", index.toJson), ("result_type", ty.toJson)]
  | .insertElement vector element index => of "InsertElement"
      [("vector", vector.toJson), ("element", element.toJson), ("index", index.toJson)]
  | .shuffle lhs rhs mask ty => of "ShuffleVector"
      [("lhs", lhs.toJson), ("rhs", rhs.toJson), ("mask", .ofList .ofNat mask),
        ("result_type", ty.toJson)]
  | .ptrDiff lhs rhs => of "PtrDiff" [("lhs", lhs.toJson), ("rhs", rhs.toJson)]
  | .select condition ifTrue ifFalse => of "Select"
      [("condition", condition.toJson), ("true_value", ifTrue.toJson),
        ("false_value", ifFalse.toJson)]
where
  of (tag : String) (members : List (String × Json)) : Json :=
    .obj [(tag, .obj (("result", .ofNat result) :: members))]

def toJson : Instruction → Json
  | define result rhs => defineJson result rhs
  | call result callee args ty =>
    .obj [("Call", .obj [("result", ofOption .ofNat result), ("callee", callee.toJson),
      ("args", .ofList Value.toJson args), ("result_type", ty.toJson)])]
  | free ptr => .obj [("Free", .obj [("ptr", ptr.toJson)])]
  | store v ptr => .obj [("Store", .obj [("value", v.toJson), ("ptr", ptr.toJson)])]
  | ret v => .obj [("Return", ofOption Value.toJson v)]
  | branch target => .obj [("Branch", .ofNat target)]
  | branchIf condition ifTrue ifFalse =>
    .obj [("BranchCond", .obj [("condition", condition.toJson), ("true_block", .ofNat ifTrue),
      ("false_block", .ofNat ifFalse)])]
  | unreachable => .str "Unreachable"
  | comment text => .obj [("Comment", .str text)]

def member? (p : Json) (key : String) (read : Json → Option α) : Option α := do
  read (← p.get? key).val

def optional? (p : Json) (key : String) (read : Json → Option α) : Option (Option α) :=
  match p.optional key with
  | none => some none
  | some ⟨j, _⟩ => (read j).map some

def list? (read : Json → Option α) (j : Json) : Option (List α) := do
  (← j.items?).mapM fun item => read item.val

def rhs? (tag : String) (p : Json) : Option Rhs := do
  let value key := member? p key Value.ofJson?
  let type key := member? p key Ty.ofJson?
  let path key := member? p key (list? Json.index?)
  match tag with
  | "Binary" =>
    let op ← BinaryOp.ofName? (← member? p "op" Json.plainTag?)
    return .binary op (← value "lhs") (← value "rhs") (← type "result_type")
  | "ICmp" =>
    let predicate ← IntPredicate.ofName? (← member? p "predicate" Json.plainTag?)
    return .icmp predicate (← value "lhs") (← value "rhs")
  | "FCmp" =>
    let predicate ← FloatPredicate.ofName? (← member? p "predicate" Json.plainTag?)
    return .fcmp predicate (← value "lhs") (← value "rhs")
  | "Cast" =>
    let op ← CastOp.ofName? (← member? p "op" Json.plainTag?)
    return .cast op (← value "value") (← type "target_type")
  | "Alloca" => return .alloca (← type "alloc_type") (← optional? p "count" Value.ofJson?)
  | "Malloc" => return .malloc (← type "alloc_type") (← optional? p "count" Value.ofJson?)
  | "Load" => return .load (← value "ptr") (← type "result_type")
  | "GetElementPtr" =>
    let indices ← member? p "indices" (list? Value.ofJson?)
    return .gep (← value "ptr") indices (← type "result_type")
  | "ExtractValue" =>
    return .extractValue (← value "aggregate") (← path "indices") (← type "result_type")
  | "InsertValue" =>
    return .insertValue (← value "aggregate") (← value "element") (← path "indices")
  | "ExtractElement" =>
    return .extractElement (← value "vector") (← value "index") (← type "result_type")
  | "InsertElement" =>
    return .insertElement (← value "vector") (← value "element") (← value "index")
  | "ShuffleVector" =>
    return .shuffle (← value "lhs") (← value "rhs") (← path "mask") (← type "result_type")
  | "PtrDiff" => return .ptrDiff (← value "lhs") (← value "rhs")
  | "Select" =>
    return .select (← value "condition") (← value "true_value") (← value "false_value")
  | _ => none

def ofJson? (j : Json) : Option Instruction := do
  match ← j.tagged? with
  | ("Call", some ⟨p, _⟩) =>
    return .call (← optional? p "result" Json.index?) (← member? p "callee" Value.ofJson?)
      (← member? p "args" (list? Value.ofJson?)) (← member? p "result_type" Ty.ofJson?)
  | ("Free", some ⟨p, _⟩) => return .free (← member? p "ptr" Value.ofJson?)
  | ("Store", some ⟨p, _⟩) =>
    return .store (← member? p "value" Value.ofJson?) (← member? p "ptr" Value.ofJson?)
  | ("Return", some ⟨.null, _⟩) => return .ret none
  | ("Return", some ⟨p, _⟩) => return .ret (some (← Value.ofJson? p))
  | ("Branch", some ⟨p, _⟩) => return .branch (← p.index?)
  | ("BranchCond", some ⟨p, _⟩) =>
    return .branchIf (← member? p "condition" Value.ofJson?)
      (← member? p "true_block" Json.index?) (← member? p "false_block" Json.index?)
  | ("Unreachable", none) => return .unreachable
  | ("Unreachable", some ⟨.null, _⟩) => return .unreachable
  | ("Comment", some ⟨p, _⟩) => return .comment (← p.str?)
  | (tag, some ⟨p, _⟩) => return .define (← member? p "result" Json.index?) (← rhs? tag p)
  | _ => none

end Instruction

end ScriptedIR
