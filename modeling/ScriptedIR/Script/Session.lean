import ScriptedIR.Script.Program

/-!
Sessions: trees of namespaces, libraries and programs. A node has the names on its way from the root
as its address, which libraries put in front of their symbols. Nodes are numbered as they are made,
so a node has a greater number than its parent.
-/

namespace ScriptedIR

inductive NodeKind where
  | space
  | library
  | program
deriving DecidableEq, Repr

def NodeKind.text : NodeKind → String
  | space => "namespace"
  | library => "library"
  | program => "program"

inductive Content where
  | space
  | library (lib : Library)
  | program (p : Program)

namespace Content

def kind : Content → NodeKind
  | space => .space
  | library _ => .library
  | program _ => .program

def make (kind : NodeKind) (name address : String) : Content :=
  match kind with
  | .space => space
  | .library => library { name, address }
  | .program => program (.create name address)

theorem kind_make (kind : NodeKind) (name address : String) :
    (make kind name address).kind = kind := by
  cases kind <;> rfl

def library? : Content → Option Library
  | space => none
  | library lib => some lib
  | program p => some p.library

def program? : Content → Option Program
  | program p => some p
  | _ => none

def withLibrary (lib : Library) : Content → Content
  | space => space
  | library _ => library lib
  | program p => program { p with library := lib }

end Content

structure Node where
  name : String
  address : String
  parent : Option Nat := none
  children : Names Nat := ∅
  last : Option Nat := none
  content : Content := .space

structure Session where
  nodes : List Node := [{ name := "rls", address := "rls" }]

namespace Session

def node? (s : Session) (id : Nat) : Option Node := s.nodes[id]?

def node (s : Session) (id : Nat) : Except ScriptError Node :=
  match s.nodes[id]? with
  | some node => .ok node
  | none => .error (.argument (.unknownNode id))

def modifyNode (s : Session) (id : Nat) (change : Node → Node) : Session :=
  { s with nodes := s.nodes.modify id change }

def childAddress (parent : Node) (name : String) : String :=
  addressOf (parent.address ++ "." ++ name)

def child (s : Session) (kind : NodeKind) (parent : Nat) (name : String) :
    Except ScriptError Nat × Session :=
  match s.node parent with
  | .error e => (.error e, s)
  | .ok parentNode =>
    match parentNode.children[name]? with
    | some id =>
      match s.node id with
      | .error e => (.error e, s)
      | .ok node =>
        let found := node.content.kind
        if found = kind then (.ok id, s)
        else (.error (.argument (.alreadyDefined name found.text)), s)
    | none =>
      let id := s.nodes.length
      let address := childAddress parentNode name
      let node : Node :=
        { name, address, parent := some parent, content := .make kind name address }
      let s := { s with nodes := s.nodes ++ [node] }
      -- the node is there before its parent is looked for again
      match s.node parent with
      | .error e => (.error e, s)
      | .ok _ => (.ok id, s.modifyNode parent fun p =>
          { p with children := p.children.insert name id, last := some id })

/--
Finds a name among the children of a node or of those above it. The empty name means the child that
was made last.
-/
def lookup (s : Session) (name : String) (id : Nat) : Option Nat :=
  match s.nodes[id]? with
  | none => none
  | some node =>
    match if name.isEmpty then node.last else node.children[name]? with
    | some found => some found
    | none =>
      match node.parent with
      | some parent => if parent < id then s.lookup name parent else none
      | none => none
termination_by id

def contains (s : Session) (id : Nat) (name : String) : Bool :=
  (s.node? id).any (·.children.contains name)

def importTarget (s : Session) (into : Nat) (name : String) :
    Except ScriptError (Library × Library) := do
  let source ← match s.lookup name into with
    | some source => .ok source
    | none => .error (.argument (.unknownLibrary name))
  match (← s.node source).content with
  | .library other =>
    if source = into then throw (.argument (.importsItself name))
    let target ← s.node into
    match target.content.library? with
    | some lib => return (other, lib)
    | none => throw (.argument (.importsIntoNamespace name target.name))
  | _ => throw (.argument (.notALibrary name))

def importInto (s : Session) (into : Nat) (name : String) : Except ScriptError Unit × Session :=
  match s.importTarget into name with
  | .error e => (.error e, s)
  | .ok (other, lib) =>
    let (result, lib) := Library.importFrom other lib
    (result, s.modifyNode into fun n => { n with content := n.content.withLibrary lib })

end Session

end ScriptedIR
