import ScriptedIR.Decimal.Text
import ScriptedIR.Text.Quoted

/-!
JSON values, with the members of objects in order. Readers take a value apart with `get?`, `items?`
and `tagged?`; what these return carries the proof that it is smaller, so that readers of nested
data terminate.
-/

namespace ScriptedIR

inductive Json where
  | null
  | bool (b : Bool)
  | int (n : Int)
  | real (x : Float)
  | str (s : String)
  | arr (items : List Json)
  | obj (members : List (String × Json))
deriving Repr, Inhabited

namespace Json

abbrev Within (whole : Json) := { part : Json // sizeOf part < sizeOf whole }

def lookup (members : List (String × Json)) (key : String) :
    Option { part : Json // sizeOf part < sizeOf members } :=
  match members with
  | [] => none
  | (name, value) :: rest =>
    if name = key then some ⟨value, by simp; omega⟩
    else (lookup rest key).map fun part => ⟨part.val, by have := part.property; simp; omega⟩

def get? (j : Json) (key : String) : Option (Within j) :=
  match j with
  | obj members =>
    (lookup members key).map fun part => ⟨part.val, by have := part.property; simp; omega⟩
  | _ => none

def optional (j : Json) (key : String) : Option (Within j) :=
  match j.get? key with
  | some ⟨null, _⟩ => none
  | other => other

def items? (j : Json) : Option (List (Within j)) :=
  match j with
  | arr items => some (items.attach.map fun item =>
      ⟨item.val, by have := List.sizeOf_lt_of_mem item.property; simp; omega⟩)
  | _ => none

/--
A named alternative with what it carries: `"Name"` alone, or an object with the one member `Name`.
-/
def tagged? (j : Json) : Option (String × Option (Within j)) :=
  match j with
  | str tag => some (tag, none)
  | obj [(tag, value)] => some (tag, some ⟨value, by simp; omega⟩)
  | _ => none

def plainTag? : Json → Option String
  | str tag => some tag
  | obj [(tag, null)] => some tag
  | _ => none

/--
A record with its members under their names. An array stands for a record with all of its members,
in the order of the names.
-/
def record? (names : List String) : Json → Option Json
  | obj members => some (obj members)
  | arr items => if items.length = names.length then some (obj (names.zip items)) else none
  | _ => none

def str? : Json → Option String
  | str s => some s
  | _ => none

def bool? : Json → Option Bool
  | bool b => some b
  | _ => none

def natBelow? (bound : Nat) : Json → Option Nat
  | int n => if 0 ≤ n ∧ n < bound then some n.toNat else none
  | _ => none

def index? (j : Json) : Option Nat := j.natBelow? UInt32.size

def size? (j : Json) : Option Nat := j.natBelow? UInt64.size

def int64? : Json → Option Int64
  | int n =>
    if Int64.minValue.toInt ≤ n ∧ n ≤ Int64.maxValue.toInt then some (Int64.ofInt n) else none
  | _ => none

def float? : Json → Option Float
  | real x => some x
  | int n => some (Float.ofInt n)
  | _ => none

def ofNat (n : Nat) : Json := .int n

def ofOption (f : α → Json) : Option α → Json
  | some a => f a
  | none => .null

def ofList (f : α → Json) (as : List α) : Json := .arr (as.map f)

def escaped (c : Char) : String :=
  if c = '"' then "\\\""
  else if c = '\\' then "\\\\"
  else if c = '\n' then "\\n"
  else if c = '\r' then "\\r"
  else if c = '\t' then "\\t"
  else if c.toNat = 8 then "\\b"
  else if c.toNat = 12 then "\\f"
  else if c.toNat < 16 then "\\u000" ++ Text.hex c.toNat
  else if c.toNat < 32 then "\\u00" ++ Text.hex c.toNat
  else c.toString

def quoted (s : String) : String :=
  "\"" ++ String.join (s.toList.map escaped) ++ "\""

def floatStyle : Decimal.Style where
  positional e := -5 ≤ e && e < 16
  pointed := true

def floatText (x : Float) : String :=
  if x.isFinite then floatStyle.text x else "null"

def indent (depth : Nat) : String :=
  String.ofList (List.replicate (2 * depth) ' ')

mutual

def pretty (depth : Nat) : Json → String
  | .null => "null"
  | .bool b => if b then "true" else "false"
  | .int n => toString n
  | .real x => floatText x
  | .str s => quoted s
  | .arr [] => "[]"
  | .arr (j :: js) =>
    "[\n" ++ ",\n".intercalate (prettyItems (depth + 1) (j :: js)) ++ "\n" ++ indent depth ++ "]"
  | .obj [] => "\x7b\x7d"
  | .obj (m :: ms) =>
    "\x7b\n" ++ ",\n".intercalate (prettyMembers (depth + 1) (m :: ms)) ++ "\n" ++ indent depth
      ++ "\x7d"

def prettyItems (depth : Nat) : List Json → List String
  | [] => []
  | j :: js => (indent depth ++ pretty depth j) :: prettyItems depth js

def prettyMembers (depth : Nat) : List (String × Json) → List String
  | [] => []
  | (name, j) :: ms =>
    (indent depth ++ quoted name ++ ": " ++ pretty depth j) :: prettyMembers depth ms

end

end Json

end ScriptedIR
