import ScriptedIR.Constant

/-!
Layouts of structs, whose fields may have names. A field that is laid out itself holds the layout,
so the name of a field anywhere inside leads to a path of field numbers.
-/

namespace ScriptedIR

mutual

inductive Layout where
  | mk (name : Option String) (fields : List Field) (packed : Bool)

inductive Field where
  | plain (name : Option String) (ty : Ty)
  | nested (name : Option String) (layout : Layout)

end

deriving instance Repr for Layout, Field

namespace Layout

def name : Layout → Option String
  | mk name _ _ => name

def fields : Layout → List Field
  | mk _ fields _ => fields

end Layout

def Field.name : Field → Option String
  | plain name _ => name
  | nested name _ => name

mutual

def Layout.ty : Layout → Ty
  | .mk name fields packed => .struct name (Field.types fields) packed

def Field.ty : Field → Ty
  | .plain _ ty => ty
  | .nested _ layout => layout.ty

def Field.types : List Field → List Ty
  | [] => []
  | f :: fs => f.ty :: Field.types fs

end

mutual

def Layout.nested : Layout → List Layout
  | .mk _ fields _ => Field.nestedAll fields

def Field.nestedIn : Field → List Layout
  | .plain _ _ => []
  | .nested _ layout => (if layout.name.isSome then [layout] else []) ++ layout.nested

def Field.nestedAll : List Field → List Layout
  | [] => []
  | f :: fs => f.nestedIn ++ Field.nestedAll fs

end

def Layout.hasNames (l : Layout) : Bool := l.fields.any (·.name.isSome)

structure Place where
  path : List Nat
  ty : Ty
deriving Repr

def Place.within (i : Nat) (p : Place) : Place := { p with path := i :: p.path }

def Field.direct? (element : String) : Nat → List Field → Option Place
  | _, [] => none
  | i, f :: fs => if f.name = some element then some ⟨[i], f.ty⟩ else direct? element (i + 1) fs

mutual

/--
The place of a named field: of its own fields first, else of the first nested layout that has one. A
layout without any names is not searched.
-/
def Layout.find? (element : String) : Layout → Option Place
  | .mk name fields packed =>
    if (Layout.mk name fields packed).hasNames then
      (Field.direct? element 0 fields).or (Field.search element 0 fields)
    else none

def Field.findIn (element : String) : Field → Option Place
  | .plain _ _ => none
  | .nested _ layout => layout.find? element

def Field.search (element : String) : Nat → List Field → Option Place
  | _, [] => none
  | i, f :: fs => (f.findIn element |>.map (.within i)).or (Field.search element (i + 1) fs)

end

inductive LayoutError where
  | withoutNames (query : String)
  | unknownElement (element : String)
deriving DecidableEq, Repr

def LayoutError.message : LayoutError → String
  | withoutNames query => "Cannot call " ++ query ++ " on a struct without element names"
  | unknownElement element => "Unknown element, " ++ element ++ "."

namespace Layout

def place (l : Layout) (query element : String) : Except LayoutError Place :=
  if l.hasNames then
    match l.find? element with
    | some place => .ok place
    | none => .error (.unknownElement element)
  else .error (.withoutNames query)

def index (l : Layout) (element : String) : Except LayoutError (List Nat) :=
  (l.place "index" element).map Place.path

def fieldType (l : Layout) (element : String) : Except LayoutError Ty :=
  (l.place "field_type" element).map Place.ty

def contains (l : Layout) (element : String) : Except LayoutError Bool :=
  if l.hasNames then .ok (l.find? element).isSome else .error (.withoutNames "contains")

end Layout

end ScriptedIR
