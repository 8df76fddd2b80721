import ScriptedIR.Single

/-!
Types of the code: integers of five widths, floats of two precisions, pointers, arrays, vectors,
structs and functions, with their text and the coarse categories (`Kind`) that hints speak of.
-/

namespace ScriptedIR

inductive IntWidth where
  | w1
  | w8
  | w16
  | w32
  | w64
deriving DecidableEq, Repr

inductive Precision where
  | single
  | double
deriving DecidableEq, Repr

inductive Ty where
  | void
  | int (width : IntWidth)
  | float (precision : Precision)
  | pointer (pointee : Ty)
  | array (size : Nat) (element : Ty)
  | vector (size : Nat) (element : Ty)
  | struct (name : Option String) (fields : List Ty) (packed : Bool)
  | function (result : Ty) (params : List Ty) (variadic : Bool)
  | label
deriving Repr, Inhabited

/--
A category of types. `numeric` covers `integer` and `decimal` and is the kind of no type.
-/
inductive Kind where
  | void
  | integer
  | decimal
  | numeric
  | pointer
  | array
  | vector
  | struct
  | function
  | label
deriving DecidableEq, Repr

namespace IntWidth

def bits : IntWidth → Nat
  | w1 => 1
  | w8 => 8
  | w16 => 16
  | w32 => 32
  | w64 => 64

def ofBits? : Nat → Option IntWidth
  | 1 => some w1
  | 8 => some w8
  | 16 => some w16
  | 32 => some w32
  | 64 => some w64
  | _ => none

@[simp]
theorem ofBits?_bits (w : IntWidth) : ofBits? w.bits = some w := by
  cases w <;> rfl

end IntWidth

namespace Precision

def bits : Precision → Nat
  | single => 32
  | double => 64

def round : Precision → Float → Float
  | single, x => Single.toDouble (Single.ofDouble x)
  | double, x => x

end Precision

namespace Kind

def accepts (hint actual : Kind) : Bool :=
  match hint with
  | .numeric => actual = .integer || actual = .decimal
  | _ => hint = actual

def text : Kind → String
  | void => "void"
  | integer => "integer"
  | decimal => "decimal"
  | numeric => "numeric"
  | pointer => "pointer"
  | array => "array"
  | vector => "vector"
  | struct => "struct"
  | function => "function"
  | label => "label"

end Kind

namespace Ty

abbrev i1 : Ty := .int .w1
abbrev i8 : Ty := .int .w8
abbrev i16 : Ty := .int .w16
abbrev i32 : Ty := .int .w32
abbrev i64 : Ty := .int .w64
abbrev f32 : Ty := .float .single
abbrev f64 : Ty := .float .double

abbrev bytePointer : Ty := .pointer i8

mutual

def beq : Ty → Ty → Bool
  | .void, .void => true
  | .int v, .int w => v = w
  | .float p, .float q => p = q
  | .pointer s, .pointer t => beq s t
  | .array m s, .array n t => m = n && beq s t
  | .vector m s, .vector n t => m = n && beq s t
  | .struct m fs p, .struct n gs q => m = n && beqAll fs gs && p = q
  | .function r ps v, .function s qs w => beq r s && beqAll ps qs && v = w
  | .label, .label => true
  | _, _ => false

def beqAll : List Ty → List Ty → Bool
  | [], [] => true
  | s :: ss, t :: ts => beq s t && beqAll ss ts
  | _, _ => false

end

mutual

theorem eq_of_beq : ∀ s t : Ty, beq s t = true → s = t
  | .void, t, h => by cases t <;> simp_all [beq]
  | .int _, t, h => by cases t <;> simp_all [beq]
  | .float _, t, h => by cases t <;> simp_all [beq]
  | .pointer s, t, h => by
    cases t <;> simp only [beq, Bool.false_eq_true] at h
    rw [eq_of_beq s _ h]
  | .array _ s, t, h => by
    cases t <;> simp only [beq, Bool.false_eq_true, Bool.and_eq_true, decide_eq_true_eq] at h
    rw [h.1, eq_of_beq s _ h.2]
  | .vector _ s, t, h => by
    cases t <;> simp only [beq, Bool.false_eq_true, Bool.and_eq_true, decide_eq_true_eq] at h
    rw [h.1, eq_of_beq s _ h.2]
  | .struct _ fs _, t, h => by
    cases t <;> simp only [beq, Bool.false_eq_true, Bool.and_eq_true, decide_eq_true_eq] at h
    rw [h.1.1, h.2, eq_of_beqAll fs _ h.1.2]
  | .function r ps _, t, h => by
    cases t <;> simp only [beq, Bool.false_eq_true, Bool.and_eq_true, decide_eq_true_eq] at h
    rw [h.2, eq_of_beq r _ h.1.1, eq_of_beqAll ps _ h.1.2]
  | .label, t, h => by cases t <;> simp_all [beq]

theorem eq_of_beqAll : ∀ ss ts : List Ty, beqAll ss ts = true → ss = ts
  | [], ts, h => by cases ts <;> simp_all [beqAll]
  | s :: ss, ts, h => by
    cases ts <;> simp only [beqAll, Bool.false_eq_true, Bool.and_eq_true] at h
    rw [eq_of_beq s _ h.1, eq_of_beqAll ss _ h.2]

end

mutual

theorem beq_self : ∀ t : Ty, beq t t = true
  | .void | .int _ | .float _ | .label => by simp [beq]
  | .pointer t | .array _ t | .vector _ t => by simp [beq, beq_self t]
  | .struct _ fs _ => by simp [beq, beqAll_self fs]
  | .function r ps _ => by simp [beq, beq_self r, beqAll_self ps]

theorem beqAll_self : ∀ ts : List Ty, beqAll ts ts = true
  | [] => by simp [beqAll]
  | t :: ts => by simp [beqAll, beq_self t, beqAll_self ts]

end

instance : DecidableEq Ty := fun s t =>
  if h : beq s t = true then .isTrue (eq_of_beq s t h)
  else .isFalse fun e => h (e ▸ beq_self s)

def ofBits? (width : Nat) : Option Ty :=
  (IntWidth.ofBits? width).map .int

def kind : Ty → Kind
  | void => .void
  | int _ => .integer
  | float _ => .decimal
  | pointer _ => .pointer
  | array .. => .array
  | vector .. => .vector
  | struct .. => .struct
  | function .. => .function
  | label => .label

def isInteger (t : Ty) : Bool := t.kind = .integer

def isDecimal (t : Ty) : Bool := t.kind = .decimal

def isNumeric (t : Ty) : Bool := t.isInteger || t.isDecimal

def isPointer (t : Ty) : Bool := t.kind = .pointer

def isVoid (t : Ty) : Bool := t.kind = .void

def bitWidth? : Ty → Option Nat
  | int w => some w.bits
  | float p => some p.bits
  | _ => none

def wordWidth (t : Ty) : Nat := t.bitWidth?.getD 64

def round : Ty → Float → Float
  | float p, x => p.round x
  | _, x => x

def element? : Ty → Option Ty
  | pointer t => some t
  | array _ t => some t
  | vector _ t => some t
  | _ => none

def pointee? : Ty → Option Ty
  | pointer t => some t
  | _ => none

/--
The type that a constant index steps into. Arrays and vectors have one element type at every index,
in range or not.
-/
def field? : Ty → Nat → Option Ty
  | struct _ fields _, i => fields[i]?
  | array _ t, _ => some t
  | vector _ t, _ => some t
  | _, _ => none

def length? : Ty → Option Nat
  | array n _ => some n
  | vector n _ => some n
  | struct _ fields _ => some fields.length
  | _ => none

structure Signature where
  result : Ty
  params : List Ty
  variadic : Bool := false
deriving DecidableEq, Repr

def Signature.ty (s : Signature) : Ty := function s.result s.params s.variadic

def callable? : Ty → Option Signature
  | function r ps v => some ⟨r, ps, v⟩
  | pointer (function r ps v) => some ⟨r, ps, v⟩
  | _ => none

def scalarKind : Ty → Kind
  | vector _ t => t.kind
  | t => t.kind

def signatureText (params : List String) (variadic : Bool) : String :=
  "(" ++ ", ".intercalate (if variadic then params ++ ["..."] else params) ++ ")"

mutual

def text : Ty → String
  | .void => "void"
  | .int w => "i" ++ toString w.bits
  | .float .single => "float"
  | .float .double => "double"
  | .pointer t => text t ++ "*"
  | .array n t => "[" ++ toString n ++ " x " ++ text t ++ "]"
  | .vector n t => "<" ++ toString n ++ " x " ++ text t ++ ">"
  | .struct (some name) _ _ => "%" ++ name
  | .struct none fields packed =>
    let body := "\x7b " ++ ", ".intercalate (texts fields) ++ " \x7d"
    if packed then "<" ++ body ++ ">" else body
  | .function r ps v => text r ++ " " ++ signatureText (texts ps) v
  | .label => "label"

def texts : List Ty → List String
  | [] => []
  | t :: ts => text t :: texts ts

end

theorem texts_eq_map (ts : List Ty) : texts ts = ts.map text := by
  induction ts with
  | nil => rfl
  | cons t ts ih => simp [texts, ih]

end Ty

end ScriptedIR
