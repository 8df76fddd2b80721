import ScriptedIR.Run.Machine

/-!
Zeros. The zero constant of a type stands for what a fresh cell of the type holds, and the test for
zero accepts the constants that are equal to the zero of their type and no others, however deep
aggregates are nested. Equality is that of numbers: a float may be a zero of either sign.
-/

namespace ScriptedIR

namespace Ty

mutual

/--
Whether a type has a zero: no part of it is void, a function or a label. What a pointer leads to is
no part of its type.
-/
def hasZero : Ty → Bool
  | .int _ | .float _ | .pointer _ => true
  | .array _ t | .vector _ t => hasZero t
  | .struct _ fields _ => allHaveZero fields
  | .void | .function .. | .label => false

def allHaveZero : List Ty → Bool
  | [] => true
  | t :: ts => hasZero t && allHaveZero ts

end

theorem allHaveZero_replicate (n : Nat) {t : Ty} (h : t.hasZero) :
    allHaveZero (List.replicate n t) := by
  induction n with
  | zero => rfl
  | succ n ih => simp [List.replicate_succ, allHaveZero, h, ih]

end Ty

namespace Constant

mutual

def beq : Constant → Constant → Bool
  | .int s v, .int t w => s = t && v = w
  | .float s x, .float t y => s = t && x == y
  | .null s, .null t => s = t
  | .undef s, .undef t => s = t
  | .array s cs, .array t ds => s = t && beqAll cs ds
  | .vector s cs, .vector t ds => s = t && beqAll cs ds
  | .struct s cs, .struct t ds => s = t && beqAll cs ds
  | .globalAddr m s, .globalAddr n t => m = n && s = t
  | .functionAddr m s, .functionAddr n t => m = n && s = t
  | .bitCast c s, .bitCast d t => beq c d && s = t
  | _, _ => false

def beqAll : List Constant → List Constant → Bool
  | [], [] => true
  | c :: cs, d :: ds => beq c d && beqAll cs ds
  | _, _ => false

end

instance : BEq Constant := ⟨beq⟩

/--
Constants whose parts have the types that the types of the aggregates give them. Numbers and null
have a type of their kind.
-/
inductive Fitting : Constant → Prop
  | int {w : IntWidth} {v : Int64} : Fitting (.int (.int w) v)
  | float {p : Precision} {x : Float} : Fitting (.float (.float p) x)
  | null {t : Ty} : Fitting (.null (.pointer t))
  | undef {t : Ty} : Fitting (.undef t)
  | array {n : Nat} {t : Ty} {cs : List Constant} : (∀ c ∈ cs, Fitting c) →
      cs.map ty = List.replicate n t → Fitting (.array (.array n t) cs)
  | vector {n : Nat} {t : Ty} {cs : List Constant} : (∀ c ∈ cs, Fitting c) →
      cs.map ty = List.replicate n t → Fitting (.vector (.vector n t) cs)
  | struct {name : Option String} {fields : List Ty} {packed : Bool} {cs : List Constant} :
      (∀ c ∈ cs, Fitting c) → cs.map ty = fields →
      Fitting (.struct (.struct name fields packed) cs)
  | globalAddr {name : String} {t : Ty} : Fitting (.globalAddr name t)
  | functionAddr {name : String} {t : Ty} : Fitting (.functionAddr name t)
  | bitCast {c : Constant} {t : Ty} : Fitting c → Fitting (.bitCast c t)

theorem zero_int (w : IntWidth) : zero (.int w) = .int (.int w) 0 := by
  cases w <;> rfl

theorem zero_float (p : Precision) : zero (.float p) = .float (.float p) 0.0 := by
  cases p <;> rfl

theorem zeros_replicate (n : Nat) (t : Ty) :
    zeros (List.replicate n t) = List.replicate n (zero t) := by
  induction n with
  | zero => rfl
  | succ n ih => rw [List.replicate_succ, zeros, ih, List.replicate_succ]

theorem beq_zero_of_leaf {t : Ty} (h : t.hasZero) (c : Constant) (name : String) (s : Ty) :
    beq (.undef s) (zero t) = false ∧ beq (.globalAddr name s) (zero t) = false ∧
      beq (.functionAddr name s) (zero t) = false ∧ beq (.bitCast c s) (zero t) = false := by
  cases t with
  | void | function | label => cases h
  | _ => exact ⟨rfl, rfl, rfl, rfl⟩

mutual

theorem isZero_eq_beq_zero : (c : Constant) → c.Fitting → c.ty.hasZero →
    c.isZero = beq c (zero c.ty)
  | .int _ v, h, _ => by
    cases h
    rw [ty, zero_int]
    simp [isZero, beq]
  | .float _ x, h, _ => by
    cases h
    rw [ty, zero_float]
    simp [isZero, beq]
  | .null _, h, _ => by
    cases h
    simp [isZero, ty, zero, beq]
  | .array _ cs, h, hzero => by
    cases h with
    | array hparts htys =>
      rw [ty, zero, ← zeros_replicate, isZero]
      simp only [beq, decide_true, Bool.true_and]
      exact allZero_eq_beqAll_zeros cs hparts htys (Ty.allHaveZero_replicate _ hzero)
  | .vector _ cs, h, hzero => by
    cases h with
    | vector hparts htys =>
      rw [ty, zero, ← zeros_replicate, isZero]
      simp only [beq, decide_true, Bool.true_and]
      exact allZero_eq_beqAll_zeros cs hparts htys (Ty.allHaveZero_replicate _ hzero)
  | .struct _ cs, h, hzero => by
    cases h with
    | struct hparts htys =>
      rw [ty, zero, isZero]
      simp only [beq, decide_true, Bool.true_and]
      exact allZero_eq_beqAll_zeros cs hparts htys hzero
  -- none of the others is a zero, whatever its type
  | .undef _, _, hzero => ((beq_zero_of_leaf hzero (.undef .void) "" _).1).symm
  | .globalAddr name _, _, hzero => ((beq_zero_of_leaf hzero (.undef .void) name _).2.1).symm
  | .functionAddr name _, _, hzero => ((beq_zero_of_leaf hzero (.undef .void) name _).2.2.1).symm
  | .bitCast c _, _, hzero => ((beq_zero_of_leaf hzero c "" _).2.2.2).symm

theorem allZero_eq_beqAll_zeros : (cs : List Constant) → {ts : List Ty} →
    (∀ c ∈ cs, c.Fitting) → cs.map ty = ts → Ty.allHaveZero ts →
    allZero cs = beqAll cs (zeros ts)
  | [], _, _, htys, _ => by
    subst htys
    rfl
  | c :: cs, _, hparts, htys, hzero => by
    subst htys
    rw [List.forall_mem_cons] at hparts
    rw [List.map_cons, Ty.allHaveZero, Bool.and_eq_true] at hzero
    rw [List.map_cons, zeros, allZero, beqAll, isZero_eq_beq_zero c hparts.1 hzero.1,
      allZero_eq_beqAll_zeros cs hparts.2 rfl hzero.2]

end

end Constant

namespace Env

variable (env : Env)

theorem constants_replicate (n : Nat) {c : Constant} {d : Datum} (h : env.constant c = .ok d) :
    env.constants (List.replicate n c) = .ok (List.replicate n d) := by
  induction n with
  | zero => rfl
  | succ n ih =>
    rw [List.replicate_succ, constants, h, ih]
    rfl

mutual

theorem constant_zero : (t : Ty) → env.constant (.zero t) = .ok (.zero t)
  | .int w => by
    rw [Constant.zero_int]
    rfl
  | .float p => by
    rw [Constant.zero_float]
    rfl
  | .pointer _ | .void | .function .. | .label => rfl
  | .array n t => by
    rw [Constant.zero, constant, env.constants_replicate n (constant_zero t)]
    rfl
  | .vector n t => by
    rw [Constant.zero, constant, env.constants_replicate n (constant_zero t)]
    rfl
  | .struct _ fields _ => by
    rw [Constant.zero, constant, constants_zeros fields]
    rfl

theorem constants_zeros : (ts : List Ty) → env.constants (Constant.zeros ts) = .ok (Datum.zeros ts)
  | [] => rfl
  | t :: ts => by
    rw [Constant.zeros, constants, constant_zero t, constants_zeros ts]
    rfl

end

end Env

namespace Constant

/--
The zero constant of any type stands for what a fresh cell of the type holds. A constant whose type
has a zero passes the test for zero exactly if it is equal to that zero.
-/
theorem zeros_agree (env : Env) :
    (∀ t, env.constant (zero t) = .ok (Datum.zero t)) ∧
    ∀ c : Constant, c.Fitting → c.ty.hasZero → (c.isZero ↔ c == zero c.ty) := by
  refine ⟨env.constant_zero, ?_⟩
  intro c hfitting hzero
  rw [isZero_eq_beq_zero c hfitting hzero]
  rfl

def lanesAnd (pointer : Constant) : Constant :=
  .struct (.struct none [.vector 2 .f32, .array 0 .i8, .bytePointer] false)
    [.vector (.vector 2 .f32) [.float .f32 (-0.0), .float .f32 0.0], .array (.array 0 .i8) [],
      pointer]

theorem lanes_zeros_agree :
    (lanesAnd (.null .bytePointer)).isZero ∧
      (lanesAnd (.null .bytePointer) == zero (lanesAnd (.null .bytePointer)).ty) ∧
      ¬ (lanesAnd (.bitCast (.null (.pointer .i16)) .bytePointer) ==
        zero (lanesAnd (.null .bytePointer)).ty) := by
  have hfitting {pointer : Constant} (hpointer : pointer.Fitting) (hty : pointer.ty = .bytePointer) :
      (lanesAnd pointer).Fitting := by
    have hlanes : Fitting (.vector (.vector 2 .f32) [.float .f32 (-0.0), .float .f32 0.0]) := by
      refine .vector ?_ rfl
      simp only [List.forall_mem_cons, List.not_mem_nil, false_implies, implies_true, and_true]
      exact ⟨.float, .float⟩
    have hempty : Fitting (.array (.array 0 .i8) []) := .array (by simp) rfl
    refine .struct ?_ ?_
    . simp only [List.forall_mem_cons, List.not_mem_nil, false_implies, implies_true, and_true]
      exact ⟨hlanes, hempty, hpointer⟩
    . rw [List.map_cons, List.map_cons, List.map_cons, hty]
      rfl
  have hagree := (zeros_agree { module := { name := "m" } }).2
  have hnull : (lanesAnd (.null .bytePointer)).isZero := by decide
  refine ⟨hnull, (hagree _ (hfitting .null rfl) rfl).1 hnull, ?_⟩
  intro hsame
  have hcast := (hagree _ (hfitting (.bitCast .null) rfl) rfl).2 hsame
  cases hcast

end Constant

end ScriptedIR
