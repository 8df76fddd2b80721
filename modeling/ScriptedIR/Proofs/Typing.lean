import Mathlib.Data.List.Forall2
import ScriptedIR.Builder
import ScriptedIR.Proofs.Bits
import ScriptedIR.Run.Machine

/-!
Types of data. A datum has a type if its form is the one of the type and its words are normalized to
the width of theirs. Operations on data of the types that requests are checked for give data of the
type that the result is said to have.
-/

namespace ScriptedIR

/--
The data of a type. Pointers, functions and labels are left out, and nothing undefined has a type.
-/
inductive Datum.HasType : Datum → Ty → Prop
  | int {v : Int64} {w : IntWidth} : Word.normalize w.bits v = v → HasType (.int v) (.int w)
  | float {x : Float} {p : Precision} : HasType (.float x) (.float p)
  | array {ds : List Datum} {n : Nat} {t : Ty} :
      ds.length = n → (∀ d ∈ ds, HasType d t) → HasType (.aggregate ds) (.array n t)
  | vector {ds : List Datum} {n : Nat} {t : Ty} :
      ds.length = n → (∀ d ∈ ds, HasType d t) → HasType (.aggregate ds) (.vector n t)
  | struct {ds : List Datum} {name : Option String} {fields : List Ty} {packed : Bool} :
      List.Forall₂ HasType ds fields → HasType (.aggregate ds) (.struct name fields packed)
  | void : HasType .void .void

/--
The errors of a function that are no fault of its types: only its own temporaries can be missing, and
only lanes can be out of range.
-/
def RunError.isExcused (function : String) : RunError → Bool
  | typeError (.undefinedTemp _ name) => name = function
  | typeError (.laneRange _) => true
  | typeError _ => false
  | _ => true

def Safely (function : String) (x : Except RunError α) (P : α → Prop) : Prop :=
  match x with
  | .ok a => P a
  | .error e => e.isExcused function

namespace Safely

variable {function : String} {P : α → Prop} {Q : β → Prop}

theorem bind {x : Except RunError α} {f : α → Except RunError β} (hx : Safely function x P)
    (hf : ∀ a, P a → Safely function (f a) Q) : Safely function (x >>= f) Q := by
  cases x with
  | error e => exact hx
  | ok a => exact hf a hx

theorem mapM {f : α → Except RunError β} {as : List α} (h : ∀ a ∈ as, Safely function (f a) Q) :
    Safely function (as.mapM f) fun bs => bs.length = as.length ∧ ∀ b ∈ bs, Q b := by
  induction as with
  | nil =>
    rw [List.mapM_nil]
    exact ⟨rfl, by simp⟩
  | cons a as ih =>
    rw [List.forall_mem_cons] at h
    rw [List.mapM_cons]
    refine h.1.bind fun b hb => (ih h.2).bind fun bs hbs => ?_
    refine ⟨by simp [hbs.1], ?_⟩
    rw [List.forall_mem_cons]
    exact ⟨hb, hbs.2⟩

end Safely

section Numbers

open Datum (HasType)

theorem hasType_normalize (w : IntWidth) (v : Int64) :
    HasType (.int (Word.normalize w.bits v)) (.int w) :=
  .int (Word.normalize_normalize w.bits v)

theorem hasType_ofBool (b : Bool) : (Datum.ofBool b).HasType .i1 := by
  apply HasType.int
  cases b <;> decide

theorem intBinary_safely {function : String} {op : BinaryOp} (hop : op.isFloat = false) (w : IntWidth)
    (a b : Int64) :
    Safely function (intBinary function op w.bits a b) fun v => Word.normalize w.bits v = v := by
  have hnormal (v : Int64) : Safely function (.ok (Word.normalize w.bits v)) fun v =>
      Word.normalize w.bits v = v := Word.normalize_normalize w.bits v
  cases op with
  | fadd | fsub | fmul | fdiv | frem => cases hop
  | sdiv | srem | udiv | urem =>
    unfold intBinary
    dsimp only
    split
    . exact rfl
    . exact hnormal _
  | _ => exact hnormal _

theorem floatBinary_safely {function : String} {op : BinaryOp} (hop : op.isFloat = true) (x y : Float) :
    Safely function (floatBinary op x y) fun _ => True := by
  cases op with
  | fadd | fsub | fmul | fdiv | frem => trivial
  | _ => cases hop

def BinaryOp.kind (op : BinaryOp) : Kind := if op.isFloat then .decimal else .integer

theorem binary_safely_scalar {function : String} {op : BinaryOp} {ty : Ty} {a b : Datum}
    (hkind : ty.kind = op.kind) (ha : a.HasType ty) (hb : b.HasType ty) :
    Safely function (binary function op ty a b) (·.HasType ty) := by
  unfold BinaryOp.kind at hkind
  cases hop : op.isFloat with
  | true =>
    rw [hop] at hkind
    cases ty with
    | float p =>
      cases ha
      cases hb
      rw [binary.eq_def]
      dsimp only
      rw [if_pos hop]
      exact (floatBinary_safely hop _ _).bind fun _ _ => .float
    | _ => cases hkind
  | false =>
    rw [hop] at hkind
    cases ty with
    | int w =>
      cases ha
      cases hb
      rw [binary.eq_def]
      dsimp only
      rw [if_neg (by simp [hop])]
      exact (intBinary_safely hop w _ _).bind fun _ hv => .int hv
    | _ => cases hkind

theorem binary_safely {function : String} {op : BinaryOp} {ty : Ty} {a b : Datum}
    (hkind : ty.scalarKind = op.kind) (ha : a.HasType ty) (hb : b.HasType ty) :
    Safely function (binary function op ty a b) (·.HasType ty) := by
  cases ty with
  | vector n t =>
    cases ha with
    | vector hlength hlanes =>
      next as =>
      cases hb with
      | vector hlength' hlanes' =>
        next bs =>
        rw [binary]
        have hlane : ∀ p ∈ List.zip as bs,
            Safely function (binary function op t p.1 p.2) (·.HasType t) := by
          intro p hp
          have hmem := List.of_mem_zip hp
          exact binary_safely_scalar hkind (hlanes _ hmem.1) (hlanes' _ hmem.2)
        refine (Safely.mapM hlane).bind fun lanes h => .vector ?_ h.2
        rw [h.1, List.length_zip, hlength, hlength', Nat.min_self]
  | _ => exact binary_safely_scalar hkind ha hb

theorem compareData_safely {function : String} {predicate : IntPredicate} {w : IntWidth} {a b : Datum}
    (ha : a.HasType (.int w)) (hb : b.HasType (.int w)) :
    Safely function (compareData predicate (.int w) a b) fun _ => True := by
  cases ha
  cases hb
  trivial

theorem Ty.eq_int_of_kind {t : Ty} (h : t.kind = .integer) : ∃ w, t = .int w := by
  cases t with
  | int w => exact ⟨w, rfl⟩
  | _ => cases h

theorem Ty.isNumeric_cases {t : Ty} (h : t.isNumeric = true) :
    (∃ w, t = .int w) ∨ ∃ p, t = .float p := by
  cases t with
  | int w => exact .inl ⟨w, rfl⟩
  | float p => exact .inr ⟨p, rfl⟩
  | _ => cases h

theorem Request.castAllowed_bitcast {source target : Ty} (hpointer : source.isPointer = false)
    (h : castAllowed .bitcast source target = true) :
    source = target ∨ source = .i32 ∧ target = .f32 ∨ source = .f32 ∧ target = .i32 ∨
      source = .i64 ∧ target = .f64 ∨ source = .f64 ∧ target = .i64 := by
  by_cases heq : source = target
  . exact .inl heq
  . have hwidth : source.bitWidth?.getD 0 ≠ 0 ∧
        source.bitWidth?.getD 0 = target.bitWidth?.getD 0 := by
      simpa [castAllowed, hpointer, heq] using h
    obtain ⟨hne, hsame⟩ := hwidth
    rw [hsame] at hne
    cases source with
    | int w =>
      cases target with
      | int w' => cases w <;> cases w' <;> simp_all [Ty.bitWidth?, IntWidth.bits]
      | float p => cases w <;> cases p <;> simp_all [Ty.bitWidth?, IntWidth.bits, Precision.bits]
      | _ => simp [Ty.bitWidth?] at hne
    | float p =>
      cases target with
      | int w => cases w <;> cases p <;> simp_all [Ty.bitWidth?, IntWidth.bits, Precision.bits]
      | float p' => cases p <;> cases p' <;> simp_all [Ty.bitWidth?, Precision.bits]
      | _ => simp [Ty.bitWidth?] at hne
    | _ =>
      rw [← hsame] at hne
      simp [Ty.bitWidth?] at hne

theorem Datum.HasType.isPointer {d : Datum} {t : Ty} (h : d.HasType t) : t.isPointer = false := by
  cases h <;> rfl

theorem bitCast_safely {function : String} {source target : Ty} {d : Datum}
    (hallowed : Request.castAllowed .bitcast source target = true) (hd : d.HasType source) :
    Safely function (bitCast d source target) (·.HasType target) := by
  rcases Request.castAllowed_bitcast hd.isPointer hallowed with
    rfl | ⟨rfl, rfl⟩ | ⟨rfl, rfl⟩ | ⟨rfl, rfl⟩ | ⟨rfl, rfl⟩
  . unfold bitCast
    rw [if_pos rfl]
    exact hd
  . cases hd
    exact .float
  . cases hd
    exact .int (Word.normalize_toInt64 _)
  . cases hd
    exact .float
  . cases hd
    exact .int rfl

theorem castDatum_safely {function : String} {op : CastOp} {source target : Ty} {d : Datum}
    (hsource : source.isNumeric = true) (htarget : target.isNumeric = true)
    (hallowed : Request.castAllowed op source target = true) (hd : d.HasType source) :
    Safely function (castDatum op d source target) (·.HasType target) := by
  cases op with
  | bitcast => exact bitCast_safely hallowed hd
  | ptrtoint =>
    rw [Request.castAllowed, hd.isPointer] at hallowed
    cases hallowed
  | _ =>
    rcases Ty.isNumeric_cases hsource with ⟨w, rfl⟩ | ⟨p, rfl⟩
    all_goals
      cases hd
      rcases Ty.isNumeric_cases htarget with ⟨w', rfl⟩ | ⟨p', rfl⟩
      all_goals
        first
        | exact hasType_normalize _ _
        | exact .float
        | simp [Request.castAllowed, Ty.isInteger, Ty.isDecimal, Ty.isPointer, Ty.kind] at hallowed

end Numbers

section Members

open Datum (HasType)

variable {function : String} {d e : Datum} {t ty : Ty}

theorem Request.memberStep_ok {operation : String} {i : Nat}
    (h : memberStep operation ty i = .ok t) :
    ∃ n, ty.field? i = some t ∧ ty.length? = some n ∧ i < n := by
  unfold memberStep at h
  split at h
  . next member n hfield hlength =>
    split at h
    . next hlt =>
      cases h
      exact ⟨n, hfield, hlength, hlt⟩
    . cases h
  . cases h

theorem Request.memberPath_cons {operation : String} {i : Nat} {path : List Nat}
    (h : (i :: path).foldlM (memberStep operation) ty = .ok t) :
    ∃ n member, ty.field? i = some member ∧ ty.length? = some n ∧ i < n ∧
      path.foldlM (memberStep operation) member = .ok t := by
  rw [List.foldlM_cons] at h
  cases hstep : memberStep operation ty i with
  | error e =>
    rw [hstep] at h
    cases h
  | ok member =>
    rw [hstep] at h
    obtain ⟨n, hfield, hlength, hlt⟩ := memberStep_ok hstep
    exact ⟨n, member, hfield, hlength, hlt, h⟩

theorem hasType_row {ds : List Datum} {i : Nat} (hall : ∀ d ∈ ds, d.HasType t) (hlt : i < ds.length) :
    ∃ m, ds[i]? = some m ∧ m.HasType t ∧ ∀ e : Datum, e.HasType t → ∀ d ∈ ds.set i e, d.HasType t := by
  refine ⟨ds[i], List.getElem?_eq_getElem hlt, hall _ (List.getElem_mem hlt), ?_⟩
  intro e he d hd
  rcases List.mem_or_eq_of_mem_set hd with hd | rfl
  . exact hall d hd
  . exact he

theorem hasType_fields {ds : List Datum} {fields : List Ty} {i : Nat}
    (hall : List.Forall₂ HasType ds fields) (hfield : fields[i]? = some t) :
    ∃ m, ds[i]? = some m ∧ m.HasType t ∧
      ∀ e : Datum, e.HasType t → List.Forall₂ HasType (ds.set i e) fields := by
  induction hall generalizing i with
  | nil => cases hfield
  | cons hd hds ih =>
    cases i with
    | zero =>
      cases hfield
      exact ⟨_, rfl, hd, fun e he => .cons he hds⟩
    | succ i =>
      obtain ⟨m, hm, hty, hset⟩ := ih hfield
      exact ⟨m, hm, hty, fun e he => .cons hd (hset e he)⟩

theorem Datum.HasType.member {n i : Nat} (h : d.HasType ty) (hfield : ty.field? i = some t)
    (hlength : ty.length? = some n) (hlt : i < n) :
    ∃ ds m, d = .aggregate ds ∧ ds[i]? = some m ∧ m.HasType t ∧
      ∀ e : Datum, e.HasType t → HasType (.aggregate (ds.set i e)) ty := by
  cases h with
  | int | float | void => cases hfield
  | array hsize hall =>
    cases hfield
    cases hlength
    obtain ⟨m, hm, hty, hset⟩ := hasType_row hall (hsize ▸ hlt)
    exact ⟨_, m, rfl, hm, hty, fun e he => .array (by simpa using hsize) (hset e he)⟩
  | vector hsize hall =>
    cases hfield
    cases hlength
    obtain ⟨m, hm, hty, hset⟩ := hasType_row hall (hsize ▸ hlt)
    exact ⟨_, m, rfl, hm, hty, fun e he => .vector (by simpa using hsize) (hset e he)⟩
  | struct hall =>
    obtain ⟨m, hm, hty, hset⟩ := hasType_fields hall hfield
    exact ⟨_, m, rfl, hm, hty, fun e he => .struct (hset e he)⟩

theorem extractMember_safely {operation : String} {path : List Nat} (hd : d.HasType ty)
    (hpath : path.foldlM (Request.memberStep operation) ty = .ok t) :
    Safely function (extractMember d path) (·.HasType t) := by
  induction path generalizing d ty with
  | nil =>
    cases hpath
    exact hd
  | cons i path ih =>
    obtain ⟨n, t', hfield, hlength, hlt, hrest⟩ := Request.memberPath_cons hpath
    obtain ⟨ds, m, rfl, hm, hty, -⟩ := hd.member hfield hlength hlt
    simp only [extractMember, Datum.toAggregate, bind, Except.bind, hm]
    exact ih hty hrest

theorem insertMember_safely {operation : String} {path : List Nat} (hd : d.HasType ty)
    (he : e.HasType t) (hpath : path.foldlM (Request.memberStep operation) ty = .ok t) :
    Safely function (insertMember e d path) (·.HasType ty) := by
  induction path generalizing d ty with
  | nil =>
    cases hpath
    exact he
  | cons i path ih =>
    obtain ⟨n, t', hfield, hlength, hlt, hrest⟩ := Request.memberPath_cons hpath
    obtain ⟨ds, m, rfl, hm, hty, hset⟩ := hd.member hfield hlength hlt
    rw [insertMember, hm]
    exact (ih hty hrest).bind fun r hr => hset r hr

theorem extractLane_safely {n : Nat} (hd : d.HasType (.vector n t)) (i : Int64) :
    Safely function (extractLane d i) (·.HasType t) := by
  cases hd with
  | vector hsize hall =>
    simp only [extractLane, Datum.toAggregate, bind, Except.bind]
    split
    . next lane hlane =>
      split at hlane
      . exact hall lane (List.mem_of_getElem? hlane)
      . cases hlane
    . exact rfl

theorem insertLane_safely {n : Nat} (hd : d.HasType (.vector n t)) (he : e.HasType t) (i : Int64) :
    Safely function (insertLane d e i) (·.HasType (.vector n t)) := by
  cases hd with
  | vector hsize hall =>
    unfold insertLane
    dsimp only
    split
    . next hrange =>
      have hlt := (Int.toNat_lt hrange.1).2 hrange.2
      obtain ⟨-, -, -, hset⟩ := hasType_row hall hlt
      exact .vector (by simpa using hsize) (hset e he)
    . exact rfl

theorem shuffleLanes_safely {n : Nat} {a b : Datum} {mask : List Nat} (ha : a.HasType (.vector n t))
    (hb : b.HasType (.vector n t)) (hmask : ∀ i ∈ mask, i < 2 * n) :
    Safely function (shuffleLanes a b mask) (·.HasType (.vector mask.length t)) := by
  cases ha with
  | vector hsize hall =>
    next as =>
    cases hb with
    | vector hsize' hall' =>
      next bs =>
      refine (Safely.mapM ?_).bind fun lanes h => .vector h.1 h.2
      intro i hi
      have hlt : i < (as ++ bs).length := by
        have := hmask i hi
        rw [List.length_append]
        omega
      rw [List.getElem?_eq_getElem hlt]
      rcases List.mem_append.1 (List.getElem_mem hlt) with hmem | hmem
      . exact hall _ hmem
      . exact hall' _ hmem

end Members

inductive Constant.WellFormed : Constant → Prop
  | int {w : IntWidth} {v : Int64} : Word.normalize w.bits v = v → WellFormed (.int (.int w) v)
  | float {p : Precision} {x : Float} : WellFormed (.float (.float p) x)
  | array {n : Nat} {t : Ty} {cs : List Constant} : cs.length = n →
      (∀ c ∈ cs, WellFormed c) → (∀ c ∈ cs, c.ty = t) → WellFormed (.array (.array n t) cs)
  | vector {n : Nat} {t : Ty} {cs : List Constant} : cs.length = n →
      (∀ c ∈ cs, WellFormed c) → (∀ c ∈ cs, c.ty = t) → WellFormed (.vector (.vector n t) cs)
  | struct {name : Option String} {fields : List Ty} {packed : Bool} {cs : List Constant} :
      (∀ c ∈ cs, WellFormed c) → cs.map Constant.ty = fields →
      WellFormed (.struct (.struct name fields packed) cs)
  | bitCast {c : Constant} {ty : Ty} : WellFormed c →
      Request.castAllowed .bitcast c.ty ty = true → WellFormed (.bitCast c ty)

section Constants

open Datum (HasType)

theorem hasType_row_of_fields {ds : List Datum} {cs : List Constant} {n : Nat} {t : Ty}
    (hall : List.Forall₂ HasType ds (cs.map Constant.ty)) (hlength : cs.length = n)
    (hty : ∀ c ∈ cs, c.ty = t) : ds.length = n ∧ ∀ d ∈ ds, d.HasType t := by
  refine ⟨by simpa [hlength] using hall.length_eq, ?_⟩
  rw [List.map_congr_left hty, List.map_const'] at hall
  intro d hd
  obtain ⟨i, hlt, rfl⟩ := List.mem_iff_getElem.1 hd
  have hget := hall.get hlt (hall.length_eq ▸ hlt)
  simpa using hget

variable {function : String} (env : Env)

mutual

theorem Env.constant_safely : (c : Constant) → c.WellFormed →
    Safely function (env.constant c) (·.HasType c.ty)
  | .int _ _, h => by
    cases h with
    | int hv => exact .int hv
  | .float _ _, h => by
    cases h
    exact .float
  | .array _ cs, h => by
    cases h with
    | array hlength hparts hty =>
      rw [constant]
      refine (Env.constants_safely cs hparts).bind fun ds hds => ?_
      obtain ⟨hsize, hall⟩ := hasType_row_of_fields hds hlength hty
      exact .array hsize hall
  | .vector _ cs, h => by
    cases h with
    | vector hlength hparts hty =>
      rw [constant]
      refine (Env.constants_safely cs hparts).bind fun ds hds => ?_
      obtain ⟨hsize, hall⟩ := hasType_row_of_fields hds hlength hty
      exact .vector hsize hall
  | .struct _ cs, h => by
    cases h with
    | struct hparts hty =>
      rw [constant]
      exact (Env.constants_safely cs hparts).bind fun ds hds => .struct (hty ▸ hds)
  | .bitCast c ty, h => by
    cases h with
    | bitCast hc hallowed =>
      rw [constant]
      exact (Env.constant_safely c hc).bind fun d hd => bitCast_safely hallowed hd
  | .null _, h | .undef _, h | .globalAddr _ _, h | .functionAddr _ _, h => nomatch h

theorem Env.constants_safely : (cs : List Constant) → (∀ c ∈ cs, c.WellFormed) →
    Safely function (env.constants cs) (List.Forall₂ HasType · (cs.map Constant.ty))
  | [], _ => by
    rw [constants]
    exact .nil
  | c :: cs, h => by
    rw [List.forall_mem_cons] at h
    rw [constants]
    refine (Env.constant_safely c h.1).bind fun d hd => ?_
    exact (Env.constants_safely cs h.2).bind fun ds hds => .cons hd hds

end

end Constants

end ScriptedIR
