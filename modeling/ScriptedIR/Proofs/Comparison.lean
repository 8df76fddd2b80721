import ScriptedIR.Proofs.Soundness
import ScriptedIR.Proofs.Values
import ScriptedIR.Proofs.Zeros

/-!
Comparisons that are accepted and what comes of them. Requests are checked for the kind of a type, or
of its lanes, and a pointer type may stand for a function. The machine compares words, floats and
places in memory; at lanes and functions it stops with an error, whatever is asked of them.
-/

namespace ScriptedIR

namespace Datum

inductive Fits : Datum → Ty → Prop
  | int (v : Int64) (w : IntWidth) : Fits (.int v) (.int w)
  | float (x : Float) (p : Precision) : Fits (.float x) (.float p)
  | pointer (p : Pointer) (t : Ty) : Fits (.pointer p) (.pointer t)
  | function (name : String) (t : Ty) : Fits (.function name) (.pointer t)
  | vector {ds : List Datum} {n : Nat} {t : Ty} :
      ds.length = n → (∀ d ∈ ds, Fits d t) → Fits (.aggregate ds) (.vector n t)

def isComparable : Datum → Bool
  | int _ | float _ | pointer _ => true
  | _ => false

end Datum

inductive Comparison where
  | words (predicate : IntPredicate)
  | floats (predicate : FloatPredicate)

namespace Comparison

def request : Comparison → Value → Value → Request
  | words p => .icmp p
  | floats p => .fcmp p

def rhs : Comparison → Value → Value → Rhs
  | words p => .icmp p
  | floats p => .fcmp p

def shape : Comparison → Shape
  | words _ => .integer
  | floats _ => .float

def Takes : Comparison → Kind → Prop
  | words _, k => k = .integer ∨ k = .pointer
  | floats _, k => k = .decimal

def answer : Comparison → Ty → Datum → Datum → Except RunError Bool
  | words p, ty, a, b => compareData p ty a b
  | floats p, _, a, b => do return p.holds (← a.toFloat) (← b.toFloat)

variable (c : Comparison) {l r : Value}

theorem check_request (f : Function) (l r : Value) :
    Yields ((c.request l r).check f) fun draft =>
      draft = .value (c.rhs l r) ∧ l.ty = r.ty ∧ c.Takes l.ty.scalarKind := by
  cases c with
  | words p =>
    refine .bind fun _ hsame => ?_
    have hty := Request.sameType_ok hsame
    split
    . next hkind => exact .ok ⟨rfl, hty, .inl hkind⟩
    . next hkind => exact .ok ⟨rfl, hty, .inr hkind⟩
    . exact .error
  | floats p =>
    refine .bind fun _ hsame => ?_
    have hty := Request.sameType_ok hsame
    split
    . exact .error
    . next hkind => exact .ok ⟨rfl, hty, not_not.1 hkind⟩

theorem compute_rhs {env : Env} {frame : Frame} {a b : Datum} (hl : frame.value env l = .ok a)
    (hr : frame.value env r = .ok b) (m : Memory) :
    frame.compute env m (c.rhs l r) = (do return (.ofBool (← c.answer l.ty a b), m)) := by
  cases c with
  | words p =>
    change frame.compute env m (.icmp p l r) = _
    rw [Frame.compute, hl, hr]
    rfl
  | floats p =>
    change frame.compute env m (.fcmp p l r) = _
    rw [Frame.compute, hl, hr]
    change (do return (Datum.ofBool (p.holds (← a.toFloat) (← b.toFloat)), m)) = _
    simp only [answer, bind_assoc, pure_bind]

variable {t : Ty} {a b : Datum} (ha : a.Fits t) (hb : b.Fits t) (ht : c.Takes t.scalarKind)

include ha hb ht

theorem answer_ok (hcomparable : a.isComparable ∧ b.isComparable) : ∃ x, c.answer t a b = .ok x := by
  obtain ⟨ha', hb'⟩ := hcomparable
  cases c with
  | words p =>
    cases ha with
    | int => cases hb with
      | int => exact ⟨_, rfl⟩
    | pointer =>
      cases hb with
      | pointer => exact ⟨_, rfl⟩
      | function => cases hb'
    | float => rcases ht with ht | ht <;> cases ht
    | function | vector => cases ha'
  | floats p =>
    cases ha with
    | float => cases hb with
      | float => exact ⟨_, rfl⟩
    | int | pointer => cases ht
    | function | vector => cases ha'

/--
It is always the left datum that an error shows, even if only the right one cannot be compared.
-/
theorem answer_error (hcomparable : ¬ (a.isComparable ∧ b.isComparable)) :
    c.answer t a b = .error (.typeError (.expected c.shape a)) := by
  cases c with
  | words p =>
    cases ha with
    | int | float => cases hb with
      | _ => exact absurd ⟨rfl, rfl⟩ hcomparable
    | pointer =>
      cases hb with
      | pointer => exact absurd ⟨rfl, rfl⟩ hcomparable
      | function => rfl
    | function => rfl
    | vector => rfl
  | floats p =>
    cases ha with
    | int | float => cases hb with
      | _ => exact absurd ⟨rfl, rfl⟩ hcomparable
    | pointer | function => cases ht
    | vector => rfl

end Comparison

namespace Env

def Decides (env : Env) (st : State) (i : Instruction) (id : Temp) : Prop :=
  ∃ x : Bool, env.step st i = .running (st.assign id (.ofBool x))

structure DecidesIf (env : Env) (st : State) (i : Instruction) (id : Temp) (condition : Prop)
    (shape : Shape) (shown : Datum) : Prop where
  decides_iff : env.Decides st i id ↔ condition
  stops : ¬ condition →
    env.step st i = .ended (.error (.typeError (.expected shape shown))) st.store

variable {env : Env} {st : State} {id : Temp}

theorem step_comparison (c : Comparison) {l r : Value} (ht : c.Takes l.ty.scalarKind) {a b : Datum}
    (hid : id < st.frame.temps.size) (hl : st.frame.value env l = .ok a)
    (hr : st.frame.value env r = .ok b) (ha : a.Fits l.ty) (hb : b.Fits l.ty) :
    env.DecidesIf st (.define id (c.rhs l r)) id (a.isComparable ∧ b.isComparable) c.shape a := by
  have hstops (hnot : ¬ (a.isComparable ∧ b.isComparable)) :
      env.step st (.define id (c.rhs l r)) =
        .ended (.error (.typeError (.expected c.shape a))) st.store := by
    refine step_define_error ?_
    rw [c.compute_rhs hl hr, c.answer_error ha hb ht hnot]
    rfl
  refine ⟨⟨fun hdecides => ?_, fun hcomparable => ?_⟩, hstops⟩
  . by_contra hnot
    obtain ⟨x, hx⟩ := hdecides
    rw [hstops hnot] at hx
    cases hx
  . obtain ⟨x, hx⟩ := c.answer_ok ha hb ht hcomparable
    refine ⟨x, step_define hid ?_⟩
    rw [c.compute_rhs hl hr, hx]
    rfl

theorem zero_fits (env : Env) {t : Ty} (ht : t.scalarKind = .integer ∨ t.scalarKind = .pointer) :
    ∃ b : Datum, env.constant (.zero t) = .ok b ∧ b.Fits t ∧
      ∀ a : Datum, a.Fits t → a.isComparable → b.isComparable := by
  have hscalar {u : Ty} (hu : u.kind = .integer ∨ u.kind = .pointer) :
      ∃ b : Datum, env.constant (.zero u) = .ok b ∧ b.Fits u ∧ b.isComparable := by
    cases u with
    | int w => exact ⟨_, rfl, .int _ w, rfl⟩
    | pointer t => exact ⟨_, rfl, .pointer _ t, rfl⟩
    | _ => rcases hu with hu | hu <;> cases hu
  cases t with
  | vector n u =>
    obtain ⟨b, hb, hfits, -⟩ := hscalar ht
    refine ⟨.aggregate (List.replicate n b), ?_, .vector List.length_replicate ?_, ?_⟩
    . rw [Constant.zero, constant, env.constants_replicate n hb]
      rfl
    . intro d hd
      rwa [List.eq_of_mem_replicate hd]
    . -- a vector is never compared, so there is nothing to show of its zero
      intro a ha hcomparable
      cases ha
      cases hcomparable
  | _ =>
    simp only [Ty.scalarKind] at ht
    obtain ⟨b, hb, hfits, hcomparable⟩ := hscalar ht
    exact ⟨b, hb, hfits, fun _ _ _ => hcomparable⟩

end Env

theorem Gen.exec_compareNull {operation : String} {p : IntPredicate} {o : Operand} {s t : GenState}
    {x : Value} (h : exec (compareNull operation p o) s = (.ok x, t)) :
    ∃ v, o = .value v ∧ (Comparison.words p).Takes v.ty.scalarKind ∧
      x = .temp s.function.nextTemp .i1 ∧
      t = s.extend [.define s.function.nextTemp ((Comparison.words p).rhs v (.const (.zero v.ty)))]
        (s.function.nextTemp + 1) s.library.module := by
  unfold compareNull at h
  cases o with
  | value v =>
    obtain ⟨-, draft, hcheck, -, -⟩ := exec_emitValue.1 h
    obtain ⟨rfl, -, htakes⟩ := (Comparison.words p).check_request _ _ _ _ hcheck
    obtain ⟨-, rfl, rfl⟩ := (exec_emitValue_of_check hcheck).1 h
    exact ⟨v, rfl, htakes, rfl, rfl⟩
  | _ => cases h

/--
Comparisons that are accepted, of data that fit the type. They give zero or one exactly if neither of
the data is a function or has lanes. Otherwise the machine stops with an error that shows the left one.
So it is with tests for null, where the value alone counts.
-/
theorem comparison_decides_iff (c : Comparison) (l r : Value) (o : Operand) (s : GenState) :
    (∀ draft, (c.request l r).check s.function = .ok draft →
      ∀ (env : Env) (st : State) (id : Temp) (a b : Datum), id < st.frame.temps.size →
        st.frame.value env l = .ok a → st.frame.value env r = .ok b → a.Fits l.ty → b.Fits r.ty →
        env.DecidesIf st (draft.instruction id) id (a.isComparable ∧ b.isComparable) c.shape a) ∧
    ∀ op : Operation Operand, op = .isNull o ∨ op = .isNotNull o →
      ∀ x t, Gen.exec (Gen.perform op) s = (.ok x, t) →
        ∃ v i, o = .value v ∧ x = .temp s.function.nextTemp .i1 ∧
          t = s.extend [i] (s.function.nextTemp + 1) s.library.module ∧
          ∀ (env : Env) (st : State) (a : Datum), s.function.nextTemp < st.frame.temps.size →
            st.frame.value env v = .ok a → a.Fits v.ty →
            env.DecidesIf st i s.function.nextTemp a.isComparable .integer a := by
  constructor
  . intro draft hcheck env st id a b hid hl hr ha hb
    obtain ⟨rfl, hty, htakes⟩ := c.check_request _ _ _ _ hcheck
    rw [← hty] at hb
    exact Env.step_comparison c htakes hid hl hr ha hb
  . intro op hop x t h
    obtain ⟨operation, p, hexec⟩ :
        ∃ operation p, Gen.exec (Gen.compareNull operation p o) s = (.ok x, t) := by
      rcases hop with rfl | rfl
      . exact ⟨_, _, h⟩
      . exact ⟨_, _, h⟩
    obtain ⟨v, rfl, htakes, rfl, rfl⟩ := Gen.exec_compareNull hexec
    refine ⟨v, _, rfl, rfl, rfl, fun env st a hid hv ha => ?_⟩
    obtain ⟨b, hzero, hb, hcomparable⟩ := env.zero_fits htakes
    have hboth : (a.isComparable ∧ b.isComparable) ↔ a.isComparable :=
      and_iff_left_of_imp (hcomparable a ha)
    rw [← hboth]
    exact Env.step_comparison (.words p) htakes hid hv hzero ha hb

theorem byte_comparison_decides :
    byteEnv.Decides (byteCall 5) (.define 1 (.icmp .slt (.temp 0 .i8) (.const (.int .i8 7)))) 1 ∧
    byteEnv.step (byteCall 5)
        (.define 1 (.icmp .ne (.const (.null Gen.byteBody.function.address.ty))
          (.const Gen.byteBody.function.address))) =
      .ended (.error (.typeError (.expected .integer (.pointer .null)))) {} ∧
    ∃ i, Gen.exec (Gen.perform (.isNull (.value (.const (.null (.pointer .i8)))))) Gen.byteBody =
        (.ok (.temp 1 .i1), Gen.byteBody.extend [i] 2 Gen.byteBody.library.module) ∧
      byteEnv.Decides (byteCall 5) i 1 := by
  have hbyte := comparison_decides_iff (.words .slt) (.temp 0 .i8) (.const (.int .i8 7))
    (.value (.const (.null (.pointer .i8)))) Gen.byteBody
  have hfunction := comparison_decides_iff (.words .ne)
    (.const (.null Gen.byteBody.function.address.ty)) (.const Gen.byteBody.function.address) .null
    Gen.byteBody
  refine ⟨?_, ?_, ?_⟩
  . have hdecides := hbyte.1 _ rfl byteEnv (byteCall 5) 1 (.int 5) (.int 7) (by decide) rfl rfl
      (.int _ _) (.int _ _)
    exact hdecides.decides_iff.2 ⟨rfl, rfl⟩
  . have hdecides := hfunction.1 _ rfl byteEnv (byteCall 5) 1 (.pointer .null) (.function "f")
      (by decide) rfl rfl (.pointer _ _) (.function _ _)
    exact hdecides.stops (by decide)
  . obtain ⟨v, i, hv, -, hexec, hdecides⟩ := hbyte.2 _ (.inl rfl) (.temp 1 .i1) _ rfl
    cases hv
    have hnull := hdecides byteEnv (byteCall 5) (.pointer .null) (by decide) rfl (.pointer _ _)
    exact ⟨i, Prod.ext rfl hexec, hnull.decides_iff.2 rfl⟩

/--
The test of a function for being null is accepted, and so is the comparison of a vector with itself.
Neither can be executed.
-/
theorem function_and_lanes_not_decided :
    (∃ v i, (Datum.function "f").Fits v.ty ∧ (byteCall 5).frame.value byteEnv v = .ok (.function "f") ∧
      Gen.exec (Gen.perform (.isNull (.value v))) Gen.byteBody =
        (.ok (.temp 1 .i1), Gen.byteBody.extend [i] 2 Gen.byteBody.library.module) ∧
      byteEnv.step (byteCall 5) i =
        .ended (.error (.typeError (.expected .integer (.function "f")))) {}) ∧
    ∃ v d draft, Datum.Fits d v.ty ∧ (byteCall 5).frame.value byteEnv v = .ok d ∧
      (Request.icmp .eq v v).check Gen.byteBody.function = .ok draft ∧
      byteEnv.step (byteCall 5) (draft.instruction 1) =
        .ended (.error (.typeError (.expected .integer d))) {} := by
  constructor
  . exact ⟨.const Gen.byteBody.function.address, _, .function _ _, rfl, rfl, rfl⟩
  . have hlane : ∀ d ∈ [Datum.int 5], d.Fits .i8 := by
      simpa using Datum.Fits.int 5 .w8
    exact ⟨.const (.vector (.vector 1 .i8) [.int .i8 5]), .aggregate [.int 5], _, .vector rfl hlane,
      rfl, rfl, rfl⟩

end ScriptedIR
