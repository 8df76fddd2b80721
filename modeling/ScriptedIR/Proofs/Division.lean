import ScriptedIR.Proofs.Soundness
import ScriptedIR.Proofs.Values

/-!
The guard of divisions. A divisor that is known to be zero is refused before anything changes, and no
other failure is taken for that. A division by an integer constant that is accepted never meets a zero
when it is run: a word that is normalized and not zero is not zero at its width, be it read with a sign
or without.
-/

namespace ScriptedIR

namespace Word

theorem normalize_eq_zero {width : Nat} {v : Int64} (h : unsigned width v = 0) :
    normalize width v = 0 := by
  rw [normalize_eq_ofBits, unsigned_eq_zero_iff.1 h, ofBits_zero]

theorem unsigned_ne_zero {width : Nat} {v : Int64} (hv : normalize width v = v) (hne : v ≠ 0) :
    unsigned width v ≠ 0 := by
  intro h
  rw [normalize_eq_zero h] at hv
  exact hne hv.symm

theorem signed_ne_zero {width : Nat} {v : Int64} (hv : normalize width v = v) (hne : v ≠ 0) :
    signed width v ≠ 0 := by
  unfold signed
  split
  . next hone =>
    subst hone
    have hbit : v &&& 1 = v := hv
    rw [hbit]
    simpa using hne
  . rwa [hv]

end Word

namespace BinaryOp

variable {op : BinaryOp}

theorem kind_eq_integer : op.kind = .integer ↔ op.isFloat = false := by
  unfold kind
  cases op.isFloat <;> simp

theorem kind_eq_decimal : op.kind = .decimal ↔ op.isFloat := by
  unfold kind
  cases op.isFloat <;> simp

end BinaryOp

section Division

variable (function : String) {op : BinaryOp}

theorem intBinary_division (hop : op.isDivision) (hfloat : op.isFloat = false) {width : Nat}
    (a : Int64) {b : Int64} (hb : Word.normalize width b = b) (hne : b ≠ 0) :
    ∃ q, intBinary function op width a b = .ok (Word.normalize width q) := by
  cases op with
  | sdiv | srem =>
    unfold intBinary
    dsimp only
    rw [if_neg (Word.signed_ne_zero hb hne)]
    exact ⟨_, rfl⟩
  | udiv | urem =>
    unfold intBinary
    dsimp only
    rw [if_neg (Word.unsigned_ne_zero hb hne)]
    exact ⟨_, rfl⟩
  | fdiv | frem => cases hfloat
  | _ => cases hop

theorem binary_division (hop : op.isDivision) (hfloat : op.isFloat = false) {w : IntWidth}
    {d : Datum} (hd : d.HasType (.int w)) {n : Int64} (hn : Word.normalize w.bits n = n)
    (hne : n ≠ 0) :
    ∃ q : Datum, q.HasType (.int w) ∧ binary function op (.int w) d (.int n) = .ok q := by
  cases hd with
  | @int a =>
    obtain ⟨q, hq⟩ := intBinary_division function hop hfloat a hn hne
    refine ⟨_, hasType_normalize w q, ?_⟩
    rw [binary.eq_def]
    dsimp only
    rw [if_neg (by simp [hfloat])]
    change (do return Datum.int (← intBinary function op w.bits a n)) = _
    rw [hq]
    rfl

theorem binary_float_word (hfloat : op.isFloat) {p : Precision} {d : Datum}
    (hd : d.HasType (.float p)) (n : Int64) :
    binary function op (.float p) d (.int n) = .error (.typeError (.expected .float (.int n))) := by
  cases hd
  rw [binary.eq_def]
  dsimp only
  rw [if_pos hfloat]
  rfl

end Division

namespace Env

variable (env : Env) (st : State)

theorem step_binary {op : BinaryOp} {l r : Value} {d e : Datum} (hl : st.frame.value env l = .ok d)
    (hr : st.frame.value env r = .ok e) (id : Temp) (ty : Ty) :
    env.step st (.define id (.binary op l r ty)) = proceed st.store (do
      let q ← binary st.frame.function.name op ty d e
      return { st with frame := ← st.frame.set id q }) := by
  have hcompute : st.frame.compute env st.store.memory (.binary op l r ty) = (do
      return (← binary st.frame.function.name op ty d e, st.store.memory)) := by
    rw [Frame.compute, hl, hr]
    rfl
  unfold step
  dsimp only
  rw [hcompute]
  cases binary st.frame.function.name op ty d e <;> rfl

theorem proceed_set_ne_divisionByZero (id : Temp) (d : Datum) (name : String) (store : Store) :
    proceed st.store (do return { st with frame := ← st.frame.set id d }) ≠
      .ended (.error (.divisionByZero name)) store := by
  unfold Frame.set
  split <;> rintro ⟨⟩

end Env

namespace Instruction

/--
Whether an instruction divides whatever data of its type the dividend stands for: no run stops there
at a division by zero, and if the dividend is an integer, the result becomes an integer of that type.
-/
def Divides (i : Instruction) (dividend : Value) (result : Temp) : Prop :=
  ∀ (env : Env) (st : State) (d : Datum), st.frame.value env dividend = .ok d →
    d.HasType dividend.ty →
      (∀ name store, env.step st i ≠ .ended (.error (.divisionByZero name)) store) ∧
      (dividend.ty.isInteger → ∃ q : Datum, q.HasType dividend.ty ∧
        env.step st i =
          Env.proceed st.store (do return { st with frame := ← st.frame.set result q }))

theorem divides_constant {op : BinaryOp} (hop : op.isDivision) {l : Value} {n : Int64}
    (hnumeric : l.ty.isNumeric) (hkind : l.ty.scalarKind = op.kind)
    (hn : Word.normalize l.ty.wordWidth n = n) (hne : n ≠ 0) (id : Temp) :
    (define id (.binary op l (.const (.int l.ty n)) l.ty)).Divides l id := by
  intro env st d hd htyped
  rw [env.step_binary st hd rfl]
  rcases Ty.isNumeric_cases hnumeric with ⟨w, hty⟩ | ⟨p, hty⟩
  all_goals rw [hty] at hkind hn htyped ⊢
  . have hfloat := BinaryOp.kind_eq_integer.1 hkind.symm
    obtain ⟨q, hq, hbinary⟩ := binary_division st.frame.function.name hop hfloat htyped hn hne
    rw [hbinary]
    exact ⟨Env.proceed_set_ne_divisionByZero st id q, fun _ => ⟨q, hq, rfl⟩⟩
  . -- an integer constant may carry a float type, but its datum is no float
    have hfloat := BinaryOp.kind_eq_decimal.1 hkind.symm
    rw [binary_float_word st.frame.function.name hfloat htyped]
    exact ⟨by rintro _ _ ⟨⟩, by rintro ⟨⟩⟩

end Instruction

namespace Operand

variable {hint : Option Hint} {m m' : Module} {o : Operand}

theorem convert_error (hlist : Hint.listKind? hint = none) {e : ScriptError}
    (h : o.convert hint m = (.error e, m')) : e = .typeMismatch o hint := by
  have hcases := o.convert_cases hint m
  rw [h] at hcases
  cases hcases with
  | refused => rfl
  | item hkind | untyped hkind => simp [hlist] at hkind

theorem convert_zero (hlist : Hint.listKind? hint = none) {c : Constant}
    (h : o.convert hint m = (.ok (.const c), m')) (hzero : c.isZero) : m' = m := by
  have hcases := o.convert_cases hint m
  rw [h] at hcases
  cases hcases with
  | text => simp [Constant.isZero] at hzero
  | list hkind => simp [hlist] at hkind
  | _ => rfl

theorem convert_numeric {v : Value} (h : o.convert (some (.kind .numeric)) m = (.ok v, m')) :
    m' = m ∧ (v.ty.isNumeric ∨ v.ty.isPointer) := by
  have hcases := o.convert_cases (some (.kind .numeric)) m
  rw [h] at hcases
  cases hcases with
  | value haccepts =>
    refine ⟨rfl, .inl ?_⟩
    simpa [Hint.accepts, Kind.accepts, Ty.isNumeric, Ty.isInteger, Ty.isDecimal] using haccepts
  | function f => exact ⟨rfl, .inr rfl⟩
  | integer => exact ⟨rfl, .inl rfl⟩
  | decimal => exact ⟨rfl, .inl rfl⟩
  | null haccepts | bytes haccepts | text haccepts => cases haccepts
  | list hkind => cases hkind

theorem listKind?_of_numeric {v : Value} (h : o.convert (some (.kind .numeric)) m = (.ok v, m')) :
    Hint.listKind? (some (.type v.ty)) = none := by
  have hty := (convert_numeric h).2
  cases hv : v.ty with
  | array n t | vector n t | struct name fields packed =>
    rw [hv] at hty
    cases hty <;> contradiction
  | _ => rfl

def BecomeNumbers (lhs rhs : Operand) (m : Module) (l r : Value) (m' : Module) : Prop :=
  ∃ m₁, lhs.convert (some (.kind .numeric)) m = (.ok l, m₁) ∧
    rhs.convert (some (.type l.ty)) m₁ = (.ok r, m')

theorem BecomeNumbers.isNumeric {lhs rhs : Operand} {l r : Value} {op : BinaryOp}
    (h : BecomeNumbers lhs rhs m l r m') (hkind : l.ty.scalarKind = op.kind) : l.ty.isNumeric := by
  obtain ⟨m₁, hl, -⟩ := h
  rcases (convert_numeric hl).2 with hnumeric | hpointer
  . exact hnumeric
  . cases hty : l.ty with
    | pointer t =>
      rw [hty] at hkind
      unfold BinaryOp.kind at hkind
      split at hkind <;> cases hkind
    | _ =>
      rw [hty] at hpointer
      cases hpointer

end Operand

theorem Request.check_binary (f : Function) (op : BinaryOp) (lhs rhs : Value) :
    Yields ((binary op lhs rhs).check f) fun draft =>
      draft = .value (.binary op lhs rhs lhs.ty) ∧ lhs.ty = rhs.ty ∧ lhs.ty.scalarKind = op.kind := by
  refine .bind fun _ hsame => ?_
  change Yields (if lhs.ty.scalarKind ≠ op.kind then _ else _) _
  split
  . exact .error
  . next hkind => exact .ok ⟨rfl, sameType_ok hsame, not_not.1 hkind⟩

namespace Arithmetic

variable {op : Arithmetic} (hop : op.isDivision)

include hop

theorem operandKind_of_isDivision : op.operandKind = .numeric := by
  cases op <;> first | rfl | cases hop

theorem isDivision_instruction (decimal : Bool) : (op.instruction decimal).isDivision := by
  cases op with
  | div sign | rem sign => cases sign <;> cases decimal <;> rfl
  | _ => cases hop

end Arithmetic

theorem ScriptError.ofCode_ne_divisionByZero (e : CodeError) : ofCode e ≠ divisionByZero := by
  unfold ofCode
  split <;> rintro ⟨⟩

namespace Gen

open Operand (BecomeNumbers)

variable {s t : GenState}

theorem exec_requireOpen_error {e : ScriptError} (h : exec requireOpen s = (.error e, t)) :
    e = .argument (.blockTerminated s.cursor.block s.name) := by
  unfold requireOpen at h
  change exec (if s.cursor.finished then _ else _) s = _ at h
  split at h <;> cases h
  rfl

theorem exec_emitAt_ofCode {block : BlockId} {position : Option Nat} {r : Request} {e : ScriptError}
    (h : exec (emitAt block position r) s = (.error e, t)) : ∃ c, e = .ofCode c := by
  have hresult := congrArg Prod.fst h
  change Except.mapError _ (Builder.build ⟨s.function, block, position⟩ r).1 = _ at hresult
  cases hbuild : (Builder.build ⟨s.function, block, position⟩ r).1 with
  | ok v =>
    rw [hbuild] at hresult
    cases hresult
  | error c =>
    rw [hbuild] at hresult
    cases hresult
    exact ⟨c, rfl⟩

theorem exec_emitValue_ne_divisionByZero {r : Request} {e : ScriptError}
    (h : exec (emitValue r) s = (.error e, t)) : e ≠ .divisionByZero := by
  rcases exec_bind_error h with hemit | ⟨v, u, -, hpure⟩
  . rcases exec_bind_error hemit with hopen | ⟨_, u, -, hat⟩
    . rw [exec_requireOpen_error hopen]
      rintro ⟨⟩
    . obtain ⟨c, rfl⟩ := exec_emitAt_ofCode (s := u) hat
      exact ScriptError.ofCode_ne_divisionByZero c
  . cases hpure

theorem exec_emitValue_binary {op : BinaryOp} {l r v : Value}
    (h : exec (emitValue (.binary op l r)) s = (.ok v, t)) :
    v = .temp s.function.nextTemp l.ty ∧ l.ty = r.ty ∧ l.ty.scalarKind = op.kind ∧
      ∃ code, s.function.code? s.cursor.block = some code ∧ t.function.code? s.cursor.block =
        some (code ++ [.define s.function.nextTemp (.binary op l r l.ty)]) := by
  obtain ⟨hopen, draft, hcheck, rfl, rfl⟩ := exec_emitValue.1 h
  obtain ⟨rfl, hty, hkind⟩ := Request.check_binary _ _ _ _ _ hcheck
  obtain ⟨code, hcode, -⟩ := hopen.writable hopen.unfinished
  refine ⟨rfl, hty, hkind, code, hcode, ?_⟩
  change (s.function.append s.cursor.block _).code? s.cursor.block = _
  rw [Function.code?_append, if_pos rfl, hcode]
  rfl

section Division

variable {op : Arithmetic} (hop : op.isDivision) {lhs rhs : Operand}

include hop

theorem exec_division {l r : Value} {m : Module}
    (h : BecomeNumbers lhs rhs s.library.module l r m) :
    exec (arithmetic op lhs rhs) s =
      if r.isZero then (.error .divisionByZero, s)
      else exec (emitValue (.binary (op.instruction l.ty.isDecimal) l r))
        { s with library := { s.library with module := m } } := by
  obtain ⟨m₁, hl, hr⟩ := h
  obtain ⟨rfl, -⟩ := Operand.convert_numeric hl
  have hleft : exec (convertKind .numeric lhs) s = (.ok l, s) := exec_convert.2 ⟨_, hl, rfl⟩
  have hright : exec (convertTo l.ty rhs) s = (.ok r, _) := exec_convert.2 ⟨m, hr, rfl⟩
  unfold arithmetic
  rw [Arithmetic.operandKind_of_isDivision hop, exec_bind, hleft]
  dsimp only
  rw [exec_bind, hright, hop]
  cases r with
  | temp id ty => rfl
  | const c =>
    by_cases hzero : c.isZero
    . -- only texts and lists change the module, and neither becomes a zero of a number's type
      rw [Operand.convert_zero (Operand.listKind?_of_numeric hl) hr hzero]
      simp [Value.isZero, hzero]
    . simp [Value.isZero, hzero]

theorem becomeNumbers_or_mismatch (s : GenState) (lhs rhs : Operand) :
    (∃ l r m, BecomeNumbers lhs rhs s.library.module l r m) ∨
      ∃ o hint, (exec (arithmetic op lhs rhs) s).1 = .error (.typeMismatch o hint) := by
  unfold arithmetic
  rw [Arithmetic.operandKind_of_isDivision hop, exec_bind]
  rcases hl : lhs.convert (some (.kind .numeric)) s.library.module with ⟨e | l, m₁⟩
  . have hleft : exec (convertKind .numeric lhs) s = (.error e, _) := exec_convert.2 ⟨m₁, hl, rfl⟩
    rw [hleft, Operand.convert_error rfl hl]
    exact .inr ⟨_, _, rfl⟩
  . obtain ⟨rfl, -⟩ := Operand.convert_numeric hl
    have hleft : exec (convertKind .numeric lhs) s = (.ok l, s) := exec_convert.2 ⟨_, hl, rfl⟩
    rcases hr : rhs.convert (some (.type l.ty)) s.library.module with ⟨e | r, m⟩
    . have hright : exec (convertTo l.ty rhs) s = (.error e, _) := exec_convert.2 ⟨m, hr, rfl⟩
      rw [hleft]
      dsimp only
      rw [exec_bind, hright, Operand.convert_error (Operand.listKind?_of_numeric hl) hr]
      exact .inr ⟨_, _, rfl⟩
    . exact .inl ⟨l, r, m, _, hl, hr⟩

theorem exec_division_error (h : exec (arithmetic op lhs rhs) s = (.error .divisionByZero, t)) :
    t = s ∧ ∃ l c m, BecomeNumbers lhs rhs s.library.module l (.const c) m ∧ c.isZero := by
  rcases becomeNumbers_or_mismatch hop s lhs rhs with ⟨l, r, m, hnumbers⟩ | ⟨o, hint, hmismatch⟩
  . rw [exec_division hop hnumbers] at h
    split at h
    . next hzero =>
      cases h
      cases r with
      | temp id ty => cases hzero
      | const c => exact ⟨rfl, l, c, m, hnumbers, hzero⟩
    . exact absurd rfl (exec_emitValue_ne_divisionByZero h)
  . rw [h] at hmismatch
    cases hmismatch

theorem exec_division_ok {v : Value} (h : exec (arithmetic op lhs rhs) s = (.ok v, t)) :
    ∃ l r m, BecomeNumbers lhs rhs s.library.module l r m ∧ r.isZero = false ∧
      exec (emitValue (.binary (op.instruction l.ty.isDecimal) l r))
        { s with library := { s.library with module := m } } = (.ok v, t) := by
  rcases becomeNumbers_or_mismatch hop s lhs rhs with ⟨l, r, m, hnumbers⟩ | ⟨o, hint, hmismatch⟩
  . rw [exec_division hop hnumbers] at h
    split at h
    . cases h
    . next hzero => exact ⟨l, r, m, hnumbers, by simpa using hzero, h⟩
  . rw [h] at hmismatch
    cases hmismatch

end Division

/--
Divisions are guarded. In any state the error for a zero divisor is given exactly if both operands can
be converted and the divisor is then a constant that is known to be zero, and nothing at all has
changed. A division that is emitted with another integer constant as the divisor never meets a zero
when it is run.
-/
theorem division_guarded {op : Arithmetic} (hop : op.isDivision) (lhs rhs : Operand) (s : GenState) :
    ((exec (arithmetic op lhs rhs) s).1 = .error .divisionByZero ↔
      ∃ l c m, BecomeNumbers lhs rhs s.library.module l (.const c) m ∧ c.isZero) ∧
    ((exec (arithmetic op lhs rhs) s).1 = .error .divisionByZero →
      (exec (arithmetic op lhs rhs) s).2 = s) ∧
    ∀ v t, exec (arithmetic op lhs rhs) s = (.ok v, t) →
      ∃ l r m i code, BecomeNumbers lhs rhs s.library.module l r m ∧
        i = .define s.function.nextTemp (.binary (op.instruction l.ty.isDecimal) l r l.ty) ∧
        v = .temp s.function.nextTemp l.ty ∧
        s.function.code? s.cursor.block = some code ∧
        t.function.code? s.cursor.block = some (code ++ [i]) ∧
        ∀ ty n, r = .const (.int ty n) → Word.normalize ty.wordWidth n = n →
          i.Divides l s.function.nextTemp := by
  have herror (h : (exec (arithmetic op lhs rhs) s).1 = .error .divisionByZero) :=
    exec_division_error hop (t := (exec (arithmetic op lhs rhs) s).2) (Prod.ext h rfl)
  refine ⟨⟨fun h => (herror h).2, ?_⟩, fun h => (herror h).1, ?_⟩
  . rintro ⟨l, c, m, hnumbers, hzero⟩
    rw [exec_division hop hnumbers]
    exact congrArg Prod.fst (if_pos hzero)
  . intro v t h
    obtain ⟨l, r, m, hnumbers, hzero, hemit⟩ := exec_division_ok hop h
    obtain ⟨hv, hty, hkind, code, hcode, hcode'⟩ := exec_emitValue_binary hemit
    refine ⟨l, r, m, _, code, hnumbers, rfl, hv, hcode, hcode', ?_⟩
    rintro ty n rfl hn
    change l.ty = ty at hty
    subst hty
    have hne : n ≠ 0 := by simpa [Value.isZero, Constant.isZero] using hzero
    exact Instruction.divides_constant (Arithmetic.isDivision_instruction hop _)
      (hnumbers.isNumeric hkind) hkind hn hne _

theorem byte_division_guarded :
    exec (arithmetic (.div .signed) (.value (.temp 0 .i8)) (.int 256)) byteBody =
      (.error .divisionByZero, byteBody) ∧
    (Instruction.define 1 (.binary .sdiv (.temp 0 .i8) (.const (.int .i8 (-3))) .i8)).Divides
      (.temp 0 .i8) 1 := by
  have hop : (Arithmetic.div .signed).isDivision := rfl
  have hzero := division_guarded hop (.value (.temp 0 .i8)) (.int 256) byteBody
  have herror := hzero.1.2 ⟨.temp 0 .i8, .int .i8 0, { name := "bytes" }, ⟨_, rfl, rfl⟩, rfl⟩
  refine ⟨Prod.ext herror (hzero.2.1 herror), ?_⟩
  obtain ⟨l, r, m, i, code, ⟨m₁, hl, hr⟩, rfl, -, -, -, hdivides⟩ :=
    (division_guarded hop (.value (.temp 0 .i8)) (.int 253) byteBody).2.2 _ _ rfl
  cases hl
  cases hr
  exact hdivides .i8 (-3) rfl (by decide)

end Gen

end ScriptedIR
