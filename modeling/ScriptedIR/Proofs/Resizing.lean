import ScriptedIR.Proofs.Typing
import ScriptedIR.Proofs.Values

/-!
Integers of other widths. Casts between integers cut off bits, or fill up with zeros or with the sign,
and nothing is lost on the way to a wider integer: cutting that down again gives the integer back.
-/

namespace ScriptedIR

def CastOp.isResizing : CastOp → Bool
  | trunc | zext | sext => true
  | _ => false

theorem truncate_signExtend {m n : Nat} (h : m ≤ n) (x : BitVec m) :
    (x.signExtend n).truncate m = x :=
  (setWidth_ofInt h x.toInt).trans BitVec.ofInt_toInt

theorem truncate_zeroExtend {m n : Nat} (h : m ≤ n) (x : BitVec m) :
    (x.zeroExtend n).truncate m = x := by
  rw [BitVec.truncate, BitVec.zeroExtend, BitVec.setWidth_setWidth_of_le _ h, BitVec.setWidth_eq]

theorem castDatum_resizing {op : CastOp} (hop : op.isResizing) {m n : IntWidth}
    (hallowed : Request.castAllowed op (.int m) (.int n)) (v : Int64) :
    castDatum op (.int v) (.int m) (.int n) =
      .ok (.int (Word.ofBits (op.onBits n.bits (Word.low m.bits v)))) := by
  have hwrap {u : Int64} {x : BitVec n.bits} (hu : Word.low n.bits u = x) :
      (.ok (.int (Word.normalize n.bits u)) : Except RunError Datum) = .ok (.int (Word.ofBits x)) := by
    rw [Word.normalize_eq_ofBits, hu]
  cases op with
  | trunc =>
    have hle : n.bits ≤ m.bits := of_decide_eq_true hallowed
    refine hwrap ?_
    unfold Word.low CastOp.onBits
    exact (BitVec.setWidth_setWidth_of_le _ hle).symm
  | zext =>
    refine hwrap ?_
    change Word.low n.bits (Word.unsigned m.bits v).toInt64 = _
    rw [Word.low_toInt64, Word.toNat_unsigned, BitVec.ofNat_toNat]
    rfl
  | sext =>
    refine hwrap ?_
    change Word.low n.bits (Word.signed m.bits v) = _
    rw [Word.low_eq_ofInt n.bits_le, Word.toInt_signed m.bits_le]
    rfl
  | _ => cases hop

namespace Request

variable {op : CastOp} {v : Value} {target : Ty}

theorem check_cast {f : Function} {draft : Draft} :
    (cast op v target).check f = .ok draft ↔
      castAllowed op v.ty target ∧ draft = .value (.cast op v target) := by
  unfold check
  dsimp only
  cases castAllowed op v.ty target <;> simp [bind, Except.bind, pure, Except.pure, eq_comm]

theorem castAllowed_resizing (hop : op.isResizing) {source : Ty} (h : castAllowed op source target) :
    ∃ m n, source = .int m ∧ target = .int n := by
  have hintegers : source.isInteger ∧ target.isInteger := by
    cases op with
    | trunc | zext | sext =>
      unfold castAllowed at h
      simp only [Bool.and_eq_true] at h
      exact h.1
    | _ => cases hop
  obtain ⟨m, hm⟩ := Ty.eq_int_of_kind (of_decide_eq_true hintegers.1)
  obtain ⟨n, hn⟩ := Ty.eq_int_of_kind (of_decide_eq_true hintegers.2)
  exact ⟨m, n, hm, hn⟩

end Request

theorem Env.step_resizing {env : Env} {st : State} {op : CastOp} (hop : op.isResizing) {v : Value}
    {m n : IntWidth} (hty : v.ty = .int m) (hallowed : Request.castAllowed op (.int m) (.int n))
    {id : Temp} (hid : id < st.frame.temps.size) {a : Int64}
    (hv : st.frame.value env v = .ok (.int a)) :
    env.step st (.define id (.cast op v (.int n))) =
      .running (st.assign id (.int (Word.ofBits (op.onBits n.bits (Word.low m.bits a))))) := by
  refine step_define hid ?_
  rw [Frame.compute, hv]
  change (do return (← castDatum op (.int a) v.ty (.int n), st.store.memory)) = _
  rw [hty, castDatum_resizing hop hallowed]
  rfl

namespace Retyping

def extension? : Retyping → Option CastOp
  | resize | sext => some .sext
  | zext => some .zext
  | _ => none

def operandHint : Retyping → Option Hint
  | resize => none
  | _ => some (.kind .integer)

end Retyping

namespace CastOp

variable {op : Retyping} {ext : CastOp}

theorem isResizing_extension (h : op.extension? = some ext) : ext.isResizing := by
  cases op <;> cases h <;> rfl

theorem castAllowed_extension (h : op.extension? = some ext) {m n : IntWidth} (hle : m.bits ≤ n.bits) :
    Request.castAllowed ext (.int m) (.int n) := by
  cases op <;> cases h <;> exact decide_eq_true hle

theorem truncate_extension (h : op.extension? = some ext) {m n : Nat} (hle : m ≤ n) (x : BitVec m) :
    trunc.onBits m (ext.onBits n x) = x := by
  cases op <;> cases h
  . exact truncate_signExtend hle x
  . exact truncate_zeroExtend hle x
  . exact truncate_signExtend hle x

end CastOp

namespace Gen

variable {s : GenState} {op : Retyping} {ext : CastOp}

theorem exec_retype_wider (hop : op.extension? = some ext) (hopen : s.Open) {o : Operand} {v : Value}
    {module : Module} (hv : o.convert op.operandHint s.library.module = (.ok v, module))
    {m n : IntWidth} (hty : v.ty = .int m) (hlt : m.bits < n.bits) :
    exec (retype op o (.int n)) s =
      (.ok (.temp s.function.nextTemp (.int n)),
        s.extend [.define s.function.nextTemp (.cast ext v (.int n))] (s.function.nextTemp + 1)
          module) := by
  have hallowed := CastOp.castAllowed_extension hop (Nat.le_of_lt hlt)
  rw [← hty] at hallowed
  have hcast : exec (emitValue (.cast ext v (.int n)))
      { s with library := { s.library with module } } = (.ok _, _) :=
    (exec_emitValue_of_check (Request.check_cast.2 ⟨hallowed, rfl⟩)).2
      ⟨⟨hopen.unfinished, hopen.writable⟩, rfl, rfl⟩
  cases op with
  | sext | zext =>
    cases hop
    exact exec_bind_ok.2 ⟨v, _, exec_convert.2 ⟨module, hv, rfl⟩, hcast⟩
  | resize =>
    cases hop
    refine exec_bind_ok.2 ⟨v, _, exec_convert.2 ⟨module, hv, rfl⟩, ?_⟩
    have hne : Ty.int m ≠ .int n := by
      rintro ⟨⟩
      exact Nat.lt_irrefl _ hlt
    have hresizing : (Ty.int m).resizing? (.int n) = some .sext :=
      congrArg some (if_neg (Nat.not_lt.2 (Nat.le_of_lt hlt)))
    rw [hty, if_neg hne, hresizing]
    exact hcast
  | _ => cases hop

theorem exec_retype_trunc (hopen : s.Open) {v : Value} {m n : IntWidth} (hty : v.ty = .int n)
    (hle : m.bits ≤ n.bits) :
    exec (retype .trunc (.value v) (.int m)) s =
      (.ok (.temp s.function.nextTemp (.int m)),
        s.extend [.define s.function.nextTemp (.cast .trunc v (.int m))] (s.function.nextTemp + 1)
          s.library.module) := by
  have hconvert : exec (convertKind .integer (.value v)) s = (.ok v, s) := by
    refine exec_convert.2 ⟨_, Operand.convert_value_eq_ok.2 ?_, rfl⟩
    rw [hty]
    rfl
  have hallowed : Request.castAllowed .trunc v.ty (.int m) := by
    rw [hty]
    exact decide_eq_true hle
  refine exec_bind_ok.2 ⟨v, s, hconvert, ?_⟩
  exact (exec_emitValue_of_check (Request.check_cast.2 ⟨hallowed, rfl⟩)).2 ⟨hopen, rfl, rfl⟩

def widenAndBack (op : Retyping) (o : Operand) (m n : IntWidth) : Gen Value := do
  let wide ← retype op o (.int n)
  retype .trunc (.value wide) (.int m)

theorem exec_widenAndBack (hop : op.extension? = some ext) (hopen : s.Open) {o : Operand} {v : Value}
    {module : Module} (hv : o.convert op.operandHint s.library.module = (.ok v, module))
    {m n : IntWidth} (hty : v.ty = .int m) (hlt : m.bits < n.bits) :
    exec (widenAndBack op o m n) s =
      (.ok (.temp (s.function.nextTemp + 1) (.int m)),
        s.extend
          [.define s.function.nextTemp (.cast ext v (.int n)),
            .define (s.function.nextTemp + 1)
              (.cast .trunc (.temp s.function.nextTemp (.int n)) (.int m))]
          (s.function.nextTemp + 2) module) := by
  refine exec_bind_ok.2 ⟨_, _, exec_retype_wider hop hopen hv hty hlt, ?_⟩
  have hplain : ∀ i ∈ [Instruction.define s.function.nextTemp (.cast ext v (.int n))],
      i.isTerminator = false := by
    simp [Instruction.isTerminator]
  rw [exec_retype_trunc (hopen.extend hplain _ _) rfl (Nat.le_of_lt hlt), GenState.extend_extend]
  rfl

end Gen

theorem Env.steps_widenAndBack {op : Retyping} {ext : CastOp} (hop : op.extension? = some ext)
    {env : Env} {st : State} {v : Value} {m n : IntWidth} (hty : v.ty = .int m)
    (hle : m.bits ≤ n.bits) {id : Temp} (hid : id + 1 < st.frame.temps.size) {a : Int64}
    (hv : st.frame.value env v = .ok (.int a)) :
    ∃ st₁ st₂, env.step st (.define id (.cast ext v (.int n))) = .running st₁ ∧
      env.step st₁ (.define (id + 1) (.cast .trunc (.temp id (.int n)) (.int m))) = .running st₂ ∧
      st₂.frame.value env (.temp (id + 1) (.int m)) = .ok (.int (Word.normalize m.bits a)) := by
  have hid' : id < st.frame.temps.size := Nat.lt_of_succ_lt hid
  have hwide := step_resizing (CastOp.isResizing_extension hop) hty
    (CastOp.castAllowed_extension hop hle) hid' hv
  have hsize (d : Datum) : id + 1 < (st.assign id d).frame.temps.size := by
    simpa [State.assign] using hid
  have hvalue := @value_assign env st id hid'
    (.int (Word.ofBits (ext.onBits n.bits (Word.low m.bits a)))) (.int n)
  have htrunc : CastOp.trunc.isResizing := rfl
  have hallowed : Request.castAllowed .trunc (.int n) (.int m) := decide_eq_true hle
  have hback := step_resizing htrunc rfl hallowed (hsize _) hvalue
  refine ⟨_, _, hwide, hback, ?_⟩
  rw [value_assign (hsize _), Word.low_ofBits n.bits_le, CastOp.truncate_extension hop hle,
    Word.normalize_eq_ofBits]

/--
Integers are compared and resized as the bits of their width. The words are read at the width alone,
whether they are normalized or not. Every cast that is accepted between integers cuts off bits or fills
them up, and an integer that is made wider, by its sign or by zeros, and cut down again is the one that
it was.
-/
theorem comparison_resizing_exact :
    (∀ (p : IntPredicate) (w : IntWidth) (a b : Int64),
      compareInts p w.bits a b = p.onBits (Word.low w.bits a) (Word.low w.bits b)) ∧
    (∀ (op : CastOp) (v : Value) (target : Ty) (f : Function) (draft : Draft), op.isResizing →
      (Request.cast op v target).check f = .ok draft →
      ∃ m n, v.ty = .int m ∧ target = .int n ∧
        ∀ (env : Env) (st : State) (id : Temp) (a : Int64), id < st.frame.temps.size →
          st.frame.value env v = .ok (.int a) →
          env.step st (draft.instruction id) =
            .running (st.assign id (.int (Word.ofBits (op.onBits n.bits (Word.low m.bits a)))))) ∧
    ∀ (s : GenState) (op : Retyping) (o : Operand) (v : Value) (module : Module) (m n : IntWidth),
      op.extension?.isSome → s.Open →
      o.convert op.operandHint s.library.module = (.ok v, module) → v.ty = .int m →
      m.bits < n.bits →
      ∃ i j r, Gen.exec (Gen.widenAndBack op o m n) s =
          (.ok r, s.extend [i, j] (s.function.nextTemp + 2) module) ∧
        ∀ (env : Env) (st : State) (a : Int64), s.function.nextTemp + 1 < st.frame.temps.size →
          st.frame.value env v = .ok (.int a) →
          ∃ st₁ st₂, env.step st i = .running st₁ ∧ env.step st₁ j = .running st₂ ∧
            st₂.frame.value env r = .ok (.int (Word.normalize m.bits a)) ∧
            ((Datum.int a).HasType (.int m) → st₂.frame.value env r = st.frame.value env v) := by
  refine ⟨fun p w a b => compareInts_eq w.bits_le a b p, ?_, ?_⟩
  . intro op v target f draft hop hcheck
    obtain ⟨hallowed, rfl⟩ := Request.check_cast.1 hcheck
    obtain ⟨m, n, hty, rfl⟩ := Request.castAllowed_resizing hop hallowed
    rw [hty] at hallowed
    exact ⟨m, n, hty, rfl, fun env st id a hid hv => Env.step_resizing hop hty hallowed hid hv⟩
  . intro s op o v module m n hop hopen hv hty hlt
    obtain ⟨ext, hext⟩ := Option.isSome_iff_exists.1 hop
    refine ⟨_, _, _, Gen.exec_widenAndBack hext hopen hv hty hlt, fun env st a hid ha => ?_⟩
    obtain ⟨st₁, st₂, hwide, hback, hvalue⟩ :=
      Env.steps_widenAndBack hext hty (Nat.le_of_lt hlt) hid ha
    refine ⟨st₁, st₂, hwide, hback, hvalue, fun htyped => ?_⟩
    cases htyped with
    | int hnormal => rw [hvalue, hnormal, ha]

theorem byte_resizing_exact :
    compareInts .slt 1 1 0 ∧
    byteEnv.step (byteCall (-3)) (.define 1 (.cast .zext (.temp 0 .i8) .i32)) =
      .running ((byteCall (-3)).assign 1 (.int 253)) ∧
    ∃ i j r st₁ st₂,
      Gen.exec (Gen.widenAndBack .resize (.value (.temp 0 .i8)) .w8 .w32) Gen.byteBody =
        (.ok r, Gen.byteBody.extend [i, j] 3 Gen.byteBody.library.module) ∧
      byteEnv.step (byteCall (-3)) i = .running st₁ ∧
      byteEnv.step st₁ j = .running st₂ ∧
      st₂.frame.value byteEnv r = .ok (.int (-3)) := by
  obtain ⟨hcompare, hcast, hback⟩ := comparison_resizing_exact
  refine ⟨(hcompare .slt .w1 1 0).trans (by decide), ?_, ?_⟩
  . obtain ⟨m, n, hm, hn, hstep⟩ :=
      hcast .zext (.temp 0 .i8) .i32 Gen.byteBody.function _ rfl rfl
    cases hm
    cases hn
    exact hstep byteEnv (byteCall (-3)) 1 (-3) (by decide) rfl
  . obtain ⟨i, j, r, hexec, hsteps⟩ := hback Gen.byteBody .resize (.value (.temp 0 .i8)) _ _ .w8 .w32
      rfl Gen.open_byteBody rfl rfl (by decide)
    obtain ⟨st₁, st₂, hi, hj, -, hsame⟩ :=
      hsteps byteEnv (byteCall (-3)) (-3) (by decide) rfl
    exact ⟨i, j, r, st₁, st₂, hexec, hi, hj, hsame (.int (by decide))⟩

end ScriptedIR
