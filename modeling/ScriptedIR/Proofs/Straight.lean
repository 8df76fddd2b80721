import ScriptedIR.Proofs.Blocks
import ScriptedIR.Proofs.Texts
import ScriptedIR.Script.Body

/-!
Straight-line generation. A computation that only converts operands and emits instructions that go on
at the next one appends to the block at the cursor and changes nothing else but the temporaries taken
and the texts interned. What it appends does not depend on the block, nor on the code around it.
-/

namespace ScriptedIR

def Yields (x : Except ε α) (P : α → Prop) : Prop := ∀ a, x = .ok a → P a

namespace Yields

variable {P : α → Prop}

theorem ok {a : α} (h : P a) : Yields (.ok a : Except ε α) P := by
  rintro _ ⟨⟩
  exact h

theorem error {e : ε} : Yields (.error e) P := by
  rintro _ ⟨⟩

theorem bind {x : Except ε β} {f : β → Except ε α} (h : ∀ b, x = .ok b → Yields (f b) P) :
    Yields (x >>= f) P := by
  intro a ha
  cases hx : x with
  | error e => simp [hx, Bind.bind, Except.bind] at ha
  | ok b =>
    rw [hx] at ha
    exact h b hx a ha

end Yields

def Request.isPlain : Request → Bool
  | ret _ | branch _ | branchIf .. | unreachable => false
  | _ => true

namespace Draft

def nextTemp (draft : Draft) (result : Temp) : Temp :=
  if draft.ty?.isSome then result + 1 else result

theorem newTemp_eq (draft : Draft) (f : Function) :
    (if draft.ty?.isSome then f.newTemp.2 else f) =
      { f with nextTemp := draft.nextTemp f.nextTemp } := by
  unfold nextTemp
  split <;> rfl

theorem le_nextTemp (draft : Draft) (result : Temp) : result ≤ draft.nextTemp result := by
  unfold nextTemp
  split
  . exact Nat.le_succ _
  . exact Nat.le_refl _

end Draft

namespace Request

theorem check_congr {r : Request} (h : r.isPlain) (f g : Function) : r.check f = r.check g := by
  cases r <;> first | rfl | cases h

inductive Drafted (f : Function) : Request → Draft → Prop
  | value {r : Request} {rhs : Rhs} : r.isPlain → Drafted f r (.value rhs)
  | call {r : Request} {callee : Value} {args : List Value} {ty : Ty} :
      r.isPlain → Drafted f r (.call callee args ty)
  | free (ptr : Value) : Drafted f (.free ptr) (.effect (.free ptr))
  | store (value ptr : Value) : Drafted f (.store value ptr) (.effect (.store value ptr))
  | comment (text : String) : Drafted f (.comment text) (.effect (.comment text))
  | unreachable : Drafted f .unreachable (.effect .unreachable)
  | ret (value : Option Value) : Drafted f (.ret value) (.effect (.ret value))
  | branch {target : BlockId} : f.code? target ≠ none →
      Drafted f (.branch target) (.effect (.branch target))
  | branchIf {condition : Value} {ifTrue ifFalse : BlockId} :
      f.code? ifTrue ≠ none → f.code? ifFalse ≠ none →
      Drafted f (.branchIf condition ifTrue ifFalse) (.effect (.branchIf condition ifTrue ifFalse))

theorem Drafted.isTerminator_instruction {f : Function} {r : Request} {draft : Draft}
    (h : Drafted f r draft) (result : Temp) :
    (draft.instruction result).isTerminator = !r.isPlain := by
  cases h with
  | value hr => simp [Draft.instruction, Instruction.isTerminator, hr]
  | call hr => simp [Draft.instruction, Instruction.isTerminator, hr]
  | _ => rfl

theorem Drafted.fits {f : Function} {r : Request} {draft : Draft} (h : Drafted f r draft) :
    f.Fits (draft.nextTemp f.nextTemp) [draft.instruction f.nextTemp] := by
  refine ⟨draft.le_nextTemp _, by simp, ?_, ?_⟩
  . simp only [List.mem_singleton, forall_eq]
    cases h with
    | branch htarget => simpa [Draft.instruction, Instruction.successors] using htarget
    | branchIf htrue hfalse =>
      simpa [Draft.instruction, Instruction.successors] using ⟨htrue, hfalse⟩
    | _ => simp [Draft.instruction, Instruction.successors]
  . simp only [List.mem_singleton, forall_eq]
    cases h with
    | value => simp [Draft.instruction, Instruction.result?, Draft.nextTemp, Draft.ty?]
    | @call _ _ _ ty =>
      by_cases hty : ty.isVoid
      . simp [Draft.instruction, Instruction.result?, hty]
      . simp [Draft.instruction, Instruction.result?, Draft.nextTemp, Draft.ty?, hty]
    | _ => simp [Draft.instruction, Instruction.result?]

theorem code?_of_block {f : Function} {id : BlockId} {u : Unit}
    (h : (discard <| f.block id) = .ok u) : f.code? id ≠ none := by
  unfold Function.block at h
  split at h
  . next hb => simp [Function.code?, hb]
  . cases h

theorem check_drafted (f : Function) (r : Request) : Yields (r.check f) (Drafted f r) := by
  cases r with
  | branch target =>
    refine .bind fun _ htarget => .ok ?_
    exact .branch (code?_of_block htarget)
  | branchIf condition ifTrue ifFalse =>
    refine .bind fun _ _ => .bind fun _ htrue => .bind fun _ hfalse => .ok ?_
    exact .branchIf (code?_of_block htrue) (code?_of_block hfalse)
  | ret value =>
    cases value with
    | some v => exact .bind fun _ _ => .ok (.ret _)
    | none =>
      unfold check
      dsimp only
      split
      . exact .error
      . exact .ok (.ret _)
  | _ =>
    unfold check
    dsimp only
    repeat' first
      | refine Yields.bind fun _ _ => ?_
      | exact .error
      | refine Yields.ok ?_
      | split
    all_goals first
      | exact .value rfl
      | exact .call rfl
      | constructor

theorem check_store (f : Function) (v ptr : Value) :
    Yields ((store v ptr).check f) (· = .effect (.store v ptr)) := by
  unfold check
  dsimp only
  split
  . exact .bind fun _ _ => .ok rfl
  . exact .error

end Request

def Function.emitted (f : Function) (id : BlockId) (draft : Draft) : Function :=
  { f.append id [draft.instruction f.nextTemp] with nextTemp := draft.nextTemp f.nextTemp }

theorem Builder.emit_ok {f : Function} {block : BlockId} {i : Instruction} {b : Builder} :
    Builder.emit ⟨f, block, none⟩ i = .ok b ↔
      ∃ code, f.code? block = some code ∧ ends code = false ∧ b = ⟨f.append block [i], block, none⟩ := by
  simp only [emit, Function.block, Function.code?]
  cases f.block? block with
  | none => simp [bind, Except.bind]
  | some c =>
    simp only [bind, Except.bind, Block.isTerminated_eq, Option.map_some, Option.some.injEq,
      exists_eq_left']
    unfold ends
    split
    . next h => simp [h]
    . next h => simp [h, pure, Except.pure, Function.append, eq_comm]

theorem Builder.emit_start_ok {f : Function} {block : BlockId} {i : Instruction} {b : Builder}
    (h : Builder.emit ⟨f, block, some 0⟩ i = .ok b) : b.function = f.prepend block i := by
  simp only [emit, Function.block] at h
  cases hblock : f.block? block with
  | none => simp [hblock, bind, Except.bind] at h
  | some c =>
    rw [hblock] at h
    cases h
    simp [Function.prepend]

namespace Gen

theorem exec_bind_ok {x : Gen α} {f : α → Gen β} {s u : GenState} {b : β} :
    exec (x >>= f) s = (.ok b, u) ↔
      ∃ a t, exec x s = (.ok a, t) ∧ exec (f a) t = (.ok b, u) := by
  rw [exec_bind]
  rcases exec x s with ⟨result | a, t⟩
  . simp
  . constructor
    . intro h
      exact ⟨a, t, rfl, h⟩
    . rintro ⟨_, _, ⟨⟩, h⟩
      exact h

theorem exec_bind_error {x : Gen α} {f : α → Gen β} {s t : GenState} {e : ScriptError}
    (h : exec (x >>= f) s = (.error e, t)) :
    exec x s = (.error e, t) ∨ ∃ a u, exec x s = (.ok a, u) ∧ exec (f a) u = (.error e, t) := by
  rw [exec_bind] at h
  rcases hx : exec x s with ⟨e' | a, u⟩
  . rw [hx] at h
    cases h
    exact .inl rfl
  . rw [hx] at h
    exact .inr ⟨a, u, rfl, h⟩

theorem exec_requireOpen {s t : GenState} {u : Unit} :
    exec requireOpen s = (.ok u, t) ↔ s.cursor.finished = false ∧ s = t := by
  unfold requireOpen
  change exec (if s.cursor.finished then _ else _) s = _ ↔ _
  cases hfinished : s.cursor.finished with
  | true => simp
  | false => simp

theorem exec_emitAt {block : BlockId} {r : Request} {s t : GenState} {v : Option Value} :
    exec (emitAt block none r) s = (.ok v, t) ↔
      ∃ draft code, r.check s.function = .ok draft ∧ s.function.code? block = some code ∧
        ends code = false ∧ v = draft.ty?.map (.temp s.function.nextTemp) ∧
        t = { s with function := s.function.emitted block draft } := by
  simp only [exec, emitAt, Builder.build]
  cases hcheck : r.check s.function with
  | error e =>
    constructor
    . intro h
      cases h
    . rintro ⟨draft, code, hdraft, -⟩
      cases hdraft
  | ok draft =>
    dsimp only
    rw [draft.newTemp_eq]
    split
    . next b hb =>
      obtain ⟨code, hcode, hends, rfl⟩ := Builder.emit_ok.1 hb
      constructor
      . rintro ⟨⟩
        exact ⟨draft, code, rfl, hcode, hends, rfl, rfl⟩
      . rintro ⟨_, _, ⟨⟩, -, -, rfl, rfl⟩
        rfl
    . next e he =>
      constructor
      . rintro ⟨⟩
      . rintro ⟨_, code, ⟨⟩, hcode, hends, -, -⟩
        cases he.symm.trans (Builder.emit_ok.2 ⟨code, hcode, hends, rfl⟩)

theorem exec_emitAt_start {block : BlockId} {r : Request} {s t : GenState} {v : Option Value}
    (h : exec (emitAt block (some 0) r) s = (.ok v, t)) :
    ∃ draft, r.check s.function = .ok draft ∧ v = draft.ty?.map (.temp s.function.nextTemp) ∧
      t = { s with
        function := { s.function.prepend block (draft.instruction s.function.nextTemp) with
          nextTemp := draft.nextTemp s.function.nextTemp } } := by
  simp only [exec, emitAt, Builder.build] at h
  cases hcheck : r.check s.function with
  | error e =>
    rw [hcheck] at h
    cases h
  | ok draft =>
    rw [hcheck] at h
    dsimp only at h
    rw [draft.newTemp_eq] at h
    split at h
    . next b hb =>
      cases h
      exact ⟨draft, rfl, rfl, by rw [Builder.emit_start_ok hb]; rfl⟩
    . cases h

theorem exec_emit {r : Request} {s t : GenState} {v : Option Value} :
    exec (emit r) s = (.ok v, t) ↔ s.cursor.finished = false ∧
      ∃ draft code, r.check s.function = .ok draft ∧ s.function.code? s.cursor.block = some code ∧
        ends code = false ∧ v = draft.ty?.map (.temp s.function.nextTemp) ∧
        t = { s with function := s.function.emitted s.cursor.block draft } := by
  unfold emit
  rw [exec_bind_ok]
  constructor
  . rintro ⟨_, _, hrun, h⟩
    obtain ⟨hopen, rfl⟩ := exec_requireOpen.1 hrun
    exact ⟨hopen, exec_emitAt.1 h⟩
  . rintro ⟨hopen, h⟩
    exact ⟨(), s, exec_requireOpen.2 ⟨hopen, rfl⟩, exec_emitAt.2 h⟩

end Gen

namespace GenState

def extend (s : GenState) (is : List Instruction) (nextTemp : Temp) (module : Module) : GenState :=
  { s with
    library := { s.library with module }
    function := { s.function.append s.cursor.block is with nextTemp } }

theorem extend_nil (s : GenState) : s.extend [] s.function.nextTemp s.library.module = s := by
  unfold extend
  rw [Function.append_nil]

theorem extend_extend (s : GenState) {is js : List Instruction} {n k : Temp} {m l : Module} :
    (s.extend is n m).extend js k l = s.extend (is ++ js) k l := by
  have : Function.append { s.function.append s.cursor.block is with nextTemp := n }
      s.cursor.block js =
      { (s.function.append s.cursor.block is).append s.cursor.block js with nextTemp := n } := rfl
  simp only [extend, this, Function.append_append]

def Writable (s : GenState) : Prop :=
  s.cursor.finished = false →
    ∃ code, s.function.code? s.cursor.block = some code ∧ ends code = false

/--
States in which straight-line generation goes the same way.
-/
structure Alike (s e : GenState) : Prop where
  library : e.library = s.library
  nextTemp : e.function.nextTemp = s.function.nextTemp
  params : e.function.params = s.function.params
  names : e.names = s.names
  finished : e.cursor.finished = s.cursor.finished
  writable : e.Writable

structure Extends (s : GenState) (is : List Instruction) (nextTemp : Temp) (module : Module) :
    Prop where
  fits : s.function.Fits nextTemp is
  plain : ∀ i ∈ is, i.isTerminator = false
  functions : module.functions = s.library.module.functions
  opened : is ≠ [] → s.cursor.finished = false

variable {s e : GenState} {is js : List Instruction} {n k : Temp} {m l : Module}

theorem code?_extend {id : BlockId} :
    (s.extend is n m).function.code? id =
      if id = s.cursor.block then (s.function.code? id).map (· ++ is) else s.function.code? id := by
  change (s.function.append s.cursor.block is).code? id = _
  rw [Function.code?_append]
  split
  . next h => rw [h]
  . rfl

theorem Writable.extend (h : s.Writable) (hplain : ∀ i ∈ is, i.isTerminator = false) :
    (s.extend is n m).Writable := by
  intro hopen
  obtain ⟨code, hcode, hends⟩ := h hopen
  refine ⟨code ++ is, ?_, ends_append_plain hplain hends⟩
  rw [code?_extend]
  simp [GenState.extend, hcode]

theorem Alike.extend (h : s.Alike e) (hplain : ∀ i ∈ is, i.isTerminator = false) :
    (s.extend is n m).Alike (e.extend is n m) := by
  refine ⟨?_, rfl, h.params, h.names, h.finished, h.writable.extend hplain⟩
  simp [GenState.extend, h.library]

theorem Extends.nil (s : GenState) : s.Extends [] s.function.nextTemp s.library.module :=
  ⟨⟨Nat.le_refl _, by simp, by simp, by simp⟩, by simp, rfl, by simp⟩

theorem Extends.trans (h : s.Extends is n m) (h' : (s.extend is n m).Extends js k l) :
    s.Extends (is ++ js) k l := by
  have hplain : ∀ i ∈ is ++ js, i.isTerminator = false := by
    intro i hi
    rcases List.mem_append.1 hi with hi | hi
    . exact h.plain i hi
    . exact h'.plain i hi
  refine ⟨⟨Nat.le_trans h.fits.le h'.fits.le, ?_, ?_, ?_⟩, hplain, ?_, ?_⟩
  . intro i hi
    exact hplain i ((List.dropLast_sublist _).subset hi)
  . intro i hi target htarget
    simp [Instruction.successors_eq_nil (hplain i hi)] at htarget
  . intro i hi temp htemp
    rcases List.mem_append.1 hi with hi | hi
    . exact Nat.lt_of_lt_of_le (h.fits.temps i hi temp htemp) h'.fits.le
    . exact h'.fits.temps i hi temp htemp
  . exact h'.functions.trans h.functions
  . intro hne
    by_cases his : is = []
    . subst his
      exact h'.opened hne
    . exact h.opened his

end GenState

namespace Gen

theorem exec_emit_plain {r : Request} (hr : r.isPlain) {s t : GenState} {v : Option Value}
    (h : exec (emit r) s = (.ok v, t)) :
    ∃ draft, r.check s.function = .ok draft ∧
      s.Extends [draft.instruction s.function.nextTemp] (draft.nextTemp s.function.nextTemp)
        s.library.module ∧
      t = s.extend [draft.instruction s.function.nextTemp] (draft.nextTemp s.function.nextTemp)
        s.library.module ∧
      ∀ e, s.Alike e → exec (emit r) e = (.ok v, e.extend [draft.instruction s.function.nextTemp]
        (draft.nextTemp s.function.nextTemp) s.library.module) := by
  obtain ⟨hopen, draft, code, hcheck, hcode, hends, rfl, rfl⟩ := exec_emit.1 h
  have hdraft := Request.check_drafted _ _ _ hcheck
  refine ⟨draft, hcheck, ⟨hdraft.fits, ?_, rfl, fun _ => hopen⟩, rfl, ?_⟩
  . simp [hdraft.isTerminator_instruction, hr]
  . intro e he
    have heopen : e.cursor.finished = false := he.finished.trans hopen
    obtain ⟨code', hcode', hends'⟩ := he.writable heopen
    rw [exec_emit]
    refine ⟨heopen, draft, code', ?_, hcode', hends', ?_, ?_⟩
    . rw [Request.check_congr hr _ s.function]
      exact hcheck
    . rw [he.nextTemp]
    . simp only [GenState.extend, Function.emitted, he.nextTemp, he.library]

inductive Straight : {α : Type} → Gen α → Prop
  | pure {α : Type} (a : α) : Straight (pure a)
  | throw {α : Type} (e : ScriptError) : Straight (throw e : Gen α)
  | bind {α β : Type} {x : Gen α} {f : α → Gen β} :
      Straight x → (∀ a, Straight (f a)) → Straight (x >>= f)
  | emit {r : Request} : r.isPlain → Straight (emit r)
  | convert (o : Operand) (hint : Option Hint) : Straight (convert o hint)
  | within {α : Type} (f : Surroundings → Except ScriptError α) : Straight (within f)
  | get {α : Type} {f : GenState → Gen α} :
      (∀ s t, s.library = t.library → f s = f t) → (∀ s, Straight (f s)) → Straight (get >>= f)

/--
Straight-line generation appends to the block at the cursor, and appends the same in every state that
is alike.
-/
theorem Straight.exec_ok {x : Gen α} (hx : Straight x) {s t : GenState} {a : α}
    (h : exec x s = (.ok a, t)) :
    ∃ is n m, s.Extends is n m ∧ t = s.extend is n m ∧
      ∀ e, s.Alike e → exec x e = (.ok a, e.extend is n m) := by
  induction hx generalizing s t with
  | pure b =>
    cases h
    refine ⟨[], _, _, .nil s, s.extend_nil.symm, ?_⟩
    intro e he
    rw [← he.nextTemp, ← he.library, e.extend_nil]
    rfl
  | throw e => cases h
  | bind hx hf ihx ihf =>
    -- states that are alike are so again behind what the first part appends
    obtain ⟨b, u, hxu, hfu⟩ := exec_bind_ok.1 h
    obtain ⟨is, n, m, hext, rfl, halike⟩ := ihx hxu
    obtain ⟨js, k, l, hext', rfl, halike'⟩ := ihf b hfu
    refine ⟨is ++ js, k, l, hext.trans hext', s.extend_extend, ?_⟩
    intro e he
    rw [← e.extend_extend, exec_bind_ok]
    exact ⟨b, _, halike e he, halike' _ (he.extend hext.plain)⟩
  | emit hr =>
    obtain ⟨draft, -, hext, ht, halike⟩ := exec_emit_plain hr h
    exact ⟨_, _, _, hext, ht, halike⟩
  | convert o hint =>
    cases hconvert : o.convert hint s.library.module with
    | mk result m =>
      simp only [exec, Gen.convert, hconvert, Prod.mk.injEq] at h
      obtain ⟨rfl, rfl⟩ := h
      refine ⟨[], s.function.nextTemp, m, ⟨(GenState.Extends.nil s).fits, by simp, ?_, by simp⟩, ?_, ?_⟩
      . have := o.convert_keepsFunctions hint s.library.module
        rw [hconvert] at this
        exact this
      . simp [GenState.extend, Function.append_nil]
      . intro e he
        simp only [exec, Gen.convert, he.library, hconvert]
        simp [GenState.extend, Function.append_nil, he.library, ← he.nextTemp]
  | within f =>
    have hexec (s : GenState) : exec (Gen.within f) s =
        (f ⟨s.library, s.names, s.function.paramValues⟩, s) := rfl
    rw [hexec, Prod.mk.injEq] at h
    obtain ⟨hf, rfl⟩ := h
    refine ⟨[], _, _, .nil s, s.extend_nil.symm, ?_⟩
    intro e he
    rw [hexec, he.library, he.names, Function.paramValues, he.params, ← Function.paramValues, hf]
    rw [← he.nextTemp, ← he.library, e.extend_nil]
  | get hlib hf ih =>
    obtain ⟨is, n, m, hext, ht, halike⟩ := ih s h
    refine ⟨is, n, m, hext, ht, ?_⟩
    intro e he
    have := halike e he
    rw [← hlib e s he.library] at this
    exact this

section Operations

theorem Straight.mapM {f : α → Gen β} (h : ∀ a, Straight (f a)) (as : List α) :
    Straight (as.mapM f) := by
  induction as with
  | nil =>
    rw [List.mapM_nil]
    exact .pure _
  | cons a as ih =>
    rw [List.mapM_cons]
    exact (h a).bind fun _ => ih.bind fun _ => .pure _

theorem emitValue_straight {r : Request} (h : r.isPlain) : Straight (emitValue r) :=
  (Straight.emit h).bind fun _ => .pure _

theorem pointer_straight (operation : String) (o : Operand) : Straight (pointer operation o) := by
  refine (Straight.convert o none).bind fun v => ?_
  split
  . exact .pure _
  . exact .throw _

theorem arithmetic_straight (op : Arithmetic) (lhs rhs : Operand) :
    Straight (arithmetic op lhs rhs) := by
  refine (Straight.convert _ _).bind fun lhs => (Straight.convert _ _).bind fun rhs => ?_
  dsimp only
  split
  . exact (Straight.throw _).bind fun _ => emitValue_straight rfl
  . exact emitValue_straight rfl

theorem operator_straight (op : Operator) (lhs rhs : Operand) : Straight (operator op lhs rhs) := by
  refine (Straight.convert _ _).bind fun lhs => (Straight.convert _ _).bind fun rhs => ?_
  split
  . exact emitValue_straight rfl
  . exact emitValue_straight rfl
  . exact emitValue_straight rfl
  . exact .throw _

theorem step_straight (operation : String) (op : Arithmetic) (ptr amount : Operand) :
    Straight (step operation op ptr amount) := by
  refine (pointer_straight _ _).bind fun ptr => (emitValue_straight rfl).bind fun current => ?_
  refine (arithmetic_straight _ _ _).bind fun updated => (Straight.emit rfl).bind fun _ => ?_
  exact .pure _

theorem select_straight (condition ifTrue ifFalse : Operand) :
    Straight (select condition ifTrue ifFalse) := by
  refine (Straight.convert _ _).bind fun ifTrue => (Straight.convert _ _).bind fun condition => ?_
  exact (Straight.convert _ _).bind fun ifFalse => emitValue_straight rfl

theorem compareNull_straight (operation : String) (p : IntPredicate) (a : Operand) :
    Straight (compareNull operation p a) := by
  unfold compareNull
  split
  . exact emitValue_straight rfl
  . exact .throw _

theorem retype_straight (op : Retyping) (a : Operand) (target : Ty) :
    Straight (retype op a target) := by
  unfold retype
  split
  case h_9 => exact (pointer_straight _ _).bind fun _ => emitValue_straight rfl
  case h_11 =>
    refine (Straight.convert _ _).bind fun v => ?_
    split
    . exact .pure _
    . split
      . exact emitValue_straight rfl
      . exact .throw _
  all_goals exact (Straight.convert _ _).bind fun _ => emitValue_straight rfl

theorem distance_straight (lhs rhs : Operand) : Straight (distance lhs rhs) := by
  refine (pointer_straight _ _).bind fun lhs => (pointer_straight _ _).bind fun rhs => ?_
  exact emitValue_straight rfl

theorem size_straight (n : Option Operand) : Straight (size n) := by
  cases n with
  | none => exact .pure _
  | some n => exact (Straight.convert _ _).bind fun _ => .pure _

theorem load_straight (ptr : Operand) : Straight (load ptr) :=
  (pointer_straight _ _).bind fun _ => emitValue_straight rfl

theorem store_straight (a ptr : Operand) : Straight (store a ptr) := by
  refine (pointer_straight _ _).bind fun ptr => (Straight.convert _ _).bind fun v => ?_
  exact (Straight.emit rfl).bind fun _ => .pure _

theorem free_straight (ptr : Operand) : Straight (free ptr) :=
  (pointer_straight _ _).bind fun _ => (Straight.emit rfl).bind fun _ => .pure _

theorem fieldPath_straight (ty : Option Ty) (field : String) : Straight (fieldPath ty field) := by
  unfold fieldPath
  split
  . refine .get (fun s t hlib => by rw [hlib]) fun s => ?_
    split
    . split
      . exact .pure _
      . exact .throw _
    . exact .throw _
  . exact .throw _

theorem innerIndices_straight (ty : Option Ty) (is : List (Index Operand)) :
    Straight (innerIndices ty is) := by
  induction is generalizing ty with
  | nil => exact .pure _
  | cons i is ih =>
    cases i with
    | element o => exact (Straight.convert _ _).bind fun v => (ih _).bind fun _ => .pure _
    | field name => exact (fieldPath_straight _ _).bind fun path => (ih _).bind fun _ => .pure _

theorem elementAddress_straight (ptr : Operand) (is : List (Index Operand)) :
    Straight (elementAddress ptr is) := by
  refine (pointer_straight _ _).bind fun ptr => ?_
  refine Straight.bind ?_ fun is => emitValue_straight rfl
  unfold indices
  split
  . exact .pure _
  . exact (Straight.convert _ _).bind fun v => (innerIndices_straight _ _).bind fun _ => .pure _
  . exact .throw _

theorem aggregateIndex_straight (operation : String) (index : Operand) :
    Straight (aggregateIndex operation index) := by
  refine (Straight.convert _ _).bind fun v => ?_
  split
  . exact .pure _
  . exact .throw _

theorem extract_straight (a index : Operand) : Straight (extract a index) := by
  refine (Straight.convert _ _).bind fun v => ?_
  split
  . exact (Straight.convert _ _).bind fun _ => emitValue_straight rfl
  . exact (aggregateIndex_straight _ _).bind fun _ => emitValue_straight rfl

theorem insert_straight (a element index : Operand) : Straight (insert a element index) := by
  refine (Straight.convert _ _).bind fun v => ?_
  split
  . exact (Straight.convert _ _).bind fun _ => (Straight.convert _ _).bind fun _ => emitValue_straight rfl
  . refine (aggregateIndex_straight _ _).bind fun _ => ?_
    split
    . exact (Straight.convert _ _).bind fun _ => emitValue_straight rfl
    . exact .throw _

theorem shuffle_straight (lhs rhs mask : Operand) : Straight (shuffle lhs rhs mask) := by
  refine (Straight.convert _ _).bind fun lhs => (Straight.convert _ _).bind fun rhs => ?_
  refine (Straight.convert _ _).bind fun mask => ?_
  split
  . exact emitValue_straight rfl
  . exact .throw _

theorem global_straight (name : String) : Straight (global name) := by
  refine .get (fun s t hlib => by rw [hlib]) fun s => ?_
  split
  . exact .pure _
  . exact .throw _

theorem perform_straight (op : Operation Operand) : Straight (perform op) := by
  cases op with
  | arithmetic op lhs rhs => exact arithmetic_straight _ _ _
  | operator op lhs rhs => exact operator_straight _ _ _
  | neg a => exact (Straight.convert _ _).bind fun _ => emitValue_straight rfl
  | invert a => exact (Straight.convert _ _).bind fun _ => emitValue_straight rfl
  | increase ptr amount => exact step_straight _ _ _ _
  | decrease ptr amount => exact step_straight _ _ _ _
  | select condition ifTrue ifFalse => exact select_straight _ _ _
  | isNull a => exact compareNull_straight _ _ _
  | isNotNull a => exact compareNull_straight _ _ _
  | retype op a target => exact retype_straight _ _ _
  | distance lhs rhs => exact distance_straight _ _
  | alloca ty n => exact (size_straight n).bind fun _ => emitValue_straight rfl
  | malloc ty n => exact (size_straight n).bind fun _ => emitValue_straight rfl
  | load ptr => exact load_straight _
  | elementAddress ptr is => exact elementAddress_straight _ _
  | loadElement ptr is => exact (elementAddress_straight _ _).bind fun _ => load_straight _
  | storeElement ptr is a =>
    exact (elementAddress_straight _ _).bind fun _ => (store_straight _ _).bind fun _ => .pure _
  | extract a index => exact extract_straight _ _
  | insert a element index => exact insert_straight _ _ _
  | shuffle lhs rhs mask => exact shuffle_straight _ _ _
  | global name => exact global_straight _
  | string text => exact .convert (.str text) none
  | convert a hint => exact .convert _ _

theorem comment_straight (text : String) : Straight (comment text) :=
  (Straight.emit rfl).bind fun _ => .pure _

theorem callFunction_straight (f : FunctionRef) (args : List Operand) :
    Straight (callFunction f args) := by
  refine (Straight.mapM (fun _ => .convert _ _) _).bind fun args => ?_
  exact (Straight.emit rfl).bind fun _ => .pure _

theorem callValue_straight (callee : Value) (args : List Operand) :
    Straight (callValue callee args) := by
  have hcall : Straight (do
      let args ← args.mapM (Gen.convert · none)
      return (← Gen.emit (.call callee args)).elim Operand.null .value) := by
    refine (Straight.mapM (fun _ => .convert _ _) _).bind fun args => ?_
    exact (Straight.emit rfl).bind fun _ => .pure _
  unfold callValue
  dsimp only
  split
  . exact (Straight.throw _).bind fun _ => hcall
  . exact hcall

theorem slot_straight (init : Operand) : Straight (slot init) := by
  refine (Straight.convert _ _).bind fun v => (emitValue_straight rfl).bind fun slot => ?_
  exact (Straight.emit rfl).bind fun _ => .pure _

theorem loadAll_straight (slots : List Value) : Straight (loadAll slots) :=
  .mapM (fun _ => load_straight _) slots

end Operations

end Gen

end ScriptedIR
