import ScriptedIR.Run.Machine

/-!
The errors that data can cause: bad pointers, data of the wrong form, divisions by zero and addresses
that cannot be computed. Operands, right-hand sides and memory accesses fail with no others, so every
other error of a run comes from its control flow or from a host function.
-/

namespace ScriptedIR

theorem bind_eq_ok_iff {x : Except ε α} {f : α → Except ε β} {b : β} :
    (x >>= f) = .ok b ↔ ∃ a, x = .ok a ∧ f a = .ok b := by
  cases x <;> simp [bind, Except.bind]

def RunError.isOfData : RunError → Bool
  | invalidPointer _ | divisionByZero _ | typeError _ => true
  | breakdown .noEntry | breakdown (.overflow _) => true
  | _ => false

def DataFaults (x : Except RunError α) : Prop :=
  ∀ e, x = .error e → e.isOfData

namespace DataFaults

theorem ok (a : α) : DataFaults (.ok a) := by
  intro e h
  cases h

theorem error {e : RunError} (h : e.isOfData) : DataFaults (.error e : Except RunError α) := by
  intro e' h'
  cases h'
  exact h

theorem bind {x : Except RunError α} {f : α → Except RunError β} (hx : DataFaults x)
    (hf : ∀ a, DataFaults (f a)) : DataFaults (x >>= f) := by
  cases x with
  | error e => exact error (hx e rfl)
  | ok a => exact hf a

theorem mapM {f : α → Except RunError β} (h : ∀ a, DataFaults (f a)) (as : List α) :
    DataFaults (as.mapM f) := by
  induction as with
  | nil =>
    rw [List.mapM_nil]
    apply ok
  | cons a as ih =>
    rw [List.mapM_cons]
    apply (h a).bind
    intro b
    apply ih.bind
    intro bs
    apply ok

theorem foldlM {f : β → α → Except RunError β} (h : ∀ b a, DataFaults (f b a)) (as : List α)
    (b : β) : DataFaults (as.foldlM f b) := by
  induction as generalizing b with
  | nil => apply ok
  | cons a as ih =>
    rw [List.foldlM_cons]
    apply (h b a).bind
    intro b
    apply ih

end DataFaults

open DataFaults (ok error)

namespace Datum

theorem toInt_dataFaults (d : Datum) : DataFaults d.toInt := by
  unfold toInt
  split
  . apply ok
  . apply error rfl

theorem toFloat_dataFaults (d : Datum) : DataFaults d.toFloat := by
  unfold toFloat
  split
  . apply ok
  . apply error rfl

theorem toPointer_dataFaults (d : Datum) : DataFaults d.toPointer := by
  unfold toPointer
  split
  . apply ok
  . apply error rfl

theorem toAggregate_dataFaults (d : Datum) : DataFaults d.toAggregate := by
  unfold toAggregate
  split
  . apply ok
  . apply error rfl

end Datum

open Datum

theorem intBinary_dataFaults (function : String) (op : BinaryOp) (width : Nat) (a b : Int64) :
    DataFaults (intBinary function op width a b) := by
  unfold intBinary
  dsimp only
  split
  all_goals
    first
    | apply ok
    | apply error rfl
    | split
      . apply error rfl
      . apply ok

theorem floatBinary_dataFaults (op : BinaryOp) (x y : Float) : DataFaults (floatBinary op x y) := by
  unfold floatBinary
  split
  all_goals
    first
    | apply ok
    | apply error rfl

theorem binary_dataFaults (function : String) (op : BinaryOp) (ty : Ty) (a b : Datum) :
    DataFaults (binary function op ty a b) := by
  fun_induction binary function op ty a b with
  | case1 n element a b ih =>
    apply (toAggregate_dataFaults a).bind
    intro as
    apply (toAggregate_dataFaults b).bind
    intro bs
    apply DataFaults.bind
    . apply DataFaults.mapM
      rintro ⟨x, y⟩
      apply ih
    . intro lanes
      apply ok
  | case2 ty a b _ _ =>
    apply (toFloat_dataFaults a).bind
    intro x
    apply (toFloat_dataFaults b).bind
    intro y
    apply (floatBinary_dataFaults op x y).bind
    intro z
    apply ok
  | case3 ty a b _ _ =>
    apply (toInt_dataFaults a).bind
    intro x
    apply (toInt_dataFaults b).bind
    intro y
    apply (intBinary_dataFaults function op _ x y).bind
    intro z
    apply ok

theorem compareData_dataFaults (p : IntPredicate) (ty : Ty) (a b : Datum) :
    DataFaults (compareData p ty a b) := by
  unfold compareData
  split
  . apply ok
  . apply (toInt_dataFaults _).bind
    intro x
    apply (toInt_dataFaults _).bind
    intro y
    apply ok

theorem bitCast_dataFaults (d : Datum) (source target : Ty) :
    DataFaults (bitCast d source target) := by
  unfold bitCast
  split
  . apply ok
  . split
    . apply ok
    . apply (toInt_dataFaults _).bind
      intro
      apply ok
    . apply (toFloat_dataFaults _).bind
      intro
      apply ok
    . apply (toInt_dataFaults _).bind
      intro
      apply ok
    . apply (toFloat_dataFaults _).bind
      intro
      apply ok
    . apply ok

theorem Word.checked_dataFaults (verb : String) (v : Int) : DataFaults (Word.checked verb v) := by
  unfold Word.checked
  split
  . apply ok
  . apply error rfl

theorem Pointer.move_dataFaults (p : Pointer) (amount : Int64) : DataFaults (p.move amount) := by
  unfold Pointer.move
  split
  . apply ok
  . exact (Word.checked_dataFaults "add" _).bind fun _ => ok _

theorem encodePointer_dataFaults (p : Pointer) : DataFaults (encodePointer p) := by
  unfold encodePointer
  split
  . apply ok
  . exact (Word.checked_dataFaults "add" _).bind fun _ => Word.checked_dataFaults "add" _
  . apply error rfl

theorem castDatum_dataFaults (op : CastOp) (d : Datum) (source target : Ty) :
    DataFaults (castDatum op d source target) := by
  have onInt {f : Int64 → Datum} : DataFaults (d.toInt >>= fun v => Pure.pure (f v)) :=
    (toInt_dataFaults d).bind fun v => ok (f v)
  have onFloat {f : Float → Datum} : DataFaults (d.toFloat >>= fun x => Pure.pure (f x)) :=
    (toFloat_dataFaults d).bind fun x => ok (f x)
  cases op with
  | trunc => exact onInt
  | zext => exact onInt
  | sext => exact onInt
  | fptrunc => exact onFloat
  | fpext => exact onFloat
  | fptosi => exact onFloat
  | fptoui => exact onFloat
  | sitofp => exact onInt
  | uitofp => exact onInt
  | ptrtoint =>
    apply (toPointer_dataFaults d).bind
    intro p
    apply (encodePointer_dataFaults p).bind
    intro v
    apply ok
  | inttoptr => exact onInt
  | bitcast => exact bitCast_dataFaults d source target

theorem pointerDistance_dataFaults (p q : Pointer) : DataFaults (pointerDistance p q) := by
  unfold pointerDistance
  split
  . apply ok
  . split
    . split
      . split
        . apply Word.checked_dataFaults
        . apply error rfl
      . apply error rfl
    . apply error rfl
  . apply error rfl

theorem extractMember_dataFaults (d : Datum) (path : List Nat) :
    DataFaults (extractMember d path) := by
  induction path generalizing d with
  | nil => apply ok
  | cons i rest ih =>
    apply (toAggregate_dataFaults d).bind
    intro members
    split
    . apply ih
    . apply error rfl

theorem insertMember_dataFaults (element d : Datum) (path : List Nat) :
    DataFaults (insertMember element d path) := by
  fun_induction insertMember element d path with
  | case1 => apply ok
  | case2 members i rest member _ ih =>
    apply ih.bind
    intro member
    apply ok
  | case3 => apply error rfl
  | case4 => apply error rfl

theorem extractLane_dataFaults (d : Datum) (i : Int64) : DataFaults (extractLane d i) := by
  apply (toAggregate_dataFaults d).bind
  intro lanes
  split
  . apply ok
  . apply error rfl

theorem insertLane_dataFaults (d element : Datum) (i : Int64) :
    DataFaults (insertLane d element i) := by
  unfold insertLane
  split
  . split
    . apply ok
    . apply error rfl
  . apply error rfl

theorem shuffleLanes_dataFaults (a b : Datum) (mask : List Nat) :
    DataFaults (shuffleLanes a b mask) := by
  apply (toAggregate_dataFaults a).bind
  intro first
  apply (toAggregate_dataFaults b).bind
  intro second
  apply DataFaults.bind
  . apply DataFaults.mapM
    intro i
    split
    . apply ok
    . apply error rfl
  . intro lanes
    apply ok

namespace Memory

theorem row_dataFaults (m : Memory) (p : Pointer) : DataFaults (m.row p) := by
  unfold row
  split
  . apply error rfl
  . split
    . apply ok
    . apply error rfl

theorem load_dataFaults (m : Memory) (p : Pointer) : DataFaults (m.load p) := by
  unfold load
  split
  . next h => exact error (row_dataFaults m p _ h)
  . split
    . apply ok
    . apply error rfl

theorem store_dataFaults (m : Memory) (p : Pointer) (d : Datum) : DataFaults (kept (m.store p d)) := by
  unfold store
  split
  . next h => exact error (row_dataFaults m p _ h)
  . split
    . apply ok
    . apply error rfl

theorem free_dataFaults (m : Memory) (p : Pointer) : DataFaults (kept (m.free p)) := by
  unfold free
  split
  . apply ok
  . split
    . apply error rfl
    . dsimp only
      split
      . apply error rfl
      . apply ok

theorem readBytes_dataFaults (m : Memory) (p : Pointer) : DataFaults (m.readBytes p) := by
  fun_induction readBytes m p with
  | case1 p e h => exact error (load_dataFaults m p e h)
  | case2 => apply ok
  | case3 => apply ok
  | case4 p v h hv e hrest ih => exact error (ih e hrest)
  | case5 => apply error rfl

theorem readText_dataFaults (m : Memory) (p : Pointer) : DataFaults (m.readText p) :=
  (m.readBytes_dataFaults p).bind fun _ => ok _

end Memory

namespace Host

theorem render_dataFaults (m : Memory) (c : Conversion) (d : Datum) : DataFaults (c.render m d) := by
  unfold Conversion.render
  split
  . apply ok
  . apply ok
  . apply ok
  . apply ok
  . apply ok
  . apply Memory.readText_dataFaults
  . apply error rfl

mutual

theorem formatText_dataFaults (m : Memory) :
    (cs : List Char) → (args : List Datum) → DataFaults (formatText m cs args)
  | [], args => by
    rw [formatText]
    apply ok
  | c :: cs, args => by
    rw [formatText]
    split
    . exact formatConversion_dataFaults m cs args
    . exact (formatText_dataFaults m cs args).bind fun _ => ok _

theorem formatConversion_dataFaults (m : Memory) :
    (cs : List Char) → (args : List Datum) → DataFaults (formatConversion m cs args)
  | [], args => by
    rw [formatConversion]
    apply ok
  | c :: cs, args => by
    rw [formatConversion]
    split
    . exact formatConversion_dataFaults m cs args
    . split
      . exact (formatText_dataFaults m cs args).bind fun _ => ok _
      . split
        . exact (formatText_dataFaults m cs args).bind fun _ => ok _
        . split
          . apply error rfl
          . next conversion _ _ arg args =>
            apply (render_dataFaults m conversion arg).bind
            intro text
            exact (formatText_dataFaults m cs args).bind fun _ => ok _

end

theorem pointerArg_dataFaults (host : String) (args : List Datum) (i : Nat) :
    DataFaults (pointerArg host args i) := by
  unfold pointerArg
  split
  . apply ok
  . apply error rfl

theorem intArg_dataFaults (host : String) (args : List Datum) (i : Nat) :
    DataFaults (intArg host args i) := by
  unfold intArg
  split
  . apply ok
  . apply error rfl

theorem writing_dataFaults {f : Memory → List Datum → Except RunError (String × Int64)}
    (h : ∀ m args, DataFaults (f m args)) (store : Store) (args : List Datum) :
    DataFaults (writing f store args).1 := by
  unfold writing
  split
  . apply ok
  . next e hf => exact error (h store.memory args e hf)

theorem puts_dataFaults (store : Store) (args : List Datum) : DataFaults (puts store args).1 := by
  apply writing_dataFaults
  intro m args
  apply (pointerArg_dataFaults "puts" args 0).bind
  intro p
  exact (m.readText_dataFaults p).bind fun _ => ok _

theorem putchar_dataFaults (store : Store) (args : List Datum) :
    DataFaults (putchar store args).1 := by
  apply writing_dataFaults
  intro m args
  exact (intArg_dataFaults "putchar" args 0).bind fun _ => ok _

theorem printf_dataFaults (store : Store) (args : List Datum) :
    DataFaults (printf store args).1 := by
  apply writing_dataFaults
  intro m args
  apply (pointerArg_dataFaults "printf" args 0).bind
  intro p
  apply (m.readText_dataFaults p).bind
  intro format
  exact (formatText_dataFaults m format.toList args.tail).bind fun _ => ok _

theorem abs_dataFaults (store : Store) (args : List Datum) : DataFaults (abs store args).1 := by
  apply writing_dataFaults
  intro m args
  exact (intArg_dataFaults "abs" args 0).bind fun _ => ok _

theorem standard_dataFaults {name : String} {host : HostFunction}
    (h : standard.lookup name = some host) (store : Store) (args : List Datum) :
    DataFaults (host store args).1 := by
  simp only [standard, List.lookup_cons, List.lookup_nil] at h
  split at h
  . cases h
    apply puts_dataFaults
  . split at h
    . cases h
      apply putchar_dataFaults
    . split at h
      . cases h
        apply printf_dataFaults
      . split at h
        . cases h
          apply abs_dataFaults
        . cases h

end Host

namespace Env

variable (env : Env)

theorem globalPointer_dataFaults (name : String) : DataFaults (env.globalPointer name) := by
  unfold globalPointer
  split
  . apply ok
  . apply error rfl

mutual

theorem constant_dataFaults : (c : Constant) → DataFaults (env.constant c)
  | .int _ _ => by rw [constant]; apply ok
  | .float _ _ => by rw [constant]; apply ok
  | .null _ => by rw [constant]; apply ok
  | .undef _ => by rw [constant]; apply ok
  | .array _ cs => by
    rw [constant]
    exact (constants_dataFaults cs).bind fun _ => ok _
  | .vector _ cs => by
    rw [constant]
    exact (constants_dataFaults cs).bind fun _ => ok _
  | .struct _ cs => by
    rw [constant]
    exact (constants_dataFaults cs).bind fun _ => ok _
  | .globalAddr name _ => by
    rw [constant]
    exact (globalPointer_dataFaults env name).bind fun _ => ok _
  | .functionAddr _ _ => by rw [constant]; apply ok
  | .bitCast c ty => by
    rw [constant]
    exact (constant_dataFaults c).bind fun d => bitCast_dataFaults d c.ty ty

theorem constants_dataFaults : (cs : List Constant) → DataFaults (env.constants cs)
  | [] => by rw [constants]; apply ok
  | c :: cs => by
    rw [constants]
    apply (constant_dataFaults c).bind
    intro d
    apply (constants_dataFaults cs).bind
    intro ds
    apply ok

end

end Env

namespace Frame

variable (env : Env) (frame : Frame)

theorem value_dataFaults (v : Value) : DataFaults (frame.value env v) := by
  unfold value
  split
  . split
    . apply ok
    . apply error rfl
  . apply Env.constant_dataFaults

theorem set_dataFaults (id : Temp) (d : Datum) : DataFaults (frame.set id d) := by
  unfold set
  split
  . apply ok
  . apply error rfl

section Operands

variable {env frame} (v : Value)

theorem dataFaults_of_value {f : Datum → Except RunError α} (h : ∀ d, DataFaults (f d)) :
    DataFaults (frame.value env v >>= f) :=
  (frame.value_dataFaults env v).bind h

theorem dataFaults_of_int {f : Int64 → Except RunError α} (h : ∀ i, DataFaults (f i)) :
    DataFaults (do f (← (← frame.value env v).toInt)) :=
  dataFaults_of_value v fun d => (toInt_dataFaults d).bind h

theorem dataFaults_of_float {f : Float → Except RunError α} (h : ∀ x, DataFaults (f x)) :
    DataFaults (do f (← (← frame.value env v).toFloat)) :=
  dataFaults_of_value v fun d => (toFloat_dataFaults d).bind h

theorem dataFaults_of_pointer {f : Pointer → Except RunError α} (h : ∀ p, DataFaults (f p)) :
    DataFaults (do f (← (← frame.value env v).toPointer)) :=
  dataFaults_of_value v fun d => (toPointer_dataFaults d).bind h

theorem dataFaults_of_values (w : Value) {f : Datum → Datum → Except RunError α}
    (h : ∀ a b, DataFaults (f a b)) :
    DataFaults (do
      let a ← frame.value env v
      f a (← frame.value env w)) :=
  dataFaults_of_value v fun a => dataFaults_of_value w (h a)

end Operands

theorem count_dataFaults (n : Option Value) : DataFaults (frame.count env n) := by
  unfold count
  split
  . apply ok
  . apply dataFaults_of_int
    intro n
    split
    . apply error rfl
    . apply ok

theorem address_dataFaults (p : Pointer) (indices : List Value) :
    DataFaults (frame.address env p indices) := by
  unfold address
  split
  . apply ok
  . apply dataFaults_of_int
    intro i
    apply (p.move_dataFaults i).bind
    intro q
    apply DataFaults.foldlM
    intro p index
    exact dataFaults_of_int index fun _ => ok _

theorem compute_dataFaults (memory : Memory) (rhs : Rhs) :
    DataFaults (frame.compute env memory rhs) := by
  -- whatever is computed from the operands, the memory goes with it
  have keep {x : Except RunError Datum} (hx : DataFaults x) :
      DataFaults (do return (← x, memory)) :=
    hx.bind fun d => ok (d, memory)
  cases rhs with
  | binary op lhs rhs ty =>
    exact dataFaults_of_values lhs rhs fun a b => keep (binary_dataFaults _ op ty a b)
  | icmp predicate lhs rhs =>
    exact dataFaults_of_values lhs rhs fun a b =>
      (compareData_dataFaults predicate _ a b).bind fun _ => ok _
  | fcmp predicate lhs rhs =>
    exact dataFaults_of_float lhs fun x => dataFaults_of_float rhs fun y => ok _
  | cast op v target => exact dataFaults_of_value v fun d => keep (castDatum_dataFaults op d _ target)
  | alloca ty n => exact (frame.count_dataFaults env n).bind fun _ => ok _
  | malloc ty n => exact (frame.count_dataFaults env n).bind fun _ => ok _
  | load ptr ty => exact dataFaults_of_pointer ptr fun p => keep (memory.load_dataFaults p)
  | gep ptr indices ty =>
    exact dataFaults_of_pointer ptr fun p => (frame.address_dataFaults env p indices).bind fun _ => ok _
  | extractValue aggregate path ty =>
    exact dataFaults_of_value aggregate fun d => keep (extractMember_dataFaults d path)
  | insertValue aggregate element path =>
    exact dataFaults_of_values aggregate element fun d e => keep (insertMember_dataFaults e d path)
  | extractElement vector index ty =>
    exact dataFaults_of_value vector fun d => dataFaults_of_int index fun i =>
      keep (extractLane_dataFaults d i)
  | insertElement vector element index =>
    exact dataFaults_of_values vector element fun d e => dataFaults_of_int index fun i =>
      keep (insertLane_dataFaults d e i)
  | shuffle lhs rhs mask ty =>
    exact dataFaults_of_values lhs rhs fun a b => keep (shuffleLanes_dataFaults a b mask)
  | ptrDiff lhs rhs =>
    exact dataFaults_of_values lhs rhs fun a b => (toPointer_dataFaults a).bind fun p =>
      (toPointer_dataFaults b).bind fun q => (pointerDistance_dataFaults p q).bind fun _ => ok _
  | select condition ifTrue ifFalse =>
    exact dataFaults_of_int condition fun c => keep (frame.value_dataFaults env _)

end Frame

end ScriptedIR
