import ScriptedIR.Proofs.Edits
import ScriptedIR.Proofs.Steps
import ScriptedIR.Proofs.Typing

/-!
Soundness of the types that requests are checked for. In a function that computes with data other than
pointers, whose operands carry the types that its temporaries were given, every temporary holds data of
its type all through a run. Such a run meets no data of another form than it expects.
-/

namespace ScriptedIR

namespace Rhs

def isCore : Rhs → Bool
  | binary .. | extractValue .. | insertValue .. | extractElement .. | insertElement .. | shuffle ..
  | select .. => true
  | icmp _ lhs _ | fcmp _ lhs _ => lhs.ty.isNumeric
  | cast _ v target => v.ty.isNumeric && target.isNumeric
  | _ => false

def operands : Rhs → List Value
  | binary _ lhs rhs _ | icmp _ lhs rhs | fcmp _ lhs rhs | shuffle lhs rhs _ _ | ptrDiff lhs rhs =>
    [lhs, rhs]
  | cast _ v _ | load v _ | extractValue v _ _ => [v]
  | alloca _ count | malloc _ count => count.toList
  | gep ptr indices _ => ptr :: indices
  | insertValue aggregate element _ => [aggregate, element]
  | extractElement vector index _ => [vector, index]
  | insertElement vector element index => [vector, element, index]
  | select condition ifTrue ifFalse => [condition, ifTrue, ifFalse]

/--
What the types of the operands have to do with each other and with the type of the result.
-/
inductive Typed : Rhs → Prop
  | binary {op : BinaryOp} {lhs rhs : Value} : lhs.ty = rhs.ty → lhs.ty.scalarKind = op.kind →
      Typed (.binary op lhs rhs lhs.ty)
  | icmp {predicate : IntPredicate} {lhs rhs : Value} {w : IntWidth} : lhs.ty = .int w →
      rhs.ty = .int w → Typed (.icmp predicate lhs rhs)
  | fcmp {predicate : FloatPredicate} {lhs rhs : Value} {p : Precision} : lhs.ty = .float p →
      rhs.ty = .float p → Typed (.fcmp predicate lhs rhs)
  | cast {op : CastOp} {v : Value} {target : Ty} : v.ty.isNumeric = true → target.isNumeric = true →
      Request.castAllowed op v.ty target = true → Typed (.cast op v target)
  | extractValue {operation : String} {aggregate : Value} {path : List Nat} {ty : Ty} :
      path.foldlM (Request.memberStep operation) aggregate.ty = .ok ty →
      Typed (.extractValue aggregate path ty)
  | insertValue {operation : String} {aggregate element : Value} {path : List Nat} :
      path.foldlM (Request.memberStep operation) aggregate.ty = .ok element.ty →
      Typed (.insertValue aggregate element path)
  | extractElement {vector index : Value} {n : Nat} {w : IntWidth} {ty : Ty} :
      vector.ty = .vector n ty → index.ty = .int w → Typed (.extractElement vector index ty)
  | insertElement {vector element index : Value} {n : Nat} {w : IntWidth} :
      vector.ty = .vector n element.ty → index.ty = .int w →
      Typed (.insertElement vector element index)
  | shuffle {lhs rhs : Value} {mask : List Nat} {n : Nat} {ty : Ty} : lhs.ty = .vector n ty →
      rhs.ty = .vector n ty → (∀ i ∈ mask, i < 2 * n) →
      Typed (.shuffle lhs rhs mask (.vector mask.length ty))
  | select {condition ifTrue ifFalse : Value} : condition.ty = .i1 → ifTrue.ty = ifFalse.ty →
      Typed (.select condition ifTrue ifFalse)

end Rhs

namespace Instruction

def isCore : Instruction → Bool
  | define _ rhs => rhs.isCore
  | ret _ | branch _ | branchIf .. | unreachable | comment _ => true
  | _ => false

def operands : Instruction → List Value
  | define _ rhs => rhs.operands
  | call _ callee args _ => callee :: args
  | free ptr => [ptr]
  | store v ptr => [v, ptr]
  | ret v => v.toList
  | branchIf condition _ _ => [condition]
  | branch _ | unreachable | comment _ => []

def definition? : Instruction → Option (Temp × Ty)
  | define id rhs => some (id, rhs.ty)
  | call (some id) _ _ ty => some (id, ty)
  | _ => none

inductive Typed (result : Ty) : Instruction → Prop
  | define {id : Temp} {rhs : Rhs} : rhs.Typed → Typed result (.define id rhs)
  | ret {v : Value} : v.ty = result → Typed result (.ret (some v))
  | retVoid : result = .void → Typed result (.ret none)
  | branch {target : BlockId} : Typed result (.branch target)
  | branchIf {condition : Value} {ifTrue ifFalse : BlockId} : condition.ty = .i1 →
      Typed result (.branchIf condition ifTrue ifFalse)
  | unreachable : Typed result .unreachable
  | comment {text : String} : Typed result (.comment text)

end Instruction

theorem Ty.eq_void_of_isVoid {t : Ty} (h : t.isVoid = true) : t = .void := by
  cases t with
  | void => rfl
  | _ => cases h

namespace Request

theorem sameType_ok {operation : String} {lhs rhs : Value} {u : Unit}
    (h : sameType operation lhs rhs = .ok u) : lhs.ty = rhs.ty := by
  unfold sameType at h
  split at h
  . assumption
  . cases h

theorem ofKind_ok {operation : String} {k : Kind} {v : Value} {u : Unit}
    (h : ofKind operation k v = .ok u) : v.ty.kind = k := by
  unfold ofKind at h
  split at h
  . assumption
  . cases h

theorem ofType_ok {operation : String} {ty : Ty} {v : Value} {u : Unit}
    (h : ofType operation ty v = .ok u) : v.ty = ty := by
  unfold ofType at h
  split at h
  . assumption
  . cases h

theorem memberType_ok {operation : String} {aggregate ty : Ty} {path : List Nat}
    (h : memberType operation aggregate path = .ok ty) :
    path.foldlM (memberStep operation) aggregate = .ok ty := by
  unfold memberType at h
  split at h
  . exact h
  . exact h
  . cases h

theorem laneType_ok {operation : String} {vector index : Value} {ty : Ty}
    (h : laneType operation vector index = .ok ty) :
    (∃ n, vector.ty = .vector n ty) ∧ ∃ w, index.ty = .int w := by
  unfold laneType at h
  cases hkind : ofKind operation .integer index with
  | error e =>
    rw [hkind] at h
    cases h
  | ok u =>
    rw [hkind] at h
    refine ⟨?_, Ty.eq_int_of_kind (ofKind_ok hkind)⟩
    simp only [bind, Except.bind] at h
    split at h
    . next n element hty =>
      cases h
      exact ⟨n, hty⟩
    . cases h

def ChecksTypes (f : Function) (r : Request) : Prop :=
  Yields (r.check f) fun draft =>
    ∀ id, (draft.instruction id).isCore → (draft.instruction id).Typed f.result

namespace ChecksTypes

variable {f : Function}

theorem binary (op : BinaryOp) (lhs rhs : Value) : ChecksTypes f (.binary op lhs rhs) := by
  refine .bind fun _ hsame => ?_
  change Yields (if lhs.ty.scalarKind ≠ op.kind then _ else _) _
  split
  . exact .error
  . next hkind => exact .ok fun _ _ => .define (.binary (sameType_ok hsame) (not_not.1 hkind))

theorem icmp (p : IntPredicate) (lhs rhs : Value) : ChecksTypes f (.icmp p lhs rhs) := by
  refine .bind fun _ hsame => ?_
  have hsame := sameType_ok hsame
  split
  . next hkind =>
    refine .ok fun _ hcore => ?_
    rcases Ty.isNumeric_cases hcore with ⟨w, hty⟩ | ⟨q, hty⟩
    . exact .define (.icmp hty (hsame ▸ hty))
    . rw [hty] at hkind
      cases hkind
  . next hkind =>
    refine .ok fun _ hcore => ?_
    rcases Ty.isNumeric_cases hcore with ⟨w, hty⟩ | ⟨q, hty⟩
    all_goals
      rw [hty] at hkind
      cases hkind
  . exact .error

theorem fcmp (p : FloatPredicate) (lhs rhs : Value) : ChecksTypes f (.fcmp p lhs rhs) := by
  refine .bind fun _ hsame => ?_
  have hsame := sameType_ok hsame
  dsimp only
  split
  . exact .error
  . next hkind =>
    refine .ok fun _ hcore => ?_
    rcases Ty.isNumeric_cases hcore with ⟨w, hty⟩ | ⟨q, hty⟩
    . rw [hty] at hkind
      exact absurd (by simp [Ty.scalarKind, Ty.kind]) hkind
    . exact .define (.fcmp hty (hsame ▸ hty))

theorem cast (op : CastOp) (v : Value) (target : Ty) : ChecksTypes f (.cast op v target) := by
  unfold ChecksTypes check
  dsimp only
  split
  . exact .error
  . next hallowed =>
    refine .ok fun _ hcore => ?_
    obtain ⟨hsource, htarget⟩ := Bool.and_eq_true_iff.1 hcore
    exact .define (.cast hsource htarget (by simpa using hallowed))

theorem insertValue (aggregate element : Value) (path : List Nat) :
    ChecksTypes f (.insertValue aggregate element path) := by
  refine .bind fun ty hty => .bind fun _ helement => .ok ?_
  rw [← ofType_ok helement] at hty
  exact fun _ _ => .define (.insertValue (memberType_ok hty))

theorem extractElement (vector index : Value) : ChecksTypes f (.extractElement vector index) := by
  refine .bind fun ty hty => .ok ?_
  obtain ⟨⟨n, hvector⟩, w, hindex⟩ := laneType_ok hty
  exact fun _ _ => .define (.extractElement hvector hindex)

theorem insertElement (vector element index : Value) :
    ChecksTypes f (.insertElement vector element index) := by
  refine .bind fun ty hty => .bind fun _ helement => .ok ?_
  rw [← ofType_ok helement] at hty
  obtain ⟨⟨n, hvector⟩, w, hindex⟩ := laneType_ok hty
  exact fun _ _ => .define (.insertElement hvector hindex)

theorem shuffle (lhs rhs : Value) (mask : List Nat) : ChecksTypes f (.shuffle lhs rhs mask) := by
  refine .bind fun _ hsame => ?_
  split
  . next n ty hty =>
    split
    . exact .error
    . next hmask =>
      refine .ok fun _ _ => .define (.shuffle hty ((sameType_ok hsame) ▸ hty) ?_)
      intro i hi
      simpa using List.find?_eq_none.1 hmask i hi
  . exact .error

theorem ret (v : Option Value) : ChecksTypes f (.ret v) := by
  cases v with
  | some v => exact .bind fun _ hty => .ok fun _ _ => .ret (ofType_ok hty)
  | none =>
    unfold ChecksTypes check
    dsimp only
    split
    . exact .error
    . next hvoid =>
      refine .ok fun _ _ => .retVoid ?_
      exact Ty.eq_void_of_isVoid (by simpa using hvoid)

theorem of_outside {r : Request}
    (h : Yields (r.check f) fun draft => ∀ id, ¬ (draft.instruction id).isCore) : ChecksTypes f r :=
  fun draft hcheck id hcore => absurd hcore (h draft hcheck id)

theorem load (ptr : Value) : ChecksTypes f (.load ptr) := by
  refine of_outside ?_
  unfold check
  dsimp only
  split
  . exact .ok fun _ => Bool.false_ne_true
  . exact .error

theorem store (v ptr : Value) : ChecksTypes f (.store v ptr) := by
  refine of_outside ?_
  unfold check
  dsimp only
  split
  . exact .bind fun _ _ => .ok fun _ => Bool.false_ne_true
  . exact .error

theorem call (callee : Value) (args : List Value) : ChecksTypes f (.call callee args) := by
  refine of_outside ?_
  unfold check
  dsimp only
  split
  . exact .error
  . split
    . exact .error
    . exact .bind fun _ _ => .ok fun _ => Bool.false_ne_true

end ChecksTypes

theorem check_typed (f : Function) (r : Request) : ChecksTypes f r := by
  cases r with
  | binary op lhs rhs => exact .binary op lhs rhs
  | icmp p lhs rhs => exact .icmp p lhs rhs
  | fcmp p lhs rhs => exact .fcmp p lhs rhs
  | cast op v target => exact .cast op v target
  | extractValue aggregate path =>
    exact .bind fun _ hty => .ok fun _ _ => .define (.extractValue (memberType_ok hty))
  | insertValue aggregate element path => exact .insertValue aggregate element path
  | extractElement vector index => exact .extractElement vector index
  | insertElement vector element index => exact .insertElement vector element index
  | shuffle lhs rhs mask => exact .shuffle lhs rhs mask
  | select condition ifTrue ifFalse =>
    exact .bind fun _ hcondition => .bind fun _ hsame => .ok fun _ _ =>
      .define (.select (ofType_ok hcondition) (sameType_ok hsame))
  | ret v => exact .ret v
  | branch target => exact .bind fun _ _ => .ok fun _ _ => .branch
  | branchIf condition ifTrue ifFalse =>
    exact .bind fun _ hcondition => .bind fun _ _ => .bind fun _ _ => .ok fun _ _ =>
      .branchIf (ofType_ok hcondition)
  | unreachable => exact .ok fun _ _ => .unreachable
  | comment text => exact .ok fun _ _ => .comment
  | load ptr => exact .load ptr
  | store v ptr => exact .store v ptr
  | call callee args => exact .call callee args
  | alloca | malloc | free | gep =>
    exact .of_outside (.bind fun _ _ => .ok fun _ => Bool.false_ne_true)
  | ptrDiff => exact .of_outside (.bind fun _ _ => .bind fun _ _ => .ok fun _ => Bool.false_ne_true)

end Request

namespace Function

variable {f : Function}

def tempTys (f : Function) : List (Temp × Ty) :=
  f.params.mapIdx (fun i ty => (i, ty)) ++ f.instructions.filterMap Instruction.definition?

def tempTy? (f : Function) (id : Temp) : Option Ty := f.tempTys.lookup id

theorem mem_instructions_edit {e : Edit} {i : Instruction} (h : i ∈ (f.edit e).instructions) :
    i ∈ f.instructions ∨ ∃ (r : Request) (draft : Draft), r.check f = .ok draft ∧
      i = draft.instruction f.nextTemp := by
  have hrelocate (id anchor : BlockId) {offset : Nat} (hle : offset ≤ 1)
      (h : i ∈ (f.relocate id anchor offset).2.instructions) : i ∈ f.instructions := by
    cases hrun : (f.relocate id anchor offset).1 with
    | error e =>
      rw [relocate_error hrun] at h
      exact h
    | ok u =>
      have hmove : f.moveNear id anchor offset = .ok (f.relocate id anchor offset).2 := by
        rw [moveNear_eq_ok_iff, ← hrun]
      exact (instructions_perm (moveNear_perm hmove hle)).mem_iff.1 h
  cases e with
  | addBlock label =>
    left
    rw [← instructions_addBlock label]
    exact h
  | newTemp => exact .inl h
  | build block position r =>
    -- only here can an instruction be new, and then it was checked
    obtain ⟨e, n, -, -, hfunction⟩ | ⟨draft, place, hcheck, hcode, -, hfunction⟩ :=
      Builder.build_cases ⟨f, block, position⟩ r
    . left
      rw [edit, hfunction] at h
      exact h
    . rw [edit, hfunction] at h
      rcases List.mem_cons.1 ((instructions_insert hcode place _).mem_iff.1 h) with heq | hmem
      . exact .inr ⟨r, draft, hcheck, heq⟩
      . exact .inl hmem
  | moveAfter id after => exact .inl (hrelocate id after (Nat.le_refl 1) h)
  | moveBefore id before => exact .inl (hrelocate id before (Nat.zero_le 1) h)
  | removeBlock id => exact .inl (instructions_removeBlock.subset h)
  | clearBody => cases h

theorem result_edit (f : Function) (e : Edit) : (f.edit e).result = f.result := by
  have h := congrArg Function.result (clearBody_edit f e)
  exact h

theorem typed_editAll (h : ∀ i ∈ f.instructions, i.isCore → i.Typed f.result) (edits : List Edit) :
    ∀ i ∈ (f.editAll edits).instructions, i.isCore → i.Typed f.result := by
  induction edits generalizing f with
  | nil => exact h
  | cons e edits ih =>
    rw [← result_edit f e]
    apply ih
    intro i hi hcore
    rw [result_edit]
    rcases mem_instructions_edit hi with hi | ⟨r, draft, hcheck, rfl⟩
    . exact h i hi hcore
    . exact Request.check_typed f r draft hcheck _ hcore

theorem map_fst_tempTys (f : Function) :
    f.tempTys.map Prod.fst = List.range f.params.length ++ f.defined := by
  have hparams : (f.params.mapIdx fun i ty => (i, ty)).map Prod.fst = List.range f.params.length := by
    apply List.ext_getElem
    . simp
    . intro i _ _
      simp
  have hdefined (i : Instruction) : i.definition?.map Prod.fst = i.result? := by
    cases i with
    | call result => cases result <;> rfl
    | _ => rfl
  rw [tempTys, List.map_append, hparams, List.map_filterMap]
  simp only [hdefined, defined]

theorem Numbered.tempTy?_of_mem {f : Function} (h : f.Numbered f.params.length) {id : Temp} {ty : Ty}
    (hmem : (id, ty) ∈ f.tempTys) : f.tempTy? id = some ty := by
  have hnodup : (f.tempTys.map Prod.fst).Nodup := by
    rw [map_fst_tempTys, List.nodup_append]
    refine ⟨List.nodup_range, h.nodup, ?_⟩
    intro i hi j hj
    exact Nat.ne_of_lt (Nat.lt_of_lt_of_le (List.mem_range.1 hi) (h.range j hj).1)
  obtain ⟨front, back, heq⟩ := List.append_of_mem hmem
  refine List.lookup_eq_some_iff.2 ⟨front, back, heq, ?_⟩
  intro p hp
  rw [heq, List.map_append, List.map_cons, List.nodup_append] at hnodup
  have hne := hnodup.2.2 p.1 (List.mem_map_of_mem hp) id List.mem_cons_self
  simpa using hne.symm

end Function

/--
An operand as it should be: a temporary carries the type that it was given, if it was given any, and a
constant is well formed.
-/
def Value.Suits (f : Function) : Value → Prop
  | .temp id ty => ∀ given, f.tempTy? id = some given → given = ty
  | .const c => c.WellFormed

structure Function.WellTyped (f : Function) : Prop where
  typed : ∀ i ∈ f.instructions, i.Typed f.result
  suits : ∀ i ∈ f.instructions, ∀ v ∈ i.operands, v.Suits f
  numbered : f.Numbered f.params.length

namespace Frame

variable {f : Function} {frame : Frame}

theorem rest_jump (frame : Frame) (target : BlockId) :
    (frame.jump target).rest ⊆ frame.function.instructions := by
  unfold jump
  dsimp only
  split
  . next b hb =>
    intro i hi
    exact List.mem_flatMap.2 ⟨b, List.mem_of_find?_eq_some hb, hi⟩
  . exact List.nil_subset _

theorem arg_of_enter {args : List Datum} {id : Temp} {d : Datum}
    (h : (enter f args).temps[id]? = some (some d)) :
    (args.take f.params.length)[id]? = some d := by
  rw [temps_enter] at h
  split at h
  . exact Option.some.inj h
  . cases h

structure Typed (f : Function) (frame : Frame) : Prop where
  function : frame.function = f
  room : f.nextTemp ≤ frame.temps.size
  temps : ∀ id d, frame.temps[id]? = some (some d) → ∃ ty, f.tempTy? id = some ty ∧ d.HasType ty
  rest : frame.rest ⊆ f.instructions

namespace Typed

theorem value (h : frame.Typed f) (env : Env) {v : Value} (hv : v.Suits f) :
    Safely f.name (frame.value env v) (·.HasType v.ty) := by
  cases v with
  | const c => exact Env.constant_safely env c hv
  | temp id ty =>
    unfold Frame.value
    dsimp only
    split
    . next d hd =>
      obtain ⟨given, hgiven, hty⟩ := h.temps id d hd
      exact hv given hgiven ▸ hty
    . rw [h.function]
      simp [Safely, RunError.isExcused]

theorem valueOf (h : frame.Typed f) (env : Env) {v : Value} {ty : Ty} (hv : v.Suits f)
    (hty : v.ty = ty) : Safely f.name (frame.value env v) (·.HasType ty) :=
  hty ▸ h.value env hv

theorem compute (h : frame.Typed f) (env : Env) {rhs : Rhs} (hrhs : rhs.Typed)
    (hsuits : ∀ v ∈ rhs.operands, v.Suits f) (memory : Memory) :
    Safely f.name (frame.compute env memory rhs) (·.1.HasType rhs.ty) := by
  cases hrhs
  all_goals simp only [Rhs.operands, List.forall_mem_cons] at hsuits
  case binary hsame hkind =>
    refine (h.value env hsuits.1).bind fun a ha => ?_
    refine (h.valueOf env hsuits.2.1 hsame.symm).bind fun b hb => ?_
    rw [h.function]
    exact (binary_safely hkind ha hb).bind fun _ hd => hd
  case icmp hlhs hrhs =>
    refine (h.valueOf env hsuits.1 hlhs).bind fun a ha => ?_
    refine (h.valueOf env hsuits.2.1 hrhs).bind fun b hb => ?_
    rw [hlhs]
    exact (compareData_safely ha hb).bind fun _ _ => hasType_ofBool _
  case fcmp hlhs hrhs =>
    refine (h.valueOf env hsuits.1 hlhs).bind fun a ha => ?_
    cases ha
    refine (h.valueOf env hsuits.2.1 hrhs).bind fun b hb => ?_
    cases hb
    exact hasType_ofBool _
  case cast hsource htarget hallowed =>
    refine (h.value env hsuits.1).bind fun d hd => ?_
    exact (castDatum_safely hsource htarget hallowed hd).bind fun _ he => he
  case extractValue hpath =>
    refine (h.value env hsuits.1).bind fun d hd => ?_
    exact (extractMember_safely hd hpath).bind fun _ hm => hm
  case insertValue hpath =>
    refine (h.value env hsuits.1).bind fun d hd => ?_
    refine (h.value env hsuits.2.1).bind fun e he => ?_
    exact (insertMember_safely hd he hpath).bind fun _ hm => hm
  case extractElement hvector hindex =>
    refine (h.valueOf env hsuits.1 hvector).bind fun d hd => ?_
    refine (h.valueOf env hsuits.2.1 hindex).bind fun i hi => ?_
    cases hi
    exact (extractLane_safely hd _).bind fun _ hm => hm
  case insertElement hvector hindex =>
    refine (h.valueOf env hsuits.1 hvector).bind fun d hd => ?_
    refine (h.value env hsuits.2.1).bind fun e he => ?_
    refine (h.valueOf env hsuits.2.2.1 hindex).bind fun i hi => ?_
    cases hi
    rw [Rhs.ty, hvector]
    exact (insertLane_safely hd he _).bind fun _ hm => hm
  case shuffle hlhs hrhs hmask =>
    refine (h.valueOf env hsuits.1 hlhs).bind fun a ha => ?_
    refine (h.valueOf env hsuits.2.1 hrhs).bind fun b hb => ?_
    exact (shuffleLanes_safely ha hb hmask).bind fun _ hm => hm
  case select hcondition hsame =>
    refine (h.valueOf env hsuits.1 hcondition).bind fun c hc => ?_
    cases hc
    change Safely f.name (frame.value env (if _ then _ else _) >>= _) _
    split
    . exact (h.value env hsuits.2.1).bind fun _ hd => hd
    . exact (h.valueOf env hsuits.2.2.1 hsame.symm).bind fun _ hd => hd

theorem set (h : frame.Typed f) (hf : f.WellTyped) {id : Temp} {rhs : Rhs} {d : Datum}
    (hi : .define id rhs ∈ f.instructions) (hd : d.HasType rhs.ty) :
    ∃ temps, frame.set id d = .ok { frame with temps } ∧ Typed f { frame with temps } := by
  have hlt : id < frame.temps.size := by
    have hdefined : id ∈ f.defined := List.mem_filterMap.2 ⟨_, hi, rfl⟩
    exact Nat.lt_of_lt_of_le (hf.numbered.range id hdefined).2 h.room
  refine ⟨frame.temps.setIfInBounds id (some d), by rw [Frame.set, if_pos hlt], h.function,
    by simpa using h.room, ?_, h.rest⟩
  intro other e he
  rw [Array.getElem?_setIfInBounds] at he
  split at he
  . next heq =>
    subst heq
    cases he
    refine ⟨rhs.ty, hf.numbered.tempTy?_of_mem ?_, hd⟩
    exact List.mem_append_right _ (List.mem_filterMap.2 ⟨_, hi, rfl⟩)
  . exact h.temps other e he

theorem jump (h : frame.Typed f) (target : BlockId) : (frame.jump target).Typed f := by
  refine ⟨h.function, h.room, h.temps, ?_⟩
  rw [← h.function]
  exact frame.rest_jump target

theorem enter {args : List Datum} (hf : f.WellTyped)
    (hargs : ∀ p ∈ List.zip args f.params, p.1.HasType p.2) : (Frame.enter f args).Typed f := by
  have hparam {id : Temp} {d : Datum} (hd : (args.take f.params.length)[id]? = some d) :
      ∃ ty, f.tempTy? id = some ty ∧ d.HasType ty := by
    rw [List.getElem?_take] at hd
    split at hd
    . next hlt =>
      have hty := List.getElem?_eq_getElem hlt
      refine ⟨f.params[id], hf.numbered.tempTy?_of_mem ?_, ?_⟩
      . exact List.mem_append_left _ (List.mem_mapIdx.2 ⟨id, hlt, rfl⟩)
      . exact hargs (d, f.params[id]) (List.mem_of_getElem? (List.getElem?_zip_eq_some.2 ⟨hd, hty⟩))
    . cases hd
  exact ⟨rfl, Nat.le_of_eq (size_enter f args).symm, fun _ _ hd => hparam (arg_of_enter hd),
    rest_jump _ _⟩

end Typed

end Frame

structure State.Typed (f : Function) (s : State) : Prop where
  frame : s.frame.Typed f
  callers : s.callers = []

/--
What a step may come to: a state like the one before, a result of the type of the function, or an error
that its types do not exclude.
-/
def Progress.Typed (f : Function) : Progress → Prop
  | .running s => s.Typed f
  | .ended result _ => Safely f.name result (·.HasType f.result)

theorem RunError.fault_of_isExcused {function : String} {fault : TypeFault}
    (h : (typeError fault).isExcused function = true) :
    (∃ id, fault = .undefinedTemp id function) ∨ ∃ i, fault = .laneRange i := by
  cases fault with
  | undefinedTemp id name =>
    have hname : name = function := by simpa [isExcused] using h
    exact .inl ⟨id, hname ▸ rfl⟩
  | laneRange i => exact .inr ⟨i, rfl⟩
  | _ => cases h

namespace Env

variable {env : Env} {f : Function} {s : State}

theorem proceed_typed {store : Store} {x : Except RunError State}
    (h : Safely f.name x (·.Typed f)) : (proceed store x).Typed f := by
  cases x with
  | ok s => exact h
  | error e => exact h

theorem leave_typed (h : s.Typed f) {d : Datum} (hd : d.HasType f.result) : (leave s d).Typed f := by
  unfold leave
  rw [h.callers]
  exact hd

theorem step_typed (hf : f.WellTyped) (hs : s.Typed f) {i : Instruction} (hi : i ∈ f.instructions) :
    (env.step s i).Typed f := by
  obtain ⟨frame, callers, store⟩ := s
  have hframe : frame.Typed f := hs.frame
  have hsuits := hf.suits i hi
  have htyped := hf.typed i hi
  cases htyped with
  | define hrhs =>
    have hcompute := hframe.compute env hrhs hsuits store.memory
    unfold step
    dsimp only
    split
    . next e hrun =>
      rw [hrun] at hcompute
      exact hcompute
    . next d memory hrun =>
      rw [hrun] at hcompute
      obtain ⟨temps, hset, htemps⟩ := hframe.set hf hi hcompute
      apply proceed_typed
      rw [hset]
      exact ⟨htemps, hs.callers⟩
  | ret hty =>
    have hvalue := hframe.valueOf env (hsuits _ (List.mem_singleton_self _)) hty
    unfold step
    dsimp only
    split
    . next d hrun =>
      rw [hrun] at hvalue
      exact leave_typed hs hvalue
    . next e hrun =>
      rw [hrun] at hvalue
      exact hvalue
  | retVoid hvoid => exact leave_typed hs (hvoid ▸ .void)
  | branch => exact ⟨hframe.jump _, hs.callers⟩
  | branchIf hcondition =>
    apply proceed_typed
    refine (hframe.valueOf env (hsuits _ (List.mem_singleton_self _)) hcondition).bind fun c hc => ?_
    cases hc
    exact ⟨hframe.jump _, hs.callers⟩
  | unreachable => exact rfl
  | comment => exact hs

theorem next_typed (env : Env) (hf : f.WellTyped) (hs : s.Typed f) : (env.next s).Typed f := by
  unfold next
  split
  . exact rfl
  . next i rest hrest =>
    have hsub := hs.frame.rest
    rw [hrest] at hsub
    obtain ⟨hi, hsub⟩ := List.cons_subset.1 hsub
    have hcut : State.Typed f { s with frame := { s.frame with rest } } :=
      ⟨⟨hs.frame.function, hs.frame.room, hs.frame.temps, hsub⟩, hs.callers⟩
    exact step_typed hf hcut hi

theorem reaches_typed (hf : f.WellTyped) (hs : s.Typed f) {t : State} (h : env.Reaches s t) :
    t.Typed f := by
  refine Reaches.invariant ?_ hs h
  intro u v hu hnext
  have htyped := env.next_typed hf hu
  rw [hnext] at htyped
  exact htyped

theorem runFor_typed (hf : f.WellTyped) (hs : s.Typed f) (fuel steps : Nat) :
    Safely f.name (env.runFor fuel steps s).result (·.HasType f.result) := by
  rcases env.runFor_cases fuel steps s with ⟨t, -, -, hrun⟩ | ⟨n, t, -, -, -, hrun⟩ |
    ⟨n, t, result, store, -, ht, -, hend, hrun⟩
  . rw [hrun]
    exact rfl
  . rw [hrun]
    exact rfl
  . rw [hrun]
    have htyped := env.next_typed hf (reaches_typed hf hs ⟨n, ht⟩)
    rw [hend] at htyped
    exact htyped

theorem dispatch_wellTyped (depth : Nat) {name : String} (args : List Datum)
    (hfound : env.module.function? name = some f) (hdefined : f.isDeclaration = false)
    (hslots : f.params.length ≤ f.nextTemp) :
    env.dispatch depth name args = .frame (.enter f args) ∨
      ∃ e, env.dispatch depth name args = .refused e ∧ e.isExcused f.name := by
  unfold dispatch dispatchTo
  rw [hfound]
  dsimp only
  by_cases hfits :
    if f.variadic then f.params.length ≤ args.length else args.length = f.params.length
  . rw [if_neg (not_not_intro hfits), hdefined, if_neg Bool.false_ne_true]
    split
    . exact .inr ⟨_, rfl, rfl⟩
    . rw [if_neg (Nat.not_lt_of_ge hslots)]
      exact .inl rfl
  . rw [if_pos hfits]
    exact .inr ⟨_, rfl, rfl⟩

theorem run_typed {name : String} {args : List Datum} (store : Store) (hf : f.WellTyped)
    (hfound : env.module.function? name = some f) (hdefined : f.isDeclaration = false)
    (hargs : ∀ p ∈ List.zip args f.params, p.1.HasType p.2) :
    Safely f.name (env.run store name args).result (·.HasType f.result) := by
  unfold run
  rcases dispatch_wellTyped 0 args hfound hdefined hf.numbered.first_le with hframe | ⟨e, he, hexcused⟩
  . rw [hframe]
    exact runFor_typed hf ⟨.enter hf hargs, rfl⟩ _ _
  . rw [he]
    exact hexcused

end Env

theorem Function.wellTyped_editAll (name : String) (result : Ty) (params : List Ty) (variadic : Bool)
    (linkage : Linkage) (edits : List Edit) {f : Function}
    (hf : f = editAll { name, result, params, variadic, linkage } edits)
    (hcore : ∀ i ∈ f.instructions, i.isCore)
    (hoperands : ∀ i ∈ f.instructions, ∀ v ∈ i.operands, v.Suits f) : f.WellTyped := by
  have hheader : f.clearBody = _ := hf ▸ clearBody_editAll _ edits
  have hresult : f.result = result := congrArg Function.result hheader
  have hparams : f.params = params := congrArg Function.params hheader
  refine ⟨?_, hoperands, ?_⟩
  . intro i hi
    rw [hresult]
    refine typed_editAll ?_ edits i (hf ▸ hi) (hcore i hi)
    simp [instructions]
  . have hnew : Numbered params.length { name, result, params, variadic, linkage } :=
      .of_isDeclaration rfl (Nat.le_refl _)
    rw [hparams, hf]
    exact hnew.editAll (Nat.le_refl _) edits

/--
Take a function that was edited in any way and has a body of instructions of the core, with operands as
they should be. In a run of it on arguments of the types of the parameters, whatever a temporary holds
has the type that the temporary was given, the value that is returned has the type of the result, and
the only faults in the form of data are temporaries used before their definition and lanes out of range.
-/
theorem Machine.run_keeps_types (m : Machine) (name : String) (result : Ty) (params : List Ty)
    (variadic : Bool) (linkage : Linkage) (edits : List Function.Edit) (args : List Datum) {f : Function}
    (hf : f = Function.editAll { name, result, params, variadic, linkage } edits)
    (hcore : ∀ i ∈ f.instructions, i.isCore)
    (hoperands : ∀ i ∈ f.instructions, ∀ v ∈ i.operands, v.Suits f)
    (hdefined : f.isDeclaration = false) (hfound : m.env.module.function? name = some f)
    (hargs : ∀ p ∈ List.zip args params, p.1.HasType p.2) :
    (∀ frame s, m.env.dispatch 0 name args = .frame frame → m.env.Reaches ⟨frame, [], m.store⟩ s →
      ∀ id d, s.frame.temps[id]? = some (some d) → ∃ ty, f.tempTy? id = some ty ∧ d.HasType ty) ∧
    (∀ d, (m.run name args).1 = .ok d → d.HasType result) ∧
    ∀ fault, (m.run name args).1 = .error (.typeError fault) →
      (∃ id, fault = .undefinedTemp id name) ∨ ∃ i, fault = .laneRange i := by
  have hwell := Function.wellTyped_editAll name result params variadic linkage edits hf hcore hoperands
  have hheader : f.clearBody = _ := hf ▸ Function.clearBody_editAll _ edits
  have hname : f.name = name := congrArg Function.name hheader
  have hresult : f.result = result := congrArg Function.result hheader
  have hparams : f.params = params := congrArg Function.params hheader
  rw [← hparams] at hargs
  have hrun := Env.run_typed m.store hwell hfound hdefined hargs
  refine ⟨?_, ?_, ?_⟩
  . intro frame s hframe hreaches id d hd
    obtain ⟨g, hg, -, -, rfl⟩ := Env.dispatch_frame hframe
    cases hfound.symm.trans hg
    exact (Env.reaches_typed hwell ⟨.enter hwell hargs, rfl⟩ hreaches).frame.temps id d hd
  . intro d hd
    change (m.env.run m.store name args).result = .ok d at hd
    rw [hd] at hrun
    exact hresult ▸ hrun
  . intro fault hfault
    change (m.env.run m.store name args).result = .error (.typeError fault) at hfault
    rw [hfault, hname] at hrun
    exact RunError.fault_of_isExcused hrun

def pickingEdits : List Function.Edit := [
  .addBlock "entry",
  .build 0 none (.binary .add (.temp 1 .i32) (.const (.int .i32 1))),
  .build 0 none (.insertElement (.temp 0 (.vector 2 .i32)) (.temp 2 .i32) (.const (.int .i8 0))),
  .build 0 none (.extractElement (.temp 3 (.vector 2 .i32)) (.temp 2 .i32)),
  .build 0 none (.ret (some (.temp 4 .i32)))]

def picking : Function :=
  .editAll { name := "pick", result := .i32, params := [.vector 2 .i32, .i32], variadic := false }
    pickingEdits

theorem Machine.picking_keeps_types :
    let m : Machine := { env := { module := { name := "m", functions := [picking] }, limits := ⟨10, 4⟩ } }
    let lanes : Datum := .aggregate [.int 7, .int 8]
    ((m.run "pick" [lanes, .int 0]).1 = .ok (.int 8) ∧ Datum.HasType (.int 8) .i32) ∧
      ∃ fault, (m.run "pick" [lanes, .int 5]).1 = .error (.typeError fault) ∧
        ((∃ id, fault = .undefinedTemp id "pick") ∨ ∃ i, fault = .laneRange i) := by
  intro m lanes
  have hcore : ∀ i ∈ picking.instructions, i.isCore := by decide +kernel
  have hoperands : ∀ i ∈ picking.instructions, ∀ v ∈ i.operands, v.Suits picking := by
    have hconst {w : IntWidth} {v : Int64} (hv : Word.normalize w.bits v = v) :
        Value.Suits picking (.const (.int (.int w) v)) := .int hv
    have htemp {id : Temp} {ty : Ty} (hty : picking.tempTy? id = some ty) :
        Value.Suits picking (.temp id ty) := by
      intro given hgiven
      exact Option.some.inj (hgiven.symm.trans hty)
    have hinstructions : picking.instructions = [
        .define 2 (.binary .add (.temp 1 .i32) (.const (.int .i32 1)) .i32),
        .define 3 (.insertElement (.temp 0 (.vector 2 .i32)) (.temp 2 .i32) (.const (.int .i8 0))),
        .define 4 (.extractElement (.temp 3 (.vector 2 .i32)) (.temp 2 .i32) .i32),
        .ret (some (.temp 4 .i32))] := rfl
    rw [hinstructions]
    simp only [List.forall_mem_cons, Instruction.operands, Rhs.operands, Option.toList,
      List.not_mem_nil, false_implies, implies_true, and_true]
    exact ⟨⟨htemp rfl, hconst rfl⟩, ⟨htemp rfl, htemp rfl, hconst rfl⟩, ⟨htemp rfl, htemp rfl⟩,
      htemp rfl⟩
  have hargs (k : Int64) (hk : Word.normalize 32 k = k) :
      ∀ p ∈ List.zip [lanes, .int k] [.vector 2 .i32, .i32], p.1.HasType p.2 := by
    have hlanes : lanes.HasType (.vector 2 .i32) := by
      refine .vector rfl ?_
      simp only [List.forall_mem_cons, List.not_mem_nil, false_implies, implies_true, and_true]
      exact ⟨.int rfl, .int rfl⟩
    simp only [List.zip_cons_cons, List.zip_nil_right, List.forall_mem_cons, List.not_mem_nil,
      false_implies, implies_true, and_true]
    exact ⟨hlanes, .int hk⟩
  obtain ⟨-, hresult, -⟩ := Machine.run_keeps_types m "pick" .i32 [.vector 2 .i32, .i32] false .external
    pickingEdits [lanes, .int 0] rfl hcore hoperands rfl rfl (hargs 0 rfl)
  obtain ⟨-, -, hfault⟩ := Machine.run_keeps_types m "pick" .i32 [.vector 2 .i32, .i32] false .external
    pickingEdits [lanes, .int 5] rfl hcore hoperands rfl rfl (hargs 5 rfl)
  have hpicked : (m.run "pick" [lanes, .int 0]).1 = .ok (.int 8) := rfl
  have hmissed : (m.run "pick" [lanes, .int 5]).1 = .error (.typeError (.laneRange 6)) := rfl
  exact ⟨⟨hpicked, hresult _ hpicked⟩, _, hmissed, hfault _ hmissed⟩

end ScriptedIR
