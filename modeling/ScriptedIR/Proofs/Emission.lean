import ScriptedIR.Proofs.Soundness

/-!
What a request does to a function. One that is refused leaves the code as it is. One that is accepted
puts one instruction into the block of the builder and nothing anywhere else, with the next free
temporary as its result. That temporary is new if those that occur in the function are not free, which
holds of a new function and is kept by whatever is done with temporaries that are taken.
-/

namespace ScriptedIR

def Value.temp? : Value → Option Temp
  | temp id _ => some id
  | const _ => none

def Instruction.temps (i : Instruction) : List Temp :=
  i.result?.toList ++ i.operands.filterMap Value.temp?

namespace Request

def operands : Request → List Value
  | binary _ lhs rhs | icmp _ lhs rhs | fcmp _ lhs rhs | shuffle lhs rhs _ | ptrDiff lhs rhs =>
    [lhs, rhs]
  | cast _ v _ | free v | load v | extractValue v _ => [v]
  | alloca _ count | malloc _ count => count.toList
  | store v ptr => [v, ptr]
  | gep ptr indices => ptr :: indices
  | insertValue aggregate element _ => [aggregate, element]
  | extractElement vector index => [vector, index]
  | insertElement vector element index => [vector, element, index]
  | select condition ifTrue ifFalse => [condition, ifTrue, ifFalse]
  | call callee args => callee :: args
  | ret v => v.toList
  | branchIf condition _ _ => [condition]
  | branch _ | unreachable | comment _ => []

theorem check_operands (f : Function) (r : Request) :
    Yields (r.check f) fun draft => ∀ result, (draft.instruction result).operands = r.operands := by
  cases r with
  | ret value =>
    intro draft hcheck result
    cases check_drafted _ _ _ hcheck with
    | value hplain | call hplain => cases hplain
    | ret => rfl
  | _ =>
    unfold check
    dsimp only
    repeat' first
      | refine Yields.bind fun _ _ => ?_
      | exact .error
      | refine Yields.ok fun _ => ?_
      | split
    all_goals rfl

theorem Drafted.definition?_instruction {f : Function} {r : Request} {draft : Draft}
    (h : Drafted f r draft) (result : Temp) :
    (draft.instruction result).definition? = draft.ty?.map fun ty => (result, ty) := by
  cases h with
  | @call _ _ _ ty =>
    cases hty : ty.isVoid <;> simp [Draft.instruction, Instruction.definition?, Draft.ty?, hty]
  | _ => rfl

end Request

theorem Draft.nextTemp_le (draft : Draft) (result : Temp) : draft.nextTemp result ≤ result + 1 := by
  unfold nextTemp
  split
  . exact Nat.le_refl _
  . exact Nat.le_succ _

theorem Draft.nextTemp_eq (draft : Draft) (result : Temp) :
    draft.nextTemp result = result + draft.ty?.toList.length := by
  unfold nextTemp
  cases draft.ty? <;> rfl

theorem modifyFirst_append_cons {test : α → Bool} {change : α → α} {front back : List α} {a : α}
    (hfront : ∀ b ∈ front, test b = false) (ha : test a = true) :
    modifyFirst test change (front ++ a :: back) = front ++ change a :: back := by
  induction front with
  | nil => simp [modifyFirst, ha]
  | cons b front ih =>
    obtain ⟨hb, hfront⟩ := List.forall_mem_cons.1 hfront
    simp [modifyFirst, hb, ih hfront]

theorem Function.modifyBlock_splits {f : Function} {id : BlockId} {block : Block}
    (h : f.block? id = some block) :
    ∃ front back, f.blocks = front ++ block :: back ∧ block.id = id ∧ (∀ c ∈ front, c.id ≠ id) ∧
      ∀ change, f.modifyBlock id change = { f with blocks := front ++ change block :: back } := by
  obtain ⟨hid, front, back, hblocks, hfront⟩ := List.find?_eq_some_iff_append.1 h
  refine ⟨front, back, hblocks, by simpa using hid, by simpa using hfront, ?_⟩
  intro change
  have hchange : modifyFirst (·.id = id) change (front ++ block :: back) =
      front ++ change block :: back := modifyFirst_append_cons (by simpa using hfront) hid
  unfold modifyBlock
  rw [hblocks, hchange]

namespace Builder

theorem emit_splits {b c : Builder} {i : Instruction} (h : b.emit i = .ok c) :
    ∃ front block back before after, b.function.blocks = front ++ block :: back ∧
      block.id = b.block ∧ (∀ other ∈ front, other.id ≠ b.block) ∧ block.body = before ++ after ∧
      before.length = min (b.position.getD block.body.length) block.body.length ∧
      c.function = { b.function with
        blocks := front ++ { block with body := before ++ i :: after } :: back } := by
  obtain ⟨f, id, position⟩ := b
  simp only [emit, Function.block] at h
  cases hblock : f.block? id with
  | none => simp [hblock, bind, Except.bind] at h
  | some block =>
    simp only [hblock, bind, Except.bind] at h
    obtain ⟨front, back, hblocks, hid, hfront, hmodify⟩ := Function.modifyBlock_splits hblock
    cases position with
    | some position =>
      cases h
      refine ⟨front, block, back, block.body.take (min position block.body.length),
        block.body.drop (min position block.body.length), hblocks, hid, hfront,
        (List.take_append_drop ..).symm, ?_, hmodify _⟩
      rw [List.length_take, Option.getD_some]
      omega
    | none =>
      dsimp only at h
      split at h
      . cases h
      . cases h
        refine ⟨front, block, back, block.body, [], hblocks, hid, hfront, by simp, ?_, hmodify _⟩
        rw [Option.getD_none, Nat.min_self]

theorem build_of_error {b : Builder} {r : Request} {e : CodeError} (h : (b.build r).1 = .error e) :
    ∃ n, b.function.nextTemp ≤ n ∧ n ≤ b.function.nextTemp + 1 ∧
      (b.build r).2 = { b with function := { b.function with nextTemp := n } } := by
  unfold build at *
  split
  . exact ⟨_, Nat.le_refl _, Nat.le_succ _, rfl⟩
  . next draft hcheck =>
    simp only [hcheck] at h
    dsimp only
    rw [draft.newTemp_eq] at h ⊢
    split
    . next hemit => simp [hemit] at h
    . exact ⟨_, draft.le_nextTemp _, draft.nextTemp_le _, rfl⟩

theorem build_of_ok {b : Builder} {r : Request} {v : Option Value} (h : (b.build r).1 = .ok v) :
    ∃ draft, r.check b.function = .ok draft ∧ v = draft.ty?.map (.temp b.function.nextTemp) ∧
      emit { b with function :=
          { b.function with nextTemp := draft.nextTemp b.function.nextTemp } }
        (draft.instruction b.function.nextTemp) = .ok (b.build r).2 := by
  unfold build at *
  split
  . next hcheck => simp [hcheck] at h
  . next draft hcheck =>
    simp only [hcheck] at h
    dsimp only
    rw [draft.newTemp_eq] at h ⊢
    split
    . next hemit =>
      simp only [hemit] at h
      cases h
      exact ⟨draft, hcheck, rfl, hemit⟩
    . next hemit => simp [hemit] at h

end Builder

namespace Function

def temps (f : Function) : List Temp :=
  List.range f.params.length ++ f.instructions.flatMap Instruction.temps

def Counted (f : Function) : Prop := ∀ temp ∈ f.temps, temp < f.nextTemp

def Edit.Known (f : Function) : Edit → Prop
  | build _ _ r => ∀ temp ∈ r.operands.filterMap Value.temp?, temp < f.nextTemp
  | _ => True

inductive Made : Function → Prop
  | new (name : String) (result : Ty) (params : List Ty) (variadic : Bool) (linkage : Linkage) :
      Made { name, result, params, variadic, linkage }
  | edit {f : Function} {e : Edit} : Made f → e.Known f → Made (f.edit e)
  | insert {f g : Function} {id : BlockId} {position : Nat} {i : Instruction} : Made f →
      f.insertInstruction id position i = .ok g → (∀ temp ∈ i.temps, temp < f.nextTemp) → Made g

namespace Counted

variable {f g : Function} {id anchor : BlockId}

theorem of_isDeclaration (h : f.isDeclaration) (hle : f.params.length ≤ f.nextTemp) :
    f.Counted := by
  have hblocks : f.blocks = [] := List.isEmpty_iff.1 h
  intro temp htemp
  simp only [temps, instructions, hblocks, List.flatMap_nil, List.append_nil, List.mem_range] at htemp
  exact Nat.lt_of_lt_of_le htemp hle

theorem grow (h : f.Counted) (hparams : g.params = f.params) (hle : f.nextTemp ≤ g.nextTemp)
    (hnew : ∀ i ∈ g.instructions, i ∈ f.instructions ∨ ∀ temp ∈ i.temps, temp < g.nextTemp) :
    g.Counted := by
  intro temp htemp
  have hold : temp ∈ f.temps → temp < g.nextTemp := fun hmem => Nat.lt_of_lt_of_le (h temp hmem) hle
  unfold temps at htemp hold
  rcases List.mem_append.1 htemp with hparam | hcode
  . rw [hparams] at hparam
    exact hold (List.mem_append_left _ hparam)
  . obtain ⟨i, hi, hcode⟩ := List.mem_flatMap.1 hcode
    rcases hnew i hi with hi | hi
    . exact hold (List.mem_append_right _ (List.mem_flatMap.2 ⟨i, hi, hcode⟩))
    . exact hi temp hcode

theorem insert (h : f.Counted) {i : Instruction} {n : Temp} (hcode : f.code? id ≠ none)
    (place : Block → Nat) (hle : f.nextTemp ≤ n) (hi : ∀ temp ∈ i.temps, temp < n) :
    Counted { f.modifyBlock id fun block => block.insert (place block) i with nextTemp := n } := by
  refine h.grow rfl hle fun j hj => ?_
  rcases List.mem_cons.1 ((instructions_insert hcode place i).mem_iff.1 hj) with rfl | hj
  . exact .inr hi
  . exact .inl hj

theorem build {b : Builder} {r : Request} (h : b.function.Counted)
    (hknown : ∀ temp ∈ r.operands.filterMap Value.temp?, temp < b.function.nextTemp) :
    (b.build r).2.function.Counted := by
  obtain ⟨_, n, -, hle, hfunction⟩ | ⟨draft, place, hcheck, hcode, -, hfunction⟩ := b.build_cases r
  . rw [hfunction]
    exact h.grow rfl hle fun _ hi => .inl hi
  . rw [hfunction]
    apply h.insert hcode place (draft.le_nextTemp _)
    intro temp htemp
    -- the instruction names its result, which is taken now, and the operands of the request
    rw [Instruction.temps, (Request.check_drafted _ _ _ hcheck).result?_instruction,
      Request.check_operands _ _ _ hcheck] at htemp
    rcases List.mem_append.1 htemp with hresult | hoperand
    . unfold Draft.nextTemp
      split
      . next hty =>
        rw [if_pos hty, Option.toList_some, List.mem_singleton] at hresult
        rw [hresult]
        exact Nat.lt_succ_self _
      . next hty =>
        rw [if_neg hty] at hresult
        cases hresult
    . exact Nat.lt_of_lt_of_le (hknown temp hoperand) (draft.le_nextTemp _)

theorem relocate (h : f.Counted) {offset : Nat} (hle : offset ≤ 1) :
    (f.relocate id anchor offset).2.Counted := by
  cases hrun : (f.relocate id anchor offset).1 with
  | error e =>
    rw [relocate_error hrun]
    exact h
  | ok u =>
    have hmove : f.moveNear id anchor offset = .ok (f.relocate id anchor offset).2 := by
      rw [moveNear_eq_ok_iff, ← hrun]
    have hstatic := moveNear_static hmove
    apply h.grow
    . rw [hstatic]
    . exact Nat.le_of_eq (by rw [hstatic])
    . intro i hi
      exact .inl ((instructions_perm (moveNear_perm hmove hle)).mem_iff.1 hi)

theorem edit (h : f.Counted) {e : Edit} (hknown : e.Known f) : (f.edit e).Counted := by
  cases e with
  | addBlock label =>
    refine h.grow rfl (Nat.le_refl _) fun i hi => .inl ?_
    rwa [Function.edit, instructions_addBlock] at hi
  | newTemp => exact h.grow rfl (Nat.le_succ _) fun _ hi => .inl hi
  | build block position r => exact build (b := ⟨f, block, position⟩) h hknown
  | moveAfter id after => exact h.relocate (Nat.le_refl 1)
  | moveBefore id before => exact h.relocate (Nat.zero_le 1)
  | removeBlock id =>
    exact h.grow rfl (Nat.le_refl _) fun _ hi => .inl (instructions_removeBlock.subset hi)
  | clearBody => exact of_isDeclaration rfl (Nat.le_refl _)

theorem of_made (h : f.Made) : f.Counted := by
  induction h with
  | new => exact of_isDeclaration rfl (Nat.le_refl _)
  | edit _ hknown ih => exact ih.edit hknown
  | @insert f g id position i _ hinsert hi ih =>
    unfold insertInstruction Function.block at hinsert
    cases hblock : f.block? id with
    | none =>
      rw [hblock] at hinsert
      cases hinsert
    | some block =>
      rw [hblock] at hinsert
      cases hinsert
      exact ih.insert (by simp [code?, hblock]) (fun _ => position) (Nat.le_refl _) hi

end Counted

end Function

/--
A request that is refused leaves the builder and its function as they are, except that a temporary
may be used up. One that is accepted puts one instruction over its operands into the first block with
the number that the builder has, where the builder stands, and leaves everything else. The value is
the result of the instruction, with its type, in the next free temporary. That is new where no
temporary that occurs is free, as in all functions that are made from new ones.
-/
theorem Builder.build_leaves_rest (b : Builder) (r : Request) :
    (∀ e, (b.build r).1 = .error e → ∃ n, b.function.nextTemp ≤ n ∧ n ≤ b.function.nextTemp + 1 ∧
      (b.build r).2 = { b with function := { b.function with nextTemp := n } }) ∧
    (∀ v, (b.build r).1 = .ok v → ∃ front block back before i after,
      b.function.blocks = front ++ block :: back ∧ block.id = b.block ∧
      (∀ other ∈ front, other.id ≠ b.block) ∧ block.body = before ++ after ∧
      before.length = min (b.position.getD block.body.length) block.body.length ∧
      (b.build r).2.function = { b.function with
        blocks := front ++ { block with body := before ++ i :: after } :: back
        nextTemp := b.function.nextTemp + i.definition?.toList.length } ∧
      i.operands = r.operands ∧ v = i.definition?.map (fun d => .temp d.1 d.2) ∧
      ∀ temp ty, i.definition? = some (temp, ty) → temp = b.function.nextTemp ∧
        (b.function.Counted → temp ∉ b.function.temps)) ∧
    (b.function.Made → b.function.Counted) := by
  refine ⟨fun e h => build_of_error h, ?_, Function.Counted.of_made⟩
  intro v h
  obtain ⟨draft, hcheck, rfl, hemit⟩ := build_of_ok h
  have hdefinition := (Request.check_drafted _ _ _ hcheck).definition?_instruction b.function.nextTemp
  obtain ⟨front, block, back, before, after, hblocks, hid, hfront, hbody, hlength, hfunction⟩ :=
    emit_splits hemit
  refine ⟨front, block, back, before, draft.instruction b.function.nextTemp, after, hblocks, hid,
    hfront, hbody, hlength, ?_, Request.check_operands _ _ _ hcheck _, ?_, ?_⟩
  . rw [hfunction, hdefinition, draft.nextTemp_eq]
    cases draft.ty? <;> rfl
  . rw [hdefinition, Option.map_map]
    rfl
  . intro temp ty hsome
    rw [hdefinition] at hsome
    obtain ⟨_, -, hpair⟩ := Option.map_eq_some_iff.1 hsome
    cases hpair
    refine ⟨rfl, fun hcounted hmem => ?_⟩
    exact Nat.lt_irrefl _ (hcounted _ hmem)

namespace Function

def slotted : Function :=
  editAll ⟨"f", .void, [.i32], false, .external, [], 1, 0⟩
    [.addBlock "a", .build 0 none (.alloca .i32 (some (.temp 0 .i32))),
      .build 7 none (.alloca .i32 none)]

theorem slotted_made : slotted.Made := by
  unfold slotted editAll
  simp only [List.foldl_cons, List.foldl_nil]
  apply Made.edit _ (by simp [Edit.Known, Request.operands])
  apply Made.edit _ (by simp [Edit.Known, Request.operands, Value.temp?, Function.edit, addBlock])
  exact .edit (.new "f" .void [.i32] false .external) trivial

theorem slotted_leaves_rest :
    (∃ c, Builder.build ⟨slotted, 0, some 0⟩ (.load (.temp 1 (.pointer .i32))) =
        (.ok (some (.temp 3 .i32)), c) ∧ 3 ∉ slotted.temps ∧
      c.function.blocks = [⟨0, "a", [.define 3 (.load (.temp 1 (.pointer .i32)) .i32),
        .define 1 (.alloca .i32 (some (.temp 0 .i32)))]⟩]) ∧
    ∃ n, 3 ≤ n ∧ n ≤ 4 ∧
      (Builder.build ⟨slotted, 0, none⟩
        (.store (.temp 1 (.pointer .i32)) (.temp 1 (.pointer .i32)))).2.function =
        { slotted with nextTemp := n } := by
  constructor
  . obtain ⟨-, hok, hmade⟩ :=
      Builder.build_leaves_rest ⟨slotted, 0, some 0⟩ (.load (.temp 1 (.pointer .i32)))
    obtain ⟨_, _, _, _, i, _, _, _, _, _, _, _, _, hvalue, hnew⟩ := hok _ rfl
    obtain ⟨⟨temp, ty⟩, hdefinition, hpair⟩ := Option.map_eq_some_iff.1 hvalue.symm
    cases hpair
    exact ⟨_, rfl, (hnew _ _ hdefinition).2 (hmade slotted_made), rfl⟩
  . obtain ⟨herror, -, -⟩ := Builder.build_leaves_rest ⟨slotted, 0, none⟩
      (.store (.temp 1 (.pointer .i32)) (.temp 1 (.pointer .i32)))
    obtain ⟨n, hge, hle, hbuilder⟩ := herror _ rfl
    exact ⟨n, hge, hle, congrArg Builder.function hbuilder⟩

/--
An instruction that was inserted with a free temporary has that one in common with the next result.
-/
theorem inserted_temp_taken_twice :
    ∃ f, (addBlock ⟨"f", .void, [], false, .external, [], 0, 0⟩ "a").2.insertInstruction 0 0
        (.define 0 (.alloca .i32 none)) = .ok f ∧ 0 ∈ f.temps ∧
      (Builder.build ⟨f, 0, none⟩ (.alloca .i32 none)).1 = .ok (some (.temp 0 (.pointer .i32))) :=
  ⟨_, rfl, by decide, rfl⟩

end Function

end ScriptedIR
