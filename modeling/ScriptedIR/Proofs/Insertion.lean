import ScriptedIR.Proofs.Emission

/-!
Many requests to one inserting builder. The instructions of those that are accepted line up in the order
of the requests, between what stood in front of the place of the builder and what stood behind it.
Those that are refused do not move the place, and which ones are refused does not depend on what was
built before them.
-/

namespace ScriptedIR

def Instruction.value? (i : Instruction) : Option Value :=
  i.definition?.map fun d => .temp d.1 d.2

theorem Function.isSome_block? (f : Function) (id : BlockId) :
    (f.block? id).isSome ↔ id ∈ f.blocks.map Block.id := by
  simp [block?]

namespace Request

/--
What becomes of requests in a function, one after the other, if the first result goes to the temporary
`next`: an instruction, or the reason why there is none.
-/
def outcomes (f : Function) (next : Temp) : List Request → List (Except CodeError Instruction)
  | [] => []
  | r :: rs =>
    match r.check f with
    | .ok draft => .ok (draft.instruction next) :: outcomes f (draft.nextTemp next) rs
    | .error e => .error e :: outcomes f next rs

theorem check_of_ids {f g : Function} (hname : g.name = f.name) (hresult : g.result = f.result)
    (hids : g.blocks.map Block.id = f.blocks.map Block.id) (r : Request) :
    r.check g = r.check f := by
  have hblock (id : BlockId) : (discard <| g.block id) = (discard <| f.block id) := by
    have hfound : (g.block? id).isSome = (f.block? id).isSome := by
      rw [Bool.eq_iff_iff, g.isSome_block?, f.isSome_block?, hids]
    unfold Function.block
    cases hg : g.block? id <;> cases hf : f.block? id <;> simp [hg, hf] at hfound
    . rw [hname]
    . rfl
  cases r with
  | ret value => cases value <;> simp only [check, hresult]
  | branch | branchIf => simp only [check, hblock]
  | _ => rfl

theorem Drafted.nextTemp_add {f : Function} {r : Request} {draft : Draft} (h : Drafted f r draft)
    (next : Temp) (is : List Instruction) :
    draft.nextTemp next + (is.filterMap Instruction.definition?).length =
      next + ((draft.instruction next :: is).filterMap Instruction.definition?).length := by
  rw [draft.nextTemp_eq, List.filterMap_cons, h.definition?_instruction]
  cases draft.ty? with
  | none => rfl
  | some ty => exact Nat.add_right_comm ..

end Request

def Function.withBody (f : Function) (front : List Block) (block : Block) (back : List Block)
    (body : List Instruction) (next : Temp) : Function :=
  { f with blocks := front ++ { block with body } :: back, nextTemp := next }

theorem Request.check_withBody {f : Function} {front back : List Block} {block : Block}
    (hblocks : f.blocks = front ++ block :: back) (body : List Instruction) (next : Temp)
    (r : Request) : r.check (f.withBody front block back body next) = r.check f := by
  apply check_of_ids
  . rfl
  . rfl
  . simp [Function.withBody, hblocks]

namespace Builder

def buildAll (b : Builder) : List Request → List (Except CodeError (Option Value)) × Builder
  | [] => ([], b)
  | r :: rs =>
    let (answer, b) := b.build r
    let (answers, b) := b.buildAll rs
    (answer :: answers, b)

theorem buildAll_cons (b : Builder) (r : Request) (rs : List Request) :
    b.buildAll (r :: rs) =
      ((b.build r).1 :: ((b.build r).2.buildAll rs).1, ((b.build r).2.buildAll rs).2) := rfl

theorem build_of_emit {b c : Builder} {r : Request} {draft : Draft}
    (hcheck : r.check b.function = .ok draft)
    (hemit : emit { b with function :=
        { b.function with nextTemp := draft.nextTemp b.function.nextTemp } }
      (draft.instruction b.function.nextTemp) = .ok c) :
    b.build r = (.ok (draft.instruction b.function.nextTemp).value?, c) := by
  have hvalue : draft.ty?.map (.temp b.function.nextTemp) =
      (draft.instruction b.function.nextTemp).value? := by
    rw [Instruction.value?, (Request.check_drafted _ _ _ hcheck).definition?_instruction,
      Option.map_map]
    rfl
  unfold build
  simp only [hcheck, draft.newTemp_eq, hemit, hvalue]

section WithBody

variable {f : Function} {front back : List Block} {block : Block} {before rest : List Instruction}
  {next : Temp} {k : Nat}

theorem emit_withBody (hfront : ∀ other ∈ front, other.id ≠ block.id)
    (hk : min k (before ++ rest).length = before.length) (i : Instruction) :
    emit ⟨f.withBody front block back (before ++ rest) next, block.id, some k⟩ i =
      .ok ⟨f.withBody front block back (before ++ i :: rest) next, block.id,
        some (before.length + 1)⟩ := by
  have hblock : (f.withBody front block back (before ++ rest) next).block? block.id =
      some { block with body := before ++ rest } :=
    List.find?_eq_some_iff_append.2 ⟨by simp, front, back, rfl, by simpa using hfront⟩
  have hmodify : (f.withBody front block back (before ++ rest) next).modifyBlock block.id
      (·.insert before.length i) = f.withBody front block back (before ++ i :: rest) next := by
    unfold Function.modifyBlock Function.withBody
    rw [modifyFirst_append_cons (by simpa using hfront) (by simp)]
    simp [Block.insert]
  unfold emit Function.block
  simp only [hblock, bind, Except.bind, hk, hmodify]
  rfl

theorem build_withBody_of_error (hblocks : f.blocks = front ++ block :: back)
    {body : List Instruction} {r : Request} {e : CodeError} (hcheck : r.check f = .error e) :
    build ⟨f.withBody front block back body next, block.id, some k⟩ r =
      (.error e, ⟨f.withBody front block back body next, block.id, some k⟩) := by
  unfold build
  simp only [Request.check_withBody hblocks, hcheck]

theorem build_withBody_of_ok (hblocks : f.blocks = front ++ block :: back)
    (hfront : ∀ other ∈ front, other.id ≠ block.id)
    (hk : min k (before ++ rest).length = before.length) {r : Request} {draft : Draft}
    (hcheck : r.check f = .ok draft) :
    build ⟨f.withBody front block back (before ++ rest) next, block.id, some k⟩ r =
      (.ok (draft.instruction next).value?,
        ⟨f.withBody front block back (before ++ draft.instruction next :: rest)
          (draft.nextTemp next), block.id, some (before.length + 1)⟩) := by
  apply build_of_emit
  . rw [Request.check_withBody hblocks]
    exact hcheck
  . exact emit_withBody hfront hk _

theorem buildAll_withBody (hblocks : f.blocks = front ++ block :: back)
    (hfront : ∀ other ∈ front, other.id ≠ block.id)
    (hk : min k (before ++ rest).length = before.length) (next : Temp) (requests : List Request) :
    let outcomes := Request.outcomes f next requests
    let built := outcomes.filterMap Except.toOption
    let b : Builder := ⟨f.withBody front block back (before ++ rest) next, block.id, some k⟩
    let run := b.buildAll requests
    run.1 = outcomes.map (Except.map Instruction.value?) ∧
    run.2.function = f.withBody front block back (before ++ built ++ rest)
      (next + (built.filterMap Instruction.definition?).length) := by
  induction requests generalizing before k next with
  | nil => simp [Request.outcomes, buildAll]
  | cons r rs ih =>
    dsimp only
    rw [buildAll_cons, Request.outcomes]
    cases hcheck : r.check f with
    | error e =>
      obtain ⟨hanswers, hfunction⟩ := ih hk next
      rw [build_withBody_of_error hblocks hcheck]
      exact ⟨congrArg (_ :: ·) hanswers, hfunction⟩
    | ok draft =>
      -- what was built last belongs to the part in front of the builder now
      have hnext : min (before.length + 1) (before ++ [draft.instruction next] ++ rest).length =
          (before ++ [draft.instruction next]).length := by simp
      obtain ⟨hanswers, hfunction⟩ := ih hnext (draft.nextTemp next)
      have hdraft := Request.check_drafted _ _ _ hcheck
      rw [build_withBody_of_ok hblocks hfront hk hcheck]
      rw [List.append_assoc, List.singleton_append] at hanswers hfunction
      rw [hdraft.nextTemp_add, List.append_assoc before] at hfunction
      exact ⟨congrArg (_ :: ·) hanswers, hfunction⟩

end WithBody

theorem build_of_missing {b : Builder} (h : b.function.block? b.block = none) (r : Request) :
    ∃ e n, b.build r = (.error e, { b with function := { b.function with nextTemp := n } }) := by
  cases hanswer : (b.build r).1 with
  | error e =>
    obtain ⟨n, -, -, hbuilder⟩ := build_of_error hanswer
    exact ⟨e, n, Prod.ext hanswer hbuilder⟩
  | ok v =>
    obtain ⟨draft, -, -, hemit⟩ := build_of_ok hanswer
    obtain ⟨front, block, back, _, _, hblocks, hid, -⟩ := emit_splits hemit
    have hmem : block ∈ front ++ block :: back := List.mem_append_cons_self
    rw [← hblocks] at hmem
    have hne : block.id ≠ b.block := by simpa using List.find?_eq_none.1 h block hmem
    exact absurd hid hne

theorem buildAll_of_missing {b : Builder} (h : b.function.block? b.block = none)
    (requests : List Request) :
    (∀ answer ∈ (b.buildAll requests).1, ∃ e, answer = .error e) ∧
      ∃ n, (b.buildAll requests).2.function = { b.function with nextTemp := n } := by
  induction requests generalizing b with
  | nil => exact ⟨by simp [buildAll], _, rfl⟩
  | cons r rs ih =>
    obtain ⟨e, n, hbuild⟩ := build_of_missing h r
    rw [buildAll_cons, hbuild]
    obtain ⟨hanswers, m, hfunction⟩ :=
      ih (b := { b with function := { b.function with nextTemp := n } }) h
    exact ⟨List.forall_mem_cons.2 ⟨⟨e, rfl⟩, hanswers⟩, m, hfunction⟩

/--
However many requests a builder gets that was started at the place `k` of a block, its answers are those
of the requests one by one, and what it has built stands in their order behind the first `k`
instructions that the block had, or behind all of them if there are fewer. The other instructions
follow, and nothing else of the function changes but the temporaries taken. In a block that does not
exist nothing is built.
-/
theorem insertions_keep_order (f : Function) (id : BlockId) (k : Nat) (requests : List Request) :
    let outcomes := Request.outcomes f f.nextTemp requests
    let built := outcomes.filterMap Except.toOption
    let run := buildAll ⟨f, id, some k⟩ requests
    (∀ block, f.block? id = some block →
      run.1 = outcomes.map (Except.map Instruction.value?) ∧
      ∃ front back before rest, f.blocks = front ++ block :: back ∧ block.id = id ∧
        (∀ other ∈ front, other.id ≠ id) ∧ block.body = before ++ rest ∧
        before.length = min k block.body.length ∧
        run.2.function = { f with
          blocks := front ++ { block with body := before ++ built ++ rest } :: back
          nextTemp := f.nextTemp + (built.filterMap Instruction.definition?).length }) ∧
    (f.block? id = none →
      (∀ answer ∈ run.1, ∃ e, answer = .error e) ∧
        ∃ n, run.2.function = { f with nextTemp := n }) := by
  intro outcomes built run
  refine ⟨?_, fun hmissing => buildAll_of_missing hmissing requests⟩
  intro block hblock
  obtain ⟨front, back, hblocks, rfl, hfront, -⟩ := Function.modifyBlock_splits hblock
  have hbody : block.body.take k ++ block.body.drop k = block.body := List.take_append_drop ..
  have hk : min k (block.body.take k ++ block.body.drop k).length = (block.body.take k).length := by
    rw [hbody, List.length_take]
  have hstart :
      f.withBody front block back (block.body.take k ++ block.body.drop k) f.nextTemp = f := by
    rw [hbody, Function.withBody, ← hblocks]
  obtain ⟨hanswers, hfunction⟩ := buildAll_withBody hblocks hfront hk f.nextTemp requests
  rw [hstart] at hanswers hfunction
  exact ⟨hanswers, front, back, block.body.take k, block.body.drop k, hblocks, rfl, hfront,
    hbody.symm, List.length_take, hfunction⟩

end Builder

namespace Function

def forwarding : Function :=
  editAll ⟨"f", .void, [.i32], false, .external, [], 1, 0⟩
    [.addBlock "a", .addBlock "b", .build 0 none (.alloca .i32 none), .build 0 none (.branch 1)]

theorem forwarding_keeps_order :
    let slot := Value.temp 1 (.pointer .i32)
    let requests :=
      [.load slot, .store slot slot, .store (.temp 2 .i32) slot, .branch 7, .comment "end"]
    let built := [.define 2 (.load slot .i32), .store (.temp 2 .i32) slot, .comment "end"]
    let run := Builder.buildAll ⟨forwarding, 0, some 1⟩ requests
    run.1 = [.ok (some (.temp 2 .i32)), .error (.typeMismatch "store" (.type .i32) (.pointer .i32)),
      .ok none, .error (.unknownBlock "f" 7), .ok none] ∧
    (∃ front block back before rest, forwarding.blocks = front ++ block :: back ∧ block.id = 0 ∧
      block.body = before ++ rest ∧ before.length = 1 ∧
      run.2.function.blocks = front ++ { block with body := before ++ built ++ rest } :: back) ∧
    ∃ n, (Builder.buildAll ⟨forwarding, 7, some 1⟩ requests).2.function =
      { forwarding with nextTemp := n } := by
  intro slot requests built run
  obtain ⟨hbuilt, -⟩ := Builder.insertions_keep_order forwarding 0 1 requests
  obtain ⟨-, hmissing⟩ := Builder.insertions_keep_order forwarding 7 1 requests
  obtain ⟨hanswers, front, back, before, rest, hblocks, hid, -, hbody, hlength, hfunction⟩ :=
    hbuilt _ rfl
  exact ⟨hanswers, ⟨front, _, back, before, rest, hblocks, hid, hbody, hlength,
    congrArg Function.blocks hfunction⟩, (hmissing rfl).2⟩

end Function

end ScriptedIR
