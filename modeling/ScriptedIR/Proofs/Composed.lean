import ScriptedIR.Proofs.Course

/-!
Computations that are made of what a generator can do. Which operation comes next may depend on all
that was seen so far, and a failure may be caught. The operations of the generator are such
computations if the parts that they are given are, and so are all scripts.
-/

namespace ScriptedIR

namespace Gen

inductive Composed : {α : Type} → Gen α → Prop
  | pure {α : Type} (a : α) : Composed (pure a)
  | throw {α : Type} (e : ScriptError) : Composed (throw e : Gen α)
  | bind {α β : Type} {x : Gen α} {f : α → Gen β} :
      Composed x → (∀ a, Composed (f a)) → Composed (x >>= f)
  | tryCatch {α : Type} {x : Gen α} {f : ScriptError → Gen α} :
      Composed x → (∀ e, Composed (f e)) → Composed (tryCatch x f)
  | get : Composed get
  | append (block : BlockId) (r : Request) : Composed (emitAt block none r)
  | allocate (block : BlockId) (ty : Ty) : Composed (emitAt block (some 0) (.alloca ty none))
  | convert (o : Operand) (hint : Option Hint) : Composed (convert o hint)
  | newBlock (label : String) : Composed (newBlock label)
  | move (block after : BlockId) : Composed (modifyFunction (·.moveAfter block after))
  | returns (slot : Option Value) (block : BlockId) :
      Composed (modify fun s => { s with returnSlot := slot, returnBlock := some block })
  | aside {change : GenState → GenState} :
      (∀ s, s.SameCode (change s) ∧ (change s).library = s.library) → Composed (modify change)
  | onCursor {α : Type} {x : Gen α} (cursor : Cursor) : Composed x → Composed (onCursor cursor x)
  | withNames {α : Type} {x : Gen α} (names : Names Operand) :
      Composed x → Composed (withNames names x)

namespace Composed

theorem invariant {I : GenState → Prop} (hI : Loose I fun _ => True) {x : Gen α} (hx : Composed x)
    {s : GenState} (hs : I s) : I (exec x s).2 := by
  -- a computation that fails keeps the state that it came to, in which the assertion holds as well
  induction hx generalizing s with
  | pure | throw | get => exact hs
  | bind _ _ ihx ihf =>
    have hkept := ihx hs
    rw [exec_bind]
    split
    . next hrun =>
      rw [hrun] at hkept
      exact ihf _ hkept
    . next hrun =>
      rw [hrun] at hkept
      exact hkept
  | tryCatch _ _ ihx ihf =>
    have hkept := ihx hs
    rw [exec_tryCatch]
    split
    . next hrun =>
      rw [hrun] at hkept
      exact hkept
    . next hrun =>
      rw [hrun] at hkept
      exact ihf _ hkept
  | append block r => exact hI.appends block r hs
  | allocate block ty => exact hI.allocates block ty hs
  | convert o hint =>
    exact hI.same hs ⟨rfl, Operand.convert_keepsFunctions o hint _, List.Subset.refl _⟩
  | newBlock label => exact (hI.grows label hs).1
  | move block after =>
    simp only [exec, modifyFunction]
    split
    . next hmove => exact hI.move hs trivial hmove
    . exact hs
  | returns slot block => exact hI.returns slot hs trivial
  | aside hchange => exact hI.same hs (hchange s).1
  | onCursor cursor _ ih =>
    have hkept := ih (hI.same hs (t := { s with cursor }) ⟨rfl, rfl, List.Subset.refl _⟩)
    exact hI.same hkept ⟨rfl, rfl, List.Subset.refl _⟩
  | withNames names _ ih =>
    have hkept := ih (hI.same hs (t := { s with names, handles := ∅ })
      ⟨rfl, rfl, List.Subset.refl _⟩)
    exact hI.same hkept ⟨rfl, rfl, List.Subset.refl _⟩

theorem follows {x : Gen α} (hx : Composed x) (s : GenState) : s.Follows (exec x s).2 :=
  hx.invariant (GenState.Follows.loose s) ⟨rfl, rfl, rfl, rfl⟩

section Operations

theorem ite {p : Prop} [Decidable p] {x y : Gen α} (hx : Composed x) (hy : Composed y) :
    Composed (if p then x else y) := by
  split
  . exact hx
  . exact hy

theorem mapM {f : α → Gen β} (h : ∀ a, Composed (f a)) (o : Option α) : Composed (o.mapM f) := by
  cases o with
  | none => exact .pure _
  | some a => exact (h a).bind fun _ => .pure _

theorem within (f : Surroundings → Except ScriptError α) : Composed (within f) := by
  refine Composed.bind (Composed.get.bind fun _ => .pure _) fun env => ?_
  cases hf : f env with
  | ok a => exact .pure a
  | error e => exact .throw e

theorem requireOpen : Composed requireOpen :=
  Composed.get.bind fun _ => .ite (.throw _) (.pure _)

theorem emit (r : Request) : Composed (emit r) :=
  requireOpen.bind fun _ => Composed.get.bind fun _ => .append _ r

theorem of_straight {x : Gen α} (hx : Straight x) : Composed x := by
  induction hx with
  | pure a => exact .pure a
  | throw e => exact .throw e
  | bind _ _ ihx ihf => exact ihx.bind ihf
  | emit _ => exact emit _
  | convert o hint => exact .convert o hint
  | within f => exact .within f
  | get _ _ ih => exact Composed.get.bind ih

theorem moveCursor (change : Cursor → Cursor) : Composed (moveCursor change) :=
  .aside fun _ => ⟨⟨rfl, rfl, List.Subset.refl _⟩, rfl⟩

theorem record (e : Event) : Composed (record e) :=
  .aside fun _ => ⟨⟨rfl, rfl, List.subset_append_left _ _⟩, rfl⟩

theorem noting {x : Gen Unit} (hx : Composed x) (direct : Bool) : Composed (noting direct x) :=
  Composed.get.bind fun _ => hx.bind fun _ => record _

theorem bindName (name : Option String) (o : Operand) : Composed (bindName name o) := by
  cases name with
  | none => exact .pure _
  | some name => exact .aside fun _ => ⟨⟨rfl, rfl, List.Subset.refl _⟩, rfl⟩

theorem bindHandle (name : Option String) (handle : BlockHandle) :
    Composed (bindHandle name handle) := by
  cases name with
  | none => exact .pure _
  | some name => exact .aside fun _ => ⟨⟨rfl, rfl, List.Subset.refl _⟩, rfl⟩

theorem bindAll (names : List String) (vs : List Value) : Composed (bindAll names vs) := by
  unfold Gen.bindAll
  induction names.zip vs with
  | nil => exact .pure _
  | cons p ps ih => exact (bindName _ _).bind fun _ => ih

theorem cursorAt (block : BlockId) : Composed (cursorAt block) :=
  Composed.get.bind fun _ => .pure _

theorem inBlock (label : String) {x : Gen Unit} (hx : Composed x) : Composed (inBlock label x) :=
  (newBlock label).bind fun _ => (cursorAt _).bind fun _ => (hx.onCursor _).bind fun _ => .pure _

theorem isEmptyBlock (block : BlockId) : Composed (isEmptyBlock block) := by
  refine Composed.get.bind fun s => ?_
  split
  . exact .pure _
  . exact .throw _

theorem unlessFinished {x : Gen Unit} (hx : Composed x) : Composed (unlessFinished x) :=
  Composed.get.bind fun _ => .ite hx (.pure _)

theorem close (r : Request) : Composed (do let _ ← Gen.emit r; finish) :=
  (emit r).bind fun _ => moveCursor _

theorem branch (target : BlockId) : Composed (branch target) := unlessFinished (close _)

theorem returnBlock : Composed returnBlock := by
  refine Composed.get.bind fun s => ?_
  dsimp only
  split
  . exact .pure _
  . refine (newBlock _).bind fun block => ?_
    have hset (slot : Option Value) : Composed (do
        modify fun s => { s with returnSlot := slot, returnBlock := some block }
        return block) :=
      (returns slot block).bind fun _ => .pure _
    split
    . exact (append _ _).bind fun _ => hset _
    . exact (allocate _ _).bind fun _ => (append _ _).bind fun _ => (append _ _).bind fun _ => hset _

theorem fillReturnSlot (a : Operand) : Composed (fillReturnSlot a) := by
  refine Composed.get.bind fun s => ?_
  split
  . exact .ite ((convert _ _).bind fun _ => (emit _).bind fun _ => .pure _) (.pure _)
  . exact .pure _

theorem ret (a : Operand) : Composed (ret a) :=
  unlessFinished <| Composed.get.bind fun _ => .ite (close _) <|
    returnBlock.bind fun _ => (fillReturnSlot a).bind fun _ => close _

theorem conditionalRet (condition a : Operand) (otherwise : Option BlockId) :
    Composed (conditionalRet condition a otherwise) := by
  refine unlessFinished <| (convert _ _).bind fun _ => returnBlock.bind fun _ =>
    (fillReturnSlot a).bind fun _ => ?_
  split
  . exact close _
  . exact (newBlock _).bind fun _ => (emit _).bind fun _ => moveCursor _

theorem directRet (a : Operand) : Composed (directRet a) := by
  refine unlessFinished <| Composed.get.bind fun _ => .ite (close _) (.ite ?_ ?_)
  . exact (Composed.throw _).bind fun _ => (convert _ _).bind fun _ => close _
  . exact (convert _ _).bind fun _ => close _

theorem prepareRet (a : Operand) : Composed (prepareRet a) :=
  unlessFinished <| returnBlock.bind fun _ => fillReturnSlot a

theorem buildArm (label : String) {arm : Arm (Gen Unit) BlockHandle}
    (h : ∀ x, arm = .body x → Composed x) : Composed (buildArm label arm) := by
  cases arm with
  | body x => exact inBlock label (h x rfl)
  | built handle => exact .pure _

theorem joinArm (arm : BlockHandle) (exit : BlockId) : Composed (joinArm arm exit) :=
  .ite ((cursorAt _).bind fun _ => ((branch _).onCursor _).bind fun _ => .pure _) (.pure _)

theorem moveBehind (block after : BlockId) : Composed (moveBehind block after) :=
  .ite (move block after) (.pure _)

theorem continueAt (exit : BlockId) (given : Bool) : Composed (continueAt exit given) :=
  .ite (moveCursor _) (moveCursor _)

theorem condExit (given : Option BlockId) (isBody : Bool) (arm : BlockHandle) :
    Composed (condExit given isBody arm) := by
  unfold Gen.condExit
  split
  . exact .pure _
  . split
    . exact (isEmptyBlock _).bind fun _ => .ite (.pure _) (newBlock _)
    . exact newBlock _

theorem cond (condition : Operand) {ifTrue : Arm (Gen Unit) BlockHandle}
    {ifFalse : Option (Arm (Gen Unit) BlockHandle)} (hx : ∀ x, ifTrue = .body x → Composed x)
    (hy : ∀ x, ifFalse = some (.body x) → Composed x) (given : Option BlockId) :
    Composed (cond condition ifTrue ifFalse given) := by
  refine requireOpen.bind fun _ => (convert _ _).bind fun _ => (buildArm _ hx).bind fun _ => ?_
  refine (condExit _ _ _).bind fun _ => (joinArm _ _).bind fun _ => Composed.bind ?_ fun _ => ?_
  . cases ifFalse with
    | none => exact .pure _
    | some y =>
      refine Composed.bind ?_ fun _ => .pure _
      refine (buildArm _ fun x hx => hy x (hx ▸ rfl)).bind fun _ => ?_
      exact (joinArm _ _).bind fun _ => .pure _
  . exact (moveBehind _ _).bind fun _ => (emit _).bind fun _ => continueAt _ _

theorem loopHeader : Composed loopHeader := by
  have hnew : Composed (do let header ← Gen.newBlock "loop"; Gen.branch header; return header) :=
    (newBlock _).bind fun _ => (branch _).bind fun _ => .pure _
  refine Composed.get.bind fun s => ?_
  dsimp only
  split
  . exact hnew
  . exact (isEmptyBlock _).bind fun _ => .ite (.pure _) hnew

theorem inLoop {x : Gen Unit} (hx : Composed x) (next exit block : BlockId) :
    Composed (inLoop next exit block x) :=
  (cursorAt _).bind fun _ => (hx.onCursor _).bind fun _ => .pure _

structure Parts (parts : LoopParts) : Prop where
  compare : ∀ {run}, parts.compare = some run → ∀ vs, Composed (run vs)
  body : ∀ {run}, parts.body = some run → ∀ vs, Composed (run vs)
  increment : ∀ {run}, parts.increment = some run → ∀ vs, Composed (run vs)

theorem loop {parts : LoopParts} (h : Parts parts) : Composed (loop parts) := by
  have hleave : Composed parts.leave := by
    unfold LoopParts.leave
    split
    . exact .pure _
    . exact newBlock _
  have horNew (needed : Bool) (label : String) (block : BlockId) :
      Composed (orNewBlock needed label block) := .ite (newBlock _) (.pure _)
  have hbody (slots : List Value) (header body increment exit : BlockId) :
      Composed (parts.bodyPart slots header body increment exit) := by
    refine .ite (inLoop ?_ _ _ _) (.pure _)
    unfold LoopParts.turn
    split
    . next hrun =>
      exact (of_straight (loadAll_straight _)).bind fun vs => (h.body hrun vs).bind fun _ => branch _
    . exact branch _
  have htest (slots : List Value) (header body increment exit last : BlockId) :
      Composed (parts.testPart slots header body increment exit last) := by
    unfold LoopParts.testPart LoopParts.test
    split
    . next hrun =>
      refine (inLoop ?_ _ _ _).bind fun _ => .pure _
      exact (of_straight (loadAll_straight _)).bind fun vs => (h.compare hrun vs).bind fun _ =>
        (convert _ _).bind fun _ => close _
    . exact .pure _
  have hincrement (slots : List Value) (header increment exit last : BlockId) :
      Composed (parts.incrementPart slots header increment exit last) := by
    unfold LoopParts.incrementPart
    split
    . next hrun => exact inLoop ((h.increment hrun _).bind fun _ => branch _) _ _ _
    . exact .pure _
  rw [LoopParts.loop_eq]
  refine Composed.bind (.ite (.throw _) (.pure _)) fun _ => requireOpen.bind fun _ => ?_
  refine (of_straight (Straight.mapM slot_straight _)).bind fun _ => loopHeader.bind fun _ => ?_
  refine (horNew _ _ _).bind fun _ => (horNew _ _ _).bind fun _ => hleave.bind fun _ => ?_
  refine (hbody _ _ _ _ _).bind fun _ => (htest _ _ _ _ _ _).bind fun _ => ?_
  refine (hincrement _ _ _ _ _).bind fun _ => (moveBehind _ _).bind fun _ => ?_
  exact (continueAt _ _).bind fun _ => .pure _

theorem block (ref : BlockRef) : Composed (block ref) := by
  refine Composed.get.bind fun s => ?_
  cases ref with
  | next | exit | named =>
    dsimp only
    split
    . exact .pure _
    . exact .throw _
  | returning => exact returnBlock
  | start | current | id => exact .pure _

theorem handle (ref : HandleRef) : Composed (handle ref) := by
  cases ref with
  | given h => exact .pure _
  | named name =>
    refine Composed.get.bind fun s => ?_
    split
    . exact .pure _
    . exact .throw _

end Operations

section Scripts

variable {expand : Macro → List Operand → Gen Operand}

theorem call (hexpand : ∀ m args, Composed (expand m args)) (callee : Operand) (args : List Operand) :
    Composed (call expand callee args) := by
  unfold Gen.call
  split
  . refine Composed.get.bind fun s => ?_
    split
    . exact .ite ((Composed.throw _).bind fun _ => hexpand _ _) (hexpand _ _)
    . exact of_straight (callFunction_straight _ _)
    . exact .throw _
  . exact of_straight (callFunction_straight _ _)
  . exact of_straight (callValue_straight _ _)
  . exact .throw _

theorem side_bind {arm : Arm (Gen Unit) HandleRef} {f : Arm (Gen Unit) BlockHandle → Gen β}
    (harm : ∀ x, arm = .body x → Composed x)
    (hf : ∀ built, (∀ x, built = .body x → Composed x) → Composed (f built)) :
    Composed (side arm >>= f) := by
  cases arm with
  | body x =>
    rw [side, pure_bind]
    refine hf _ ?_
    rintro _ ⟨⟩
    exact harm x rfl
  | built ref =>
    rw [side, map_eq_pure_bind, bind_assoc]
    refine (handle ref).bind fun h => ?_
    rw [pure_bind]
    exact hf _ (by rintro _ ⟨⟩)

theorem condVia {ifTrue : Arm (Gen Unit) HandleRef} {ifFalse : Option (Arm (Gen Unit) HandleRef)}
    (htrue : ∀ x, ifTrue = .body x → Composed x) (hfalse : ∀ x, ifFalse = some (.body x) → Composed x)
    (condition : Expr) (exit : Option BlockRef) :
    Composed (condVia Gen.block condition ifTrue ifFalse exit) := by
  refine (within _).bind fun c => side_bind htrue fun x hx => ?_
  have hrest (y : Option (Arm (Gen Unit) BlockHandle)) (hy : ∀ z, y = some (.body z) → Composed z) :
      Composed (do
        let exit ← exit.mapM Gen.block
        Gen.cond c x y exit
        Gen.record .done) :=
    (mapM block exit).bind fun _ => (cond c hx hy _).bind fun _ => record _
  cases ifFalse with
  | none =>
    rw [Option.mapM_none, pure_bind]
    exact hrest none (by simp)
  | some arm =>
    rw [Option.mapM_some, map_eq_pure_bind, bind_assoc]
    refine side_bind (fun z hz => hfalse z (hz ▸ rfl)) fun y hy => ?_
    rw [pure_bind]
    exact hrest (some y) (by simpa using hy)

theorem loopVia {compare : Option (Gen Unit × Expr)} {body increment : Option (Gen Unit)}
    (hcompare : ∀ c ∈ compare, Composed c.1) (hbody : ∀ x ∈ body, Composed x)
    (hincrement : ∀ x ∈ increment, Composed x) (vars : List Expr) (names : List String)
    (exit : Option BlockRef) :
    Composed (loopVia Gen.block vars names compare body increment exit) := by
  refine (within _).bind fun vars => (mapM block exit).bind fun exit => ?_
  refine Composed.bind (loop ⟨?_, ?_, ?_⟩) fun _ => (bindAll _ _).bind fun _ => record _
  . intro run hrun vs
    obtain ⟨c, hc, rfl⟩ := Option.map_eq_some_iff.1 hrun
    exact (bindAll _ _).bind fun _ => (hcompare c hc).bind fun _ => within _
  . intro run hrun vs
    obtain ⟨x, hx, rfl⟩ := Option.map_eq_some_iff.1 hrun
    exact (bindAll _ _).bind fun _ => hbody x hx
  . intro run hrun vs
    obtain ⟨x, hx, rfl⟩ := Option.map_eq_some_iff.1 hrun
    exact (bindAll _ _).bind fun _ => hincrement x hx

mutual

theorem runStmt (hexpand : ∀ m args, Composed (expand m args)) (stmt : Stmt) :
    Composed (runStmt expand stmt) := by
  cases stmt with
  | compute op name =>
    exact (within _).bind fun _ => (of_straight (perform_straight _)).bind fun _ =>
      (bindName _ _).bind fun _ => record _
  | operate op lhs rhs name =>
    exact (within _).bind fun _ => (within _).bind fun _ => (within _).bind fun _ =>
      (of_straight (operator_straight _ _ _)).bind fun _ => (bindName _ _).bind fun _ => record _
  | free ptr =>
    exact (within _).bind fun _ => (of_straight (free_straight _)).bind fun _ => record _
  | store a ptr =>
    exact (within _).bind fun _ => (within _).bind fun _ =>
      (of_straight (store_straight _ _)).bind fun _ => record _
  | ret a => exact (within _).bind fun _ => noting (ret _) _
  | directRet a => exact (within _).bind fun _ => noting (directRet _) _
  | prepareRet a => exact (within _).bind fun _ => (prepareRet _).bind fun _ => record _
  | conditionalRet condition a otherwise =>
    exact (within _).bind fun _ => (within _).bind fun _ => (mapM block _).bind fun _ =>
      (conditionalRet _ _ _).bind fun _ => record _
  | branch target => exact (block _).bind fun _ => (branch _).bind fun _ => record _
  | unreachable => exact (close _).bind fun _ => record _
  | finish => exact (moveCursor _).bind fun _ => record _
  | comment text => exact (of_straight (comment_straight _)).bind fun _ => record _
  | returnBlock => exact returnBlock.bind fun _ => record _
  | fail message => exact .throw _
  | bind a name => exact (within _).bind fun _ => (bindName _ _).bind fun _ => record _
  | call callee args name =>
    exact (within _).bind fun _ => (within _).bind fun _ => (call hexpand _ _).bind fun _ =>
      (bindName _ _).bind fun _ => record _
  | block label body name =>
    exact (inBlock _ (runStmts hexpand body)).bind fun _ => (bindHandle _ _).bind fun _ => record _
  | cond condition ifTrue ifFalse exit =>
    rw [runStmt_eq_condVia]
    apply condVia
    . cases ifTrue with
      | body b =>
        rintro _ ⟨⟩
        exact runStmts hexpand b
      | built ref => rintro _ ⟨⟩
    . rcases ifFalse with _ | b | ref
      . rintro _ ⟨⟩
      . rintro _ ⟨⟩
        exact runStmts hexpand b
      . rintro _ ⟨⟩
  | loop vars names compare body increment exit =>
    rw [runStmt_eq_loopVia]
    apply loopVia
    . cases compare with
      | none => rintro _ ⟨⟩
      | some c =>
        rintro _ ⟨⟩
        exact runStmts hexpand c.1
    . cases body with
      | none => rintro _ ⟨⟩
      | some b =>
        rintro _ ⟨⟩
        exact runStmts hexpand b
    . cases increment with
      | none => rintro _ ⟨⟩
      | some b =>
        rintro _ ⟨⟩
        exact runStmts hexpand b
  | inspect => exact Composed.bind (Composed.get.bind fun _ => .pure _) fun _ => record _
  | attempt s => exact (runStmt hexpand s).tryCatch fun _ => record _

theorem runStmts (hexpand : ∀ m args, Composed (expand m args)) (stmts : List Stmt) :
    Composed (runStmts expand stmts) := by
  cases stmts with
  | nil => exact .pure _
  | cons s ss => exact (runStmt hexpand s).bind fun _ => runStmts hexpand ss

end

end Scripts

theorem expand (depth : Nat) (m : Macro) (args : List Operand) : Composed (m.expand depth args) := by
  induction depth generalizing m args with
  | zero => exact .throw _
  | succ depth ih => exact .withNames _ ((runStmts ih m.body).bind fun _ => within _)

theorem script (body : List Stmt) : Composed (script body) := runStmts (expand _) body

end Composed

end Gen

end ScriptedIR
