import ScriptedIR.Proofs.Execution

/-!
Assertions that generating code does not break. What survives the few things that generators do to
the code, emitting at the cursor, adding a block, returning and moving a block, survives every script,
also one that fails on the way. A block is only moved to be the exit of a conditional or
of a loop, so a script chooses it only where it gives the exit itself.
-/

namespace ScriptedIR

structure GenState.SameCode (s t : GenState) : Prop where
  work : t.work = s.work
  functions : t.library.module.functions = s.library.module.functions
  trace : s.trace ⊆ t.trace

structure ReturnCall where
  direct : Bool
  finished : Bool
  succeeded : Bool

def Event.returnCall? : Event → Option ReturnCall
  | returned direct finished => some ⟨direct, finished, true⟩
  | _ => none

def GenState.returnCalls (s : GenState) : List ReturnCall := s.trace.filterMap Event.returnCall?

namespace GenState.SameCode

variable {s t : GenState} (h : s.SameCode t)

include h

theorem function : t.function = s.function := congrArg Work.function h.work

theorem entry : t.entry = s.entry := congrArg Work.entry h.work

theorem returnType : t.returnType = s.returnType := congrArg Work.returnType h.work

theorem returnSlot : t.returnSlot = s.returnSlot := congrArg Work.returnSlot h.work

theorem returnBlock : t.returnBlock = s.returnBlock := congrArg Work.returnBlock h.work

end GenState.SameCode

def Arm.mapBody (f : α → β) : Arm α η → Arm β η
  | body b => body (f b)
  | built handle => built handle

def Request.isReturn : Request → Bool
  | ret _ => true
  | _ => false

theorem Request.isReturn_of_isPlain {r : Request} (h : r.isPlain) : r.isReturn = false := by
  cases r <;> first | rfl | cases h

namespace Gen

theorem exec_tryCatch (x : Gen α) (f : ScriptError → Gen α) (s : GenState) :
    exec (tryCatch x f) s =
      match exec x s with
      | (.ok a, t) => (.ok a, t)
      | (.error e, t) => exec (f e) t := by
  simp only [exec, MonadExcept.tryCatch, tryCatchThe, MonadExceptOf.tryCatch, ExceptT.tryCatch,
    ExceptT.mk, bind, StateT.bind]
  cases x s with
  | mk result t => cases result <;> rfl

/--
A computation keeps an assertion, also where it fails, and its cursor belongs to the same block at the
end. What it gives has a property.
-/
def Keeps (I : GenState → Prop) (x : Gen α) (Q : α → Prop := fun _ => True) : Prop :=
  ∀ s, I s → I (exec x s).2 ∧ (exec x s).2.cursor.start = s.cursor.start ∧
    ∀ a, (exec x s).1 = .ok a → Q a

namespace Keeps

variable {I : GenState → Prop} {Q : α → Prop} {R : β → Prop}

theorem of_eq {x : Gen α} (h : ∀ s, (exec x s).2 = s) : Keeps I x := by
  intro s hs
  rw [h s]
  exact ⟨hs, rfl, fun _ _ => trivial⟩

theorem pure {a : α} (h : Q a) : Keeps I (pure a) Q := by
  refine fun s hs => ⟨hs, rfl, ?_⟩
  rintro _ ⟨⟩
  exact h

theorem throw (e : ScriptError) : Keeps I (throw e) Q :=
  fun s hs => ⟨hs, rfl, by rintro _ ⟨⟩⟩

theorem get : Keeps I get I := by
  refine fun s hs => ⟨hs, rfl, ?_⟩
  rintro _ ⟨⟩
  exact hs

theorem within (f : Surroundings → Except ScriptError α) : Keeps I (within f) := of_eq fun _ => rfl

theorem mono {Q' : α → Prop} {x : Gen α} (h : Keeps I x Q) (hQ : ∀ a, Q a → Q' a) : Keeps I x Q' :=
  fun s hs => ⟨(h s hs).1, (h s hs).2.1, fun a ha => hQ a ((h s hs).2.2 a ha)⟩

theorem bind {x : Gen α} {f : α → Gen β} (hx : Keeps I x Q) (hf : ∀ a, Q a → Keeps I (f a) R) :
    Keeps I (x >>= f) R := by
  intro s hs
  obtain ⟨hkept, hstart, hgives⟩ := hx s hs
  rw [exec_bind]
  cases hexec : exec x s with
  | mk result t =>
    rw [hexec] at hkept hstart hgives
    cases result with
    | error e => exact ⟨hkept, hstart, by rintro _ ⟨⟩⟩
    | ok a =>
      obtain ⟨hkept', hstart', hgives'⟩ := hf a (hgives a rfl) t hkept
      exact ⟨hkept', hstart'.trans hstart, hgives'⟩

theorem ite {p : Prop} [Decidable p] {x y : Gen α} (hx : Keeps I x Q) (hy : Keeps I y Q) :
    Keeps I (if p then x else y) Q := by
  split
  . exact hx
  . exact hy

theorem tryCatch {x : Gen α} {f : ScriptError → Gen α} (hx : Keeps I x Q)
    (hf : ∀ e, Keeps I (f e) Q) : Keeps I (tryCatch x f) Q := by
  intro s hs
  obtain ⟨hkept, hstart, hgives⟩ := hx s hs
  rw [exec_tryCatch]
  cases hexec : exec x s with
  | mk result t =>
    rw [hexec] at hkept hstart hgives
    cases result with
    | ok a => exact ⟨hkept, hstart, hgives⟩
    | error e =>
      -- what was done before the failure is still there when it is caught
      obtain ⟨hkept', hstart', hgives'⟩ := hf e t hkept
      exact ⟨hkept', hstart'.trans hstart, hgives'⟩

theorem mapM {f : α → Gen β} (h : ∀ a, Keeps I (f a) R) (o : Option α) :
    Keeps I (o.mapM f) fun b => ∀ a ∈ b, R a := by
  cases o with
  | none => exact pure (by simp)
  | some a => exact (h a).bind fun b hb => pure (by simpa using hb)

end Keeps

theorem requireOpen_keeps {I : GenState → Prop} : Keeps I requireOpen :=
  Keeps.get.bind fun _ _ => .ite (.throw _) (.pure trivial)

structure Emitting (I : GenState → Prop) (allowed : Request → Prop) : Prop where
  emit : ∀ r, allowed r → Keeps I (emit r)
  convert : ∀ o hint, Keeps I (convert o hint)
  newBlock : ∀ label, Keeps I (newBlock label)
  returnBlock : Keeps I returnBlock
  cursor : ∀ {change : Cursor → Cursor}, (∀ c, (change c).start = c.start) →
    Keeps I (moveCursor change)

theorem unlessFinished_keeps {I : GenState → Prop} {x : Gen Unit} (hx : Keeps I x) :
    Keeps I (unlessFinished x) :=
  Keeps.get.bind fun _ _ => .ite hx (.pure trivial)

namespace Emitting

variable {I : GenState → Prop} {allowed : Request → Prop} (h : Emitting I allowed)

include h

theorem close_keeps {r : Request} (hr : allowed r) : Keeps I (do let _ ← Gen.emit r; finish) :=
  (h.emit r hr).bind fun _ _ => h.cursor fun _ => rfl

theorem fillReturnSlot_keeps (hstore : ∀ v slot, allowed (.store v slot)) (a : Operand) :
    Keeps I (fillReturnSlot a) := by
  refine Keeps.get.bind fun s _ => ?_
  split
  . exact .ite ((h.convert _ _).bind fun _ _ => (h.emit _ (hstore _ _)).bind fun _ _ => .pure trivial)
      (.pure trivial)
  . exact .pure trivial

theorem ret_keeps (hall : ∀ r, allowed r) (a : Operand) : Keeps I (ret a) :=
  unlessFinished_keeps <| Keeps.get.bind fun _ _ => .ite (h.close_keeps (hall _))
    (h.returnBlock.bind fun _ _ => (h.fillReturnSlot_keeps (fun _ _ => hall _) a).bind fun _ _ =>
      h.close_keeps (hall _))

theorem directRet_keeps (hall : ∀ r, allowed r) (a : Operand) : Keeps I (directRet a) := by
  refine unlessFinished_keeps <| Keeps.get.bind fun _ _ => .ite (h.close_keeps (hall _)) (.ite ?_ ?_)
  . exact Keeps.bind (Q := fun _ => True) (.throw _) fun _ _ =>
      (h.convert _ _).bind fun _ _ => h.close_keeps (hall _)
  . exact (h.convert _ _).bind fun _ _ => h.close_keeps (hall _)

end Emitting

/--
An assertion that generating code does not break, as long as only certain blocks are moved. New blocks
are among these. Only the two operations that return emit return instructions at the cursor, so they
count as a whole, with the note that they leave.
-/
structure Stable (I : GenState → Prop) (movable : BlockId → Prop) : Prop where
  same : ∀ {s t}, I s → s.SameCode t → t.returnCalls = s.returnCalls → I t
  emit : ∀ {s} r, r.isReturn = false → I s → I (exec (emit r) s).2
  newBlock : ∀ {s} label, I s → I (s.grow label) ∧ movable s.function.nextBlock
  returnBlock : ∀ {s}, I s → I (exec returnBlock s).2
  move : ∀ {s f block after}, I s → movable block → s.function.moveAfter block after = .ok f →
    I { s with function := f }
  ret : ∀ {s} a, I s → I (exec (noting false (ret a)) s).2
  directRet : ∀ {s} a, I s → I (exec (noting true (directRet a)) s).2

structure Appending (I : GenState → Prop) (movable : BlockId → Prop) : Prop where
  appends : ∀ {s} block r, I s → I (exec (emitAt block none r) s).2
  grows : ∀ {s} label, I s → I (s.grow label) ∧ movable s.function.nextBlock

namespace Appending

variable {I : GenState → Prop} {movable : BlockId → Prop} (h : Appending I movable)

include h

theorem append_keeps (block : BlockId) (r : Request) : Keeps I (emitAt block none r) :=
  fun _ hs => ⟨h.appends block r hs, rfl, fun _ _ => trivial⟩

theorem emit_keeps (r : Request) : Keeps I (emit r) :=
  requireOpen_keeps.bind fun _ _ => Keeps.get.bind fun _ _ => h.append_keeps _ _

theorem newBlock_keeps (label : String) : Keeps I (newBlock label) movable := by
  refine fun s hs => ⟨(h.grows label hs).1, rfl, ?_⟩
  rintro _ ⟨⟩
  exact (h.grows label hs).2

end Appending

structure Growing (I : GenState → Prop) (movable : BlockId → Prop) : Prop extends
    Appending I movable where
  same : ∀ {s t}, I s → s.SameCode t → I t
  move : ∀ {s f block after}, I s → movable block → s.function.moveAfter block after = .ok f →
    I { s with function := f }

namespace Growing

variable {I : GenState → Prop} {movable : BlockId → Prop} (h : Growing I movable)

include h

theorem record_keeps (e : Event) : Keeps I (record e) :=
  fun _ hs => ⟨h.same hs ⟨rfl, rfl, List.subset_append_left _ _⟩, rfl, fun _ _ => trivial⟩

theorem noting_keeps {x : Gen Unit} (hx : Keeps I x) (direct : Bool) : Keeps I (noting direct x) :=
  Keeps.get.bind fun _ _ => hx.bind fun _ _ => h.record_keeps _

theorem emitting (hreturn : Keeps I returnBlock) : Emitting I fun _ => True where
  emit r _ := h.emit_keeps r
  convert o hint _ hs :=
    ⟨h.same hs ⟨rfl, Operand.convert_keepsFunctions o hint _, List.Subset.refl _⟩, rfl,
      fun _ _ => trivial⟩
  newBlock label := (h.newBlock_keeps label).mono fun _ _ => trivial
  returnBlock := hreturn
  cursor hstart _ hs := ⟨h.same hs ⟨rfl, rfl, List.Subset.refl _⟩, hstart _, fun _ _ => trivial⟩

theorem stable (hreturn : Keeps I returnBlock) : Stable I movable where
  same hs hsame _ := h.same hs hsame
  emit r _ hs := (h.emit_keeps r _ hs).1
  newBlock := h.grows
  returnBlock hs := (hreturn _ hs).1
  move := h.move
  ret a hs :=
    (h.noting_keeps ((h.emitting hreturn).ret_keeps (fun _ => trivial) a) false _ hs).1
  directRet a hs :=
    (h.noting_keeps ((h.emitting hreturn).directRet_keeps (fun _ => trivial) a) true _ hs).1

end Growing

structure Furnishing (I : GenState → Prop) (movable : BlockId → Prop) : Prop extends
    Appending I movable where
  allocates : ∀ {s} block ty, I s → I (exec (emitAt block (some 0) (.alloca ty none)) s).2
  returns : ∀ {s block} slot, I s → movable block →
    I { s with returnSlot := slot, returnBlock := some block }

theorem Furnishing.returnBlock_keeps {I : GenState → Prop} {movable : BlockId → Prop}
    (h : Furnishing I movable) : Keeps I returnBlock := by
  refine Keeps.get.bind fun s _ => ?_
  dsimp only
  split
  . exact .pure trivial
  . -- the block is new, so it may become the return block whatever is emitted in between
    refine (h.newBlock_keeps _).bind fun block hblock => ?_
    have hset (slot : Option Value) : Keeps I (do
        modify fun s => { s with returnSlot := slot, returnBlock := some block }
        return block) :=
      Keeps.bind (Q := fun _ => True)
        (fun _ hs => ⟨h.returns slot hs hblock, rfl, fun _ _ => trivial⟩) fun _ _ => .pure trivial
    have hslot : Keeps I (emitAt s.entry (some 0) (.alloca s.returnType none)) :=
      fun _ hs => ⟨h.allocates _ _ hs, rfl, fun _ _ => trivial⟩
    split
    . exact (h.append_keeps _ _).bind fun _ _ => hset _
    . exact hslot.bind fun _ _ => (h.append_keeps _ _).bind fun _ _ =>
        (h.append_keeps _ _).bind fun _ _ => hset _

structure Loose (I : GenState → Prop) (movable : BlockId → Prop) : Prop extends
    Growing I movable, Furnishing I movable

namespace Loose

variable {I : GenState → Prop} {movable : BlockId → Prop} (h : Loose I movable)

include h

theorem emitting : Emitting I fun _ => True := h.toGrowing.emitting h.returnBlock_keeps

theorem stable : Stable I movable := h.toGrowing.stable h.returnBlock_keeps

end Loose

theorem Loose.trivial : Loose (fun _ => True) fun _ => True where
  same h _ := h
  appends _ _ h := h
  allocates _ _ h := h
  grows _ h := ⟨h, h⟩
  returns _ h _ := h
  move h _ _ := h

section Stable

variable {I : GenState → Prop} {movable : BlockId → Prop} (h : Stable I movable)

include h

theorem emit_keeps {r : Request} (hr : r.isReturn = false) : Keeps I (emit r) :=
  fun s hs => ⟨h.emit r hr hs, (Loose.trivial.emit_keeps r s trivial).2.1, fun _ _ => trivial⟩

theorem newBlock_keeps (label : String) : Keeps I (newBlock label) movable := by
  refine fun s hs => ⟨(h.newBlock label hs).1, rfl, ?_⟩
  rintro _ ⟨⟩
  exact (h.newBlock label hs).2

theorem returnBlock_keeps : Keeps I returnBlock :=
  fun s hs => ⟨h.returnBlock hs, (Loose.trivial.returnBlock_keeps s trivial).2.1, fun _ _ => trivial⟩

theorem moveBehind_keeps {block : BlockId} (hblock : movable block) (after : BlockId) :
    Keeps I (moveBehind block after) := by
  refine .ite (fun s hs => ?_) (.pure trivial)
  simp only [exec, modifyFunction]
  split
  . next hmove => exact ⟨h.move hs hblock hmove, rfl, fun _ _ => trivial⟩
  . exact ⟨hs, rfl, fun _ _ => trivial⟩

theorem convert_keeps (o : Operand) (hint : Option Hint) : Keeps I (convert o hint) := by
  refine fun s hs => ⟨h.same hs ⟨rfl, ?_, List.Subset.refl _⟩ rfl, rfl, fun _ _ => trivial⟩
  exact Operand.convert_keepsFunctions o hint _

theorem Straight.keeps {x : Gen α} (hx : Straight x) : Keeps I x := by
  induction hx with
  | pure a => exact .pure trivial
  | throw e => exact .throw e
  | bind hx hf ihx ihf => exact ihx.bind fun a _ => ihf a
  | emit hr => exact emit_keeps h (Request.isReturn_of_isPlain hr)
  | convert o hint => exact convert_keeps h o hint
  | within f => exact .within f
  | get hlib hf ih => exact Keeps.get.bind fun s _ => ih s

theorem moveCursor_keeps {change : Cursor → Cursor} (hstart : ∀ c, (change c).start = c.start) :
    Keeps I (moveCursor change) :=
  fun _ hs => ⟨h.same hs ⟨rfl, rfl, List.Subset.refl _⟩ rfl, hstart _, fun _ _ => trivial⟩

theorem finish_keeps : Keeps I finish := moveCursor_keeps h fun _ => rfl

theorem record_keeps {e : Event} (he : e.returnCall? = none) : Keeps I (record e) := by
  refine fun s hs => ⟨h.same hs ⟨rfl, rfl, List.subset_append_left _ _⟩ ?_, rfl, fun _ _ => trivial⟩
  change (s.trace ++ [e]).filterMap _ = _
  simp [GenState.returnCalls, he]

theorem onCursor_keeps {x : Gen α} (hx : Keeps I x) (cursor : Cursor) :
    Keeps I (onCursor cursor x) fun r => r.2.start = cursor.start := by
  intro s hs
  obtain ⟨hkept, hstart, -⟩ :=
    hx { s with cursor } (h.same hs ⟨rfl, rfl, List.Subset.refl _⟩ rfl)
  refine ⟨h.same hkept ⟨rfl, rfl, List.Subset.refl _⟩ rfl, rfl, ?_⟩
  intro a ha
  simp only [exec, onCursor] at ha hstart
  cases hexec : x { s with cursor } with
  | mk result t =>
    rw [hexec] at ha hstart
    cases result with
    | error e => cases ha
    | ok b =>
      cases ha
      exact hstart

theorem withNames_keeps {x : Gen α} (hx : Keeps I x) (names : Names Operand) :
    Keeps I (withNames names x) := by
  intro s hs
  obtain ⟨hkept, hstart, -⟩ :=
    hx { s with names, handles := ∅ } (h.same hs ⟨rfl, rfl, List.Subset.refl _⟩ rfl)
  exact ⟨h.same hkept ⟨rfl, rfl, List.Subset.refl _⟩ rfl, hstart, fun _ _ => trivial⟩

omit h in
theorem cursorAt_keeps (block : BlockId) : Keeps I (cursorAt block) fun c => c.start = block :=
  Keeps.get.bind fun _ _ => .pure rfl

theorem inBlock_keeps {x : Gen Unit} (hx : Keeps I x) (label : String) :
    Keeps I (inBlock label x) fun arm => movable arm.start := by
  refine (newBlock_keeps h label).bind fun id hid => (cursorAt_keeps id).bind fun c hc => ?_
  refine (onCursor_keeps h hx c).bind fun r hr => .pure ?_
  change movable r.2.start
  rwa [hr, hc]

theorem emitting : Emitting I fun r => r.isReturn = false where
  emit _ hr := emit_keeps h hr
  convert := convert_keeps h
  newBlock label := (newBlock_keeps h label).mono fun _ _ => trivial
  returnBlock := returnBlock_keeps h
  cursor := moveCursor_keeps h

theorem close_keeps {r : Request} (hr : r.isReturn = false) :
    Keeps I (do let _ ← emit r; finish) :=
  (emitting h).close_keeps hr

theorem branch_keeps (target : BlockId) : Keeps I (branch target) :=
  unlessFinished_keeps (close_keeps h rfl)

section Return

theorem fillReturnSlot_keeps (a : Operand) : Keeps I (fillReturnSlot a) :=
  (emitting h).fillReturnSlot_keeps (fun _ _ => rfl) a

theorem ret_keeps (a : Operand) : Keeps I (noting false (ret a)) := by
  refine fun s hs => ⟨h.ret a hs, ?_, fun _ _ => trivial⟩
  exact (Loose.trivial.noting_keeps (Loose.trivial.emitting.ret_keeps (fun _ => trivial) a) false s
    trivial).2.1

theorem conditionalRet_keeps (condition a : Operand) (otherwise : Option BlockId) :
    Keeps I (conditionalRet condition a otherwise) := by
  refine unlessFinished_keeps <| (convert_keeps h _ _).bind fun _ _ =>
    (returnBlock_keeps h).bind fun _ _ => (fillReturnSlot_keeps h a).bind fun _ _ => ?_
  split
  . exact close_keeps h rfl
  . exact (newBlock_keeps h _).bind fun _ _ => (emit_keeps h rfl).bind fun _ _ =>
      moveCursor_keeps h fun _ => rfl

theorem directRet_keeps (a : Operand) : Keeps I (noting true (directRet a)) := by
  refine fun s hs => ⟨h.directRet a hs, ?_, fun _ _ => trivial⟩
  exact (Loose.trivial.noting_keeps (Loose.trivial.emitting.directRet_keeps (fun _ => trivial) a) true s
    trivial).2.1

theorem prepareRet_keeps (a : Operand) : Keeps I (prepareRet a) :=
  unlessFinished_keeps <| (returnBlock_keeps h).bind fun _ _ => fillReturnSlot_keeps h a

end Return

section Cond

theorem joinArm_keeps (arm : BlockHandle) (exit : BlockId) : Keeps I (joinArm arm exit) :=
  .ite ((cursorAt_keeps _).bind fun _ _ =>
    (onCursor_keeps h (branch_keeps h _) _).bind fun _ _ => .pure trivial) (.pure trivial)

theorem continueAt_keeps (exit : BlockId) (given : Bool) : Keeps I (continueAt exit given) :=
  .ite (finish_keeps h) (moveCursor_keeps h fun _ => rfl)

omit h in
theorem isEmptyBlock_keeps (block : BlockId) : Keeps I (isEmptyBlock block) := by
  refine Keeps.get.bind fun s _ => ?_
  split
  . exact .pure trivial
  . exact .throw _

theorem buildArm_keeps {arm : Arm (Gen Unit) BlockHandle} (hx : ∀ x, arm = .body x → Keeps I x)
    (label : String) :
    Keeps I (buildArm label arm) fun built => ∀ x, arm = .body x → movable built.start := by
  cases arm with
  | body x => exact (inBlock_keeps h (hx x rfl) label).mono fun _ hstart _ _ => hstart
  | built handle => exact .pure (by simp)

theorem condExit_keeps {given : Option BlockId} (hgiven : ∀ block ∈ given, movable block)
    {isBody : Bool} {arm : BlockHandle} (harm : isBody → movable arm.start) :
    Keeps I (condExit given isBody arm) movable := by
  unfold condExit
  split
  . exact .pure (hgiven _ rfl)
  . split
    . next hempty =>
      -- an arm that was built for the conditional and is still empty serves as its exit
      have hstart : movable arm.start := harm (by simp_all)
      exact (isEmptyBlock_keeps _).bind fun _ _ => .ite (.pure hstart) (newBlock_keeps h _)
    . exact newBlock_keeps h _

theorem cond_keeps {ifTrue : Arm (Gen Unit) BlockHandle}
    {ifFalse : Option (Arm (Gen Unit) BlockHandle)} (hx : ∀ x, ifTrue = .body x → Keeps I x)
    (hy : ∀ x, ifFalse = some (.body x) → Keeps I x) (condition : Operand) {given : Option BlockId}
    (hgiven : ∀ block ∈ given, movable block) :
    Keeps I (cond condition ifTrue ifFalse given) := by
  refine requireOpen_keeps.bind fun _ _ => (convert_keeps h _ _).bind fun c _ => ?_
  refine (buildArm_keeps h hx _).bind fun arm harm => ?_
  refine (condExit_keeps h hgiven ?_).bind fun exit hexit => ?_
  . cases ifTrue with
    | body x => exact fun _ => harm x rfl
    | built handle => simp
  refine (joinArm_keeps h _ _).bind fun _ _ => Keeps.bind (Q := fun _ => True) ?_ fun other _ => ?_
  . cases ifFalse with
    | none => exact .pure trivial
    | some y =>
      refine Keeps.bind (Q := fun _ => True) ?_ fun _ _ => .pure trivial
      refine (buildArm_keeps h (fun x hx => hy x (hx ▸ rfl)) _).bind fun other _ => ?_
      exact (joinArm_keeps h _ _).bind fun _ _ => .pure trivial
  . refine (moveBehind_keeps h hexit _).bind fun _ _ => (emit_keeps h rfl).bind fun _ _ => ?_
    exact continueAt_keeps h _ _

end Cond

section Loop

theorem loopHeader_keeps : Keeps I loopHeader := by
  have hnew : Keeps I (do let header ← newBlock "loop"; branch header; return header) :=
    (newBlock_keeps h _).bind fun header _ => (branch_keeps h _).bind fun _ _ => .pure trivial
  refine Keeps.get.bind fun s _ => ?_
  dsimp only
  split
  . exact hnew
  . exact (isEmptyBlock_keeps _).bind fun reusable _ => .ite (.pure trivial) hnew

theorem inLoop_keeps {x : Gen Unit} (hx : Keeps I x) (next exit block : BlockId) :
    Keeps I (inLoop next exit block x) :=
  (cursorAt_keeps _).bind fun _ _ => (onCursor_keeps h hx _).bind fun _ _ => .pure trivial

theorem orNewBlock_keeps (needed : Bool) (label : String) (block : BlockId) :
    Keeps I (orNewBlock needed label block) :=
  .ite ((newBlock_keeps h _).mono fun _ _ => trivial) (.pure trivial)

structure LoopParts.Keeps (I : GenState → Prop) (parts : LoopParts) : Prop where
  compare : ∀ {run}, parts.compare = some run → ∀ vs, Gen.Keeps I (run vs)
  body : ∀ {run}, parts.body = some run → ∀ vs, Gen.Keeps I (run vs)
  increment : ∀ {run}, parts.increment = some run → ∀ vs, Gen.Keeps I (run vs)

variable {parts : LoopParts} (hparts : parts.Keeps I) (slots : List Value)
  (header body increment exit last : BlockId)

include hparts

theorem bodyPart_keeps : Keeps I (parts.bodyPart slots header body increment exit) := by
  refine .ite (inLoop_keeps h ?_ _ _ _) (.pure trivial)
  unfold LoopParts.turn
  split
  . next run hrun =>
    exact ((loadAll_straight _).keeps h).bind fun vs _ => (hparts.body hrun vs).bind fun _ _ =>
      branch_keeps h _
  . exact branch_keeps h _

theorem testPart_keeps : Keeps I (parts.testPart slots header body increment exit last) := by
  unfold LoopParts.testPart LoopParts.test
  split
  . next run hrun =>
    refine (inLoop_keeps h ?_ _ _ _).bind fun _ _ => .pure trivial
    refine ((loadAll_straight _).keeps h).bind fun vs _ => (hparts.compare hrun vs).bind fun o _ => ?_
    exact (convert_keeps h _ _).bind fun c _ => close_keeps h rfl
  . exact .pure trivial

theorem incrementPart_keeps : Keeps I (parts.incrementPart slots header increment exit last) := by
  unfold LoopParts.incrementPart
  split
  . next run hrun =>
    exact inLoop_keeps h ((hparts.increment hrun _).bind fun _ _ => branch_keeps h _) _ _ _
  . exact .pure trivial

omit slots header body increment exit last in
theorem loop_keeps (hexit : ∀ block ∈ parts.exit, movable block) : Keeps I (loop parts) := by
  have hstart : Keeps I parts.require := .ite (.throw _) (.pure trivial)
  have hleave : Keeps I parts.leave movable := by
    unfold LoopParts.leave
    split
    . next hgiven => exact .pure (hexit _ hgiven)
    . exact newBlock_keeps h _
  rw [LoopParts.loop_eq]
  refine hstart.bind fun _ _ => requireOpen_keeps.bind fun _ _ => ?_
  refine ((Straight.mapM slot_straight _).keeps h).bind fun slots _ => ?_
  refine (loopHeader_keeps h).bind fun _ _ => (orNewBlock_keeps h _ _ _).bind fun _ _ => ?_
  refine (orNewBlock_keeps h _ _ _).bind fun _ _ => hleave.bind fun exit hmovable => ?_
  refine (bodyPart_keeps h hparts _ _ _ _ _).bind fun _ _ => ?_
  refine (testPart_keeps h hparts _ _ _ _ _ _).bind fun _ _ => ?_
  refine (incrementPart_keeps h hparts _ _ _ _ _).bind fun _ _ => ?_
  refine (moveBehind_keeps h hmovable _).bind fun _ _ => ?_
  exact (continueAt_keeps h _ _).bind fun _ _ => .pure trivial

end Loop

end Stable

section Via

variable (find : BlockRef → Gen BlockId)

def side : Arm (Gen Unit) HandleRef → Gen (Arm (Gen Unit) BlockHandle)
  | .body x => return .body x
  | .built ref => .built <$> handle ref

def condVia (condition : Expr) (ifTrue : Arm (Gen Unit) HandleRef)
    (ifFalse : Option (Arm (Gen Unit) HandleRef)) (exit : Option BlockRef) : Gen Unit := do
  let condition ← eval condition
  let ifTrue ← side ifTrue
  let ifFalse ← ifFalse.mapM side
  let exit ← exit.mapM find
  cond condition ifTrue ifFalse exit
  record .done

def loopVia (vars : List Expr) (names : List String) (compare : Option (Gen Unit × Expr))
    (body increment : Option (Gen Unit)) (exit : Option BlockRef) : Gen Unit := do
  let vars ← evalAll vars
  let exit ← exit.mapM find
  let slots ← loop {
    vars
    compare := compare.map fun c values => do
      bindAll names values
      c.1
      eval c.2
    body := body.map fun x values => do
      bindAll names values
      x
    increment := increment.map fun x slots => do
      bindAll names slots
      x
    exit }
  bindAll names slots
  record (.slots slots)

mutual

/--
Runs a statement as `runStmt` does, but has a way of its own to find the exits that are given.
-/
def runStmtVia (expand : Macro → List Operand → Gen Operand) : Stmt → Gen Unit
  | .block label body name => do
    let h ← inBlock label (runStmtsVia expand body)
    bindHandle name h
    record (.handle h)
  | .cond condition ifTrue ifFalse exit =>
    condVia find condition
      (match ifTrue with
        | .body b => .body (runStmtsVia expand b)
        | .built ref => .built ref)
      (match ifFalse with
        | some (.body b) => some (.body (runStmtsVia expand b))
        | some (.built ref) => some (.built ref)
        | none => none)
      exit
  | .loop vars names compare body increment exit =>
    loopVia find vars names
      (match compare with
        | some (b, result) => some (runStmtsVia expand b, result)
        | none => none)
      (match body with
        | some b => some (runStmtsVia expand b)
        | none => none)
      (match increment with
        | some b => some (runStmtsVia expand b)
        | none => none)
      exit
  | .attempt s => tryCatch (runStmtVia expand s) fun e => record (.failed e)
  | s => runStmt expand s

def runStmtsVia (expand : Macro → List Operand → Gen Operand) : List Stmt → Gen Unit
  | [] => return
  | s :: ss => do
    runStmtVia expand s
    runStmtsVia expand ss

end

variable (expand : Macro → List Operand → Gen Operand)

theorem runStmtVia_cond (condition : Expr) (ifTrue : Arm (List Stmt) HandleRef)
    (ifFalse : Option (Arm (List Stmt) HandleRef)) (exit : Option BlockRef) :
    runStmtVia find expand (.cond condition ifTrue ifFalse exit) =
      condVia find condition (ifTrue.mapBody (runStmtsVia find expand))
        (ifFalse.map (Arm.mapBody (runStmtsVia find expand))) exit := by
  rcases ifTrue with b | ref <;> rcases ifFalse with _ | b' | ref' <;> rfl

theorem runStmtVia_loop (vars : List Expr) (names : List String)
    (compare : Option (List Stmt × Expr)) (body increment : Option (List Stmt))
    (exit : Option BlockRef) :
    runStmtVia find expand (.loop vars names compare body increment exit) =
      loopVia find vars names (compare.map fun c => (runStmtsVia find expand c.1, c.2))
        (body.map (runStmtsVia find expand)) (increment.map (runStmtsVia find expand)) exit := by
  cases compare <;> cases body <;> cases increment <;> rfl

end Via

section Block

variable (expand : Macro → List Operand → Gen Operand)

theorem runStmt_eq_condVia (condition : Expr) (ifTrue : Arm (List Stmt) HandleRef)
    (ifFalse : Option (Arm (List Stmt) HandleRef)) (exit : Option BlockRef) :
    runStmt expand (.cond condition ifTrue ifFalse exit) =
      condVia block condition (ifTrue.mapBody (runStmts expand))
        (ifFalse.map (Arm.mapBody (runStmts expand))) exit := by
  rw [runStmt_cond]
  rcases ifTrue with b | ref <;> rcases ifFalse with _ | b' | ref' <;> rfl

theorem runStmt_eq_loopVia (vars : List Expr) (names : List String)
    (compare : Option (List Stmt × Expr)) (body increment : Option (List Stmt))
    (exit : Option BlockRef) :
    runStmt expand (.loop vars names compare body increment exit) =
      loopVia block vars names (compare.map fun c => (runStmts expand c.1, c.2))
        (body.map (runStmts expand)) (increment.map (runStmts expand)) exit := by
  cases compare <;> cases body <;> cases increment <;> rfl

mutual

theorem runStmtVia_block (stmt : Stmt) : runStmtVia block expand stmt = runStmt expand stmt := by
  cases stmt with
  | block label body name =>
    change (inBlock label (runStmtsVia block expand body) >>= _) = _
    rw [runStmtsVia_block body]
    rfl
  | cond condition ifTrue ifFalse exit =>
    rw [runStmtVia_cond, runStmt_eq_condVia]
    congr 1
    . cases ifTrue with
      | body b => exact congrArg Arm.body (runStmtsVia_block b)
      | built ref => rfl
    . rcases ifFalse with _ | b | ref
      . rfl
      . exact congrArg (some ∘ Arm.body) (runStmtsVia_block b)
      . rfl
  | loop vars names compare body increment exit =>
    rw [runStmtVia_loop, runStmt_eq_loopVia]
    congr 1
    . cases compare with
      | none => rfl
      | some c => exact congrArg (fun x => some (x, c.2)) (runStmtsVia_block c.1)
    . cases body with
      | none => rfl
      | some b => exact congrArg some (runStmtsVia_block b)
    . cases increment with
      | none => rfl
      | some b => exact congrArg some (runStmtsVia_block b)
  | attempt s =>
    change tryCatch (runStmtVia block expand s) _ = _
    rw [runStmtVia_block s]
    rfl
  | _ => rfl

theorem runStmtsVia_block (stmts : List Stmt) :
    runStmtsVia block expand stmts = runStmts expand stmts := by
  cases stmts with
  | nil => rfl
  | cons s ss =>
    change (runStmtVia block expand s >>= fun _ => runStmtsVia block expand ss) = _
    rw [runStmtVia_block s, runStmtsVia_block ss]
    rfl

end

end Block

end Gen

open Gen in
def Macro.expandVia (find : BlockRef → Gen BlockId) (depth : Nat) (m : Macro) (args : List Operand) :
    Gen Operand :=
  match depth with
  | 0 => throw (.argument .expansionDepth)
  | depth + 1 =>
    withNames (.ofList (m.params.zip args)) do
      runStmtsVia find (Macro.expandVia find depth) m.body
      eval m.result

theorem Macro.expandVia_block (depth : Nat) :
    Macro.expandVia Gen.block depth = Macro.expand depth := by
  induction depth with
  | zero => rfl
  | succ depth ih =>
    funext m args
    rw [Macro.expandVia, Macro.expand, ih, Gen.runStmtsVia_block]

namespace Gen

def scriptVia (find : BlockRef → Gen BlockId) (body : List Stmt) : Gen Unit :=
  runStmtsVia find (Macro.expandVia find Macro.maxDepth) body

theorem scriptVia_block (body : List Stmt) : scriptVia block body = script body := by
  rw [scriptVia, script, Macro.expandVia_block, runStmtsVia_block]

section Script

variable {I : GenState → Prop} {movable : BlockId → Prop} (h : Stable I movable)

theorem eval_keeps (e : Expr) : Keeps I (eval e) := .within _

include h

theorem bindName_keeps (name : Option String) (o : Operand) : Keeps I (bindName name o) := by
  cases name with
  | none => exact .pure trivial
  | some name =>
    exact fun _ hs => ⟨h.same hs ⟨rfl, rfl, List.Subset.refl _⟩ rfl, rfl, fun _ _ => trivial⟩

theorem bindHandle_keeps (name : Option String) (handle : BlockHandle) :
    Keeps I (bindHandle name handle) := by
  cases name with
  | none => exact .pure trivial
  | some name =>
    exact fun _ hs => ⟨h.same hs ⟨rfl, rfl, List.Subset.refl _⟩ rfl, rfl, fun _ _ => trivial⟩

theorem bindAll_keeps (names : List String) (vs : List Value) : Keeps I (bindAll names vs) := by
  unfold bindAll
  induction names.zip vs with
  | nil => exact .pure trivial
  | cons p ps ih => exact (bindName_keeps h _ _).bind fun _ _ => ih

theorem block_keeps (ref : BlockRef) : Keeps I (block ref) := by
  refine Keeps.get.bind fun s _ => ?_
  cases ref with
  | next | exit | named =>
    dsimp only
    split
    . exact .pure trivial
    . exact .throw _
  | returning => exact returnBlock_keeps h
  | start | current | id => exact .pure trivial

omit h in
theorem handle_keeps (ref : HandleRef) : Keeps I (handle ref) := by
  cases ref with
  | given h => exact .pure trivial
  | named name =>
    refine Keeps.get.bind fun s _ => ?_
    split
    . exact .pure trivial
    . exact .throw _

variable {expand : Macro → List Operand → Gen Operand} (hexpand : ∀ m args, Keeps I (expand m args))

include hexpand in
theorem call_keeps (callee : Operand) (args : List Operand) : Keeps I (call expand callee args) := by
  unfold call
  split
  . refine Keeps.get.bind fun s _ => ?_
    split
    . exact .ite (Keeps.bind (Q := fun _ => True) (.throw _) fun _ _ => hexpand _ _) (hexpand _ _)
    . exact (callFunction_straight _ _).keeps h
    . exact .throw _
  . exact (callFunction_straight _ _).keeps h
  . exact (callValue_straight _ _).keeps h
  . exact .throw _

variable {find : BlockRef → Gen BlockId} (hfind : ∀ ref, Keeps I (find ref) movable)

omit h in
theorem side_keeps {arm : Arm (Gen Unit) HandleRef} (harm : ∀ x, arm = .body x → Keeps I x) :
    Keeps I (side arm) fun built => ∀ x, built = .body x → Keeps I x := by
  cases arm with
  | body x =>
    refine .pure ?_
    rintro _ ⟨⟩
    exact harm x rfl
  | built ref =>
    rw [side, map_eq_pure_bind]
    exact (handle_keeps ref).bind fun _ _ => .pure (by rintro _ ⟨⟩)

include hfind in
theorem condVia_keeps {ifTrue : Arm (Gen Unit) HandleRef} {ifFalse : Option (Arm (Gen Unit) HandleRef)}
    (htrue : ∀ x, ifTrue = .body x → Keeps I x) (hfalse : ∀ x, ifFalse = some (.body x) → Keeps I x)
    (condition : Expr) (exit : Option BlockRef) :
    Keeps I (condVia find condition ifTrue ifFalse exit) := by
  refine (eval_keeps _).bind fun c _ => (side_keeps htrue).bind fun x hx => ?_
  have hother : Keeps I (ifFalse.mapM side) fun y => ∀ z, y = some (.body z) → Keeps I z := by
    cases ifFalse with
    | none => exact .pure (by simp)
    | some arm =>
      refine (side_keeps fun z hz => hfalse z (hz ▸ rfl)).bind fun y hy => .pure ?_
      simpa using hy
  refine hother.bind fun y hy => (Keeps.mapM hfind exit).bind fun exit hexit => ?_
  exact (cond_keeps h hx hy c hexit).bind fun _ _ => record_keeps h rfl

include hfind in
theorem loopVia_keeps {compare : Option (Gen Unit × Expr)} {body increment : Option (Gen Unit)}
    (hcompare : ∀ c ∈ compare, Keeps I c.1) (hbody : ∀ x ∈ body, Keeps I x)
    (hincrement : ∀ x ∈ increment, Keeps I x) (vars : List Expr) (names : List String)
    (exit : Option BlockRef) : Keeps I (loopVia find vars names compare body increment exit) := by
  refine (Keeps.within _).bind fun vars _ => (Keeps.mapM hfind exit).bind fun exit hexit => ?_
  refine Keeps.bind (Q := fun _ => True) (loop_keeps h ⟨?_, ?_, ?_⟩ hexit) fun _ _ =>
    (bindAll_keeps h _ _).bind fun _ _ => record_keeps h rfl
  . intro run hrun vs
    obtain ⟨c, hc, rfl⟩ := Option.map_eq_some_iff.1 hrun
    exact (bindAll_keeps h _ _).bind fun _ _ => (hcompare c hc).bind fun _ _ => eval_keeps _
  . intro run hrun vs
    obtain ⟨x, hx, rfl⟩ := Option.map_eq_some_iff.1 hrun
    exact (bindAll_keeps h _ _).bind fun _ _ => hbody x hx
  . intro run hrun vs
    obtain ⟨x, hx, rfl⟩ := Option.map_eq_some_iff.1 hrun
    exact (bindAll_keeps h _ _).bind fun _ _ => hincrement x hx

end Script

section Run

variable {I : GenState → Prop} {movable : BlockId → Prop} {find : BlockRef → Gen BlockId}
  {expand : Macro → List Operand → Gen Operand}

mutual

theorem runStmtVia_keeps (h : Stable I movable) (hexpand : ∀ m args, Keeps I (expand m args))
    (hfind : ∀ ref, Keeps I (find ref) movable) (stmt : Stmt) :
    Keeps I (runStmtVia find expand stmt) := by
  cases stmt with
  | compute op name =>
    exact (Keeps.within _).bind fun _ _ => ((perform_straight _).keeps h).bind fun _ _ =>
      (bindName_keeps h _ _).bind fun _ _ => record_keeps h rfl
  | operate op lhs rhs name =>
    exact (Keeps.within _).bind fun _ _ => (eval_keeps _).bind fun _ _ =>
      (eval_keeps _).bind fun _ _ => ((operator_straight _ _ _).keeps h).bind fun _ _ =>
        (bindName_keeps h _ _).bind fun _ _ => record_keeps h rfl
  | free ptr =>
    exact (eval_keeps _).bind fun _ _ => ((free_straight _).keeps h).bind fun _ _ => record_keeps h rfl
  | store a ptr =>
    exact (eval_keeps _).bind fun _ _ => (eval_keeps _).bind fun _ _ =>
      ((store_straight _ _).keeps h).bind fun _ _ => record_keeps h rfl
  | ret a => exact (eval_keeps _).bind fun _ _ => ret_keeps h _
  | directRet a =>
    exact (eval_keeps _).bind fun _ _ => directRet_keeps h _
  | prepareRet a =>
    exact (eval_keeps _).bind fun _ _ => (prepareRet_keeps h _).bind fun _ _ => record_keeps h rfl
  | conditionalRet condition a otherwise =>
    exact (eval_keeps _).bind fun _ _ => (eval_keeps _).bind fun _ _ =>
      (Keeps.mapM (block_keeps h) _).bind fun _ _ => (conditionalRet_keeps h _ _ _).bind fun _ _ =>
        record_keeps h rfl
  | branch target =>
    exact (block_keeps h _).bind fun _ _ => (branch_keeps h _).bind fun _ _ => record_keeps h rfl
  | unreachable => exact (close_keeps h rfl).bind fun _ _ => record_keeps h rfl
  | finish => exact (finish_keeps h).bind fun _ _ => record_keeps h rfl
  | comment text => exact ((comment_straight _).keeps h).bind fun _ _ => record_keeps h rfl
  | returnBlock => exact (returnBlock_keeps h).bind fun _ _ => record_keeps h rfl
  | fail message => exact .throw _
  | bind a name =>
    exact (eval_keeps _).bind fun _ _ => (bindName_keeps h _ _).bind fun _ _ => record_keeps h rfl
  | call callee args name =>
    exact (eval_keeps _).bind fun _ _ => (Keeps.within _).bind fun _ _ =>
      (call_keeps h hexpand _ _).bind fun _ _ => (bindName_keeps h _ _).bind fun _ _ =>
        record_keeps h rfl
  | block label body name =>
    exact (inBlock_keeps h (runStmtsVia_keeps h hexpand hfind body) _).bind fun _ _ =>
      (bindHandle_keeps h _ _).bind fun _ _ => record_keeps h rfl
  | cond condition ifTrue ifFalse exit =>
    rw [runStmtVia_cond]
    apply condVia_keeps h hfind
    . cases ifTrue with
      | body b =>
        rintro _ ⟨⟩
        exact runStmtsVia_keeps h hexpand hfind b
      | built ref => rintro _ ⟨⟩
    . rcases ifFalse with _ | b | ref
      . rintro _ ⟨⟩
      . rintro _ ⟨⟩
        exact runStmtsVia_keeps h hexpand hfind b
      . rintro _ ⟨⟩
  | loop vars names compare body increment exit =>
    rw [runStmtVia_loop]
    apply loopVia_keeps h hfind
    . cases compare with
      | none => rintro _ ⟨⟩
      | some c =>
        rintro _ ⟨⟩
        exact runStmtsVia_keeps h hexpand hfind c.1
    . cases body with
      | none => rintro _ ⟨⟩
      | some b =>
        rintro _ ⟨⟩
        exact runStmtsVia_keeps h hexpand hfind b
    . cases increment with
      | none => rintro _ ⟨⟩
      | some b =>
        rintro _ ⟨⟩
        exact runStmtsVia_keeps h hexpand hfind b
  | inspect =>
    exact Keeps.bind (Q := fun _ => True) (Keeps.get.bind fun _ _ => .pure trivial) fun _ _ =>
      record_keeps h rfl
  | attempt s => exact (runStmtVia_keeps h hexpand hfind s).tryCatch fun _ => record_keeps h rfl

theorem runStmtsVia_keeps (h : Stable I movable) (hexpand : ∀ m args, Keeps I (expand m args))
    (hfind : ∀ ref, Keeps I (find ref) movable) (stmts : List Stmt) :
    Keeps I (runStmtsVia find expand stmts) := by
  cases stmts with
  | nil => exact .pure trivial
  | cons s ss =>
    exact (runStmtVia_keeps h hexpand hfind s).bind fun _ _ => runStmtsVia_keeps h hexpand hfind ss

end

variable (h : Stable I movable) (hfind : ∀ ref, Keeps I (find ref) movable)

include h hfind

theorem expandVia_keeps (depth : Nat) (m : Macro) (args : List Operand) :
    Keeps I (m.expandVia find depth args) := by
  induction depth generalizing m args with
  | zero => exact .throw _
  | succ depth ih =>
    exact withNames_keeps h ((runStmtsVia_keeps h ih hfind m.body).bind fun _ _ => eval_keeps _) _

theorem scriptVia_keeps (body : List Stmt) : Keeps I (scriptVia find body) :=
  runStmtsVia_keeps h (expandVia_keeps h hfind _) hfind body

end Run

end Gen

end ScriptedIR
