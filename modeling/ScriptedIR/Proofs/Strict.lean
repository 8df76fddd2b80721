import ScriptedIR.Proofs.Keeping

/-!
Strict runs of scripts. A strict run insists on structure: it refuses to finish a block by hand, to go on
after an error, to take blocks that were built before as the sides of a conditional, and to leave a
conditional or a loop for the entry or for a block that is not there. Apart from what it refuses it does
what the script does.
-/

namespace ScriptedIR

/--
A reference that leads to a block whatever it is. The others lead to blocks of loops, to the return block
and to blocks that were built before.
-/
def BlockRef.isBare : BlockRef → Bool
  | .start | .current | .id _ => true
  | .next | .exit | .returning | .named _ => false

namespace Gen

/--
The block that an exit refers to, which has to be there and must not be the entry.
-/
def elsewhere (ref : BlockRef) : Gen BlockId := do
  let id ← block ref
  let s ← get
  if ref.isBare ∧ (id = s.entry ∨ s.function.code? id = none) then throw (.argument .noSuchBlock)
  return id

def refuse : Gen Unit := throw (.argument (.raised "not structured"))

mutual

def runStrictly (expand : Macro → List Operand → Gen Operand) : Stmt → Gen Unit
  | .finish | .attempt _ => refuse
  | .block label body name => do
    let h ← inBlock label (runAllStrictly expand body)
    bindHandle name h
    record (.handle h)
  | .cond condition ifTrue ifFalse exit =>
    match ifTrue with
    | .built _ => refuse
    | .body b =>
      match ifFalse with
      | none => condVia elsewhere condition (.body (runAllStrictly expand b)) none exit
      | some (.built _) => refuse
      | some (.body c) =>
        condVia elsewhere condition (.body (runAllStrictly expand b))
          (some (.body (runAllStrictly expand c))) exit
  | .loop vars names compare body increment exit =>
    loopVia elsewhere vars names
      (match compare with
        | some (b, result) => some (runAllStrictly expand b, result)
        | none => none)
      (match body with
        | some b => some (runAllStrictly expand b)
        | none => none)
      (match increment with
        | some b => some (runAllStrictly expand b)
        | none => none)
      exit
  | s => runStmt expand s

def runAllStrictly (expand : Macro → List Operand → Gen Operand) : List Stmt → Gen Unit
  | [] => return
  | s :: ss => do
    runStrictly expand s
    runAllStrictly expand ss

end

theorem runStrictly_loop (expand : Macro → List Operand → Gen Operand) (vars : List Expr)
    (names : List String) (compare : Option (List Stmt × Expr)) (body increment : Option (List Stmt))
    (exit : Option BlockRef) :
    runStrictly expand (.loop vars names compare body increment exit) =
      loopVia elsewhere vars names (compare.map fun c => (runAllStrictly expand c.1, c.2))
        (body.map (runAllStrictly expand)) (increment.map (runAllStrictly expand)) exit := by
  cases compare <;> cases body <;> cases increment <;> rfl

end Gen

open Gen in
def Macro.expandStrictly (depth : Nat) (m : Macro) (args : List Operand) : Gen Operand :=
  match depth with
  | 0 => throw (.argument .expansionDepth)
  | depth + 1 =>
    withNames (.ofList (m.params.zip args)) do
      runAllStrictly (Macro.expandStrictly depth) m.body
      eval m.result

namespace Gen

def strict (body : List Stmt) : Gen Unit := runAllStrictly (Macro.expandStrictly Macro.maxDepth) body

def Refines (x y : Gen α) : Prop := ∀ s a t, exec x s = (.ok a, t) → exec y s = (.ok a, t)

namespace Refines

theorem refl (x : Gen α) : Refines x x := fun _ _ _ => id

theorem throw {e : ScriptError} {y : Gen α} : Refines (throw e) y := by
  rintro s a t ⟨⟩

theorem bind {x y : Gen α} {f g : α → Gen β} (hx : Refines x y) (hf : ∀ a, Refines (f a) (g a)) :
    Refines (x >>= f) (y >>= g) := by
  intro s b u h
  obtain ⟨a, t, hxt, hfu⟩ := exec_bind_ok.1 h
  exact exec_bind_ok.2 ⟨a, t, hx s a t hxt, hf a t b u hfu⟩

theorem mapM {f g : α → Gen β} (h : ∀ a, Refines (f a) (g a)) (a : Option α) :
    Refines (a.mapM f) (a.mapM g) := by
  cases a with
  | none => exact .refl _
  | some a => exact (h a).bind fun _ => .refl _

theorem onCursor {x y : Gen α} (h : Refines x y) (c : Cursor) :
    Refines (onCursor c x) (onCursor c y) := by
  intro s a t hexec
  obtain ⟨u, hu, hcursor, rfl⟩ := exec_onCursor.1 hexec
  exact exec_onCursor.2 ⟨u, h _ _ _ hu, hcursor, rfl⟩

theorem withNames {x y : Gen α} (h : Refines x y) (names : Names Operand) :
    Refines (withNames names x) (withNames names y) := by
  intro s a t hexec
  obtain ⟨u, hu, rfl⟩ := exec_withNames.1 hexec
  exact exec_withNames.2 ⟨u, h _ _ _ hu, rfl⟩

theorem inBlock {x y : Gen Unit} (h : Refines x y) (label : String) :
    Refines (inBlock label x) (inBlock label y) :=
  (refl _).bind fun _ => (refl _).bind fun _ => (h.onCursor _).bind fun _ => .refl _

theorem inLoop {x y : Gen Unit} (h : Refines x y) (next exit block : BlockId) :
    Refines (inLoop next exit block x) (inLoop next exit block y) :=
  (refl _).bind fun _ => (h.onCursor _).bind fun _ => .refl _

end Refines

theorem elsewhere_refines (ref : BlockRef) : Refines (elsewhere ref) (block ref) := by
  intro s id t hexec
  obtain ⟨id', u, hblock, hexec⟩ := exec_bind_ok.1 hexec
  obtain ⟨_, _, ⟨⟩, hexec⟩ := exec_bind_ok.1 hexec
  split at hexec
  . cases hexec
  . cases hexec
    exact hblock

theorem cond_refines {x y : Gen Unit} {x' y' : Option (Gen Unit)} (h : Refines x y)
    (h' : Option.Rel Refines x' y') (condition : Operand) (given : Option BlockId) :
    Refines (cond condition (.body x) (x'.map .body) given)
      (cond condition (.body y) (y'.map .body) given) := by
  refine (Refines.refl _).bind fun _ => (Refines.refl _).bind fun _ => (h.inBlock _).bind fun arm => ?_
  refine (Refines.refl _).bind fun _ => (Refines.refl _).bind fun _ => ?_
  refine Refines.bind ?_ fun _ => .refl _
  cases h' with
  | none => exact .refl _
  | some h' => exact ((h'.inBlock _).bind fun _ => .refl _).bind fun _ => .refl _

theorem condVia_bodies (find : BlockRef → Gen BlockId) (x : Gen Unit) (x' : Option (Gen Unit))
    (condition : Expr) (exit : Option BlockRef) :
    condVia find condition (.body x) (x'.map .body) exit = (do
      let condition ← eval condition
      let exit ← exit.mapM find
      cond condition (.body x) (x'.map .body) exit
      record .done) := by
  cases x' <;> rfl

theorem condVia_refines {x y : Gen Unit} {x' y' : Option (Gen Unit)} (h : Refines x y)
    (h' : Option.Rel Refines x' y') (condition : Expr) (exit : Option BlockRef) :
    Refines (condVia elsewhere condition (.body x) (x'.map .body) exit)
      (condVia block condition (.body y) (y'.map .body) exit) := by
  rw [condVia_bodies, condVia_bodies]
  refine (Refines.refl _).bind fun _ => (Refines.mapM elsewhere_refines exit).bind fun _ => ?_
  exact (cond_refines h h' _ _).bind fun _ => .refl _

structure LoopParts.Refines (parts parts' : LoopParts) : Prop where
  vars : parts'.vars = parts.vars
  compare : Option.Rel (fun x y => ∀ vs, Gen.Refines (x vs) (y vs)) parts.compare parts'.compare
  body : Option.Rel (fun x y => ∀ vs, Gen.Refines (x vs) (y vs)) parts.body parts'.body
  increment : Option.Rel (fun x y => ∀ vs, Gen.Refines (x vs) (y vs)) parts.increment parts'.increment
  exit : parts'.exit = parts.exit

theorem isSome_of_rel {x : Option α} {y : Option β} {R : α → β → Prop} (h : Option.Rel R x y) :
    y.isSome = x.isSome := by
  cases h <;> rfl

namespace LoopParts.Refines

variable {parts parts' : LoopParts} (h : parts.Refines parts') (slots : List Value)
  (header body increment exit last : BlockId)

include h

theorem require : parts'.require = parts.require := by
  simp only [LoopParts.require, ← Option.not_isSome, isSome_of_rel h.compare, isSome_of_rel h.body,
    isSome_of_rel h.increment]

theorem needsIncrement : parts'.needsIncrement = parts.needsIncrement := by
  simp only [LoopParts.needsIncrement, isSome_of_rel h.compare, isSome_of_rel h.body,
    isSome_of_rel h.increment]

theorem leave : parts'.leave = parts.leave := by
  simp only [LoopParts.leave, h.exit]

theorem bodyPart :
    Gen.Refines (parts.bodyPart slots header body increment exit)
      (parts'.bodyPart slots header body increment exit) := by
  have hbody := h.body
  have hturn : Gen.Refines (parts.turn slots increment) (parts'.turn slots increment) := by
    unfold turn
    generalize parts.body = x, parts'.body = y at hbody
    cases hbody with
    | none => exact .refl _
    | some hrun => exact (Gen.Refines.refl _).bind fun vs => (hrun vs).bind fun _ => .refl _
  unfold LoopParts.bodyPart
  rw [isSome_of_rel h.body, isSome_of_rel h.compare]
  split
  . exact hturn.inLoop _ _ _
  . exact .refl _

theorem testPart :
    Gen.Refines (parts.testPart slots header body increment exit last)
      (parts'.testPart slots header body increment exit last) := by
  have hcompare := h.compare
  unfold LoopParts.testPart
  generalize parts.compare = x, parts'.compare = y at hcompare
  cases hcompare with
  | none => exact .refl _
  | some hrun =>
    refine Gen.Refines.bind (Gen.Refines.inLoop ?_ _ _ _) fun _ => .refl _
    exact (Gen.Refines.refl _).bind fun vs => (hrun vs).bind fun _ => .refl _

theorem incrementPart :
    Gen.Refines (parts.incrementPart slots header increment exit last)
      (parts'.incrementPart slots header increment exit last) := by
  have hincrement := h.increment
  unfold LoopParts.incrementPart
  generalize parts.increment = x, parts'.increment = y at hincrement
  cases hincrement with
  | none => exact .refl _
  | some hrun => exact Gen.Refines.inLoop ((hrun slots).bind fun _ => .refl _) _ _ _

end LoopParts.Refines

theorem loop_refines {parts parts' : LoopParts} (h : parts.Refines parts') :
    Refines (loop parts) (loop parts') := by
  rw [LoopParts.loop_eq, LoopParts.loop_eq, h.require, h.needsIncrement, h.leave, h.vars, h.exit,
    isSome_of_rel h.compare]
  refine (Refines.refl _).bind fun _ => (Refines.refl _).bind fun _ => (Refines.refl _).bind fun slots =>
    (Refines.refl _).bind fun header => (Refines.refl _).bind fun body =>
      (Refines.refl _).bind fun increment => (Refines.refl _).bind fun exit => ?_
  refine (h.bodyPart slots header body increment exit).bind fun last => ?_
  refine (h.testPart slots header body increment exit last).bind fun last => ?_
  exact (h.incrementPart slots header increment exit last).bind fun _ => .refl _

section Script

variable {expand expand' : Macro → List Operand → Gen Operand}

theorem call_refines (h : ∀ m args, Refines (expand m args) (expand' m args)) (callee : Operand)
    (args : List Operand) : Refines (call expand callee args) (call expand' callee args) := by
  cases callee with
  | str name =>
    refine (Refines.refl get).bind fun s => ?_
    split
    . dsimp only
      split
      . exact (Refines.refl _).bind fun _ => h _ _
      . exact h _ _
    . exact .refl _
    . exact .refl _
  | _ => exact .refl _

mutual

theorem runStrictly_refines (h : ∀ m args, Refines (expand m args) (expand' m args)) (stmt : Stmt) :
    Refines (runStrictly expand stmt) (runStmt expand' stmt) := by
  cases stmt with
  | finish | attempt => exact .throw
  | call callee args name =>
    exact (Refines.refl _).bind fun callee => (Refines.refl _).bind fun args =>
      (call_refines h callee args).bind fun _ => .refl _
  | block label body name =>
    exact ((runAllStrictly_refines h body).inBlock label).bind fun _ => .refl _
  | cond condition ifTrue ifFalse exit =>
    -- both runs have the same parts, and differ in how they find the exit
    rw [runStmt_eq_condVia]
    rcases ifTrue with b | ref
    . rcases ifFalse with _ | c | ref'
      . exact condVia_refines (runAllStrictly_refines h b) .none condition exit
      . exact condVia_refines (runAllStrictly_refines h b) (.some (runAllStrictly_refines h c))
          condition exit
      . exact .throw
    . exact .throw
  | loop vars names compare body increment exit =>
    rw [runStrictly_loop, runStmt_eq_loopVia]
    refine (Refines.refl _).bind fun vars => (Refines.mapM elsewhere_refines exit).bind fun exit => ?_
    refine Refines.bind (loop_refines ⟨rfl, ?_, ?_, ?_, rfl⟩) fun _ => .refl _
    . cases compare with
      | none => exact .none
      | some c => exact .some fun vs => (Refines.refl _).bind fun _ =>
          (runAllStrictly_refines h c.1).bind fun _ => .refl _
    . cases body with
      | none => exact .none
      | some b => exact .some fun vs => (Refines.refl _).bind fun _ => runAllStrictly_refines h b
    . cases increment with
      | none => exact .none
      | some b => exact .some fun vs => (Refines.refl _).bind fun _ => runAllStrictly_refines h b
  | _ => exact .refl _

theorem runAllStrictly_refines (h : ∀ m args, Refines (expand m args) (expand' m args))
    (stmts : List Stmt) : Refines (runAllStrictly expand stmts) (runStmts expand' stmts) := by
  cases stmts with
  | nil => exact .refl _
  | cons s ss => exact (runStrictly_refines h s).bind fun _ => runAllStrictly_refines h ss

end

theorem expandStrictly_refines (depth : Nat) (m : Macro) (args : List Operand) :
    Refines (m.expandStrictly depth args) (m.expand depth args) := by
  induction depth generalizing m args with
  | zero => exact .throw
  | succ depth ih =>
    exact Refines.withNames ((runAllStrictly_refines ih m.body).bind fun _ => .refl _) _

theorem strict_refines (body : List Stmt) : Refines (strict body) (script body) :=
  runAllStrictly_refines (expandStrictly_refines _) body

end Script

end Gen

end ScriptedIR
