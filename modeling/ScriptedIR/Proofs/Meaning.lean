import ScriptedIR.Proofs.Completion
import ScriptedIR.Proofs.Endings
import ScriptedIR.Proofs.Nesting

/-!
What scripts mean. In a nested script control follows the nesting: conditionals and loops have no exits
of their own, and branches lead out of the innermost loop, on with it, or to where the function returns.
Such a script has an outline, and the function that is built of it does what evaluation of the outline
does.
-/

namespace ScriptedIR

mutual

def Stmt.Nested (texts : String → Prop) : Stmt → Prop
  | .conditionalRet _ _ otherwise => otherwise = none
  | .branch target => target = .next ∨ target = .exit ∨ target = .returning
  | .bind a _ => a.Plain texts
  | .call callee args _ => callee.Plain texts ∧ ∀ a ∈ args, a.Plain texts
  | .cond _ ifTrue ifFalse exit =>
    (match ifTrue with
      | .body b => Stmt.AllNested texts b
      | .built _ => False) ∧
    (match ifFalse with
      | some (.body b) => Stmt.AllNested texts b
      | some (.built _) => False
      | none => True) ∧
    exit = none
  | .loop _ _ compare body increment exit =>
    (match compare with
      | some (b, _) => Stmt.AllNested texts b
      | none => True) ∧
    (match body with
      | some b => Stmt.AllNested texts b
      | none => True) ∧
    (match increment with
      | some b => Stmt.AllNested texts b
      | none => True) ∧
    exit = none
  | .finish | .returnBlock | .block _ _ _ | .attempt _ => False
  | _ => True

def Stmt.AllNested (texts : String → Prop) : List Stmt → Prop
  | [] => True
  | s :: ss => s.Nested texts ∧ Stmt.AllNested texts ss

end

def Macro.Nested (texts : String → Prop) (m : Macro) : Prop :=
  Stmt.AllNested texts m.body ∧ m.result.Plain texts

def Scope.nested (texts : String → Prop) : Scope := ⟨texts, Macro.Nested texts, False⟩

namespace Stmt

variable {texts : String → Prop}

section Loop

variable {vars : List Expr} {names : List String} {compare : Option (List Stmt × Expr)}
  {body increment : Option (List Stmt)} {exit : Option BlockRef}

theorem nested_loop (h : (loop vars names compare body increment exit).Nested texts) :
    (∀ c ∈ compare, AllNested texts c.1) ∧ (∀ b ∈ body, AllNested texts b) ∧
      (∀ b ∈ increment, AllNested texts b) ∧ exit = none := by
  cases compare <;> cases body <;> cases increment
  all_goals
    obtain ⟨hcompare, hbody, hincrement, hexit⟩ := h
    exact ⟨by grind, by grind, by grind, hexit⟩

end Loop

end Stmt

def Outline.loopParts (expand : Macro → List Operand → Outline Operand) (names : List String)
    (compare : Option (List Stmt × Expr)) (body increment : Option (List Stmt)) (vars : List Operand) :
    Outline.LoopParts where
  vars
  compare := compare.map fun c values => do
    Gen.bindAll names values
    stmts expand c.1
    Gen.eval c.2
  body := body.map fun b values => do
    Gen.bindAll names values
    stmts expand b
  increment := increment.map fun b slots => do
    Gen.bindAll names slots
    stmts expand b

theorem Outline.stmt_loop (expand : Macro → List Operand → Outline Operand) (vars : List Expr)
    (names : List String) (compare : Option (List Stmt × Expr)) (body increment : Option (List Stmt)) :
    stmt expand (.loop vars names compare body increment none) = (do
      let vars ← Gen.evalAll vars
      let slots ← loop (loopParts expand names compare body increment vars)
      Gen.bindAll names slots) := by
  cases compare <;> cases body <;> cases increment <;> rfl

namespace Gen

open Outline (straight)

variable {S : Scope} {expand : Macro → List Operand → Gen Operand}
  {outline : Macro → List Operand → Outline Operand}

theorem eval_sim {e : Expr} (he : e.Plain S.texts) : Sim S (eval e) (straight (eval e)) S.admits :=
  (Straight.within _).sim.weaken (eval_tame he)

theorem evalAll_sim {es : List Expr} (hes : ∀ e ∈ es, e.Plain S.texts) :
    Sim S (evalAll es) (straight (evalAll es)) fun os => ∀ o ∈ os, S.admits o :=
  (Straight.within _).sim.weaken (evalAll_tame hes)

theorem inspect_sim : Sim S (do record (.snapshot (← snapshot))) (pure ()) fun _ => True := by
  have htame : Tame S (fun _ => True) (do record (.snapshot (← snapshot))) fun _ _ => True :=
    Tame.bind (Q := fun _ _ => True) (.get fun s => .pure fun _ _ _ => trivial) fun _ => record_tame _
  refine ⟨htame, ?_⟩
  rintro s _ _ e ⟨⟩ hs - htwin
  exact ⟨[], e, rfl, { htwin with }, (GenState.Lowers.refl s).relabel rfl rfl rfl rfl⟩

theorem condStmt_sim {b : List Stmt} {f : Option (List Stmt)}
    (hb : Sim S (runStmts expand b) (Outline.stmts outline b) fun _ => True)
    (hf : ∀ b ∈ f, Sim S (runStmts expand b) (Outline.stmts outline b) fun _ => True)
    (condition : Expr) :
    Sim S (runStmt expand (.cond condition (.body b) (f.map .body) none))
      (Outline.stmt outline (.cond condition (.body b) (f.map .body) none)) fun _ => True := by
  rw [runStmt_cond]
  cases f with
  | none => exact (Straight.within _).sim.bind fun c => (cond_sim hb .none c).recorded _
  | some b' =>
    exact (Straight.within _).sim.bind fun c => (cond_sim hb (.some (hf b' rfl)) c).recorded _

theorem loopStmt_sim {names : List String} {compare : Option (List Stmt × Expr)}
    {body increment : Option (List Stmt)}
    (hcompare : ∀ c ∈ compare, Sim S (runStmts expand c.1) (Outline.stmts outline c.1) fun _ => True)
    (hbody : ∀ b ∈ body, Sim S (runStmts expand b) (Outline.stmts outline b) fun _ => True)
    (hincrement : ∀ b ∈ increment, Sim S (runStmts expand b) (Outline.stmts outline b) fun _ => True)
    (vars : List Expr) :
    Sim S (runStmt expand (.loop vars names compare body increment none))
      (Outline.stmt outline (.loop vars names compare body increment none)) fun _ => True := by
  rw [runStmt_loop, Outline.stmt_loop]
  have hparts (vs : List Operand) : (loopParts expand names compare body increment vs none).Sims S
      (Outline.loopParts outline names compare body increment vs) := by
    refine ⟨rfl, ?_, ?_, ?_, rfl⟩
    . cases compare with
      | none => exact .none
      | some c =>
        exact .some fun vs => (bindAll_sim _ _).bind fun _ => (hcompare c rfl).bind fun _ =>
          (Straight.within _).sim
    . cases body with
      | none => exact .none
      | some b => exact .some fun vs => (bindAll_sim _ _).bind fun _ => hbody b rfl
    . cases increment with
      | none => exact .none
      | some b => exact .some fun vs => (bindAll_sim _ _).bind fun _ => hincrement b rfl
  exact (Straight.within _).sim.bind fun vs => (loop_sim (hparts vs)).bind fun _ =>
    (bindAll_sim _ _).recorded _

mutual

theorem stmt_sim (h : Expands S expand) (ho : Outlines S expand outline) (stmt : Stmt)
    (hstmt : stmt.Nested S.texts) :
    Sim S (runStmt expand stmt) (Outline.stmt outline stmt) fun _ => True := by
  have heval (e : Expr) : Sim S (eval e) (straight (eval e)) fun _ => True := (Straight.within _).sim
  cases stmt with
  | compute op name =>
    exact (Straight.within _).sim.bind fun _ => (perform_straight _).sim.bind fun v =>
      (bindName_sim name (show Scope.admits _ (.value v) from trivial)).recorded _
  | operate op lhs rhs name =>
    exact (Straight.within _).sim.bind fun _ => (heval _).bind fun _ => (heval _).bind fun _ =>
      (operator_straight _ _ _).sim.bind fun v =>
        (bindName_sim name (show Scope.admits _ (.value v) from trivial)).recorded _
  | free ptr => exact (heval _).bind fun _ => (free_straight _).sim.recorded _
  | store a ptr =>
    exact (heval _).bind fun _ => (heval _).bind fun _ => (store_straight _ _).sim.recorded _
  | ret a => exact (heval _).bind fun _ => (ret_sim _).noted _
  | prepareRet a => exact (heval _).bind fun _ => (prepareRet_sim _).recorded _
  | directRet a => exact (heval _).bind fun _ => (directRet_sim _).noted _
  | conditionalRet condition a otherwise =>
    cases hstmt
    exact (heval _).bind fun _ => (heval _).bind fun _ => (conditionalRet_sim _ _).recorded _
  | branch target =>
    rcases hstmt with rfl | rfl | rfl
    . exact again_sim.bind_recorded _
    . exact leave_sim.bind_recorded _
    . exact returning_sim.bind_recorded _
  | unreachable => exact unreachable_sim.recorded _
  | comment text => exact (comment_straight _).sim.recorded _
  | fail message => exact (Straight.throw _).sim
  | bind a name =>
    have htraced (o : Operand) : Traced (do bindName (some name) o; record (.operand o)) :=
      (bindName_traced _ _).bind fun _ => record_traced _
    exact (eval_sim hstmt).bind_of htraced fun o ho => (bindName_sim _ ho).recorded _
  | call callee args name =>
    -- what is called has to be in scope, so that the values are followed through the binds
    have hlast (o : Operand) : Traced (do bindName name o; record (.operand o)) :=
      (bindName_traced _ _).bind fun _ => record_traced _
    refine (eval_sim hstmt.1).bind_of (fun f => (Straight.within _).traced.bind fun args =>
      (call_traced h.traced f args).bind hlast) fun f hf => ?_
    refine (evalAll_sim hstmt.2).bind_of (fun args =>
      (call_traced h.traced f args).bind hlast) fun args hargs => ?_
    exact (call_sim h ho hf hargs).bind_of hlast fun o ho => (bindName_sim _ ho).recorded _
  | cond condition ifTrue ifFalse exit =>
    rcases ifTrue with b | ref
    . rcases ifFalse with _ | b' | ref'
      . obtain ⟨htrue, -, rfl⟩ := hstmt
        exact condStmt_sim (stmts_sim h ho b htrue) (f := none) (by simp) _
      . obtain ⟨htrue, hfalse, rfl⟩ := hstmt
        exact condStmt_sim (stmts_sim h ho b htrue) (f := some b')
          (by simpa using stmts_sim h ho b' hfalse) _
      . exact hstmt.2.1.elim
    . rcases ifFalse with _ | b' | ref'
      . exact hstmt.1.elim
      . exact hstmt.1.elim
      . exact hstmt.1.elim
  | loop vars names compare body increment exit =>
    obtain ⟨hcompare, hbody, hincrement, rfl⟩ := Stmt.nested_loop hstmt
    refine loopStmt_sim ?_ ?_ ?_ _
    . rcases compare with _ | ⟨b, result⟩
      . simp
      . rintro _ ⟨⟩
        exact stmts_sim h ho b (hcompare _ rfl)
    . rcases body with _ | b
      . simp
      . rintro _ ⟨⟩
        exact stmts_sim h ho b (hbody _ rfl)
    . rcases increment with _ | b
      . simp
      . rintro _ ⟨⟩
        exact stmts_sim h ho b (hincrement _ rfl)
  | inspect => exact inspect_sim
  | finish | returnBlock | block | attempt => exact hstmt.elim

theorem stmts_sim (h : Expands S expand) (ho : Outlines S expand outline) (stmts : List Stmt)
    (hstmts : Stmt.AllNested S.texts stmts) :
    Sim S (runStmts expand stmts) (Outline.stmts outline stmts) fun _ => True := by
  cases stmts with
  | nil => exact .pure trivial
  | cons s ss => exact (stmt_sim h ho s hstmts.1).bind fun _ => stmts_sim h ho ss hstmts.2

end

theorem outlines (texts : String → Prop) (depth : Nat) :
    Outlines (.nested texts) (Macro.expand depth) (Macro.outline depth) := by
  -- a body is expanded one level less deep than the macro it belongs to
  induction depth with
  | zero =>
    intro m args _ _
    exact (Straight.throw _).sim.weaken .throw
  | succ depth ih =>
    intro m args hm hargs
    have hexpands : Expands (.nested texts) (Macro.expand depth) :=
      ⟨expand_traced depth, fun hm hargs => (ih hm hargs).tame⟩
    refine withNames_sim ?_ ?_
    . have hbody := stmts_sim hexpands ih m.body hm.1
      exact hbody.bind fun _ => eval_sim hm.2
    . intro name o ho
      obtain ⟨p, hp, rfl⟩ := Names.mem_of_ofList ho
      exact hargs _ (List.of_mem_zip hp).2

theorem nested_expands (texts : String → Prop) (depth : Nat) :
    Expands (.nested texts) (Macro.expand depth) :=
  ⟨expand_traced depth, fun hm hargs => (outlines texts depth hm hargs).tame⟩

theorem script_sim {texts : String → Prop} {body : List Stmt} (h : Stmt.AllNested texts body) :
    Sim (.nested texts) (script body) (Outline.script body) fun _ => True :=
  stmts_sim (nested_expands texts _) (outlines texts _) body h

end Gen

namespace GenState

variable {s t e : GenState} {g : Function} {terminated : Bool}

theorem built_of_tidy (hs : s.work.Sane) (h : s.tidy = .ok (g, terminated)) : s.work.Built g := by
  have hnext : g.nextTemp = s.function.nextTemp := by rw [static_of_tidy h]
  exact ⟨hs, code?_of_tidy hs.distinct h, hnext⟩

theorem allocation_eq (h : s.Kin e) : e.allocation = (s.work.prologue s.entry).map .plain := by
  have hslot : s.work.returnSlot = e.returnSlot := h.returnSlot.symm
  have hentry : s.entry = s.work.entry := rfl
  unfold allocation Work.prologue
  rw [hslot]
  rcases e.returnSlot with _ | ⟨slot, ty⟩ | c
  . rfl
  . cases ty with
    | pointer ty =>
      dsimp only
      rw [if_pos hentry, List.map_singleton]
    | _ => rfl
  . rfl

theorem Lowers.realizes_entry {env : Env} {f : Function} {code : List Code} {v : Work}
    (h : s.Lowers code t) (hopen : s.cursor.finished = false) (hblock : s.cursor.block = s.entry)
    (hempty : s.work.Holds s.entry []) (hst : s.work.Before t.work) (hv : t.work.Before v)
    (hf : v.Built f) :
    Realizes env f (f.start v.entry) ((v.prologue v.entry).map .plain ++ code) 0
      (s.goals f (t.At v)) := by
  have hentry : v.entry = s.entry := (hst.trans hv).entry
  obtain ⟨rest, hrest⟩ := (hst.trans hv).grown hempty
  have hstart : f.start v.entry = ⟨v.entry, v.prologue v.entry ++ rest⟩ := by
    rw [← hentry] at hrest
    unfold Function.start
    rw [hf.code, hrest]
    rfl
  rw [hstart]
  refine Realizes.append (G := s.goals f (t.At v)) (m := 0) (Realizes.plains (v.prologue_plain _)) ?_
    (Nat.zero_le _)
  rintro _ rfl
  exact h.realizes hv hf ⟨hopen, hentry.trans hblock.symm, [], hentry ▸ hempty, hentry ▸ hrest⟩

theorem At.rest_eq_nil {p : Spot} (h : s.At s.work p) : p.rest = [] := by
  obtain ⟨-, -, body, hbody, hrest⟩ := h
  exact List.append_right_eq_self.1 (hrest.unique hbody)

end GenState

namespace Frame

variable {f g : Function}

theorem enter_eq_place {entry : BlockId} (hentry : f.entry? = some entry) (hparams : g.params = f.params)
    (hnext : g.nextTemp = f.nextTemp) (args : List Datum) :
    enter f args = (enter g args).place f (f.start entry) := by
  unfold enter
  rw [hentry, hparams, hnext, jump_eq_place]
  rfl

theorem enter_suits (hname : g.name = f.name) (hnext : g.nextTemp = f.nextTemp) (args : List Datum) :
    f.Suits (enter g args) := by
  exact ⟨hname, by simp [hnext]⟩

end Frame

/--
A run of a function does what an outline says: it ends as direct evaluation stops, and goes on for as
long as that runs out of fuel.
-/
def Function.FollowsAt (f : Function) (o : Outlined) (env : Env) (args : List Datum) (store : Store) :
    Prop :=
  ∀ fuel,
    (o.run env fuel args store = none ∧ env.Lasts fuel ⟨.enter f args, [], store⟩) ∨
    ∃ result store', o.run env fuel args store = some (.stop result store') ∧
      env.Ends ⟨.enter f args, [], store⟩ result store'

def Function.Follows (f : Function) (o : Outlined) : Prop :=
  ∀ env args store, f.FollowsAt o env args store

namespace Function

variable {f g : Function} {o : Outlined} {env : Env} {args : List Datum} {store : Store}

theorem isDeclaration_of_start {id : BlockId} (h : f.entry? = some id) : f.isDeclaration = false := by
  cases hblocks : f.blocks <;> simp [ entry?, isDeclaration, hblocks] at h ⊢

theorem FollowsAt.of_meets {G : Goals} (hverify : f.verify = .ok ()) (hdefined : f.isDeclaration = false)
    (hend : ∀ p, G.next p → p.rest = []) (hleave : ∀ p, ¬ G.leave p) (hagain : ∀ p, ¬ G.again p)
    (h : ∀ fuel, Meets env f 0 fuel G ⟨.enter f args, [], store⟩ (o.run env fuel args store)) :
    f.FollowsAt o env args store := by
  intro fuel
  have hmeets := h fuel
  generalize o.run env fuel args store = flow at hmeets ⊢
  cases hmeets with
  | lasts hlasts => exact .inl ⟨rfl, hlasts⟩
  | leave _ hp => exact absurd hp (hleave _)
  | again _ hp => exact absurd hp (hagain _)
  | stop hends => exact .inr ⟨_, _, rfl, hends⟩
  | next _ hp hgoes =>
    -- the evaluation comes to the end of the code, where the machine would run out of its block
    obtain ⟨k, -, hk⟩ := hgoes
    have hbegun : (⟨.enter f args, [], store⟩ : State).bottom.Verified :=
      .of_enter hverify hdefined args
    have hbottom := Env.Reaches.invariant (P := fun s => s.bottom.Verified)
      (fun _ _ => Env.next_bottom) hbegun ⟨k, hk⟩
    exact absurd (hend _ hp) hbottom.inside.1

theorem FollowsAt.runFor (h : f.FollowsAt o env args store) :
    (∀ fuel result store', o.run env fuel args store = some (.stop result store') →
      ∃ n, ∀ steps, n ≤ steps →
        ((env.withSteps steps).runFor steps 0 ⟨.enter f args, [], store⟩).result = result ∧
        ((env.withSteps steps).runFor steps 0 ⟨.enter f args, [], store⟩).store = store') ∧
    ∀ steps, (env.runFor steps 0 ⟨.enter f args, [], store⟩).result ≠
        .error (.stepLimit env.limits.steps) →
      ∃ fuel, o.run env fuel args store = some (.stop
        (env.runFor steps 0 ⟨.enter f args, [], store⟩).result
        (env.runFor steps 0 ⟨.enter f args, [], store⟩).store) := by
  constructor
  . intro fuel result store' hrun
    rcases h fuel with ⟨hnone, -⟩ | ⟨_, _, hstop, n, hn⟩
    . rw [hrun] at hnone
      cases hnone
    . rw [hrun] at hstop
      cases hstop
      exact ⟨n, fun steps hle =>
        Env.runFor_of_ended ((Env.iterate_withSteps steps n _).trans hn) hle 0⟩
  . intro steps hlimit
    rcases env.runFor_ends steps 0 ⟨.enter f args, [], store⟩ with ⟨_, _, hcut⟩ | hends
    . exact absurd hcut hlimit
    . -- with as much fuel as the machine takes steps, the evaluation comes to its end
      obtain ⟨fuel, hfuel⟩ := hends.not_lasts
      rcases h fuel with ⟨-, hlasts⟩ | ⟨_, _, hstop, hends'⟩
      . exact absurd hlasts hfuel
      . obtain ⟨hresult, hstore⟩ := hends.unique hends'
        exact ⟨fuel, by rw [hstop, hresult, hstore]⟩

theorem FollowsAt.run {name : String} (h : f.FollowsAt o env args store)
    (hparams : o.function.params = f.params) (hnext : o.function.nextTemp = f.nextTemp)
    (hfound : env.module.function? name = some f) (htakes : f.Takes args)
    (hdefined : f.isDeclaration = false) (hdepth : 0 < env.limits.depth) :
    (∀ fuel result store', o.call env fuel args store = some (.stop result store') →
      ∃ n, ∀ steps, n ≤ steps → ((env.withSteps steps).run store name args).result = result ∧
        ((env.withSteps steps).run store name args).store = store') ∧
    ((env.run store name args).result ≠ .error (.stepLimit env.limits.steps) →
      ∃ fuel, o.call env fuel args store =
        some (.stop (env.run store name args).result (env.run store name args).store)) := by
  have hfound' (steps : Nat) : (env.withSteps steps).module.function? name = some f := hfound
  unfold Outlined.call
  rw [hparams, hnext]
  by_cases hfew : f.nextTemp < f.params.length
  . have hbroken {env' : Env} (hfound : env'.module.function? name = some f)
        (hdepth : 0 < env'.limits.depth) :
        env'.run store name args = ⟨.error (.breakdown (.slots f.nextTemp)), store, 0⟩ := by
      rw [Env.run, Env.dispatch_defined hfound htakes hdefined hdepth, if_pos hfew]
    simp only [if_pos hfew, hbroken hfound hdepth]
    refine ⟨?_, fun _ => ⟨0, trivial⟩⟩
    rintro fuel result store' ⟨⟩
    refine ⟨0, fun steps _ => ?_⟩
    rw [hbroken (hfound' steps) hdepth]
    exact ⟨rfl, rfl⟩
  . have hslots := Nat.le_of_not_lt hfew
    obtain ⟨hends, hrun⟩ := h.runFor
    simp only [if_neg hfew]
    rw [Env.run_eq_runFor hfound htakes hdefined hslots hdepth]
    refine ⟨?_, hrun _⟩
    intro fuel result store' hstop
    obtain ⟨n, hn⟩ := hends fuel result store' hstop
    refine ⟨n, fun steps hle => ?_⟩
    rw [Env.run_eq_runFor (hfound' steps) htakes hdefined hslots hdepth]
    exact hn steps hle

theorem FollowsAt.ends_of_ends {result : Except RunError Datum} {store' : Store}
    (hf : f.FollowsAt o env args store) (hg : g.FollowsAt o env args store)
    (h : env.Ends ⟨.enter f args, [], store⟩ result store') :
    env.Ends ⟨.enter g args, [], store⟩ result store' := by
  obtain ⟨fuel, hfuel⟩ := h.not_lasts
  rcases hf fuel with ⟨-, hlasts⟩ | ⟨_, _, hstop, hends⟩
  . exact absurd hlasts hfuel
  . obtain ⟨rfl, rfl⟩ := h.unique hends
    rcases hg fuel with ⟨hnone, -⟩ | ⟨_, _, hstop', hends'⟩
    . rw [hstop] at hnone
      cases hnone
    . cases hstop.symm.trans hstop'
      exact hends'

end Function

namespace Library

variable {lib lib' : Library} {name : String} {f : FunctionRef} {code : Function}
  {texts : String → Prop} {body : List Stmt}

theorem header_completed {s : GenState} {built : Function} {terminated : Bool}
    (hgrows : (lib.startState f code).Grows s) (htidy : s.tidy = .ok (built, terminated)) :
    built.name = code.name ∧ built.params = code.params ∧ built.variadic = code.variadic := by
  have hname := congrArg Function.name hgrows.evolves.header
  have hparams := congrArg Function.params hgrows.evolves.header
  have hvariadic := congrArg Function.variadic hgrows.evolves.header
  rw [GenState.static_of_tidy htidy]
  exact ⟨hname, hparams, hvariadic⟩

section Script

variable {s : GenState} (hdeclared : code.isDeclaration)
  (hmacros : ∀ text m, texts text → lib.macros.get? text .everything = some m → m.Nested texts)
  (hbody : Stmt.AllNested texts body)
  (hexec : Gen.exec (Gen.script body) (lib.startState f code) = (.ok (), s))

include hdeclared hmacros hbody hexec

theorem nested_grown : (lib.startState f code).Grows s ∧ s.Ready (.nested texts) ∧
    ∀ id, s.work.Open id → s.Writes id :=
  grown_of_tame hdeclared hmacros (Gen.script_sim hbody).tame hexec False.elim

theorem script_defined {built : Function} {terminated : Bool}
    (htidy : s.tidy = .ok (built, terminated)) : built.entry? = some s.entry := by
  obtain ⟨-, hs, -⟩ := nested_grown hdeclared hmacros hbody hexec
  have hreturn (block) (hblock : s.returnBlock = some block) : block ≠ s.entry :=
    (Gen.target_of_returnBlock hs.sane hblock).2
  exact GenState.entry_of_tidy htidy hs.sane.first hreturn

theorem nextTemp_outlined {built : Function} {terminated : Bool} {e : GenState}
    (htidy : s.tidy = .ok (built, terminated)) (hkin : s.Kin e) (outlined : List Code) :
    (e.outlined code outlined).function.nextTemp = built.nextTemp := by
  obtain ⟨-, hs, -⟩ := nested_grown hdeclared hmacros hbody hexec
  exact hkin.nextTemp.trans (GenState.built_of_tidy hs.sane htidy).nextTemp.symm

theorem script_entered {built : Function} {terminated : Bool} {e : GenState}
    (htidy : s.tidy = .ok (built, terminated)) (hkin : s.Kin e) (outlined : List Code)
    (args : List Datum) (store : Store) :
    built.Suits (.enter (e.outlined code outlined).function args) ∧
      (⟨.enter built args, [], store⟩ : State) =
        built.state (built.start s.entry) (.enter (e.outlined code outlined).function args) store := by
  obtain ⟨hgrows, hs, -⟩ := nested_grown hdeclared hmacros hbody hexec
  obtain ⟨hname, hparams, -⟩ := header_completed hgrows htidy
  have hnext := nextTemp_outlined hdeclared hmacros hbody hexec htidy hkin outlined
  have hentry := script_defined hdeclared hmacros hbody hexec htidy
  refine ⟨Frame.enter_suits (g := (e.outlined code outlined).function) hname.symm hnext args, ?_⟩
  rw [Function.state, Frame.enter_eq_place (g := (e.outlined code outlined).function) hentry
    hparams.symm hnext]

theorem script_follows_at {built : Function} {o : Outlined} {env : Env} {args : List Datum}
    {store : Store} (htidy : s.tidy = .ok (built, true))
    (h : ∀ fuel, Meets env built 0 fuel ((lib.startState f code).goals built (s.At s.work))
      ⟨.enter built args, [], store⟩ (o.run env fuel args store)) :
    built.FollowsAt o env args store := by
  obtain ⟨-, hs, hopens⟩ := nested_grown hdeclared hmacros hbody hexec
  have hentry := script_defined hdeclared hmacros hbody hexec htidy
  -- there is no loop around a script, and nothing behind the last block that it has written to
  refine .of_meets ((GenState.verify_tidy_iff hs hopens htidy).2 rfl)
    (Function.isDeclaration_of_start hentry) (fun _ => GenState.At.rest_eq_nil) ?_ ?_ h
  . rintro p ⟨_, ⟨⟩, -⟩
  . rintro p ⟨_, ⟨⟩, -⟩

theorem script_follows {built : Function} (htidy : s.tidy = .ok (built, true)) :
    ∃ outlined, lib.outline f code body = .ok outlined ∧ built.Follows outlined ∧
      outlined.function.params = built.params ∧ outlined.function.nextTemp = built.nextTemp := by
  obtain ⟨hgrows, hs, -⟩ := nested_grown hdeclared hmacros hbody hexec
  obtain ⟨-, hparams, -⟩ := header_completed hgrows htidy
  obtain ⟨hstart, -⟩ : (lib.startState f code).Ready (.nested texts) ∧ _ :=
    startState_ready hdeclared hmacros
  obtain ⟨outlined, e, hrun, htwin, hlowers⟩ :=
    (Gen.script_sim hbody).lowers hexec hstart False.elim (.refl _)
  refine ⟨e.outlined code outlined, ?_, ?_, hparams.symm,
    nextTemp_outlined hdeclared hmacros hbody hexec htidy htwin.toKin outlined⟩
  . unfold outline
    rw [hrun]
  intro env args store
  refine script_follows_at hdeclared hmacros hbody hexec htidy fun fuel => ?_
  obtain ⟨hsuits, hbegin⟩ :=
    script_entered hdeclared hmacros hbody hexec htidy htwin.toKin outlined args store
  rw [hbegin, Outlined.run, GenState.outlined, GenState.allocation_eq htwin.toKin]
  exact hlowers.realizes_entry rfl rfl (holds_startState hdeclared) hgrows.evolves.before (.refl _)
    (GenState.built_of_tidy hs.sane htidy) fuel _ store hsuits

end Script

theorem quiet_build {trace : List Event} (hf : lib.function? name = some f) (hnew : f.symbol ∉ lib.built)
    (hcode : lib.module.function? f.symbol = some code) (hdeclared : code.isDeclaration)
    (hmacros : ∀ text m, texts text → lib.macros.get? text .everything = some m → m.Nested texts)
    (hbody : Stmt.AllNested texts body)
    (hbuild : lib.buildTraced name (Gen.script body) = ((.ok (), lib'), trace))
    (hquiet : lib'.diagnostics = lib.diagnostics) :
    ∃ s built, Gen.exec (Gen.script body) (lib.startState f code) = (.ok (), s) ∧
      s.tidy = .ok (built, true) ∧ lib'.module.function? f.symbol = some built := by
  obtain ⟨s, built, terminated, hexec, rfl, htidy, hmodule, hdiagnostics⟩ :=
    buildTraced_ok hf hnew hcode hbuild
  obtain ⟨hgrows, -, -⟩ := nested_grown hdeclared hmacros hbody hexec
  obtain ⟨-, m, hlibrary, hfunctions⟩ := hgrows.library
  obtain rfl : terminated = true := by
    rw [hdiagnostics, hlibrary] at hquiet
    cases terminated with
    | true => rfl
    | false => simp [startState] at hquiet
  obtain ⟨hname, -, -⟩ := header_completed hgrows htidy
  refine ⟨s, built, hexec, htidy, ?_⟩
  exact function?_completed hcode (by rw [← hname, GenState.name_of_tidy htidy])
    (by rw [hlibrary]; exact hfunctions) htidy hmodule

/--
Building keeps the meaning of nested scripts. For a function that is declared and has no body yet, take
a nested script that builds it without a warning, and its outline. The function that was built, run in
any environment and store on arguments that it takes, ends as direct evaluation of the outline stops,
with the same result and the same store: the run ends in this way under every limit on its steps that
is large enough, and a run that does not meet its limit has no other end.
-/
theorem build_follows_outline {trace : List Event}
    (hf : lib.function? name = some f) (hnew : f.symbol ∉ lib.built)
    (hcode : lib.module.function? f.symbol = some code) (hdeclared : code.isDeclaration)
    (hmacros : ∀ text m, texts text → lib.macros.get? text .everything = some m → m.Nested texts)
    (hbody : Stmt.AllNested texts body)
    (hbuild : lib.buildTraced name (Gen.script body) = ((.ok (), lib'), trace))
    (hquiet : lib'.diagnostics = lib.diagnostics) :
    ∃ built outlined, lib'.module.function? f.symbol = some built ∧
      lib.outline f code body = .ok outlined ∧
      ∀ (env : Env) (store : Store) (args : List Datum),
        env.module.function? f.symbol = some built → code.Takes args → 0 < env.limits.depth →
        (∀ fuel result store', outlined.call env fuel args store = some (.stop result store') →
          ∃ n, ∀ steps, n ≤ steps →
            ((env.withSteps steps).run store f.symbol args).result = result ∧
            ((env.withSteps steps).run store f.symbol args).store = store') ∧
        ((env.run store f.symbol args).result ≠ .error (.stepLimit env.limits.steps) →
          ∃ fuel, outlined.call env fuel args store =
            some (.stop (env.run store f.symbol args).result (env.run store f.symbol args).store)) := by
  obtain ⟨s, built, hexec, htidy, hfunction⟩ :=
    quiet_build hf hnew hcode hdeclared hmacros hbody hbuild hquiet
  obtain ⟨hgrows, -, -⟩ := nested_grown hdeclared hmacros hbody hexec
  obtain ⟨outlined, houtline, hfollows, hparams', hnext⟩ :=
    script_follows hdeclared hmacros hbody hexec htidy
  obtain ⟨-, hparams, hvariadic⟩ := header_completed hgrows htidy
  have hdefined := Function.isDeclaration_of_start
    (script_defined hdeclared hmacros hbody hexec htidy)
  refine ⟨built, outlined, hfunction, houtline, ?_⟩
  intro env store args hbuilt hargs hdepth
  have htakes : built.Takes args := by
    unfold Function.Takes at hargs ⊢
    rwa [hparams, hvariadic]
  exact (hfollows env args store).run hparams' hnext hbuilt htakes hdefined hdepth

def isQuiet (built : Except ScriptError Unit × Library) : Bool :=
  built.1.toBool && built.2.diagnostics.isEmpty

theorem exists_of_isQuiet {x : Gen Unit} (h : isQuiet (lib.buildTraced name x).1 = true) :
    ∃ lib' trace, lib.buildTraced name x = ((.ok (), lib'), trace) ∧ lib'.diagnostics = [] := by
  generalize lib.buildTraced name x = built at h ⊢
  obtain ⟨⟨result, lib'⟩, trace⟩ := built
  cases result with
  | error e => cases h
  | ok _ => exact ⟨lib', trace, rfl, List.isEmpty_iff.1 h⟩

def tally : List Stmt := [
  .loop [.operand (.int 2), .operand (.int 10)] ["i", "sum"]
    (some ([.compute (.operator .slt (.var "i") (.operand (.int 7))) (some "more")], .var "more"))
    (some [
      .compute (.operator .eq (.var "i") (.operand (.int 5))) (some "enough"),
      .cond (.var "enough") (.body [.branch .exit]) none none])
    (some [
      .compute (.load (.var "i")) (some "n"),
      .compute (.load (.var "sum")) (some "m"),
      .compute (.arithmetic .add (.var "m") (.var "n")) (some "m"),
      .store (.var "m") (.var "sum"),
      .compute (.arithmetic .add (.var "n") (.operand (.int 1))) (some "n"),
      .store (.var "n") (.var "i")]) none,
  .compute (.load (.var "sum")) (some "m"),
  .ret (.var "m")]

theorem tally_follows_outline : ∃ lib' trace built code outlined fuel store,
    answers.buildTraced "answer" (Gen.script tally) = ((.ok (), lib'), trace) ∧
      lib'.module.function? "m.answer" = some built ∧
      answers.module.function? "m.answer" = some code ∧
      answers.outline answer code tally = .ok outlined ∧
      outlined.call { module := lib'.module, limits := { steps := 200 } } fuel [] {} =
        some (.stop (.ok (.int 19)) store) := by
  have hok : isQuiet (answers.buildTraced "answer" (Gen.script tally)).1 = true := by
    decide +kernel
  have hrun : (Env.run
      { module := (answers.buildTraced "answer" (Gen.script tally)).1.2.module
        limits := { steps := 200 } } {} "m.answer" []).result.toOption.bind Datum.asInt? =
      some 19 := by
    decide +kernel
  have hbody : Stmt.AllNested (fun _ => False) tally := by
    unfold tally
    exact ⟨⟨⟨trivial, trivial⟩, ⟨trivial, ⟨⟨.inr (.inl rfl), trivial⟩, trivial, rfl⟩, trivial⟩,
      ⟨trivial, trivial, trivial, trivial, trivial, trivial, trivial⟩, rfl⟩, trivial, trivial, trivial⟩
  have hfunction : answers.function? "answer" = some answer := by
    simp [answers, function?]
  obtain ⟨lib', trace, hbuild, hquiet⟩ := exists_of_isQuiet hok
  rw [hbuild] at hrun
  obtain ⟨built, outlined, hbuilt, houtline, hruns⟩ := build_follows_outline hfunction
    List.not_mem_nil rfl rfl (fun _ _ h => h.elim) hbody hbuild hquiet
  have hdepth : 0 < 1024 := by decide
  obtain ⟨-, hends⟩ := hruns { module := lib'.module, limits := { steps := 200 } } {} [] hbuilt rfl
    hdepth
  dsimp only [answer] at hrun hends
  generalize Env.run _ _ _ _ = outcome at hrun hends
  obtain ⟨result, store, steps⟩ := outcome
  dsimp only at hrun hends
  obtain ⟨d, rfl, hint⟩ : ∃ d, result = .ok d ∧ d.asInt? = some 19 := by
    cases result with
    | error e => cases hrun
    | ok d => exact ⟨d, rfl, hrun⟩
  obtain rfl : d = .int 19 := by
    cases d <;> cases hint
    rfl
  obtain ⟨fuel, hfuel⟩ := hends (by simp)
  exact ⟨lib', trace, built, _, outlined, fuel, store, hbuild, hbuilt, rfl, houtline, hfuel⟩

end Library

end ScriptedIR
