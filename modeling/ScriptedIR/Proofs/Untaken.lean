import ScriptedIR.Proofs.Answers
import ScriptedIR.Proofs.Meaning

/-!
Conditional returns that are not taken. A conditional return prepares its value before it branches, so
the value stays prepared where control goes on. Nothing else stays of it: a run that does not take it
ends as if the value was prepared there and no return was tried.
-/

namespace ScriptedIR

namespace Operand

theorem integer_pure (o : Operand) (hint : Option Hint) :
    ∃ result, ∀ m, o.integer hint m = (result, m) := by
  unfold integer
  cases o.toInt? <;> exact ⟨_, fun _ => rfl⟩

theorem convert_int (o : Operand) (w : IntWidth) :
    ∃ result, ∀ m, o.convert (some (.type (.int w))) m = (result, m) := by
  cases o with
  | value v =>
    rw [convert]
    split <;> exact ⟨_, fun _ => rfl⟩
  | null | int | float | str =>
    rw [convert]
    exact integer_pure _ _
  | function | bool | list =>
    rw [convert]
    exact ⟨_, fun _ => rfl⟩

end Operand

/--
A run does not take the branch at the end of a block: wherever it comes to the branch, the condition
does not hold.
-/
def Env.Untaken (env : Env) (s : State) (b : BlockId) (condition : Value) : Prop :=
  ∀ frame store last, env.Reaches s ⟨frame, [], store⟩ → frame.block = b → frame.rest = [last] →
    frame.holds env condition = .ok false

theorem Frame.holds_place {env : Env} {f : Function} {frame : Frame} {p : Spot} (h : f.Suits frame)
    (condition : Value) : (frame.place f p).holds env condition = frame.holds env condition := by
  rw [holds, holds, value_place h]

theorem Realizes.passing {env : Env} {f : Function} {p : Spot} {code code' : List Code} {G : Goals}
    {N : Spot → Prop} {C : Value → Prop} {b : BlockId} {frame : Frame} {store : Store}
    (h : Realizes env f p code 0 ⟨N, G.leave, G.again⟩)
    (h' : ∀ {q}, N q → ∃ c id id', C c ∧ q = ⟨b, [.branchIf c id id']⟩ ∧
      Realizes env f (f.start id') code' 0 G)
    (hsuits : f.Suits frame) (huntaken : ∀ c, C c → env.Untaken (f.state p frame store) b c)
    (fuel : Nat) :
    Meets env f 0 fuel G (f.state p frame store) (Code.runAll env fuel (code ++ code') frame store) := by
  rw [Code.runAll_append]
  have hmeets := h fuel frame store hsuits
  generalize Code.runAll env fuel code frame store = flow at hmeets ⊢
  cases hmeets with
  | lasts h => exact .lasts h
  | leave hsuits hp h => exact .leave hsuits hp h
  | again hsuits hp h => exact .again hsuits hp h
  | stop h => exact .stop h
  | @next q frame store hsuits hq hgoes =>
    obtain ⟨c, id, id', hc, rfl, hrest⟩ := h' hq
    have hholds : frame.holds env c = .ok false := by
      obtain ⟨n, -, hn⟩ := hgoes
      rw [← Frame.holds_place hsuits]
      exact huntaken c hc _ _ _ ⟨n, hn⟩ rfl rfl
    have hpast := hgoes.trans (.of_next (next_branchIf hsuits hholds store))
    exact ((hrest fuel frame store hsuits).after hpast).weaken (Nat.zero_le _) (Nat.le_add_left fuel _)

theorem Stmt.allNested_append {texts : String → Prop} {ss ts : List Stmt} :
    AllNested texts (ss ++ ts) ↔ AllNested texts ss ∧ AllNested texts ts := by
  induction ss with
  | nil => simp [AllNested]
  | cons s ss ih => simp [AllNested, ih, and_assoc]

theorem Gen.exec_runStmts_append {expand : Macro → List Operand → Gen Operand} {ss ts : List Stmt}
    {s u : GenState} :
    exec (runStmts expand (ss ++ ts)) s = (.ok (), u) ↔
      ∃ t, exec (runStmts expand ss) s = (.ok (), t) ∧ exec (runStmts expand ts) t = (.ok (), u) := by
  induction ss generalizing s with
  | nil =>
    constructor
    . exact fun h => ⟨s, rfl, h⟩
    . rintro ⟨_, ⟨⟩, h⟩
      exact h
  | cons stmt ss ih =>
    rw [List.cons_append, runStmts, runStmts, exec_bind_ok]
    simp only [ih, exec_bind_ok]
    constructor
    . rintro ⟨_, v, hstmt, t, hss, hts⟩
      exact ⟨t, ⟨(), v, hstmt, hss⟩, hts⟩
    . rintro ⟨t, ⟨_, v, hstmt, hss⟩, hts⟩
      exact ⟨(), v, hstmt, t, hss, hts⟩

theorem Outline.exec_stmts_append {expand : Macro → List Operand → Outline Operand} {ss ts : List Stmt}
    {e e' e'' : GenState} {code code' : List Code}
    (hss : (stmts expand ss).run.exec e = (.ok ((), code), e'))
    (hts : (stmts expand ts).run.exec e' = (.ok ((), code'), e'')) :
    (stmts expand (ss ++ ts)).run.exec e = (.ok ((), code ++ code'), e'') := by
  induction ss generalizing e code with
  | nil =>
    cases hss
    exact hts
  | cons s ss ih =>
    obtain ⟨_, code₁, e₁, code₂, hs, hrest, rfl⟩ := of_exec_bind hss
    rw [List.append_assoc]
    exact exec_bind hs (ih hrest)

namespace GenState

def Tests (s : GenState) (condition : Expr) (c : Value) : Prop :=
  Gen.exec (do Gen.convertTo .i1 (← Gen.eval condition)) s = (.ok c, s)

inductive Passes (C : Value → Prop) (s : GenState) : GenState → Prop
  | finished : s.cursor.finished = true → Passes C s s
  | branch {c : Value} {block : BlockId} : C c → s.cursor.finished = false →
      (s.grow "block").function.Terminates (.branchIf c block s.function.nextBlock) →
      Passes C s (((s.grow "block").terminate s.cursor.block
        (.branchIf c block s.function.nextBlock)).goOn s.function.nextBlock false)

namespace Passes

variable {S : Scope} {C : Value → Prop} {s t e : GenState} {w : Work} {f : Function} {p : Spot}

theorem twin (h : s.Passes C t) (htwin : s.Twin e) : t.Twin e := by
  cases h with
  | finished => exact htwin
  | branch _ hopen => exact { htwin with finished := htwin.finished.trans hopen }

theorem before (h : s.Passes C t) (hs : s.Ready S) : s.work.Before t.work := by
  cases h with
  | finished => exact .refl _
  | branch _ hopen =>
    obtain ⟨body, hbody, hends⟩ := hs.opened hopen
    have hgrow : Work.Evolves (fun _ => False) s.work (s.grow "block").work :=
      Work.grow_evolves hs.sane _
    exact hgrow.before.trans (Work.close_evolves ⟨body, hgrow.kept hbody id, hends⟩).before

theorem spot (h : s.Passes C t) (hs : s.Ready S) (hw : t.work.Before w) (hf : w.Built f)
    (hp : s.At w p) :
    ∃ c block other, C c ∧ p = ⟨s.cursor.block, [.branchIf c block other]⟩ ∧
      t.At w (f.start other) := by
  cases h with
  | finished hclosed =>
    rw [hp.opened] at hclosed
    cases hclosed
  | @branch c block hc _ hi =>
    have hgrow : Work.Evolves (fun _ => False) s.work (s.grow "block").work :=
      Work.grow_evolves hs.sane _
    refine ⟨c, block, s.function.nextBlock, hc,
      hp.closed hs (fun h => (hgrow.kept h id).close) hi.1 hw, ?_⟩
    have hnew : s.function.code? s.function.nextBlock = none := hs.sane.distinct.code?_nextBlock
    have hne : s.function.nextBlock ≠ s.cursor.block := fun heq => hs.present (heq ▸ hnew)
    have hempty : ((s.grow "block").work.close s.cursor.block
        (.branchIf c block s.function.nextBlock)).Holds s.function.nextBlock [] :=
      (Work.holds_close_of_ne hne).2 (Work.holds_grow_new hs.sane)
    exact ⟨rfl, rfl, Work.rest_of_empty hempty (Ne.symm hs.sane.entry_ne_nextBlock) hw hf⟩

end Passes

end GenState

namespace Gen

variable {s t u : GenState} {a condition : Operand} {block : BlockId}

theorem state_of_eval {e : Expr} {o : Operand} (h : exec (eval e) s = (.ok o, t)) : t = s := by
  obtain ⟨_, _, ⟨⟩, h⟩ := exec_bind_ok.1 h
  exact (Prod.mk.inj h).2.symm

theorem exec_conversion (condition : Operand) :
    ∃ result, ∀ s, exec (convertTo .i1 condition) s = (result, s) := by
  obtain ⟨result, hresult⟩ := condition.convert_int .w1
  refine ⟨result, fun s => ?_⟩
  simp only [exec, convertTo, convert, Ty.i1, hresult]

theorem exec_conditionalRet (hret : exec (conditionalRet condition a none) s = (.ok (), t))
    (hprepare : exec (prepareRet a) s = (.ok (), u)) :
    u.cursor = s.cursor ∧ u.Passes (fun c => exec (convertTo .i1 condition) s = (.ok c, s)) t := by
  obtain ⟨hclosed, rfl⟩ | ⟨hopen, hret⟩ := exec_unlessFinished hret
  . obtain ⟨-, rfl⟩ | ⟨hopen, -⟩ := exec_unlessFinished hprepare
    . exact ⟨rfl, .finished hclosed⟩
    . rw [hopen] at hclosed
      cases hclosed
  . obtain ⟨hclosed, -⟩ | ⟨-, hprepare⟩ := exec_unlessFinished hprepare
    . rw [hopen] at hclosed
      cases hclosed
    . obtain ⟨block, v, hblock, hfill⟩ := exec_bind_ok.1 hprepare
      have hcursor := (cursor_of_fillReturnSlot hfill).trans (cursor_of_returnBlock hblock)
      refine ⟨hcursor, ?_⟩
      -- nothing is emitted for the condition, so that both begin in the same state
      obtain ⟨result, hresult⟩ := exec_conversion condition
      obtain ⟨c, _, hc, hret⟩ := exec_bind_ok.1 hret
      obtain ⟨rfl, rfl⟩ := Prod.mk.inj ((hresult s).symm.trans hc)
      obtain ⟨_, _, hblock', hret⟩ := exec_bind_ok.1 hret
      cases hblock.symm.trans hblock'
      obtain ⟨_, _, hfill', hret⟩ := exec_bind_ok.1 hret
      cases hfill.symm.trans hfill'
      obtain ⟨hopen, hi, rfl⟩ := exec_branchIfNew hret
      exact .branch (hresult s) hopen hi

theorem exec_conditionalRetStmt {expand : Macro → List Operand → Gen Operand} {condition a : Expr}
    (hret : exec (runStmt expand (.conditionalRet condition a none)) s = (.ok (), t))
    (hprepare : exec (runStmt expand (.prepareRet a)) s = (.ok (), u)) :
    u.cursor = s.cursor ∧ u.Passes (s.Tests condition) t := by
  obtain ⟨o, _, hcondition, h⟩ := exec_bind_ok.1 hret
  cases state_of_eval hcondition
  obtain ⟨oa, _, ha, h⟩ := exec_bind_ok.1 h
  cases state_of_eval ha
  obtain ⟨_, _, ⟨⟩, h⟩ := exec_bind_ok.1 h
  obtain ⟨_, t', hreturn, ⟨⟩⟩ := exec_bind_ok.1 h
  obtain ⟨_, _, ha', h⟩ := exec_bind_ok.1 hprepare
  cases ha.symm.trans ha'
  obtain ⟨_, u', hstore, ⟨⟩⟩ := exec_bind_ok.1 h
  obtain ⟨hcursor, hpasses⟩ := exec_conditionalRet hreturn hstore
  refine ⟨hcursor, ?_⟩
  cases hpasses with
  | finished hclosed => exact .finished hclosed
  | branch hc hopen hi =>
    exact .branch (s := { u' with trace := u'.trace ++ [.done] })
      (exec_bind_ok.2 ⟨o, s, hcondition, hc⟩) hopen hi

end Gen

namespace Library

variable {lib lib₁ lib₂ : Library} {name : String} {f : FunctionRef} {code : Function}
  {texts : String → Prop} {before after : List Stmt} {condition a : Expr}

section Script

variable (hdeclared : code.isDeclaration)
  (hmacros : ∀ text m, texts text → lib.macros.get? text .everything = some m → m.Nested texts)
  (hbefore : Stmt.AllNested texts before) (hafter : Stmt.AllNested texts after)

include hdeclared hmacros hbefore hafter

theorem outline_prepared {s u v : GenState}
    (hexec : Gen.exec (Gen.script before) (lib.startState f code) = (.ok (), s))
    (hprepare : Gen.exec (Gen.runStmt (Macro.expand Macro.maxDepth) (.prepareRet a)) s = (.ok (), u))
    (hall : Gen.exec (Gen.script (before ++ .conditionalRet condition a none :: after))
      (lib.startState f code) = (.ok (), v)) :
    ∃ t first rest e, u.cursor = s.cursor ∧ u.Passes (s.Tests condition) t ∧
      (lib.startState f code).Grows t ∧ (lib.startState f code).Lowered (.nested texts) first u ∧
      t.Lowered (.nested texts) rest v ∧ v.Kin e ∧
      lib.outline f code (before ++ .prepareRet a :: after) = .ok (e.outlined code (first ++ rest)) := by
  have hexpands : Gen.Expands (.nested texts) _ := Gen.nested_expands texts Macro.maxDepth
  have houtlines : Gen.Outlines (.nested texts) _ _ := Gen.outlines texts Macro.maxDepth
  obtain ⟨hstart, -⟩ : (lib.startState f code).Ready (.nested texts) ∧ _ :=
    startState_ready hdeclared hmacros
  obtain ⟨_, hexec', hrest⟩ := Gen.exec_runStmts_append.1 hall
  cases hexec.symm.trans hexec'
  obtain ⟨_, t, hret, hrest⟩ := Gen.exec_bind_ok.1 hrest
  obtain ⟨hcursor, hpasses⟩ := Gen.exec_conditionalRetStmt hret hprepare
  obtain ⟨first, e₁, hrun₁, htwin₁, hlowered₁, -⟩ :=
    (Gen.script_sim hbefore).lowered hexec hstart False.elim (.refl _)
  obtain ⟨stored, e₂, hrun₂, htwin₂, hlowered₂, -⟩ :=
    (Gen.stmt_sim hexpands houtlines (.prepareRet a) trivial).lowered hprepare hlowered₁.ready
      False.elim htwin₁
  obtain ⟨hgrows, ht, -⟩ : s.Grows t ∧ t.Ready (.nested texts) ∧ True :=
    (Gen.stmt_sim hexpands houtlines (.conditionalRet condition a none) rfl).tame.run hret
      hlowered₁.ready trivial False.elim
  -- the branch changes nothing that the outline of the rest depends on
  obtain ⟨rest, e₃, hrun₃, htwin₃, hlowered₃, -⟩ :=
    (Gen.stmts_sim hexpands houtlines after hafter).lowered hrest ht False.elim (hpasses.twin htwin₂)
  refine ⟨t, first ++ stored, rest, e₃, hcursor, hpasses, hlowered₁.grows.trans hgrows hstart.sane,
    hlowered₁.trans hlowered₂ hstart, hlowered₃, htwin₃.toKin, ?_⟩
  have hrun : (Outline.script (before ++ .prepareRet a :: after)).run.exec (lib.startState f code) =
      (.ok ((), first ++ (stored ++ rest)), e₃) :=
    Outline.exec_stmts_append hrun₁ (Outline.exec_bind hrun₂ hrun₃)
  unfold outline
  rw [hrun, List.append_assoc]

theorem follows_prepared {s u v : GenState} {built : Function} {outlined : Outlined} {env : Env}
    {args : List Datum} {store : Store}
    (hexec : Gen.exec (Gen.script before) (lib.startState f code) = (.ok (), s))
    (hprepare : Gen.exec (Gen.runStmt (Macro.expand Macro.maxDepth) (.prepareRet a)) s = (.ok (), u))
    (hall : Gen.exec (Gen.script (before ++ .conditionalRet condition a none :: after))
      (lib.startState f code) = (.ok (), v))
    (htidy : v.tidy = .ok (built, true))
    (houtline : lib.outline f code (before ++ .prepareRet a :: after) = .ok outlined)
    (huntaken : ∀ c, s.Tests condition c →
      env.Untaken ⟨.enter built args, [], store⟩ s.cursor.block c) :
    built.FollowsAt outlined env args store := by
  have hbody : Stmt.AllNested texts (before ++ .conditionalRet condition a none :: after) :=
    Stmt.allNested_append.2 ⟨hbefore, rfl, hafter⟩
  obtain ⟨t, first, rest, e, hcursor, hpasses, hgrows, hfirst, hrest, hkin, heq⟩ :=
    outline_prepared hdeclared hmacros hbefore hafter hexec hprepare hall
  cases houtline.symm.trans heq
  have hbuilt := GenState.built_of_tidy hrest.ready.sane htidy
  have htv := hrest.grows.evolves.before
  have huv := (hpasses.before hfirst.ready).trans htv
  have hentry : Realizes env built _ _ 0 _ := hfirst.lowers.realizes_entry rfl rfl
    (holds_startState hdeclared) hfirst.grows.evolves.before huv hbuilt
  have hon {q : Spot} (hq : t.At v.work q) :
      Realizes env built q rest 0 ((lib.startState f code).goals built (v.At v.work)) := by
    rw [← hgrows.goals]
    exact hrest.lowers.realizes (.refl _) hbuilt hq
  refine script_follows_at hdeclared hmacros hbody hall htidy fun fuel => ?_
  obtain ⟨hsuits, hbegin⟩ :=
    script_entered hdeclared hmacros hbody hall htidy hkin (first ++ rest) args store
  rw [hbegin, Outlined.run, GenState.outlined, GenState.allocation_eq hkin, ← List.append_assoc]
  rw [hbegin, ← hcursor] at huntaken
  refine Realizes.passing hentry (fun hq => ?_) hsuits huntaken fuel
  obtain ⟨c, block, other, hc, rfl, hat⟩ := hpasses.spot hfirst.ready htv hbuilt hq
  exact ⟨c, block, other, hc, rfl, hon hat⟩

end Script

/--
A conditional return prepares its value whether or not it is taken, and has no other effect where it is
not. Take a nested script that builds a function with a conditional return in it, and the script that
prepares the value in its place. A run of the first function that does not take the return, as the
condition does not hold where the run comes to it, ends if and only if a run of the second does: with
the same result and the same store.
-/
theorem untaken_prepares {trace₁ trace₂ : List Event}
    (hf : lib.function? name = some f) (hnew : f.symbol ∉ lib.built)
    (hcode : lib.module.function? f.symbol = some code) (hdeclared : code.isDeclaration)
    (hmacros : ∀ text m, texts text → lib.macros.get? text .everything = some m → m.Nested texts)
    (hbefore : Stmt.AllNested texts before) (hafter : Stmt.AllNested texts after)
    (hbuild₁ : lib.buildTraced name (Gen.script (before ++ .conditionalRet condition a none :: after)) =
      ((.ok (), lib₁), trace₁))
    (hquiet₁ : lib₁.diagnostics = lib.diagnostics)
    (hbuild₂ : lib.buildTraced name (Gen.script (before ++ .prepareRet a :: after)) =
      ((.ok (), lib₂), trace₂))
    (hquiet₂ : lib₂.diagnostics = lib.diagnostics) :
    ∃ s built₁ built₂, Gen.exec (Gen.script before) (lib.startState f code) = (.ok (), s) ∧
      lib₁.module.function? f.symbol = some built₁ ∧ lib₂.module.function? f.symbol = some built₂ ∧
      ∀ (env : Env) (args : List Datum) (store : Store),
        (∀ c, s.Tests condition c → env.Untaken ⟨.enter built₁ args, [], store⟩ s.cursor.block c) →
        ∀ result store', env.Ends ⟨.enter built₁ args, [], store⟩ result store' ↔
          env.Ends ⟨.enter built₂ args, [], store⟩ result store' := by
  have hbody₁ : Stmt.AllNested texts (before ++ .conditionalRet condition a none :: after) :=
    Stmt.allNested_append.2 ⟨hbefore, rfl, hafter⟩
  have hbody₂ : Stmt.AllNested texts (before ++ .prepareRet a :: after) :=
    Stmt.allNested_append.2 ⟨hbefore, trivial, hafter⟩
  obtain ⟨v₁, built₁, hexec₁, htidy₁, hfunction₁⟩ :=
    quiet_build hf hnew hcode hdeclared hmacros hbody₁ hbuild₁ hquiet₁
  obtain ⟨v₂, built₂, hexec₂, htidy₂, hfunction₂⟩ :=
    quiet_build hf hnew hcode hdeclared hmacros hbody₂ hbuild₂ hquiet₂
  obtain ⟨outlined, houtline, hfollows, -⟩ := script_follows hdeclared hmacros hbody₂ hexec₂ htidy₂
  obtain ⟨s, hexec, hrest⟩ := Gen.exec_runStmts_append.1 hexec₂
  obtain ⟨_, u, hprepare, -⟩ := Gen.exec_bind_ok.1 hrest
  refine ⟨s, built₁, built₂, hexec, hfunction₁, hfunction₂, ?_⟩
  intro env args store huntaken result store'
  have hfollows₁ : built₁.FollowsAt outlined env args store :=
    follows_prepared hdeclared hmacros hbefore hafter hexec hprepare hexec₁ htidy₁ houtline huntaken
  have hfollows₂ := hfollows env args store
  exact ⟨hfollows₁.ends_of_ends hfollows₂, hfollows₂.ends_of_ends hfollows₁⟩

def overruled (a : Operand) : List Stmt := [
  .prepareRet (.operand (.int 9)),
  .conditionalRet (.operand (.bool false)) (.operand a) none,
  .branch .returning]

theorem answer_untaken : ∃ lib₁ trace₁ lib₂ trace₂ built₁ built₂,
    answers.buildTraced "answer" (Gen.script (overruled (.int 1))) = ((.ok (), lib₁), trace₁) ∧
      answers.buildTraced "answer" (Gen.script [.prepareRet (.operand (.int 9)),
        .prepareRet (.operand (.int 1)), .branch .returning]) = ((.ok (), lib₂), trace₂) ∧
      lib₁.module.function? "m.answer" = some built₁ ∧ lib₂.module.function? "m.answer" = some built₂ ∧
      ∀ (env : Env) (args : List Datum) (store : Store) result store',
        env.Ends ⟨.enter built₁ args, [], store⟩ result store' ↔
          env.Ends ⟨.enter built₂ args, [], store⟩ result store' := by
  obtain ⟨lib₁, trace₁, hbuild₁, hquiet₁⟩ := exists_of_isQuiet
    (show isQuiet (answers.buildTraced "answer" (Gen.script (overruled (.int 1)))).1 = true by
      decide +kernel)
  obtain ⟨lib₂, trace₂, hbuild₂, hquiet₂⟩ := exists_of_isQuiet
    (show isQuiet (answers.buildTraced "answer" (Gen.script [.prepareRet (.operand (.int 9)),
      .prepareRet (.operand (.int 1)), .branch .returning])).1 = true by
      decide +kernel)
  have hfunction : answers.function? "answer" = some answer := by
    simp [answers, function?]
  have hbefore : Stmt.AllNested (fun _ => False) [.prepareRet (.operand (.int 9))] :=
    ⟨trivial, trivial⟩
  have hafter : Stmt.AllNested (fun _ => False) [.branch .returning] := ⟨.inr (.inr rfl), trivial⟩
  obtain ⟨s, built₁, built₂, -, hfunction₁, hfunction₂, hends⟩ :=
    untaken_prepares hfunction List.not_mem_nil rfl rfl (fun _ _ h => h.elim) hbefore hafter hbuild₁
      hquiet₁ hbuild₂ hquiet₂
  refine ⟨lib₁, trace₁, lib₂, trace₂, built₁, built₂, hbuild₁, hbuild₂, hfunction₁, hfunction₂, ?_⟩
  intro env args store
  refine hends env args store ?_
  rintro c ⟨⟩ frame store' last - - -
  rfl

def answerOf (body : List Stmt) : Option Int64 :=
  let env : Env :=
    { module := (answers.buildTraced "answer" (Gen.script body)).1.2.module
      limits := { steps := 100 } }
  match (env.run {} "m.answer" []).result with
  | .ok (.int n) => some n
  | _ => none

/--
The value of a conditional return that is not taken overrules the one that was prepared before.
-/
theorem untaken_overrules : answerOf (overruled (.int 1)) = some 1 ∧
    answerOf (overruled .null) = some 9 := by
  decide +kernel

end Library

end ScriptedIR
