import ScriptedIR.Proofs.Regions
import ScriptedIR.Proofs.Strict

/-!
Structured scripts grow the function. A script is structured if a strict run of it succeeds: control may
go to any block, but both sides of a conditional are built in place, and what comes behind a conditional
or a loop does not stand in the entry.
-/

namespace ScriptedIR

def Expr.Plain (texts : String → Prop) : Expr → Prop
  | .operand (.str text) => texts text
  | _ => True

theorem Names.mem_of_insertMany {t : Names α} {l : List (String × α)} {name : String} {a : α}
    (h : (t.insertMany l)[name]? = some a) : t[name]? = some a ∨ ∃ p ∈ l, p.2 = a := by
  induction l generalizing t with
  | nil =>
    rw [Std.ExtTreeMap.insertMany_nil] at h
    exact .inl h
  | cons p l ih =>
    rw [Std.ExtTreeMap.insertMany_cons] at h
    rcases ih h with h | ⟨q, hq, rfl⟩
    . rw [Std.ExtTreeMap.getElem?_insert] at h
      split at h
      . cases h
        exact .inr ⟨p, List.mem_cons_self, rfl⟩
      . exact .inl h
    . exact .inr ⟨q, List.mem_cons_of_mem _ hq, rfl⟩

theorem Names.mem_of_ofList {l : List (String × α)} {name : String} {a : α}
    (h : (Std.ExtTreeMap.ofList l : Names α)[name]? = some a) : ∃ p ∈ l, p.2 = a := by
  rw [Std.ExtTreeMap.ofList_eq_insertMany_empty] at h
  simpa using mem_of_insertMany h

namespace GenState

variable {S : Scope} {s t : GenState}

theorem Ready.relabel (h : s.Ready S) (names : Names Operand) (handles : Names BlockHandle)
    (trace : List Event) (hnames : ∀ {name : String} {o}, names[name]? = some o → S.admits o)
    (hhandles : ∀ {name : String} {b : BlockHandle}, handles[name]? = some b → s.work.Target b.start) :
    s.Grows { s with names, handles, trace } ∧ Ready S { s with names, handles, trace } := by
  have hrefl := Grows.refl h
  refine ⟨⟨hrefl.evolves, hrefl.opens, rfl, .inl rfl, fun _ => rfl, .refl s⟩, ?_⟩
  exact { h with names := hnames, handles := hhandles }

theorem ArmBuilt.grows {arm : BlockHandle} (hs : s.Ready S) (h : s.ArmBuilt S t arm)
    (hfinished : arm.finished = true) : s.Grows t ∧ t.Ready S := by
  have hopens (id) : t.work.Open id ↔ s.work.Open id := by
    rw [h.opens, hfinished]
    simp
  have hwrites (id) : t.Writes id ↔ s.Writes id := by rw [Writes, h.beside.cursor, Writes]
  refine ⟨⟨?_, ?_, ?_, .inl ?_, ?_, h.beside.library⟩, h.scoped, ?_⟩
  . exact h.beside.evolves.mono fun id hid => hid.elim
  . intro id
    rw [hopens, hwrites]
    exact (Grows.refl hs).opens id
  . rw [h.beside.cursor]
  . rw [h.beside.cursor]
  . intro _
    exact h.beside.cursor
  . rw [h.beside.cursor]
    intro hopen
    exact (hopens _).2 (hs.opened hopen)

end GenState

theorem Expr.eval_admits {S : Scope} {e : Expr} {env : Surroundings} (he : e.Plain S.texts)
    (hnames : ∀ {name : String} {o}, env.names[name]? = some o → S.admits o) :
    Yields (e.eval env) S.admits := by
  cases e with
  | operand o =>
    refine .ok ?_
    cases o with
    | str text => exact he
    | _ => trivial
  | list items => exact .bind fun _ _ => .ok trivial
  | function name | address name => exact .bind fun _ _ => .ok trivial
  | var name =>
    unfold Expr.eval
    split
    . next o ho => exact .ok (hnames ho)
    . exact .error
  | param index =>
    unfold Expr.eval
    split
    . exact .ok trivial
    . exact .error

theorem Expr.evalAll_admits {S : Scope} {es : List Expr} {env : Surroundings}
    (hes : ∀ e ∈ es, e.Plain S.texts)
    (hnames : ∀ {name : String} {o}, env.names[name]? = some o → S.admits o) :
    Yields (Expr.evalAll env es) fun os => ∀ o ∈ os, S.admits o := by
  induction es with
  | nil => exact .ok (by simp)
  | cons e es ih =>
    simp only [List.forall_mem_cons] at hes
    refine .bind fun o ho => .bind fun os hos => .ok ?_
    simp only [List.forall_mem_cons]
    exact ⟨eval_admits hes.1 hnames o ho, ih hes.2 os hos⟩

namespace Gen

variable {S : Scope} {P : GenState → Prop} {s t : GenState}

theorem record_tame (e : Event) : Tame S P (record e) fun _ _ => True := by
  refine ⟨record_traced e, ?_⟩
  rintro s _ _ ⟨⟩ hs - -
  obtain ⟨hgrows, hready⟩ := hs.relabel s.names s.handles (s.trace ++ [e]) hs.names hs.handles
  exact ⟨hgrows, hready, trivial⟩

theorem noting_tame {x : Gen Unit} (hx : Tame S (fun _ => True) x fun _ _ => True) (direct : Bool) :
    Tame S P (noting direct x) fun _ _ => True :=
  .get fun _ => (hx.weaken (fun _ _ => trivial) fun _ _ h => h).bind fun _ => record_tame _

theorem bindName_tame (name : Option String) {o : Operand} (ho : S.admits o) :
    Tame S P (bindName name o) fun _ _ => True := by
  refine ⟨bindName_traced name o, ?_⟩
  cases name with
  | none =>
    rintro s _ _ ⟨⟩ hs - -
    exact ⟨.refl hs, hs, trivial⟩
  | some name =>
    rintro s _ _ ⟨⟩ hs - -
    have hnames {other : String} {o' : Operand}
        (h : (s.names.insert name o)[other]? = some o') : S.admits o' := by
      rw [Std.ExtTreeMap.getElem?_insert] at h
      split at h
      . cases h
        exact ho
      . exact hs.names h
    obtain ⟨hgrows, hready⟩ := hs.relabel (s.names.insert name o) s.handles s.trace hnames hs.handles
    exact ⟨hgrows, hready, trivial⟩

theorem bindAll_tame (names : List String) (vs : List Value) :
    Tame S P (bindAll names vs) fun _ _ => True := by
  unfold bindAll
  induction names.zip vs generalizing P with
  | nil => exact .pure fun _ _ _ => trivial
  | cons p ps ih => exact (bindName_tame _ (show S.admits (.value p.2) from trivial)).bind fun _ => ih

theorem withNames_tame {x : Gen α} {A : α → Prop} {names : Names Operand}
    (hx : Tame S (fun _ => True) x fun a _ => A a)
    (hnames : ∀ {name : String} {o}, names[name]? = some o → S.admits o) :
    Tame S P (withNames names x) fun a _ => A a := by
  refine ⟨hx.traced.withNames names, ?_⟩
  intro s a t hexec hs _ hfinished
  obtain ⟨u, hu, rfl⟩ := exec_withNames.1 hexec
  obtain ⟨hgrows₁, hs₁⟩ := hs.relabel names ∅ s.trace hnames (by simp)
  obtain ⟨hgrows₂, hs₂, ha⟩ := hx.run hu hs₁ trivial hfinished
  have hgrows := hgrows₁.trans hgrows₂ hs.sane
  obtain ⟨hgrows₃, hs₃⟩ := hs₂.relabel s.names s.handles u.trace hs.names
    fun hb => (hs.handles hb).evolve hs.sane hgrows.evolves
  exact ⟨hgrows.trans hgrows₃ hs.sane, hs₃, ha⟩

theorem within_tame {f : Surroundings → Except ScriptError α} {A : α → Prop}
    (h : ∀ env : Surroundings, (∀ {name : String} {o}, env.names[name]? = some o → S.admits o) →
      Yields (f env) A) : Tame S P (within f) fun a _ => A a := by
  refine ⟨(Straight.within f).traced, ?_⟩
  intro s a t hexec hs _ _
  change (f ⟨s.library, s.names, s.function.paramValues⟩, s) = _ at hexec
  obtain ⟨hf, rfl⟩ := Prod.mk.inj hexec
  exact ⟨.refl hs, hs, h _ hs.names a hf⟩

theorem eval_tame {e : Expr} (he : e.Plain S.texts) :
    Tame S P (eval e) fun o _ => S.admits o :=
  within_tame fun _ hnames => e.eval_admits he hnames

theorem evalAll_tame {es : List Expr} (hes : ∀ e ∈ es, e.Plain S.texts) :
    Tame S P (evalAll es) fun os _ => ∀ o ∈ os, S.admits o :=
  within_tame fun _ hnames => Expr.evalAll_admits hes hnames

theorem block_tame (ref : BlockRef) :
    Tame S P (block ref) fun id t => ref.isBare = false → t.work.Target id := by
  refine ⟨block_traced ref, ?_⟩
  intro s id t hexec hs hP hfinished
  obtain ⟨_, _, ⟨⟩, hexec⟩ := exec_bind_ok.1 hexec
  cases ref with
  | start | current | id =>
    -- the block may be the entry or missing
    cases hexec
    exact ⟨.refl hs, hs, Bool.noConfusion⟩
  | next =>
    dsimp only at hexec
    split at hexec
    . next block hblock =>
      cases hexec
      exact ⟨.refl hs, hs, fun _ => hs.next hblock⟩
    . cases hexec
  | exit =>
    dsimp only at hexec
    split at hexec
    . next block hblock =>
      cases hexec
      exact ⟨.refl hs, hs, fun _ => hs.exit hblock⟩
    . cases hexec
  | returning =>
    obtain ⟨hgrows, ht, htarget⟩ := returnBlock_tame.run hexec hs hP hfinished
    exact ⟨hgrows, ht, fun _ => htarget⟩
  | named name =>
    dsimp only at hexec
    split at hexec
    . next block hblock =>
      cases hexec
      obtain ⟨b, hb, rfl⟩ := Option.map_eq_some_iff.1 hblock
      exact ⟨.refl hs, hs, fun _ => hs.handles hb⟩
    . cases hexec

theorem blocks_tame (ref : Option BlockRef) : Tame S P (ref.mapM block) fun _ _ => True := by
  cases ref with
  | none => exact .pure fun _ _ _ => trivial
  | some ref => exact (block_tame ref).bind fun _ => .pure fun _ _ _ => trivial

theorem elsewhere_tame (ref : BlockRef) : Tame S P (elsewhere ref) fun id t => t.work.Target id := by
  refine (block_tame ref).bind fun id => .get fun s => ?_
  by_cases hrefused : ref.isBare = true ∧ (id = s.entry ∨ s.function.code? id = none)
  . rw [if_pos hrefused]
    exact Tame.throw.bind (Q := fun _ _ => False) fun _ => .pure fun _ _ => False.elim
  . rw [if_neg hrefused]
    refine .pure ?_
    rintro _ - ⟨rfl, htarget⟩
    cases hbare : ref.isBare with
    | false => exact htarget hbare
    | true =>
      simp only [hbare, true_and, not_or] at hrefused
      exact ⟨hrefused.2, hrefused.1⟩

theorem exits_tame (ref : Option BlockRef) :
    Tame S P (ref.mapM elsewhere) fun id t => ∀ block, id = some block → t.work.Target block := by
  cases ref with
  | none => exact .pure (by simp)
  | some r =>
    refine (elsewhere_tame r).bind fun id => .pure ?_
    rintro s - hid _ ⟨⟩
    exact hid

theorem snapshot_tame : Tame S P snapshot fun _ _ => True := .get fun _ => .pure fun _ _ _ => trivial

theorem bindHandle_ready (hs : s.Ready S) {h : BlockHandle} (hh : s.work.Target h.start)
    {name : Option String} {u : Unit} (hexec : exec (bindHandle name h) s = (.ok u, t)) :
    s.Grows t ∧ t.Ready S := by
  cases name with
  | none =>
    cases hexec
    exact ⟨.refl hs, hs⟩
  | some name =>
    cases hexec
    refine hs.relabel s.names (s.handles.insert name h) s.trace hs.names ?_
    intro other b hb
    rw [Std.ExtTreeMap.getElem?_insert] at hb
    split at hb
    . cases hb
      exact hh
    . exact hs.handles hb

/--
A block of its own is taken to be finished, since its handle is in the trace.
-/
theorem blockStmt_tame (hblocks : S.blocks) {x : Gen Unit}
    (hx : Tame S (fun _ => True) x fun _ _ => True) (label : String) (name : Option String) :
    Tame S P (do
      let h ← inBlock label x
      bindHandle name h
      record (.handle h)) fun _ _ => True := by
  refine ⟨(inBlock_traced hx.traced _).bind fun h => (bindHandle_traced _ _).bind fun _ =>
    record_traced _, ?_⟩
  intro s a t hexec hs _ hfinished
  obtain ⟨h, s₁, hblock, hexec⟩ := exec_bind_ok.1 hexec
  obtain ⟨_, s₂, hbind, hrecord⟩ := exec_bind_ok.1 hexec
  have hfinished₂ : s₂.Settled S := hfinished.of_subset ((record_traced _).of_exec hrecord)
  have hfinished₁ : s₁.Settled S :=
    hfinished₂.of_subset ((bindHandle_traced _ _).of_exec hbind)
  have hbuilt := inBlock_built hx hs.toScoped hblock hfinished₁
  have hclosed : h.finished = true := by
    apply hfinished hblocks
    cases hrecord
    exact List.mem_append_right _ (List.mem_singleton.2 rfl)
  obtain ⟨hgrows₁, hs₁⟩ := hbuilt.grows hs hclosed
  obtain ⟨hgrows₂, hs₂⟩ := bindHandle_ready hs₁ hbuilt.target hbind
  obtain ⟨hgrows₃, hs₃, -⟩ : s₂.Grows t ∧ t.Ready S ∧ True :=
    (record_tame (P := fun _ => True) _).run hrecord hs₂ trivial hfinished
  exact ⟨(hgrows₁.trans hgrows₂ hs.sane).trans hgrows₃ hs.sane, hs₃, trivial⟩

section Script

variable {expand : Macro → List Operand → Gen Operand}

structure Expands (S : Scope) (expand : Macro → List Operand → Gen Operand) : Prop where
  traced : ∀ m args, Traced (expand m args)
  tame : ∀ {m args}, S.macros m → (∀ a ∈ args, S.admits a) →
    Tame S (fun _ => True) (expand m args) fun o _ => S.admits o

theorem result_tame {x : Gen (Option Value)} (hx : Straight x) :
    Tame S P (do return (← x).elim .null .value) fun o _ => S.admits o := by
  refine hx.tame.bind fun v => .pure fun s _ _ => ?_
  cases v <;> trivial

theorem callFunction_tame (f : FunctionRef) (args : List Operand) :
    Tame S P (callFunction f args) fun o _ => S.admits o :=
  (Straight.mapM (fun _ => .convert _ _) _).tame.bind fun _ => result_tame (.emit rfl)

theorem callValue_tame (callee : Value) (args : List Operand) :
    Tame S P (callValue callee args) fun o _ => S.admits o := by
  have hrest : Tame S P (do
      let args ← args.mapM (convert · none)
      return (← emit (.call callee args)).elim .null .value) fun o _ => S.admits o :=
    (Straight.mapM (fun _ => .convert _ _) _).tame.bind fun _ => result_tame (.emit rfl)
  unfold callValue
  dsimp only
  split
  . exact Tame.throw.bind fun _ => hrest
  . exact hrest

theorem callOther_tame (callee : Operand) (args : List Operand) :
    Tame S P (call (fun _ _ => throw (.argument .expansionDepth)) callee args)
      fun o _ => S.admits o := by
  unfold call
  split
  . apply Tame.get
    intro s
    split
    . dsimp only
      split
      . exact (Straight.throw _).tame.bind fun _ => .throw
      . exact .throw
    . exact callFunction_tame _ _
    . exact .throw
  . exact callFunction_tame _ _
  . exact callValue_tame _ _
  . exact .throw

theorem call_tame (h : Expands S expand) {callee : Operand} {args : List Operand}
    (hcallee : S.admits callee) (hargs : ∀ a ∈ args, S.admits a) :
    Tame S P (call expand callee args) fun o _ => S.admits o := by
  refine ⟨call_traced h.traced callee args, ?_⟩
  intro s o t hexec hs hP hfinished
  obtain ⟨name, m, rfl, -, hm, hexec⟩ | ⟨-, hexec⟩ := exec_call hexec
  . exact (h.tame (hs.macros hcallee hm) hargs).run hexec hs trivial hfinished
  . exact (callOther_tame callee args).run (hexec _) hs hP hfinished

theorem condVia_tame {x : Gen Unit} {y : Option (Gen Unit)}
    (hx : Tame S (fun _ => True) x fun _ _ => True)
    (hy : ∀ z ∈ y, Tame S (fun _ => True) z fun _ _ => True) (condition : Expr)
    (exit : Option BlockRef) :
    Tame S P (condVia elsewhere condition (.body x) (y.map .body) exit) fun _ _ => True := by
  rw [condVia_bodies]
  refine (Straight.within _).tame.bind fun c => (exits_tame exit).bind fun id => ?_
  exact (cond_tame hx hy c id).bind fun _ => record_tame _

theorem loopVia_tame {compare : Option (Gen Unit × Expr)} {body increment : Option (Gen Unit)}
    (hcompare : ∀ c ∈ compare, Tame S (fun _ => True) c.1 fun _ _ => True)
    (hbody : ∀ x ∈ body, Tame S (fun _ => True) x fun _ _ => True)
    (hincrement : ∀ x ∈ increment, Tame S (fun _ => True) x fun _ _ => True) (vars : List Expr)
    (names : List String) (exit : Option BlockRef) :
    Tame S P (loopVia elsewhere vars names compare body increment exit) fun _ _ => True := by
  refine (Straight.within _).tame.bind fun vs => (exits_tame exit).bind fun id => ?_
  refine Tame.bind (Tame.weaken (loop_tame ⟨?_, ?_, ?_⟩) (fun _ h => h) fun _ _ h => h) fun _ =>
    (bindAll_tame _ _).bind fun _ => record_tame _
  . intro run hrun vs
    obtain ⟨c, hc, rfl⟩ := Option.map_eq_some_iff.1 hrun
    exact (bindAll_tame _ _).bind fun _ => (hcompare c hc).bind fun _ => (Straight.within _).tame
  . intro run hrun vs
    obtain ⟨x, hx, rfl⟩ := Option.map_eq_some_iff.1 hrun
    exact (bindAll_tame _ _).bind fun _ => hbody x hx
  . intro run hrun vs
    obtain ⟨x, hx, rfl⟩ := Option.map_eq_some_iff.1 hrun
    exact (bindAll_tame _ _).bind fun _ => hincrement x hx

theorem callStmt_tame (h : Expands S expand) {callee : Expr} {args : List Expr}
    (hcallee : callee.Plain S.texts) (hargs : ∀ a ∈ args, a.Plain S.texts) (name : Option String) :
    Tame S P (runStmt expand (.call callee args name)) fun _ _ => True := by
  have hlast (o : Operand) : Traced (do bindName name o; record (.operand o)) :=
    (bindName_traced _ _).bind fun _ => record_traced _
  refine Tame.bind_of (eval_tame hcallee) (fun f => (Straight.within _).traced.bind fun args =>
    (call_traced h.traced f args).bind hlast) fun f hf => ?_
  refine Tame.bind_of (evalAll_tame hargs) (fun args =>
    (call_traced h.traced f args).bind hlast) fun args hargs => ?_
  refine Tame.bind_of (call_tame h hf hargs) hlast fun o ho => ?_
  exact (bindName_tame _ ho).bind fun _ => record_tame _

end Script

def anything : Scope := ⟨fun _ => True, fun _ => True, True⟩

theorem anything_admits (o : Operand) : anything.admits o := by
  cases o <;> trivial

theorem anything_plain (e : Expr) : e.Plain anything.texts := by
  unfold Expr.Plain
  split <;> trivial

section Strict

variable {expand : Macro → List Operand → Gen Operand}

mutual

theorem runStrictly_tame (h : Expands anything expand) (stmt : Stmt) :
    Tame anything (fun _ => True) (runStrictly expand stmt) fun _ _ => True := by
  have heval {P} (e : Expr) : Tame anything P (eval e) fun _ _ => True := (Straight.within _).tame
  have hbind {P} (name : Option String) (o : Operand) :
      Tame anything P (bindName name o) fun _ _ => True :=
    bindName_tame name (anything_admits o)
  cases stmt with
  | compute op name =>
    exact (Straight.within _).tame.bind fun _ => (perform_straight _).tame.bind fun _ =>
      (hbind _ _).bind fun _ => record_tame _
  | operate op lhs rhs name =>
    exact (Straight.within _).tame.bind fun _ => (heval _).bind fun _ => (heval _).bind fun _ =>
      (operator_straight _ _ _).tame.bind fun _ => (hbind _ _).bind fun _ => record_tame _
  | free ptr => exact (heval _).bind fun _ => (free_straight _).tame.bind fun _ => record_tame _
  | store a ptr =>
    exact (heval _).bind fun _ => (heval _).bind fun _ =>
      (store_straight _ _).tame.bind fun _ => record_tame _
  | ret a => exact (heval _).bind fun _ => noting_tame (ret_tame _) _
  | directRet a => exact (heval _).bind fun _ => noting_tame (directRet_tame _) _
  | prepareRet a => exact (heval _).bind fun _ => (prepareRet_tame _).bind fun _ => record_tame _
  | conditionalRet condition a otherwise =>
    exact (heval _).bind fun _ => (heval _).bind fun _ => (blocks_tame otherwise).bind fun _ =>
      (conditionalRet_tame _ _ _).bind fun _ => record_tame _
  | branch target =>
    exact (block_tame target).bind fun _ => (branch_tame _).bind fun _ => record_tame _
  | unreachable => exact unreachable_tame.bind fun _ => record_tame _
  | comment text => exact (comment_straight _).tame.bind fun _ => record_tame _
  | returnBlock => exact returnBlock_tame.bind fun _ => record_tame _
  | bind a name => exact (heval _).bind fun _ => (hbind _ _).bind fun _ => record_tame _
  | inspect => exact snapshot_tame.bind fun _ => record_tame _
  | call callee args name => exact callStmt_tame h (anything_plain _) (fun a _ => anything_plain a) name
  | block label body name => exact blockStmt_tame trivial (runAllStrictly_tame h body) label name
  | cond condition ifTrue ifFalse exit =>
    rcases ifTrue with b | ref
    . rcases ifFalse with _ | c | ref'
      . exact condVia_tame (y := none) (runAllStrictly_tame h b) (by simp) condition exit
      . exact condVia_tame (y := some _) (runAllStrictly_tame h b)
          (by simpa using runAllStrictly_tame h c) condition exit
      . exact .throw
    . exact .throw
  | loop vars names compare body increment exit =>
    rw [runStrictly_loop]
    refine loopVia_tame ?_ ?_ ?_ vars names exit
    . cases compare with
      | none => simp
      | some c => simpa using runAllStrictly_tame h c.1
    . cases body with
      | none => simp
      | some b => simpa using runAllStrictly_tame h b
    . cases increment with
      | none => simp
      | some b => simpa using runAllStrictly_tame h b
  | finish | attempt | fail => exact .throw

theorem runAllStrictly_tame (h : Expands anything expand) (stmts : List Stmt) :
    Tame anything (fun _ => True) (runAllStrictly expand stmts) fun _ _ => True := by
  cases stmts with
  | nil => exact .pure fun _ _ _ => trivial
  | cons s ss => exact (runStrictly_tame h s).bind fun _ => runAllStrictly_tame h ss

end

theorem expandStrictly_tame (depth : Nat) (m : Macro) (args : List Operand) :
    Tame anything (fun _ => True) (m.expandStrictly depth args) fun o _ => anything.admits o := by
  induction depth generalizing m args with
  | zero => exact .throw
  | succ depth ih =>
    refine withNames_tame ?_ fun _ => anything_admits _
    have hexpands : Expands anything (Macro.expandStrictly depth) :=
      ⟨fun m args => (ih m args).traced, fun _ _ => ih _ _⟩
    refine (runAllStrictly_tame hexpands m.body).bind fun _ => ?_
    exact eval_tame (anything_plain _)

theorem strict_tame (body : List Stmt) :
    Tame anything (fun _ => True) (strict body) fun _ _ => True :=
  runAllStrictly_tame ⟨fun m args => (expandStrictly_tame _ m args).traced,
    fun _ _ => expandStrictly_tame _ _ _⟩ body

end Strict

end Gen

end ScriptedIR
