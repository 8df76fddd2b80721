import ScriptedIR.Proofs.Structured
import ScriptedIR.Proofs.Outline
import ScriptedIR.Proofs.Realization
import ScriptedIR.Proofs.Values

/-!
Generated code does what the outline says. Generation and outlining go side by side from states that
are twins; what is generated in between realizes the outlined code, in the function as it is when it is
complete.
-/

namespace ScriptedIR

namespace Work

variable {u v w : Work} {W : BlockId → Prop} {id : BlockId} {body is : List Instruction}
  {f : Function} {p : Spot}

def Before (v w : Work) : Prop := Evolves (fun _ => True) v w

theorem Evolves.before (h : Evolves W v w) : v.Before w := h.mono fun _ _ => .inl trivial

theorem Evolves.params (h : Evolves W v w) : w.function.params = v.function.params := by
  have := congrArg Function.params h.header
  exact this

theorem Before.trans (h : u.Before v) (h' : v.Before w) : u.Before w :=
  Evolves.trans h h' fun _ _ => .inl trivial

def Rest (w v : Work) (p : Spot) : Prop :=
  ∃ body, w.Holds p.block body ∧ v.Holds p.block (body ++ p.rest)

theorem Rest.append (h : u.Rest v p) (hbody : u.Holds p.block body)
    (hw : w.Holds p.block (body ++ is)) (hv : w.Before v) :
    ∃ rest, p.rest = is ++ rest ∧ w.Rest v ⟨p.block, rest⟩ := by
  obtain ⟨body', hbody', hrest⟩ := h
  cases hbody'.unique hbody
  obtain ⟨more, hmore⟩ := hv.grown hw
  rw [List.append_assoc] at hmore
  refine ⟨more, List.append_cancel_left (hrest.unique hmore), body ++ is, hw, ?_⟩
  rwa [List.append_assoc]

theorem Rest.close {i : Instruction} (h : u.Rest v p) (hbody : u.Holds p.block body)
    (hw : w.Holds p.block (body ++ [i])) (hi : i.isTerminator = true) (hv : w.Before v) :
    p.rest = [i] := by
  obtain ⟨body', hbody', hrest⟩ := h
  cases hbody'.unique hbody
  -- a block that has its terminator stays as it is
  have hclosed := hv.ended hw (by rwa [ends_concat])
  exact List.append_cancel_left (hrest.unique hclosed)

/--
The function that is built of the work when that is complete. A block that is empty may be missing.
-/
structure Built (v : Work) (f : Function) : Prop where
  sane : v.Sane
  code : ∀ id, (f.code? id).getD [] = (v.function.code? id).getD []
  nextTemp : f.nextTemp = v.function.nextTemp

theorem Built.start (h : v.Built f) (hbody : v.Holds id body) (hne : id ≠ v.entry) :
    f.start id = ⟨id, body⟩ := by
  rw [Holds, prologue_of_ne v hne] at hbody
  unfold Function.start
  rw [h.code, hbody]
  rfl

theorem Rest.start (h : w.Rest v p) (hempty : w.Holds p.block []) (hne : p.block ≠ w.entry)
    (hv : w.Before v) (hf : v.Built f) : p = f.start p.block := by
  obtain ⟨body, hbody, hrest⟩ := h
  cases hbody.unique hempty
  rw [hf.start hrest (by rwa [hv.entry])]
  rfl

theorem rest_of_empty (hempty : w.Holds id []) (hne : id ≠ w.entry) (hv : w.Before v)
    (hf : v.Built f) : w.Rest v (f.start id) := by
  obtain ⟨more, hmore⟩ := hv.grown hempty
  refine ⟨[], hempty, ?_⟩
  rw [hf.start hmore (by rwa [hv.entry])]
  exact hmore

end Work

namespace GenState

variable {S : Scope} {s s' t t' u : GenState} {v : Work} {f : Function} {p : Spot}
  {code code' : List Code}

structure At (s : GenState) (v : Work) (p : Spot) : Prop where
  opened : s.cursor.finished = false
  block : p.block = s.cursor.block
  rest : s.work.Rest v p

def goals (s : GenState) (f : Function) (next : Spot → Prop) : Goals where
  next
  leave p := ∃ id, s.cursor.exit = some id ∧ p = f.start id
  again p := ∃ id, s.cursor.next = some id ∧ p = f.start id

/--
What was generated from one state to another realizes code.
-/
structure Lowers (s : GenState) (code : List Code) (t : GenState) : Prop where
  idle : s.cursor.finished = true → code = []
  realizes : ∀ {env v f p}, t.work.Before v → v.Built f → s.At v p →
    Realizes env f p code 0 (s.goals f (t.At v))

theorem Lowers.refl (s : GenState) : s.Lowers [] s where
  idle _ := rfl
  realizes _ _ hp := by
    refine (Realizes.nil _ _ _).mono ?_ (fun _ => id) fun _ => id
    rintro _ rfl
    exact hp

theorem At.relabel (h : s.At v p) (hwork : t.work = s.work) (hcursor : t.cursor = s.cursor) :
    t.At v p :=
  ⟨hcursor ▸ h.opened, hcursor ▸ h.block, hwork ▸ h.rest⟩

theorem Lowers.relabel (h : s.Lowers code t) (hs : s'.work = s.work) (hc : s'.cursor = s.cursor)
    (ht : t'.work = t.work) (hc' : t'.cursor = t.cursor) : s'.Lowers code t' where
  idle := hc ▸ h.idle
  realizes hv hf hp := by
    rw [ht] at hv
    unfold goals
    rw [hc]
    exact (h.realizes hv hf (hp.relabel hs.symm hc.symm)).mono (fun q hq => hq.relabel ht hc')
      (fun _ => id) fun _ => id

theorem Grows.goals (h : s.Grows t) (next : Spot → Prop) : t.goals f next = s.goals f next := by
  unfold GenState.goals
  rw [h.cursor]

theorem Lowers.trans (h : s.Lowers code t) (h' : t.Lowers code' u) (hst : s.Grows t)
    (htu : t.work.Before u.work) : s.Lowers (code ++ code') u where
  idle hfinished := by
    rw [h.idle hfinished, h'.idle (by rw [hst.still hfinished]; exact hfinished)]
    rfl
  realizes {env v f p} hv hf hp := by
    refine Realizes.append (G := s.goals f (u.At v)) (m := 0) (h.realizes (htu.trans hv) hf hp) ?_
      (Nat.zero_le _)
    intro q hq
    rw [← hst.goals]
    exact h'.realizes hv hf hq

theorem Lowers.extend (hs : s.Ready S) {is : List Instruction} {n : Temp} {m : Module}
    (hext : s.Extends is n m) : s.Lowers (is.map .plain) (s.extend is n m) where
  idle hfinished := by
    cases is with
    | nil => rfl
    | cons i is =>
      rw [hext.opened (by simp)] at hfinished
      cases hfinished
  realizes {env v f p} hv hf hp := by
    obtain ⟨body, hbody⟩ := hs.sane.held hs.present
    rw [← hp.block] at hbody
    have ht : (s.extend is n m).work.Holds p.block (body ++ is) := by
      rw [hp.block] at hbody ⊢
      exact hbody.put
    obtain ⟨rest, hrest, hat⟩ := hp.rest.append hbody ht hv
    obtain ⟨block, _⟩ := p
    cases hrest
    refine (Realizes.plains hext.plain).mono ?_ (fun _ => id) fun _ => id
    rintro _ rfl
    exact ⟨hp.opened, hp.block, hat⟩

structure Lowered (S : Scope) (s : GenState) (code : List Code) (t : GenState) : Prop where
  grows : s.Grows t
  ready : t.Ready S
  lowers : s.Lowers code t

theorem Lowered.refl (hs : s.Ready S) : s.Lowered S [] s := ⟨.refl hs, hs, .refl s⟩

theorem Lowered.trans (h : s.Lowered S code t) (h' : t.Lowered S code' u)
    (hs : s.Ready S) : s.Lowered S (code ++ code') u :=
  ⟨h.grows.trans h'.grows hs.sane, h'.ready,
    h.lowers.trans h'.lowers h.grows h'.grows.evolves.before⟩

theorem At.beside (hp : s.At v p) (h : Work.Evolves (fun _ => False) s.work t.work)
    (hcursor : t.cursor = s.cursor) : t.At v p := by
  obtain ⟨body, hbody, hrest⟩ := hp.rest
  exact ⟨hcursor ▸ hp.opened, hcursor ▸ hp.block, body, h.kept hbody id, hrest⟩

theorem Lowers.beside (h : Work.Evolves (fun _ => False) s.work t.work) (hcursor : t.cursor = s.cursor) :
    s.Lowers [] t where
  idle _ := rfl
  realizes hv hf hp := by
    refine (Realizes.nil _ _ _).mono ?_ (fun _ => id) fun _ => id
    rintro p rfl
    exact hp.beside h hcursor

theorem At.closed {v w : Work} {p : Spot} {i : Instruction} (hs : s.Ready S) (h : s.At v p)
    (hw : ∀ {body}, s.work.Holds s.cursor.block body → w.Holds s.cursor.block (body ++ [i]))
    (hi : i.isTerminator = true) (hv : w.Before v) : p = ⟨s.cursor.block, [i]⟩ := by
  obtain ⟨body, hbody⟩ := hs.sane.held hs.present
  have hclosed := hw hbody
  rw [← h.block] at hbody hclosed ⊢
  rw [← h.rest.close hbody hclosed hi hv]

theorem Lowers.close {i : Instruction} (hs : s.Ready S) (hopen : s.cursor.finished = false)
    (hi : s.function.Terminates i)
    (h : ∀ {env v f b}, (s.close i).work.Before v → v.Built f →
      Realizes env f ⟨b, [i]⟩ code 0 (s.goals f fun _ => False)) : s.Lowers code (s.close i) where
  idle hfinished := by
    rw [hopen] at hfinished
    cases hfinished
  realizes {env v f p} hv hf hp := by
    rw [hp.closed (w := (s.close i).work) hs (fun h => h.close) hi.1 hv]
    exact (h hv hf).mono (fun _ => False.elim) (fun _ => id) fun _ => id

theorem Lowers.cond {c : Value} {ifTrue ifFalse exit : BlockId} (hs : s.Ready S)
    (hopen : s.cursor.finished = false) (hst : Work.Evolves (fun _ => False) s.work t.work)
    (hcursor : t.cursor = s.cursor) (hi : t.function.Terminates (.branchIf c ifTrue ifFalse))
    (hempty : t.work.Holds exit []) (hexit : t.work.Target exit) (hne : exit ≠ s.cursor.block)
    (htrue : ∀ {env v f}, t.work.Before v → v.Built f →
      Realizes env f (f.start ifTrue) code 0 (s.goals f (· = f.start exit)))
    (hfalse : ∀ {env v f}, t.work.Before v → v.Built f →
      Realizes env f (f.start ifFalse) code' 0 (s.goals f (· = f.start exit))) :
    s.Lowers [.cond c code code']
      ((t.terminate t.cursor.block (.branchIf c ifTrue ifFalse)).goOn exit false) where
  idle hfinished := by
    rw [hopen] at hfinished
    cases hfinished
  realizes {env v f p} hv hf hp := by
    rw [hcursor] at hv ⊢
    obtain ⟨body, hbody, hends⟩ := hs.opened hopen
    have hblock : t.work.Open s.cursor.block := ⟨body, hst.kept hbody id, hends⟩
    have htv := (Work.close_evolves hblock).before.trans hv
    have hempty' : (t.work.close s.cursor.block (.branchIf c ifTrue ifFalse)).Holds exit [] :=
      (Work.holds_close_of_ne hne).2 hempty
    -- the branch is all that is left of the block at the cursor
    rw [hp.closed hs (fun h => (hst.kept h id).close) hi.1 hv]
    have hcond : Realizes env f ⟨s.cursor.block, [.branchIf c ifTrue ifFalse]⟩ [.cond c code code'] 0
        (s.goals f (· = f.start exit)) :=
      (Realizes.cond (htrue htv hf) (hfalse htv hf)).weaken (Nat.zero_le _)
    refine hcond.mono ?_ (fun _ => id) fun _ => id
    rintro _ rfl
    exact ⟨rfl, rfl, Work.rest_of_empty hempty' hexit.2 hv hf⟩

theorem Lowers.congr (h : s.Lowers code t) (hopen : s.cursor.finished = false)
    (heq : ∀ env fuel frame store,
      Code.runAll env fuel code' frame store = Code.runAll env fuel code frame store) :
    s.Lowers code' t where
  idle hfinished := by
    rw [hopen] at hfinished
    cases hfinished
  realizes hv hf hp := (h.realizes hv hf hp).congr (heq _)

structure Kin (s e : GenState) : Prop where
  library : e.library = s.library
  nextTemp : e.function.nextTemp = s.function.nextTemp
  params : e.function.params = s.function.params
  names : e.names = s.names
  returnType : e.returnType = s.returnType
  returnSlot : e.returnSlot = s.returnSlot

/--
A state of generation and one of outlining that go the same way.
-/
structure Twin (s e : GenState) : Prop extends s.Kin e where
  finished : e.cursor.finished = s.cursor.finished

theorem Twin.refl (s : GenState) : s.Twin s := ⟨⟨rfl, rfl, rfl, rfl, rfl, rfl⟩, rfl⟩

end GenState

theorem Outline.exec_bind {x : Outline α} {g : α → Outline β} {a : α} {b : β} {code code' : List Code}
    {e e' e'' : GenState} (hx : x.run.exec e = (.ok (a, code), e'))
    (hg : (g a).run.exec e' = (.ok (b, code'), e'')) :
    (x >>= g).run.exec e = (.ok (b, code ++ code'), e'') := by
  change Gen.exec (x.run >>= fun r => (g r.1).run >>= fun r' => pure (r'.1, r.2 ++ r'.2)) e = _
  rw [Gen.exec_bind_ok]
  refine ⟨_, _, hx, ?_⟩
  rw [Gen.exec_bind_ok]
  exact ⟨_, _, hg, rfl⟩

theorem Outline.of_exec_bind {x : Outline α} {g : α → Outline β} {b : β} {code : List Code}
    {e e'' : GenState} (h : (x >>= g).run.exec e = (.ok (b, code), e'')) :
    ∃ a code₁ e' code₂, x.run.exec e = (.ok (a, code₁), e') ∧
      (g a).run.exec e' = (.ok (b, code₂), e'') ∧ code = code₁ ++ code₂ := by
  obtain ⟨⟨a, code₁⟩, e', hx, h⟩ := Gen.exec_bind_ok.1 h
  obtain ⟨⟨_, code₂⟩, _, hg, ⟨⟩⟩ := Gen.exec_bind_ok.1 h
  exact ⟨a, code₁, e', code₂, hx, hg, rfl⟩

namespace Gen

open Outline (straight)

variable {S : Scope} {s t : GenState} {A : α → Prop} {B : β → Prop}

structure Sim (S : Scope) (x : Gen α) (y : Outline α) (A : α → Prop) : Prop where
  tame : Tame S (fun _ => True) x fun a _ => A a
  lowers : ∀ {s a t e}, exec x s = (.ok a, t) → s.Ready S → t.Settled S → s.Twin e →
    ∃ code e', exec y.run e = (.ok (a, code), e') ∧ t.Twin e' ∧ s.Lowers code t

namespace Sim

theorem pure {a : α} (ha : A a) : Sim S (pure a) (pure a) A := by
  refine ⟨.pure fun _ _ _ => ha, ?_⟩
  rintro s _ _ e ⟨⟩ - - htwin
  exact ⟨[], e, rfl, htwin, .refl s⟩

theorem weaken {x : Gen α} {y : Outline α} {A' : α → Prop} (h : Sim S x y A)
    (ht : Tame S (fun _ => True) x fun a _ => A' a) : Sim S x y A' :=
  ⟨ht, h.lowers⟩

theorem lowered {x : Gen α} {y : Outline α} {a : α} {e : GenState} (h : Sim S x y A)
    (hexec : exec x s = (.ok a, t)) (hs : s.Ready S) (hsettled : t.Settled S) (htwin : s.Twin e) :
    ∃ code e', exec y.run e = (.ok (a, code), e') ∧ t.Twin e' ∧ s.Lowered S code t ∧ A a := by
  obtain ⟨hgrows, ht, ha⟩ := h.tame.run hexec hs trivial hsettled
  obtain ⟨code, e', hy, htwin', hlowers⟩ := h.lowers hexec hs hsettled htwin
  exact ⟨code, e', hy, htwin', ⟨hgrows, ht, hlowers⟩, ha⟩

theorem bind_of {x : Gen α} {y : Outline α} {f : α → Gen β} {g : α → Outline β} (hx : Sim S x y A)
    (htraced : ∀ a, Traced (f a)) (hf : ∀ a, A a → Sim S (f a) (g a) B) :
    Sim S (x >>= f) (y >>= g) B := by
  refine ⟨hx.tame.bind_of htraced fun a ha => (hf a ha).tame, ?_⟩
  intro s b u e hexec hs hsettled htwin
  obtain ⟨a, t, hxt, hfu⟩ := exec_bind_ok.1 hexec
  have hsettled' := hsettled.of_subset ((htraced a).of_exec hfu)
  obtain ⟨code, e', hy, htwin', hlowered, ha⟩ := hx.lowered hxt hs hsettled' htwin
  obtain ⟨code', e'', hg, htwin'', hlowered', -⟩ :=
    (hf a ha).lowered hfu hlowered.ready hsettled htwin'
  exact ⟨code ++ code', e'', Outline.exec_bind hy hg, htwin'', (hlowered.trans hlowered' hs).lowers⟩

theorem bind {x : Gen α} {y : Outline α} {f : α → Gen β} {g : α → Outline β} (hx : Sim S x y A)
    (hf : ∀ a, Sim S (f a) (g a) B) : Sim S (x >>= f) (y >>= g) B :=
  hx.bind_of (fun a => (hf a).tame.traced) fun a _ => hf a

end Sim

theorem exec_straight {x : Gen α} {e : GenState} {a : α} (h : exec x e.blank = (.ok a, t)) :
    exec (straight x).run e = (.ok (a, ((t.function.code? 0).getD []).map .plain),
      { t with function := { t.function with blocks := e.function.blocks }, cursor := e.cursor }) := by
  change Prod.mk _ _ = _
  rw [exec] at h
  rw [h]
  rfl

theorem exec_straight_get (e : GenState) : exec (straight get).run e = (.ok (e.blank, []), e) := rfl

theorem alike_blank {e : GenState} (h : s.Twin e) : s.Alike e.blank :=
  ⟨h.library, h.nextTemp, h.params, h.names, h.finished, fun _ => ⟨[], rfl, rfl⟩⟩

theorem extend_lowers {x : Gen α} {a : α} {e : GenState} {is : List Instruction} {n : Temp}
    {m : Module} (hs : s.Ready S) (htwin : s.Twin e) (hext : s.Extends is n m)
    (halike : ∀ e, s.Alike e → exec x e = (.ok a, e.extend is n m)) :
    ∃ e', exec (straight x).run e = (.ok (a, is.map .plain), e') ∧ (s.extend is n m).Twin e' ∧
      s.Lowered S (is.map .plain) (s.extend is n m) := by
  have hblank := halike _ (alike_blank htwin)
  refine ⟨_, exec_straight hblank, ?_, (hs.extend hext).1, (hs.extend hext).2, .extend hs hext⟩
  refine { htwin with library := ?_, nextTemp := rfl }
  change { e.library with module := m } = { s.library with module := m }
  rw [htwin.library]

theorem Straight.sim {x : Gen α} (hx : Straight x) : Sim S x (straight x) fun _ => True := by
  refine ⟨hx.tame, ?_⟩
  intro s a t e hexec hs _ htwin
  obtain ⟨is, n, m, hext, rfl, halike⟩ := hx.exec_ok hexec
  obtain ⟨e', hrun, htwin', hlowered⟩ := extend_lowers hs htwin hext halike
  exact ⟨_, e', hrun, htwin', hlowered.lowers⟩

theorem Sim.recorded {x : Gen Unit} {y : Outline Unit} (h : Sim S x y fun _ => True) (e : Event) :
    Sim S (do x; record e) y fun _ => True := by
  refine ⟨h.tame.bind fun _ => record_tame e, ?_⟩
  intro s a t e hexec hs hsettled htwin
  obtain ⟨⟨⟩, u, hx, hrecord⟩ := exec_bind_ok.1 hexec
  have hsettled' := hsettled.of_subset ((record_traced _).of_exec hrecord)
  obtain ⟨code, e', hy, htwin', hlowers⟩ := h.lowers hx hs hsettled' htwin
  cases hrecord
  exact ⟨code, e', hy, { htwin' with }, hlowers.relabel rfl rfl rfl rfl⟩

theorem Sim.bind_recorded {x : Gen α} {f : α → Gen Unit} {y : Outline Unit}
    (h : Sim S (x >>= f) y fun _ => True) (e : Event) :
    Sim S (do let a ← x; f a; record e) y fun _ => True := by
  have hrecorded := h.recorded e
  rwa [bind_assoc] at hrecorded

theorem Sim.noted {x : Gen Unit} {y : Outline Unit} (h : Sim S x y fun _ => True) (direct : Bool) :
    Sim S (noting direct x) y fun _ => True := by
  refine ⟨noting_tame h.tame direct, ?_⟩
  intro s a t e hexec
  exact (h.recorded (.returned direct s.cursor.finished)).lowers hexec

section Names

def Renames (x : Gen Unit) : Prop :=
  ∃ change : Names Operand → Names Operand,
    ∀ s, exec x s = (.ok (), { s with names := change s.names })

theorem bindName_renames (name : Option String) (o : Operand) : Renames (bindName name o) := by
  cases name with
  | none => exact ⟨id, fun _ => rfl⟩
  | some name => exact ⟨(·.insert name o), fun _ => rfl⟩

theorem bindAll_renames (names : List String) (vs : List Value) : Renames (bindAll names vs) := by
  unfold bindAll
  induction names.zip vs with
  | nil => exact ⟨id, fun _ => rfl⟩
  | cons p ps ih =>
    obtain ⟨change, hchange⟩ := ih
    refine ⟨fun names => change (names.insert p.1 (.value p.2)), ?_⟩
    intro s
    exact exec_bind_ok.2 ⟨(), _, rfl, hchange _⟩

theorem Renames.sim {x : Gen Unit} (hx : Renames x)
    (ht : Tame S (fun _ => True) x fun _ _ => True) : Sim S x (straight x) fun _ => True := by
  refine ⟨ht, ?_⟩
  intro s a t e hexec hs _ htwin
  obtain ⟨change, hchange⟩ := hx
  rw [hchange] at hexec
  cases hexec
  exact ⟨[], _, exec_straight (hchange e.blank), { htwin with names := congrArg change htwin.names },
    (GenState.Lowers.refl s).relabel rfl rfl rfl rfl⟩

theorem bindName_sim (name : Option String) {o : Operand} (ho : S.admits o) :
    Sim S (bindName name o) (straight (bindName name o)) fun _ => True :=
  (bindName_renames name o).sim (bindName_tame name ho)

theorem bindAll_sim (names : List String) (vs : List Value) :
    Sim S (bindAll names vs) (straight (bindAll names vs)) fun _ => True :=
  (bindAll_renames names vs).sim (bindAll_tame names vs)

end Names

section Slots

theorem extend_sim {e e' : GenState} {is : List Instruction} {n : Temp} (code : List Code)
    (hs : s.Ready S) (htwin : s.Twin e) (hext : s.Extends is n s.library.module) (hne : is ≠ [])
    (he' : e' = { e with function := { e.function with nextTemp := n } })
    (heq : ∀ env fuel frame store,
      Code.runAll env fuel code frame store = Code.runAll env fuel (is.map .plain) frame store) :
    (s.extend is n s.library.module).Twin e' ∧ s.Lowers code (s.extend is n s.library.module) := by
  subst he'
  refine ⟨{ htwin with nextTemp := rfl }, ?_⟩
  exact (GenState.Lowers.extend hs hext).congr (hext.opened hne) heq

theorem define_extends {r : Request} {rhs : Rhs} (hopen : s.Open)
    (hcheck : r.check s.function = .ok (.value rhs)) :
    s.Extends [.define s.function.nextTemp rhs] (s.function.nextTemp + 1) s.library.module :=
  ⟨(Request.check_drafted _ _ _ hcheck).fits, by simp [Instruction.isTerminator], rfl,
    fun _ => hopen.unfinished⟩

theorem fetch_sim (slot : Outline.Slot) :
    Sim S (load (.value slot.value)) (Outline.fetch slot) fun _ => True := by
  refine ⟨(load_straight _).tame, ?_⟩
  intro s v t e hexec hs _ htwin
  obtain ⟨hopen, rfl, rfl⟩ := (exec_emitValue_of_check (r := .load slot.value) rfl).1 hexec
  have hext := define_extends (r := .load slot.value) hopen rfl
  obtain ⟨htwin', hlowers⟩ := extend_sim [.fetch s.function.nextTemp slot.value]
    hs htwin hext (by simp) rfl fun env fuel frame store => Code.runAll_fetch env fuel _ _ _ _ _
  refine ⟨_, _, ?_, htwin', hlowers⟩
  rw [← htwin.nextTemp]
  rfl

theorem fetchAll_sim (slots : List Outline.Slot) :
    Sim S (loadAll (slots.map Outline.Slot.value)) (Outline.fetchAll slots) fun _ => True := by
  induction slots with
  | nil => exact .pure trivial
  | cons slot slots ih =>
    unfold loadAll
    rw [List.map_cons, List.mapM_cons]
    exact (fetch_sim slot).bind fun v => ih.bind fun vs => .pure trivial

theorem keep_lowers {e : GenState} {v slot : Value} (hs : s.Ready S) (htwin : s.Twin e)
    (h : exec (do
      let slot ← emitValue (.alloca v.ty none)
      let _ ← emit (.store v slot)
      return slot) s = (.ok slot, t)) :
    ∃ slot' code e', slot = slot'.value ∧ exec (Outline.keep v).run e = (.ok (slot', code), e') ∧
      t.Twin e' ∧ s.Lowered S code t := by
  obtain ⟨_, u, halloca, h⟩ := exec_bind_ok.1 h
  obtain ⟨_, _, hstore, hpure⟩ := exec_bind_ok.1 h
  cases hpure
  obtain ⟨hopen, rfl, rfl⟩ := (exec_emitValue_of_check (r := .alloca v.ty none) rfl).1 halloca
  have hext := define_extends (r := .alloca v.ty none) hopen rfl
  obtain ⟨draft, hcheck, hext', rfl, -⟩ := exec_emit_plain rfl hstore
  cases Request.check_store _ _ _ _ hcheck
  have hboth := hext.trans hext'
  rw [GenState.extend_extend]
  obtain ⟨htwin', hlowers⟩ := extend_sim [.keep s.function.nextTemp v]
    hs htwin hboth (by simp) rfl fun env fuel frame store => Code.runAll_keep env fuel _ _ _ _
  refine ⟨⟨s.function.nextTemp, v.ty⟩, _, _, rfl, ?_, htwin', (hs.extend hboth).1,
    (hs.extend hboth).2, hlowers⟩
  rw [← htwin.nextTemp]
  rfl

theorem keepAll_lowers {e : GenState} {vars : List Operand} {slots : List Value} (hs : s.Ready S)
    (htwin : s.Twin e) (h : exec (vars.mapM slot) s = (.ok slots, t)) :
    ∃ slots' code e', slots = slots'.map Outline.Slot.value ∧
      exec (Outline.keepAll vars).run e = (.ok (slots', code), e') ∧ t.Twin e' ∧
      s.Lowered S code t := by
  induction vars generalizing s e slots with
  | nil =>
    cases h
    exact ⟨[], [], e, rfl, rfl, htwin, .refl hs⟩
  | cons a vars ih =>
    rw [List.mapM_cons] at h
    obtain ⟨_, s₂, hslot, h⟩ := exec_bind_ok.1 h
    obtain ⟨_, _, hslots, hpure⟩ := exec_bind_ok.1 h
    cases hpure
    obtain ⟨v, s₁, hconvert, hkeep⟩ := exec_bind_ok.1 hslot
    obtain ⟨is, n, m, hext, rfl, halike⟩ := (Straight.convert a none).exec_ok hconvert
    obtain ⟨e₁, hrun₁, htwin₁, hlowered₁⟩ := extend_lowers hs htwin hext halike
    obtain ⟨slot, code₂, e₂, rfl, hrun₂, htwin₂, hlowered₂⟩ :=
      keep_lowers hlowered₁.ready htwin₁ hkeep
    obtain ⟨slots, code₃, e₃, rfl, hrun₃, htwin₃, hlowered₃⟩ := ih hlowered₂.ready htwin₂ hslots
    refine ⟨slot :: slots, _, e₃, rfl, ?_, htwin₃,
      hlowered₁.trans (hlowered₂.trans hlowered₃ hlowered₁.ready) hs⟩
    rw [← List.append_nil code₃]
    exact Outline.exec_bind hrun₁ (Outline.exec_bind hrun₂ (Outline.exec_bind hrun₃ rfl))

end Slots

section Leaving

variable {e e' : GenState} {c : Code}

theorem exec_unless_finished (y : Outline Unit) (h : e.cursor.finished = true) :
    exec (Outline.unlessFinished y).run e = (.ok ((), []), e) := by
  refine Outline.exec_bind (exec_straight_get e) ?_
  rw [show e.blank.cursor.finished = true from h]
  rfl

theorem exec_unless_open {y : Outline Unit} {code : List Code} (h : e.cursor.finished = false)
    (hy : exec y.run e = (.ok ((), code), e')) :
    exec (Outline.unlessFinished y).run e = (.ok ((), code), e') := by
  refine Outline.exec_bind (exec_straight_get e) ?_
  rw [show e.blank.cursor.finished = false from h]
  exact hy

theorem unlessFinished_sim {x : Gen Unit} {y : Outline Unit}
    (ht : Tame S (fun _ => True) (unlessFinished x) fun _ _ => True)
    (h : ∀ {s t e}, exec x s = (.ok (), t) → s.Ready S → s.cursor.finished = false → t.Settled S →
      s.Twin e → ∃ code e', exec y.run e = (.ok ((), code), e') ∧ t.Twin e' ∧ s.Lowers code t) :
    Sim S (unlessFinished x) (Outline.unlessFinished y) fun _ => True := by
  refine ⟨ht, ?_⟩
  intro s _ t e hexec hs hsettled htwin
  obtain ⟨hclosed, rfl⟩ | ⟨hopen, hexec⟩ := exec_unlessFinished hexec
  . exact ⟨[], e, exec_unless_finished _ (htwin.finished.trans hclosed), htwin, .refl _⟩
  . obtain ⟨code, e', hy, htwin', hlowers⟩ := h hexec hs hopen hsettled htwin
    exact ⟨code, e', exec_unless_open (htwin.finished.trans hopen) hy, htwin', hlowers⟩

theorem last_lowers {i : Instruction} (hs : s.Ready S)
    (hopen : s.cursor.finished = false) (hi : s.function.Terminates i) (htwin : s.Twin e)
    (h : ∀ {env v f b}, (s.close i).work.Before v → v.Built f →
      Realizes env f ⟨b, [i]⟩ [c] 0 (s.goals f fun _ => False)) :
    ∃ e', exec (Outline.last c).run e = (.ok ((), [c]), e') ∧ (s.close i).Twin e' ∧
      s.Lowers [c] (s.close i) :=
  ⟨_, rfl, { htwin with finished := rfl }, .close hs hopen hi h⟩

theorem branch_lowers {id : BlockId} (hs : s.Ready S) (htwin : s.Twin e)
    (hexec : exec (branch id) s = (.ok (), t))
    (h : ∀ {env v f p}, s.work.Before v → v.Built f → Leads env f 1 p (f.start id) →
      Realizes env f p [c] 0 (s.goals f fun _ => False)) :
    ∃ code e', exec (Outline.unlessFinished (Outline.last c)).run e = (.ok ((), code), e') ∧
      t.Twin e' ∧ s.Lowers code t := by
  obtain ⟨hclosed, rfl⟩ | ⟨hopen, hi, rfl⟩ := exec_branch hexec
  . exact ⟨[], e, exec_unless_finished _ (htwin.finished.trans hclosed), htwin, .refl _⟩
  . have hbefore := (hs.close hopen hi).1.evolves.before
    obtain ⟨e', hlast, htwin', hlowers⟩ :=
      last_lowers hs hopen hi htwin fun hv hf => h (hbefore.trans hv) hf leads_branch
    exact ⟨[c], e', exec_unless_open (htwin.finished.trans hopen) hlast, htwin', hlowers⟩

theorem again_sim :
    Sim S (do branch (← block .next)) (Outline.unlessFinished (Outline.last .again)) fun _ => True := by
  refine ⟨(block_tame _).bind fun _ => (branch_tame _).done, ?_⟩
  intro s _ t e hexec hs _ htwin
  obtain ⟨target, _, hblock, hexec⟩ := exec_bind_ok.1 hexec
  obtain ⟨_, _, ⟨⟩, hblock⟩ := exec_bind_ok.1 hblock
  dsimp only at hblock
  split at hblock
  . next hnext =>
    cases hblock
    refine branch_lowers hs htwin hexec fun _ _ hleads => ?_
    exact (Realizes.again hleads).mono (fun _ => id) (fun _ => id) fun _ hp => ⟨_, hnext, hp⟩
  . cases hblock

theorem leave_sim :
    Sim S (do branch (← block .exit)) (Outline.unlessFinished (Outline.last .leave)) fun _ => True := by
  refine ⟨(block_tame _).bind fun _ => (branch_tame _).done, ?_⟩
  intro s _ t e hexec hs _ htwin
  obtain ⟨target, _, hblock, hexec⟩ := exec_bind_ok.1 hexec
  obtain ⟨_, _, ⟨⟩, hblock⟩ := exec_bind_ok.1 hblock
  dsimp only at hblock
  split at hblock
  . next hexit =>
    cases hblock
    refine branch_lowers hs htwin hexec fun _ _ hleads => ?_
    exact (Realizes.leave hleads).mono (fun _ => id) (fun _ hp => ⟨_, hexit, hp⟩) fun _ => id
  . cases hblock

theorem unreachable_sim :
    Sim S unreachable (do requireOpen; Outline.last (.plain .unreachable)) fun _ => True := by
  refine ⟨unreachable_tame, ?_⟩
  intro s _ t e hexec hs _ htwin
  obtain ⟨hopen, hi, rfl⟩ := exec_close rfl hexec
  obtain ⟨e', hlast, htwin', hlowers⟩ :=
    last_lowers hs hopen hi htwin fun _ _ => .unreachable
  refine ⟨[] ++ [.plain .unreachable], e', ?_, htwin', hlowers⟩
  have hrun : exec (straight requireOpen).run e = (.ok ((), []), e) :=
    exec_straight (exec_requireOpen.2 ⟨htwin.finished.trans hopen, rfl⟩)
  exact Outline.exec_bind hrun hlast

end Leaving

section Calls

theorem withNames_sim {x : Gen α} {y : Outline α} {names : Names Operand} (hx : Sim S x y A)
    (hnames : ∀ {name : String} {o}, names[name]? = some o → S.admits o) :
    Sim S (withNames names x) (Outline.withNames names y) A := by
  refine ⟨withNames_tame hx.tame hnames, ?_⟩
  intro s a t e hexec hs hsettled htwin
  obtain ⟨u, hu, rfl⟩ := exec_withNames.1 hexec
  have hs₁ := (hs.relabel names ∅ s.trace hnames (by simp)).2
  have htwin₁ : GenState.Twin { s with names, handles := ∅ } { e with names, handles := ∅ } :=
    { htwin with names := rfl }
  obtain ⟨code, e', hy, htwin', hlowers⟩ := hx.lowers hu hs₁ hsettled htwin₁
  refine ⟨code, { e' with names := e.names, handles := e.handles }, ?_,
    { htwin' with names := htwin.names }, hlowers.relabel rfl rfl rfl rfl⟩
  exact exec_withNames.2 ⟨e', hy, rfl⟩

def Outlines (S : Scope) (expand : Macro → List Operand → Gen Operand)
    (outline : Macro → List Operand → Outline Operand) : Prop :=
  ∀ {m args}, S.macros m → (∀ a ∈ args, S.admits a) →
    Sim S (expand m args) (outline m args) S.admits

theorem call_straight (e : ScriptError) (callee : Operand) (args : List Operand) :
    Straight (call (fun _ _ => throw e) callee args) := by
  unfold call
  split
  . refine .get ?_ fun s => ?_
    . intro s t hlib
      rw [hlib]
    . split
      . dsimp only
        split
        . exact (Straight.throw _).bind fun _ => .throw _
        . exact .throw _
      . exact callFunction_straight _ _
      . exact .throw _
  . exact callFunction_straight _ _
  . exact callValue_straight _ _
  . exact .throw _

theorem call_sim {expand : Macro → List Operand → Gen Operand}
    {outline : Macro → List Operand → Outline Operand} (h : Expands S expand)
    (ho : Outlines S expand outline) {callee : Operand} {args : List Operand}
    (hcallee : S.admits callee) (hargs : ∀ a ∈ args, S.admits a) :
    Sim S (call expand callee args) (Outline.call outline callee args) S.admits := by
  refine ⟨call_tame h hcallee hargs, ?_⟩
  intro s o t e hexec hs hsettled htwin
  have hlib : e.blank.library = s.library := htwin.library
  obtain ⟨name, m, rfl, hresolve, hm, hexec⟩ | ⟨hnone, hexec⟩ := exec_call hexec
  . obtain ⟨code, e', hrun, htwin', hlowers⟩ :=
      (ho (hs.macros hcallee hm) hargs).lowers hexec hs hsettled htwin
    refine ⟨code, e', ?_, htwin', hlowers⟩
    refine Outline.exec_bind (exec_straight_get e) ?_
    dsimp only
    rw [hlib, hresolve]
    exact hrun
  . -- no macro is found, so the call is the same as if macros could not be expanded at all
    obtain ⟨code, e', hrun, htwin', hlowers⟩ :=
      (call_straight (.argument .expansionDepth) callee args).sim.lowers (hexec _) hs hsettled htwin
    refine ⟨code, e', ?_, htwin', hlowers⟩
    refine Outline.exec_bind (exec_straight_get e) ?_
    dsimp only
    split
    . next m hfound =>
      split at hfound
      . rw [hlib] at hfound
        exact absurd hfound (hnone _ m rfl)
      . cases hfound
    . exact hrun

end Calls

end Gen

end ScriptedIR
