import ScriptedIR.Proofs.Answers

/-!
Conditionals and loops go as their outlines do. Each part is generated in a block of its own, from
where control comes to the exit, or goes round a loop.
-/

namespace ScriptedIR

theorem Leads.mono {env : Env} {f : Function} {m n : Nat} {p q : Spot} (h : Leads env f n p q)
    (hm : m ≤ n) : Leads env f m p q :=
  fun frame store => (h frame store).mono hm

namespace GenState.Twin

variable {s t e e' : GenState}

theorem opened (h : s.Kin e) {c : Cursor} (hc : c.finished = false) :
    Twin { s with cursor := c } e.reopened :=
  { h with finished := hc.symm }

theorem back (h : s.Twin e) (ht : t.Twin e') :
    Twin { t with cursor := s.cursor } { e' with cursor := e.cursor } :=
  { ht with finished := h.finished }

end GenState.Twin

namespace Gen

open Outline (straight)

variable {S : Scope} {s t u : GenState} {e : GenState} {A : α → Prop} {env : Env} {v : Work}
  {f : Function}

theorem exec_inside {y : Outline Unit} {e' : GenState} {code : List Code}
    (h : exec y.run e.reopened = (.ok ((), code), e')) :
    exec (Outline.inside y).run e = (.ok (code, []), { e' with cursor := e.cursor }) := by
  simp only [exec, Outline.inside] at h ⊢
  rw [h]
  rfl

theorem Sim.fills {x : Gen α} {y : Outline α} {a : α} {c : Cursor} (hx : Sim S x y A)
    (hs : GenState.Ready S { s with cursor := c }) (hc : c.finished = false) (hkin : s.Kin e)
    (hempty : s.work.Holds c.block []) (hne : c.block ≠ s.entry)
    (hexec : exec x { s with cursor := c } = (.ok a, u)) (hsettled : u.Settled S) :
    ∃ code e', exec y.run e.reopened = (.ok (a, code), e') ∧ u.Twin e' ∧
      ∀ {env v f}, u.work.Before v → v.Built f → Realizes env f (f.start c.block) code 0
        (GenState.goals { s with cursor := c } f (u.At v)) := by
  obtain ⟨hgrows, -, -⟩ := hx.tame.run hexec hs trivial hsettled
  obtain ⟨code, e', hrun, htwin', hlowers⟩ := hx.lowers hexec hs hsettled (.opened hkin hc)
  refine ⟨code, e', hrun, htwin', fun hv hf => hlowers.realizes hv hf ⟨hc, rfl, ?_⟩⟩
  exact Work.rest_of_empty hempty hne (hgrows.evolves.before.trans hv) hf

section Cond

variable {exit : BlockId} {arm : BlockHandle}

theorem inBlock_lowers {x : Gen Unit} {y : Outline Unit} {label : String}
    (hx : Sim S x y fun _ => True) (hs : s.Scoped S) (htwin : s.Twin e)
    (hexec : exec (inBlock label x) s = (.ok arm, t)) (hsettled : t.Settled S) :
    ∃ (u : GenState) (code : List Code) (e' : GenState),
      arm = u.cursor.handle ∧ t = { u with cursor := s.cursor } ∧ u.Ready S ∧
      exec (Outline.inside y).run e = (.ok (code, []), e') ∧ t.Twin e' ∧
      ∀ {env v f}, t.work.Before v → v.Built f →
        Realizes env f (f.start arm.start) code 0 (s.goals f (u.At v)) := by
  have hstart := (inBlock_built hx.tame hs hexec hsettled).start
  obtain ⟨u, hu, rfl, rfl⟩ := exec_inBlock.1 hexec
  have hkin : (s.grow label).Kin e := { htwin with }
  obtain ⟨code, e', hrun, htwin', hreal⟩ := hx.fills (hs.intoNew label) rfl hkin
    (Work.holds_grow_new hs.sane) (Ne.symm hs.sane.entry_ne_nextBlock) hu hsettled
  obtain ⟨-, hu', -⟩ := hx.tame.run hu (hs.intoNew label) trivial hsettled
  refine ⟨u, code, _, rfl, rfl, hu', exec_inside hrun, htwin.back htwin', ?_⟩
  rw [hstart]
  exact hreal

section Joined

variable (hgrow : Work.Evolves (fun _ => False) u.work s.work)
  (hjoin : exec (joinArm u.cursor.handle exit) s = (.ok (), t))

include hgrow hjoin

theorem joined_before (hu : u.Ready S) : s.work.Before t.work := by
  obtain ⟨-, rfl⟩ | ⟨-, hunfinished, -, rfl⟩ := exec_joinArm hjoin
  . exact .refl _
  . obtain ⟨body, hbody, hends⟩ := hu.opened hunfinished
    have hopen : s.work.Open u.cursor.block := ⟨body, hgrow.kept hbody not_false, hends⟩
    exact (Work.close_evolves hopen).before

theorem joined_leads {q : Spot} (hempty : u.cursor.block = exit → u.work.Holds exit [])
    (hne : exit ≠ u.entry) (hv : t.work.Before v) (hf : v.Built f) (hq : u.At v q) :
    Leads env f 0 q (f.start exit) := by
  obtain ⟨hskip, rfl⟩ | ⟨-, -, hi, rfl⟩ := exec_joinArm hjoin
  . rcases hskip with heq | hfinished
    . -- the arm has become the exit itself, where nothing stands yet
      have hblock : q.block = exit := hq.block.trans heq
      rw [← hblock] at hempty hne ⊢
      rw [← hq.rest.start (hempty (heq.trans hblock.symm)) hne (hgrow.before.trans hv) hf]
      exact .refl env f q
    . exact absurd (hq.opened.symm.trans hfinished) (by simp)
  . obtain ⟨body, hbody, -⟩ := hq.rest
    have hclosed : (s.terminate u.cursor.block (.branch exit)).work.Holds q.block
        (body ++ [.branch exit]) := by
      rw [hq.block] at hbody ⊢
      exact (hgrow.kept hbody not_false).close
    have hrest := hq.rest.close hbody hclosed hi.1 hv
    obtain ⟨block, _⟩ := q
    cases hrest
    exact leads_branch.mono (Nat.zero_le 1)

end Joined

theorem twin_joined (htwin : s.Twin e) (hjoin : exec (joinArm arm exit) s = (.ok (), t)) :
    t.Twin e := by
  obtain ⟨-, rfl⟩ | ⟨-, -, -, rfl⟩ := exec_joinArm hjoin
  . exact htwin
  . exact { htwin with }

theorem kin_moved {after : BlockId} (hkin : s.Kin e)
    (hmove : exec (moveBehind exit after) s = (.ok (), t)) : t.Kin e := by
  obtain rfl | ⟨g, hg, rfl⟩ := exec_moveBehind hmove
  . exact hkin
  . have hstatic := Function.moveAfter_static hg
    exact { hkin with
      nextTemp := by rw [hstatic]; exact hkin.nextTemp
      params := by rw [hstatic]; exact hkin.params }

theorem holds_condExit (hs : s.Scoped S) (hne : exit ≠ s.entry)
    (hexit : exec (condExit none true arm) s = (.ok exit, t)) : t.work.Holds exit [] := by
  obtain ⟨⟨⟩, -⟩ | ⟨-, -, -, -, hempty, rfl⟩ | ⟨-, rfl, rfl⟩ := exec_condExit hexit
  . exact Work.holds_of_ne hne hempty
  . exact Work.holds_grow_new hs.sane

section Arms

variable {s₁ s₂ s₃ s₄ s₅ : GenState} {other : Option BlockHandle}

theorem firstArm_lowers {x : Gen Unit} {y : Outline Unit} (hx : Sim S x y fun _ => True)
    (hs : s₁.Scoped S) (htwin : s₁.Twin e) (harm : exec (inBlock "then" x) s₁ = (.ok arm, s₂))
    (hexit : exec (condExit none true arm) s₂ = (.ok exit, s₃))
    (hjoin : exec (joinArm arm exit) s₃ = (.ok (), s₄)) (hne : exit ≠ s₁.entry)
    (hsettled : s₄.Settled S) :
    ∃ code e', exec (Outline.inside y).run e = (.ok (code, []), e') ∧ s₄.Twin e' ∧
      ∀ {env v f}, s₄.work.Before v → v.Built f →
        Realizes env f (f.start arm.start) code 0 (s₁.goals f (· = f.start exit)) := by
  have hsettled₂ := (hsettled.of_subset ((joinArm_traced _ _).of_exec hjoin)).of_subset
    ((condExit_traced _ _ _).of_exec hexit)
  obtain ⟨u, code, e', rfl, rfl, hu, hrun, htwin', hreal⟩ := inBlock_lowers hx hs htwin harm hsettled₂
  have hbuilt := inBlock_built hx.tame hs harm hsettled₂
  have hentry : u.entry = s₁.entry := hbuilt.beside.evolves.entry
  rw [← hentry] at hne
  have hgrow : Work.Evolves (fun _ => False) u.work s₃.work := by
    obtain ⟨⟨⟩, -⟩ | ⟨-, -, -, -, -, rfl⟩ | ⟨-, -, rfl⟩ := exec_condExit hexit
    . exact .refl _
    . exact Work.grow_evolves hu.sane _
  have hempty : u.cursor.block = exit → u.work.Holds exit [] := by
    intro heq
    obtain ⟨⟨⟩, -⟩ | ⟨-, -, -, -, hcode, rfl⟩ | ⟨-, rfl, rfl⟩ := exec_condExit hexit
    . exact Work.holds_of_ne hne hcode
    . exact absurd hu.sane.distinct.code?_nextBlock (heq ▸ hu.present)
  have htwin₃ : s₃.Twin e' := by
    obtain ⟨⟨⟩, -⟩ | ⟨-, -, -, -, -, rfl⟩ | ⟨-, -, rfl⟩ := exec_condExit hexit
    . exact htwin'
    . exact { htwin' with }
  refine ⟨code, e', hrun, twin_joined htwin₃ hjoin, fun hv hf => ?_⟩
  have hv' := (hgrow.before.trans (joined_before hgrow hjoin hu)).trans hv
  exact (hreal hv' hf).leading fun hq => joined_leads hgrow hjoin hempty hne hv hf hq

theorem otherArm_lowers {y : Option (Gen Unit)} {z : Option (Outline Unit)}
    (hy : Option.Rel (fun y z => Sim S y z fun _ => True) y z) (hs : s₄.Scoped S)
    (htwin : s₄.Twin e) (hexit : s₄.work.Target exit) (hother : OtherArm exit s₄ s₅ other y)
    (hsettled : s₅.Settled S) :
    ∃ code e', exec (Outline.part z).run e = (.ok (code, []), e') ∧ s₅.Twin e' ∧
      ∀ {env v f}, s₅.work.Before v → v.Built f →
        Realizes env f (f.start (other.elim exit BlockHandle.start)) code 0
          (s₄.goals f (· = f.start exit)) := by
  cases hy with
  | none =>
    obtain ⟨rfl, rfl⟩ := hother
    exact ⟨[], e, rfl, htwin, fun _ _ => .nil _ _ _⟩
  | some hy =>
    obtain ⟨arm, t, harm, hjoin, rfl⟩ := hother
    have hsettled' := hsettled.of_subset ((joinArm_traced _ _).of_exec hjoin)
    have hbuilt := inBlock_built hy.tame hs harm hsettled'
    obtain ⟨u, code, e', rfl, rfl, hu, hrun, htwin', hreal⟩ :=
      inBlock_lowers hy hs htwin harm hsettled'
    have hentry : u.entry = s₄.entry := hbuilt.beside.evolves.entry
    have hne : u.cursor.block ≠ exit := fun heq => hexit.1 (heq ▸ hbuilt.fresh)
    have hgrow : Work.Evolves (fun _ => False) u.work
        (GenState.work { u with cursor := s₄.cursor }) := .refl _
    refine ⟨code, e', hrun, twin_joined htwin' hjoin, fun hv hf => ?_⟩
    have hv' := (joined_before hgrow hjoin hu).trans hv
    exact (hreal hv' hf).leading fun hq =>
      joined_leads hgrow hjoin (fun heq => absurd heq hne) (hentry ▸ hexit.2) hv hf hq

end Arms

theorem exit_stays_empty {s₁ s₂ s₃ s₄ s₅ s₆ : GenState} (hs₂ : s₂.Scoped S)
    (hexit : exec (condExit none true arm) s₂ = (.ok exit, s₃))
    (hjoin : exec (joinArm arm exit) s₃ = (.ok (), s₄)) (hne : exit ≠ s₂.entry)
    (hbuilt : CondBuilt S none exit s₁ s₄ s₅ s₆) : s₆.work.Holds exit [] := by
  have hempty₃ := holds_condExit hs₂ hne hexit
  have hempty₄ : s₄.work.Holds exit [] := by
    obtain ⟨-, rfl⟩ | ⟨hcurrent, -, -, rfl⟩ := exec_joinArm hjoin
    . exact hempty₃
    . exact (Work.holds_close_of_ne (Ne.symm hcurrent)).2 hempty₃
  exact hbuilt.moved.evolves.kept (hbuilt.second.evolves.kept hempty₄ id) id

theorem arms_lowers {x : Gen Unit} {y : Option (Gen Unit)} {x' : Outline Unit}
    {y' : Option (Outline Unit)} {s₁ s₂ s₃ s₄ s₅ s₆ : GenState} {other : Option BlockHandle}
    {after : BlockId} (hx : Sim S x x' fun _ => True)
    (hy : Option.Rel (fun y y' => Sim S y y' fun _ => True) y y') (hs : s₁.Scoped S)
    (htwin : s₁.Twin e) (hbuilt : CondBuilt S none exit s₁ s₄ s₅ s₆)
    (harm : exec (inBlock "then" x) s₁ = (.ok arm, s₂))
    (hexit : exec (condExit none true arm) s₂ = (.ok exit, s₃))
    (hjoin : exec (joinArm arm exit) s₃ = (.ok (), s₄)) (hother : OtherArm exit s₄ s₅ other y)
    (hmove : exec (moveBehind exit after) s₅ = (.ok (), s₆)) (hsettled₄ : s₄.Settled S)
    (hsettled₅ : s₅.Settled S) :
    ∃ code code' e' e'', exec (Outline.inside x').run e = (.ok (code, []), e') ∧
      exec (Outline.part y').run e' = (.ok (code', []), e'') ∧ s₆.Kin e'' ∧
      e''.cursor.finished = s₁.cursor.finished ∧
      ∀ {env v f}, s₆.work.Before v → v.Built f →
        Realizes env f (f.start arm.start) code 0 (s₁.goals f (· = f.start exit)) ∧
        Realizes env f (f.start (other.elim exit BlockHandle.start)) code' 0
          (s₁.goals f (· = f.start exit)) := by
  have hentry : s₄.entry = s₁.entry := hbuilt.first.evolves.entry
  have hne : exit ≠ s₁.entry := hentry ▸ hbuilt.target.2
  obtain ⟨code, e', hrun, htwin₄, hreal⟩ :=
    firstArm_lowers hx hs htwin harm hexit hjoin hne hsettled₄
  obtain ⟨code', e'', hrun', htwin₅, hreal'⟩ :=
    otherArm_lowers hy hbuilt.first.scope htwin₄ hbuilt.target hother hsettled₅
  refine ⟨code, code', e', e'', hrun, hrun', kin_moved htwin₅.toKin hmove, ?_, fun hv hf => ⟨?_, ?_⟩⟩
  . rw [htwin₅.finished, hbuilt.second.cursor, hbuilt.first.cursor]
  . exact hreal ((hbuilt.second.evolves.before.trans hbuilt.moved.evolves.before).trans hv) hf
  . -- the cursor is the same as before the first side, so loops around are left for the same blocks
    have hgoals : s₄.goals = s₁.goals := by
      unfold GenState.goals
      rw [hbuilt.first.cursor]
    rw [← hgoals]
    exact hreal' (hbuilt.moved.evolves.before.trans hv) hf

theorem cond_sim {x : Gen Unit} {y : Option (Gen Unit)} {x' : Outline Unit}
    {y' : Option (Outline Unit)} (hx : Sim S x x' fun _ => True)
    (hy : Option.Rel (fun y y' => Sim S y y' fun _ => True) y y') (condition : Operand) :
    Sim S (cond condition (.body x) (y.map .body) none) (Outline.cond condition x' y')
      fun _ => True := by
  have hytame (z : Gen Unit) (hz : y = some z) : Tame S (fun _ => True) z fun _ _ => True := by
    cases hy with
    | none => cases hz
    | some hy =>
      cases hz
      exact hy.tame
  refine ⟨(cond_tame hx.tame hytame condition none).weaken (by simp) fun _ _ => id, ?_⟩
  intro s _ t e hexec hs hsettled htwin
  obtain ⟨hopen, c, s₁, arm, s₂, exit, s₃, s₄, other, s₅, s₆, hc, harm, hexit, hjoin, hother, hmove,
    hi, rfl⟩ := exec_cond hexec
  obtain ⟨is, n, m, hext, rfl, halike⟩ := (Straight.convert _ _).exec_ok hc
  obtain ⟨e₁, hrun₁, htwin₁, hlowered₁⟩ := extend_lowers hs htwin hext halike
  have hs₁ := hlowered₁.ready.toScoped
  have hbuilt := condBuilt hx.tame hytame hs₁ (by simp) harm hexit hjoin hother hmove hsettled
  obtain ⟨hsettled₂, hsettled₄, hsettled₅⟩ := settled_cond hytame hexit hjoin hother hmove hsettled
  obtain ⟨code, code', e₂, e₃, hrun₂, hrun₃, hkin, hfinished, hreal⟩ :=
    arms_lowers hx hy hs₁ htwin₁ hbuilt harm hexit hjoin hother hmove hsettled₄ hsettled₅
  have hbeside := (hbuilt.first.trans hbuilt.second (by simp)).trans hbuilt.moved (by simp)
  -- generation goes on in the exit, which has to be empty until then
  have harmBuilt := inBlock_built hx.tame hs₁ harm hsettled₂
  have hentry₂ : s₂.entry = (s.extend is n m).entry := harmBuilt.beside.evolves.entry
  have hentry₄ : s₄.entry = (s.extend is n m).entry := hbuilt.first.evolves.entry
  have hne : exit ≠ s₂.entry := hentry₂ ▸ hentry₄ ▸ hbuilt.target.2
  have hempty := exit_stays_empty harmBuilt.scoped hexit hjoin hne hbuilt
  have htarget := (hbuilt.target.evolve hbuilt.first.scope.sane hbuilt.second.evolves).evolve
    hbuilt.second.scope.sane hbuilt.moved.evolves
  have hlowers : (s.extend is n m).Lowers [.cond c code code'] ((s₆.terminate s₆.cursor.block
      (.branchIf c arm.start (other.elim exit BlockHandle.start))).goOn exit false) :=
    .cond hlowered₁.ready hopen hbeside.evolves hbeside.cursor hi hempty htarget
      (fun heq => hs₁.present (heq ▸ hbuilt.fresh rfl)) (fun hv hf => (hreal hv hf).1)
      fun hv hf => (hreal hv hf).2
  refine ⟨[] ++ (is.map .plain ++ ([] ++ ([] ++ [.cond c code code']))), e₃, ?_,
    { hkin with finished := hfinished.trans hopen }, ?_⟩
  . have hrun : exec (straight requireOpen).run e = (.ok ((), []), e) :=
      exec_straight (exec_requireOpen.2 ⟨htwin.finished.trans hopen, rfl⟩)
    refine Outline.exec_bind hrun (Outline.exec_bind hrun₁ ?_)
    exact Outline.exec_bind hrun₂ (Outline.exec_bind hrun₃ rfl)
  . refine hlowered₁.lowers.trans hlowers hlowered₁.grows ?_
    have hblock : s₆.work.Open s₆.cursor.block := by
      rw [hbuilt.opens, hbeside.cursor]
      exact .inl (hlowered₁.ready.opened hopen)
    exact hbeside.evolves.before.trans (Work.close_evolves hblock).before

end Cond

section Loop

variable {next exit block target : BlockId}

theorem branch_leads {q : Spot} (hs : s.Ready S) (hexec : exec (branch target) s = (.ok (), t))
    (hv : t.work.Before v) (hq : s.At v q) : Leads env f 1 q (f.start target) := by
  obtain ⟨hfinished, rfl⟩ | ⟨-, hi, rfl⟩ := exec_branch hexec
  . exact absurd (hq.opened.symm.trans hfinished) (by simp)
  . rw [hq.closed (w := (s.close _).work) hs (fun h => h.close) hi.1 hv]
    exact leads_branch

def Parted (y : Outline (List Code)) (e t : GenState) (P : Env → Function → List Code → Prop) : Prop :=
  ∃ code e', exec y.run e = (.ok (code, []), e') ∧ e'.cursor = e.cursor ∧ t.Kin e' ∧
    ∀ {env v f}, t.work.Before v → v.Built f → P env f code

theorem parted_none (hkin : s.Kin e) : Parted (Outline.part none) e s fun _ _ code => code = [] :=
  ⟨[], e, rfl, rfl, hkin, fun _ _ => rfl⟩

/--
Code that goes from the start of a block to the start of another, and round the loop or out of it.
-/
def Circles (env : Env) (f : Function) (next exit block target : BlockId) (code : List Code) : Prop :=
  Realizes env f (f.start block) code 1
    ⟨(· = f.start target), (· = f.start exit), (· = f.start next)⟩

section Parts

variable (hs : s.Scoped S) (hkin : s.Kin e) (hnext : s.work.Target next)
  (hexit : s.work.Target exit) (hempty : s.work.Holds block []) (hne : block ≠ s.entry)
  (hsettled : u.Settled S)

include hs hkin hnext hexit hempty hne hsettled

theorem Sim.fills_inside {x : Gen α} {y : Outline α} {a : α} (hx : Sim S x y A)
    (hexec : exec x (s.inside next exit block) = (.ok a, u)) :
    ∃ code e', exec y.run e.reopened = (.ok (a, code), e') ∧ u.Twin e' ∧ u.Ready S ∧
      ∀ {env v f}, u.work.Before v → v.Built f → Realizes env f (f.start block) code 0
        ⟨u.At v, (· = f.start exit), (· = f.start next)⟩ := by
  have hready := hs.inside hnext hexit ⟨[], hempty, rfl⟩
  obtain ⟨code, e', hrun, htwin, hreal⟩ := hx.fills hready rfl hkin hempty hne hexec hsettled
  obtain ⟨-, hu, -⟩ := hx.tame.run hexec hready trivial hsettled
  refine ⟨code, e', hrun, htwin, hu, fun hv hf => (hreal hv hf).mono (fun _ => id) ?_ ?_⟩
  . rintro _ ⟨_, ⟨⟩, rfl⟩
    rfl
  . rintro _ ⟨_, ⟨⟩, rfl⟩
    rfl

theorem part_parted {x : Gen Unit} {y : Outline Unit} (hx : Sim S x y fun _ => True)
    (hexec : exec (do x; branch target) (s.inside next exit block) = (.ok (), u)) :
    Parted (.inside y) e { u with cursor := s.cursor } fun env f code =>
      Circles env f next exit block target code := by
  obtain ⟨⟨⟩, u₁, hx₁, hbranch⟩ := exec_bind_ok.1 hexec
  have hbranching : Tame S (fun _ => True) (branch target) fun _ t => t.cursor.finished = true :=
    branch_tame target
  have hsettled₁ := hsettled.of_subset (hbranching.traced.of_exec hbranch)
  obtain ⟨code, e', hrun, htwin, hu₁, hreal⟩ :=
    hx.fills_inside hs hkin hnext hexit hempty hne hsettled₁ hx₁
  obtain ⟨hgrows, -, -⟩ := hbranching.run hbranch hu₁ trivial hsettled
  refine ⟨code, _, exec_inside hrun, rfl, ?_, ?_⟩
  . obtain ⟨-, rfl⟩ | ⟨-, -, rfl⟩ := exec_branch hbranch
    . exact { htwin with }
    . exact { htwin with }
  . intro env v f hv hf
    exact (hreal (hgrows.evolves.before.trans hv) hf).leading fun hq =>
      branch_leads hu₁ hbranch hv hq

theorem test_parted {run : List Value → Gen Operand} {run' : List Value → Outline Operand}
    {slots : List Outline.Slot} {body : BlockId}
    (hrun : ∀ vs, Sim S (run vs) (run' vs) fun _ => True)
    (hexec : exec (LoopParts.test run (slots.map Outline.Slot.value) body exit)
      (s.inside next exit block) = (.ok (), u)) :
    Parted (.inside (Outline.LoopParts.test run' slots)) e { u with cursor := s.cursor }
      fun env f code => Circles env f next exit block body code := by
  have hx : Sim S (do convertTo .i1 (← run (← loadAll (slots.map Outline.Slot.value))))
      (Outline.LoopParts.condition run' slots) fun _ => True :=
    (fetchAll_sim slots).bind fun vs => (hrun vs).bind fun o => (Straight.convert _ _).sim
  have hparts : LoopParts.test run (slots.map Outline.Slot.value) body exit = (do
      let c ← (do convertTo .i1 (← run (← loadAll (slots.map Outline.Slot.value))))
      let _ ← emit (.branchIf c body exit)
      finish) := by
    simp [LoopParts.test]
  rw [hparts] at hexec
  obtain ⟨c, u₁, hx₁, hclose⟩ := exec_bind_ok.1 hexec
  have hclosing : Tame S (fun _ => True) (do let _ ← emit (.branchIf c body exit); finish)
      fun _ t => t.cursor.finished = true := close_tame rfl
  have hsettled₁ := hsettled.of_subset (hclosing.traced.of_exec hclose)
  obtain ⟨code, e', hcode, htwin, hu₁, hreal⟩ :=
    hx.fills_inside hs hkin hnext hexit hempty hne hsettled₁ hx₁
  obtain ⟨hgrows, -, -⟩ := hclosing.run hclose hu₁ trivial hsettled
  obtain ⟨-, hi, rfl⟩ := exec_close rfl hclose
  refine ⟨code ++ [.cond c [] [.leave]], { e' with cursor := e.cursor },
    exec_inside (Outline.exec_bind hcode rfl), rfl, { htwin with }, ?_⟩
  intro env v f hv hf
  refine Realizes.append (m := 1) (hreal (hgrows.evolves.before.trans hv) hf) ?_ (Nat.le_refl 1)
  intro q hq
  rw [hq.closed (w := (u₁.close _).work) hu₁ (fun h => h.close) hi.1 hv]
  exact .guard

end Parts

section Realized

variable {header body increment : BlockId}

theorem Circles.realizes {used : Bool} {code : List Code}
    (h : if used then Circles env f next exit block target code else code = [])
    (heq : used = false → block = target) :
    Realizes env f (f.start block) code used.toNat
      ⟨(· = f.start target), (· = f.start exit), (· = f.start next)⟩ := by
  cases used with
  | true => exact h
  | false =>
    -- a part that is left out has no block of its own
    cases h
    rw [heq rfl]
    exact .nil env f _

theorem LoopParts.Laid.realizes {parts : LoopParts} {test turn step : List Code} {L A : Spot → Prop}
    (hlaid : parts.Laid S s t header body increment exit)
    (hparts : (parts.compare.isSome || parts.body.isSome || parts.increment.isSome) = true)
    (hturn : if parts.body.isSome || parts.compare.isSome then
      Circles env f increment exit body increment turn else turn = [])
    (htest : if parts.compare.isSome then Circles env f increment exit header body test else test = [])
    (hstep : if parts.increment.isSome then Circles env f increment exit increment header step
      else step = []) :
    Realizes env f (f.start header) [.loop (test ++ turn) step] 0 ⟨(· = f.start exit), L, A⟩ := by
  have htest' := Circles.realizes htest fun h => (hlaid.body_eq h).symm
  have hturn' := Circles.realizes hturn fun h => by
    rw [Bool.or_eq_false_iff] at h
    rw [hlaid.body_eq h.2, hlaid.increment_eq (by simp [needsIncrement, h])]
  have hstep' := Circles.realizes hstep fun h => hlaid.increment_eq (by simp [needsIncrement, h])
  have hround : Realizes env f (f.start header) (test ++ turn)
      (min 1 (parts.compare.isSome.toNat + (parts.body.isSome || parts.compare.isSome).toNat))
      ⟨(· = f.start increment), (· = f.start exit), (· = f.start increment)⟩ := by
    refine Realizes.append htest' ?_ (Nat.min_le_right _ _)
    rintro _ rfl
    exact hturn'
  -- every part takes at least one step, and there is one of them
  refine .loop hround hstep' (Nat.min_le_left _ _) ?_
  revert hparts
  cases parts.compare <;> cases parts.body <;> cases parts.increment <;> simp

theorem loopHeader_leads {p : Spot} (hs : s.Ready S) (hopen : s.cursor.finished = false)
    (hexec : exec loopHeader s = (.ok header, t)) (hv : t.work.Before v) (hf : v.Built f)
    (hp : s.At v p) : Leads env f 0 p (f.start header) := by
  obtain ⟨rfl, hne, hempty, rfl⟩ | ⟨rfl, hi, rfl⟩ := exec_loopHeader hopen hexec
  . -- an empty block is its own header, so that there is nothing to run
    have hblock := hp.block
    rw [← hblock] at hne hempty ⊢
    rw [← hp.rest.start (Work.holds_of_ne hne hempty) hne hv hf]
    exact .refl env f p
  . have hne : s.cursor.block ≠ s.function.nextBlock :=
      fun heq => hs.present (heq ▸ hs.sane.distinct.code?_nextBlock)
    rw [hp.closed (w := ((s.grow "loop").close _).work) hs (fun h => ?_) hi.1 hv]
    . exact leads_branch.mono (Nat.zero_le 1)
    . exact ((Work.holds_grow hs.sane hne).2 h).close

theorem kin_laid {parts : LoopParts} {s₁ s₂ s₃ s₄ s₅ : GenState} (hopen : s₁.cursor.finished = false)
    (hkin : s₁.Kin e) (hheader : exec loopHeader s₁ = (.ok header, s₂))
    (hbody : exec (orNewBlock parts.compare.isSome "body" header) s₂ = (.ok body, s₃))
    (hincrement : exec (orNewBlock parts.needsIncrement "increment" header) s₃ = (.ok increment, s₄))
    (hexit : exec parts.leave s₄ = (.ok exit, s₅)) : s₅.Kin e := by
  have hkin₂ : s₂.Kin e := by
    obtain ⟨-, -, -, rfl⟩ | ⟨-, -, rfl⟩ := exec_loopHeader hopen hheader
    . exact hkin
    . exact { hkin with }
  have hkin₃ : s₃.Kin e := by
    obtain ⟨-, -, rfl⟩ | ⟨-, -, rfl⟩ := exec_orNewBlock hbody
    . exact { hkin₂ with }
    . exact hkin₂
  have hkin₄ : s₄.Kin e := by
    obtain ⟨-, -, rfl⟩ | ⟨-, -, rfl⟩ := exec_orNewBlock hincrement
    . exact { hkin₃ with }
    . exact hkin₃
  obtain ⟨-, rfl⟩ | ⟨-, -, rfl⟩ := LoopParts.exec_leave hexit
  . exact hkin₄
  . exact { hkin₄ with }

theorem orNewBlock_beside {needed : Bool} {label : String} {id : BlockId} (hs : s.Scoped S)
    (hexec : exec (orNewBlock needed label block) s = (.ok id, t)) :
    s.Beside S (fun _ => False) t := by
  obtain ⟨-, -, rfl⟩ | ⟨-, -, rfl⟩ := exec_orNewBlock hexec
  . exact (newBlock_chosen hs label block).beside
  . exact .refl hs

theorem laid_before {parts : LoopParts} {s₂ s₃ s₄ s₅ : GenState} (hs : s₂.Scoped S)
    (hbody : exec (orNewBlock parts.compare.isSome "body" header) s₂ = (.ok body, s₃))
    (hincrement : exec (orNewBlock parts.needsIncrement "increment" header) s₃ = (.ok increment, s₄))
    (hexit : exec parts.leave s₄ = (.ok exit, s₅)) : s₂.work.Before s₅.work := by
  have hbody := orNewBlock_beside hs hbody
  have hincrement := orNewBlock_beside hbody.scope hincrement
  refine (hbody.evolves.before.trans hincrement.evolves.before).trans ?_
  obtain ⟨-, rfl⟩ | ⟨-, -, rfl⟩ := LoopParts.exec_leave hexit
  . exact .refl _
  . exact (newBlock_chosen hincrement.scope "break" 0).beside.evolves.before

end Realized

structure LoopParts.Sims (S : Scope) (parts : LoopParts) (parts' : Outline.LoopParts) : Prop where
  vars : parts'.vars = parts.vars
  compare : Option.Rel (fun x y => ∀ vs, Sim S (x vs) (y vs) fun _ => True) parts.compare parts'.compare
  body : Option.Rel (fun x y => ∀ vs, Sim S (x vs) (y vs) fun _ => True) parts.body parts'.body
  increment :
    Option.Rel (fun x y => ∀ vs, Sim S (x vs) (y vs) fun _ => True) parts.increment parts'.increment
  exit : parts.exit = none

theorem tame_of_rel {x : Option (List Value → Gen α)} {y : Option (List Value → Outline α)}
    {run : List Value → Gen α}
    (h : Option.Rel (fun x y => ∀ vs, Sim S (x vs) (y vs) fun _ => True) x y) (hrun : x = some run)
    (vs : List Value) : Tame S (fun _ => True) (run vs) fun _ _ => True := by
  cases h with
  | none => cases hrun
  | some h =>
    cases hrun
    exact (h vs).tame

theorem LoopParts.Sims.tame {parts : LoopParts} {parts' : Outline.LoopParts}
    (h : parts.Sims S parts') : parts.Tame S :=
  ⟨tame_of_rel h.compare, tame_of_rel h.body, tame_of_rel h.increment⟩

section Stages

variable {parts : LoopParts} {parts' : Outline.LoopParts} {slots : List Outline.Slot}
  {header body increment last last' : BlockId} (h : parts.Sims S parts') (hs : s.Scoped S)
  (hkin : s.Kin e) (hincrement : s.work.Target increment) (hexit : s.work.Target exit)
  (hsettled : t.Settled S)

include h hs hkin hincrement hexit hsettled

theorem bodyPart_parted (hempty : s.work.Holds body []) (hne : body ≠ s.entry)
    (hexec : exec (parts.bodyPart (slots.map Outline.Slot.value) header body increment exit) s =
      (.ok last, t)) :
    Parted (.part (parts'.body.map (Outline.LoopParts.turn · slots))) e t fun env f code =>
      if parts.body.isSome || parts.compare.isSome then
        Circles env f increment exit body increment code else code = [] := by
  have hrel := h.body
  obtain ⟨hused, u, hu, rfl⟩ | ⟨hused, rfl⟩ := LoopParts.exec_bodyPart hexec
  . simp only [hused, if_true]
    unfold LoopParts.turn at hu
    generalize parts.body = x, parts'.body = y at hrel hu
    cases hrel with
    | none =>
      -- a loop with a condition only still has a block that leads back to it
      have hpure : Sim S (pure ()) (pure ()) fun _ => True := .pure trivial
      exact part_parted (u := u) hs hkin hincrement hexit hempty hne hsettled hpure hu
    | some hrun =>
      refine part_parted (u := u) hs hkin hincrement hexit hempty hne hsettled
        ((fetchAll_sim slots).bind hrun) ?_
      rw [bind_assoc]
      exact hu
  . simp only [hused]
    generalize parts.body = x, parts'.body = y at hrel hused
    cases hrel with
    | none => exact parted_none hkin
    | some => simp at hused

theorem testPart_parted (hempty : parts.compare.isSome = true → s.work.Holds header [])
    (hne : header ≠ s.entry)
    (hexec : exec (parts.testPart (slots.map Outline.Slot.value) header body increment exit last) s =
      (.ok last', t)) :
    Parted (.part (parts'.compare.map (Outline.LoopParts.test · slots))) e t fun env f code =>
      if parts.compare.isSome then Circles env f increment exit header body code else code = [] := by
  have hrel := h.compare
  obtain ⟨run, hrun, u, hu, rfl⟩ | ⟨hnone, rfl⟩ := LoopParts.exec_testPart hexec
  . rw [hrun] at hrel hempty ⊢
    generalize parts'.compare = y at hrel
    cases hrel with
    | some hrun =>
      exact test_parted (u := u) hs hkin hincrement hexit (hempty rfl) hne hsettled hrun hu
  . rw [hnone] at hrel ⊢
    generalize parts'.compare = y at hrel
    cases hrel with
    | none => exact parted_none hkin

theorem incrementPart_parted (hempty : parts.increment.isSome = true → s.work.Holds increment [])
    (hexec : exec (parts.incrementPart (slots.map Outline.Slot.value) header increment exit last) s =
      (.ok last', t)) :
    Parted (.part (parts'.increment.map (· (slots.map Outline.Slot.value)))) e t fun env f code =>
      if parts.increment.isSome then Circles env f increment exit increment header code
      else code = [] := by
  have hrel := h.increment
  obtain ⟨run, hrun, u, hu, rfl⟩ | ⟨hnone, rfl⟩ := LoopParts.exec_incrementPart hexec
  . rw [hrun] at hrel hempty ⊢
    generalize parts'.increment = y at hrel
    cases hrel with
    | some hrun =>
      exact part_parted (u := u) hs hkin hincrement hexit (hempty rfl) hincrement.2 hsettled
        (hrun _) hu
  . rw [hnone] at hrel ⊢
    generalize parts'.increment = y at hrel
    cases hrel with
    | none => exact parted_none hkin

end Stages

theorem Filled.kept {used : Bool} {id : BlockId} (h : Filled S used block s t)
    (hid : s.work.Holds id []) (hne : used = true → id ≠ block) : t.work.Holds id [] :=
  h.beside.evolves.kept hid fun hin => hne hin.1 hin.2

section Done

variable {parts : LoopParts} {s₁ s₅ s₆ s₇ s₈ s₉ : GenState} {header body increment : BlockId}
  (hdone : parts.Done S s₁ s₅ s₆ s₇ s₈ s₉ header body increment exit)

include hdone

theorem LoopParts.Done.header_empty (hcompare : parts.compare.isSome = true) :
    s₆.work.Holds header [] :=
  hdone.body.kept (hdone.laid.empty _ (.inl (.inl rfl))) fun _ => (hdone.laid.body_ne hcompare).symm

theorem LoopParts.Done.increment_empty (hsome : parts.increment.isSome = true) :
    s₇.work.Holds increment [] := by
  refine hdone.test.kept (hdone.body.kept (hdone.laid.empty _ (.inl (.inr (.inr rfl)))) ?_) ?_
  . intro hused
    rw [Bool.or_comm] at hused
    exact (hdone.laid.increment_ne (by simp [needsIncrement, hsome, hused])).2
  . intro hused
    exact (hdone.laid.increment_ne (by simp [needsIncrement, hsome, hused])).1

theorem LoopParts.Done.exit_empty (hnone : parts.exit = none) : s₉.work.Holds exit [] := by
  obtain ⟨hheader, hbody, hincrement⟩ := hdone.laid.exit_ne hnone
  have hexit₆ := hdone.body.kept (hdone.laid.empty _ (.inr ⟨hnone, rfl⟩)) fun _ => hbody
  have hexit₈ := hdone.increment.kept (hdone.test.kept hexit₆ fun _ => hheader) fun _ => hincrement
  exact hdone.moved.evolves.kept hexit₈ not_false

theorem LoopParts.Done.before : s₅.work.Before s₉.work := by
  have hbefore₇ := hdone.increment.beside.evolves.before.trans hdone.moved.evolves.before
  exact hdone.body.beside.evolves.before.trans (hdone.test.beside.evolves.before.trans hbefore₇)

theorem LoopParts.Done.target_exit : s₉.work.Target exit :=
  hdone.laid.target_exit.evolve hdone.laid.around.scope.sane hdone.before

end Done

theorem parts_lowers {parts : LoopParts} {parts' : Outline.LoopParts}
    {s₁ s₅ s₆ s₇ s₈ s₉ : GenState} {slots : List Outline.Slot}
    {header body increment last₆ last₇ last after : BlockId} (h : parts.Sims S parts')
    (hparts : (parts.compare.isSome || parts.body.isSome || parts.increment.isSome) = true)
    (hdone : parts.Done S s₁ s₅ s₆ s₇ s₈ s₉ header body increment exit) (hkin : s₅.Kin e)
    (h₆ : exec (parts.bodyPart (slots.map Outline.Slot.value) header body increment exit) s₅ =
      (.ok last₆, s₆))
    (h₇ : exec (parts.testPart (slots.map Outline.Slot.value) header body increment exit last₆) s₆ =
      (.ok last₇, s₇))
    (h₈ : exec (parts.incrementPart (slots.map Outline.Slot.value) header increment exit last₇) s₇ =
      (.ok last, s₈))
    (hmove : exec (moveBehind exit after) s₈ = (.ok (), s₉)) (hsettled : s₉.Settled S) :
    ∃ turn test step e₁ e₂ e₃,
      exec (Outline.part (parts'.body.map (Outline.LoopParts.turn · slots))).run e =
        (.ok (turn, []), e₁) ∧
      exec (Outline.part (parts'.compare.map (Outline.LoopParts.test · slots))).run e₁ =
        (.ok (test, []), e₂) ∧
      exec (Outline.part (parts'.increment.map (· (slots.map Outline.Slot.value)))).run e₂ =
        (.ok (step, []), e₃) ∧
      e₃.cursor = e.cursor ∧ s₉.Kin e₃ ∧
      ∀ {env v f} {L A : Spot → Prop}, s₉.work.Before v → v.Built f →
        Realizes env f (f.start header) [.loop (test ++ turn) step] 0 ⟨(· = f.start exit), L, A⟩ := by
  obtain ⟨hsettled₆, hsettled₇, hsettled₈⟩ := settled_loop h.tame h₇ h₈ hmove hsettled
  have hlaid := hdone.laid
  have hscope₅ := hlaid.around.scope
  have hscope₆ := hdone.body.beside.scope
  have hscope₇ := hdone.test.beside.scope
  have hincrement₆ := hdone.body.target hscope₅ hlaid.target_increment
  have hexit₆ := hdone.body.target hscope₅ hlaid.target_exit
  have hheader₆ := hdone.body.target hscope₅ hlaid.target_header
  have hincrement₇ := hdone.test.target hscope₆ hincrement₆
  have hexit₇ := hdone.test.target hscope₆ hexit₆
  have hempty : s₅.work.Holds body [] := hlaid.empty _ (.inl (.inr (.inl rfl)))
  obtain ⟨turn, e₁, hrun₁, hcursor₁, hkin₆, hturn⟩ := bodyPart_parted h hscope₅ hkin
    hlaid.target_increment hlaid.target_exit hsettled₆ hempty hlaid.target_body.2 h₆
  obtain ⟨test, e₂, hrun₂, hcursor₂, hkin₇, htest⟩ := testPart_parted h hscope₆ hkin₆ hincrement₆
    hexit₆ hsettled₇ hdone.header_empty hheader₆.2 h₇
  obtain ⟨step, e₃, hrun₃, hcursor₃, hkin₈, hstep⟩ := incrementPart_parted h hscope₇ hkin₇
    hincrement₇ hexit₇ hsettled₈ hdone.increment_empty h₈
  refine ⟨turn, test, step, e₁, e₂, e₃, hrun₁, hrun₂, hrun₃, ?_, kin_moved hkin₈ hmove, ?_⟩
  . rw [hcursor₃, hcursor₂, hcursor₁]
  . -- each part means the same in every state that comes after it
    intro env v f L A hv hf
    have hv₈ := hdone.moved.evolves.before.trans hv
    have hv₇ := hdone.increment.beside.evolves.before.trans hv₈
    have hv₆ := hdone.test.beside.evolves.before.trans hv₇
    exact hlaid.realizes hparts (hturn hv₆ hf) (htest hv₇ hf) (hstep hv₈ hf)

theorem loop_sim {parts : LoopParts} {parts' : Outline.LoopParts} (h : parts.Sims S parts') :
    Sim S (loop parts) (Outline.loop parts') fun _ => True := by
  refine ⟨(loop_tame h.tame).weaken (by simp [h.exit]) fun _ _ => id, ?_⟩
  intro s slots t e hexec hs hsettled htwin
  obtain ⟨hparts, hopen, s₁, header, s₂, body, s₃, increment, s₄, exit, s₅, last₆, s₆, last₇, s₇, last,
    s₈, s₉, hslots, hheader, hbody, hincrement, hexit, h₆, h₇, h₈, hmove, rfl⟩ :=
    LoopParts.exec_loop hexec
  have hopen₁ : s₁.cursor.finished = false := by
    obtain ⟨is, n, m, -, rfl, -⟩ := (Straight.mapM slot_straight _).exec_ok hslots
    exact hopen
  obtain ⟨slots, kept, e₁, rfl, hrun₁, htwin₁, hlowered₁⟩ := keepAll_lowers hs htwin hslots
  have hdone := loopDone h.tame hlowered₁.ready hopen₁ (by simp [h.exit]) hheader hbody hincrement
    hexit h₆ h₇ h₈ hmove hsettled
  have hkin₅ := kin_laid hopen₁ htwin₁.toKin hheader hbody hincrement hexit
  obtain ⟨turn, test, step, e₂, e₃, e₄, hrun₂, hrun₃, hrun₄, hcursor, hkin₉, hreal⟩ :=
    parts_lowers h hparts hdone hkin₅ h₆ h₇ h₈ hmove hsettled
  have hscope₂ := (loopHeader_around hlowered₁.ready hopen₁ hheader).1.scope
  have hbefore := (laid_before hscope₂ hbody hincrement hexit).trans hdone.before
  have htarget := hdone.target_exit
  rw [h.exit]
  have hlowers : s₁.Lowers [.loop (test ++ turn) step] (s₉.goOn exit false) := by
    refine ⟨fun hfinished => absurd (hopen₁.symm.trans hfinished) (by simp), ?_⟩
    intro env v f p hv hf hp
    have hheads : Leads env f 0 p (f.start header) :=
      loopHeader_leads hlowered₁.ready hopen₁ hheader (hbefore.trans hv) hf hp
    refine ((hreal hv hf).after hheads).mono ?_ (fun _ => id) fun _ => id
    rintro _ rfl
    exact ⟨rfl, rfl, Work.rest_of_empty (hdone.exit_empty h.exit) htarget.2 hv hf⟩
  refine ⟨[] ++ (kept ++ ([] ++ ([] ++ ([] ++ ([.loop (test ++ turn) step] ++ []))))), e₄,
    ?_, { hkin₉ with finished := ?_ }, ?_⟩
  . have hrun : exec (straight requireOpen).run e = (.ok ((), []), e) :=
      exec_straight (exec_requireOpen.2 ⟨htwin.finished.trans hopen, rfl⟩)
    rw [← h.vars] at hrun₁
    refine Outline.exec_bind hrun (Outline.exec_bind hrun₁ ?_)
    refine Outline.exec_bind hrun₂ (Outline.exec_bind hrun₃ (Outline.exec_bind hrun₄ ?_))
    exact Outline.exec_bind (x := Outline.tell _) rfl rfl
  . rw [hcursor]
    exact htwin₁.finished.trans hopen₁
  . exact hlowered₁.lowers.trans hlowers hlowered₁.grows hdone.around.evolves.before

end Loop

end Gen

end ScriptedIR
