import ScriptedIR.Proofs.Lowering

/-!
Returning. Blocks that return leave the value in the return slot and go to the shared return block,
where the outline has an answer; that the two agree rests on what was just stored.
-/

namespace ScriptedIR

def Work.home (w : Work) : Answer := w.returnSlot.elim .void .held

theorem Work.Sane.realizes_home {w v : Work} (hw : w.Sane) {block : BlockId}
    (hblock : w.returnBlock = some block) (hv : w.Before v) {f : Function} (hf : v.Built f)
    {env : Env} {n : Nat} {G : Goals} : Realizes env f (f.start block) [.ret w.home] n G := by
  unfold home
  cases hw.returning with
  | undecided hnone => simp [hnone] at hblock
  | void hsome hslot hne _ hholds =>
    cases hsome.symm.trans hblock
    rw [hf.start (hv.ended hholds rfl) (by rwa [hv.entry]), hslot]
    exact .ret_void
  | @value _ slot result hsome hslot hne _ hholds =>
    cases hsome.symm.trans hblock
    have hcode := hv.ended hholds rfl
    rw [hf.start hcode (by rwa [hv.entry]), hslot]
    apply Realizes.ret_held
    rw [hf.nextTemp]
    exact hf.sane.sound.temps hcode _ (List.mem_append_right _ List.mem_cons_self) result rfl

theorem Work.Sane.returnSlot_void {w : Work} (hw : w.Sane) (hvoid : w.returnType.isVoid = true) :
    w.returnSlot = none := by
  cases hw.returning with
  | undecided _ hslot | void _ hslot => exact hslot
  | value _ _ _ hne =>
    rw [hvoid] at hne
    cases hne

namespace Gen

open Outline (straight)

variable {S : Scope} {s t u : GenState} {e : GenState} {a : Operand} {block : BlockId}

section Slot

variable {e : GenState}

theorem exec_returnSlot_some {slot : Value} (h : e.returnSlot = some slot) :
    exec (straight Outline.returnSlot).run e = (.ok (some slot, []), e) := by
  apply exec_straight (t := e.blank)
  refine exec_bind_ok.2 ⟨_, _, rfl, ?_⟩
  rw [show e.blank.returnSlot = some slot from h]
  rfl

theorem exec_returnSlot_void (h : e.returnSlot = none) (hvoid : e.returnType.isVoid = true) :
    exec (straight Outline.returnSlot).run e = (.ok (none, []), e) := by
  apply exec_straight (t := e.blank)
  refine exec_bind_ok.2 ⟨_, _, rfl, ?_⟩
  rw [show e.blank.returnSlot = none from h]
  dsimp only
  rw [if_pos (show e.blank.returnType.isVoid from hvoid)]
  rfl

def slotted (e : GenState) : GenState :=
  { e with
    function := { e.function with nextTemp := e.function.nextTemp + 2 }
    returnSlot := some (.temp e.function.nextTemp (.pointer e.returnType)) }

theorem exec_returnSlot_new (h : e.returnSlot = none) (hvoid : e.returnType.isVoid = false) :
    exec (straight Outline.returnSlot).run e =
      (.ok ((slotted e).returnSlot, []), slotted e) := by
  apply exec_straight (t := (slotted e).blank)
  refine exec_bind_ok.2 ⟨_, _, rfl, ?_⟩
  rw [show e.blank.returnSlot = none from h]
  dsimp only
  rw [if_neg (show ¬ e.blank.returnType.isVoid from by simp [GenState.blank, hvoid])]
  rfl

end Slot

theorem returnBlock_lowers (hs : s.Ready S) (htwin : s.Twin e)
    (h : exec returnBlock s = (.ok block, t)) :
    t.returnBlock = some block ∧ s.Lowered S [] t ∧
      ∃ e', exec (straight Outline.returnSlot).run e = (.ok (t.returnSlot, []), e') ∧ t.Twin e' := by
  obtain ⟨hsome, rfl⟩ | ⟨hnone, rfl, rfl⟩ := exec_returnBlock h
  . refine ⟨hsome, .refl hs, e, ?_, htwin⟩
    cases hs.sane.returning with
    | undecided hnone => exact absurd (hnone.symm.trans hsome) (by simp)
    | void _ hslot _ hvoid =>
      rw [show t.returnSlot = none from hslot]
      exact exec_returnSlot_void (htwin.returnSlot.trans hslot) (htwin.returnType ▸ hvoid)
    | value _ hslot =>
      rw [show t.returnSlot = some _ from hslot]
      exact exec_returnSlot_some (htwin.returnSlot.trans hslot)
  . have hevolves : Work.Evolves (fun _ => False) s.work s.returned.work := by
      rw [s.work_returned]
      exact Work.returned_evolves hs.sane hnone _
    have hparams : s.returned.function.params = s.function.params := hevolves.params
    have hslot : e.returnSlot = none :=
      htwin.returnSlot.trans (Work.returnSlot_eq_none hs.sane hnone)
    refine ⟨rfl, ⟨(hs.returned hnone).1, (hs.returned hnone).2, .beside hevolves rfl⟩, ?_⟩
    cases hvoid : s.returnType.isVoid with
    | true =>
      have hreturned : s.returned.returnSlot = none := by
        simp [GenState.returned, Work.returned, GenState.work, hvoid]
      have hnext : s.returned.function.nextTemp = s.function.nextTemp := by
        simp only [GenState.returned, Work.returned, GenState.work, hvoid]
        rfl
      refine ⟨e, ?_, { htwin with
        nextTemp := htwin.nextTemp.trans hnext.symm
        params := htwin.params.trans hparams.symm
        returnSlot := hslot.trans hreturned.symm }⟩
      rw [hreturned]
      exact exec_returnSlot_void hslot (htwin.returnType ▸ hvoid)
    | false =>
      have hreturned : s.returned.returnSlot =
          some (.temp s.function.nextTemp (.pointer s.returnType)) := by
        simp [GenState.returned, Work.returned, GenState.work, hvoid]
      have hnext : s.returned.function.nextTemp = s.function.nextTemp + 2 := by
        simp only [GenState.returned, Work.returned, GenState.work, hvoid]
        rfl
      have hslotted : (slotted e).returnSlot = s.returned.returnSlot := by
        rw [hreturned, slotted, htwin.nextTemp, htwin.returnType]
      refine ⟨slotted e, ?_, { htwin with
        nextTemp := ?_
        params := htwin.params.trans hparams.symm
        returnSlot := hslotted }⟩
      . rw [← hslotted]
        exact exec_returnSlot_new hslot (htwin.returnType ▸ hvoid)
      . change e.function.nextTemp + 2 = _
        rw [hnext, htwin.nextTemp]

def Stands (code : List Code) (a home : Answer) : Prop :=
  ∀ {env fuel rest rest'},
    (∀ frame store, frame.answer env store a = frame.answer env store home →
      Code.runAll env fuel rest frame store = Code.runAll env fuel rest' frame store) →
    ∀ frame store, Code.runAll env fuel (code ++ rest) frame store =
      Code.runAll env fuel (code ++ rest') frame store

theorem Stands.refl (code : List Code) (home : Answer) : Stands code home home := by
  intro env fuel rest rest' h frame store
  rw [Code.runAll_append, Code.runAll_append]
  congr 1
  funext frame store
  exact h frame store rfl

theorem Stands.stored (code : List Code) (v slot : Value) :
    Stands (code ++ [.plain (.store v slot)]) (.value v) (.held slot) := by
  intro env fuel rest rest' h frame store
  rw [List.append_assoc, List.append_assoc, Code.runAll_append, Code.runAll_append]
  congr 1
  funext frame store
  exact Code.runAll_stored (h frame) store

theorem answer_lowers (hs : s.Ready S) (htwin : s.Twin e)
    (h : exec (fillReturnSlot a) s = (.ok (), t)) :
    ∃ answer code e', exec (Outline.answer a s.returnSlot).run e = (.ok (answer, code), e') ∧
      t.Twin e' ∧ s.Lowered S code t ∧ Stands code answer t.work.home := by
  obtain ⟨hslot, rfl⟩ | ⟨slot, hslot, ⟨hnull, rfl⟩ | ⟨hnull, v, u, w, hv, hw⟩⟩ :=
    exec_fillReturnSlot h
  . have hhome : t.work.home = .void := by
      simp [Work.home, GenState.work, hslot]
    rw [hslot, hhome]
    exact ⟨.void, [], e, rfl, htwin, .refl hs, Stands.refl _ _⟩
  . -- without a value, what the slot holds already is returned
    have hhome : t.work.home = .held slot := by
      simp [Work.home, GenState.work, hslot]
    rw [hslot, hhome]
    refine ⟨.held slot, [], e, ?_, htwin, .refl hs, Stands.refl _ _⟩
    rw [Outline.answer, if_pos hnull]
    rfl
  . obtain ⟨is, n, m, hext, rfl, halike⟩ := (Straight.convert _ _).exec_ok hv
    obtain ⟨e₁, hrun, htwin₁, hlowered⟩ := extend_lowers hs htwin hext halike
    obtain ⟨draft, hcheck, hext', rfl, halike'⟩ := exec_emit_plain rfl hw
    obtain rfl := Request.check_store _ _ _ _ hcheck
    obtain ⟨e₂, hrun', htwin₂, hlowered'⟩ := extend_lowers hlowered.ready htwin₁ hext' halike'
    refine ⟨.value v, is.map .plain ++ [.plain (.store v slot)], e₂, ?_, htwin₂,
      hlowered.trans hlowered' hs, ?_⟩
    . rw [hslot, Outline.answer, if_neg (by simp [hnull])]
      change _ = (Except.ok (Answer.value v,
        [] ++ (is.map Code.plain ++ ([Code.plain (.store v slot)] ++ []))), e₂)
      refine Outline.exec_bind (exec_straight_get e) ?_
      refine Outline.exec_bind ?_ (Outline.exec_bind hrun' rfl)
      rw [show e.blank.returnType = s.returnType from htwin.returnType]
      exact hrun
    . have hhome : s.work.home = .held slot := by
        simp [Work.home, GenState.work, hslot]
      change Stands _ _ s.work.home
      rw [hhome]
      exact Stands.stored _ _ _

theorem ret_sim (a : Operand) : Sim S (ret a) (Outline.ret a) fun _ => True := by
  refine unlessFinished_sim (ret_tame a) ?_
  intro s t e hexec hs hopen _ htwin
  obtain ⟨_, _, ⟨⟩, hexec⟩ := exec_bind_ok.1 hexec
  dsimp only at hexec
  split at hexec
  . next hvoid =>
    obtain ⟨-, hi, rfl⟩ := exec_close rfl hexec
    obtain ⟨e', hlast, htwin', hlowers⟩ :=
      last_lowers (c := .ret .void) hs hopen hi htwin fun _ _ => .ret_void
    have hslot : e.returnSlot = none := htwin.returnSlot.trans (hs.sane.returnSlot_void hvoid)
    have hrun := exec_returnSlot_void hslot (htwin.returnType ▸ hvoid)
    have hanswer : (Outline.answer a none).run.exec e = (.ok (.void, []), e) := rfl
    refine ⟨[] ++ ([] ++ [.ret .void]), e', ?_, htwin', hlowers⟩
    refine Outline.exec_bind hrun ?_
    exact Outline.exec_bind hanswer hlast
  . next hvoid =>
    obtain ⟨block, s₁, hblock, hexec⟩ := exec_bind_ok.1 hexec
    obtain ⟨_, s₂, hfill, hexec⟩ := exec_bind_ok.1 hexec
    obtain ⟨hopen₂, hi, rfl⟩ := exec_close rfl hexec
    obtain ⟨hreturn, hlowered₁, e₁, hrun₁, htwin₁⟩ := returnBlock_lowers hs htwin hblock
    obtain ⟨answer, code, e₂, hrun₂, htwin₂, hlowered₂, hstands⟩ :=
      answer_lowers hlowered₁.ready htwin₁ hfill
    obtain ⟨hgrows₃, hs₃⟩ := hlowered₂.ready.close hopen₂ hi
    have hlowers : s₂.Lowers [.ret s₂.work.home] (s₂.close (.branch block)) := by
      refine .close hlowered₂.ready hopen₂ hi fun hv hf => ?_
      have hreturn₃ := (hlowered₂.grows.evolves.returning hreturn).1
      exact ((hs₃.sane.realizes_home hreturn₃ hv hf).after leads_branch (n := 0)).weaken
        (Nat.zero_le _)
    refine ⟨[] ++ (code ++ [.ret answer]), { e₂ with cursor := { e₂.cursor with finished := true } },
      ?_, { htwin₂ with finished := rfl }, ?_⟩
    . refine Outline.exec_bind hrun₁ ?_
      exact Outline.exec_bind hrun₂ rfl
    . have hall := (hlowered₁.trans hlowered₂ hs).trans ⟨hgrows₃, hs₃, hlowers⟩ hs
      refine hall.lowers.congr hopen fun env fuel => hstands fun frame store hanswer => ?_
      rw [Code.runAll_singleton, Code.runAll_singleton, Code.run, Code.run, hanswer]

theorem branchIfNew_lowers {c : Value} (hs : s.Ready S) (hopen : s.cursor.finished = false)
    (hblock : s.returnBlock = some block)
    (hi : (s.grow "block").function.Terminates (.branchIf c block s.function.nextBlock)) :
    s.Lowers [.cond c [.ret s.work.home] []] (((s.grow "block").terminate s.cursor.block
      (.branchIf c block s.function.nextBlock)).goOn s.function.nextBlock false) := by
  have hnew : s.function.code? s.function.nextBlock = none := hs.sane.distinct.code?_nextBlock
  have hgrow : Work.Evolves (fun _ => False) s.work (s.grow "block").work :=
    Work.grow_evolves hs.sane _
  have hempty : (s.grow "block").work.Holds s.function.nextBlock [] := Work.holds_grow_new hs.sane
  refine .cond hs hopen hgrow rfl hi hempty ⟨hempty.present, Ne.symm hs.sane.entry_ne_nextBlock⟩ ?_ ?_ ?_
  . exact fun heq => hs.present (heq ▸ hnew)
  . exact fun hv hf => hs.sane.realizes_home hblock (hgrow.before.trans hv) hf
  . exact fun _ _ => .nil _ _ _

theorem conditionalRet_sim (condition a : Operand) :
    Sim S (conditionalRet condition a none) (Outline.conditionalRet condition a) fun _ => True := by
  refine unlessFinished_sim (conditionalRet_tame condition a none) ?_
  intro s t e hexec hs hopen hsettled htwin
  obtain ⟨c, _, hc, hexec⟩ := exec_bind_ok.1 hexec
  obtain ⟨is, n, m, hext, rfl, halike⟩ := (Straight.convert _ _).exec_ok hc
  obtain ⟨e₁, hrun₁, htwin₁, hlowered₁⟩ := extend_lowers hs htwin hext halike
  obtain ⟨block, s₂, hblock, hexec⟩ := exec_bind_ok.1 hexec
  obtain ⟨hreturn, hlowered₂, e₂, hrun₂, htwin₂⟩ := returnBlock_lowers hlowered₁.ready htwin₁ hblock
  obtain ⟨_, s₃, hfill, hexec⟩ := exec_bind_ok.1 hexec
  obtain ⟨answer, code, e₃, hrun₃, htwin₃, hlowered₃, hstands⟩ :=
    answer_lowers hlowered₂.ready htwin₂ hfill
  obtain ⟨hgrows, hready, -⟩ : s₃.Grows t ∧ t.Ready S ∧ True :=
    (branchIfNew_tame (P := fun _ => True) _ _ _).run hexec hlowered₃.ready trivial hsettled
  obtain ⟨hopen₃, hi, rfl⟩ := exec_branchIfNew hexec
  have hreturn₃ := (hlowered₃.grows.evolves.returning hreturn).1
  have hlowers := branchIfNew_lowers hlowered₃.ready hopen₃ hreturn₃ hi
  -- the value is stored in any case, but only the side that returns looks at the slot
  refine ⟨is.map .plain ++ ([] ++ (code ++ [.cond c [.ret answer] []])), e₃, ?_,
    { htwin₃ with finished := htwin₃.finished.trans hopen₃ }, ?_⟩
  . refine Outline.exec_bind hrun₁ ?_
    refine Outline.exec_bind hrun₂ ?_
    exact Outline.exec_bind hrun₃ rfl
  . have hrest := (hlowered₂.trans hlowered₃ hlowered₁.ready).trans ⟨hgrows, hready, hlowers⟩
      hlowered₁.ready
    refine hlowered₁.lowers.trans ?_ hlowered₁.grows hrest.grows.evolves.before
    refine hrest.lowers.congr hopen fun env fuel => hstands fun frame store hanswer => ?_
    simp only [Code.runAll_singleton, Code.run, hanswer]

theorem prepareRet_sim (a : Operand) :
    Sim S (prepareRet a) (Outline.prepareRet a) fun _ => True := by
  refine unlessFinished_sim (prepareRet_tame a) ?_
  intro s t e hexec hs hopen _ htwin
  obtain ⟨block, s₁, hblock, hfill⟩ := exec_bind_ok.1 hexec
  obtain ⟨-, hlowered₁, e₁, hrun₁, htwin₁⟩ := returnBlock_lowers hs htwin hblock
  obtain ⟨answer, code, e₂, hrun₂, htwin₂, hlowered₂, -⟩ :=
    answer_lowers hlowered₁.ready htwin₁ hfill
  refine ⟨[] ++ (code ++ []), e₂, Outline.exec_bind hrun₁ (Outline.exec_bind hrun₂ rfl), htwin₂, ?_⟩
  rw [List.append_nil]
  exact (hlowered₁.trans hlowered₂ hs).lowers

theorem returning_sim :
    Sim S (do branch (← Gen.block .returning)) Outline.returnPrepared fun _ => True := by
  refine ⟨(block_tame _).bind fun _ => (branch_tame _).done, ?_⟩
  intro s _ t e hexec hs hsettled htwin
  obtain ⟨target, s₁, hblock, hexec⟩ := exec_bind_ok.1 hexec
  obtain ⟨_, _, ⟨⟩, hblock⟩ := exec_bind_ok.1 hblock
  obtain ⟨hreturn, hlowered, e₁, hrun, htwin₁⟩ := returnBlock_lowers hs htwin hblock
  obtain ⟨hgrows, -, -⟩ :=
    (branch_tame (P := fun _ => True) target).run hexec hlowered.ready trivial hsettled
  obtain ⟨code, e₂, hlast, htwin₂, hlowers⟩ :
      ∃ code e', exec (Outline.unlessFinished (Outline.last (.ret s₁.work.home))).run e₁ =
        (.ok ((), code), e') ∧ t.Twin e' ∧ s₁.Lowers code t := by
    refine branch_lowers hlowered.ready htwin₁ hexec fun hv hf hleads => ?_
    exact ((hlowered.ready.sane.realizes_home hreturn hv hf).after hleads (n := 0)).weaken
      (Nat.zero_le _)
  exact ⟨[] ++ code, e₂, Outline.exec_bind hrun hlast, htwin₂,
    hlowered.lowers.trans hlowers hlowered.grows hgrows.evolves.before⟩

theorem directRet_sim (a : Operand) : Sim S (directRet a) (Outline.directRet a) fun _ => True := by
  refine unlessFinished_sim (directRet_tame a) ?_
  intro s t e hexec hs hopen _ htwin
  obtain ⟨_, _, ⟨⟩, hexec⟩ := exec_bind_ok.1 hexec
  dsimp only at hexec
  split at hexec
  . next hvoid =>
    obtain ⟨-, hi, rfl⟩ := exec_close rfl hexec
    obtain ⟨e', hlast, htwin', hlowers⟩ :=
      last_lowers (c := .ret .void) hs hopen hi htwin fun _ _ => .ret_void
    refine ⟨[] ++ [.ret .void], e', ?_, htwin', hlowers⟩
    refine Outline.exec_bind (exec_straight_get e) ?_
    dsimp only
    rw [if_pos (show e.blank.returnType.isVoid = true from htwin.returnType ▸ hvoid)]
    exact hlast
  . next hvoid =>
    split at hexec
    . obtain ⟨_, _, ⟨⟩, -⟩ := exec_bind_ok.1 hexec
    . next hnull =>
      obtain ⟨v, _, hv, hexec⟩ := exec_bind_ok.1 hexec
      obtain ⟨is, n, m, hext, rfl, halike⟩ := (Straight.convert _ _).exec_ok hv
      obtain ⟨e₁, hrun, htwin₁, hlowered⟩ := extend_lowers hs htwin hext halike
      obtain ⟨-, hi, rfl⟩ := exec_close rfl hexec
      obtain ⟨e', hlast, htwin', hlowers⟩ := last_lowers (c := .ret (.value v)) hlowered.ready hopen
        hi htwin₁ fun _ _ => .ret_value v
      refine ⟨[] ++ (is.map .plain ++ [.ret (.value v)]), e', ?_, htwin',
        hlowered.lowers.trans hlowers hlowered.grows
          (hlowered.ready.close hopen hi).1.evolves.before⟩
      refine Outline.exec_bind (exec_straight_get e) ?_
      have htype : e.blank.returnType = s.returnType := htwin.returnType
      dsimp only
      rw [htype, if_neg hvoid, if_neg hnull]
      exact Outline.exec_bind hrun hlast

end Gen

end ScriptedIR
