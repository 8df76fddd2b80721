import ScriptedIR.Proofs.Growth

/-!
What the steps of generation do to the state when they succeed. Every lemma takes a successful run
apart into the runs of its parts.
-/

namespace ScriptedIR

def Request.terminator? : Request → Option Instruction
  | ret value => some (.ret value)
  | branch target => some (.branch target)
  | branchIf condition ifTrue ifFalse => some (.branchIf condition ifTrue ifFalse)
  | unreachable => some .unreachable
  | _ => none

theorem Request.isPlain_of_terminator? {r : Request} {i : Instruction}
    (h : r.terminator? = some i) : r.isPlain = false := by
  cases r <;> first | rfl | cases h

theorem Request.Drafted.terminator {f : Function} {r : Request} {draft : Draft} {i : Instruction}
    (h : Drafted f r draft) (hr : r.terminator? = some i) :
    draft = .effect i ∧ f.Terminates i := by
  cases h with
  | value hplain | call hplain =>
    rw [isPlain_of_terminator? hr] at hplain
    cases hplain
  | free | store | comment => cases hr
  | unreachable | ret =>
    cases hr
    exact ⟨rfl, rfl, by simp [Instruction.successors]⟩
  | branch htarget =>
    cases hr
    exact ⟨rfl, rfl, by simpa [Instruction.successors] using htarget⟩
  | branchIf htrue hfalse =>
    cases hr
    exact ⟨rfl, rfl, by simpa [Instruction.successors] using ⟨htrue, hfalse⟩⟩

theorem Function.emitted_effect (f : Function) (id : BlockId) (draft : Draft) (i : Instruction) :
    (f.emitted id draft).emitted id (.effect i) =
      { f.append id [draft.instruction f.nextTemp, i] with
        nextTemp := draft.nextTemp f.nextTemp } := by
  change { (f.append id [draft.instruction f.nextTemp]).append id [i] with
    nextTemp := draft.nextTemp f.nextTemp } = _
  rw [Function.append_append]
  rfl

namespace GenState

def terminate (s : GenState) (block : BlockId) (i : Instruction) : GenState :=
  { s with function := s.function.append block [i] }

def goOn (s : GenState) (exit : BlockId) (given : Bool) : GenState :=
  { s with
    cursor :=
      if given then { s.cursor with finished := true }
      else { s.cursor with block := exit, finished := false } }

def close (s : GenState) (i : Instruction) : GenState :=
  { s with
    function := s.function.append s.cursor.block [i]
    cursor := { s.cursor with finished := true } }

def returned (s : GenState) : GenState :=
  { s with
    function := s.work.returned.function
    returnSlot := s.work.returned.returnSlot
    returnBlock := some s.function.nextBlock }

theorem work_returned (s : GenState) : s.returned.work = s.work.returned := by
  unfold returned work Work.returned
  dsimp only
  split <;> rfl

def grow (s : GenState) (label : String) : GenState :=
  { s with function := (s.function.addBlock label).2 }

def inside (s : GenState) (next exit block : BlockId) : GenState :=
  { s with cursor :=
    { start := block, block, finished := false, next := some next, exit := some exit } }

def into (s : GenState) (block : BlockId) : GenState :=
  { s with cursor := { s.cursor with start := block, block, finished := false } }

end GenState

namespace Gen

variable {s t : GenState}

theorem exec_newBlock {label : String} {block : BlockId} :
    exec (newBlock label) s = (.ok block, t) ↔ block = s.function.nextBlock ∧ t = s.grow label := by
  change (Except.ok s.function.nextBlock, s.grow label) = (Except.ok block, t) ↔ _
  simp [eq_comm]

theorem exec_terminator {r : Request} {i : Instruction} {v : Option Value}
    (hr : r.terminator? = some i) (h : exec (emit r) s = (.ok v, t)) :
    s.cursor.finished = false ∧ s.function.Terminates i ∧
      t = s.terminate s.cursor.block i := by
  obtain ⟨hopen, draft, code, hcheck, -, -, -, rfl⟩ := exec_emit.1 h
  obtain ⟨rfl, hi⟩ := (Request.check_drafted _ _ _ hcheck).terminator hr
  exact ⟨hopen, hi, rfl⟩

theorem exec_close {r : Request} {i : Instruction} (hr : r.terminator? = some i)
    (h : exec (do let _ ← emit r; finish) s = (.ok (), t)) :
    s.cursor.finished = false ∧ s.function.Terminates i ∧ t = s.close i := by
  obtain ⟨v, u, hemit, hfinish⟩ := exec_bind_ok.1 h
  obtain ⟨hopen, hi, rfl⟩ := exec_terminator hr hemit
  cases hfinish
  exact ⟨hopen, hi, rfl⟩

theorem exec_unlessFinished_eq (x : Gen Unit) (s : GenState) :
    exec (unlessFinished x) s = if s.cursor.finished then (.ok (), s) else exec x s := by
  change exec (if !s.cursor.finished then x else pure ()) s = _
  cases s.cursor.finished <;> rfl

theorem exec_unlessFinished {x : Gen Unit} (h : exec (unlessFinished x) s = (.ok (), t)) :
    (s.cursor.finished = true ∧ t = s) ∨ (s.cursor.finished = false ∧ exec x s = (.ok (), t)) := by
  rw [exec_unlessFinished_eq] at h
  split at h
  . next hfinished =>
    cases h
    exact .inl ⟨hfinished, rfl⟩
  . next hopen => exact .inr ⟨by simpa using hopen, h⟩

theorem exec_branch {target : BlockId} (h : exec (branch target) s = (.ok (), t)) :
    (s.cursor.finished = true ∧ t = s) ∨
      (s.cursor.finished = false ∧ s.function.Terminates (.branch target) ∧
        t = s.close (.branch target)) := by
  rcases exec_unlessFinished h with hfinished | ⟨hopen, h⟩
  . exact .inl hfinished
  . exact .inr (exec_close rfl h)

theorem exec_onCursor {cursor : Cursor} {x : Gen α} {r : α × Cursor} :
    exec (onCursor cursor x) s = (.ok r, t) ↔
      ∃ u, exec x { s with cursor } = (.ok r.1, u) ∧ r.2 = u.cursor ∧
        t = { u with cursor := s.cursor } := by
  simp only [exec, onCursor]
  cases hx : x { s with cursor } with
  | mk result u =>
    cases result with
    | error e => simp [Except.map]
    | ok a =>
      simp only [Except.map, Prod.mk.injEq, Except.ok.injEq]
      constructor
      . rintro ⟨rfl, rfl⟩
        exact ⟨u, ⟨rfl, rfl⟩, rfl, rfl⟩
      . rintro ⟨_, ⟨rfl, rfl⟩, hcursor, rfl⟩
        exact ⟨Prod.ext rfl hcursor.symm, rfl⟩

theorem exec_inBlock {label : String} {body : Gen Unit} {arm : BlockHandle} :
    exec (inBlock label body) s = (.ok arm, t) ↔
      ∃ u, exec body ((s.grow label).into s.function.nextBlock) = (.ok (), u) ∧
        arm = u.cursor.handle ∧ t = { u with cursor := s.cursor } := by
  unfold inBlock
  constructor
  . intro h
    obtain ⟨_, _, hnew, h⟩ := exec_bind_ok.1 h
    obtain ⟨rfl, rfl⟩ := exec_newBlock.1 hnew
    obtain ⟨cursor, _, hcursor, h⟩ := exec_bind_ok.1 h
    cases hcursor
    obtain ⟨⟨⟨⟩, cursor⟩, v, hbody, h⟩ := exec_bind_ok.1 h
    cases h
    obtain ⟨u, hu, rfl, rfl⟩ := exec_onCursor.1 hbody
    exact ⟨u, hu, rfl, rfl⟩
  . rintro ⟨u, hu, rfl, rfl⟩
    rw [exec_bind_ok]
    refine ⟨_, _, rfl, ?_⟩
    rw [exec_bind_ok]
    refine ⟨_, _, rfl, ?_⟩
    rw [exec_bind_ok]
    exact ⟨((), u.cursor), _, exec_onCursor.2 ⟨u, hu, rfl, rfl⟩, rfl⟩

theorem exec_returnBlock {block : BlockId} (h : exec returnBlock s = (.ok block, t)) :
    (s.returnBlock = some block ∧ t = s) ∨
      (s.returnBlock = none ∧ block = s.function.nextBlock ∧ t = s.returned) := by
  unfold returnBlock at h
  obtain ⟨_, _, hget, h⟩ := exec_bind_ok.1 h
  cases hget
  cases hblock : s.returnBlock with
  | some found =>
    rw [hblock] at h
    cases h
    exact .inl ⟨rfl, rfl⟩
  | none =>
    rw [hblock] at h
    obtain ⟨_, _, hnew, h⟩ := exec_bind_ok.1 h
    cases hnew
    dsimp only at h
    split at h
    . next hvoid =>
      obtain ⟨_, _, hret, h⟩ := exec_bind_ok.1 h
      obtain ⟨draft, -, hcheck, -, -, -, rfl⟩ := exec_emitAt.1 hret
      obtain ⟨rfl, -⟩ := (Request.check_drafted _ _ _ hcheck).terminator rfl
      cases h
      refine .inr ⟨rfl, rfl, ?_⟩
      simp only [GenState.returned, Work.returned, Work.returnCode, GenState.work, hvoid]
      rfl
    . next hvoid =>
      obtain ⟨_, _, hslot, h⟩ := exec_bind_ok.1 h
      obtain ⟨_, ⟨⟩, rfl, rfl⟩ := exec_emitAt_start hslot
      obtain ⟨_, _, hload, h⟩ := exec_bind_ok.1 h
      obtain ⟨_, -, ⟨⟩, -, -, rfl, rfl⟩ := exec_emitAt.1 hload
      obtain ⟨_, _, hret, h⟩ := exec_bind_ok.1 h
      obtain ⟨draft, -, hcheck, -, -, -, rfl⟩ := exec_emitAt.1 hret
      obtain ⟨rfl, -⟩ := (Request.check_drafted _ _ _ hcheck).terminator rfl
      cases h
      refine .inr ⟨rfl, rfl, ?_⟩
      dsimp only
      rw [Function.emitted_effect]
      simp only [GenState.returned, Work.returned, Work.returnCode, GenState.work, hvoid]
      rfl

theorem exec_returnBlock_some {block : BlockId} (h : s.returnBlock = some block) :
    exec returnBlock s = (.ok block, s) := by
  unfold returnBlock
  rw [exec_bind_ok]
  refine ⟨s, s, rfl, ?_⟩
  rw [h]
  rfl

theorem returnBlock_of_emitAt {block : BlockId} {position : Option Nat} {r : Request}
    {result : Except ScriptError (Option Value)} (h : exec (emitAt block position r) s = (result, t)) :
    t.returnBlock = s.returnBlock := by
  have hstate := congrArg (fun run => run.2.returnBlock) h
  exact hstate.symm

theorem exec_returnBlock_error {e : ScriptError} (h : exec returnBlock s = (.error e, t)) :
    s.returnBlock = none ∧ t.returnBlock = none := by
  unfold returnBlock at h
  obtain h | ⟨_, _, ⟨⟩, h⟩ := exec_bind_error h
  . cases h
  cases hblock : s.returnBlock with
  | some block =>
    rw [hblock] at h
    cases h
  | none =>
    rw [hblock] at h
    refine ⟨rfl, ?_⟩
    -- the block is made known in the last step, after all that can fail
    obtain h | ⟨block, u, hnew, h⟩ := exec_bind_error h
    . cases h
    obtain ⟨-, rfl⟩ := exec_newBlock.1 hnew
    dsimp only at h
    have hgrow : (s.grow "return").returnBlock = none := hblock
    split at h
    . obtain h | ⟨_, _, -, h⟩ := exec_bind_error h
      . exact (returnBlock_of_emitAt h).trans hgrow
      . cases h
    . obtain h | ⟨_, _, hslot, h⟩ := exec_bind_error h
      . exact (returnBlock_of_emitAt h).trans hgrow
      have hslot := (returnBlock_of_emitAt hslot).trans hgrow
      obtain h | ⟨_, _, hload, h⟩ := exec_bind_error h
      . exact (returnBlock_of_emitAt h).trans hslot
      have hload := (returnBlock_of_emitAt hload).trans hslot
      obtain h | ⟨_, _, -, h⟩ := exec_bind_error h
      . exact (returnBlock_of_emitAt h).trans hload
      . cases h

theorem exec_branchIfNew {label : String} {condition : Value} {ifTrue : BlockId}
    (h : exec (do
      let ifFalse ← newBlock label
      let _ ← emit (.branchIf condition ifTrue ifFalse)
      moveCursor ({ · with block := ifFalse })) s = (.ok (), t)) :
    s.cursor.finished = false ∧
      (s.grow label).function.Terminates (.branchIf condition ifTrue s.function.nextBlock) ∧
      t = ((s.grow label).terminate s.cursor.block
        (.branchIf condition ifTrue s.function.nextBlock)).goOn s.function.nextBlock false := by
  obtain ⟨_, _, hnew, h⟩ := exec_bind_ok.1 h
  obtain ⟨rfl, rfl⟩ := exec_newBlock.1 hnew
  obtain ⟨_, _, hbranch, h⟩ := exec_bind_ok.1 h
  obtain ⟨hopen, hi, rfl⟩ := exec_terminator rfl hbranch
  cases h
  refine ⟨hopen, hi, ?_⟩
  change s.cursor.finished = false at hopen
  simp [GenState.goOn, GenState.terminate, GenState.grow, hopen]

theorem exec_fillReturnSlot {a : Operand} (h : exec (fillReturnSlot a) s = (.ok (), t)) :
    (s.returnSlot = none ∧ t = s) ∨ ∃ slot, s.returnSlot = some slot ∧
      ((a.isNull = true ∧ t = s) ∨
        (a.isNull = false ∧ ∃ v u w, exec (convertTo s.returnType a) s = (.ok v, u) ∧
          exec (emit (.store v slot)) u = (.ok w, t))) := by
  obtain ⟨_, _, ⟨⟩, h⟩ := exec_bind_ok.1 h
  cases hslot : s.returnSlot with
  | none =>
    rw [hslot] at h
    cases h
    exact .inl ⟨rfl, rfl⟩
  | some slot =>
    rw [hslot] at h
    refine .inr ⟨slot, rfl, ?_⟩
    cases hnull : a.isNull with
    | true =>
      rw [hnull] at h
      cases h
      exact .inl ⟨rfl, rfl⟩
    | false =>
      rw [hnull] at h
      obtain ⟨v, u, hv, h⟩ := exec_bind_ok.1 h
      obtain ⟨w, _, hw, h⟩ := exec_bind_ok.1 h
      cases h
      exact .inr ⟨rfl, v, u, w, hv, hw⟩

theorem cursor_of_returnBlock {block : BlockId} (h : exec returnBlock s = (.ok block, t)) :
    t.cursor = s.cursor := by
  obtain ⟨-, rfl⟩ | ⟨-, rfl, rfl⟩ := exec_returnBlock h
  . rfl
  . rfl

theorem extend_of_fillReturnSlot {a : Operand} (h : exec (fillReturnSlot a) s = (.ok (), t)) :
    ∃ is n m, t = s.extend is n m := by
  obtain ⟨-, rfl⟩ | ⟨slot, -, ⟨-, rfl⟩ | ⟨-, v, u, w, hv, hw⟩⟩ := exec_fillReturnSlot h
  . exact ⟨_, _, _, t.extend_nil.symm⟩
  . exact ⟨_, _, _, t.extend_nil.symm⟩
  . obtain ⟨is, n, m, -, rfl, -⟩ := (Straight.convert _ _).exec_ok hv
    obtain ⟨draft, -, -, rfl, -⟩ := exec_emit_plain rfl hw
    exact ⟨_, _, _, s.extend_extend⟩

theorem cursor_of_fillReturnSlot {a : Operand} (h : exec (fillReturnSlot a) s = (.ok (), t)) :
    t.cursor = s.cursor := by
  obtain ⟨is, n, m, rfl⟩ := extend_of_fillReturnSlot h
  rfl

theorem exec_ret_eq (a : Operand) (s : GenState) :
    exec (ret a) s =
      if s.cursor.finished then (.ok (), s)
      else if s.returnType.isVoid then exec (do let _ ← emit (.ret none); finish) s
      else exec (do
        let block ← returnBlock
        fillReturnSlot a
        let _ ← emit (.branch block)
        finish) s := by
  unfold ret
  rw [exec_unlessFinished_eq]
  split
  . rfl
  . change exec (if s.returnType.isVoid then _ else _) s = _
    split <;> rfl

theorem exec_directRet_eq (a : Operand) (s : GenState) :
    exec (directRet a) s =
      if s.cursor.finished then (.ok (), s)
      else if s.returnType.isVoid then exec (do let _ ← emit (.ret none); finish) s
      else if a.isNull then (.error (.argument (.noReturnValue s.name)), s)
      else exec (do
        let v ← convertTo s.returnType a
        let _ ← emit (.ret (some v))
        finish) s := by
  unfold directRet
  rw [exec_unlessFinished_eq]
  split
  . rfl
  . change exec (if s.returnType.isVoid then _ else _) s = _
    split
    . rfl
    . split <;> rfl

theorem exec_joinArm {arm : BlockHandle} {exit : BlockId}
    (h : exec (joinArm arm exit) s = (.ok (), t)) :
    ((arm.current = exit ∨ arm.finished = true) ∧ t = s) ∨
      (arm.current ≠ exit ∧ arm.finished = false ∧ s.function.Terminates (.branch exit) ∧
        t = s.terminate arm.current (.branch exit)) := by
  unfold joinArm at h
  split at h
  . next hne =>
    obtain ⟨_, _, hcursor, h⟩ := exec_bind_ok.1 h
    cases hcursor
    obtain ⟨⟨⟨⟩, _⟩, _, hbranch, h⟩ := exec_bind_ok.1 h
    cases h
    obtain ⟨u, hu, -, rfl⟩ := exec_onCursor.1 hbranch
    obtain ⟨hfinished, rfl⟩ | ⟨hopen, hexit, rfl⟩ := exec_branch hu
    . exact .inl ⟨.inr hfinished, rfl⟩
    . exact .inr ⟨hne, hopen, hexit, rfl⟩
  . next heq =>
    cases h
    exact .inl ⟨.inl (Classical.not_not.1 heq), rfl⟩

theorem exec_moveBehind {block after : BlockId} (h : exec (moveBehind block after) s = (.ok (), t)) :
    t = s ∨ ∃ g, s.function.moveAfter block after = .ok g ∧ t = { s with function := g } := by
  unfold moveBehind at h
  split at h
  . simp only [exec, modifyFunction] at h
    split at h
    . next g hg =>
      cases h
      exact .inr ⟨g, hg, rfl⟩
    . cases h
  . cases h
    exact .inl rfl

theorem exec_continueAt {exit : BlockId} {given : Bool}
    (h : exec (continueAt exit given) s = (.ok (), t)) : t = s.goOn exit given := by
  cases given with
  | true =>
    cases h
    rfl
  | false =>
    cases h
    rfl

theorem exec_isEmptyBlock {block : BlockId} {r : Bool}
    (h : exec (isEmptyBlock block) s = (.ok r, t)) :
    t = s ∧ ∃ code, s.function.code? block = some code ∧ r = code.isEmpty := by
  unfold isEmptyBlock at h
  obtain ⟨_, _, hget, h⟩ := exec_bind_ok.1 h
  cases hget
  unfold Function.block Function.code? at *
  cases hblock : s.function.block? block with
  | none =>
    rw [hblock] at h
    cases h
  | some b =>
    rw [hblock] at h
    cases h
    exact ⟨rfl, b.body, rfl, rfl⟩

theorem exec_condExit {given : Option BlockId} {isBody : Bool} {arm : BlockHandle} {exit : BlockId}
    (h : exec (condExit given isBody arm) s = (.ok exit, t)) :
    (given = some exit ∧ t = s) ∨
      (given = none ∧ arm.finished = false ∧ arm.start = exit ∧ arm.current = exit ∧
        s.function.code? exit = some [] ∧ t = s) ∨
      (given = none ∧ exit = s.function.nextBlock ∧ t = s.grow "exit") := by
  unfold condExit at h
  split at h
  . cases h
    exact .inl ⟨rfl, rfl⟩
  . right
    split at h
    . next hstays =>
      simp only [Bool.and_eq_true, Bool.not_eq_true', decide_eq_true_eq] at hstays
      obtain ⟨r, _, hempty, h⟩ := exec_bind_ok.1 h
      obtain ⟨rfl, code, hcode, rfl⟩ := exec_isEmptyBlock hempty
      split at h
      . next hnil =>
        cases h
        rw [List.isEmpty_iff.1 hnil] at hcode
        exact .inl ⟨rfl, hstays.1.2, rfl, hstays.2.symm, hcode, rfl⟩
      . cases h
        exact .inr ⟨rfl, rfl, rfl⟩
    . cases h
      exact .inr ⟨rfl, rfl, rfl⟩

theorem exec_loopHeader {header : BlockId} (hopen : s.cursor.finished = false)
    (h : exec loopHeader s = (.ok header, t)) :
    (header = s.cursor.block ∧ header ≠ s.entry ∧ s.function.code? header = some [] ∧ t = s) ∨
      (header = s.function.nextBlock ∧
        (s.grow "loop").function.Terminates (.branch header) ∧
        t = (s.grow "loop").close (.branch header)) := by
  unfold loopHeader at h
  obtain ⟨_, _, hget, h⟩ := exec_bind_ok.1 h
  cases hget
  have hnew (h : exec (do let header ← newBlock "loop"; branch header; return header) s =
      (.ok header, t)) : header = s.function.nextBlock ∧
        (s.grow "loop").function.Terminates (.branch header) ∧
        t = (s.grow "loop").close (.branch header) := by
    obtain ⟨_, _, hblock, h⟩ := exec_bind_ok.1 h
    obtain ⟨rfl, rfl⟩ := exec_newBlock.1 hblock
    obtain ⟨_, _, hbranch, h⟩ := exec_bind_ok.1 h
    cases h
    obtain ⟨hfinished, -⟩ | ⟨-, hheader, rfl⟩ := exec_branch hbranch
    . change s.cursor.finished = true at hfinished
      rw [hopen] at hfinished
      cases hfinished
    . exact ⟨rfl, hheader, rfl⟩
  dsimp only at h
  -- a new block is made at the entry as well as behind code
  split at h
  . exact .inr (hnew h)
  . next hne =>
    obtain ⟨r, _, hempty, h⟩ := exec_bind_ok.1 h
    obtain ⟨rfl, code, hcode, rfl⟩ := exec_isEmptyBlock hempty
    split at h
    . next hnil =>
      cases h
      rw [List.isEmpty_iff.1 hnil] at hcode
      exact .inl ⟨rfl, hne, hcode, rfl⟩
    . exact .inr (hnew h)

def OtherArm (exit : BlockId) (s t : GenState) (other : Option BlockHandle) :
    Option (Gen Unit) → Prop
  | none => other = none ∧ t = s
  | some y => ∃ arm u, exec (inBlock "else" y) s = (.ok arm, u) ∧
      exec (joinArm arm exit) u = (.ok (), t) ∧ other = some arm

theorem exec_cond {condition : Operand} {x : Gen Unit} {y : Option (Gen Unit)}
    {given : Option BlockId}
    (h : exec (cond condition (.body x) (y.map .body) given) s = (.ok (), t)) :
    s.cursor.finished = false ∧ ∃ c s₁ arm s₂ exit s₃ s₄ other s₅ s₆,
      exec (convertTo .i1 condition) s = (.ok c, s₁) ∧
      exec (inBlock "then" x) s₁ = (.ok arm, s₂) ∧
      exec (condExit given true arm) s₂ = (.ok exit, s₃) ∧
      exec (joinArm arm exit) s₃ = (.ok (), s₄) ∧
      OtherArm exit s₄ s₅ other y ∧
      exec (moveBehind exit (other.getD arm).current) s₅ = (.ok (), s₆) ∧
      s₆.function.Terminates (.branchIf c arm.start (other.elim exit BlockHandle.start)) ∧
      t = (s₆.terminate s₆.cursor.block
        (.branchIf c arm.start (other.elim exit BlockHandle.start))).goOn exit given.isSome := by
  unfold cond at h
  obtain ⟨_, _, hrun, h⟩ := exec_bind_ok.1 h
  obtain ⟨hopen, rfl⟩ := exec_requireOpen.1 hrun
  obtain ⟨c, s₁, hc, h⟩ := exec_bind_ok.1 h
  obtain ⟨arm, s₂, harm, h⟩ := exec_bind_ok.1 h
  obtain ⟨exit, s₃, hexit, h⟩ := exec_bind_ok.1 h
  obtain ⟨_, s₄, hjoin, h⟩ := exec_bind_ok.1 h
  obtain ⟨other, s₅, hother, h⟩ := exec_bind_ok.1 h
  obtain ⟨_, s₆, hmove, h⟩ := exec_bind_ok.1 h
  obtain ⟨_, _, hbranch, h⟩ := exec_bind_ok.1 h
  obtain ⟨-, hi, rfl⟩ := exec_terminator rfl hbranch
  cases exec_continueAt h
  refine ⟨hopen, c, s₁, arm, s₂, exit, s₃, s₄, other, s₅, s₆, hc, harm, hexit, hjoin, ?_, hmove, hi, rfl⟩
  cases y with
  | none =>
    cases hother
    exact ⟨rfl, rfl⟩
  | some y =>
    obtain ⟨_, _, harm', hsome⟩ := exec_bind_ok.1 hother
    cases hsome
    obtain ⟨arm', u, hbuilt, hrest⟩ := exec_bind_ok.1 harm'
    obtain ⟨_, _, hjoin', hpure⟩ := exec_bind_ok.1 hrest
    cases hpure
    exact ⟨_, u, hbuilt, hjoin', rfl⟩

def inLoop (next exit block : BlockId) (x : Gen Unit) : Gen BlockId := do
  let cursor ← cursorAt block
  let ((), cursor) ← onCursor { cursor with next := some next, exit := some exit } x
  return cursor.block

theorem exec_inLoop {next exit block last : BlockId} {x : Gen Unit}
    (h : exec (inLoop next exit block x) s = (.ok last, t)) :
    ∃ u, exec x (s.inside next exit block) = (.ok (), u) ∧ t = { u with cursor := s.cursor } := by
  unfold inLoop at h
  obtain ⟨_, _, hcursor, h⟩ := exec_bind_ok.1 h
  cases hcursor
  obtain ⟨⟨⟨⟩, _⟩, _, hx, h⟩ := exec_bind_ok.1 h
  cases h
  obtain ⟨u, hu, -, rfl⟩ := exec_onCursor.1 hx
  exact ⟨u, hu, rfl⟩

def orNewBlock (needed : Bool) (label : String) (block : BlockId) : Gen BlockId :=
  if needed then newBlock label else return block

theorem exec_orNewBlock {needed : Bool} {label : String} {block id : BlockId}
    (h : exec (orNewBlock needed label block) s = (.ok id, t)) :
    (needed = true ∧ id = s.function.nextBlock ∧ t = s.grow label) ∨
      (needed = false ∧ id = block ∧ t = s) := by
  cases needed with
  | true =>
    cases h
    exact .inl ⟨rfl, rfl, rfl⟩
  | false =>
    cases h
    exact .inr ⟨rfl, rfl, rfl⟩

namespace LoopParts

def turn (parts : LoopParts) (slots : List Value) (increment : BlockId) : Gen Unit :=
  match parts.body with
  | some run => do
    run (← loadAll slots)
    branch increment
  | none => branch increment

def test (run : List Value → Gen Operand) (slots : List Value) (body exit : BlockId) : Gen Unit := do
  let condition ← run (← loadAll slots)
  let condition ← convertTo .i1 condition
  let _ ← emit (.branchIf condition body exit)
  finish

def needsIncrement (parts : LoopParts) : Bool :=
  parts.increment.isSome && (parts.compare.isSome || parts.body.isSome)

def require (parts : LoopParts) : Gen Unit :=
  if parts.compare.isNone && parts.body.isNone && parts.increment.isNone then
    throw (.argument .emptyLoop)
  else return

def leave (parts : LoopParts) : Gen BlockId :=
  match parts.exit with
  | some exit => return exit
  | none => newBlock "break"

def bodyPart (parts : LoopParts) (slots : List Value) (header body increment exit : BlockId) :
    Gen BlockId :=
  if parts.body.isSome || parts.compare.isSome then
    inLoop increment exit body (parts.turn slots increment)
  else return header

def testPart (parts : LoopParts) (slots : List Value) (header body increment exit last : BlockId) :
    Gen BlockId :=
  match parts.compare with
  | some run => do
    let reached ← inLoop increment exit header (test run slots body exit)
    return if last = header then reached else last
  | none => return last

def incrementPart (parts : LoopParts) (slots : List Value)
    (header increment exit last : BlockId) : Gen BlockId :=
  match parts.increment with
  | some run => inLoop increment exit increment do
    run slots
    branch header
  | none => return last

theorem loop_eq (parts : LoopParts) :
    loop parts = do
      let _ ← parts.require
      requireOpen
      let slots ← parts.vars.mapM slot
      let header ← loopHeader
      let body ← orNewBlock parts.compare.isSome "body" header
      let increment ← orNewBlock parts.needsIncrement "increment" header
      let exit ← parts.leave
      let last ← parts.bodyPart slots header body increment exit
      let last ← parts.testPart slots header body increment exit last
      let last ← parts.incrementPart slots header increment exit last
      moveBehind exit last
      continueAt exit parts.exit.isSome
      return slots := by
  obtain ⟨vars, compare, body, increment, exit⟩ := parts
  cases compare <;> cases body <;> cases increment <;> cases exit <;>
    simp [loop, require, orNewBlock, needsIncrement, leave, bodyPart, testPart, incrementPart, turn,
      test, inLoop]

variable {parts : LoopParts} {slots : List Value} {header body increment exit last last' : BlockId}

theorem exec_leave (h : exec parts.leave s = (.ok exit, t)) :
    (parts.exit = some exit ∧ t = s) ∨
      (parts.exit = none ∧ exit = s.function.nextBlock ∧ t = s.grow "break") := by
  unfold leave at h
  split at h
  . next hexit =>
    cases h
    exact .inl ⟨hexit, rfl⟩
  . next hexit =>
    cases h
    exact .inr ⟨hexit, rfl, rfl⟩

theorem exec_bodyPart (h : exec (parts.bodyPart slots header body increment exit) s = (.ok last, t)) :
    ((parts.body.isSome || parts.compare.isSome) = true ∧
      ∃ u, exec (parts.turn slots increment) (s.inside increment exit body) = (.ok (), u) ∧
        t = { u with cursor := s.cursor }) ∨
      ((parts.body.isSome || parts.compare.isSome) = false ∧ t = s) := by
  unfold bodyPart at h
  split at h
  . next hparts => exact .inl ⟨hparts, exec_inLoop h⟩
  . next hparts =>
    cases h
    exact .inr ⟨by simpa using hparts, rfl⟩

theorem exec_testPart
    (h : exec (parts.testPart slots header body increment exit last) s = (.ok last', t)) :
    (∃ run, parts.compare = some run ∧
      ∃ u, exec (test run slots body exit) (s.inside increment exit header) = (.ok (), u) ∧
        t = { u with cursor := s.cursor }) ∨
      (parts.compare = none ∧ t = s) := by
  unfold testPart at h
  split at h
  . next run hrun =>
    obtain ⟨_, _, hpart, hpure⟩ := exec_bind_ok.1 h
    cases hpure
    exact .inl ⟨run, hrun, exec_inLoop hpart⟩
  . next hnone =>
    cases h
    exact .inr ⟨hnone, rfl⟩

theorem exec_incrementPart
    (h : exec (parts.incrementPart slots header increment exit last) s = (.ok last', t)) :
    (∃ run, parts.increment = some run ∧
      ∃ u, exec (do run slots; branch header) (s.inside increment exit increment) = (.ok (), u) ∧
        t = { u with cursor := s.cursor }) ∨
      (parts.increment = none ∧ t = s) := by
  unfold incrementPart at h
  split at h
  . next run hrun => exact .inl ⟨run, hrun, exec_inLoop h⟩
  . next hnone =>
    cases h
    exact .inr ⟨hnone, rfl⟩

theorem exec_loop (h : exec (loop parts) s = (.ok slots, t)) :
    (parts.compare.isSome || parts.body.isSome || parts.increment.isSome) = true ∧
    s.cursor.finished = false ∧
    ∃ s₁ header s₂ body s₃ increment s₄ exit s₅ last₆ s₆ last₇ s₇ last s₈ s₉,
      exec (parts.vars.mapM slot) s = (.ok slots, s₁) ∧
      exec loopHeader s₁ = (.ok header, s₂) ∧
      exec (orNewBlock parts.compare.isSome "body" header) s₂ = (.ok body, s₃) ∧
      exec (orNewBlock parts.needsIncrement "increment" header) s₃ = (.ok increment, s₄) ∧
      exec parts.leave s₄ = (.ok exit, s₅) ∧
      exec (parts.bodyPart slots header body increment exit) s₅ = (.ok last₆, s₆) ∧
      exec (parts.testPart slots header body increment exit last₆) s₆ = (.ok last₇, s₇) ∧
      exec (parts.incrementPart slots header increment exit last₇) s₇ = (.ok last, s₈) ∧
      exec (moveBehind exit last) s₈ = (.ok (), s₉) ∧
      t = s₉.goOn exit parts.exit.isSome := by
  rw [loop_eq] at h
  obtain ⟨_, _, hrequire, h⟩ := exec_bind_ok.1 h
  unfold require at hrequire
  split at hrequire
  . cases hrequire
  next hparts =>
  cases hrequire
  obtain ⟨_, _, hrun, h⟩ := exec_bind_ok.1 h
  obtain ⟨hopen, rfl⟩ := exec_requireOpen.1 hrun
  obtain ⟨_, s₁, hslots, h⟩ := exec_bind_ok.1 h
  obtain ⟨header, s₂, hheader, h⟩ := exec_bind_ok.1 h
  obtain ⟨body, s₃, hbody, h⟩ := exec_bind_ok.1 h
  obtain ⟨increment, s₄, hincrement, h⟩ := exec_bind_ok.1 h
  obtain ⟨exit, s₅, hexit, h⟩ := exec_bind_ok.1 h
  obtain ⟨last₆, s₆, h₆, h⟩ := exec_bind_ok.1 h
  obtain ⟨last₇, s₇, h₇, h⟩ := exec_bind_ok.1 h
  obtain ⟨last, s₈, h₈, h⟩ := exec_bind_ok.1 h
  obtain ⟨_, s₉, hmove, h⟩ := exec_bind_ok.1 h
  obtain ⟨_, _, hcontinue, h⟩ := exec_bind_ok.1 h
  cases exec_continueAt hcontinue
  cases h
  refine ⟨?_, hopen, s₁, header, s₂, body, s₃, increment, s₄, exit, s₅, last₆, s₆, last₇, s₇, last, s₈,
    s₉, hslots, hheader, hbody, hincrement, hexit, h₆, h₇, h₈, hmove, rfl⟩
  revert hparts
  cases parts.compare <;> cases parts.body <;> cases parts.increment <;> simp

end LoopParts

theorem exec_withNames {x : Gen α} {a : α} {names : Names Operand} :
    exec (withNames names x) s = (.ok a, t) ↔
      ∃ u, exec x { s with names, handles := ∅ } = (.ok a, u) ∧
        t = { u with names := s.names, handles := s.handles } := by
  simp only [exec, withNames]
  cases hx : x { s with names, handles := ∅ } with
  | mk result u =>
    simp only [Prod.mk.injEq]
    constructor
    . rintro ⟨rfl, rfl⟩
      exact ⟨u, ⟨rfl, rfl⟩, rfl⟩
    . rintro ⟨_, ⟨rfl, rfl⟩, rfl⟩
      exact ⟨rfl, rfl⟩

theorem exec_call {expand : Macro → List Operand → Gen Operand} {callee o : Operand}
    {args : List Operand} (h : exec (call expand callee args) s = (.ok o, t)) :
    (∃ name m, callee = .str name ∧ s.library.resolve name .everything = some (.inlined m) ∧
      s.library.macros.get? name .everything = some m ∧ exec (expand m args) s = (.ok o, t)) ∨
    ((∀ name m, callee = .str name → s.library.resolve name .everything ≠ some (.inlined m)) ∧
      ∀ expand', exec (call expand' callee args) s = (.ok o, t)) := by
  cases callee with
  | str name =>
    obtain ⟨_, _, ⟨⟩, hexec⟩ := exec_bind_ok.1 h
    split at hexec
    . next m hm =>
      have hfound : s.library.macros.get? name .everything = some m := by
        unfold Library.resolve at hm
        cases hget : s.library.macros.get? name .everything with
        | none => simp [hget, Option.or_eq_some_iff] at hm
        | some m' => simpa [hget] using hm
      dsimp only at hexec
      split at hexec
      . cases hexec
      . exact .inl ⟨name, m, rfl, hm, hfound, hexec⟩
    . next f hf =>
      refine .inr ⟨?_, fun expand' => exec_bind_ok.2 ⟨_, _, rfl, ?_⟩⟩
      . rintro _ m ⟨⟩ hm
        simp [hf] at hm
      . rw [hf]
        exact hexec
    . cases hexec
  | _ => exact .inr ⟨by simp, fun _ => h⟩

section Script

variable (expand : Macro → List Operand → Gen Operand)

def arm : Arm (List Stmt) HandleRef → Gen (Arm (Gen Unit) BlockHandle)
  | .body b => pure (.body (runStmts expand b))
  | .built ref => .built <$> handle ref

theorem runStmt_cond (condition : Expr) (ifTrue : Arm (List Stmt) HandleRef)
    (ifFalse : Option (Arm (List Stmt) HandleRef)) (exit : Option BlockRef) :
    runStmt expand (.cond condition ifTrue ifFalse exit) = (do
      let condition ← eval condition
      let ifTrue ← arm expand ifTrue
      let ifFalse ← ifFalse.mapM (arm expand)
      let exit ← exit.mapM block
      cond condition ifTrue ifFalse exit
      record .done) := by
  rcases ifTrue with b | ref <;> rcases ifFalse with _ | b' | ref'
  . rfl
  . rfl
  . change (eval condition >>= _) = _
    simp [arm]
  . rfl
  . rfl
  . change (eval condition >>= _) = _
    simp [arm]

def loopParts (names : List String) (compare : Option (List Stmt × Expr))
    (body increment : Option (List Stmt)) (vars : List Operand) (exit : Option BlockId) :
    LoopParts where
  vars
  compare := compare.map fun c values => do
    bindAll names values
    runStmts expand c.1
    eval c.2
  body := body.map fun b values => do
    bindAll names values
    runStmts expand b
  increment := increment.map fun b slots => do
    bindAll names slots
    runStmts expand b
  exit

theorem runStmt_loop (vars : List Expr) (names : List String) (compare : Option (List Stmt × Expr))
    (body increment : Option (List Stmt)) (exit : Option BlockRef) :
    runStmt expand (.loop vars names compare body increment exit) = (do
      let vars ← evalAll vars
      let exit ← exit.mapM block
      let slots ← loop (loopParts expand names compare body increment vars exit)
      bindAll names slots
      record (.slots slots)) := by
  cases compare <;> cases body <;> cases increment <;> rfl

end Script

end Gen

end ScriptedIR
