import Mathlib.Data.List.Nodup
import ScriptedIR.Proofs.Exit

/-!
The single exit of a function. Values are returned through the one return block, which is the last
block of the function that is built; every other return instruction comes from a return on the spot.
-/

namespace ScriptedIR

def Instruction.isReturn : Instruction → Bool
  | ret _ => true
  | _ => false

theorem Request.Drafted.isReturn_instruction {f : Function} {r : Request} {draft : Draft}
    (h : Drafted f r draft) (result : Temp) :
    (draft.instruction result).isReturn = r.isReturn := by
  cases h with
  | value hr | call hr =>
    rw [isReturn_of_isPlain hr]
    rfl
  | _ => rfl

def Function.returns (f : Function) : Nat := f.instructions.countP Instruction.isReturn

theorem Builder.returns_build (b : Builder) (r : Request) :
    (b.build r).2.function.returns =
      b.function.returns + if (b.build r).1.toBool && r.isReturn then 1 else 0 := by
  obtain ⟨e, n, herror, -, hfunction⟩ | ⟨draft, place, hcheck, hcode, hok, hfunction⟩ :=
    b.build_cases r
  . rw [hfunction, herror]
    rfl
  . rw [hfunction, hok]
    have hperm := Function.instructions_insert hcode place (draft.instruction b.function.nextTemp)
    have hcount := hperm.countP_eq Instruction.isReturn
    rw [List.countP_cons, (Request.check_drafted _ _ _ hcheck).isReturn_instruction] at hcount
    exact hcount

/--
Whether a return took effect with an instruction of its own: on the spot, or where there is no value to
be returned. Nothing takes effect in a finished block.
-/
def ReturnCall.isOwn (void : Bool) (call : ReturnCall) : Bool :=
  call.succeeded && !call.finished && (call.direct || void)

namespace Gen

theorem returns_emitAt (block : BlockId) (position : Option Nat) (r : Request) (s : GenState) :
    (exec (emitAt block position r) s).2.function.returns =
      s.function.returns + if (exec (emitAt block position r) s).1.toBool && r.isReturn then 1 else 0 := by
  rw [exec_emitAt_eq]
  dsimp only
  rw [Builder.returns_build]
  cases (Builder.build ⟨s.function, block, position⟩ r).1 <;> rfl

theorem Keeps.andThen {P Q : GenState → Prop} {x : Gen α} {f : α → Gen β} (hx : Keeps P x)
    (hPQ : ∀ s, P s → Q s) (hf : ∀ a s, P s → Q (exec (f a) s).2) {s : GenState} (hs : P s) :
    Q (exec (x >>= f) s).2 := by
  have hkept := (hx s hs).1
  rw [exec_bind]
  rcases hrun : exec x s with ⟨e | a, t⟩
  . rw [hrun] at hkept
    exact hPQ t hkept
  . rw [hrun] at hkept
    exact hf a t hkept

end Gen

namespace GenState

/--
The return instructions are the one of the shared return block and so many more.
-/
def Balanced (n : Nat) (s : GenState) : Prop :=
  s.function.returns = n + if s.returnBlock.isSome then 1 else 0

def Pending (n : Nat) (s : GenState) : Prop := s.function.returns = n ∧ s.returnBlock = none

namespace Balanced

open Gen

variable {n : Nat} {s : GenState}

theorem of_pending (h : s.Pending n) : s.Balanced n := by
  unfold Balanced
  simp [h.1, h.2]

theorem emitAt_pending {r : Request} (hr : r.isReturn = false) (block : BlockId)
    (position : Option Nat) : Keeps (Pending n) (emitAt block position r) := by
  refine fun s h => ⟨⟨?_, h.2⟩, rfl, fun _ _ => trivial⟩
  rw [returns_emitAt, hr, h.1]
  simp

theorem newBlock_pending (label : String) : Keeps (Pending n) (newBlock label) := by
  refine fun s h => ⟨⟨?_, h.2⟩, rfl, fun _ _ => trivial⟩
  refine Eq.trans ?_ h.1
  exact congrArg (List.countP _) (Function.instructions_addBlock label)

theorem settle (h : s.Pending n) (block : BlockId) (v slot : Option Value) :
    Balanced n (exec (do
      let _ ← emitAt block none (.ret v)
      modify fun s => { s with returnSlot := slot, returnBlock := some block }
      return block) s).2 := by
  have hreturns := returns_emitAt block none (.ret v) s
  rw [exec_bind]
  rcases hrun : exec (emitAt block none (.ret v)) s with ⟨e | w, t⟩
  . rw [hrun, h.1] at hreturns
    exact of_pending ⟨hreturns, (returnBlock_of_emitAt hrun).trans h.2⟩
  . rw [hrun, h.1] at hreturns
    exact hreturns

theorem returnBlock_keeps : Keeps (Balanced n) Gen.returnBlock := by
  intro s h
  refine ⟨?_, (Loose.trivial.returnBlock_keeps s trivial).2.1, fun _ _ => trivial⟩
  cases hblock : s.returnBlock with
  | some block =>
    rw [exec_returnBlock_some hblock]
    exact h
  | none =>
    have hs : s.Pending n := by
      unfold Balanced at h
      rw [hblock] at h
      exact ⟨h, hblock⟩
    have hget : exec (get : Gen GenState) s = (.ok s, s) := rfl
    unfold Gen.returnBlock
    rw [exec_bind, hget]
    dsimp only
    rw [hblock]
    refine (newBlock_pending _).andThen (fun _ => of_pending) ?_ hs
    intro block t ht
    split
    . exact settle ht block none none
    . refine (emitAt_pending rfl _ _).andThen (fun _ => of_pending) ?_ ht
      intro slot u hu
      refine (emitAt_pending rfl _ _).andThen (fun _ => of_pending) ?_ hu
      intro v w hw
      exact settle hw block v slot

theorem sameCode {t : GenState} (h : s.Balanced n) (hsame : s.SameCode t) : t.Balanced n := by
  unfold Balanced
  rw [hsame.function, hsame.returnBlock]
  exact h

theorem emitAt_balanced (h : s.Balanced n) (block : BlockId) (r : Request) :
    Balanced (n + if (exec (emitAt block none r) s).1.toBool && r.isReturn then 1 else 0)
      (exec (emitAt block none r) s).2 := by
  have hblock : (exec (emitAt block none r) s).2.returnBlock = s.returnBlock := rfl
  unfold Balanced at *
  rw [returns_emitAt, hblock, h]
  omega

theorem emitting : Emitting (Balanced n) fun r => r.isReturn = false where
  emit r hr := by
    refine requireOpen_keeps.bind fun _ _ => Keeps.get.bind fun u _ => ?_
    refine fun s h => ⟨?_, rfl, fun _ _ => trivial⟩
    have hs := h.emitAt_balanced u.cursor.block r
    simpa [hr] using hs
  convert o hint s h :=
    ⟨h.sameCode ⟨rfl, Operand.convert_keepsFunctions o hint _, List.Subset.refl _⟩, rfl,
      fun _ _ => trivial⟩
  newBlock label s h := by
    refine ⟨?_, rfl, fun _ _ => trivial⟩
    refine Eq.trans ?_ h
    exact congrArg (List.countP _) (Function.instructions_addBlock label)
  returnBlock := returnBlock_keeps
  cursor hstart s h :=
    ⟨h.sameCode ⟨rfl, rfl, List.Subset.refl _⟩, hstart _, fun _ _ => trivial⟩

theorem close_balanced (h : s.Balanced n) (hopen : s.cursor.finished = false) (v : Option Value) :
    Balanced (n + if (exec (do let _ ← emit (.ret v); finish) s).1.toBool then 1 else 0)
      (exec (do let _ ← emit (.ret v); finish) s).2 := by
  have hemit : exec (emit (.ret v)) s = exec (emitAt s.cursor.block none (.ret v)) s := by
    change exec (requireOpen >>= fun _ => _) s = _
    rw [exec_bind, exec_requireOpen (u := ()) |>.2 ⟨hopen, rfl⟩]
    rfl
  have hs := h.emitAt_balanced s.cursor.block (.ret v)
  rw [exec_bind, hemit]
  rcases hrun : exec (emitAt s.cursor.block none (.ret v)) s with ⟨e | w, t⟩
  . rw [hrun] at hs
    exact hs
  . rw [hrun] at hs
    exact hs

theorem ret_balanced (h : s.Balanced n) (a : Operand) :
    Balanced (n + if ReturnCall.isOwn s.returnType.isVoid
        ⟨false, s.cursor.finished, (exec (ret a) s).1.toBool⟩ then 1 else 0) (exec (ret a) s).2 := by
  rw [exec_ret_eq]
  cases hfinished : s.cursor.finished with
  | true => simpa [ReturnCall.isOwn] using h
  | false =>
    cases hvoid : s.returnType.isVoid with
    | true =>
      have hs := h.close_balanced hfinished none
      simpa [ReturnCall.isOwn] using hs
    | false =>
      have hs : Keeps (Balanced n) (do
          let block ← Gen.returnBlock
          fillReturnSlot a
          let _ ← emit (.branch block)
          finish) :=
        returnBlock_keeps.bind fun _ _ =>
          (emitting.fillReturnSlot_keeps (fun _ _ => rfl) a).bind fun _ _ => emitting.close_keeps rfl
      simpa [ReturnCall.isOwn] using (hs s h).1

theorem directRet_balanced (h : s.Balanced n) (a : Operand) :
    Balanced (n + if ReturnCall.isOwn s.returnType.isVoid
        ⟨true, s.cursor.finished, (exec (directRet a) s).1.toBool⟩ then 1 else 0)
      (exec (directRet a) s).2 := by
  rw [exec_directRet_eq]
  cases hfinished : s.cursor.finished with
  | true => simpa [ReturnCall.isOwn] using h
  | false =>
    cases hvoid : s.returnType.isVoid with
    | true =>
      have hs := h.close_balanced hfinished none
      simpa [ReturnCall.isOwn] using hs
    | false =>
      cases hnull : a.isNull with
      | true => simpa [ReturnCall.isOwn, Except.toBool] using h
      | false =>
        have hconvert := ((emitting (n := n)).convert a (some (.type s.returnType)) s h).1
        simp only [Bool.false_eq_true, ↓reduceIte]
        rw [exec_bind]
        rcases hrun : exec (convertTo s.returnType a) s with ⟨e | v, t⟩
        . rw [convertTo] at hrun
          rw [hrun] at hconvert
          exact hconvert
        . have hcursor : t.cursor = s.cursor := by
            obtain ⟨is, m, k, -, rfl, -⟩ := (Straight.convert _ _).exec_ok hrun
            rfl
          rw [convertTo] at hrun
          rw [hrun] at hconvert
          have hs := close_balanced hconvert (hcursor ▸ hfinished) (some v)
          simpa [ReturnCall.isOwn] using hs

end Balanced

end GenState

namespace Course

open Gen

variable {start s : GenState} {log : List ReturnCall}

theorem balanced (h : Course start log s) (hstart : start.Balanced 0) :
    s.Balanced (log.countP (ReturnCall.isOwn start.returnType.isVoid)) := by
  induction h with
  | refl => exact hstart
  | aside _ hsame ih => exact ih.sameCode hsame
  | emit _ hr ih => exact (GenState.Balanced.emitting.emit _ hr _ ih).1
  | newBlock label _ ih => exact (GenState.Balanced.emitting.newBlock label _ ih).1
  | returnBlock _ ih => exact (GenState.Balanced.returnBlock_keeps _ ih).1
  | move _ hmove ih =>
    have hperm := Function.instructions_perm (Function.moveAfter_perm hmove)
    exact (hperm.countP_eq _).trans ih
  | ret a hs ih =>
    have hret := ih.ret_balanced a
    rw [hs.follows.returnType] at hret
    simpa [List.countP_append, List.countP_singleton] using hret
  | directRet a hs ih =>
    have hret := ih.directRet_balanced a
    rw [hs.follows.returnType] at hret
    simpa [List.countP_append, List.countP_singleton] using hret

end Course

def GenState.Joins (s t : GenState) (branch : BlockId → Instruction) : Prop :=
  ∃ b before, (s.returnBlock = none ∨ s.returnBlock = some b) ∧ t.returnBlock = some b ∧
    t.function.code? s.cursor.block = some (before ++ [branch b])

theorem Function.Numbered.loose (first : Temp) :
    Gen.Loose (fun s => s.function.Numbered first) fun _ => True where
  same h hsame := by
    rw [hsame.function]
    exact h
  appends block r h := Numbered.build (b := ⟨_, block, none⟩) h r
  allocates block ty h := Numbered.build (b := ⟨_, block, some 0⟩) h (.alloca ty none)
  grows label h := ⟨h.addBlock label, trivial⟩
  returns _ h _ := h
  move h _ hmove := h.moveNear (Nat.le_refl 1) hmove

namespace Gen

variable {s t : GenState}

theorem code?_of_terminator {r : Request} {i : Instruction} {v : Option Value}
    (hr : r.terminator? = some i) (h : exec (emit r) s = (.ok v, t)) :
    ∃ before, t.function.code? s.cursor.block = some (before ++ [i]) := by
  obtain ⟨-, draft, code, hcheck, hcode, -, -, rfl⟩ := exec_emit.1 h
  obtain ⟨rfl, -⟩ := (Request.check_drafted _ _ _ hcheck).terminator hr
  refine ⟨code, ?_⟩
  change (Function.append _ _ _).code? _ = _
  rw [Function.code?_append, if_pos rfl, hcode]
  rfl

theorem returnBlock_of_returnBlock {b : BlockId} (h : exec returnBlock s = (.ok b, t)) :
    t.returnBlock = some b := by
  obtain ⟨hblock, rfl⟩ | ⟨-, rfl, rfl⟩ := exec_returnBlock h
  . exact hblock
  . rfl

theorem returnBlock_of_fillReturnSlot {b : BlockId} {a : Operand} {u w : GenState}
    (hblock : exec returnBlock s = (.ok b, u)) (hfill : exec (fillReturnSlot a) u = (.ok (), w)) :
    w.returnBlock = some b ∧ w.cursor = s.cursor := by
  have hcursor := (cursor_of_fillReturnSlot hfill).trans (cursor_of_returnBlock hblock)
  obtain ⟨is, n, m, rfl⟩ := extend_of_fillReturnSlot hfill
  have hb := returnBlock_of_returnBlock hblock
  exact ⟨hb, hcursor⟩

theorem exec_ret_joins {a : Operand} (hopen : s.cursor.finished = false)
    (hty : s.returnType.isVoid = false) (h : exec (ret a) s = (.ok (), t)) : s.Joins t .branch := by
  rw [exec_ret_eq] at h
  simp only [hopen, hty, Bool.false_eq_true, ↓reduceIte] at h
  simp only [exec_bind_ok] at h
  obtain ⟨b, u, hblock, _, w, hfill, _, x, hbranch, h⟩ := h
  cases h
  obtain ⟨hb, hcursor⟩ := returnBlock_of_fillReturnSlot hblock hfill
  obtain ⟨before, hcode⟩ := code?_of_terminator rfl hbranch
  rw [hcursor] at hcode
  obtain ⟨-, -, rfl⟩ := exec_terminator rfl hbranch
  exact ⟨b, before, (exec_returnBlock hblock).symm.imp And.left And.left, hb, hcode⟩

theorem exec_conditionalRet_joins {condition a : Operand} {otherwise : Option BlockId}
    (hopen : s.cursor.finished = false)
    (h : exec (conditionalRet condition a otherwise) s = (.ok (), t)) :
    ∃ c other, s.Joins t (.branchIf c · other) := by
  unfold conditionalRet at h
  rw [exec_unlessFinished_eq] at h
  simp only [hopen, Bool.false_eq_true, ↓reduceIte] at h
  simp only [exec_bind_ok] at h
  obtain ⟨c, v, hcondition, b, u, hblock, _, w, hfill, h⟩ := h
  obtain ⟨is, n, m, -, rfl, -⟩ := (Straight.convert _ _).exec_ok hcondition
  obtain ⟨hb, hcursor⟩ := returnBlock_of_fillReturnSlot hblock hfill
  have hbefore := (exec_returnBlock hblock).symm.imp And.left And.left
  cases otherwise with
  | some other =>
    obtain ⟨_, x, hbranch, h⟩ := exec_bind_ok.1 h
    cases h
    obtain ⟨before, hcode⟩ := code?_of_terminator rfl hbranch
    rw [hcursor] at hcode
    obtain ⟨-, -, rfl⟩ := exec_terminator rfl hbranch
    exact ⟨c, other, b, before, hbefore, hb, hcode⟩
  | none =>
    obtain ⟨other, y, hnew, h⟩ := exec_bind_ok.1 h
    obtain ⟨rfl, rfl⟩ := exec_newBlock.1 hnew
    obtain ⟨_, x, hbranch, h⟩ := exec_bind_ok.1 h
    cases h
    obtain ⟨before, hcode⟩ := code?_of_terminator rfl hbranch
    have hgrown : (w.grow "block").cursor = s.cursor := hcursor
    rw [hgrown] at hcode
    obtain ⟨-, -, rfl⟩ := exec_terminator rfl hbranch
    exact ⟨c, w.function.nextBlock, b, before, hbefore, hb, hcode⟩

end Gen

namespace Function

variable {f g : Function} {id : BlockId}

/--
What a single exit amounts to: the return block returns what is in the slot and nothing else, and the
slot is allocated first of all, and only once.
-/
structure ExitsAt (f : Function) (entry : BlockId) (ty : Ty) (b : BlockId) (slot : Option Value) :
    Prop where
  exit : ∃ code front, Exit ty code front slot ∧ f.code? b = some code ∧
    ∃ rest, f.code? entry = some (front ++ rest)
  once : ∀ temp ty, slot = some (.temp temp ty) → f.defined.count temp = 1

theorem ExitsAt.of_exit {entry b : BlockId} {ty : Ty} {code front rest : List Instruction}
    {slot : Option Value} (h : Exit ty code front slot) (hnodup : f.defined.Nodup)
    (hcode : f.code? b = some code) (hfront : f.code? entry = some (front ++ rest)) :
    f.ExitsAt entry ty b slot where
  exit := ⟨code, front, h, hcode, rest, hfront⟩
  once temp ty' hslot := by
    cases h with
    | void => cases hslot
    | value slot result =>
      cases hslot
      obtain ⟨block, hblock, hbody⟩ := exists_mem_of_code? hfront
      refine List.count_eq_one_of_mem hnodup ?_
      refine List.mem_filterMap.2 ⟨.define temp (.alloca ty none), ?_, rfl⟩
      refine List.mem_flatMap.2 ⟨block, hblock, ?_⟩
      simp [hbody]

theorem last?_moveAfter {tail : BlockId} (hd : f.Distinct) (htail : f.last? = some tail)
    (hmove : f.moveAfter id tail = .ok g) : g.last? = some id := by
  by_cases heq : id = tail
  . obtain ⟨-, rfl⟩ | ⟨_, _, -, hne, -⟩ := moveNear_ok hmove
    . rw [heq]
      exact htail
    . exact absurd heq hne
  . obtain ⟨front, moved, back, before, target, after, hmoved, htarget, hblocks, hrest, rfl⟩ :=
      moveNear_splits hmove heq
    have hids : ((before ++ target :: after).map Block.id).Nodup := by
      rw [← hrest]
      have hnodup := hd.nodup
      rw [hblocks] at hnodup
      exact hnodup.sublist (((List.sublist_cons_self moved back).append_left front).map Block.id)
    -- the block that is moved is not the last one, so that is still the last one among the others
    have hlast : ((before ++ target :: after).map Block.id).getLast? = some tail := by
      rw [← hrest]
      unfold last? at htail
      rw [hblocks, ← List.getLast?_map] at htail
      cases back with
      | nil => exact absurd (by simpa [hmoved] using htail) heq
      | cons c back => simpa [List.getLast?_append] using htail
    cases after with
    | nil =>
      have hinsert := insertIdx_append_length (before ++ [target]) [] moved
      simp only [List.append_nil, List.length_append, List.length_singleton] at hinsert
      simp [last?, hinsert, hmoved]
    | cons c after =>
      rw [List.map_append, List.map_cons, htarget] at hlast hids
      have hmem : tail ∈ (c :: after).map Block.id := by
        apply List.mem_of_getLast?
        simpa [List.getLast?_append] using hlast
      exact absurd hmem (List.nodup_cons.1 (List.nodup_append.1 hids).2.1).1

theorem instructions_removeEmpty (h : f.code? id = some []) :
    (f.removeBlock id).instructions.Perm f.instructions := by
  obtain ⟨b, hb, hbody⟩ := Option.map_eq_some_iff.1 h
  have hperm := (withoutBlock_perm hb).flatMap_right Block.body
  rw [List.flatMap_cons, hbody] at hperm
  exact hperm

end Function

namespace GenState

variable {s : GenState} {g : Function} {terminated : Bool}

theorem instructions_of_tidy (h : s.tidy = .ok (g, terminated)) :
    g.instructions.Perm s.function.instructions := by
  obtain ⟨f, hf, hmoved⟩ := trimmed_of_tidy h
  have hperm : f.instructions.Perm s.function.instructions := by
    cases hf with
    | finished | unfinished => exact .refl _
    | dropped _ _ hempty => exact Function.instructions_removeEmpty hempty
  rcases hmoved with ⟨rfl, -⟩ | ⟨block, tail, -, -, hmove⟩
  . exact hperm
  . exact (Function.instructions_perm (Function.moveAfter_perm hmove)).trans hperm

theorem code?_kept_of_tidy {id : BlockId} {code : List Instruction} (hd : s.function.Distinct)
    (hcode : s.function.code? id = some code) (hkept : code = [] → id = s.entry)
    (h : s.tidy = .ok (g, terminated)) : g.code? id = some code := by
  obtain ⟨f, hf, hmoved⟩ := trimmed_of_tidy h
  have hf' : f.code? id = some code := by
    cases hf with
    | finished | unfinished => exact hcode
    | dropped _ hne hempty =>
      rw [Function.code?_removeBlock hd, if_neg, hcode]
      rintro rfl
      cases hcode.symm.trans hempty
      exact hne (hkept rfl)
  rcases hmoved with ⟨rfl, -⟩ | ⟨block, tail, -, -, hmove⟩
  . exact hf'
  . rw [Function.code?_moveAfter (hf.distinct hd) hmove]
    exact hf'

theorem last?_of_tidy {b : BlockId} {code : List Instruction} (hd : s.function.Distinct)
    (hb : s.returnBlock = some b) (hcode : s.function.code? b = some code) (hends : ends code = true)
    (h : s.tidy = .ok (g, terminated)) : g.last? = some b := by
  obtain ⟨f, hf, hmoved⟩ := trimmed_of_tidy h
  rcases hmoved with ⟨rfl, hnone | hempty⟩ | ⟨block, tail, hblock, htail, hmove⟩
  . cases hb.symm.trans hnone
  . -- the return block is not empty, so it is not the block that was dropped
    have hkept := code?_kept_of_tidy hd hcode (by rintro rfl; cases hends) h
    have hblocks : g.blocks = [] := by simpa [Function.last?] using hempty
    simp [Function.code?, Function.block?, hblocks] at hkept
  . cases hb.symm.trans hblock
    exact Function.last?_moveAfter (hf.distinct hd) htail hmove

end GenState

namespace Library

variable {lib lib' : Library} {name : String} {f : FunctionRef} {code : Function}
  {log : List ReturnCall} {s : GenState} {b : BlockId}

theorem course_exiting (hcode : code.isDeclaration) (h : Course (lib.startState f code) log s) :
    s.Exiting := by
  refine h.invariant GenState.Exiting.growing GenState.Exiting.returnBlock_keeps ?_
  refine { startState_formed hcode with present := ?_, exit := .inl rfl }
  simp [startState, Function.addBlock]

theorem course_numbered (hcode : code.isDeclaration) (h : Course (lib.startState f code) log s) :
    s.function.Numbered 0 := by
  have hloose := Function.Numbered.loose 0
  refine h.invariant hloose.toGrowing hloose.returnBlock_keeps ?_
  exact (Function.Numbered.of_isDeclaration hcode (Nat.zero_le _)).addBlock _

theorem course_balanced (hcode : code.isDeclaration) (h : Course (lib.startState f code) log s) :
    s.Balanced (log.countP (ReturnCall.isOwn f.signature.result.isVoid)) := by
  refine h.balanced ?_
  have hblocks : code.blocks = [] := List.isEmpty_iff.1 hcode
  change Function.returns (code.addBlock "entry").2 = 0
  unfold Function.returns
  rw [Function.instructions_addBlock]
  simp [Function.instructions, hblocks]

theorem course_leaves (hcode : code.isDeclaration) (h : Course (lib.startState f code) log s)
    (hb : s.returnBlock = some b) : ∃ code front slot,
      s.Leaves b code front slot ∧ Exit f.signature.result code front slot := by
  have hexit := (course_exiting hcode h).exit
  rw [h.follows.returnType] at hexit
  obtain hnone | ⟨b', code, front, slot, hleaves, hexit⟩ := hexit
  . cases hb.symm.trans hnone
  . cases hb.symm.trans hleaves.block
    exact ⟨code, front, slot, hleaves, hexit⟩

theorem course_exitsAt (hcode : code.isDeclaration) (h : Course (lib.startState f code) log s)
    (hb : s.returnBlock = some b) :
    s.function.ExitsAt code.nextBlock f.signature.result b s.returnSlot := by
  obtain ⟨_, _, slot, hleaves, hexit⟩ := course_leaves hcode h hb
  obtain ⟨rest, hfront⟩ := hleaves.front
  rw [h.follows.entry] at hfront
  rw [hleaves.slot]
  exact .of_exit hexit (course_numbered hcode h).nodup hleaves.code hfront

theorem tidy_exitsAt {g : Function} {terminated : Bool} (hcode : code.isDeclaration)
    (h : Course (lib.startState f code) log s) (hb : s.returnBlock = some b)
    (htidy : s.tidy = .ok (g, terminated)) :
    g.last? = some b ∧ g.ExitsAt code.nextBlock f.signature.result b s.returnSlot := by
  obtain ⟨body, front, slot, hleaves, hexit⟩ := course_leaves hcode h hb
  have hends := hexit.ends
  refine ⟨GenState.last?_of_tidy hleaves.distinct hb hleaves.code hends htidy, ?_⟩
  obtain ⟨rest, hfront⟩ := hleaves.front
  have hbody := GenState.code?_kept_of_tidy hleaves.distinct hleaves.code
    (by rintro rfl; cases hends) htidy
  have hfront' := GenState.code?_kept_of_tidy hleaves.distinct hfront (fun _ => rfl) htidy
  rw [h.follows.entry] at hfront'
  rw [hleaves.slot]
  have hdefined := (GenState.instructions_of_tidy htidy).filterMap Instruction.result?
  exact .of_exit hexit (hdefined.nodup_iff.2 (course_numbered hcode h).nodup) hbody hfront'

theorem returns_completed (hcode : lib.module.function? f.symbol = some code)
    (hdeclared : code.isDeclaration) (h : Course (lib.startState f code) log s)
    (hcomplete : complete f s = (.ok (), lib')) :
    ∃ built terminated, lib'.module.function? f.symbol = some built ∧ s.tidy = .ok (built, terminated) ∧
      built.returns = log.countP (ReturnCall.isOwn f.signature.result.isVoid) +
        if s.returnBlock.isSome then 1 else 0 := by
  obtain ⟨g, hmodule, ⟨⟨terminated, htidy⟩, -⟩ | ⟨-, e, herror⟩⟩ := complete_cases hcomplete
  . refine ⟨g, terminated, function?_put hcode h (GenState.name_of_tidy htidy) hmodule, htidy, ?_⟩
    have hreturns := course_balanced hdeclared h
    exact ((GenState.instructions_of_tidy htidy).countP_eq _).trans hreturns
  . cases herror

theorem countP_isOwn_succeeded (void : Bool) (log : List ReturnCall) :
    (log.filter (·.succeeded)).countP (ReturnCall.isOwn void) = log.countP (ReturnCall.isOwn void) := by
  rw [List.countP_filter]
  refine List.countP_congr fun call _ => ?_
  cases hsucceeded : call.succeeded <;> simp [ReturnCall.isOwn, hsucceeded]

/--
A function that is declared and has no body yet gets a single exit. Once there is a return block, on
whatever course the building has taken to that point, it returns what is in the return slot and nothing
else, later steps leave it as it is, and it is the last block of what is built. All that is returned
through it at a cursor that is not finished branches to it, and beside the instruction there the
function has one return instruction for each return that took effect with one of its own. For a script
these are the ones that its trace tells of.
-/
theorem build_exits_once (hf : lib.function? name = some f) (hnew : f.symbol ∉ lib.built)
    (hcode : lib.module.function? f.symbol = some code) (hdeclared : code.isDeclaration) :
    (∀ log s, Course (lib.startState f code) log s →
      (s.cursor.finished = false →
        (f.signature.result.isVoid = false → ∀ a t,
          Gen.exec (Gen.ret a) s = (.ok (), t) → s.Joins t .branch) ∧
        ∀ condition a otherwise t,
          Gen.exec (Gen.conditionalRet condition a otherwise) s = (.ok (), t) →
          ∃ c other, s.Joins t (.branchIf c · other)) ∧
      ∀ b, s.returnBlock = some b →
        s.function.ExitsAt code.nextBlock f.signature.result b s.returnSlot ∧
        (∀ later t, Course s later t → t.returnBlock = some b ∧ t.returnSlot = s.returnSlot ∧
          t.function.code? b = s.function.code? b) ∧
        ∀ lib', complete f s = (.ok (), lib') →
          ∃ built, lib'.module.function? f.symbol = some built ∧ built.last? = some b ∧
            built.ExitsAt code.nextBlock f.signature.result b s.returnSlot ∧
            built.returns = 1 + log.countP (ReturnCall.isOwn f.signature.result.isVoid)) ∧
    ∀ body, ∃ log s, s = (Gen.exec (Gen.script body) (lib.startState f code)).2 ∧
      Course (lib.startState f code) log s ∧
      log.filter (·.succeeded) = s.trace.filterMap Event.returnCall? ∧
      ∀ lib' trace, lib.buildTraced name (Gen.script body) = ((.ok (), lib'), trace) →
        trace = s.trace ∧ complete f s = (.ok (), lib') ∧
        ∃ built, lib'.module.function? f.symbol = some built ∧
          built.returns = (trace.filterMap Event.returnCall?).countP
            (ReturnCall.isOwn f.signature.result.isVoid) + if s.returnBlock.isSome then 1 else 0 := by
  refine ⟨?_, ?_⟩
  . intro log s h
    refine ⟨?_, ?_⟩
    . intro hopen
      refine ⟨?_, fun _ _ _ _ => Gen.exec_conditionalRet_joins hopen⟩
      intro hvoid a t
      exact Gen.exec_ret_joins hopen (h.follows.returnType ▸ hvoid)
    . intro b hb
      refine ⟨course_exitsAt hdeclared h hb, ?_, ?_⟩
      . intro later t hlater
        obtain ⟨body, front, slot, hleaves, hexit⟩ := course_leaves hdeclared h hb
        have ht := hlater.invariant (GenState.Leaves.growing hexit.ends)
          GenState.Leaves.returnBlock_keeps hleaves
        exact ⟨ht.block, ht.slot.trans hleaves.slot.symm, ht.code.trans hleaves.code.symm⟩
      . intro lib' hcomplete
        obtain ⟨g, terminated, hput, htidy, hreturns⟩ := returns_completed hcode hdeclared h hcomplete
        obtain ⟨hlast, hexits⟩ := tidy_exitsAt hdeclared h hb htidy
        refine ⟨g, hput, hlast, hexits, ?_⟩
        rw [hreturns, hb, Nat.add_comm]
        rfl
  . intro body
    obtain ⟨log, h, hlog⟩ := Course.of_script (lib.startState f code) body rfl
    refine ⟨log, _, rfl, h, hlog, ?_⟩
    intro lib' trace hbuild
    obtain ⟨s, -, -, hexec, rfl, -⟩ := buildTraced_ok hf hnew hcode hbuild
    have hcomplete : complete f s = (.ok (), lib') := by
      unfold buildTraced at hbuild
      simp only [hf, if_neg hnew, hcode, hexec] at hbuild
      exact (Prod.mk.inj hbuild).1
    rw [hexec] at h hlog ⊢
    obtain ⟨g, -, hput, -, hreturns⟩ := returns_completed hcode hdeclared h hcomplete
    refine ⟨rfl, hcomplete, g, hput, ?_⟩
    change log.filter _ = s.trace.filterMap Event.returnCall? at hlog
    rw [hreturns, ← hlog, countP_isOwn_succeeded]

theorem answer_exits_once : ∃ code s lib' built,
    answers.module.function? "m.answer" = some code ∧
      Course (answers.startState answer code) [⟨true, false, true⟩] s ∧
      complete answer s = (.ok (), lib') ∧ lib'.module.function? "m.answer" = some built ∧
      built.last? = some 1 ∧ built.ExitsAt 0 .i32 1 s.returnSlot ∧ built.returns = 2 := by
  -- the return block is there, but the value is returned on the spot
  have hstart : Course (answers.startState answer
    { name := "m.answer", result := .i32, params := [], variadic := false }) [] _ := .refl
  have hcourse := hstart.returnBlock.directRet (.int 2)
  obtain ⟨-, hall⟩ := (build_exits_once answers_function? List.not_mem_nil rfl rfl).1 _ _ hcourse
  obtain ⟨-, -, hbuilt⟩ := hall 1 rfl
  obtain ⟨built, hput, hlast, hexits, hreturns⟩ := hbuilt _ rfl
  exact ⟨_, _, _, built, rfl, hcourse, rfl, hput, hlast, hexits, hreturns⟩

theorem idle_return_uncounted : ∃ code log s lib' built,
    answers.module.function? "m.answer" = some code ∧ code.isDeclaration ∧
      Course (answers.startState answer code) log s ∧ s.returnBlock ≠ none ∧
      complete answer s = (.ok (), lib') ∧ lib'.module.function? "m.answer" = some built ∧
      built.returns ≠ 1 + log.countP fun call => call.succeeded && call.direct := by
  have hstart : Course (answers.startState answer
    { name := "m.answer", result := .i32, params := [], variadic := false }) [] _ := .refl
  have hcourse := (hstart.ret (.int 1)).directRet (.int 2)
  refine ⟨_, _, _, _, _, rfl, rfl, hcourse, ?_, rfl, rfl, ?_⟩
  . decide
  . decide

end Library

end ScriptedIR
