import ScriptedIR.Proofs.Completion
import ScriptedIR.Proofs.Edits

/-!
The entry of a function. It has no mark of its own: a run starts at the first block. Scripts put blocks
in front of it only by giving it as an exit, which moves it behind another block. A script that does
not do this gets a function that starts at the block where the script began.
-/

namespace ScriptedIR

structure GenState.Headed (lib : Library) (code : Function) (s : GenState) : Prop where
  entry : s.entry = code.nextBlock
  first : s.function.entry? = some code.nextBlock
  below : code.nextBlock < s.function.nextBlock
  returnBlock : ∀ {block}, s.returnBlock = some block → block ≠ code.nextBlock
  name : s.function.name = code.name
  functions : s.library.module.functions = lib.module.functions

namespace GenState

variable {lib : Library} {code : Function} {s t : GenState}

theorem Headed.sameCode (h : s.Headed lib code) (hsame : s.SameCode t) : t.Headed lib code where
  entry := hsame.entry.trans h.entry
  first := by
    rw [hsame.function]
    exact h.first
  below := by
    rw [hsame.function]
    exact h.below
  returnBlock hblock := h.returnBlock (hsame.returnBlock.symm.trans hblock)
  name := by
    rw [hsame.function]
    exact h.name
  functions := hsame.functions.trans h.functions

theorem Headed.emitAt (h : s.Headed lib code) (block : BlockId) (position : Option Nat) (r : Request) :
    (Gen.exec (Gen.emitAt block position r) s).2.Headed lib code := by
  have hfirst := congrArg List.head? (Builder.ids_build ⟨s.function, block, position⟩ r)
  rw [List.head?_map, List.head?_map] at hfirst
  obtain ⟨hnext, hheader⟩ := Builder.build_static ⟨s.function, block, position⟩ r
  have hname := congrArg Function.name hheader
  exact {
    entry := h.entry
    first := hfirst.trans h.first
    below := Nat.lt_of_lt_of_eq h.below hnext.symm
    returnBlock := h.returnBlock
    name := hname.trans h.name
    functions := h.functions }

theorem Headed.grow (h : s.Headed lib code) (label : String) : (s.grow label).Headed lib code where
  entry := h.entry
  first := Function.entry?_addBlock h.first
  below := Nat.lt_succ_of_lt h.below
  returnBlock := h.returnBlock
  name := h.name
  functions := h.functions

theorem Headed.move {f : Function} {block after : BlockId} (h : s.Headed lib code)
    (hblock : block ≠ code.nextBlock) (hmove : s.function.moveAfter block after = .ok f) :
    Headed lib code { s with function := f } := by
  have hstatic := Function.moveAfter_static hmove
  exact {
    entry := h.entry
    first := Function.entry?_moveAfter hmove h.first hblock
    below := by
      rw [hstatic]
      exact h.below
    returnBlock := h.returnBlock
    name := (congrArg Function.name hstatic).trans h.name
    functions := h.functions }

theorem headed_loose (lib : Library) (code : Function) :
    Gen.Loose (Headed lib code) (· ≠ code.nextBlock) where
  same := Headed.sameCode
  appends block r h := h.emitAt block none r
  allocates block ty h := h.emitAt block (some 0) (.alloca ty none)
  grows label h := ⟨h.grow label, Nat.ne_of_gt h.below⟩
  returns _ h hblock := { h with returnBlock := by rintro _ ⟨⟩; exact hblock }
  move := Headed.move

theorem headed_stable (lib : Library) (code : Function) :
    Gen.Stable (Headed lib code) (· ≠ code.nextBlock) :=
  (headed_loose lib code).stable

theorem Headed.tidy {built : Function} {terminated : Bool} (h : s.Headed lib code)
    (htidy : s.tidy = .ok (built, terminated)) : built.entry? = some code.nextBlock := by
  rw [← h.entry]
  apply entry_of_tidy htidy
  . rw [h.entry]
    exact h.first
  . intro block hblock
    rw [h.entry]
    exact h.returnBlock hblock

end GenState

theorem Gen.exec_bind_congr {x : Gen α} {f g : α → Gen β} {s : GenState}
    (h : ∀ a t, exec x s = (.ok a, t) → exec (f a) t = exec (g a) t) :
    exec (x >>= f) s = exec (x >>= g) s := by
  rw [exec_bind, exec_bind]
  cases hexec : exec x s with
  | mk result t =>
    cases result with
    | error e => rfl
    | ok a => exact h a t hexec

theorem Gen.exec_bind_congr_left {x y : Gen α} {f : α → Gen β} {s : GenState}
    (h : exec x s = exec y s) : exec (x >>= f) s = exec (y >>= f) s := by
  rw [exec_bind, exec_bind, h]

def Gen.asideFromEntry (ref : BlockRef) : Gen BlockId := do
  let id ← block ref
  if id = (← get).entry then throw (.argument .noSuchBlock)
  return id

theorem Gen.exec_asideFromEntry {ref : BlockRef} {s : GenState}
    (h : ∀ id t, exec (block ref) s = (.ok id, t) → id ≠ t.entry) :
    exec (asideFromEntry ref) s = exec (block ref) s := by
  unfold asideFromEntry
  rw [exec_bind]
  cases hexec : exec (block ref) s with
  | mk result t =>
    cases result with
    | error e => rfl
    | ok id =>
      change exec (if id = t.entry then _ else _) t = _
      rw [if_neg (h id t hexec)]
      rfl

theorem Gen.asideFromEntry_keeps (lib : Library) (code : Function) (ref : BlockRef) :
    Keeps (GenState.Headed lib code) (asideFromEntry ref) (· ≠ code.nextBlock) := by
  refine (block_keeps (GenState.headed_stable lib code) ref).bind fun id _ => ?_
  refine Keeps.get.bind fun s hs => ?_
  by_cases hid : id = s.entry
  . rw [if_pos hid]
    -- nothing is given here, so anything holds of it
    exact (Keeps.throw (Q := fun _ => False) _).bind fun _ h => h.elim
  . rw [if_neg hid]
    exact .pure (hs.entry ▸ hid)

namespace Library

variable {lib lib' : Library} {name : String} {f : FunctionRef} {code : Function}

theorem startState_headed (hcode : code.isDeclaration) :
    (lib.startState f code).Headed lib code where
  entry := rfl
  first := by
    have hblocks : code.blocks = [] := List.isEmpty_iff.1 hcode
    simp [startState, Function.entry?, Function.addBlock, hblocks]
  below := Nat.lt_succ_self _
  returnBlock h := by cases h
  name := rfl
  functions := rfl

/--
The first block of a function is the one that its building began with, unless the script gives just that
block as an exit: where it makes no difference to a script that the entry is refused as an exit, what it
builds starts at the entry.
-/
theorem build_starts_at_entry {body : List Stmt} {trace : List Event}
    (hf : lib.function? name = some f) (hnew : f.symbol ∉ lib.built)
    (hcode : lib.module.function? f.symbol = some code) (hdeclared : code.isDeclaration)
    (hbuild : lib.buildTraced name (Gen.script body) = ((.ok (), lib'), trace))
    (hexits : Gen.exec (Gen.scriptVia Gen.asideFromEntry body) (lib.startState f code) =
      Gen.exec (Gen.script body) (lib.startState f code)) :
    ∃ built, lib'.module.function? f.symbol = some built ∧
      built.entry? = some (lib.startState f code).entry := by
  obtain ⟨s, built, terminated, hexec, -, htidy, hmodule, -⟩ := buildTraced_ok hf hnew hcode hbuild
  -- the script that refuses the entry keeps it first, and it is the same script here
  have hs : s.Headed lib code := by
    have hkept := (Gen.scriptVia_keeps (GenState.headed_stable lib code)
      (Gen.asideFromEntry_keeps lib code) body (lib.startState f code) (startState_headed hdeclared)).1
    rw [hexits, hexec] at hkept
    exact hkept
  exact ⟨built, function?_completed hcode hs.name hs.functions htidy hmodule, hs.tidy htidy⟩

def guarded : List Stmt := [
  .cond (.operand (.bool true)) (.body [.ret (.operand (.int 1))]) none (some .returning)]

theorem scriptVia_guarded (find : BlockRef → Gen BlockId) :
    Gen.scriptVia find guarded =
      Gen.condVia find (.operand (.bool true))
        (.body (do Gen.noting false (Gen.ret (← Gen.eval (.operand (.int 1)))))) none
        (some .returning) := by
  have hbody (expand) : Gen.runStmtsVia find expand [.ret (.operand (.int 1))] =
      (do Gen.noting false (Gen.ret (← Gen.eval (.operand (.int 1))))) := by
    change ((do Gen.noting false (Gen.ret (← Gen.eval (.operand (.int 1))))) >>= fun _ => pure ()) = _
    simp
  rw [Gen.scriptVia, guarded]
  generalize Macro.expandVia find Macro.maxDepth = expand
  change (Gen.runStmtVia find expand _ >>= fun _ => pure ()) = _
  rw [Gen.runStmtVia_cond]
  simp [Arm.mapBody, hbody]

theorem guarded_starts_at_entry : ∃ lib' trace built,
    answers.buildTraced "answer" (Gen.script guarded) = ((.ok (), lib'), trace) ∧
      lib'.module.function? "m.answer" = some built ∧ built.entry? = some 0 := by
  have hok : (answers.buildTraced "answer" (Gen.script guarded)).1.1.toBool = true := by
    decide +kernel
  have hfunction : answers.function? "answer" = some answer := by
    simp [answers, function?]
  obtain ⟨code, hcode, hdeclared, hfirst⟩ : ∃ code, answers.module.function? "m.answer" = some code ∧
      code.isDeclaration = true ∧ code.nextBlock = 0 := ⟨_, rfl, rfl, rfl⟩
  have hexits : Gen.exec (Gen.scriptVia Gen.asideFromEntry guarded) (answers.startState answer code) =
      Gen.exec (Gen.script guarded) (answers.startState answer code) := by
    rw [← Gen.scriptVia_block, scriptVia_guarded, scriptVia_guarded]
    apply Gen.exec_bind_congr
    rintro _ _ ⟨⟩
    apply Gen.exec_bind_congr
    rintro _ _ ⟨⟩
    apply Gen.exec_bind_congr
    rintro _ _ ⟨⟩
    apply Gen.exec_bind_congr_left
    apply Gen.exec_bind_congr_left
    apply Gen.exec_asideFromEntry
    intro id t hblock
    rcases Gen.exec_returnBlock hblock with ⟨hnone, -⟩ | ⟨-, rfl, rfl⟩
    . cases hnone
    . exact Nat.succ_ne_self code.nextBlock
  cases hbuild : answers.buildTraced "answer" (Gen.script guarded) with
  | mk built trace =>
    obtain ⟨result, lib'⟩ := built
    rw [hbuild] at hok
    cases result with
    | error e => cases hok
    | ok _ =>
      obtain ⟨built, hbuilt, hentry⟩ := build_starts_at_entry hfunction List.not_mem_nil hcode hdeclared
        hbuild hexits
      exact ⟨lib', trace, built, rfl, hbuilt, hfirst ▸ hentry⟩

def restarting : List Stmt := [
  .cond (.operand (.bool true)) (.body [.ret (.operand (.int 1))]) none (some .start)]

/--
The entry given as an exit ends up behind the side of the conditional, and the function starts there.
-/
theorem restarting_displaces_entry : ∃ code lib' trace built,
    answers.module.function? "m.answer" = some code ∧ code.isDeclaration = true ∧
      answers.buildTraced "answer" (Gen.script restarting) = ((.ok (), lib'), trace) ∧
      lib'.module.function? "m.answer" = some built ∧
      built.entry? ≠ some (answers.startState answer code).entry := by
  have hok : (answers.buildTraced "answer" (Gen.script restarting)).1.1.toBool = true := by
    decide +kernel
  have hentry : ((answers.buildTraced "answer" (Gen.script restarting)).1.2.module.function?
      "m.answer").bind Function.entry? = some 1 := by
    decide +kernel
  cases hbuild : answers.buildTraced "answer" (Gen.script restarting) with
  | mk built trace =>
    obtain ⟨result, lib'⟩ := built
    rw [hbuild] at hok hentry
    cases result with
    | error e => cases hok
    | ok _ =>
      obtain ⟨built, hbuilt, hfirst⟩ := Option.bind_eq_some_iff.1 hentry
      refine ⟨_, lib', trace, built, rfl, rfl, rfl, hbuilt, ?_⟩
      rw [hfirst]
      decide

end Library

end ScriptedIR
