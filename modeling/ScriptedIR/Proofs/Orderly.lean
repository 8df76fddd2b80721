import ScriptedIR.Proofs.Course

/-!
Order in generated code. Whatever a function is built with, forged blocks and failures included,
control passes at the ends of blocks only and to blocks of the function only, at every point of the
building and in the function that is built. So verification finds no other fault in it than blocks that
are not complete.
-/

namespace ScriptedIR

namespace Function

variable {f g : Function} {id : BlockId}

def Orderly (f : Function) : Prop :=
  ∀ b ∈ f.blocks, (∀ i ∈ b.body.dropLast, i.isTerminator = false) ∧
    ∀ i ∈ b.body, ∀ target ∈ i.successors, f.block? target ≠ none

def AtMostOpen (f : Function) : Prop :=
  ∀ e, f.verify = .error e → ∃ b ∈ f.blocks,
    (b.body = [] ∧ e = .verification f.name b.id .empty) ∨
    (b.body ≠ [] ∧ b.isTerminated = false ∧ e = .verification f.name b.id .unterminated)

theorem Sound.orderly (hs : f.Sound) (hd : f.Distinct) : f.Orderly := by
  intro b hb
  have hcode := hd.code?_of_mem hb
  refine ⟨hs.early hcode, ?_⟩
  intro i hi target htarget
  rw [ne_eq, ← code?_eq_none_iff]
  exact hs.targets hcode i hi target htarget

theorem Sound.takeTemps (hs : f.Sound) {n : Temp} (hle : f.nextTemp ≤ n) :
    Sound { f with nextTemp := n } where
  early := hs.early
  targets := hs.targets
  temps hcode i hi temp htemp := Nat.lt_of_lt_of_le (hs.temps hcode i hi temp htemp) hle

theorem Orderly.complete (h : f.Orderly) {b : Block} (hb : b ∈ f.blocks)
    (hends : b.isTerminated = true) : f.Complete b := by
  obtain ⟨hearly, htargets⟩ := h b hb
  rw [Block.isTerminated_eq] at hends
  rcases List.eq_nil_or_concat b.body with hbody | ⟨body, last, hbody⟩
  . simp [hbody] at hends
  . rw [List.concat_eq_append] at hbody
    rw [hbody] at hends hearly htargets
    refine ⟨body, last, hbody, by simpa using hends, by simpa using hearly, ?_⟩
    exact htargets last (by simp)

theorem Orderly.atMostOpen (h : f.Orderly) : f.AtMostOpen := by
  intro e he
  obtain ⟨b, hb, hfault⟩ := exists_of_forM_eq_error he
  refine ⟨b, hb, ?_⟩
  cases hends : b.isTerminated with
  | true =>
    rw [fault?_eq_none_iff.2 (h.complete hb hends)] at hfault
    cases hfault
  | false =>
    rw [Block.isTerminated_eq] at hends
    unfold Block.fault? at hfault
    cases hlast : b.body.getLast? with
    | none =>
      rw [hlast] at hfault
      cases hfault
      exact .inl ⟨List.getLast?_eq_none_iff.1 hlast, rfl⟩
    | some last =>
      rw [hlast] at hfault hends
      simp only [Option.any_some] at hends
      simp only [hends] at hfault
      cases hfault
      refine .inr ⟨?_, rfl, rfl⟩
      rintro hnil
      simp [hnil] at hlast

end Function

namespace GenState

variable {s t : GenState}

structure Formed (s : GenState) : Prop where
  distinct : s.function.Distinct
  sound : s.function.Sound

namespace Formed

theorem takeTemps (h : s.Formed) {n : Temp} (hle : s.function.nextTemp ≤ n) :
    Formed { s with function := { s.function with nextTemp := n } } :=
  ⟨⟨h.distinct.nodup, h.distinct.below⟩, h.sound.takeTemps hle⟩

theorem append (h : s.Formed) (block : BlockId) (r : Request) :
    (Gen.exec (Gen.emitAt block none r) s).2.Formed := by
  rcases hrun : Gen.exec (Gen.emitAt block none r) s with ⟨e | v, t⟩
  . obtain ⟨n, hle, rfl⟩ := Gen.exec_emitAt_error hrun
    exact h.takeTemps hle
  . obtain ⟨draft, code, hcheck, hcode, hends, -, rfl⟩ := Gen.exec_emitAt.1 hrun
    refine ⟨⟨h.distinct.append.nodup, h.distinct.append.below⟩, ?_⟩
    apply h.sound.append (Request.check_drafted _ _ _ hcheck).fits
    intro code' hcode' _
    cases hcode.symm.trans hcode'
    exact hends

theorem allocate (h : s.Formed) (block : BlockId) (ty : Ty) :
    (Gen.exec (Gen.emitAt block (some 0) (.alloca ty none)) s).2.Formed := by
  rcases hrun : Gen.exec (Gen.emitAt block (some 0) (.alloca ty none)) s with ⟨e | v, t⟩
  . obtain ⟨n, hle, rfl⟩ := Gen.exec_emitAt_error hrun
    exact h.takeTemps hle
  . obtain ⟨draft, hcheck, -, rfl⟩ := Gen.exec_emitAt_start hrun
    have hdraft := Request.check_drafted _ _ _ hcheck
    refine ⟨⟨h.distinct.prepend.nodup, h.distinct.prepend.below⟩, ?_⟩
    apply h.sound.prepend
    . simp [hdraft.isTerminator_instruction, Request.isPlain]
    . exact draft.le_nextTemp _
    . exact hdraft.fits.temps _ (List.mem_singleton_self _)

theorem loose : Gen.Loose Formed fun _ => True where
  same h hsame := by
    constructor
    . rw [hsame.function]
      exact h.distinct
    . rw [hsame.function]
      exact h.sound
  appends block r h := h.append block r
  allocates block ty h := h.allocate block ty
  grows _ h := ⟨⟨h.distinct.addBlock, h.sound.addBlock h.distinct⟩, trivial⟩
  returns _ h _ := ⟨h.distinct, h.sound⟩
  move h _ hmove := ⟨h.distinct.moveAfter hmove, h.sound.moveAfter h.distinct hmove⟩

theorem tidy (h : s.Formed) {g : Function} {terminated : Bool} (htidy : s.tidy = .ok (g, terminated)) :
    g.Distinct ∧ g.Sound := by
  obtain ⟨f, hf, hmoved⟩ := trimmed_of_tidy htidy
  have hd := hf.distinct h.distinct
  have hs := hf.sound h.distinct h.sound
  rcases hmoved with ⟨rfl, -⟩ | ⟨block, tail, -, -, hmove⟩
  . exact ⟨hd, hs⟩
  . exact ⟨hd.moveAfter hmove, hs.moveAfter hd hmove⟩

end Formed

end GenState

namespace Library

variable {lib lib' : Library} {name : String} {f : FunctionRef} {code : Function}
  {log : List ReturnCall} {s : GenState}

theorem startState_formed (hcode : code.isDeclaration) : (lib.startState f code).Formed := by
  have hd := distinct_of_isDeclaration hcode
  exact ⟨hd.addBlock, (sound_of_isDeclaration hcode).addBlock hd⟩

theorem course_formed (hcode : code.isDeclaration) (h : Course (lib.startState f code) log s) :
    s.Formed :=
  h.invariant GenState.Formed.loose.toGrowing GenState.Formed.loose.returnBlock_keeps
    (startState_formed hcode)

theorem function?_put {g : Function} (hcode : lib.module.function? f.symbol = some code)
    (h : Course (lib.startState f code) log s) (hg : g.name = s.function.name)
    (hmodule : lib'.module = s.library.module.modifyFunction f.symbol fun _ => g) :
    lib'.module.function? f.symbol = some g := by
  have hname : s.function.name = code.name := h.follows.name
  rw [hmodule]
  apply Module.function?_modifyFunction (f := code)
  . unfold Module.function?
    rw [h.follows.functions]
    exact hcode
  . rw [hg, hname]
    simpa using List.find?_some hcode

theorem complete_cases {result : Except ScriptError Unit} (h : complete f s = (result, lib')) :
    ∃ g, lib'.module = (s.library.module.modifyFunction f.symbol fun _ => g) ∧
      ((∃ terminated, s.tidy = .ok (g, terminated)) ∧ result = .ok () ∨
        g = s.function ∧ ∃ e, result = .error e) := by
  unfold complete at h
  dsimp only at h
  split at h
  . next e _ =>
    cases h
    exact ⟨_, rfl, .inr ⟨rfl, _, rfl⟩⟩
  . next g terminated htidy =>
    cases h
    refine ⟨g, ?_, .inl ⟨⟨terminated, htidy⟩, rfl⟩⟩
    cases terminated <;> rfl

theorem complete_orderly {result : Except ScriptError Unit}
    (hcode : lib.module.function? f.symbol = some code) (hdeclared : code.isDeclaration)
    (h : Course (lib.startState f code) log s) (hcomplete : complete f s = (result, lib')) :
    ∃ built, lib'.module.function? f.symbol = some built ∧ built.Orderly := by
  have hs := course_formed hdeclared h
  obtain ⟨g, hmodule, ⟨⟨terminated, htidy⟩, -⟩ | ⟨rfl, -⟩⟩ := complete_cases hcomplete
  . obtain ⟨hd, hsound⟩ := hs.tidy htidy
    exact ⟨g, function?_put hcode h (GenState.name_of_tidy htidy) hmodule, hsound.orderly hd⟩
  . exact ⟨_, function?_put hcode h rfl hmodule, hs.sound.orderly hs.distinct⟩

/--
The code of a function that is declared and has no body yet is in order from the start of its building
on: on every course that the building can take, whatever is made of the function at the end of it, and
whatever becomes of the building by a script.
-/
theorem build_orderly (hf : lib.function? name = some f) (hnew : f.symbol ∉ lib.built)
    (hcode : lib.module.function? f.symbol = some code) (hdeclared : code.isDeclaration) :
    (∀ log s, Course (lib.startState f code) log s → s.function.Orderly ∧
      ∀ result lib', complete f s = (result, lib') →
        ∃ built, lib'.module.function? f.symbol = some built ∧ built.Orderly ∧ built.AtMostOpen) ∧
    ∀ body,
      (∃ log, Course (lib.startState f code) log
        (Gen.exec (Gen.script body) (lib.startState f code)).2) ∧
      ∀ result lib' trace, lib.buildTraced name (Gen.script body) = ((result, lib'), trace) →
        ∃ built, lib'.module.function? f.symbol = some built ∧ built.Orderly ∧ built.AtMostOpen := by
  refine ⟨?_, ?_⟩
  . intro log s h
    have hs := course_formed hdeclared h
    refine ⟨hs.sound.orderly hs.distinct, ?_⟩
    intro result lib' hcomplete
    obtain ⟨built, hbuilt, horderly⟩ := complete_orderly hcode hdeclared h hcomplete
    exact ⟨built, hbuilt, horderly, horderly.atMostOpen⟩
  . intro body
    obtain ⟨log, h, -⟩ := Course.of_script (lib.startState f code) body rfl
    refine ⟨⟨log, h⟩, ?_⟩
    intro result lib' trace hbuild
    suffices hsome : ∃ built, lib'.module.function? f.symbol = some built ∧ built.Orderly by
      obtain ⟨built, hbuilt, horderly⟩ := hsome
      exact ⟨built, hbuilt, horderly, horderly.atMostOpen⟩
    unfold buildTraced at hbuild
    simp only [hf, if_neg hnew, hcode] at hbuild
    split at hbuild
    . next s hexec =>
      rw [hexec] at h
      obtain ⟨hcomplete, -⟩ := Prod.mk.inj hbuild
      exact complete_orderly hcode hdeclared h hcomplete
    . next e s hexec =>
      -- a script that fails leaves a declaration, which has no blocks
      rw [hexec] at h
      cases hbuild
      have hput : (s.library.putFunction f.symbol s.function.clearBody).module.function? f.symbol =
          some s.function.clearBody := function?_put hcode h rfl rfl
      refine ⟨_, hput, ?_⟩
      intro b hb
      cases hb

def forging : List Stmt := [
  .block "beside" [.comment "nothing leads here"] none,
  .attempt (.branch (.id 7)),
  .attempt (.cond (.operand (.bool true)) (.built (.given ⟨0, 9, false⟩)) none none),
  .ret (.operand (.int 1))]

theorem forging_orderly : ∃ lib' trace built e,
    answers.buildTraced "answer" (Gen.script forging) = ((.ok (), lib'), trace) ∧
      lib'.module.function? "m.answer" = some built ∧ built.Orderly ∧ built.AtMostOpen ∧
      built.verify = .error e := by
  have hok : (answers.buildTraced "answer" (Gen.script forging)).1.1.toBool = true := by
    decide +kernel
  have hopen : ((answers.buildTraced "answer" (Gen.script forging)).1.2.module.function?
      "m.answer").all (fun built => built.verify.toBool) = false := by
    decide +kernel
  cases hbuild : answers.buildTraced "answer" (Gen.script forging) with
  | mk built trace =>
    obtain ⟨result, lib'⟩ := built
    rw [hbuild] at hok hopen
    obtain ⟨built, hbuilt, horderly, hmost⟩ :=
      ((build_orderly answers_function? List.not_mem_nil rfl rfl).2 forging).2 result lib' trace hbuild
    change lib'.module.function? "m.answer" = some built at hbuilt
    rw [hbuilt] at hopen
    cases result with
    | error e => cases hok
    | ok _ =>
      cases hverify : built.verify with
      | ok _ => simp [hverify, Except.toBool] at hopen
      | error e => exact ⟨lib', trace, built, e, rfl, hbuilt, horderly, hmost, hverify⟩

end Library

end ScriptedIR
