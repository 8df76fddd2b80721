import ScriptedIR.Proofs.Structured
import ScriptedIR.Script.Build

/-!
Completed functions. A structured script leaves at most one block open, the one at its cursor. So the
warning about a missing return is exact: it is given where the completed function does not verify, and
only there.
-/

namespace ScriptedIR

theorem Module.function?_modifyFunction {m : Module} {name : String} {f g : Function}
    (hf : m.function? name = some f) (hg : g.name = name) :
    (m.modifyFunction name fun _ => g).function? name = some g := by
  unfold function? at hf
  unfold function? modifyFunction
  rw [find?_modifyFirst fun _ _ => hg, if_pos rfl, hf]
  rfl

namespace GenState

variable {S : Scope} {s : GenState} {g : Function} {terminated : Bool}

inductive Trimmed (s : GenState) : Function → Bool → Prop
  | finished : s.cursor.finished = true → Trimmed s s.function true
  | dropped : s.cursor.finished = false → s.cursor.block ≠ s.entry →
      s.function.code? s.cursor.block = some [] → s.function.isReferenced s.cursor.block = false →
      Trimmed s (s.function.removeBlock s.cursor.block) true
  | unfinished : s.cursor.finished = false → Trimmed s s.function false

def arrange (s : GenState) (f : Function) (complete : Bool) : Except CodeError (Function × Bool) := do
  let f ← match s.returnBlock, f.last? with
    | some block, some tail => f.moveAfter block tail
    | _, _ => pure f
  return (f, complete)

theorem moved_of_arrange {f : Function} {complete : Bool}
    (h : s.arrange f complete = .ok (g, terminated)) :
    terminated = complete ∧
      (g = f ∧ (s.returnBlock = none ∨ f.last? = none) ∨
        ∃ block tail, s.returnBlock = some block ∧ f.last? = some tail ∧
          f.moveAfter block tail = .ok g) := by
  unfold arrange at h
  split at h
  . next block tail hblock htail =>
    cases hg : f.moveAfter block tail with
    | error e => simp [hg, bind, Except.bind] at h
    | ok f' =>
      rw [hg] at h
      cases h
      exact ⟨rfl, .inr ⟨block, tail, hblock, htail, hg⟩⟩
  . next hnone =>
    have hwhy : s.returnBlock = none ∨ f.last? = none := by
      cases hblock : s.returnBlock with
      | none => exact .inl rfl
      | some block =>
        right
        rw [Option.eq_none_iff_forall_ne_some]
        exact fun tail => hnone block tail hblock
    cases h
    exact ⟨rfl, .inl ⟨rfl, hwhy⟩⟩

theorem arranged_of_tidy (h : s.tidy = .ok (g, terminated)) :
    ∃ f complete, s.Trimmed f complete ∧ s.arrange f complete = .ok (g, terminated) := by
  unfold tidy at h
  dsimp only at h
  split at h
  . next hskip =>
    cases hfinished : s.cursor.finished with
    | true =>
      rw [hfinished] at h
      exact ⟨_, _, .finished hfinished, h⟩
    | false =>
      rw [hfinished] at h
      exact ⟨_, _, .unfinished hfinished, h⟩
  . next hskip =>
    simp only [Bool.or_eq_true, decide_eq_true_eq, not_or, Bool.not_eq_true] at hskip
    unfold Function.block at h
    cases hblock : s.function.block? s.cursor.block with
    | none =>
      rw [hblock] at h
      cases h
    | some b =>
      rw [hblock, hskip.1] at h
      dsimp only [bind, Except.bind, pure, Except.pure] at h
      cases hdrop : b.body.isEmpty && !s.function.isReferenced s.cursor.block with
      | false =>
        rw [hdrop] at h
        exact ⟨_, _, .unfinished hskip.1, h⟩
      | true =>
        rw [hdrop] at h
        simp only [Bool.and_eq_true, List.isEmpty_iff, Bool.not_eq_true'] at hdrop
        refine ⟨_, _, .dropped hskip.1 hskip.2 ?_ hdrop.2, h⟩
        simp [Function.code?, hblock, hdrop.1]

theorem trimmed_of_tidy (h : s.tidy = .ok (g, terminated)) :
    ∃ f, s.Trimmed f terminated ∧
      (g = f ∧ (s.returnBlock = none ∨ f.last? = none) ∨
        ∃ block tail, s.returnBlock = some block ∧ f.last? = some tail ∧
          f.moveAfter block tail = .ok g) := by
  obtain ⟨f, complete, hf, harranged⟩ := arranged_of_tidy h
  obtain ⟨rfl, hmoved⟩ := moved_of_arrange harranged
  exact ⟨f, hf, hmoved⟩

theorem ends_iff_not_open (hs : s.work.Sane) {id : BlockId} {code : List Instruction}
    (hcode : s.function.code? id = some code) : ends code ↔ ¬ s.work.Open id := by
  obtain ⟨body, hbody⟩ := hs.held (show s.work.function.code? id ≠ none by simp [work, hcode])
  have heq : code = s.work.prologue id ++ body := by
    rw [Work.Holds] at hbody
    exact Option.some.inj (hcode.symm.trans hbody)
  rw [heq, Work.ends_prologue_append]
  constructor
  . exact Work.not_open_of_holds hbody
  . intro hopen
    cases hends : ends body with
    | true => rfl
    | false => exact absurd ⟨body, hbody, hends⟩ hopen

theorem Trimmed.distinct {f : Function} (hd : s.function.Distinct) (hf : s.Trimmed f terminated) :
    f.Distinct := by
  cases hf with
  | finished | unfinished => exact hd
  | dropped => exact hd.removeBlock

theorem Trimmed.sound {f : Function} (hd : s.function.Distinct) (hs : s.function.Sound)
    (hf : s.Trimmed f terminated) : f.Sound := by
  cases hf with
  | finished | unfinished => exact hs
  | dropped _ _ _ hfree => exact hs.removeBlock hd hfree

theorem code?_of_tidy (hd : s.function.Distinct) (h : s.tidy = .ok (g, terminated)) (id : BlockId) :
    (g.code? id).getD [] = (s.function.code? id).getD [] := by
  obtain ⟨f, hf, hmoved⟩ := trimmed_of_tidy h
  have hcode : (f.code? id).getD [] = (s.function.code? id).getD [] := by
    cases hf with
    | finished | unfinished => rfl
    | dropped _ _ hempty =>
      rw [Function.code?_removeBlock hd]
      split
      . next hid =>
        rw [hid, hempty]
        rfl
      . rfl
  rcases hmoved with ⟨rfl, -⟩ | ⟨block, tail, -, -, hmove⟩
  . exact hcode
  . rw [Function.code?_moveAfter (hf.distinct hd) hmove]
    exact hcode

theorem Trimmed.ends_iff {f : Function} (hs : s.Ready S)
    (hopens : ∀ id, s.work.Open id → s.Writes id) (hf : s.Trimmed f terminated) :
    (∀ id code, f.code? id = some code → ends code) ↔ terminated = true := by
  cases hf with
  | finished hfinished =>
    refine iff_of_true ?_ rfl
    intro id code hcode
    rw [ends_iff_not_open hs.sane hcode]
    intro hid
    exact not_writes hfinished (hopens id hid)
  | dropped hopen _ _ _ =>
    refine iff_of_true ?_ rfl
    intro id code hcode
    have hdistinct : s.function.Distinct := hs.sane.distinct
    rw [Function.code?_removeBlock hdistinct] at hcode
    split at hcode
    . cases hcode
    . next hne =>
      rw [ends_iff_not_open hs.sane hcode]
      intro hid
      exact hne (hopens id hid).1
  | unfinished hopen =>
    refine iff_of_false ?_ (by simp)
    intro hends
    obtain ⟨code, hcode⟩ := Option.ne_none_iff_exists'.1 hs.present
    exact (ends_iff_not_open hs.sane hcode).1 (hends _ code hcode) (hs.opened hopen)

theorem verify_tidy_iff (hs : s.Ready S) (hopens : ∀ id, s.work.Open id → s.Writes id)
    (h : s.tidy = .ok (g, terminated)) : g.verify = .ok () ↔ terminated = true := by
  obtain ⟨f, hf, hmoved⟩ := trimmed_of_tidy h
  have hdistinct := hf.distinct hs.sane.distinct
  have hsound := hf.sound hs.sane.distinct hs.sane.sound
  rw [← hf.ends_iff hs hopens]
  rcases hmoved with ⟨rfl, -⟩ | ⟨block, tail, -, -, hmove⟩
  . exact Function.verify_eq_ok_iff_ends hdistinct hsound
  . rw [Function.verify_eq_ok_iff_ends (hdistinct.moveAfter hmove) (hsound.moveAfter hdistinct hmove)]
    simp only [Function.code?_moveAfter hdistinct hmove]

theorem static_of_tidy (h : s.tidy = .ok (g, terminated)) :
    g = { s.function with blocks := g.blocks } := by
  obtain ⟨f, hf, hmoved⟩ := trimmed_of_tidy h
  have hstatic : f = { s.function with blocks := f.blocks } := by cases hf <;> rfl
  rcases hmoved with ⟨rfl, -⟩ | ⟨block, tail, -, -, hmove⟩
  . exact hstatic
  . rw [Function.moveAfter_static hmove]
    rw [hstatic]

theorem name_of_tidy (h : s.tidy = .ok (g, terminated)) : g.name = s.function.name := by
  rw [static_of_tidy h]

theorem entry_of_tidy (h : s.tidy = .ok (g, terminated)) (hfirst : s.function.entry? = some s.entry)
    (hreturn : ∀ block, s.returnBlock = some block → block ≠ s.entry) : g.entry? = some s.entry := by
  obtain ⟨f, hf, hmoved⟩ := trimmed_of_tidy h
  have hentry : f.entry? = some s.entry := by
    cases hf with
    | finished | unfinished => exact hfirst
    | dropped _ hne => exact Function.entry?_removeBlock hfirst hne
  rcases hmoved with ⟨rfl, -⟩ | ⟨block, tail, hblock, -, hmove⟩
  . exact hentry
  . exact Function.entry?_moveAfter hmove hentry (hreturn block hblock)

end GenState

namespace Library

variable {lib lib' : Library} {name : String} {f : FunctionRef} {code : Function} {S : Scope}

theorem distinct_of_isDeclaration (hcode : code.isDeclaration) : code.Distinct := by
  have hblocks : code.blocks = [] := List.isEmpty_iff.1 hcode
  exact ⟨by simp [hblocks], by simp [hblocks]⟩

theorem code?_of_isDeclaration (hcode : code.isDeclaration) (id : BlockId) : code.code? id = none := by
  have hblocks : code.blocks = [] := List.isEmpty_iff.1 hcode
  simp [Function.code?, Function.block?, hblocks]

theorem sound_of_isDeclaration (hcode : code.isDeclaration) : code.Sound := by
  constructor <;> simp [code?_of_isDeclaration hcode]

theorem code?_startState (hcode : code.isDeclaration) (id : BlockId) :
    (lib.startState f code).work.function.code? id = if id = code.nextBlock then some [] else none := by
  rw [← code?_of_isDeclaration hcode id]
  exact Function.code?_addBlock (distinct_of_isDeclaration hcode)

theorem holds_startState (hcode : code.isDeclaration) :
    (lib.startState f code).work.Holds (lib.startState f code).entry [] := by
  change (lib.startState f code).work.Holds code.nextBlock []
  rw [Work.Holds, code?_startState hcode, if_pos rfl]
  rfl

theorem startState_ready (hcode : code.isDeclaration)
    (hmacros : ∀ text m, S.texts text → lib.macros.get? text .everything = some m → S.macros m) :
    (lib.startState f code).Ready S ∧
      ∀ id, (lib.startState f code).work.Open id → (lib.startState f code).Writes id := by
  have hblocks : code.blocks = [] := List.isEmpty_iff.1 hcode
  have hdistinct := distinct_of_isDeclaration hcode
  have hsound := sound_of_isDeclaration hcode
  have hentry : (lib.startState f code).work.Holds code.nextBlock [] := holds_startState hcode
  have hheld {id} (hid : (lib.startState f code).work.function.code? id ≠ none) :
      id = code.nextBlock ∧ (lib.startState f code).work.Holds id [] := by
    rw [code?_startState hcode] at hid
    split at hid
    . next heq => exact ⟨heq, heq ▸ hentry⟩
    . exact absurd rfl hid
  refine ⟨?_, ?_⟩
  . exact {
      sane := {
        distinct := hdistinct.addBlock
        sound := hsound.addBlock hdistinct
        first := by simp [startState, GenState.work, Function.entry?, Function.addBlock, hblocks]
        held := fun hid => ⟨[], (hheld hid).2⟩
        returning := .undecided rfl rfl }
      present := hentry.present
      next := fun hid => by cases hid
      exit := fun hid => by cases hid
      handles := fun hh => by simp [startState] at hh
      names := fun ho => by simp [startState] at ho
      macros := fun htext hm => hmacros _ _ htext hm
      opened := fun _ => ⟨[], hentry, rfl⟩ }
  . intro id hid
    exact ⟨(hheld hid.present).1, rfl⟩

theorem buildTraced_ok {x : Gen Unit} {trace : List Event} (hf : lib.function? name = some f)
    (hnew : f.symbol ∉ lib.built) (hcode : lib.module.function? f.symbol = some code)
    (hbuild : lib.buildTraced name x = ((.ok (), lib'), trace)) :
    ∃ s built terminated, Gen.exec x (lib.startState f code) = (.ok (), s) ∧ s.trace = trace ∧
      s.tidy = .ok (built, terminated) ∧
      lib'.module = s.library.module.modifyFunction f.symbol (fun _ => built) ∧
      lib'.diagnostics = s.library.diagnostics ++ if terminated then [] else [noReturn f] := by
  unfold buildTraced at hbuild
  simp only [hf, if_neg hnew, hcode] at hbuild
  split at hbuild
  . next s hexec =>
    obtain ⟨hcomplete, rfl⟩ := Prod.mk.inj hbuild
    unfold complete at hcomplete
    dsimp only at hcomplete
    split at hcomplete
    . cases hcomplete
    . next built terminated htidy =>
      obtain ⟨-, rfl⟩ := Prod.mk.inj hcomplete
      refine ⟨s, built, terminated, hexec, rfl, htidy, ?_, ?_⟩
      . cases terminated <;> rfl
      . cases terminated <;> simp [putFunction, warn]
  . cases hbuild

theorem function?_completed {s : GenState} {built : Function} {terminated : Bool}
    (hcode : lib.module.function? f.symbol = some code) (hname : s.function.name = code.name)
    (hfunctions : s.library.module.functions = lib.module.functions)
    (htidy : s.tidy = .ok (built, terminated))
    (hmodule : lib'.module = s.library.module.modifyFunction f.symbol fun _ => built) :
    lib'.module.function? f.symbol = some built := by
  rw [hmodule]
  apply Module.function?_modifyFunction (f := code)
  . unfold Module.function?
    rw [hfunctions]
    exact hcode
  . rw [GenState.name_of_tidy htidy, hname]
    simpa using List.find?_some hcode

theorem grown_of_tame {S : Scope} {x : Gen Unit} {s : GenState} (hcode : code.isDeclaration)
    (hmacros : ∀ text m, S.texts text → lib.macros.get? text .everything = some m → S.macros m)
    (hx : Gen.Tame S (fun _ => True) x fun _ _ => True)
    (hexec : Gen.exec x (lib.startState f code) = (.ok (), s)) (hblocks : s.Settled S) :
    (lib.startState f code).Grows s ∧ s.Ready S ∧ ∀ id, s.work.Open id → s.Writes id := by
  obtain ⟨hstart, hopens⟩ : (lib.startState f code).Ready S ∧ _ := startState_ready hcode hmacros
  obtain ⟨hgrows, hs, -⟩ := hx.run hexec hstart trivial hblocks
  refine ⟨hgrows, hs, ?_⟩
  intro id hid
  rcases (hgrows.opens id).1 hid with ⟨hopen, hwrites⟩ | hwrites
  . exact absurd (hopens id hopen) hwrites
  . exact hwrites

/--
The warning about a missing return is exact. For a function that is declared and has no body yet, a
script that can be run strictly and whose blocks of their own are all finished leads to the warning if
the function that was built does not verify, and else to none.
-/
theorem build_warns_iff_unverified {body : List Stmt} {trace : List Event}
    (hf : lib.function? name = some f) (hnew : f.symbol ∉ lib.built)
    (hcode : lib.module.function? f.symbol = some code) (hdeclared : code.isDeclaration)
    (hstrict : (Gen.exec (Gen.strict body) (lib.startState f code)).1.isOk)
    (hbuild : lib.buildTraced name (Gen.script body) = ((.ok (), lib'), trace))
    (hblocks : ∀ h, Event.handle h ∈ trace → h.finished = true) :
    ∃ built, lib'.module.function? f.symbol = some built ∧
      (lib'.diagnostics = lib.diagnostics ++ [noReturn f] ↔ ∃ e, built.verify = .error e) ∧
      (lib'.diagnostics = lib.diagnostics ↔ built.verify = .ok ()) := by
  obtain ⟨s, built, terminated, hexec, rfl, htidy, hmodule, hdiagnostics⟩ :=
    buildTraced_ok hf hnew hcode hbuild
  -- the strict run and the script come to the same state
  have hrun : Gen.exec (Gen.strict body) (lib.startState f code) = (.ok (), s) := by
    rcases hresult : Gen.exec (Gen.strict body) (lib.startState f code) with ⟨result, t⟩
    rw [hresult] at hstrict
    cases result with
    | error e => cases hstrict
    | ok _ => rw [← hexec, Gen.strict_refines body _ _ _ hresult]
  obtain ⟨hgrows, hs, hopens⟩ := grown_of_tame hdeclared (fun _ _ _ _ => trivial)
    (Gen.strict_tame body) hrun fun _ => hblocks
  obtain ⟨-, m, hlibrary, hfunctions⟩ := hgrows.library
  have hverify := GenState.verify_tidy_iff hs hopens htidy
  have hname : built.name = f.symbol := by
    have hheader := congrArg Function.name hgrows.evolves.header
    change s.function.name = code.name at hheader
    rw [GenState.name_of_tidy htidy, hheader]
    simpa using List.find?_some hcode
  refine ⟨built, ?_, ?_, ?_⟩
  . rw [hmodule, hlibrary]
    apply Module.function?_modifyFunction _ hname
    . exact code
    . unfold Module.function?
      rw [hfunctions]
      exact hcode
  . have herror : (∃ e, built.verify = .error e) ↔ ¬ built.verify = .ok () := by
      cases built.verify <;> simp
    rw [hdiagnostics, hlibrary, herror, hverify]
    cases terminated <;> simp [startState]
  . rw [hdiagnostics, hlibrary, hverify]
    cases terminated <;> simp [startState]

def answer : FunctionRef := ⟨"answer", "m.answer", ⟨.i32, [], false⟩⟩

def answers : Library where
  name := "m"
  address := "m"
  module :=
    { name := "m",
      functions := [{ name := "m.answer", result := .i32, params := [], variadic := false }] }
  functions := ({} : Table FunctionRef).insert "answer" .exported answer

theorem answers_function? : answers.function? "answer" = some answer := by
  simp [answers, function?]

def search : List Stmt := [
  .loop [.operand (.int 3)] [] (some ([], .operand (.bool true)))
    (some [.cond (.operand (.bool false)) (.body [.branch .exit]) none none]) none none,
  .conditionalRet (.operand (.bool true)) (.operand (.int 7)) none]

def rounds : List Stmt := [
  .loop [] [] (some ([], .operand (.bool true))) (some [
    .loop [] [] (some ([], .operand (.bool true))) (some [
      .cond (.operand (.bool false)) (.body [.branch (.id 3)]) none none,
      .conditionalRet (.operand (.bool false)) (.operand (.int 5)) (some (.id 1))]) none none,
    .cond (.operand (.bool true)) (.body [.branch (.id 1)]) none (some (.id 3))]) none none,
  .block "spin" [.branch .start] none,
  .ret (.operand (.int 7))]

theorem answers_built {body : List Stmt}
    (hbuild : (answers.buildTraced "answer" (Gen.script body)).1.1.toBool = true)
    (hfinished : ((answers.buildTraced "answer" (Gen.script body)).2.all fun
      | .handle h => h.finished
      | _ => true) = true) :
    ∃ lib' trace, answers.buildTraced "answer" (Gen.script body) = ((.ok (), lib'), trace) ∧
      ∀ h, Event.handle h ∈ trace → h.finished = true := by
  rcases hresult : answers.buildTraced "answer" (Gen.script body) with ⟨⟨result, lib'⟩, trace⟩
  rw [hresult] at hbuild hfinished
  cases result with
  | error e => cases hbuild
  | ok _ => exact ⟨lib', trace, rfl, fun h hh => List.all_eq_true.1 hfinished _ hh⟩

theorem search_warned_rounds_verified :
    (∃ lib' trace built e, answers.buildTraced "answer" (Gen.script search) = ((.ok (), lib'), trace) ∧
      lib'.module.function? "m.answer" = some built ∧ lib'.diagnostics = [noReturn answer] ∧
      built.verify = .error e) ∧
    ∃ lib' trace built, answers.buildTraced "answer" (Gen.script rounds) = ((.ok (), lib'), trace) ∧
      lib'.module.function? "m.answer" = some built ∧ lib'.diagnostics = [] ∧
      built.verify = .ok () := by
  have hwarned : (answers.buildTraced "answer" (Gen.script search)).1.2.diagnostics.length = 1 := by
    decide +kernel
  have hquiet : (answers.buildTraced "answer" (Gen.script rounds)).1.2.diagnostics.length = 0 := by
    decide +kernel
  constructor
  . obtain ⟨lib', trace, hbuild, hblocks⟩ :=
      @answers_built search (by decide +kernel) (by decide +kernel)
    obtain ⟨built, hbuilt, hunverified, hverified⟩ := build_warns_iff_unverified answers_function?
      List.not_mem_nil rfl rfl (by decide +kernel) hbuild hblocks
    rw [hbuild] at hwarned
    cases hverify : built.verify with
    | ok _ =>
      rw [hverified.2 hverify] at hwarned
      cases hwarned
    | error e => exact ⟨lib', trace, built, e, hbuild, hbuilt, hunverified.2 ⟨e, hverify⟩, hverify⟩
  . obtain ⟨lib', trace, hbuild, hblocks⟩ :=
      @answers_built rounds (by decide +kernel) (by decide +kernel)
    obtain ⟨built, hbuilt, -, hverified⟩ := build_warns_iff_unverified answers_function?
      List.not_mem_nil rfl rfl (by decide +kernel) hbuild hblocks
    rw [hbuild] at hquiet
    have hnone := List.eq_nil_of_length_eq_zero hquiet
    exact ⟨lib', trace, built, hbuild, hbuilt, hnone, hverified.1 hnone⟩

end Library

end ScriptedIR
