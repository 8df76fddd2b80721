import ScriptedIR.Proofs.Composed

/-!
Bodies of functions and what building does with them. All that a body leaves behind in the library is
the texts that it interned. The function that it was made for is a definition afterwards and counts as
built, or it is a mere declaration whose numbers start afresh.
-/

namespace ScriptedIR

namespace Gen

theorem Composed.library_exec {x : Gen α} (hx : Composed x) (s : GenState) :
    ∃ texts, (exec x s).2.library =
      { s.library with module := s.library.module.internAll texts } := by
  -- the texts of a part that fails stay, so both cases of `bind` and of `tryCatch` have some
  induction hx generalizing s with
  | pure | throw | get | append | allocate | newBlock | returns => exact ⟨[], rfl⟩
  | bind _ _ ihx ihf =>
    obtain ⟨texts, hx⟩ := ihx s
    rw [exec_bind]
    split
    . next a t hrun =>
      obtain ⟨more, hf⟩ := ihf a t
      rw [hrun] at hx
      refine ⟨texts ++ more, ?_⟩
      rw [Module.internAll_append, hf, hx]
    . next hrun =>
      rw [hrun] at hx
      exact ⟨texts, hx⟩
  | tryCatch _ _ ihx ihf =>
    obtain ⟨texts, hx⟩ := ihx s
    rw [exec_tryCatch]
    split
    . next hrun =>
      rw [hrun] at hx
      exact ⟨texts, hx⟩
    . next e t hrun =>
      obtain ⟨more, hf⟩ := ihf e t
      rw [hrun] at hx
      refine ⟨texts ++ more, ?_⟩
      rw [Module.internAll_append, hf, hx]
  | convert o hint =>
    obtain ⟨texts, -, htexts⟩ := o.convert_interns hint s.library.module
    refine ⟨texts, ?_⟩
    rw [← htexts]
    rfl
  | move block after =>
    refine ⟨[], ?_⟩
    simp only [exec, modifyFunction]
    split <;> rfl
  | aside hchange => exact ⟨[], (hchange s).2⟩
  | onCursor cursor _ ih => exact ih { s with cursor }
  | withNames names _ ih => exact ih { s with names, handles := ∅ }

end Gen

structure Body where
  run : Gen Unit
  composed : run.Composed

namespace Body

def script (body : List Stmt) : Body := ⟨Gen.script body, .script body⟩

def failing (e : ScriptError) : Body := ⟨throw e, .throw e⟩

end Body

theorem Function.clearBody_of_static {f g : Function} (h : g = { f with blocks := g.blocks }) :
    g.clearBody = f.clearBody := by
  rw [h]
  rfl

theorem Function.isDeclaration_of_mem {f : Function} {id : BlockId}
    (h : id ∈ f.blocks.map Block.id) : f.isDeclaration = false := by
  obtain ⟨b, hb, -⟩ := List.mem_map.1 h
  cases hblocks : f.blocks with
  | nil =>
    rw [hblocks] at hb
    cases hb
  | cons => simp [isDeclaration, hblocks]

namespace Library

variable {lib : Library} {f : FunctionRef} {code : Function}

inductive Outcome (lib : Library) (f : FunctionRef) (code : Function) : Function → List String → Prop
  | defined {g : Function} : g.clearBody = code.clearBody → g.isDeclaration = false →
      Outcome lib f code g (f.symbol :: lib.built)
  | cleared : Outcome lib f code code.clearBody lib.built

theorem Outcome.header {g : Function} {built : List String} (h : lib.Outcome f code g built) :
    g.clearBody = code.clearBody := by
  cases h with
  | defined hheader => exact hheader
  | cleared => rfl

theorem complete_outcome {s : GenState} (hs : s.HasEntry)
    (hheader : s.function.clearBody = code.clearBody) :
    ∃ g diagnostics, g.clearBody = code.clearBody ∧ g.isDeclaration = false ∧
      (complete f s).2 = { s.library with
        module := s.library.module.modifyFunction f.symbol fun _ => g
        built := f.symbol :: s.library.built
        diagnostics } := by
  unfold complete
  cases htidy : s.tidy with
  | error e =>
    exact ⟨s.function, s.library.diagnostics, hheader, Function.isDeclaration_of_mem hs, rfl⟩
  | ok result =>
    obtain ⟨g, terminated⟩ := result
    have hdefined := Function.isDeclaration_of_mem (hs.of_tidy htidy)
    have hg := (Function.clearBody_of_static (GenState.static_of_tidy htidy)).trans hheader
    cases terminated with
    | true => exact ⟨g, s.library.diagnostics, hg, hdefined, rfl⟩
    | false => exact ⟨g, s.library.diagnostics ++ [noReturn f], hg, hdefined, rfl⟩

section Build

variable {name : String} (hf : lib.function? name = some f)

include hf

theorem build_of_built (hbuilt : f.symbol ∈ lib.built) (body : Gen Unit) :
    build name body lib = (.ok (), lib) := by
  simp [build, buildTraced, hf, hbuilt]

variable (hnew : f.symbol ∉ lib.built) (hcode : lib.module.function? f.symbol = some code)

include hnew hcode

theorem build_of_exec {body : Gen Unit} {result : Except ScriptError Unit} {s : GenState}
    (hexec : body.exec (lib.startState f code) = (result, s)) :
    build name body lib =
      match result with
      | .ok () => complete f s
      | .error e => (.error e, s.library.putFunction f.symbol s.function.clearBody) := by
  simp only [build, buildTraced, hf, if_neg hnew, hcode, hexec]
  cases result <;> rfl

theorem build_of_error {body : Body} {e : ScriptError}
    (hfails : (body.run.exec (lib.startState f code)).1 = .error e) :
    ∃ texts, build name body.run lib = (.error e,
      { lib with
        module := (lib.module.internAll texts).modifyFunction f.symbol fun _ => code.clearBody }) := by
  rcases hexec : body.run.exec (lib.startState f code) with ⟨result, s⟩
  have hfollows := body.composed.follows (lib.startState f code)
  obtain ⟨texts, hlibrary⟩ := body.composed.library_exec (lib.startState f code)
  rw [hexec] at hfails hfollows hlibrary
  dsimp only at hfails hlibrary
  subst hfails
  refine ⟨texts, ?_⟩
  rw [build_of_exec hf hnew hcode hexec, hfollows.header, hlibrary]
  rfl

theorem build_of_ok {body : Body}
    (hends : (body.run.exec (lib.startState f code)).1 = .ok ()) :
    ∃ g texts diagnostics, g.clearBody = code.clearBody ∧ g.isDeclaration = false ∧
      (build name body.run lib).2 = { lib with
        module := (lib.module.internAll texts).modifyFunction f.symbol fun _ => g
        built := f.symbol :: lib.built
        diagnostics } := by
  rcases hexec : body.run.exec (lib.startState f code) with ⟨result, s⟩
  have hfollows := body.composed.follows (lib.startState f code)
  have hentry : (body.run.exec (lib.startState f code)).2.HasEntry :=
    body.composed.invariant GenState.HasEntry.loose (by simp [GenState.HasEntry, startState,
      Function.addBlock])
  obtain ⟨texts, hlibrary⟩ := body.composed.library_exec (lib.startState f code)
  rw [hexec] at hends hfollows hentry hlibrary
  obtain ⟨g, diagnostics, hheader, hdefined, heq⟩ :=
    complete_outcome (f := f) hentry hfollows.header
  dsimp only at hends hlibrary heq
  subst hends
  refine ⟨g, texts, diagnostics, hheader, hdefined, ?_⟩
  rw [hlibrary] at heq
  rw [build_of_exec hf hnew hcode hexec]
  exact heq

end Build

theorem build_cases (lib : Library) (name : String) (body : Body) :
    (build name body.run lib).2 = lib ∨
      ∃ f code g built texts diagnostics, lib.function? name = some f ∧ f.symbol ∉ lib.built ∧
        lib.module.function? f.symbol = some code ∧ lib.Outcome f code g built ∧
        (build name body.run lib).2 = { lib with
          module := (lib.module.internAll texts).modifyFunction f.symbol fun _ => g
          built
          diagnostics } := by
  cases hf : lib.function? name with
  | none => simp [build, buildTraced, hf]
  | some f =>
    by_cases hnew : f.symbol ∈ lib.built
    . rw [build_of_built hf hnew]
      exact .inl rfl
    . cases hcode : lib.module.function? f.symbol with
      | none => simp [build, buildTraced, hf, hnew, hcode]
      | some code =>
        right
        rcases hexec : body.run.exec (lib.startState f code) with ⟨e | ⟨⟨⟩⟩, s⟩
        . obtain ⟨texts, heq⟩ := build_of_error hf hnew hcode (congrArg Prod.fst hexec)
          rw [heq]
          exact ⟨f, code, _, _, texts, lib.diagnostics, rfl, hnew, hcode, .cleared, rfl⟩
        . obtain ⟨g, texts, diagnostics, hheader, hdefined, heq⟩ :=
            build_of_ok hf hnew hcode (congrArg Prod.fst hexec)
          exact ⟨f, code, g, _, texts, diagnostics, rfl, hnew, hcode, .defined hheader hdefined, heq⟩

end Library

end ScriptedIR
