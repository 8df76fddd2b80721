import ScriptedIR.Proofs.Agreement

/-!
The layout of functions. Blocks are found by their numbers, so that their order matters only in what
comes first. Main statement: runs are the same after the blocks of a function have been moved about, as
long as the same block is the first again.
-/

namespace ScriptedIR

inductive Move where
  | after (id anchor : BlockId)
  | before (id anchor : BlockId)
deriving DecidableEq, Repr

namespace Function

variable {f : Function}

def move (f : Function) : Move → Function
  | .after id anchor => (f.moveAfter id anchor).toOption.getD f
  | .before id anchor => (f.moveBefore id anchor).toOption.getD f

def moveAll (f : Function) (moves : List Move) : Function := moves.foldl move f

theorem move_cases (f : Function) (m : Move) :
    f.move m = f ∨ ∃ id anchor offset, offset ≤ 1 ∧ f.moveNear id anchor offset = .ok (f.move m) := by
  cases m with
  | after id anchor =>
    simp only [move]
    cases h : f.moveAfter id anchor with
    | error e => exact .inl rfl
    | ok g => exact .inr ⟨id, anchor, 1, Nat.le_refl 1, h⟩
  | before id anchor =>
    simp only [move]
    cases h : f.moveBefore id anchor with
    | error e => exact .inl rfl
    | ok g => exact .inr ⟨id, anchor, 0, Nat.zero_le 1, h⟩

theorem moveAll_perm (f : Function) (moves : List Move) : (f.moveAll moves).blocks.Perm f.blocks := by
  induction moves generalizing f with
  | nil => exact .refl _
  | cons m moves ih =>
    refine (ih (f.move m)).trans ?_
    obtain h | ⟨id, anchor, offset, hle, h⟩ := f.move_cases m
    . rw [h]
    . exact moveNear_perm h hle

theorem moveAll_static (f : Function) (moves : List Move) :
    ∃ blocks, f.moveAll moves = { f with blocks } := by
  induction moves generalizing f with
  | nil => exact ⟨f.blocks, rfl⟩
  | cons m moves ih =>
    obtain ⟨blocks, hblocks⟩ := ih (f.move m)
    refine ⟨blocks, ?_⟩
    change (f.move m).moveAll moves = _
    rw [hblocks]
    obtain h | ⟨id, anchor, offset, -, h⟩ := f.move_cases m
    . rw [h]
    . rw [moveNear_static h]

theorem Alike.moveAll (hnodup : (f.blocks.map Block.id).Nodup) {moves : List Move}
    (hfirst : Function.entry? (f.moveAll moves) = f.entry?) : f.Alike (f.moveAll moves) := by
  have hcode (id : BlockId) : (f.moveAll moves).code? id = f.code? id :=
    code?_eq_of_perm hnodup (f.moveAll_perm moves)
  obtain ⟨blocks, hblocks⟩ := f.moveAll_static moves
  rw [hblocks] at hfirst hcode ⊢
  exact ⟨rfl, rfl, rfl, rfl, hfirst, hcode⟩

theorem Alike.find?_modify {fs : List Function} {i : Nat} {change : Function → Function}
    (h : ∀ f, fs[i]? = some f → f.Alike (change f)) (name : String) :
    Option.Rel Alike (fs.find? (·.name = name)) ((fs.modify i change).find? (·.name = name)) := by
  have same (o : Option Function) : Option.Rel Alike o o := by
    cases o with
    | none => exact .none
    | some f => exact .some (.refl f)
  induction fs generalizing i with
  | nil =>
    rw [List.modify_nil]
    exact same _
  | cons f fs ih =>
    cases i with
    | zero =>
      have halike : f.Alike (change f) := h f rfl
      rw [List.modify_zero_cons, List.find?_cons, List.find?_cons, halike.name]
      split
      . exact .some halike
      . exact same _
    | succ i =>
      rw [List.modify_succ_cons, List.find?_cons, List.find?_cons]
      split
      . exact same _
      . exact ih h

end Function

def Module.moveBlocks (m : Module) (i : Nat) (moves : List Move) : Module :=
  { m with functions := m.functions.modify i (·.moveAll moves) }

theorem Env.within_moveBlocks {env : Env} {i : Nat} {f : Function} {moves : List Move}
    (hf : env.module.functions[i]? = some f) (hnodup : (f.blocks.map Block.id).Nodup)
    (hfirst : Function.entry? (f.moveAll moves) = f.entry?) :
    env.Within { env with module := env.module.moveBlocks i moves } where
  globals := rfl
  hosts := rfl
  functions name := by
    refine Function.Alike.find?_modify ?_ name
    intro g hg
    cases hf.symm.trans hg
    exact .moveAll hnodup hfirst
  steps := Nat.le_refl _
  depth := Nat.le_refl _

theorem Env.initialized_congr {env env' : Env} (h : env'.globals = env.globals) (memory : Memory)
    (g : Global) : env'.initialized memory g = env.initialized memory g := by
  unfold initialized
  cases g.initializer with
  | none => rfl
  | some c => simp only [constant_congr h, globalPointer, h]

namespace Machine

def moveBlocks (m : Machine) (i : Nat) (moves : List Move) : Machine :=
  { m with env := { m.env with module := m.env.module.moveBlocks i moves } }

theorem create_moveBlocks (module : Module) (i : Nat) (moves : List Move) (limits : Limits) :
    create (module.moveBlocks i moves) limits =
      (create module limits).map (·.moveBlocks i moves) := by
  have hinitialized (globals : List (String × Pointer)) :
      Env.initialized { module := module.moveBlocks i moves, limits, globals } =
        Env.initialized { module, limits, globals } := by
    funext memory g
    apply Env.initialized_congr
    rfl
  unfold create
  rw [show (module.moveBlocks i moves).globals = module.globals from rfl]
  obtain ⟨globals, memory⟩ := placeGlobals module.globals {}
  dsimp only
  rw [hinitialized]
  cases module.globals.foldlM (Env.initialized { module, limits, globals }) memory with
  | error e => rfl
  | ok memory => rfl

/--
The layout of a function is only cosmetic. If its blocks have distinct numbers and are moved about so
that the same one comes first in the end, then a machine for the module is created as before, and in
any state of a machine every run has the same result, store and number of steps as before.
-/
theorem run_moveBlocks (module : Module) (i : Nat) (f : Function) (moves : List Move)
    (hf : module.functions[i]? = some f) (hnodup : (f.blocks.map Block.id).Nodup)
    (hfirst : Function.entry? (f.moveAll moves) = f.entry?) :
    (∀ limits, create (module.moveBlocks i moves) limits =
      (create module limits).map (·.moveBlocks i moves)) ∧
    ∀ m : Machine, m.env.module = module → ∀ name args,
      (m.moveBlocks i moves).run name args =
        ((m.run name args).1, (m.run name args).2.moveBlocks i moves) := by
  refine ⟨create_moveBlocks module i moves, ?_⟩
  rintro m rfl name args
  have hrun : Env.run { m.env with module := m.env.module.moveBlocks i moves } m.store name args =
      m.env.run m.store name args := by
    obtain (⟨hlt, -⟩ | ⟨hlt, -⟩) | heq :=
      Env.run_agree (Env.within_moveBlocks hf hnodup hfirst) m.store name args
    -- the limits are the same, so that none can have cut the run short in only one of them
    . exact absurd hlt (Nat.lt_irrefl _)
    . exact absurd hlt (Nat.lt_irrefl _)
    . exact heq
  simp only [run, moveBlocks, hrun]

theorem countdown_moveBlocks :
    let moves : List Move := [.before 2 0, .after 2 0]
    let module : Module := { name := "m", functions := [countdown] }
    let m : Machine := { env := { module } }
    (countdown.moveAll moves).blocks.map Block.id = [0, 2, 1] ∧
      (m.moveBlocks 0 moves).run "countdown" [.int 3] =
        ((m.run "countdown" [.int 3]).1, (m.run "countdown" [.int 3]).2.moveBlocks 0 moves) := by
  intro moves module m
  refine ⟨rfl, ?_⟩
  exact (run_moveBlocks module 0 countdown moves rfl (by decide) rfl).2 m rfl "countdown" [.int 3]

end Machine

end ScriptedIR
