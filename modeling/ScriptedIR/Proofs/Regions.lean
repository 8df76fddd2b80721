import ScriptedIR.Proofs.Generation

/-!
Conditionals and loops. Their parts are generated beside the cursor, in blocks of their own; when all
of them are joined, only the exit is left open.
-/

namespace ScriptedIR

namespace GenState

variable {S : Scope} {s t : GenState} {W : BlockId → Prop}

structure ArmBuilt (S : Scope) (s t : GenState) (arm : BlockHandle) : Prop where
  beside : s.Beside S (fun _ => False) t
  start : arm.start = s.function.nextBlock
  target : t.work.Target arm.start
  fresh : s.function.code? arm.current = none
  opens : ∀ id, t.work.Open id ↔ s.work.Open id ∨ (id = arm.current ∧ arm.finished = false)

theorem Scoped.intoNew (h : s.Scoped S) (label : String) :
    ((s.grow label).into s.function.nextBlock).Ready S := by
  obtain ⟨hgrow, hopens⟩ : s.Beside S (fun _ => False) (s.grow label) ∧ _ := h.grow
  exact hgrow.scope.into ((hopens _).2 (.inr rfl))

theorem Scoped.armBuilt (h : s.Scoped S) {label : String} {u : GenState}
    (hgrows : ((s.grow label).into s.function.nextBlock).Grows u) (hu : u.Ready S) :
    s.ArmBuilt S { u with cursor := s.cursor } u.cursor.handle := by
  have hnew : s.function.code? s.function.nextBlock = none := h.sane.distinct.code?_nextBlock
  obtain ⟨hgrow, hgrown⟩ : s.Beside S (fun _ => False) (s.grow label) ∧ _ := h.grow
  obtain ⟨hfill, hfilled⟩ := hgrow.scope.fill rfl hgrows hu
  have hbeside := hgrow.trans hfill fun id hid => .inr (by rw [hid]; exact hnew)
  have hstart : u.cursor.handle.start = s.function.nextBlock := by
    rw [Cursor.handle, hgrows.cursor]
    rfl
  have hentry : u.entry = s.entry := hbeside.evolves.entry
  refine ⟨hbeside, hstart, ⟨?_, ?_⟩, ?_, ?_⟩
  . rw [hstart]
    exact hgrows.evolves.present hgrow.scope.sane (Work.holds_grow_new h.sane).present
  . change _ ≠ u.entry
    rw [hstart, hentry]
    exact Ne.symm h.sane.entry_ne_nextBlock
  . rcases hgrows.moved with heq | hnone
    . rw [Cursor.handle, heq]
      exact hnew
    . cases hcode : s.function.code? u.cursor.handle.current with
      | none => rfl
      | some code =>
        have hpresent : s.work.function.code? u.cursor.handle.current ≠ none := by
          simp [work, hcode]
        exact absurd hnone (hgrow.evolves.present h.sane hpresent)
  . intro id
    change u.work.Open id ↔ _
    rw [hfilled, hgrown]
    constructor
    . rintro (⟨hid | hid, hne⟩ | hid)
      . exact .inl hid
      . exact absurd hid hne
      . exact .inr hid
    . rintro (hid | hid)
      . refine .inl ⟨.inl hid, ?_⟩
        intro heq
        exact hid.present (heq ▸ hnew)
      . exact .inr hid

theorem Scoped.joined (h : s.Scoped S) {arm : BlockHandle} {exit : BlockId}
    (hopen : arm.finished = false → s.work.Open arm.current)
    (hexec : Gen.exec (Gen.joinArm arm exit) s = (.ok (), t)) :
    s.Beside S (· = arm.current) t ∧
      ∀ id, t.work.Open id ↔
        s.work.Open id ∧ ¬ (id = arm.current ∧ arm.finished = false ∧ arm.current ≠ exit) := by
  obtain ⟨hskip, rfl⟩ | ⟨hne, hunfinished, hi, rfl⟩ := Gen.exec_joinArm hexec
  . refine ⟨.refl h, ?_⟩
    intro id
    rw [iff_self_and]
    rintro - ⟨-, hunfinished, hne⟩
    rcases hskip with heq | hfinished
    . exact hne heq
    . rw [hunfinished] at hfinished
      cases hfinished
  . obtain ⟨hjoin, hopens⟩ := h.join (hopen hunfinished) hi
    refine ⟨hjoin, ?_⟩
    intro id
    rw [hopens]
    simp [hunfinished, hne]

theorem Scoped.movedBehind (h : s.Scoped S) {block after : BlockId} (hne : block ≠ s.entry)
    (hexec : Gen.exec (Gen.moveBehind block after) s = (.ok (), t)) :
    s.Beside S W t ∧ ∀ id, t.work.Open id ↔ s.work.Open id := by
  obtain rfl | ⟨g, hg, rfl⟩ := Gen.exec_moveBehind hexec
  . exact ⟨.refl h, fun _ => .rfl⟩
  . exact h.move hg hne

theorem ArmBuilt.scoped {arm : BlockHandle} (h : s.ArmBuilt S t arm) : t.Scoped S := h.beside.scope

theorem ArmBuilt.open_current {arm : BlockHandle} (h : s.ArmBuilt S t arm)
    (hunfinished : arm.finished = false) : t.work.Open arm.current :=
  (h.opens _).2 (.inr ⟨rfl, hunfinished⟩)

section Arms

variable {u v : GenState} {arm : BlockHandle} {exit : BlockId} {given : Option BlockId}

theorem ArmBuilt.exitChosen (hs : s.Scoped S) (h : s.ArmBuilt S t arm)
    (hgiven : ∀ block, given = some block → s.work.Target block)
    (hexec : Gen.exec (Gen.condExit given true arm) t = (.ok exit, u)) :
    s.Beside S (fun _ => False) u ∧ u.work.Target exit ∧
      (given = none → s.function.code? exit = none) ∧
      ∀ id, u.work.Open id ↔ s.work.Open id ∨ (id = arm.current ∧ arm.finished = false) ∨
        (given = none ∧ id = exit) := by
  obtain ⟨rfl, rfl⟩ | ⟨rfl, hunfinished, rfl, hcurrent, -, rfl⟩ | ⟨rfl, rfl, rfl⟩ :=
    Gen.exec_condExit hexec
  . refine ⟨h.beside, (hgiven exit rfl).evolve hs.sane h.beside.evolves, by simp, ?_⟩
    intro id
    simp [h.opens]
  . refine ⟨h.beside, h.target, ?_, ?_⟩
    . intro _
      rw [← hcurrent]
      exact h.fresh
    . intro id
      rw [h.opens, hcurrent]
      simp [hunfinished]
  . obtain ⟨hgrow, hopens⟩ : t.Beside S (fun _ => False) (t.grow "exit") ∧ _ := h.scoped.grow
    have hbeside := h.beside.trans hgrow (by simp)
    have hnew : t.function.code? t.function.nextBlock = none := h.scoped.sane.distinct.code?_nextBlock
    refine ⟨hbeside, ⟨?_, ?_⟩, ?_, ?_⟩
    . exact ((hopens _).2 (.inr rfl)).present
    . exact Ne.symm h.scoped.sane.entry_ne_nextBlock
    . intro _
      cases hcode : s.function.code? t.function.nextBlock with
      | none => rfl
      | some code =>
        exact absurd hnew (h.beside.evolves.present hs.sane (by simp [work, hcode]))
    . intro id
      rw [hopens, h.opens]
      simp [or_assoc]

theorem ArmBuilt.first (hs : s.Scoped S) (h : s.ArmBuilt S t arm)
    (hgiven : ∀ block, given = some block → s.work.Target block)
    (hexit : Gen.exec (Gen.condExit given true arm) t = (.ok exit, u))
    (hjoin : Gen.exec (Gen.joinArm arm exit) u = (.ok (), v)) :
    s.Beside S (fun _ => False) v ∧ v.work.Target exit ∧
      (given = none → s.function.code? exit = none) ∧
      ∀ id, v.work.Open id ↔ s.work.Open id ∨ (given = none ∧ id = exit) := by
  obtain ⟨hbeside, htarget, hfresh, hopens⟩ := h.exitChosen hs hgiven hexit
  have hcurrent : arm.finished = false → u.work.Open arm.current := by
    intro hunfinished
    exact (hopens _).2 (.inr (.inl ⟨rfl, hunfinished⟩))
  obtain ⟨hjoined, hopens'⟩ := hbeside.scope.joined hcurrent hjoin
  have hbeside' : s.Beside S (fun _ => False) v :=
    hbeside.trans hjoined fun id hid => .inr (by rw [hid]; exact h.fresh)
  refine ⟨hbeside', htarget.evolve hbeside.scope.sane hjoined.evolves, hfresh, ?_⟩
  -- a given exit was there before the arm, so that the arm cannot end in it
  have hgiven' : arm.current = exit → given = none := by
    intro heq
    cases given with
    | none => rfl
    | some block =>
      obtain ⟨⟨⟩, -⟩ | ⟨⟨⟩, -⟩ | ⟨⟨⟩, -⟩ := Gen.exec_condExit hexit
      exact absurd h.fresh (heq ▸ (hgiven _ rfl).1)
  intro id
  rw [hopens', hopens]
  constructor
  . rintro ⟨hid | hid | hid, hopen⟩
    . exact .inl hid
    . by_cases heq : arm.current = exit
      . exact .inr ⟨hgiven' heq, hid.1.trans heq⟩
      . exact absurd ⟨hid.1, hid.2, heq⟩ hopen
    . exact .inr hid
  . rintro (hid | hid)
    . refine ⟨.inl hid, ?_⟩
      rintro ⟨heq, -⟩
      exact hid.present (heq ▸ h.fresh)
    . refine ⟨.inr (.inr hid), ?_⟩
      rintro ⟨heq, -, hne⟩
      exact hne (heq.symm.trans hid.2)

theorem ArmBuilt.second (h : s.ArmBuilt S t arm) (hexit : s.work.Target exit)
    (hjoin : Gen.exec (Gen.joinArm arm exit) t = (.ok (), u)) :
    s.Beside S (fun _ => False) u ∧ ∀ id, u.work.Open id ↔ s.work.Open id := by
  obtain ⟨hjoined, hopens⟩ := h.scoped.joined h.open_current hjoin
  refine ⟨h.beside.trans hjoined fun id hid => .inr (by rw [hid]; exact h.fresh), ?_⟩
  have hne : arm.current ≠ exit := fun heq => hexit.1 (heq ▸ h.fresh)
  intro id
  rw [hopens, h.opens]
  constructor
  . rintro ⟨hid | hid, hopen⟩
    . exact hid
    . exact absurd ⟨hid.1, hid.2, hne⟩ hopen
  . intro hid
    refine ⟨.inl hid, ?_⟩
    rintro ⟨heq, -⟩
    exact hid.present (heq ▸ h.fresh)

end Arms

end GenState

namespace Gen

variable {S : Scope} {P : GenState → Prop} {s t : GenState}

theorem inBlock_built {x : Gen Unit} {Q : Unit → GenState → Prop} (hx : Tame S (fun _ => True) x Q)
    (hs : s.Scoped S) {label : String} {arm : BlockHandle}
    (hexec : exec (inBlock label x) s = (.ok arm, t)) (hfinished : t.Settled S) :
    s.ArmBuilt S t arm := by
  obtain ⟨u, hu, rfl, rfl⟩ := exec_inBlock.1 hexec
  obtain ⟨hgrows, hready, -⟩ := hx.run hu (hs.intoNew label) trivial hfinished
  exact hs.armBuilt hgrows hready

theorem otherArm_beside {y : Option (Gen Unit)}
    (hy : ∀ z, y = some z → Tame S (fun _ => True) z fun _ _ => True) (hs : s.Scoped S)
    {exit : BlockId} (hexit : s.work.Target exit) {other : Option BlockHandle}
    (h : OtherArm exit s t other y) (hfinished : t.Settled S) :
    s.Beside S (fun _ => False) t ∧ ∀ id, t.work.Open id ↔ s.work.Open id := by
  cases y with
  | none =>
    obtain ⟨-, rfl⟩ := h
    exact ⟨.refl hs, fun _ => .rfl⟩
  | some y =>
    obtain ⟨arm, u, harm, hjoin, -⟩ := h
    have htrace := (joinArm_traced _ _).of_exec hjoin
    exact (inBlock_built (hy y rfl) hs harm (hfinished.of_subset htrace)).second hexit hjoin

theorem otherArm_traced {y : Option (Gen Unit)} (hy : ∀ z, y = some z → Traced z) {exit : BlockId}
    {other : Option BlockHandle} (h : OtherArm exit s t other y) : s.trace ⊆ t.trace := by
  cases y with
  | none =>
    obtain ⟨-, rfl⟩ := h
    exact List.Subset.refl _
  | some y =>
    obtain ⟨arm, u, harm, hjoin, -⟩ := h
    exact List.Subset.trans ((inBlock_traced (hy y rfl) _).of_exec harm)
      ((joinArm_traced _ _).of_exec hjoin)

structure CondBuilt (S : Scope) (given : Option BlockId) (exit : BlockId) (s₁ s₄ s₅ s₆ : GenState) :
    Prop where
  first : s₁.Beside S (fun _ => False) s₄
  target : s₄.work.Target exit
  fresh : given = none → s₁.function.code? exit = none
  second : s₄.Beside S (fun _ => False) s₅
  moved : s₅.Beside S (fun _ => False) s₆
  opens : ∀ id, s₆.work.Open id ↔ s₁.work.Open id ∨ (given = none ∧ id = exit)

section Cond

variable {x : Gen Unit} {y : Option (Gen Unit)} (hx : Tame S (fun _ => True) x fun _ _ => True)
  (hy : ∀ z, y = some z → Tame S (fun _ => True) z fun _ _ => True)

include hx hy

omit hx in
theorem settled_cond {s₂ s₃ s₄ s₅ s₆ : GenState} {arm : BlockHandle} {other : Option BlockHandle}
    {given : Option BlockId} {exit after : BlockId}
    (hexit : exec (condExit given true arm) s₂ = (.ok exit, s₃))
    (hjoin : exec (joinArm arm exit) s₃ = (.ok (), s₄)) (hother : OtherArm exit s₄ s₅ other y)
    (hmove : exec (moveBehind exit after) s₅ = (.ok (), s₆)) (hsettled : s₆.Settled S) :
    s₂.Settled S ∧ s₄.Settled S ∧ s₅.Settled S := by
  have hsettled₅ := hsettled.of_subset ((moveBehind_traced _ _).of_exec hmove)
  have hsettled₄ := hsettled₅.of_subset (otherArm_traced (fun z hz => (hy z hz).traced) hother)
  have hsettled₃ := hsettled₄.of_subset ((joinArm_traced _ _).of_exec hjoin)
  exact ⟨hsettled₃.of_subset ((condExit_traced _ _ _).of_exec hexit), hsettled₄, hsettled₅⟩

theorem condBuilt {s₁ s₂ s₃ s₄ s₅ s₆ : GenState} {arm : BlockHandle} {other : Option BlockHandle}
    {given : Option BlockId} {exit : BlockId} (hs₁ : s₁.Scoped S)
    (hgiven : ∀ block, given = some block → s₁.work.Target block)
    (harm : exec (inBlock "then" x) s₁ = (.ok arm, s₂))
    (hexit : exec (condExit given true arm) s₂ = (.ok exit, s₃))
    (hjoin : exec (joinArm arm exit) s₃ = (.ok (), s₄)) (hother : OtherArm exit s₄ s₅ other y)
    (hmove : exec (moveBehind exit (other.getD arm).current) s₅ = (.ok (), s₆))
    (hfinished : s₆.Settled S) : CondBuilt S given exit s₁ s₄ s₅ s₆ := by
  obtain ⟨hfinished₂, -, hfinished₅⟩ := settled_cond hy hexit hjoin hother hmove hfinished
  obtain ⟨hbeside₄, htarget, hfresh, hopens₄⟩ :=
    (inBlock_built hx hs₁ harm hfinished₂).first hs₁ hgiven hexit hjoin
  obtain ⟨hbeside₅, hopens₅⟩ := otherArm_beside hy hbeside₄.scope htarget hother hfinished₅
  obtain ⟨hbeside₆, hopens₆⟩ : s₅.Beside S (fun _ => False) s₆ ∧ _ :=
    hbeside₅.scope.movedBehind (htarget.evolve hbeside₄.scope.sane hbeside₅.evolves).2 hmove
  refine ⟨hbeside₄, htarget, hfresh, hbeside₅, hbeside₆, ?_⟩
  intro id
  rw [hopens₆, hopens₅, hopens₄]

theorem cond_tame (condition : Operand) (given : Option BlockId) :
    Tame S (fun s => ∀ block, given = some block → s.work.Target block)
      (cond condition (.body x) (y.map .body) given) fun _ _ => True := by
  have htraced : Traced (cond condition (.body x) (y.map .body) given) := by
    apply cond_traced
    . rintro _ ⟨⟩
      exact hx.traced
    . intro z hz
      obtain ⟨z', hz', ⟨⟩⟩ := Option.map_eq_some_iff.1 hz
      exact (hy z hz').traced
  refine ⟨htraced, ?_⟩
  intro s a t hexec hs hgiven hfinished
  obtain ⟨hopen, c, s₁, arm, s₂, exit, s₃, s₄, other, s₅, s₆, hc, harm, hexit, hjoin, hother, hmove,
    hi, rfl⟩ := exec_cond hexec
  -- the condition is converted at the cursor, the rest goes on beside it
  obtain ⟨is, n, m, hext, rfl, -⟩ := (Straight.convert _ _).exec_ok hc
  obtain ⟨hgrows₁, hs₁⟩ := hs.extend hext
  have hgiven₁ (block) (hblock : given = some block) : (s.extend is n m).work.Target block :=
    (hgiven block hblock).evolve hs.sane hgrows₁.evolves
  have hbuilt := condBuilt hx hy hs₁.toScoped hgiven₁ harm hexit hjoin hother hmove hfinished
  have hbeside := (hbuilt.first.trans hbuilt.second (by simp)).trans hbuilt.moved (by simp)
  have hopen₁ : (s.extend is n m).cursor.finished = false := hopen
  have hblock : s₆.cursor.block = (s.extend is n m).cursor.block := by rw [hbeside.cursor]
  obtain ⟨hjoin₆, hopens'⟩ :=
    hbeside.scope.join ((hbuilt.opens _).2 (.inl (hblock ▸ hs₁.opened hopen₁))) hi
  have hbeside' := (hbeside.mono fun _ => False.elim).trans hjoin₆ fun id hid =>
    .inl (show (s.extend is n m).Writes id from ⟨hid.trans hblock, hopen₁⟩)
  have hexits (id) : (s₆.terminate s₆.cursor.block
      (.branchIf c arm.start (other.elim exit BlockHandle.start))).work.Open id ↔
        ((s.extend is n m).work.Open id ∧ ¬ (s.extend is n m).Writes id) ∨
          (given.isSome = false ∧ id = exit) := by
    rw [hopens', hbuilt.opens, GenState.writes_iff hopen₁, hblock, Option.isSome_eq_false_iff,
      Option.isNone_iff_eq_none]
    constructor
    . rintro ⟨hid | hid, hne⟩
      . exact .inl ⟨hid, hne⟩
      . exact .inr hid
    . rintro (⟨hid, hne⟩ | hid)
      . exact ⟨.inl hid, hne⟩
      . refine ⟨.inr hid, ?_⟩
        rintro rfl
        exact hs₁.present (hid.2 ▸ hbuilt.fresh hid.1)
  obtain ⟨hgrows, hready⟩ := GenState.grows_goOn hopen₁ hbeside'.evolves hbeside'.scope
    (by rw [hbeside'.cursor]) hbeside'.library hexits (by simpa using hbuilt.fresh)
  exact ⟨hgrows₁.trans hgrows hs.sane, hready, trivial⟩

end Cond

end Gen

namespace GenState

structure Around (S : Scope) (s t : GenState) : Prop where
  evolves : Work.Evolves s.Writes s.work t.work
  scope : t.Scoped S
  cursor : t.cursor = { s.cursor with finished := t.cursor.finished }
  library : s.SameLibrary t

variable {S : Scope} {s t u : GenState} {W : BlockId → Prop}

theorem Around.beside (h : s.Around S t) (h' : t.Beside S W u)
    (hW : ∀ id, W id → s.Writes id ∨ s.function.code? id = none) : s.Around S u := by
  refine ⟨h.evolves.trans h'.evolves hW, h'.scope, ?_, h.library.trans h'.library⟩
  rw [h'.cursor]
  exact h.cursor

theorem Ready.around (h : s.Ready S) : s.Around S s := ⟨.refl _, h.toScoped, rfl, .refl s⟩

end GenState

namespace Gen

variable {S : Scope} {P : GenState → Prop} {s t u : GenState}

theorem loopHeader_around (hs : s.Ready S) (hopen : s.cursor.finished = false) {header : BlockId}
    (hexec : exec loopHeader s = (.ok header, t)) :
    s.Around S t ∧ t.work.Target header ∧
      (s.Writes header ∨ s.function.code? header = none) ∧ t.work.Holds header [] ∧
      ∀ id, t.work.Open id ↔ (s.work.Open id ∧ ¬ s.Writes id) ∨ id = header := by
  obtain ⟨rfl, hne, hempty, rfl⟩ | ⟨rfl, hi, rfl⟩ := exec_loopHeader hopen hexec
  . refine ⟨hs.around, ⟨hs.present, hne⟩, .inl ⟨rfl, hopen⟩, Work.holds_of_ne hne hempty, ?_⟩
    intro id
    rw [← GenState.writes_iff hopen]
    exact (GenState.Grows.refl hs).opens id
  . have hnew : s.function.code? s.function.nextBlock = none := hs.sane.distinct.code?_nextBlock
    obtain ⟨hgrow, hopens⟩ : s.Beside S (fun _ => False) (s.grow "loop") ∧ _ := hs.toScoped.grow
    obtain ⟨hjoin, hopens'⟩ := hgrow.scope.join ((hopens _).2 (.inl (hs.opened hopen))) hi
    have haround := (hs.around.beside hgrow (by simp)).beside hjoin fun id hid =>
      .inl ⟨hid, hopen⟩
    have hne : s.function.nextBlock ≠ s.cursor.block := fun heq => hs.present (heq ▸ hnew)
    refine ⟨⟨haround.evolves, ?_, rfl, haround.library⟩, ⟨?_, ?_⟩, .inr hnew, ?_, ?_⟩
    . exact { haround.scope with }
    . exact hjoin.evolves.present hgrow.scope.sane (Work.holds_grow_new hs.sane).present
    . exact Ne.symm hs.sane.entry_ne_nextBlock
    . exact hjoin.evolves.kept (Work.holds_grow_new hs.sane) hne
    . intro id
      change ((s.grow "loop").terminate s.cursor.block _).work.Open id ↔ _
      rw [hopens', hopens, GenState.writes_iff hopen]
      constructor
      . rintro ⟨hid | hid, hne⟩
        . exact .inl ⟨hid, hne⟩
        . exact .inr hid
      . rintro (⟨hid, hne⟩ | rfl)
        . exact ⟨.inl hid, hne⟩
        . exact ⟨.inr rfl, hne⟩

structure Chosen (S : Scope) (needed : Bool) (block : BlockId) (s t : GenState) (id : BlockId) :
    Prop where
  beside : s.Beside S (fun _ => False) t
  target : t.work.Target id
  new : needed = true → s.function.code? id = none
  old : needed = false → id = block
  empty : needed = true → t.work.Holds id []
  opens : ∀ other, t.work.Open other ↔ s.work.Open other ∨ (needed = true ∧ other = id)

theorem newBlock_chosen (hs : s.Scoped S) (label : String) (block : BlockId) :
    Chosen S true block s (s.grow label) s.function.nextBlock := by
  obtain ⟨hgrow, hopens⟩ : s.Beside S (fun _ => False) (s.grow label) ∧ _ := hs.grow
  refine ⟨hgrow, ⟨?_, ?_⟩, fun _ => hs.sane.distinct.code?_nextBlock, by simp, fun _ => ?_, ?_⟩
  . exact (Work.holds_grow_new hs.sane).present
  . exact Ne.symm hs.sane.entry_ne_nextBlock
  . exact Work.holds_grow_new hs.sane
  . intro id
    rw [hopens]
    simp

theorem chosen_of_old (hs : s.Scoped S) {block : BlockId} (hblock : s.work.Target block) :
    Chosen S false block s s block :=
  ⟨.refl hs, hblock, by simp, fun _ => rfl, by simp, by simp⟩

theorem orNewBlock_chosen (hs : s.Scoped S) {needed : Bool} {label : String} {block id : BlockId}
    (hblock : s.work.Target block) (hexec : exec (orNewBlock needed label block) s = (.ok id, t)) :
    Chosen S needed block s t id := by
  obtain ⟨rfl, rfl, rfl⟩ | ⟨rfl, rfl, rfl⟩ := exec_orNewBlock hexec
  . exact newBlock_chosen hs label block
  . exact chosen_of_old hs hblock

theorem leave_chosen (hs : s.Scoped S) {parts : LoopParts} {exit : BlockId}
    (hgiven : ∀ block, parts.exit = some block → s.work.Target block)
    (hexec : exec parts.leave s = (.ok exit, t)) : Chosen S parts.exit.isNone exit s t exit := by
  obtain ⟨hexit, rfl⟩ | ⟨hexit, rfl, rfl⟩ := LoopParts.exec_leave hexec
  . rw [hexit]
    exact chosen_of_old hs (hgiven exit hexit)
  . rw [hexit]
    exact newBlock_chosen hs _ _

/--
The blocks of a loop: each of them is open and left to be filled, and so is the exit unless it was
given.
-/
structure LoopParts.Laid (S : Scope) (parts : LoopParts) (s t : GenState)
    (header body increment exit : BlockId) : Prop where
  around : s.Around S t
  target_header : t.work.Target header
  target_body : t.work.Target body
  target_increment : t.work.Target increment
  target_exit : t.work.Target exit
  written : ∀ id, id = header ∨ id = body ∨ id = increment →
    s.Writes id ∨ s.function.code? id = none
  body_eq : parts.compare.isSome = false → body = header
  body_ne : parts.compare.isSome = true → body ≠ header
  increment_eq : parts.needsIncrement = false → increment = header
  increment_ne : parts.needsIncrement = true → increment ≠ header ∧ increment ≠ body
  exit_new : parts.exit = none → s.function.code? exit = none
  exit_ne : parts.exit = none → exit ≠ header ∧ exit ≠ body ∧ exit ≠ increment
  empty : ∀ id, (id = header ∨ id = body ∨ id = increment) ∨ (parts.exit = none ∧ id = exit) →
    t.work.Holds id []
  opens : ∀ id, t.work.Open id ↔ (s.work.Open id ∧ ¬ s.Writes id) ∨
    (id = header ∨ id = body ∨ id = increment) ∨ (parts.exit = none ∧ id = exit)

section Laid

variable {parts : LoopParts} {header body increment exit : BlockId} {v w : GenState}

theorem Chosen.ne {needed : Bool} {block id other : BlockId} (h : Chosen S needed block s t id)
    (hneeded : needed = true) (hother : s.work.Target other) : id ≠ other :=
  fun heq => hother.1 (heq ▸ h.new hneeded)

theorem Chosen.holds {needed : Bool} {block id : BlockId} (h : Chosen S needed block s t id)
    (hblock : s.work.Holds block []) : t.work.Holds id [] := by
  cases hneeded : needed with
  | false =>
    rw [h.old hneeded]
    exact h.beside.evolves.kept hblock not_false
  | true => exact h.empty hneeded

theorem Chosen.written {needed : Bool} {block id : BlockId} (h : Chosen S needed block t u id)
    (hs : s.Ready S) (ht : s.Around S t)
    (hblock : s.Writes block ∨ s.function.code? block = none) :
    s.Writes id ∨ s.function.code? id = none := by
  cases hneeded : needed with
  | false =>
    rw [h.old hneeded]
    exact hblock
  | true =>
    right
    cases hcode : s.function.code? id with
    | none => rfl
    | some code =>
      exact absurd (h.new hneeded) (ht.evolves.present hs.sane (by simp [GenState.work, hcode]))

theorem laid (hs : s.Ready S) (hopen : s.cursor.finished = false)
    (hgiven : ∀ block, parts.exit = some block → s.work.Target block)
    (hheader : exec loopHeader s = (.ok header, t))
    (hbody : exec (orNewBlock parts.compare.isSome "body" header) t = (.ok body, u))
    (hincrement : exec (orNewBlock parts.needsIncrement "increment" header) u = (.ok increment, v))
    (hexit : exec parts.leave v = (.ok exit, w)) :
    parts.Laid S s w header body increment exit := by
  obtain ⟨haround, htarget, hwritten, hempty, hopens⟩ := loopHeader_around hs hopen hheader
  have hb := orNewBlock_chosen haround.scope htarget hbody
  have haround₁ := haround.beside hb.beside (by simp)
  have htarget₁ := htarget.evolve haround.scope.sane hb.beside.evolves
  have hi := orNewBlock_chosen hb.beside.scope htarget₁ hincrement
  have haround₂ := haround₁.beside hi.beside (by simp)
  have htarget₂ := htarget₁.evolve hb.beside.scope.sane hi.beside.evolves
  have hbody₂ := hb.target.evolve hb.beside.scope.sane hi.beside.evolves
  have he := leave_chosen hi.beside.scope
    (fun block hblock => (hgiven block hblock).evolve hs.sane haround₂.evolves) hexit
  have hsane := hi.beside.scope.sane
  have hnone : parts.exit.isNone = true ↔ parts.exit = none := Option.isNone_iff_eq_none
  have hempty₁ := hb.beside.evolves.kept hempty not_false
  have hkept {id} (h : v.work.Holds id []) : w.work.Holds id [] := he.beside.evolves.kept h not_false
  exact {
    around := haround₂.beside he.beside (by simp)
    target_header := htarget₂.evolve hsane he.beside.evolves
    target_body := hbody₂.evolve hsane he.beside.evolves
    target_increment := hi.target.evolve hsane he.beside.evolves
    target_exit := he.target
    written := by
      rintro id (rfl | rfl | rfl)
      . exact hwritten
      . exact hb.written hs haround hwritten
      . exact hi.written hs haround₁ hwritten
    body_eq := hb.old
    body_ne := fun h => hb.ne h htarget
    increment_eq := hi.old
    increment_ne := fun h => ⟨hi.ne h htarget₁, hi.ne h hb.target⟩
    exit_new := by
      intro h
      cases hcode : s.function.code? exit with
      | none => rfl
      | some code =>
        exact absurd (he.new (hnone.2 h))
          (haround₂.evolves.present hs.sane (by simp [GenState.work, hcode]))
    exit_ne := fun h => ⟨he.ne (hnone.2 h) htarget₂, he.ne (hnone.2 h) hbody₂,
      he.ne (hnone.2 h) hi.target⟩
    empty := by
      rintro id ((rfl | rfl | rfl) | ⟨h, rfl⟩)
      . exact hkept (hi.beside.evolves.kept hempty₁ not_false)
      . exact hkept (hi.beside.evolves.kept (hb.holds hempty) not_false)
      . exact hkept (hi.holds hempty₁)
      . exact he.empty (hnone.2 h)
    opens := by
      intro id
      rw [he.opens, hi.opens, hb.opens, hopens, hnone]
      have hold : parts.compare.isSome = false → id = body → id = header :=
        fun h hid => hid.trans (hb.old h)
      have hold' : parts.needsIncrement = false → id = increment → id = header :=
        fun h hid => hid.trans (hi.old h)
      cases hc : parts.compare.isSome <;> cases hn : parts.needsIncrement <;> grind }

end Laid

structure LoopParts.Tame (S : Scope) (parts : LoopParts) : Prop where
  compare : ∀ {run}, parts.compare = some run →
    ∀ vs, Gen.Tame S (fun _ => True) (run vs) fun _ _ => True
  body : ∀ {run}, parts.body = some run →
    ∀ vs, Gen.Tame S (fun _ => True) (run vs) fun _ _ => True
  increment : ∀ {run}, parts.increment = some run →
    ∀ vs, Gen.Tame S (fun _ => True) (run vs) fun _ _ => True

theorem LoopParts.Tame.traced {parts : LoopParts} (h : parts.Tame S) : parts.Traced :=
  fun old => ⟨fun hrun vs => (h.compare hrun vs).traced old, fun hrun vs => (h.body hrun vs).traced old,
    fun hrun vs => (h.increment hrun vs).traced old⟩

structure Filled (S : Scope) (used : Bool) (block : BlockId) (s t : GenState) : Prop where
  beside : s.Beside S (fun id => used = true ∧ id = block) t
  opens : ∀ id, t.work.Open id ↔ s.work.Open id ∧ ¬ (used = true ∧ id = block)

theorem Filled.target {used : Bool} {block id : BlockId} (h : Filled S used block s t)
    (hs : s.Scoped S) (hid : s.work.Target id) : t.work.Target id :=
  hid.evolve hs.sane h.beside.evolves

theorem loopPart_filled (hs : s.Scoped S) {x : Gen Unit} {next exit block : BlockId}
    (hx : Tame S (fun _ => True) x fun _ t => t.cursor.finished = true)
    (hnext : s.work.Target next) (hexit : s.work.Target exit) (hblock : s.work.Open block)
    (hexec : exec x (s.inside next exit block) = (.ok (), u)) (hfinished : u.Settled S) :
    Filled S true block s { u with cursor := s.cursor } := by
  obtain ⟨hgrows, hu, hclosed⟩ := hx.run hexec (hs.inside hnext hexit hblock) trivial hfinished
  obtain ⟨hfill, hopens⟩ := hs.fill rfl hgrows hu
  refine ⟨hfill.mono fun id hid => ⟨rfl, hid⟩, ?_⟩
  intro id
  change u.work.Open id ↔ _
  rw [hopens, or_iff_left (GenState.not_writes hclosed)]
  simp

section Filled

variable {parts : LoopParts} {slots : List Value} {header body increment exit last last' : BlockId}

theorem Filled.unused (hs : s.Scoped S) {block : BlockId} : Filled S false block s s :=
  ⟨.refl hs, by simp⟩

variable (h : parts.Tame S) (hs : s.Scoped S) (hincrement : s.work.Target increment)
  (hexit : s.work.Target exit) (hfinished : t.Settled S)

include h hs hincrement hexit hfinished

theorem bodyPart_filled (hopen : s.work.Open body)
    (hexec : exec (parts.bodyPart slots header body increment exit) s = (.ok last, t)) :
    Filled S (parts.body.isSome || parts.compare.isSome) body s t := by
  obtain ⟨hused, u, hu, rfl⟩ | ⟨hused, rfl⟩ := LoopParts.exec_bodyPart hexec
  . have hturn : Tame S (fun _ => True) (parts.turn slots increment)
        fun _ t => t.cursor.finished = true := by
      unfold LoopParts.turn
      split
      . next run hrun =>
        refine (loadAll_straight _).tame.bind fun vs => (h.body hrun vs).bind fun _ => ?_
        exact branch_tame _
      . exact branch_tame _
    rw [hused]
    exact loopPart_filled hs hturn hincrement hexit hopen hu hfinished
  . rw [hused]
    exact .unused hs

theorem testPart_filled (hopen : parts.compare.isSome = true → s.work.Open header)
    (hexec : exec (parts.testPart slots header body increment exit last) s = (.ok last', t)) :
    Filled S parts.compare.isSome header s t := by
  obtain ⟨run, hrun, u, hu, rfl⟩ | ⟨hnone, rfl⟩ := LoopParts.exec_testPart hexec
  . have htest : Tame S (fun _ => True) (LoopParts.test run slots body exit)
        fun _ t => t.cursor.finished = true := by
      unfold LoopParts.test
      refine (loadAll_straight _).tame.bind fun vs => (h.compare hrun vs).bind fun o => ?_
      exact (Straight.convert _ _).tame.bind fun c => close_tame rfl
    rw [hrun] at hopen ⊢
    exact loopPart_filled hs htest hincrement hexit (hopen rfl) hu hfinished
  . rw [hnone]
    exact .unused hs

theorem incrementPart_filled (hopen : parts.increment.isSome = true → s.work.Open increment)
    (hexec : exec (parts.incrementPart slots header increment exit last) s = (.ok last', t)) :
    Filled S parts.increment.isSome increment s t := by
  obtain ⟨run, hrun, u, hu, rfl⟩ | ⟨hnone, rfl⟩ := LoopParts.exec_incrementPart hexec
  . have hpart : Tame S (fun _ => True) (do run slots; branch header)
        fun _ t => t.cursor.finished = true :=
      (h.increment hrun _).bind fun _ => branch_tame _
    rw [hrun] at hopen ⊢
    exact loopPart_filled hs hpart hincrement hexit (hopen rfl) hu hfinished
  . rw [hnone]
    exact .unused hs

end Filled

structure LoopParts.Done (S : Scope) (parts : LoopParts) (s₁ s₅ s₆ s₇ s₈ s₉ : GenState)
    (header body increment exit : BlockId) : Prop where
  laid : parts.Laid S s₁ s₅ header body increment exit
  body : Filled S (parts.body.isSome || parts.compare.isSome) body s₅ s₆
  test : Filled S parts.compare.isSome header s₆ s₇
  increment : Filled S parts.increment.isSome increment s₇ s₈
  moved : s₈.Beside S (fun _ => False) s₉
  opens : ∀ id, s₉.work.Open id ↔ s₈.work.Open id

section Loop

variable {parts : LoopParts} (h : parts.Tame S)

include h

theorem settled_loop {s₆ s₇ s₈ s₉ : GenState} {slots : List Value}
    {header body increment exit last₆ last₇ last after : BlockId}
    (h₇ : exec (parts.testPart slots header body increment exit last₆) s₆ = (.ok last₇, s₇))
    (h₈ : exec (parts.incrementPart slots header increment exit last₇) s₇ = (.ok last, s₈))
    (hmove : exec (moveBehind exit after) s₈ = (.ok (), s₉)) (hsettled : s₉.Settled S) :
    s₆.Settled S ∧ s₇.Settled S ∧ s₈.Settled S := by
  have hsettled₈ := hsettled.of_subset ((moveBehind_traced _ _).of_exec hmove)
  have hsettled₇ := hsettled₈.of_subset ((incrementPart_traced h.traced _ _ _ _ _).of_exec h₈)
  exact ⟨hsettled₇.of_subset ((testPart_traced h.traced _ _ _ _ _ _).of_exec h₇), hsettled₇, hsettled₈⟩

theorem loopDone {s₁ s₂ s₃ s₄ s₅ s₆ s₇ s₈ s₉ : GenState} {slots : List Value}
    {header body increment exit last₆ last₇ last : BlockId} (hs₁ : s₁.Ready S)
    (hopen : s₁.cursor.finished = false)
    (hgiven : ∀ block, parts.exit = some block → s₁.work.Target block)
    (hheader : exec loopHeader s₁ = (.ok header, s₂))
    (hbody : exec (orNewBlock parts.compare.isSome "body" header) s₂ = (.ok body, s₃))
    (hincrement : exec (orNewBlock parts.needsIncrement "increment" header) s₃ = (.ok increment, s₄))
    (hexit : exec parts.leave s₄ = (.ok exit, s₅))
    (h₆ : exec (parts.bodyPart slots header body increment exit) s₅ = (.ok last₆, s₆))
    (h₇ : exec (parts.testPart slots header body increment exit last₆) s₆ = (.ok last₇, s₇))
    (h₈ : exec (parts.incrementPart slots header increment exit last₇) s₇ = (.ok last, s₈))
    (hmove : exec (moveBehind exit last) s₈ = (.ok (), s₉)) (hfinished : s₉.Settled S) :
    parts.Done S s₁ s₅ s₆ s₇ s₈ s₉ header body increment exit := by
  obtain ⟨hfinished₆, hfinished₇, hfinished₈⟩ := settled_loop h h₇ h₈ hmove hfinished
  have hlaid := laid hs₁ hopen hgiven hheader hbody hincrement hexit
  have hscope := hlaid.around.scope
  have hi := hlaid.target_increment
  have he := hlaid.target_exit
  have hbodyPart := bodyPart_filled h hscope hi he hfinished₆
    ((hlaid.opens body).2 (.inr (.inl (.inr (.inl rfl))))) h₆
  have hi₆ := hbodyPart.target hscope hi
  have he₆ := hbodyPart.target hscope he
  have hopen₆ : parts.compare.isSome = true → s₆.work.Open header := by
    intro hcompare
    rw [hbodyPart.opens, hlaid.opens]
    exact ⟨.inr (.inl (.inl rfl)), fun heq => hlaid.body_ne hcompare heq.2.symm⟩
  have htestPart := testPart_filled h hbodyPart.beside.scope hi₆ he₆ hfinished₇ hopen₆ h₇
  have hi₇ := htestPart.target hbodyPart.beside.scope hi₆
  have he₇ := htestPart.target hbodyPart.beside.scope he₆
  have hopen₇ : parts.increment.isSome = true → s₇.work.Open increment := by
    intro hsome
    rw [htestPart.opens, hbodyPart.opens, hlaid.opens]
    have hne := hlaid.increment_ne
    unfold LoopParts.needsIncrement at hne
    grind
  have hincrementPart := incrementPart_filled h htestPart.beside.scope hi₇ he₇ hfinished₈ hopen₇ h₈
  have he₈ := hincrementPart.target htestPart.beside.scope he₇
  obtain ⟨hmoved, hopens₉⟩ : s₈.Beside S (fun _ => False) s₉ ∧ _ :=
    hincrementPart.beside.scope.movedBehind he₈.2 hmove
  exact ⟨hlaid, hbodyPart, htestPart, hincrementPart, hmoved, hopens₉⟩

omit h in
theorem LoopParts.Done.around {s₁ s₅ s₆ s₇ s₈ s₉ : GenState} {header body increment exit : BlockId}
    (hdone : parts.Done S s₁ s₅ s₆ s₇ s₈ s₉ header body increment exit) : s₁.Around S s₉ := by
  have hlaid := hdone.laid
  refine GenState.Around.beside ?_ hdone.moved (by simp)
  refine GenState.Around.beside ?_ hdone.increment.beside fun id hid =>
    hlaid.written id (.inr (.inr hid.2))
  refine GenState.Around.beside ?_ hdone.test.beside fun id hid => hlaid.written id (.inl hid.2)
  exact hlaid.around.beside hdone.body.beside fun id hid => hlaid.written id (.inr (.inl hid.2))

theorem loop_tame :
    Tame S (fun s => ∀ block, parts.exit = some block → s.work.Target block) (loop parts)
      fun _ _ => True := by
  refine ⟨loop_traced h.traced, ?_⟩
  intro s slots t hexec hs hgiven hfinished
  obtain ⟨hparts, hopen, s₁, header, s₂, body, s₃, increment, s₄, exit, s₅, last₆, s₆, last₇, s₇, last,
    s₈, s₉, hslots, hheader, hbody, hincrement, hexit, h₆, h₇, h₈, hmove, rfl⟩ :=
    LoopParts.exec_loop hexec
  obtain ⟨is, n, m, hext, rfl, -⟩ := (Straight.mapM slot_straight _).exec_ok hslots
  obtain ⟨hgrows₁, hs₁⟩ := hs.extend hext
  have hopen₁ : (s.extend is n m).cursor.finished = false := hopen
  have hdone := loopDone h hs₁ hopen₁
    (fun block hblock => (hgiven block hblock).evolve hs.sane hgrows₁.evolves) hheader hbody
    hincrement hexit h₆ h₇ h₈ hmove hfinished
  have hlaid := hdone.laid
  have hexits (id) : s₉.work.Open id ↔
      ((s.extend is n m).work.Open id ∧ ¬ (s.extend is n m).Writes id) ∨
        (parts.exit.isSome = false ∧ id = exit) := by
    rw [hdone.opens, hdone.increment.opens, hdone.test.opens, hdone.body.opens, hlaid.opens,
      Option.isSome_eq_false_iff, Option.isNone_iff_eq_none]
    have hothers : (s.extend is n m).work.Open id → ¬ (s.extend is n m).Writes id →
        ¬ (id = header ∨ id = body ∨ id = increment) := by
      intro hid hwrites hin
      rcases hlaid.written id hin with hid' | hnone
      . exact hwrites hid'
      . exact hid.present hnone
    have hne := hlaid.increment_ne
    have heq := hlaid.increment_eq
    have hne' := hlaid.body_ne
    have heq' := hlaid.body_eq
    have hexit' := hlaid.exit_ne
    unfold LoopParts.needsIncrement at hne heq
    grind
  obtain ⟨hgrows, hready⟩ := GenState.grows_goOn hopen₁ hdone.around.evolves hdone.around.scope
    hdone.around.cursor hdone.around.library hexits (by simpa using hlaid.exit_new)
  exact ⟨hgrows₁.trans hgrows hs.sane, hready, trivial⟩

end Loop

end Gen

end ScriptedIR
