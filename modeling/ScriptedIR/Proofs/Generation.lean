import ScriptedIR.Proofs.Trace

/-!
Generation as growth. A computation that runs from a sound state writes to the block at its cursor and
to blocks of its own, and leaves all of them finished except for the one where its cursor then stands.
This is shown for the steps that bodies are made of and is closed under sequence, conditionals and
loops.
-/

namespace ScriptedIR

/--
What scripts may do: call by some texts, expand the macros that are found under them, and build blocks
of their own.
-/
structure Scope where
  texts : String → Prop
  macros : Macro → Prop
  blocks : Prop

def Scope.admits (S : Scope) : Operand → Prop
  | .str text => S.texts text
  | _ => True

def Work.Target (w : Work) (id : BlockId) : Prop :=
  w.function.code? id ≠ none ∧ id ≠ w.entry

theorem Work.Target.evolve {W : BlockId → Prop} {v w : Work} {id : BlockId} (h : v.Target id)
    (hv : v.Sane) (hw : Evolves W v w) : w.Target id := by
  refine ⟨hw.present hv h.1, ?_⟩
  rw [hw.entry]
  exact h.2

namespace GenState

variable {S : Scope} {s t u : GenState}

def Writes (s : GenState) (id : BlockId) : Prop :=
  id = s.cursor.block ∧ s.cursor.finished = false

theorem writes_iff (h : s.cursor.finished = false) {id : BlockId} :
    s.Writes id ↔ id = s.cursor.block := by
  simp [Writes, h]

theorem not_writes (h : s.cursor.finished = true) {id : BlockId} : ¬ s.Writes id := by
  simp [Writes, h]

structure Scoped (S : Scope) (s : GenState) : Prop where
  sane : s.work.Sane
  present : s.function.code? s.cursor.block ≠ none
  next : ∀ {id}, s.cursor.next = some id → s.work.Target id
  exit : ∀ {id}, s.cursor.exit = some id → s.work.Target id
  handles : ∀ {name : String} {h : BlockHandle}, s.handles[name]? = some h → s.work.Target h.start
  names : ∀ {name : String} {o : Operand}, s.names[name]? = some o → S.admits o
  macros : ∀ {name m}, S.texts name → s.library.macros.get? name .everything = some m → S.macros m

structure Ready (S : Scope) (s : GenState) : Prop extends s.Scoped S where
  opened : s.cursor.finished = false → s.work.Open s.cursor.block

def SameLibrary (s t : GenState) : Prop :=
  t.name = s.name ∧ ∃ m : Module,
    t.library = { s.library with module := m } ∧ m.functions = s.library.module.functions

theorem SameLibrary.refl (s : GenState) : s.SameLibrary s := ⟨rfl, s.library.module, rfl, rfl⟩

theorem SameLibrary.trans (h : s.SameLibrary t) (h' : t.SameLibrary u) : s.SameLibrary u := by
  obtain ⟨hname, m, hlib, hm⟩ := h
  obtain ⟨hname', m', hlib', hm'⟩ := h'
  refine ⟨hname'.trans hname, m', ?_, ?_⟩
  . rw [hlib', hlib]
  . rw [hm', hlib, hm]

theorem SameLibrary.macros (h : s.SameLibrary t) : t.library.macros = s.library.macros := by
  obtain ⟨-, m, hlib, -⟩ := h
  rw [hlib]

/--
The function of one state has grown to that of another.
-/
structure Grows (s t : GenState) : Prop where
  evolves : Work.Evolves s.Writes s.work t.work
  opens : ∀ id, t.work.Open id ↔ (s.work.Open id ∧ ¬ s.Writes id) ∨ t.Writes id
  cursor : t.cursor = { s.cursor with block := t.cursor.block, finished := t.cursor.finished }
  moved : t.cursor.block = s.cursor.block ∨ s.function.code? t.cursor.block = none
  still : s.cursor.finished = true → t.cursor = s.cursor
  library : s.SameLibrary t

theorem Ready.open_writes (h : s.Ready S) {id : BlockId} (hid : s.Writes id) : s.work.Open id := by
  rw [hid.1]
  exact h.opened hid.2

theorem Grows.refl (h : s.Ready S) : s.Grows s where
  evolves := .refl _
  opens id := by
    constructor
    . intro hopen
      by_cases hid : s.Writes id
      . exact .inr hid
      . exact .inl ⟨hopen, hid⟩
    . rintro (⟨hopen, -⟩ | hid)
      . exact hopen
      . exact h.open_writes hid
  cursor := rfl
  moved := .inl rfl
  still _ := rfl
  library := .refl s

theorem Grows.writes (h : s.Grows t) {id : BlockId} (hid : t.Writes id) :
    s.Writes id ∨ s.function.code? id = none := by
  obtain ⟨rfl, hopen⟩ := hid
  rcases h.moved with heq | hnone
  . left
    refine ⟨heq, ?_⟩
    cases hfinished : s.cursor.finished with
    | false => rfl
    | true =>
      rw [h.still hfinished, hfinished] at hopen
      cases hopen
  . exact .inr hnone

theorem Grows.trans (h : s.Grows t) (h' : t.Grows u) (hs : s.work.Sane) : s.Grows u where
  evolves := h.evolves.trans h'.evolves fun _ hid => h.writes hid
  opens id := by
    rw [h'.opens, h.opens]
    constructor
    . rintro (⟨⟨hopen, hs⟩ | ht, hnt⟩ | hu)
      . exact .inl ⟨hopen, hs⟩
      . exact absurd ht hnt
      . exact .inr hu
    . rintro (⟨hopen, hs⟩ | hu)
      . -- what is written later was written before or is new, and a new block was not open
        refine .inl ⟨.inl ⟨hopen, hs⟩, ?_⟩
        intro ht
        rcases h.writes ht with hs' | hnone
        . exact hs hs'
        . exact hopen.present hnone
      . exact .inr hu
  cursor := by
    rw [h'.cursor, h.cursor]
  moved := by
    rcases h'.moved with heq | hnone
    . rw [heq]
      exact h.moved
    . right
      cases hcode : s.function.code? u.cursor.block with
      | none => rfl
      | some code => exact absurd hnone (h.evolves.present hs (by simp [work, hcode]))
  still hfinished := by
    have := h.still hfinished
    rw [h'.still (by rw [this]; exact hfinished), this]
  library := h.library.trans h'.library

theorem Scoped.advance {W : BlockId → Prop} (h : s.Scoped S) (hw : Work.Evolves W s.work t.work)
    (hsane : t.work.Sane) (hlib : s.SameLibrary t) (hpresent : t.function.code? t.cursor.block ≠ none)
    (hnext : t.cursor.next = s.cursor.next) (hexit : t.cursor.exit = s.cursor.exit)
    (hhandles : t.handles = s.handles) (hnames : t.names = s.names) : t.Scoped S where
  sane := hsane
  present := hpresent
  next hid := (h.next (hnext ▸ hid)).evolve h.sane hw
  exit hid := (h.exit (hexit ▸ hid)).evolve h.sane hw
  handles hh := (h.handles (hhandles ▸ hh)).evolve h.sane hw
  names ho := h.names (hnames ▸ ho)
  macros htext hm := h.macros htext (hlib.macros ▸ hm)

section Put

variable {is : List Instruction} {n : Temp} {m : Module} {body : List Instruction}

theorem Ready.extend (h : s.Ready S) (hext : s.Extends is n m) :
    s.Grows (s.extend is n m) ∧ (s.extend is n m).Ready S := by
  obtain ⟨body, hbody⟩ := h.sane.held h.present
  have hwork : (s.extend is n m).work = s.work.put s.cursor.block is n := rfl
  have hends : is ≠ [] → ends body = false := by
    intro his
    obtain ⟨body', hbody', hends⟩ := h.opened (hext.opened his)
    rwa [hbody.unique hbody']
  -- plain instructions leave an open block open, so exactly the same blocks are open as before
  have hsame : ends (body ++ is) = ends body := by
    by_cases his : is = []
    . simp [his]
    . rw [hends his, ends_append_plain hext.plain (hends his)]
  have hevolves := Work.put_evolves hbody hext.fits.le hends
  have hlib : s.SameLibrary (s.extend is n m) := ⟨rfl, m, rfl, hext.functions⟩
  have hopens (id) : (s.extend is n m).work.Open id ↔ s.work.Open id := by
    rw [hwork, Work.open_put hbody, hsame]
    constructor
    . rintro (⟨hopen, -⟩ | ⟨rfl, hopen⟩)
      . exact hopen
      . exact ⟨body, hbody, hopen⟩
    . intro hopen
      by_cases hid : id = s.cursor.block
      . subst hid
        obtain ⟨body', hbody', hends'⟩ := hopen
        rw [← hbody.unique hbody'] at hends'
        exact .inr ⟨rfl, hends'⟩
      . exact .inl ⟨hopen, hid⟩
  have hgrows : s.Grows (s.extend is n m) := by
    refine ⟨?_, ?_, rfl, .inl rfl, fun _ => rfl, hlib⟩
    . exact hevolves.mono fun id hid => .inl ⟨hid.1, hext.opened hid.2⟩
    . intro id
      rw [hopens]
      exact (Grows.refl h).opens id
  refine ⟨hgrows, ?_, ?_⟩
  . refine h.toScoped.advance hevolves ?_ hlib ?_ rfl rfl rfl rfl
    . exact Work.put_sane h.sane hbody hext.fits hends
    . exact hevolves.present h.sane h.present
  . intro hopen
    exact (hopens _).2 (h.opened hopen)

theorem Ready.close (h : s.Ready S) (hopen : s.cursor.finished = false) {i : Instruction}
    (hi : s.function.Terminates i) : s.Grows (s.close i) ∧ (s.close i).Ready S := by
  have hblock := h.opened hopen
  have hevolves : Work.Evolves (· = s.cursor.block) s.work (s.close i).work :=
    Work.close_evolves hblock
  have hlib : s.SameLibrary (s.close i) := .refl s
  refine ⟨⟨?_, ?_, rfl, .inl rfl, ?_, hlib⟩, ?_, ?_⟩
  . exact hevolves.mono fun id hid => .inl ⟨hid, hopen⟩
  . intro id
    rw [writes_iff hopen, or_iff_left (not_writes rfl)]
    exact Work.open_close hblock hi
  . intro hfinished
    rw [hopen] at hfinished
    cases hfinished
  . refine h.toScoped.advance hevolves ?_ hlib ?_ rfl rfl rfl rfl
    . exact Work.close_sane h.sane hblock hi
    . exact hevolves.present h.sane h.present
  . intro hopen'
    cases hopen'

end Put

structure Beside (S : Scope) (W : BlockId → Prop) (s t : GenState) : Prop where
  evolves : Work.Evolves W s.work t.work
  scope : t.Scoped S
  cursor : t.cursor = s.cursor
  library : s.SameLibrary t

section Beside

variable {W W' : BlockId → Prop} {label : String} {block : BlockId}

theorem Beside.refl (h : s.Scoped S) : s.Beside S W s := ⟨.refl _, h, rfl, .refl s⟩

theorem Beside.mono (h : s.Beside S W t) (hW : ∀ id, W id → W' id) : s.Beside S W' t :=
  ⟨h.evolves.mono fun id hid => .inl (hW id hid), h.scope, h.cursor, h.library⟩

theorem Beside.trans (h : s.Beside S W t) (h' : t.Beside S W' u)
    (hW : ∀ id, W' id → W id ∨ s.function.code? id = none) : s.Beside S W u :=
  ⟨h.evolves.trans h'.evolves hW, h'.scope, h'.cursor.trans h.cursor, h.library.trans h'.library⟩

theorem Scoped.grow (h : s.Scoped S) :
    s.Beside S W (s.grow label) ∧
      ∀ id, (s.grow label).work.Open id ↔ s.work.Open id ∨ id = s.function.nextBlock := by
  have hevolves : Work.Evolves W s.work (s.grow label).work := Work.grow_evolves h.sane W
  refine ⟨⟨hevolves, ?_, rfl, .refl s⟩, fun _ => Work.open_grow h.sane⟩
  refine h.advance hevolves ?_ (.refl s) ?_ rfl rfl rfl rfl
  . exact Work.grow_sane h.sane
  . exact hevolves.present h.sane h.present

theorem Scoped.move (h : s.Scoped S) {after : BlockId} {g : Function}
    (hg : s.function.moveAfter block after = .ok g) (hne : block ≠ s.entry) :
    s.Beside S W { s with function := g } ∧
      ∀ id, (work { s with function := g }).Open id ↔ s.work.Open id := by
  have hevolves : Work.Evolves W s.work { s.work with function := g } :=
    Work.move_evolves h.sane hg W
  refine ⟨⟨hevolves, ?_, rfl, .refl s⟩, fun _ => Work.open_move h.sane hg⟩
  refine h.advance hevolves ?_ (.refl s) ?_ rfl rfl rfl rfl
  . exact Work.move_sane h.sane hg hne
  . exact hevolves.present h.sane h.present

theorem Scoped.join (h : s.Scoped S) (hblock : s.work.Open block) {i : Instruction}
    (hi : s.function.Terminates i) :
    s.Beside S (· = block) (s.terminate block i) ∧
      ∀ id, (s.terminate block i).work.Open id ↔ s.work.Open id ∧ id ≠ block := by
  have hevolves : Work.Evolves (· = block) s.work (s.work.close block i) :=
    Work.close_evolves hblock
  refine ⟨⟨hevolves, ?_, rfl, .refl s⟩, fun _ => Work.open_close hblock hi⟩
  refine h.advance hevolves ?_ (.refl s) ?_ rfl rfl rfl rfl
  . exact Work.close_sane h.sane hblock hi
  . exact hevolves.present h.sane h.present

theorem Scoped.into (h : s.Scoped S) (hblock : s.work.Open block) : (s.into block).Ready S where
  sane := h.sane
  present := hblock.present
  next := h.next
  exit := h.exit
  handles := h.handles
  names := h.names
  macros := h.macros
  opened _ := hblock

theorem Scoped.inside (h : s.Scoped S) {next exit : BlockId} (hnext : s.work.Target next)
    (hexit : s.work.Target exit) (hblock : s.work.Open block) :
    (s.inside next exit block).Ready S where
  sane := h.sane
  present := hblock.present
  next hid := by
    cases hid
    exact hnext
  exit hid := by
    cases hid
    exact hexit
  handles := h.handles
  names := h.names
  macros := h.macros
  opened _ := hblock

theorem Scoped.fill (h : s.Scoped S) {c : Cursor} (hopen : c.finished = false)
    (hgrows : { s with cursor := c }.Grows u) (hu : u.Ready S) :
    s.Beside S (· = c.block) { u with cursor := s.cursor } ∧
      ∀ id, u.work.Open id ↔ (s.work.Open id ∧ id ≠ c.block) ∨ u.Writes id := by
  have hevolves : Work.Evolves (· = c.block) s.work u.work :=
    hgrows.evolves.mono fun id hid => .inl hid.1
  refine ⟨⟨hevolves, ?_, rfl, hgrows.library⟩, ?_⟩
  . exact {
      sane := hu.sane
      present := hevolves.present h.sane h.present
      next := fun hid => (h.next hid).evolve h.sane hevolves
      exit := fun hid => (h.exit hid).evolve h.sane hevolves
      handles := hu.handles
      names := hu.names
      macros := hu.macros }
  . intro id
    rw [hgrows.opens, writes_iff hopen]
    rfl

end Beside

theorem Ready.returned (h : s.Ready S) (hnone : s.returnBlock = none) :
    s.Grows s.returned ∧ s.returned.Ready S := by
  have hevolves : Work.Evolves s.Writes s.work s.returned.work := by
    rw [s.work_returned]
    exact Work.returned_evolves h.sane hnone s.Writes
  have hopens (id) : s.returned.work.Open id ↔ s.work.Open id := by
    rw [s.work_returned]
    exact Work.open_returned h.sane hnone
  refine ⟨⟨hevolves, ?_, rfl, .inl rfl, fun _ => rfl, .refl s⟩, ?_, ?_⟩
  . intro id
    rw [hopens]
    exact (Grows.refl h).opens id
  . refine h.toScoped.advance hevolves ?_ (.refl s) ?_ rfl rfl rfl rfl
    . rw [s.work_returned]
      exact Work.returned_sane h.sane hnone
    . exact hevolves.present h.sane h.present
  . intro hopen
    exact (hopens _).2 (h.opened hopen)

theorem grows_goOn {given : Bool} {exit : BlockId} (hopen : s.cursor.finished = false)
    (hevolves : Work.Evolves s.Writes s.work t.work) (ht : t.Scoped S)
    (hcursor : t.cursor = { s.cursor with finished := t.cursor.finished })
    (hlib : s.SameLibrary t)
    (hopens : ∀ id, t.work.Open id ↔
      (s.work.Open id ∧ ¬ s.Writes id) ∨ (given = false ∧ id = exit))
    (hnew : given = false → s.function.code? exit = none) :
    s.Grows (t.goOn exit given) ∧ (t.goOn exit given).Ready S := by
  have hstill : s.cursor.finished = true → False := by
    rw [hopen]
    exact Bool.noConfusion
  cases given with
  | true =>
    refine ⟨⟨hevolves, ?_, ?_, .inl ?_, fun h => (hstill h).elim, hlib⟩, ?_, ?_⟩
    . intro id
      rw [or_iff_left (not_writes rfl)]
      exact (hopens id).trans (by simp)
    . rw [goOn, hcursor]
      rfl
    . rw [goOn, hcursor]
      rfl
    . exact ⟨ht.sane, ht.present, ht.next, ht.exit, ht.handles, ht.names, ht.macros⟩
    . intro hfalse
      cases hfalse
  | false =>
    have hexit : t.work.Open exit := (hopens exit).2 (.inr ⟨rfl, rfl⟩)
    refine ⟨⟨hevolves, ?_, ?_, .inr (hnew rfl), fun h => (hstill h).elim, hlib⟩, ?_, ?_⟩
    . intro id
      exact (hopens id).trans (or_congr_right (by simp [Writes, goOn]))
    . rw [goOn, hcursor]
      rfl
    . exact ⟨ht.sane, hexit.present, ht.next, ht.exit, ht.handles, ht.names, ht.macros⟩
    . intro _
      exact hexit

def Settled (S : Scope) (s : GenState) : Prop :=
  S.blocks → ∀ h, Event.handle h ∈ s.trace → h.finished = true

theorem Settled.of_subset (h : t.Settled S) (hst : s.trace ⊆ t.trace) : s.Settled S :=
  fun hblocks handle hhandle => h hblocks handle (hst hhandle)

end GenState

namespace Gen

variable {S : Scope} {P : GenState → Prop} {s t u : GenState}

/--
A computation grows the function, provided that the blocks it builds on their own are finished.
-/
structure Tame (S : Scope) (P : GenState → Prop) (x : Gen α) (Q : α → GenState → Prop) : Prop where
  traced : Traced x
  run : ∀ {s a t}, exec x s = (.ok a, t) → s.Ready S → P s → t.Settled S →
    s.Grows t ∧ t.Ready S ∧ Q a t

namespace Tame

variable {Q : α → GenState → Prop} {R : β → GenState → Prop}

theorem pure {a : α} (h : ∀ s, s.Ready S → P s → Q a s) : Tame S P (pure a) Q := by
  refine ⟨.pure a, ?_⟩
  rintro s _ _ ⟨⟩ hs hP -
  exact ⟨.refl hs, hs, h s hs hP⟩

theorem throw {e : ScriptError} : Tame S P (throw e : Gen α) Q := by
  refine ⟨.throw e, ?_⟩
  rintro s _ _ ⟨⟩

theorem bind {x : Gen α} {f : α → Gen β} (hx : Tame S P x Q) (hf : ∀ a, Tame S (Q a) (f a) R) :
    Tame S P (x >>= f) R := by
  refine ⟨hx.traced.bind fun a => (hf a).traced, ?_⟩
  intro s b u hexec hs hP hfinished
  obtain ⟨a, t, hxt, hfu⟩ := exec_bind_ok.1 hexec
  have htrace := (hf a).traced.of_exec hfu
  obtain ⟨hgrows, ht, hQ⟩ := hx.run hxt hs hP (hfinished.of_subset htrace)
  obtain ⟨hgrows', hu, hR⟩ := (hf a).run hfu ht hQ hfinished
  exact ⟨hgrows.trans hgrows' hs.sane, hu, hR⟩

theorem bind_of {x : Gen α} {f : α → Gen β} {A : α → Prop} (hx : Tame S P x fun a _ => A a)
    (htraced : ∀ a, Traced (f a)) (hf : ∀ a, A a → Tame S (fun _ => True) (f a) R) :
    Tame S P (x >>= f) R := by
  refine hx.bind fun a => ⟨htraced a, ?_⟩
  intro s b t hexec hs ha hfinished
  exact (hf a ha).run hexec hs trivial hfinished

theorem get {f : GenState → Gen α} (h : ∀ s, Tame S (fun u => u = s ∧ P u) (f s) Q) :
    Tame S P (get >>= f) Q := by
  refine ⟨.bind .get fun s => (h s).traced, ?_⟩
  intro s a t hexec hs hP
  exact (h s).run hexec hs ⟨rfl, hP⟩

theorem weaken {P' : GenState → Prop} {x : Gen α} {Q' : α → GenState → Prop} (h : Tame S P x Q)
    (hP : ∀ s, P' s → P s) (hQ : ∀ a t, Q a t → Q' a t) : Tame S P' x Q' := by
  refine ⟨h.traced, ?_⟩
  intro s a t hexec hs hP' hfinished
  obtain ⟨hgrows, ht, hQt⟩ := h.run hexec hs (hP s hP') hfinished
  exact ⟨hgrows, ht, hQ a t hQt⟩

theorem done {x : Gen α} (h : Tame S P x Q) : Tame S P x fun _ _ => True :=
  h.weaken (fun _ hP => hP) fun _ _ _ => trivial

end Tame

theorem Straight.tame {x : Gen α} (hx : Straight x) : Tame S P x fun _ _ => True := by
  refine ⟨hx.traced, ?_⟩
  intro s a t hexec hs _ _
  obtain ⟨is, n, m, hext, rfl, -⟩ := hx.exec_ok hexec
  exact ⟨(hs.extend hext).1, (hs.extend hext).2, trivial⟩

theorem close_tame {r : Request} {i : Instruction} (hr : r.terminator? = some i) :
    Tame S P (do let _ ← emit r; finish) fun _ t => t.cursor.finished = true := by
  refine ⟨close_traced r, ?_⟩
  intro s a t hexec hs _ _
  obtain ⟨hopen, hi, rfl⟩ := exec_close hr hexec
  exact ⟨(hs.close hopen hi).1, (hs.close hopen hi).2, rfl⟩

theorem unlessFinished_tame {x : Gen Unit} {Q : Unit → GenState → Prop} (hx : Tame S P x Q)
    (hQ : ∀ s, P s → s.cursor.finished = true → Q () s) : Tame S P (unlessFinished x) Q := by
  refine ⟨unlessFinished_traced hx.traced, ?_⟩
  intro s a t hexec hs hP hfinished
  obtain ⟨hclosed, rfl⟩ | ⟨-, hexec⟩ := exec_unlessFinished hexec
  . exact ⟨.refl hs, hs, hQ _ hP hclosed⟩
  . exact hx.run hexec hs hP hfinished

theorem branch_tame (target : BlockId) :
    Tame S P (branch target) fun _ t => t.cursor.finished = true :=
  unlessFinished_tame (close_tame rfl) fun _ _ hfinished => hfinished

theorem target_of_returnBlock {w : Work} (hw : w.Sane) {block : BlockId}
    (h : w.returnBlock = some block) : w.Target block := by
  cases hw.returning with
  | undecided hnone => simp [hnone] at h
  | void hsome _ hne _ hholds | value hsome _ hne _ hholds =>
    cases hsome.symm.trans h
    exact ⟨hholds.present, hne⟩

theorem returnBlock_tame : Tame S P returnBlock fun block t => t.work.Target block := by
  refine ⟨returnBlock_traced, ?_⟩
  intro s block t hexec hs _ _
  obtain ⟨hsome, rfl⟩ | ⟨hnone, rfl, rfl⟩ := exec_returnBlock hexec
  . exact ⟨.refl hs, hs, target_of_returnBlock hs.sane hsome⟩
  . obtain ⟨hgrows, hready⟩ := hs.returned hnone
    exact ⟨hgrows, hready, target_of_returnBlock hready.sane rfl⟩

theorem fillReturnSlot_tame (a : Operand) : Tame S P (fillReturnSlot a) fun _ _ => True := by
  apply Tame.get
  intro s
  apply Straight.tame
  split
  . split
    . exact (Straight.convert _ _).bind fun _ => (Straight.emit rfl).bind fun _ => .pure _
    . exact .pure _
  . exact .pure _

theorem ret_tame (a : Operand) : Tame S P (ret a) fun _ _ => True := by
  refine unlessFinished_tame ?_ fun _ _ _ => trivial
  apply Tame.get
  intro s
  dsimp only
  split
  . exact (close_tame rfl).done
  . refine returnBlock_tame.bind fun block => (fillReturnSlot_tame a).bind fun _ => ?_
    exact (close_tame rfl).done

theorem directRet_tame (a : Operand) : Tame S P (directRet a) fun _ _ => True := by
  refine unlessFinished_tame ?_ fun _ _ _ => trivial
  apply Tame.get
  intro s
  dsimp only
  split
  . exact (close_tame rfl).done
  . split
    . refine (Straight.throw _).tame.bind fun _ => ?_
      exact (Straight.convert _ _).tame.bind fun _ => (close_tame rfl).done
    . exact (Straight.convert _ _).tame.bind fun _ => (close_tame rfl).done

theorem branchIfNew_tame (label : String) (condition : Value) (ifTrue : BlockId) :
    Tame S P (do
      let ifFalse ← newBlock label
      let _ ← emit (.branchIf condition ifTrue ifFalse)
      moveCursor ({ · with block := ifFalse })) fun _ _ => True := by
  refine ⟨(newBlock_traced _).bind fun _ => (emit_traced _).bind fun _ =>
    moveCursor_traced fun _ => rfl, ?_⟩
  intro s a t hexec hs _ _
  obtain ⟨hopen, hi, rfl⟩ := exec_branchIfNew hexec
  obtain ⟨hgrow, hopens⟩ : s.Beside S s.Writes (s.grow label) ∧ _ := hs.toScoped.grow
  obtain ⟨hjoin, hopens'⟩ :=
    hgrow.scope.join ((hopens _).2 (.inl (hs.opened hopen))) hi
  have hbeside := hgrow.trans hjoin fun id hid => .inl ⟨hid, hopen⟩
  have hnew : s.function.code? s.function.nextBlock = none := hs.sane.distinct.code?_nextBlock
  have hne : s.function.nextBlock ≠ s.cursor.block := fun heq => hs.present (heq ▸ hnew)
  obtain ⟨hgrows, hready⟩ : s.Grows _ ∧ GenState.Ready S _ := by
    apply GenState.grows_goOn hopen hbeside.evolves hbeside.scope hbeside.cursor hbeside.library
      _ (fun (_ : false = false) => hnew)
    intro id
    rw [hopens', hopens, GenState.writes_iff hopen]
    constructor
    . rintro ⟨hid | hid, hother⟩
      . exact .inl ⟨hid, hother⟩
      . exact .inr ⟨rfl, hid⟩
    . rintro (⟨hid, hother⟩ | ⟨-, rfl⟩)
      . exact ⟨.inl hid, hother⟩
      . exact ⟨.inr rfl, hne⟩
  exact ⟨hgrows, hready, trivial⟩

theorem conditionalRet_tame (condition a : Operand) (otherwise : Option BlockId) :
    Tame S P (conditionalRet condition a otherwise) fun _ _ => True := by
  refine unlessFinished_tame ?_ fun _ _ _ => trivial
  refine (Straight.convert _ _).tame.bind fun condition => ?_
  refine returnBlock_tame.bind fun block => (fillReturnSlot_tame a).bind fun _ => ?_
  split
  . exact (close_tame rfl).done
  . exact branchIfNew_tame _ _ _

theorem prepareRet_tame (a : Operand) : Tame S P (prepareRet a) fun _ _ => True :=
  unlessFinished_tame (returnBlock_tame.bind fun _ => fillReturnSlot_tame a) fun _ _ _ => trivial

theorem unreachable_tame : Tame S P unreachable fun _ _ => True :=
  (close_tame rfl).done

end Gen

end ScriptedIR
