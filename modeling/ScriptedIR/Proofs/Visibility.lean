import ScriptedIR.Proofs.Entries

/-!
Visibility and linkage. In a library that defines all its symbols itself, a name stands on one side of a
table only, and what is found in the code under the symbol of an entry has the linkage of that side.
Nothing that the library is asked for takes a name away.
-/

namespace ScriptedIR

namespace Table

variable {α : Type} {t u w : Table α}

def Exclusive (t : Table α) : Prop := ∀ name, name ∈ t.exported → name ∉ t.internal

theorem Exclusive.new : Exclusive ({} : Table α) := by simp [Exclusive]

inductive Inserts (t : Table α) : Table α → Prop
  | refl : Inserts t t
  | insert {u : Table α} (name : String) (v : Visibility) (a : α) :
      Inserts t u → Inserts t (u.insert name v a)

theorem Inserts.trans (h : t.Inserts u) (h' : u.Inserts w) : t.Inserts w := by
  induction h' with
  | refl => exact h
  | insert name v a _ ih => exact ih.insert name v a

theorem Inserts.move (t : Table α) (name : String) (v : Visibility) : t.Inserts (t.move name v) := by
  unfold Table.move
  split
  . exact .insert _ _ _ .refl
  . exact .refl

theorem Inserts.exclusive (h : t.Inserts u) (ht : t.Exclusive) : u.Exclusive := by
  induction h with
  | refl => exact ht
  | insert name v a _ ih =>
    intro other
    have hother := ih other
    cases v <;> simp only [Table.insert, Std.ExtTreeMap.mem_insert, Std.ExtTreeMap.mem_erase] <;> grind

theorem mem_names {name : String} :
    name ∈ t.names .everything ↔ name ∈ t.exported ∨ name ∈ t.internal := by
  simp [names]

theorem Inserts.names_subset (h : t.Inserts u) : t.names .everything ⊆ u.names .everything := by
  induction h with
  | refl => exact List.Subset.refl _
  | insert name v a _ ih =>
    intro other hother
    have hmem := ih hother
    rw [mem_names] at hmem ⊢
    cases v <;> simp only [Table.insert, Std.ExtTreeMap.mem_insert, Std.ExtTreeMap.mem_erase] <;> grind

end Table

namespace Library

variable {lib lib' lib'' : Library} {name : String} {v : Visibility}

structure TablesGrow (lib lib' : Library) : Prop where
  functions : lib.functions.Inserts lib'.functions
  macros : lib.macros.Inserts lib'.macros
  globals : lib.globals.Inserts lib'.globals

namespace TablesGrow

theorem trans (h : lib.TablesGrow lib') (h' : lib'.TablesGrow lib'') : lib.TablesGrow lib'' :=
  ⟨h.functions.trans h'.functions, h.macros.trans h'.macros, h.globals.trans h'.globals⟩

theorem declare (lib : Library) (name : String) (signature : Ty.Signature) :
    lib.TablesGrow (declare name signature lib).2 := by
  cases hf : lib.function? name with
  | none =>
    rw [declare_of_none hf]
    exact ⟨.insert _ _ _ .refl, .refl, .refl⟩
  | some f =>
    rw [declare_of_some hf]
    exact ⟨.refl, .refl, .refl⟩

theorem build (lib : Library) (name : String) (body : Body) :
    lib.TablesGrow (build name body.run lib).2 := by
  obtain heq | ⟨_, _, _, _, _, _, -, -, -, -, heq⟩ := build_cases lib name body
  . rw [heq]
    exact ⟨.refl, .refl, .refl⟩
  . rw [heq]
    exact ⟨.refl, .refl, .refl⟩

theorem changeOne (lib : Library) (v : Visibility) (name : String) :
    lib.TablesGrow (lib.changeOne v name) :=
  ⟨.move _ name v, .move _ name v, .move _ name v⟩

theorem edit (lib : Library) (e : Edit) : lib.TablesGrow (lib.edit e) := by
  cases e with
  | declare name signature => exact declare lib name signature
  | build name body => exact build lib name body
  | function name signature body =>
    rcases function_cases lib name signature body.run with heq | heq
    . rw [Library.edit, heq]
      exact declare lib name signature
    . rw [Library.edit, heq]
      exact (declare lib name signature).trans (build _ name body)
  | declareExternal name signature =>
    exact ⟨.insert name .exported (FunctionRef.mk name name signature) .refl, .refl, .refl⟩
  | defineMacro m => exact ⟨.refl, .insert _ _ _ .refl, .refl⟩
  | defineGlobal name init isConstant =>
    obtain ⟨texts, _, rfl, heq | ⟨g, -, -, -, heq⟩⟩ := defineGlobal_cases lib name init isConstant
    . rw [Library.edit, heq]
      exact ⟨.refl, .refl, .refl⟩
    . rw [Library.edit, heq]
      exact ⟨.refl, .refl, .insert _ _ _ .refl⟩
  | declareGlobal name ty => exact ⟨.refl, .refl, .insert name .exported (GlobalRef.ofGlobal _) .refl⟩
  | internText text => exact ⟨.refl, .refl, .refl⟩
  | defineStruct layout =>
    obtain ⟨_, _, heq⟩ := defineStruct_eq layout lib
    rw [Library.edit, heq]
    exact ⟨.refl, .refl, .refl⟩
  | changeVisibility v names =>
    exact changeVisibility_induction (I := lib.TablesGrow)
      (fun name h => h.trans (changeOne _ v name)) names ⟨.refl, .refl, .refl⟩

theorem of_history (h : History .own lib lib') : lib.TablesGrow lib' := by
  induction h with
  | refl => exact ⟨.refl, .refl, .refl⟩
  | edit _ _ ih => exact ih.trans (edit _ _)
  | visible v _ ih => exact ⟨ih.functions, ih.macros, ih.globals⟩
  | within _ _ ih ihinner => exact ih.trans ⟨ihinner.functions, ihinner.macros, ihinner.globals⟩
  | importFrom _ _ himports => cases himports

end TablesGrow

theorem symbol_injective (lib : Library) {name other : String}
    (h : lib.symbol name = lib.symbol other) : name = other := by
  unfold symbol at h
  split at h
  . exact String.append_right_inj _ |>.1 h
  . exact h

theorem symbol_congr (haddress : lib'.address = lib.address) (hprefixed : lib'.prefixed = lib.prefixed)
    (name : String) : lib'.symbol name = lib.symbol name := by
  unfold symbol
  rw [haddress, hprefixed]

/--
Functions under their symbols, with the linkage of the side that they stand on. There are no others in
the code.
-/
structure FunctionsInStep (lib : Library) : Prop where
  symbols : ∀ v name f, lib.functions.Holds v name f → f.symbol = lib.symbol name
  linkage : lib.Matched fun v _ _ code => code.linkage = v.linkage
  named : ∀ n ∈ lib.module.functions.map Function.name,
    ∃ name, n = lib.symbol name ∧ ∃ v f, lib.functions.Holds v name f

namespace FunctionsInStep

theorem free (h : lib.FunctionsInStep) (hnew : lib.function? name = none) :
    lib.module.function? (lib.symbol name) = none := by
  refine find?_key_eq_none_iff.2 fun hmem => ?_
  obtain ⟨other, hsymbol, v, f, hf⟩ := h.named _ hmem
  cases lib.symbol_injective hsymbol
  exact Table.not_holds_of_get? hnew hf

theorem functionInvariant : FunctionInvariant .own FunctionsInStep where
  new _ _ _ := ⟨fun _ _ _ hf => absurd hf Table.not_holds_new, .new, fun _ hn => by cases hn⟩
  same {lib lib'} h hsame := by
    have hsymbol := symbol_congr hsame.address hsame.isPrefixed
    refine ⟨fun v name f hf => ?_, h.linkage.same hsame, ?_⟩
    . rw [hsame.table] at hf
      rw [h.symbols v name f hf, hsymbol]
    . simp only [hsame.code, hsame.table, hsymbol]
      exact h.named
  declared {lib name signature} h hnew _ := by
    refine ⟨Table.forall_holds_insert h.symbols rfl, ?_, fun n hn => ?_⟩
    . exact h.linkage.insert rfl ⟨_, function?_declared_self (h.free hnew) signature, rfl⟩
        fun _ _ hcode hP => ⟨_, function?_declared hcode name signature, hP⟩
    . rw [declared, Module.addFunction, List.map_append, List.mem_append] at hn
      rcases hn with hn | hn
      . obtain ⟨other, hsymbol, hholds⟩ := h.named n hn
        exact ⟨other, hsymbol, Table.exists_holds_insert hholds⟩
      . exact ⟨name, List.mem_singleton.1 hn, _, _, Table.holds_insert_self⟩
  external _ hrule := hrule.elim
  relinked {lib name f} v h hf := by
    obtain ⟨w, hholds⟩ := Table.exists_holds_of_get? hf
    obtain ⟨code, hcode, -⟩ := h.linkage.found hholds
    have hsymbol := h.symbols w name f hholds
    refine ⟨Table.forall_holds_insert h.symbols hsymbol, ?_, fun n hn => ?_⟩
    . refine h.linkage.insert rfl ?_ fun {w other g code} hne hg hcode hP => ?_
      . rw [function?_relinked, if_pos rfl, hcode]
        exact ⟨_, rfl, rfl⟩
      . -- another name has another symbol, so its function stays as it is
        have hother : g.symbol ≠ f.symbol := by
          rw [h.symbols w other g hg, hsymbol]
          exact fun heq => hne (lib.symbol_injective heq)
        rw [function?_relinked, if_neg hother]
        exact ⟨code, hcode, hP⟩
    . rw [names_relinked] at hn
      obtain ⟨other, hsymbol, hholds⟩ := h.named n hn
      exact ⟨other, hsymbol, Table.exists_holds_insert hholds⟩
  rebuilt {lib name f code g built} h hf _ hcode houtcome := by
    refine ⟨h.symbols, ?_, ?_⟩
    . refine h.linkage.keep rfl fun _ hcode' hP => ?_
      obtain ⟨g', hg', hheader⟩ := houtcome.function?_of_some hcode hcode'
      exact ⟨g', hg', (Function.linkage_of_clearBody hheader).trans hP⟩
    . dsimp only
      rw [houtcome.names hcode]
      exact h.named
  importFrom _ _ himports := himports.elim

end FunctionsInStep

structure GlobalsInStep (lib : Library) : Prop where
  symbols : ∀ v name g, lib.globals.Holds v name g → g.symbol = lib.symbol name
  linkage : lib.globals.Matched (fun g => lib.module.global? g.symbol) fun v _ _ code =>
    code.linkage = v.linkage

structure MoreGlobals (lib lib' : Library) : Prop where
  table : lib'.globals = lib.globals
  code : ∀ {n g}, lib.module.global? n = some g → lib'.module.global? n = some g
  address : lib'.address = lib.address
  isPrefixed : lib'.prefixed = lib.prefixed

namespace MoreGlobals

theorem refl (lib : Library) : lib.MoreGlobals lib := ⟨rfl, id, rfl, rfl⟩

theorem trans (h : lib.MoreGlobals lib') (h' : lib'.MoreGlobals lib'') : lib.MoreGlobals lib'' :=
  ⟨h'.table.trans h.table, fun hg => h'.code (h.code hg), h'.address.trans h.address,
    h'.isPrefixed.trans h.isPrefixed⟩

theorem intern (lib : Library) (texts : List String) :
    lib.MoreGlobals { lib with module := lib.module.internAll texts } :=
  ⟨rfl, fun hg => Module.global?_internAll hg texts, rfl, rfl⟩

theorem declare (lib : Library) (name : String) (signature : Ty.Signature) :
    lib.MoreGlobals (declare name signature lib).2 := by
  cases hf : lib.function? name with
  | none =>
    rw [declare_of_none hf]
    exact ⟨rfl, id, rfl, rfl⟩
  | some f =>
    rw [declare_of_some hf]
    exact refl lib

theorem build (lib : Library) (name : String) (body : Body) :
    lib.MoreGlobals (build name body.run lib).2 := by
  obtain heq | ⟨_, _, _, _, texts, _, -, -, -, -, heq⟩ := build_cases lib name body
  . rw [heq]
    exact refl lib
  . rw [heq]
    exact (intern lib texts).trans ⟨rfl, id, rfl, rfl⟩

end MoreGlobals

theorem table_changeOne (lib : Library) (v : Visibility) (name : String) :
    (lib.changeOne v name).globals = lib.globals.move name v := rfl

theorem global?_changeOne_of_none (hg : lib.globals.get? name .everything = none) (v : Visibility)
    (n : String) : (lib.changeOne v name).module.global? n = lib.module.global? n := by
  unfold changeOne
  rw [hg]
  cases lib.function? name <;> rfl

theorem global?_changeOne_of_some {g : GlobalRef} (hg : lib.globals.get? name .everything = some g)
    (v : Visibility) (n : String) :
    (lib.changeOne v name).module.global? n =
      if n = g.symbol then (lib.module.global? g.symbol).map ({ · with linkage := v.linkage })
      else lib.module.global? n := by
  have hcode : (lib.changeOne v name).module.globals =
      modifyFirst (·.name = g.symbol) ({ · with linkage := v.linkage }) lib.module.globals := by
    unfold changeOne
    rw [hg]
    cases lib.function? name <;> rfl
  unfold Module.global?
  rw [hcode, find?_modifyFirst]
  exact fun _ hname => hname

namespace GlobalsInStep

theorem more (h : lib.GlobalsInStep) (hmore : lib.MoreGlobals lib') : lib'.GlobalsInStep := by
  refine ⟨fun v name g hg => ?_, h.linkage.keep hmore.table fun _ hcode hP => ⟨_, hmore.code hcode, hP⟩⟩
  rw [hmore.table] at hg
  rw [h.symbols v name g hg, symbol_congr hmore.address hmore.isPrefixed]

theorem withGlobal {g : Global} (h : lib.GlobalsInStep) (hname : g.name = lib.symbol name)
    (hlinkage : g.linkage = lib.visibility.linkage) (hfree : lib.module.global? g.name = none) :
    (lib.withGlobal name g).GlobalsInStep := by
  refine ⟨Table.forall_holds_insert h.symbols hname, h.linkage.insert rfl ⟨g, ?_, hlinkage⟩ ?_⟩
  . change (lib.module.addGlobal g).global? g.name = some g
    rw [Module.global?_addGlobal, hfree, if_pos rfl, Option.none_or]
  . intro w other ref code _ _ hcode hP
    refine ⟨code, ?_, hP⟩
    change (lib.module.addGlobal g).global? ref.symbol = some code
    rw [Module.global?_addGlobal, hcode, Option.some_or]

theorem changeOne (h : lib.GlobalsInStep) (v : Visibility) (name : String) :
    (lib.changeOne v name).GlobalsInStep := by
  cases hg : lib.globals.get? name .everything with
  | none =>
    refine h.more ⟨?_, fun {n g} hcode => ?_, rfl, rfl⟩
    . rw [table_changeOne, Table.move, hg]
    . rw [global?_changeOne_of_none hg]
      exact hcode
  | some g =>
    have htable : (lib.changeOne v name).globals = lib.globals.insert name v g := by
      rw [table_changeOne, Table.move, hg]
    obtain ⟨w, hholds⟩ := Table.exists_holds_of_get? hg
    have hsymbol := h.symbols w name g hholds
    refine ⟨?_, h.linkage.insert htable ?_ fun {w other g' code} hne hg' hcode hP => ?_⟩
    . rw [htable]
      exact Table.forall_holds_insert h.symbols hsymbol
    . obtain ⟨code, hcode, -⟩ := h.linkage w name g hholds
      rw [global?_changeOne_of_some hg, if_pos rfl]
      exact ⟨_, congrArg (Option.map _) hcode, rfl⟩
    . have hother : g'.symbol ≠ g.symbol := by
        rw [h.symbols w other g' hg', hsymbol]
        exact fun heq => hne (lib.symbol_injective heq)
      rw [global?_changeOne_of_some hg, if_neg hother]
      exact ⟨code, hcode, hP⟩

theorem maintains : Maintains .own GlobalsInStep where
  new _ _ _ := ⟨fun _ _ _ hg => absurd hg Table.not_holds_new, .new⟩
  visible v h := h.more ⟨rfl, id, rfl, rfl⟩
  importFrom _ _ himports := himports.elim
  edit {lib e} h hallowed := by
    cases e with
    | declare name signature => exact h.more (.declare lib name signature)
    | build name body => exact h.more (.build lib name body)
    | function name signature body =>
      rcases function_cases lib name signature body.run with heq | heq
      . rw [edit, heq]
        exact h.more (.declare lib name signature)
      . rw [edit, heq]
        exact h.more ((MoreGlobals.declare lib name signature).trans (.build _ name body))
    | declareExternal | declareGlobal => exact hallowed.elim
    | defineMacro m => exact h.more ⟨rfl, id, rfl, rfl⟩
    | defineGlobal name init isConstant =>
      obtain ⟨texts, _, rfl, heq | ⟨g, hname, hlinkage, hfree, heq⟩⟩ :=
        defineGlobal_cases lib name init isConstant
      . rw [edit, heq]
        exact h.more (.intern lib texts)
      . rw [edit, heq]
        exact (h.more (.intern lib texts)).withGlobal hname hlinkage hfree
    | internText text =>
      obtain ⟨texts, heq⟩ := internText_eq lib text
      rw [edit, heq]
      exact h.more (.intern lib texts)
    | defineStruct layout =>
      obtain ⟨_, _, heq⟩ := defineStruct_eq layout lib
      rw [edit, heq]
      exact h.more ⟨rfl, id, rfl, rfl⟩
    | changeVisibility v names =>
      exact changeVisibility_induction (fun name h => h.changeOne v name) names h

end GlobalsInStep

/--
In a library whose symbols are all its own, no name stands on both sides of a table, what is found under
the symbol of a function or global has the linkage of the side that its name stands on, and whatever
the library is asked for next, successful or not, no name is lost from the tables.
-/
theorem reached_in_step (h : Reached .own lib) (h' : History .own lib lib') :
    (lib.functions.Exclusive ∧ lib.macros.Exclusive ∧ lib.globals.Exclusive) ∧
    (∀ v name f, lib.functions.Holds v name f →
      ∃ code, lib.module.function? f.symbol = some code ∧ code.linkage = v.linkage) ∧
    (∀ v name g, lib.globals.Holds v name g →
      ∃ code, lib.module.global? g.symbol = some code ∧ code.linkage = v.linkage) ∧
    lib.functions.names .everything ⊆ lib'.functions.names .everything ∧
    lib.macros.names .everything ⊆ lib'.macros.names .everything ∧
    lib.globals.names .everything ⊆ lib'.globals.names .everything := by
  have hfunctions := h.invariant FunctionsInStep.functionInvariant.maintains
  have hglobals := h.invariant GlobalsInStep.maintains
  have hgrow := TablesGrow.of_history h'
  obtain ⟨name, address, isPrefixed, hmade⟩ := h
  have hmade := TablesGrow.of_history hmade
  refine ⟨⟨hmade.functions.exclusive .new, hmade.macros.exclusive .new,
    hmade.globals.exclusive .new⟩, hfunctions.linkage, hglobals.linkage, ?_⟩
  exact ⟨hgrow.functions.names_subset, hgrow.macros.names_subset, hgrow.globals.names_subset⟩

def shelves : Library :=
  let lib := ({ name := "m", address := "m" } : Library).edit (.declare "f" ⟨.i32, [], false⟩)
  let lib := lib.edit (.defineGlobal "g" (.str "text") true)
  (lib.withVisibility .internal fun lib => ((), lib.edit (.declare "h" ⟨.i32, [], false⟩))).2

def reshelved : Library := shelves.edit (.changeVisibility .internal ["g", "k", "f"])

theorem shelves_history :
    History .own { name := "m", address := "m", prefixed := true } shelves := by
  unfold shelves
  refine .within (.edit (.edit .refl ?_) ?_) ?_
  . trivial
  . trivial
  . exact History.edit (e := .declare "h" ⟨.i32, [], false⟩) .refl trivial

theorem reshelved_in_step :
    (∃ g code, reshelved.globals.Holds .internal "g" g ∧
      reshelved.module.global? g.symbol = some code ∧ code.linkage = .hidden) ∧
    (∃ f code, reshelved.functions.Holds .exported "f" f ∧
      reshelved.module.function? f.symbol = some code ∧ code.linkage = .external) ∧
    (∃ f code, reshelved.functions.Holds .internal "h" f ∧
      reshelved.module.function? f.symbol = some code ∧ code.linkage = .hidden) ∧
    reshelved.functions.Exclusive ∧
    shelves.globals.names .everything = ["g"] ∧ "g" ∈ reshelved.globals.names .everything := by
  have hshelves : Reached .own shelves := ⟨"m", "m", true, shelves_history⟩
  have hreshelved : Reached .own reshelved := ⟨"m", "m", true, shelves_history.edit trivial⟩
  have hmoved : History .own shelves reshelved := History.refl.edit trivial
  obtain ⟨-, -, -, -, -, hkept⟩ := reached_in_step hshelves hmoved
  obtain ⟨⟨hexclusive, -, -⟩, hfunctions, hglobals, -⟩ := reached_in_step hreshelved .refl
  have hnames : shelves.globals.names .everything = ["g"] := by decide +kernel
  have hg : (reshelved.globals.internal["g"]?).isSome := by decide +kernel
  have hf : (reshelved.functions.exported["f"]?).isSome := by decide +kernel
  have hh : (reshelved.functions.internal["h"]?).isSome := by decide +kernel
  obtain ⟨g, hg⟩ := Option.isSome_iff_exists.1 hg
  obtain ⟨f, hf⟩ := Option.isSome_iff_exists.1 hf
  obtain ⟨h, hh⟩ := Option.isSome_iff_exists.1 hh
  obtain ⟨gcode, hgcode, hglinkage⟩ := hglobals .internal "g" g hg
  obtain ⟨fcode, hfcode, hflinkage⟩ := hfunctions .exported "f" f hf
  obtain ⟨hcode, hhcode, hhlinkage⟩ := hfunctions .internal "h" h hh
  refine ⟨⟨g, gcode, hg, hgcode, hglinkage⟩, ⟨f, fcode, hf, hfcode, hflinkage⟩,
    ⟨h, hcode, hh, hhcode, hhlinkage⟩, hexclusive, hnames, hkept ?_⟩
  rw [hnames]
  exact List.mem_cons_self

end Library

end ScriptedIR
