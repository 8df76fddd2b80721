import ScriptedIR.Proofs.Entries

/-!
The table of functions and the code. Whatever a library is asked for, each entry of its table has a
function in the code. Names in the code stay distinct, and the types of the functions stay those of the
entries, as long as no name is declared whose symbol is taken by something else and nothing from
elsewhere comes with another type than there is already.
-/

namespace ScriptedIR

def Function.signature (f : Function) : Ty.Signature := ⟨f.result, f.params, f.variadic⟩

theorem Function.signature_of_clearBody {f g : Function} (h : f.clearBody = g.clearBody) :
    f.signature = g.signature := by
  have hsignature := congrArg signature h
  exact hsignature

namespace Library

variable {lib other : Library} {name n : String} {v : Visibility} {f : FunctionRef}
  {code g : Function}

structure Agrees (lib : Library) : Prop where
  names : (lib.module.functions.map Function.name).Nodup
  signatures : lib.Matched fun _ _ f code => code.signature = f.signature

/--
A name is not declared if its symbol is taken by something else, and what comes from elsewhere has the
type that there is already.
-/
def Rules.fitting : Rules where
  declares lib name _ :=
    lib.function? name = none → lib.module.function? (lib.symbol name) = none
  declaresExternal lib name signature :=
    ∀ code, lib.module.function? name = some code → code.signature = signature
  imports lib other :=
    ∀ f ∈ lib.module.functions, ∀ g ∈ other.module.functions, f.name = g.name →
      f.signature = g.signature

theorem backed : FunctionInvariant .any (Matched fun _ _ _ _ => True) := by
  have hentered {lib : Library} (name v f) (h : lib.Matched fun _ _ _ _ => True) :
      (lib.entered name v f).Matched fun _ _ _ _ => True := by
    refine h.insert rfl ?_ fun _ _ hcode _ => ⟨_, function?_entered hcode name v f, trivial⟩
    obtain ⟨code, hcode, -⟩ := function?_entered_self lib name v f
    exact ⟨code, hcode, trivial⟩
  constructor
  case new => exact fun _ _ _ => .new
  case same => exact Matched.same
  case declared =>
    intro lib name signature h hnew _
    refine h.insert rfl ?_ fun _ _ hcode _ => ⟨_, function?_declared hcode name signature, trivial⟩
    cases hcode : lib.module.function? (lib.symbol name) with
    | some code => exact ⟨code, function?_declared hcode name signature, trivial⟩
    | none => exact ⟨_, function?_declared_self hcode signature, trivial⟩
  case external => exact fun h _ => hentered _ _ _ h
  case relinked =>
    intro lib name f v h hf
    have hfound {n code} (hcode : lib.module.function? n = some code) :
        ∃ code, (lib.relinked v name f).module.function? n = some code ∧ True := by
      obtain ⟨linkage, hcode'⟩ := function?_relinked_of_some hcode v name f
      exact ⟨_, hcode', trivial⟩
    obtain ⟨w, hholds⟩ := Table.exists_holds_of_get? hf
    obtain ⟨code, hcode, -⟩ := h.found hholds
    exact h.insert rfl (hfound hcode) fun _ _ hcode _ => hfound hcode
  case rebuilt =>
    intro lib name f code g built h hf _ hcode houtcome
    refine h.keep rfl fun _ hcode' _ => ?_
    obtain ⟨g', hg', -⟩ := houtcome.function?_of_some hcode hcode'
    exact ⟨g', hg', trivial⟩
  case importFrom =>
    intro lib other h _ _
    refine importFrom_induction Matched.same (fun h _ => hentered _ _ _ h) (fun h => ?_) h
    refine h.keep rfl fun {_ _ f _} _ hcode _ => ?_
    obtain hsame | ⟨-, code', -, -, hcode'⟩ := Module.function?_linked_cases f.symbol
    . exact ⟨_, hsame.trans hcode, trivial⟩
    . exact ⟨code', hcode', trivial⟩

namespace Agrees

theorem entered (h : lib.Agrees)
    (hfits : ∀ code, lib.module.function? f.symbol = some code → code.signature = f.signature)
    (name : String) (v : Visibility) : (lib.entered name v f).Agrees := by
  constructor
  . unfold Library.entered
    split
    . exact h.names
    . next hfree =>
      rw [Bool.not_eq_true, Option.isSome_eq_false_iff, Option.isNone_iff_eq_none] at hfree
      exact nodup_key_concat h.names hfree
  . refine h.signatures.insert rfl ?_ fun _ _ hcode hP => ⟨_, function?_entered hcode name v f, hP⟩
    obtain ⟨code, hcode, hold | ⟨-, rfl⟩⟩ := function?_entered_self lib name v f
    . exact ⟨code, hcode, hfits code hold⟩
    . exact ⟨_, hcode, rfl⟩

theorem linked (h : lib.Agrees) (hfits : Rules.fitting.imports lib other) :
    Agrees { lib with module := lib.module.linked other.module } := by
  constructor
  . dsimp only
    rw [Module.functions_linked]
    exact Module.linkSymbols_names h.names _
  . refine h.signatures.keep rfl fun {_ _ f code} _ hcode hP => ?_
    obtain hsame | ⟨-, code', hmem, hname, hcode'⟩ := Module.function?_linked_cases f.symbol
    . exact ⟨code, hsame.trans hcode, hP⟩
    . refine ⟨code', hcode', (hfits code (List.mem_of_find?_eq_some hcode) code' hmem ?_).symm.trans hP⟩
      rw [Module.name_of_function? hcode, hname]

theorem signature_of_mem (h : lib.Agrees) (hf : lib.functions.Holds v name f)
    (hg : g ∈ lib.module.functions) (hname : g.name = f.symbol) : g.signature = f.signature := by
  obtain ⟨code, hcode, hsignature⟩ := h.signatures.found hf
  have hfound : lib.module.function? f.symbol = some g :=
    (find?_key_eq_some_iff h.names).2 ⟨hg, hname⟩
  cases hfound.symm.trans hcode
  exact hsignature

theorem importFrom (h : lib.Agrees) (hother : other.Agrees)
    (hfits : Rules.fitting.imports lib other) : (importFrom other lib).2.Agrees := by
  -- The entries that are taken over fit the other library as well, so the link meets no other type.
  refine importFrom_induction (I := fun lib => lib.Agrees ∧ Rules.fitting.imports lib other)
    (fun ⟨h, hfits⟩ hsame => ⟨⟨hsame.code ▸ h.names, h.signatures.same hsame⟩, ?_⟩)
    (fun {lib name f} ⟨h, hfits⟩ hf => ⟨h.entered ?_ name lib.visibility, ?_⟩)
    (fun ⟨h, hfits⟩ => h.linked hfits) ⟨h, hfits⟩
  . unfold Rules.fitting at hfits ⊢
    dsimp only at hfits ⊢
    rw [hsame.code]
    exact hfits
  . intro code hcode
    obtain ⟨g, hg, hsignature⟩ := hother.signatures.found hf
    rw [hfits code (List.mem_of_find?_eq_some hcode) g (List.mem_of_find?_eq_some hg) ?_, hsignature]
    rw [Module.name_of_function? hcode, Module.name_of_function? hg]
  . intro code hmem g hg hname
    unfold Library.entered at hmem
    split at hmem
    . exact hfits code hmem g hg hname
    . rcases List.mem_append.1 hmem with hmem | hmem
      . exact hfits code hmem g hg hname
      . cases List.mem_singleton.1 hmem
        exact (hother.signature_of_mem hf hg hname.symm).symm

theorem functionInvariant : FunctionInvariant .fitting Agrees where
  new _ _ _ := ⟨List.nodup_nil, .new⟩
  same h hsame := ⟨hsame.code ▸ h.names, h.signatures.same hsame⟩
  declared {lib name signature} h hnew hrule := by
    have hfree := hrule hnew
    refine ⟨nodup_key_concat h.names hfree, ?_⟩
    refine h.signatures.insert rfl ⟨_, function?_declared_self hfree signature, rfl⟩
      fun _ _ hcode hP => ⟨_, function?_declared hcode name signature, hP⟩
  external {lib name signature} h hrule :=
    h.entered (f := { name, symbol := name, signature }) hrule name .exported
  relinked {lib name f} v h hf := by
    have hmatched {w other g code} (_ : lib.functions.Holds w other g)
        (hcode : lib.module.function? g.symbol = some code) (hP : code.signature = g.signature) :
        ∃ code', (lib.relinked v name f).module.function? g.symbol = some code' ∧
          code'.signature = g.signature := by
      obtain ⟨linkage, hcode'⟩ := function?_relinked_of_some hcode v name f
      exact ⟨_, hcode', hP⟩
    obtain ⟨w, hholds⟩ := Table.exists_holds_of_get? hf
    obtain ⟨code, hcode, hP⟩ := h.signatures.found hholds
    constructor
    . rw [names_relinked]
      exact h.names
    . exact h.signatures.insert rfl (hmatched hholds hcode hP) fun _ => hmatched
  rebuilt {lib name f code g built} h hf _ hcode houtcome := by
    constructor
    . dsimp only
      rw [houtcome.names hcode]
      exact h.names
    . refine h.signatures.keep rfl fun _ hcode' hP => ?_
      obtain ⟨g', hg', hheader⟩ := houtcome.function?_of_some hcode hcode'
      exact ⟨g', hg', (Function.signature_of_clearBody hheader).trans hP⟩
  importFrom := importFrom

end Agrees

theorem names_build (lib : Library) (name : String) (body : Body) :
    (build name body.run lib).2.module.functions.map Function.name =
      lib.module.functions.map Function.name := by
  obtain heq | ⟨f, code, g, built, texts, _, -, -, hcode, houtcome, heq⟩ := build_cases lib name body
  . rw [heq]
  . rw [heq]
    unfold Module.modifyFunction
    dsimp only
    rw [Module.functions_internAll]
    exact houtcome.names hcode

theorem names_function (lib : Library) (name : String) (signature : Ty.Signature) (body : Body) :
    (function name signature body.run lib).2.module.functions.map Function.name =
      (declare name signature lib).2.module.functions.map Function.name := by
  rcases function_cases lib name signature body.run with heq | heq
  . rw [heq]
  . rw [heq, names_build]

theorem free_of_names (hnew : lib.function? name = none) {signature : Ty.Signature}
    (hnames : ((declare name signature lib).2.module.functions.map Function.name).Nodup) :
    lib.module.function? (lib.symbol name) = none := by
  rw [declare_of_none hnew] at hnames
  have hconcat : (lib.declared name signature).module.functions.map Function.name =
      lib.module.functions.map Function.name ++ [lib.symbol name] := by
    simp [declared, Module.addFunction, declaration]
  rw [hconcat] at hnames
  refine find?_key_eq_none_iff.2 fun hmem => ?_
  exact (List.nodup_append.1 hnames).2.2 _ hmem _ List.mem_cons_self rfl

theorem Agrees.edit_iff (h : lib.Agrees) (e : Edit) :
    (lib.edit e).Agrees ↔ Rules.fitting.allows lib e := by
  refine ⟨fun hedit => ?_, Agrees.functionInvariant.maintains.edit h⟩
  cases e with
  | declare name signature => exact fun hnew => free_of_names hnew hedit.names
  | function name signature body =>
    intro hnew
    have hnames := hedit.names
    rw [edit, names_function] at hnames
    exact free_of_names hnew hnames
  | declareExternal name signature =>
    intro code hcode
    rw [edit, declareExternal_eq] at hedit
    obtain ⟨code', hcode', hsignature⟩ := hedit.signatures.found (holds_entered _ _ _ _)
    cases (function?_entered hcode name .exported _).symm.trans hcode'
    exact hsignature
  | _ => trivial

/--
Every entry of the table of functions, on either side, has a function in the code. If symbols that are
taken are not declared anew and what comes from elsewhere has the type that there is, the names in the
code are distinct and all types are those of the entries. Any single change against these rules breaks
that.
-/
theorem reached_agrees (lib : Library) :
    (Reached .any lib → ∀ v name f, lib.functions.Holds v name f →
      ∃ code ∈ lib.module.functions, code.name = f.symbol) ∧
    (Reached .fitting lib →
      (lib.module.functions.map Function.name).Nodup ∧
      (∀ v name f, lib.functions.Holds v name f →
        ∃ code, lib.module.function? f.symbol = some code ∧ code.signature = f.signature) ∧
      ∀ e, (lib.edit e).Agrees ↔ Rules.fitting.allows lib e) := by
  constructor
  . intro hlib v name f hf
    obtain ⟨code, hcode, -⟩ := hlib.invariant backed.maintains v name f hf
    exact ⟨code, List.mem_of_find?_eq_some hcode, Module.name_of_function? hcode⟩
  . intro hlib
    have hagrees := hlib.invariant Agrees.functionInvariant.maintains
    exact ⟨hagrees.names, hagrees.signatures, hagrees.edit_iff⟩

def utilities : Library :=
  (({ name := "util", address := "util" } : Library).edit
    (.declareExternal "puts" ⟨.i32, [.bytePointer], false⟩)).edit
      (.function "f" ⟨.i32, [], false⟩ (.script [.ret (.operand (.int 1))]))

def client : Library :=
  (importFrom utilities
    ((({ name := "p", address := "p", prefixed := false } : Library).edit
      (.declareExternal "puts" ⟨.i32, [.bytePointer], false⟩)).edit
        (.declare "main" ⟨.i32, [], false⟩))).2

theorem utilities_history :
    History .fitting { name := "util", address := "util", prefixed := true } utilities :=
  (History.refl.edit (by rintro _ ⟨⟩)).edit fun _ => Option.isNone_iff_eq_none.1 (by decide +kernel)

theorem client_reached : Reached .fitting client := by
  refine ⟨"p", "p", false, .importFrom ((History.refl.edit ?_).edit ?_) utilities_history ?_⟩
  . rintro _ ⟨⟩
  . exact fun _ => Option.isNone_iff_eq_none.1 (by decide +kernel)
  . unfold Rules.fitting
    decide +kernel

theorem client_agrees :
    Reached .fitting client ∧
    client.module.functions.map Function.name = ["puts", "main", "util.f"] ∧
    (client.module.functions.map Function.name).Nodup ∧
    (client.edit (.declare "g" ⟨.i32, [], false⟩)).Agrees ∧
    ¬ (client.edit (.declare "util.f" ⟨.i32, [], false⟩)).Agrees := by
  obtain ⟨hnames, -, hedit⟩ := (reached_agrees client).2 client_reached
  refine ⟨client_reached, by decide +kernel, hnames, ?_, ?_⟩
  . exact (hedit _).2 fun _ => Option.isNone_iff_eq_none.1 (by decide +kernel)
  . rw [hedit]
    intro hallowed
    have hfree := hallowed (Option.isNone_iff_eq_none.1 (by decide +kernel))
    have htaken : (client.module.function? (client.symbol "util.f")).isSome := by decide +kernel
    rw [hfree] at htaken
    cases htaken

def squatted : Library :=
  (({ name := "m", address := "m" } : Library).edit (.declareExternal "m.f" ⟨.i32, [], false⟩)).edit
    (.declare "f" ⟨.i32, [], false⟩)

def retyped : Library :=
  (({ name := "m", address := "m" } : Library).edit (.declareExternal "f" ⟨.i32, [], false⟩)).edit
    (.declareExternal "f" ⟨.i64, [], false⟩)

/--
Without the rules there can be two functions of one name, and an entry of another type than its
function.
-/
theorem squatted_disagrees :
    Reached .any squatted ∧ squatted.module.functions.map Function.name = ["m.f", "m.f"] ∧
    Reached .any retyped ∧ ∃ f code, retyped.functions.Holds .exported "f" f ∧
      retyped.module.function? f.symbol = some code ∧
      f.signature = ⟨.i64, [], false⟩ ∧ code.signature = ⟨.i32, [], false⟩ := by
  have hreached (e e' : Edit) (h : Rules.any.allows { name := "m", address := "m" } e)
      (h' : Rules.any.allows (({ name := "m", address := "m" } : Library).edit e) e') :
      Reached .any ((({ name := "m", address := "m" } : Library).edit e).edit e') :=
    ⟨"m", "m", true, (History.refl.edit h).edit h'⟩
  refine ⟨hreached _ _ trivial trivial, by decide +kernel, hreached _ _ trivial trivial,
    ⟨"f", "f", ⟨.i64, [], false⟩⟩, declaration "f" ⟨.i32, [], false⟩, ?_, rfl, rfl, rfl⟩
  rw [retyped, edit, declareExternal_eq]
  exact holds_entered _ _ _ _

end Library

end ScriptedIR
