import ScriptedIR.Proofs.Encoding
import ScriptedIR.Proofs.Endings
import ScriptedIR.Proofs.Globals
import ScriptedIR.Proofs.Interning
import ScriptedIR.Proofs.Reading
import ScriptedIR.Script.Convert

/-!
From a text operand to the output of a run. The bytes of a text go through a constant, a global and
memory, and `puts` reads them back; it stops at the first NUL character.
-/

namespace ScriptedIR

def Datum.ofByte (b : UInt8) : Datum := .int b.toInt8.toInt64

theorem toInt64_eq_zero_iff (b : UInt8) : b.toInt8.toInt64 = 0 ↔ b = 0 := by
  have h : ∀ v : BitVec 8, (UInt8.ofBitVec v).toInt8.toInt64 = 0 ↔ UInt8.ofBitVec v = 0 := by decide
  exact h b.toBitVec

theorem toUInt8_toInt64 (b : UInt8) : b.toInt8.toInt64.toUInt64.toUInt8 = b := by
  have h : ∀ v : BitVec 8,
      (UInt8.ofBitVec v).toInt8.toInt64.toUInt64.toUInt8 = UInt8.ofBitVec v := by decide
  exact h b.toBitVec

theorem Env.constants_bytes (env : Env) (bytes : List UInt8) :
    env.constants (bytes.map Constant.ofByte) = .ok (bytes.map Datum.ofByte) := by
  induction bytes with
  | nil => rfl
  | cons b bytes ih =>
    rw [List.map_cons, Env.constants, ih]
    rfl

namespace Memory

variable {m : Memory} {alloc : Nat}

theorem readText_of_load {t : String}
    (h : m.load (.memory alloc [0]) =
      .ok (.aggregate ((Text.Utf8.encode t ++ [0]).map Datum.ofByte))) :
    m.readText (.memory alloc [0, 0]) = .ok (String.ofList (t.toList.takeWhile (· ≠ '\x00'))) := by
  obtain ⟨rest, hsplit, hne⟩ := Text.Utf8.encode_splits t
  rw [hsplit] at h
  generalize hbytes : Text.Utf8.encode (String.ofList (t.toList.takeWhile (· ≠ '\x00'))) = bytes at *
  refine (m.readText_eq_ok_iff _ _).2 ⟨_, 0, bytes.map fun b => b.toInt8.toInt64,
    .aggregate 0 h, Int.le_refl 0, ⟨?_, rest.map .ofByte, ?_⟩, ?_⟩
  . intro hzero
    obtain ⟨b, hb, hb0⟩ := List.mem_map.1 hzero
    exact hne b hb ((toInt64_eq_zero_iff b).1 hb0)
  . simp [Datum.ofByte]
  . simp only [List.map_map, Function.comp_def, toUInt8_toInt64, List.map_id']
    rw [← hbytes, Text.Utf8.decode_encode]

end Memory

theorem Host.puts_of_readText {store : Store} {p : Pointer} {text : String}
    (h : store.memory.readText p = .ok text) :
    puts store [.pointer p] = (.ok (.int 0), store.write (text ++ "\n")) := by
  simp [puts, writing, pointerArg, h, bind, Except.bind, pure, Except.pure]

theorem bitCast_bytes (n alloc : Nat) :
    bitCast (.pointer (.memory alloc [0])) (.pointer (.array n .i8)) .bytePointer =
      .ok (.pointer (.memory alloc [0, 0])) := by
  simp [bitCast, descend, Pointer.child]

theorem Machine.create_reads {program : Module} {limits : Limits} {machine : Machine}
    (h : create program limits = .ok machine)
    (hnames : (program.globals.map Global.name).Nodup) {g : Global} (hg : g ∈ program.globals)
    {t : String} (ht : g.StoresText t) :
    ∃ p, machine.env.constant (.bitCast g.address .bytePointer) = .ok (.pointer p) ∧
      machine.store.memory.readText p =
        .ok (String.ofList (t.toList.takeWhile (· ≠ '\x00'))) := by
  obtain ⟨front, back, hglobals⟩ := List.append_of_mem hg
  have hlast : ∀ g' ∈ back, g'.name ≠ g.name := by
    rw [hglobals, List.map_append, List.map_cons, List.nodup_append, List.nodup_cons] at hnames
    intro g' hg' heq
    exact hnames.2.1.1 (heq ▸ List.mem_map_of_mem hg')
  obtain ⟨hp, d, hd, hload⟩ := create_initializes h hglobals hlast ht.initializer
  rw [Env.constant, Env.constants_bytes] at hd
  cases hd
  rw [← Text.Utf8.encode_eq] at hload
  refine ⟨.memory front.length [0, 0], ?_, Memory.readText_of_load hload⟩
  rw [Env.constant, Global.address, Env.constant, hp, Constant.ty, ht.ty]
  exact bitCast_bytes _ _

theorem Machine.create_env {program : Module} {limits : Limits} {machine : Machine}
    (h : create program limits = .ok machine) :
    machine.env.module = program ∧ machine.env.limits = limits ∧
      machine.env.hosts = Host.standard ∧ machine.store.output = "" := by
  unfold create at h
  obtain ⟨memory, -, h⟩ := bind_eq_ok_iff.1 h
  cases h
  exact ⟨rfl, rfl, rfl, rfl⟩

structure Function.OneCall (f : Function) (callee arg : Constant) where
  entry : Block
  others : List Block
  result : Option Temp
  ty : Ty
  answer : Option Value
  blocks : f.blocks = entry :: others
  body : entry.body = [.call result (.const callee) [.const arg] ty, .ret answer]
  numbered : ∀ id ∈ result, id < f.nextTemp
  slots : f.params.length ≤ f.nextTemp

namespace Function.OneCall

variable {f : Function} {callee arg : Constant} {env : Env}

def Answers (code : f.OneCall callee arg) (env : Env) : Prop :=
  ∀ v ∈ code.answer,
    match v with
    | .temp id _ => id < f.params.length ∨ code.result = some id
    | .const c => ∃ d, env.constant c = .ok d

theorem isDeclaration_eq_false (code : f.OneCall callee arg) : f.isDeclaration = false := by
  rw [isDeclaration, code.blocks]
  rfl

theorem rest_enter (code : f.OneCall callee arg) (args : List Datum) :
    (Frame.enter f args).rest =
      [.call code.result (.const callee) [.const arg] code.ty, .ret code.answer] := by
  have hentry : f.block? (f.entry?.getD 0) = some code.entry := by
    unfold block? entry?
    simp [code.blocks]
  simp only [Frame.enter, Frame.jump, hentry, code.body]

def temps (code : f.OneCall callee arg) (args : List Datum) (d : Datum) : Array (Option Datum) :=
  match code.result with
  | none => (Frame.enter f args).temps
  | some id => (Frame.enter f args).temps.setIfInBounds id (some d)

section Temps

variable {args : List Datum}

theorem length_le_of_takes (hargs : f.Takes args) : f.params.length ≤ args.length := by
  unfold Takes at hargs
  split at hargs <;> omega

theorem temps_enter_param (code : f.OneCall callee arg) (hargs : f.Takes args) {id : Temp}
    (hid : id < f.params.length) : ∃ d, (Frame.enter f args).temps[id]? = some (some d) := by
  have hlt := Nat.lt_of_lt_of_le hid (length_le_of_takes hargs)
  refine ⟨args[id], ?_⟩
  rw [Frame.temps_enter, if_pos (Nat.lt_of_lt_of_le hid code.slots)]
  simp [hid, hlt]

theorem temps_answer (code : f.OneCall callee arg) (hargs : f.Takes args) (d : Datum) {id : Temp}
    (hid : id < f.params.length ∨ code.result = some id) :
    ∃ d', (code.temps args d)[id]? = some (some d') := by
  unfold temps
  cases hresult : code.result with
  | none =>
    rcases hid with hid | hid
    . exact code.temps_enter_param hargs hid
    . rw [hresult] at hid
      cases hid
  | some target =>
    have htarget := code.numbered target hresult
    by_cases heq : target = id
    . refine ⟨d, ?_⟩
      rw [← heq]
      exact Array.getElem?_setIfInBounds_self_of_lt (by rwa [Frame.size_enter])
    . rw [Array.getElem?_setIfInBounds_ne heq]
      rcases hid with hid | hid
      . exact code.temps_enter_param hargs hid
      . rw [hresult] at hid
        cases hid
        exact absurd rfl heq

end Temps

end Function.OneCall

namespace Env

variable {env : Env} {f : Function} {callee arg : Constant} {args : List Datum}

theorem resume_oneCall (code : f.OneCall callee arg) (args : List Datum) (d : Datum)
    (rest : List Instruction) (store : Store) :
    resume { Frame.enter f args with rest } code.result d [] store =
      .running ⟨{ Frame.enter f args with temps := code.temps args d, rest }, [], store⟩ := by
  unfold resume Function.OneCall.temps
  cases hresult : code.result with
  | none => rfl
  | some id =>
    have hid : id < (Frame.enter f args).temps.size := by
      rw [Frame.size_enter]
      exact code.numbered id hresult
    simp only [Frame.set, if_pos hid]

theorem step_ret_oneCall {code : f.OneCall callee arg} (hargs : f.Takes args)
    (hanswer : code.Answers env) (d : Datum) (store : Store) :
    ∃ d', env.step ⟨{ Frame.enter f args with temps := code.temps args d, rest := [] }, [], store⟩
      (.ret code.answer) = .ended (.ok d') store := by
  cases h : code.answer with
  | none => exact ⟨.void, rfl⟩
  | some v =>
    have hv := hanswer v h
    cases v with
    | temp id ty =>
      obtain ⟨d', hd'⟩ := code.temps_answer hargs d hv
      refine ⟨d', ?_⟩
      simp only [step, Frame.value, hd', leave]
    | const c =>
      obtain ⟨d', hd'⟩ := hv
      refine ⟨d', ?_⟩
      simp only [step, Frame.value, hd', leave]

theorem run_oneCall {code : f.OneCall callee arg} {name called : String} {d d' : Datum}
    {host : HostFunction} {store store' : Store} (hf : env.module.function? name = some f)
    (hargs : f.Takes args) (hdepth : 0 < env.limits.depth) (hsteps : 2 ≤ env.limits.steps)
    (hanswer : code.Answers env) (hcallee : env.constant callee = .ok (.function called))
    (harg : env.constant arg = .ok d) (hhost : env.dispatch 1 called [d] = .host host)
    (hcall : host store [d] = (.ok d', store')) :
    ∃ d'', (env.run store name args).result = .ok d'' ∧
      (env.run store name args).store = store' := by
  rw [run_eq_runFor hf hargs code.isDeclaration_eq_false code.slots hdepth]
  have hfirst : env.next ⟨.enter f args, [], store⟩ = .running
      ⟨{ Frame.enter f args with temps := code.temps args d', rest := [.ret code.answer] }, [],
        store'⟩ := by
    rw [next_of_cons (code.rest_enter args), ← resume_oneCall]
    simp only [step, invoke, Frame.value, hcallee, harg, List.mapM_cons, List.mapM_nil, bind,
      Except.bind, pure, Except.pure, List.length_nil, Nat.zero_add, hhost, hcall]
  obtain ⟨d'', hret⟩ := step_ret_oneCall hargs hanswer d' store'
  have hended : env.iterate 2 ⟨.enter f args, [], store⟩ = .ended (.ok d'') store' := by
    rw [iterate_succ_of_running hfirst, iterate, next_of_cons rfl, hret]
  exact ⟨d'', runFor_of_ended hended hsteps 0⟩

end Env

theorem Machine.run_puts {program : Module} {limits : Limits} {machine : Machine}
    (hcreate : create program limits = .ok machine)
    (hnames : (program.globals.map Global.name).Nodup) {g : Global} (hg : g ∈ program.globals)
    {t : String} (ht : g.StoresText t) (hsteps : 2 ≤ limits.steps) (hdepth : 0 < limits.depth)
    {puts f : Function} (hputs : program.function? "puts" = some puts)
    (hdeclared : puts.isDeclaration = true) (hparams : puts.params = [.bytePointer])
    (name : String) (hf : program.function? name = some f) (args : List Datum)
    (hargs : f.Takes args) (code : f.OneCall puts.address (.bitCast g.address .bytePointer))
    (hanswer : code.Answers machine.env) {store : Store}
    (hstore : store.memory = machine.store.memory) :
    ∃ d, (machine.env.run store name args).result = .ok d ∧
      (machine.env.run store name args).store =
        store.write (String.ofList (t.toList.takeWhile (· ≠ '\x00')) ++ "\n") := by
  obtain ⟨hmodule, hlimits, hhosts, -⟩ := create_env hcreate
  obtain ⟨p, hp, htext⟩ := create_reads hcreate hnames hg ht
  rw [← hstore] at htext
  have hname : puts.name = "puts" := by simpa using List.find?_some hputs
  have hhost : machine.env.dispatch 1 "puts" [.pointer p] = .host Host.puts := by
    unfold Env.dispatch Env.dispatchTo
    simp only [hmodule, hhosts, hputs, hparams, hdeclared]
    cases puts.variadic <;> rfl
  have hcallee : machine.env.constant puts.address = .ok (.function "puts") := by
    rw [Function.address, Env.constant, hname]
  rw [← hmodule] at hf
  rw [← hlimits] at hdepth hsteps
  exact Env.run_oneCall hf hargs hdepth hsteps hanswer hcallee hp hhost
    (Host.puts_of_readText htext)

namespace Module

section Definitions

variable {α : Type} {name : α → String} {isDeclaration : α → Bool} {a new : α}
  {symbols linked : List α}

theorem mem_linkSymbol (h : linkSymbol name isDeclaration new symbols = .ok linked)
    (ha : a ∈ symbols) (hdefined : isDeclaration a = false) : a ∈ linked := by
  unfold linkSymbol at h
  split at h
  . cases h
    exact List.mem_append_left _ ha
  . next old hold =>
    split at h
    . cases h
      exact ha
    . split at h
      . next hdeclared =>
        cases h
        refine mem_modifyFirst ha ?_
        rw [hold]
        rintro ⟨⟩
        rw [hdefined] at hdeclared
        cases hdeclared
      . cases h

theorem mem_linkSymbols (ha : a ∈ symbols) (hdefined : isDeclaration a = false) (news : List α) :
    a ∈ (linkSymbols name isDeclaration news symbols).2 := by
  induction news generalizing symbols with
  | nil => exact ha
  | cons new news ih =>
    rw [linkSymbols]
    split
    . next hlink => exact ih (mem_linkSymbol hlink ha hdefined)
    . exact ha

end Definitions

/--
There is a global for each text in the table, and it stores the text. This is so in all modules that
are built from a new one.
-/
def HoldsTexts (m : Module) : Prop :=
  ∀ t n : String, m.strings[t]? = some n → ∃ g ∈ m.globals, g.name = n ∧ g.StoresText t

namespace HoldsTexts

variable {m : Module}

theorem new (name : String) : HoldsTexts { name } := by
  intro t n ht
  simp at ht

theorem intern (h : m.HoldsTexts) (t : String) : (m.intern t).2.HoldsTexts := by
  rcases m.intern_cases t with ⟨n, g, -, -, heq⟩ | ⟨-, heq⟩
  . rw [heq]
    exact h
  . rw [heq]
    intro u n hu
    dsimp only at hu
    rw [getElem?_insert_text] at hu
    split at hu
    . next htu =>
      cases hu
      subst htu
      exact ⟨m.textGlobal t, List.mem_append_right _ (List.mem_singleton_self _), rfl,
        m.textGlobal_storesText t⟩
    . obtain ⟨g, hg, hstored⟩ := h u n hu
      exact ⟨g, List.mem_append_left _ hg, hstored⟩

theorem linked (h : m.HoldsTexts) (other : Module) : (m.linked other).HoldsTexts := by
  intro t n ht
  rw [strings_linked] at ht
  obtain ⟨g, hg, hname, htext⟩ := h t n ht
  have hdefined : g.isDeclaration = false := by
    rw [Global.isDeclaration, htext.initializer]
    rfl
  refine ⟨g, ?_, hname, htext⟩
  rcases @globals_linked_cases m other with heq | heq
  . rwa [heq]
  . rw [heq]
    exact mem_linkSymbols hg hdefined other.globals

theorem add (h : m.HoldsTexts) (a : Addition) : (m.add a).HoldsTexts := by
  cases a with
  | global g =>
    intro t n ht
    obtain ⟨g', hg', hstored⟩ := h t n ht
    exact ⟨g', List.mem_append_left _ hg', hstored⟩
  | text t => exact h.intern t
  | module other => exact h.linked other

theorem addAll (h : m.HoldsTexts) (additions : List Addition) :
    (m.addAll additions).HoldsTexts := by
  induction additions generalizing m with
  | nil => exact h
  | cons a additions ih => exact ih (h.add a)

end HoldsTexts

theorem intern_address {m : Module} {t : String}
    (h : ∀ n : String, m.strings[t]? = some n →
      m.global? n = none ∨ ∃ g ∈ m.globals, g.name = n ∧ g.StoresText t)
    {globals : List Global} (hsub : (m.intern t).2.globals ⊆ globals)
    (hnames : (globals.map Global.name).Nodup) :
    ∃ g ∈ globals, g.StoresText t ∧ (m.intern t).1 = g.address := by
  rcases m.intern_cases t with ⟨n, g, ht, hg, heq⟩ | ⟨-, heq⟩
  . rw [heq] at hsub ⊢
    rcases h n ht with hnone | ⟨g', hg', hname, htext⟩
    . rw [hg] at hnone
      cases hnone
    . have hfound := (find?_key_eq_some_iff hnames).2
        ⟨hsub (List.mem_of_find?_eq_some hg), name_of_global? hg⟩
      have hfound' := (find?_key_eq_some_iff hnames).2 ⟨hsub hg', hname⟩
      rw [hfound] at hfound'
      cases hfound'
      exact ⟨g, hsub hg', htext, rfl⟩
  . rw [heq] at hsub ⊢
    exact ⟨m.textGlobal t, hsub (List.mem_append_right _ (List.mem_singleton_self _)),
      m.textGlobal_storesText t, rfl⟩

end Module

theorem Operand.convert_str {hint : Option Hint}
    (h : hint = none ∨ hint = some (.type .bytePointer)) (t : String) (m : Module) :
    (Operand.str t).convert hint m =
      (.ok (.const (.bitCast (m.intern t).1 .bytePointer)), (m.intern t).2) := by
  rcases h with rfl | rfl <;> rw [convert] <;> rfl

/--
A text that is converted to a pointer to bytes comes out of `puts` again, up to its first NUL
character, unless the table leads to a global with something else. Other globals may be added before
the program is run.
-/
theorem convert_text_prints {m : Module} {t : String}
    (hm : ∀ n : String, m.strings[t]? = some n →
      m.global? n = none ∨ ∃ g ∈ m.globals, g.name = n ∧ g.StoresText t)
    {hint : Option Hint} (hhint : hint = none ∨ hint = some (.type .bytePointer)) :
    ∃ c m', (Operand.str t).convert hint m = (.ok (.const c), m') ∧ c.ty = .bytePointer ∧
      ∀ (program : Module) (limits : Limits) (machine : Machine), m'.globals ⊆ program.globals →
        (program.globals.map Global.name).Nodup → Machine.create program limits = .ok machine →
        2 ≤ limits.steps → 0 < limits.depth →
      ∀ puts : Function, program.function? "puts" = some puts → puts.isDeclaration = true →
        puts.params = [.bytePointer] →
      ∀ (name : String) (f : Function) (args : List Datum) (code : f.OneCall puts.address c),
        program.function? name = some f → f.Takes args → code.Answers machine.env →
      ∀ store : Store, store.memory = machine.store.memory → ∃ d,
        (machine.env.run store name args).result = .ok d ∧
        (machine.env.run store name args).store =
          store.write (String.ofList (t.toList.takeWhile (· ≠ '\x00')) ++ "\n") := by
  refine ⟨_, _, Operand.convert_str hhint t m, rfl, ?_⟩
  intro program limits machine hsub hnames hcreate hsteps hdepth puts hputs hdeclared hparams
  obtain ⟨g, hg, htext, haddress⟩ := Module.intern_address hm hsub hnames
  rw [haddress]
  intro name f args code hf hargs hanswer store hstore
  exact Machine.run_puts hcreate hnames hg htext hsteps hdepth hputs hdeclared hparams name hf args
    hargs code hanswer hstore

def putsDeclaration : Function :=
  { name := "puts", result := .i32, params := [.bytePointer], variadic := false }

def printer (c : Constant) : Function where
  name := "main"
  result := .i32
  params := []
  variadic := false
  blocks := [⟨0, "entry", [.call (some 0) (.const putsDeclaration.address) [.const c] .i32,
    .ret (some (.temp 0 .i32))]⟩]
  nextTemp := 1
  nextBlock := 1

def printerCode (c : Constant) : (printer c).OneCall putsDeclaration.address c where
  entry := _
  others := []
  result := some 0
  ty := .i32
  answer := some (.temp 0 .i32)
  blocks := rfl
  body := rfl
  numbered := by
    rintro id ⟨⟩
    exact Nat.one_pos
  slots := Nat.zero_le _

def Module.withPrinter (m : Module) (c : Constant) : Module :=
  { m with functions := [putsDeclaration, printer c] }

theorem printerCode_answers (c : Constant) (env : Env) : (printerCode c).Answers env := by
  rintro v ⟨⟩
  exact .inr rfl

def noted : Module := Module.addAll { name := "m" } [.text "no"]

theorem accented_text_prints :
    (∀ n : String, noted.strings["né\x00x"]? = some n →
      noted.global? n = none ∨ ∃ g ∈ noted.globals, g.name = n ∧ g.StoresText "né\x00x") ∧
    ∃ c m' machine,
      (Operand.str "né\x00x").convert none noted = (.ok (.const c), m') ∧
      Machine.create (m'.withPrinter c) {} = .ok machine ∧
      ∃ d, (machine.env.run ⟨machine.store.memory, "> "⟩ "main" []).result = .ok d ∧
        (machine.env.run ⟨machine.store.memory, "> "⟩ "main" []).store.output = "> né\n" := by
  have hholds : noted.HoldsTexts := (Module.HoldsTexts.new "m").addAll _
  have hm (n : String) (hn : noted.strings["né\x00x"]? = some n) : noted.global? n = none ∨
      ∃ g ∈ noted.globals, g.name = n ∧ g.StoresText "né\x00x" := .inr (hholds _ n hn)
  obtain ⟨machine, hcreate⟩ : ∃ machine, Machine.create ((noted.intern "né\x00x").2.withPrinter
      (.bitCast (noted.intern "né\x00x").1 .bytePointer)) {} = .ok machine := ⟨_, rfl⟩
  obtain ⟨c, m', hconvert, -, hprints⟩ := convert_text_prints hm (.inl rfl)
  have heq := hconvert
  rw [Operand.convert_str (.inl rfl)] at heq
  cases heq
  obtain ⟨d, hresult, hstore⟩ := hprints _ {} machine (by exact List.Subset.refl _) (by decide)
    hcreate (by decide) (by decide) putsDeclaration rfl rfl rfl "main" _ [] (printerCode _) rfl rfl
    (printerCode_answers _ _) ⟨machine.store.memory, "> "⟩ rfl
  refine ⟨hm, _, _, machine, hconvert, hcreate, d, hresult, ?_⟩
  rw [hstore, Store.write]
  dsimp only
  decide

def misfiled : Module where
  name := "m"
  globals := [{ name := "g", ty := .array 3 .i8, initializer := some (Module.stringConstant "no") }]
  strings := (∅ : Names String).insert "hi" "g"

/--
A table that was not made by interning may lead to another text.
-/
theorem misfiled_prints_other :
    (misfiled.globals.map Global.name).Nodup ∧ ∃ c machine,
      (Operand.str "hi").convert none misfiled = (.ok (.const c), misfiled) ∧
      Machine.create (misfiled.withPrinter c) {} = .ok machine ∧
      ∃ d, (machine.env.run machine.store "main" []).result = .ok d ∧
        (machine.env.run machine.store "main" []).store.output = "no\n" := by
  have htext : ∀ g ∈ misfiled.globals, g.StoresText "no" := by
    intro g hg
    rw [List.mem_singleton.1 hg]
    refine ⟨rfl, ?_⟩
    rw [Module.stringConstant_eq]
    rfl
  let c : Constant := .bitCast (.globalAddr "g" (.pointer (.array 3 .i8))) .bytePointer
  have hconvert : (Operand.str "hi").convert none misfiled = (.ok (.const c), misfiled) := by
    rw [Operand.convert_str (.inl rfl)]
    rfl
  obtain ⟨machine, hcreate⟩ : ∃ machine, Machine.create (misfiled.withPrinter c) {} = .ok machine :=
    ⟨_, rfl⟩
  have hg := List.mem_singleton_self (misfiled.globals.head (by decide))
  obtain ⟨d, hresult, hstore⟩ := Machine.run_puts hcreate (by decide) hg (htext _ hg) (by decide)
    (by decide) rfl rfl rfl "main" rfl [] rfl (printerCode c) (printerCode_answers c _) rfl
  refine ⟨by decide, c, machine, hconvert, hcreate, d, hresult, ?_⟩
  rw [hstore, Store.write, (Machine.create_env hcreate).2.2.2]
  dsimp only
  decide

end ScriptedIR
