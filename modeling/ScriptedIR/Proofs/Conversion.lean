import ScriptedIR.Proofs.Typing
import ScriptedIR.Script.Convert

/-!
Conversion of operands. All that a conversion can come to is said once (`convert_cases`). From it: the
value is as hinted and its parts fit their types, however deep the lists are, and converting it again
leaves it as it is. References to functions are the exception, as they are not compared with the hint.
-/

namespace ScriptedIR

namespace Hint

variable {hint : Option Hint}

def listKind? : Option Hint → Option Kind
  | none => some .array
  | some h => if h.toKind = .array ∨ h.toKind = .vector then some h.toKind else none

theorem accepts_integerType {w : IntWidth} (h : (hint.map toKind).all (·.accepts .integer)) :
    ∃ v, integerType (.int w) hint = .int v ∧ hint.all (·.accepts (.int v)) := by
  rcases hint with _ | ⟨ty⟩ | ⟨k⟩
  . exact ⟨w, rfl, rfl⟩
  . cases ty with
    | int v => exact ⟨v, rfl, by simp [accepts]⟩
    | _ => cases h
  . exact ⟨w, rfl, h⟩

theorem accepts_decimalType (h : (hint.map toKind).all (·.accepts .decimal)) :
    ∃ p, decimalType hint = .float p ∧ hint.all (·.accepts (.float p)) := by
  rcases hint with _ | ⟨ty⟩ | ⟨k⟩
  . exact ⟨.single, rfl, rfl⟩
  . cases ty with
    | float p => exact ⟨p, rfl, by simp [accepts]⟩
    | _ => cases h
  . exact ⟨.single, rfl, h⟩

theorem accepts_pointerType (h : (hint.map toKind).all (·.accepts .pointer)) :
    ∃ t, pointerType hint = .pointer t ∧ hint.all (·.accepts (.pointer t)) := by
  rcases hint with _ | ⟨ty⟩ | ⟨k⟩
  . exact ⟨.i8, rfl, rfl⟩
  . cases ty with
    | pointer t => exact ⟨t, rfl, by simp [accepts]⟩
    | _ => cases h
  . exact ⟨.i8, rfl, h⟩

end Hint

theorem Interning.bind_apply (x : Interning α) (f : α → Interning β) (m : Module) :
    (x >>= f) m =
      match x m with
      | (.ok a, m') => f a m'
      | (.error e, m') => (.error e, m') := by
  simp only [Bind.bind, ExceptT.bind, ExceptT.mk, StateT.bind]
  cases x m with
  | mk result m' => cases result <;> rfl

namespace Constant

mutual

def parts : Constant → List Constant
  | .array ty cs => .array ty cs :: partsAll cs
  | .vector ty cs => .vector ty cs :: partsAll cs
  | .struct ty cs => .struct ty cs :: partsAll cs
  | .bitCast c ty => .bitCast c ty :: parts c
  | c => [c]

def partsAll : List Constant → List Constant
  | [] => []
  | c :: cs => parts c ++ partsAll cs

end

theorem mem_partsAll {part : Constant} {cs : List Constant} :
    part ∈ partsAll cs ↔ ∃ c ∈ cs, part ∈ c.parts := by
  induction cs with
  | nil => simp [partsAll]
  | cons c cs ih => simp [partsAll, ih]

def FillRow (kind : Kind) (ty : Ty) (cs : List Constant) : Prop :=
  ty.kind = kind ∧ ty.length? = some cs.length ∧ ∀ c ∈ cs, ty.element? = some c.ty

def HasShape : Constant → Prop
  | .int ty n => Word.normalize ty.wordWidth n = n
  | .array ty cs => FillRow .array ty cs
  | .vector ty cs => FillRow .vector ty cs
  | _ => True

def WellShaped (c : Constant) : Prop := ∀ part ∈ c.parts, part.HasShape

instance : DecidablePred HasShape
  | .int .. => inferInstanceAs (Decidable (_ = _))
  | .array .. | .vector .. => inferInstanceAs (Decidable (_ ∧ _))
  | .float .. | .null _ | .undef _ | .struct .. | .globalAddr .. | .functionAddr .. | .bitCast .. =>
    .isTrue trivial

instance : DecidablePred WellShaped := fun c => inferInstanceAs (Decidable (∀ part ∈ c.parts, _))

theorem wellShaped_ofInt (ty : Ty) (n : Int64) : (ofInt ty n).WellShaped := by
  intro part hpart
  rw [List.mem_singleton.1 hpart]
  exact Word.normalize_normalize _ _

theorem wellShaped_row {c : Constant} {cs : List Constant} (hparts : c.parts = c :: partsAll cs)
    (hshape : c.HasShape) (hcs : ∀ c ∈ cs, c.WellShaped) : c.WellShaped := by
  intro part hpart
  rw [hparts] at hpart
  rcases List.mem_cons.1 hpart with rfl | hpart
  . exact hshape
  . obtain ⟨c, hc, hpart⟩ := mem_partsAll.1 hpart
    exact hcs c hc part hpart

theorem wellShaped_ofElements {kind : Kind} {t : Ty} {cs : List Constant} (hty : ∀ c ∈ cs, c.ty = t)
    (hcs : ∀ c ∈ cs, c.WellShaped) : (ofElements kind t cs).WellShaped := by
  have helement (c : Constant) (hc : c ∈ cs) : some t = some c.ty := by rw [hty c hc]
  unfold ofElements
  split
  . exact wellShaped_row rfl ⟨rfl, rfl, helement⟩ hcs
  . exact wellShaped_row rfl ⟨rfl, rfl, helement⟩ hcs

theorem wellShaped_stringConstant (s : String) : (Module.stringConstant s).WellShaped := by
  apply wellShaped_row rfl
  . refine ⟨rfl, rfl, ?_⟩
    simp only [List.mem_map]
    rintro _ ⟨b, -, rfl⟩
    rfl
  . simp only [List.mem_map]
    rintro _ ⟨b, -, rfl⟩
    exact wellShaped_ofInt _ _

theorem wellShaped_intern (m : Module) (s : String) (t : Ty) :
    (bitCast (m.intern s).1 t).WellShaped := by
  obtain ⟨g, hg⟩ : ∃ g : Global, (m.intern s).1 = g.address := by
    unfold Module.intern
    split
    . exact ⟨_, rfl⟩
    . exact ⟨_, rfl⟩
  intro part hpart
  rw [hg] at hpart
  rcases List.mem_cons.1 hpart with rfl | hpart
  . trivial
  . rw [List.mem_singleton.1 hpart]
    trivial

end Constant

namespace Operand

open Interning

variable {hint : Option Hint} {m m' : Module} {o : Operand} {v : Value}

/--
All that the conversion of an operand can come to. Only texts and lists change the module, and only a
reference to a function is not compared with the hint.
-/
inductive Conversion (hint : Option Hint) (m : Module) :
    Operand → Except ScriptError Value × Module → Prop
  | refused (o : Operand) : Conversion hint m o (.error (.typeMismatch o hint), m)
  | value {v : Value} : hint.all (·.accepts v.ty) → Conversion hint m (.value v) (.ok v, m)
  | function (f : FunctionRef) : Conversion hint m (.function f) (.ok f.address, m)
  | integer {o : Operand} {w : IntWidth} {n : Int64} : hint.all (·.accepts (.int w)) →
      Conversion hint m o (.ok (.ofInt (.int w) n), m)
  | decimal {o : Operand} {p : Precision} {x : Float} : hint.all (·.accepts (.float p)) →
      Conversion hint m o (.ok (.ofFloat (.float p) x), m)
  | null {o : Operand} {t : Ty} : hint.all (·.accepts (.pointer t)) →
      Conversion hint m o (.ok (.const (.null (.pointer t))), m)
  | bytes {s : String} : hint.all (·.accepts (Module.stringConstant s).ty) →
      Conversion hint m (.str s) (.ok (.const (Module.stringConstant s)), m)
  | text {s : String} {t : Ty} : hint.all (·.accepts (.pointer t)) →
      Conversion hint m (.str s)
        (.ok (.const (.bitCast (m.intern s).1 (.pointer t))), (m.intern s).2)
  | list {items : List Operand} {kind : Kind} {cs : List Constant} {element : Ty} {m' : Module} :
      Hint.listKind? hint = some kind →
      convertItems kind items ((hint.bind Hint.type?).bind Ty.element?) m =
        (.ok (cs, some element), m') →
      hint.all (·.accepts (Constant.ofElements kind element cs).ty) →
      Conversion hint m (.list items) (.ok (.const (.ofElements kind element cs)), m')
  | item {items : List Operand} {kind : Kind} {e : ScriptError} {m' : Module} :
      Hint.listKind? hint = some kind →
      convertItems kind items ((hint.bind Hint.type?).bind Ty.element?) m = (.error e, m') →
      Conversion hint m (.list items) (.error e, m')
  | untyped {items : List Operand} {kind : Kind} {cs : List Constant} {m' : Module} :
      Hint.listKind? hint = some kind →
      convertItems kind items ((hint.bind Hint.type?).bind Ty.element?) m = (.ok (cs, none), m') →
      Conversion hint m (.list items) (.error (.argument (.emptyList kind)), m')

def Converting (hint : Option Hint) (o : Operand) (x : Interning Value) : Prop :=
  ∀ m, Conversion hint m o (x m)

theorem mismatch_converting (o : Operand) : Converting hint o (o.mismatch hint) :=
  fun _ => .refused o

theorem integer_converting (o : Operand) (h : (hint.map Hint.toKind).all (·.accepts .integer)) :
    Converting hint o (o.integer hint) := by
  obtain ⟨w, hw, haccepts⟩ := Hint.accepts_integerType h
  unfold integer
  split
  . rw [hw]
    exact fun _ => .integer haccepts
  . exact o.mismatch_converting

theorem decimal_converting (o : Operand) (h : (hint.map Hint.toKind).all (·.accepts .decimal)) :
    Converting hint o (o.decimal hint) := by
  obtain ⟨p, hp, haccepts⟩ := Hint.accepts_decimalType h
  unfold decimal
  split
  . rw [hp]
    exact fun _ => .decimal haccepts
  . exact o.mismatch_converting

theorem truth_converting (b : Bool) (h : (hint.map Hint.toKind).all (·.accepts .integer)) :
    Converting hint (bool b) (return .ofInt (Hint.integerType .i1 hint) (if b then 1 else 0)) := by
  obtain ⟨w, hw, haccepts⟩ := Hint.accepts_integerType h
  rw [hw]
  exact fun _ => .integer haccepts

theorem null_converting (o : Operand) (h : (hint.map Hint.toKind).all (·.accepts .pointer)) :
    Converting hint o (return .const (.null (Hint.pointerType hint))) := by
  obtain ⟨t, ht, haccepts⟩ := Hint.accepts_pointerType h
  rw [ht]
  exact fun _ => .null haccepts

theorem text_converting (s : String) (h : (hint.map Hint.toKind).all (·.accepts .pointer)) :
    Converting hint (str s)
      (do return .const (.bitCast (← Interning.text s) (Hint.pointerType hint))) := by
  obtain ⟨t, ht, haccepts⟩ := Hint.accepts_pointerType h
  rw [ht]
  exact fun _ => .text haccepts

theorem bytes_converting (s : String) (h : hint.map Hint.toKind = some .array) :
    Converting hint (str s)
      (if hint.all fun h => h.type?.all (· = (Module.stringConstant s).ty) then
        return .const (Module.stringConstant s) else (str s).mismatch hint) := by
  split
  . next hty =>
    refine fun _ => .bytes ?_
    rcases hint with _ | ⟨ty⟩ | ⟨k⟩
    . rfl
    . simpa [Hint.type?, Hint.accepts, eq_comm] using hty
    . cases h
      rfl
  . exact mismatch_converting _

theorem convertItems_cons_ok {kind : Kind} {item : Operand} {items : List Operand}
    {element element' : Option Ty} {cs : List Constant}
    (h : convertItems kind (item :: items) element m = (.ok (cs, element'), m')) :
    ∃ c cs' m₁, item.convert (element.map .type) m = (.ok (.const c), m₁) ∧
      convertItems kind items (some (element.getD c.ty)) m₁ = (.ok (cs', element'), m') ∧
      cs = c :: cs' := by
  rw [convertItems, bind_apply] at h
  split at h
  . next v m₁ hitem =>
    cases v with
    | temp => cases h
    | const c =>
      dsimp only at h
      rw [bind_apply] at h
      split at h
      . next hrest =>
        cases h
        exact ⟨c, _, m₁, hitem, hrest, rfl⟩
      . cases h
  . cases h

theorem convertItems_ok {kind : Kind} {items : List Operand} {element element' : Option Ty}
    {cs : List Constant} (h : convertItems kind items element m = (.ok (cs, element'), m')) :
    cs.length = items.length ∧ ∀ t, element = some t → element' = some t := by
  induction items generalizing element cs m with
  | nil =>
    rw [convertItems] at h
    cases h
    exact ⟨rfl, fun _ => id⟩
  | cons item items ih =>
    obtain ⟨c, cs', m₁, -, hrest, rfl⟩ := convertItems_cons_ok h
    obtain ⟨hlength, hkeeps⟩ := ih hrest
    refine ⟨by simp [hlength], ?_⟩
    rintro t rfl
    exact hkeeps t rfl

theorem accepts_ofElements {kind : Kind} {element : Ty} {cs : List Constant}
    (hkind : Hint.listKind? hint = some kind)
    (hsize : ∀ ty, hint.bind Hint.type? = some ty → ty.length? = some cs.length)
    (helement : ∀ t, (hint.bind Hint.type?).bind Ty.element? = some t → element = t) :
    hint.all (·.accepts (Constant.ofElements kind element cs).ty) := by
  rcases hint with _ | ⟨ty⟩ | ⟨k⟩
  . rfl
  . have hlength := hsize ty rfl
    cases ty with
    | array n t | vector n t =>
      cases hkind
      cases hlength
      rw [helement t rfl]
      simp [Hint.accepts, Hint.toKind, Ty.kind, Constant.ofElements, Constant.ty]
    | _ => cases hkind
  . cases k <;> cases hkind <;> rfl

def convertRow (kind : Kind) (items : List Operand) (hint : Option Hint) : Interning Value := do
  let ty := hint.bind Hint.type?
  if ty.any (·.length? ≠ some items.length) then (list items).mismatch hint
  let (cs, element) ← convertItems kind items (ty.bind Ty.element?)
  match element with
  | some element => return .const (.ofElements kind element cs)
  | none => throw (.argument (.emptyList kind))

theorem convert_list (items : List Operand) (hint : Option Hint) :
    (list items).convert hint =
      match Hint.listKind? hint with
      | some kind => convertRow kind items hint
      | none => (list items).mismatch hint := by
  rw [convert]
  rcases hint with _ | ⟨ty⟩ | ⟨k⟩
  . rfl
  . cases ty <;> rfl
  . cases k <;> rfl

theorem row_converting {kind : Kind} (items : List Operand) (hkind : Hint.listKind? hint = some kind) :
    Converting hint (list items) (convertRow kind items hint) := by
  unfold convertRow
  dsimp only
  split
  . exact mismatch_converting _
  . next hsize =>
    intro m
    rw [bind_apply]
    split
    . next r m' hitems =>
      obtain ⟨cs, element⟩ := r
      cases element with
      | none => exact .untyped hkind hitems
      | some element =>
        obtain ⟨hlength, hkeeps⟩ := convertItems_ok hitems
        refine .list hkind hitems (accepts_ofElements hkind ?_ ?_)
        . -- the items were counted before any of them was converted
          intro ty hty
          simpa [hty, hlength] using hsize
        . intro t ht
          exact Option.some.inj (hkeeps t ht)
    . next hitems => exact .item hkind hitems

theorem convert_cases (o : Operand) (hint : Option Hint) :
    Converting hint o (o.convert hint) := by
  cases o with
  | value v =>
    unfold convert
    split
    . next h => exact fun _ => .value h
    . exact mismatch_converting _
  | function f =>
    unfold convert
    exact fun _ => .function f
  | bool b =>
    unfold convert
    split
    . next h => exact truth_converting b (by rw [h]; rfl)
    . next h => exact truth_converting b (by rw [h]; rfl)
    . next h => exact truth_converting b (by rw [h]; rfl)
    . exact mismatch_converting _
  | null =>
    unfold convert
    split
    . next h => exact null_converting _ (by rw [h]; rfl)
    . next h => exact decimal_converting _ (by rw [h]; rfl)
    . next h => exact integer_converting _ (by rw [h]; rfl)
    . next h => exact integer_converting _ (by rw [h]; rfl)
    . exact mismatch_converting _
  | int n =>
    unfold convert
    split
    . next h =>
      split
      . exact null_converting _ (by rw [h]; rfl)
      . exact mismatch_converting _
    . next h => exact decimal_converting _ (by rw [h]; rfl)
    . next h => exact integer_converting _ (by rw [h]; rfl)
    . next h => exact integer_converting _ (by rw [h]; rfl)
    . next h => exact integer_converting _ (by rw [h]; rfl)
    . exact mismatch_converting _
  | float x =>
    unfold convert
    split
    . next h => exact decimal_converting _ (by rw [h]; rfl)
    . next h => exact decimal_converting _ (by rw [h]; rfl)
    . next h => exact decimal_converting _ (by rw [h]; rfl)
    . next h => exact integer_converting _ (by rw [h]; rfl)
    . exact mismatch_converting _
  | str s =>
    unfold convert
    split
    . next h => exact decimal_converting _ (by rw [h]; rfl)
    . next h => exact integer_converting _ (by rw [h]; rfl)
    . next h => exact integer_converting _ (by rw [h]; rfl)
    . next h => exact text_converting s (by rw [h]; rfl)
    . next h => exact text_converting s (by rw [h]; rfl)
    . next h => exact bytes_converting s h
    . exact mismatch_converting _
  | list items =>
    rw [convert_list]
    split
    . next hkind => exact row_converting items hkind
    . exact mismatch_converting _

theorem accepts_of_convert (h : o.convert hint m = (.ok v, m')) (ho : ∀ f, o ≠ .function f) :
    hint.all (·.accepts v.ty) := by
  have hcases := o.convert_cases hint m
  rw [h] at hcases
  cases hcases with
  | function f => exact absurd rfl (ho f)
  | list _ _ haccepts => exact haccepts
  | _ => assumption

theorem convert_value (v : Value) (hint : Option Hint) (m : Module) :
    (value v).convert hint m =
      if hint.all (·.accepts v.ty) then (.ok v, m) else (.error (.typeMismatch (.value v) hint), m) := by
  rw [convert]
  split <;> rfl

theorem convert_value_eq_ok {m : Module} :
    (value v).convert hint m = (.ok v, m) ↔ hint.all (·.accepts v.ty) := by
  rw [convert_value]
  split
  . next h => exact iff_of_true rfl h
  . next h =>
    refine iff_of_false ?_ h
    rintro ⟨⟩

mutual

def leaves : Operand → List Operand
  | .list items => leavesAll items
  | o => [o]

def leavesAll : List Operand → List Operand
  | [] => []
  | item :: items => leaves item ++ leavesAll items

end

mutual

theorem convert_wellShaped (o : Operand) {hint : Option Hint} {m m' : Module} {c : Constant}
    (hfunctions : ∀ f, function f ∉ o.leaves)
    (hvalues : ∀ c, value (.const c) ∈ o.leaves → c.WellShaped)
    (h : o.convert hint m = (.ok (.const c), m')) : c.WellShaped := by
  have hcases := o.convert_cases hint m
  rw [h] at hcases
  cases hcases with
  | value => exact hvalues c (by simp [leaves])
  | function f => exact absurd (by simp [leaves]) (hfunctions f)
  | integer => exact Constant.wellShaped_ofInt _ _
  | decimal | null => simp [Constant.WellShaped, Constant.ofFloat, Constant.parts, Constant.HasShape]
  | bytes => exact Constant.wellShaped_stringConstant _
  | text => exact Constant.wellShaped_intern _ _ _
  | @list items kind cs element _ _ hitems =>
    have hall := convertItems_wellShaped kind items hfunctions hvalues hitems
    refine Constant.wellShaped_ofElements ?_ fun c hc => (hall c hc).1
    intro c hc
    exact (Option.some.inj (hall c hc).2).symm

theorem convertItems_wellShaped (kind : Kind) (items : List Operand) {element element' : Option Ty}
    {m m' : Module} {cs : List Constant}
    (hfunctions : ∀ f, function f ∉ leavesAll items)
    (hvalues : ∀ c, value (.const c) ∈ leavesAll items → c.WellShaped)
    (h : convertItems kind items element m = (.ok (cs, element'), m')) :
    ∀ c ∈ cs, c.WellShaped ∧ element' = some c.ty := by
  cases items with
  | nil =>
    rw [convertItems] at h
    cases h
    simp
  | cons item items =>
    simp only [leavesAll, List.mem_append, not_or] at hfunctions hvalues
    obtain ⟨c, cs', m₁, hitem, hrest, rfl⟩ := convertItems_cons_ok h
    rw [List.forall_mem_cons]
    refine ⟨⟨?_, ?_⟩, ?_⟩
    . exact convert_wellShaped item (fun f => (hfunctions f).1) (fun c hc => hvalues c (.inl hc)) hitem
    . have hkeeps := (convertItems_ok hrest).2 _ rfl
      rw [hkeeps]
      cases element with
      | none => rfl -- the first element sets the type for the others
      | some t =>
        have hnot (f : FunctionRef) : item ≠ function f := by
          rintro rfl
          exact (hfunctions f).1 (by simp [leaves])
        have haccepts := accepts_of_convert hitem hnot
        simpa [Hint.accepts, Value.ty, eq_comm] using haccepts
    . exact convertItems_wellShaped kind items (fun f => (hfunctions f).2)
        (fun c hc => hvalues c (.inr hc)) hrest

end

/--
Conversion delivers what the hint asks for, of constants that fit their types, and has nothing more to do
with its own result.
-/
theorem convert_as_hinted
    (hfunctions : ∀ f, function f ∉ o.leaves)
    (hvalues : ∀ c, value (.const c) ∈ o.leaves → c.WellShaped)
    (h : o.convert hint m = (.ok v, m')) :
    (∀ ty, hint = some (.type ty) → v.ty = ty) ∧
      (∀ k, hint = some (.kind k) → k.accepts v.ty.kind) ∧
      (∀ c, v = .const c → c.WellShaped) ∧
      (value v).convert hint m' = (.ok v, m') := by
  have hnot (f : FunctionRef) : o ≠ function f := by
    rintro rfl
    exact hfunctions f (by simp [leaves])
  have haccepts := accepts_of_convert h hnot
  refine ⟨?_, ?_, ?_, convert_value_eq_ok.2 haccepts⟩
  . rintro ty rfl
    simpa [Hint.accepts] using haccepts
  . rintro k rfl
    exact haccepts
  . rintro c rfl
    exact convert_wellShaped o hfunctions hvalues h

def bytePair (a b : Int64) : Constant := .array (.array 2 .i8) [.int .i8 a, .int .i8 b]

theorem mixed_as_hinted :
    let m : Module := { name := "m" }
    let o := list [value (.const (bytePair 1 (-2))), list [int 300, bool true], str "a"]
    let c := Constant.vector (.vector 3 (.array 2 .i8)) [bytePair 1 (-2), bytePair 44 1, bytePair 97 0]
    (∀ f, function f ∉ o.leaves) ∧ (∀ c, value (.const c) ∈ o.leaves → c.WellShaped) ∧
      o.convert (some (.kind .vector)) m = (.ok (.const c), m) ∧ Kind.vector.accepts c.ty.kind ∧
      c.WellShaped ∧
      (value (.const c)).convert (some (.kind .vector)) m = (.ok (.const c), m) := by
  intro m o c
  have hfunctions (f : FunctionRef) : function f ∉ o.leaves := by simp [o, leaves, leavesAll]
  have hvalues (c : Constant) (hc : value (.const c) ∈ o.leaves) : c.WellShaped := by
    have heq : c = bytePair 1 (-2) := by simpa [o, leaves, leavesAll] using hc
    rw [heq]
    decide
  have h : o.convert (some (.kind .vector)) m = (.ok (.const c), m) := rfl
  obtain ⟨-, hkind, hshape, hagain⟩ := convert_as_hinted hfunctions hvalues h
  exact ⟨hfunctions, hvalues, h, hkind .vector rfl, hshape c rfl, hagain⟩

/--
Converting again what a conversion gave changes nothing, unless it gave the address of a function where
something else is hinted.
-/
theorem convert_repeats_iff (h : o.convert hint m = (.ok v, m')) (m'' : Module) :
    (value v).convert hint m'' = (.ok v, m'') ↔
      ∀ f, o = function f → hint.all (·.accepts f.pointerType) := by
  rw [convert_value_eq_ok]
  constructor
  . rintro haccepts f rfl
    rw [convert] at h
    cases h
    exact haccepts
  . intro haccepts
    by_cases hf : ∃ f, o = function f
    . obtain ⟨f, rfl⟩ := hf
      rw [convert] at h
      cases h
      exact haccepts f rfl
    . exact accepts_of_convert h fun f ho => hf ⟨f, ho⟩

def nullary : FunctionRef :=
  { name := "f", symbol := "f", signature := { result := .i32, params := [] } }

theorem listed_function_repeats :
    let o := list [function nullary]
    let hint := some (Hint.type (.array 1 .i32))
    let m : Module := { name := "m" }
    let v := Value.const (.array (.array 1 .i32) [.functionAddr "f" nullary.pointerType])
    o.convert hint m = (.ok v, m) ∧ (value v).convert hint m = (.ok v, m) := by
  intro o hint m v
  have h : o.convert hint m = (.ok v, m) := rfl
  refine ⟨h, (convert_repeats_iff h m).2 ?_⟩
  intro f hf
  simp [o] at hf

/--
A function becomes its address where a number is hinted, and the address is refused there.
-/
theorem function_unrepeated :
    let hint := some (Hint.type .i32)
    let m : Module := { name := "m" }
    (function nullary).convert hint m = (.ok nullary.address, m) ∧
      (value nullary.address).convert hint m =
        (.error (.typeMismatch (value nullary.address) hint), m) := by
  refine ⟨?_, ?_⟩
  . rw [convert]
    rfl
  . rw [convert_value]
    rfl

end Operand

end ScriptedIR
