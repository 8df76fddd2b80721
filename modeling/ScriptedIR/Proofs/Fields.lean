import Mathlib.Algebra.Group.Nat.Defs
import ScriptedIR.Proofs.Bits
import ScriptedIR.Proofs.History
import ScriptedIR.Proofs.Values

/-!
Fields by name. A name leads to a field of the layout itself if there is one, else to a field inside
of a nested layout, and an element address by name is the one by the numbers on the way. Layouts
without names of their own stop the search: what they hold further inside is not found.
-/

namespace ScriptedIR

theorem Field.types_eq_map (fields : List Field) : types fields = fields.map Field.ty := by
  induction fields with
  | nil => rfl
  | cons f fields ih => rw [types, ih, List.map_cons]

namespace Layout

inductive Leads (through : Layout → Prop) : Layout → List Nat → Field → Prop
  | field {l : Layout} {i : Nat} {f : Field} : l.fields[i]? = some f → Leads through l [i] f
  | inside {l inner : Layout} {i : Nat} {name : Option String} {path : List Nat} {f : Field} :
      l.fields[i]? = some (.nested name inner) → through inner → Leads through inner path f →
      Leads through l (i :: path) f

def Everywhere (P : Layout → Prop) (l : Layout) : Prop :=
  P l ∧ ∀ path name inner, l.Leads (fun _ => True) path (.nested name inner) → P inner

variable {P Q : Layout → Prop} {l inner : Layout} {i : Nat} {name : Option String}
  {path : List Nat} {f : Field}

theorem ty_eq (l : Layout) : ∃ packed, l.ty = .struct l.name (l.fields.map Field.ty) packed := by
  cases l with
  | mk name fields packed => exact ⟨packed, by rw [ty, Field.types_eq_map]; rfl⟩

theorem field?_ty (hi : l.fields[i]? = some f) : l.ty.field? i = some f.ty := by
  obtain ⟨packed, hty⟩ := l.ty_eq
  rw [hty, Ty.field?, List.getElem?_map, hi]
  rfl

theorem Everywhere.nested (h : l.Everywhere P) (hi : l.fields[i]? = some (.nested name inner)) :
    inner.Everywhere P :=
  ⟨h.2 [i] name inner (.field hi), fun _ _ _ hpath => h.2 _ _ _ (.inside hi trivial hpath)⟩

theorem everywhere_of_nested (hl : P l)
    (h : ∀ name inner, .nested name inner ∈ l.fields → inner.Everywhere P) : l.Everywhere P := by
  refine ⟨hl, ?_⟩
  intro path name inner hpath
  cases hpath with
  | field hi => exact (h name inner (List.mem_of_getElem? hi)).1
  | inside hi _ hrest => exact (h _ _ (List.mem_of_getElem? hi)).2 _ _ _ hrest

namespace Leads

theorem mono (h : l.Leads P path f) (hPQ : ∀ inner, P inner → Q inner) : l.Leads Q path f := by
  induction h with
  | field hi => exact .field hi
  | inside hi hP _ ih => exact .inside hi (hPQ _ hP) ih

theorem getElem?_fields (h : l.Leads P [i] f) : l.fields[i]? = some f := by
  cases h with
  | field hi => exact hi
  | inside _ _ hrest => cases hrest

theorem of_everywhere (h : l.Leads P path f) (hl : l.Everywhere Q) : l.Leads Q path f := by
  induction h with
  | field hi => exact .field hi
  | inside hi _ _ ih =>
    have hinner := hl.nested hi
    exact .inside hi hinner.1 (ih hinner)

theorem foldlM_field? (h : l.Leads P path f) : path.foldlM Ty.field? l.ty = some f.ty := by
  induction h with
  | field hi => rw [List.foldlM_cons, field?_ty hi]; rfl
  | inside hi _ _ ih => rw [List.foldlM_cons, field?_ty hi]; exact ih

theorem lt_of_mem {bound : Nat} (h : l.Leads P path f)
    (hl : l.Everywhere (·.fields.length < bound)) : ∀ i ∈ path, i < bound := by
  have hlt {l : Layout} {i : Nat} {f : Field} (hi : l.fields[i]? = some f)
      (hlen : l.fields.length < bound) : i < bound :=
    Nat.lt_trans (List.getElem?_eq_some_iff.1 hi).1 hlen
  induction h with
  | field hi => simpa using hlt hi hl.1
  | inside hi _ _ ih =>
    have hinner := ih (hl.nested hi)
    simpa using ⟨hlt hi hl.1, hinner⟩

end Leads

theorem sizeOf_lt_of_nested (h : .nested name inner ∈ l.fields) : sizeOf inner < sizeOf l := by
  cases l with
  | mk _ fields packed =>
    have hfield := List.sizeOf_lt_of_mem (show Field.nested name inner ∈ fields from h)
    simp only [Field.nested.sizeOf_spec] at hfield
    simp only [mk.sizeOf_spec]
    omega

end Layout

namespace Field

variable {element : String} {i : Nat} {fields : List Field} {p : Place}

theorem direct?_eq_some (h : direct? element i fields = some p) :
    ∃ k f, fields[k]? = some f ∧ f.name = some element ∧ p = ⟨[i + k], f.ty⟩ := by
  induction fields generalizing i with
  | nil => cases h
  | cons g fields ih =>
    unfold direct? at h
    split at h
    . next hname =>
      cases h
      exact ⟨0, g, rfl, hname, rfl⟩
    . obtain ⟨k, f, hk, hname, hp⟩ := ih h
      refine ⟨k + 1, f, hk, hname, ?_⟩
      rw [hp, Nat.add_right_comm, Nat.add_assoc]

theorem direct?_eq_none :
    direct? element i fields = none ↔ ∀ f ∈ fields, f.name ≠ some element := by
  induction fields generalizing i with
  | nil => simp [direct?]
  | cons g fields ih =>
    unfold direct?
    by_cases hname : g.name = some element
    . simp [hname]
    . simp [hname, ih]

theorem search_eq_some (h : search element i fields = some p) :
    ∃ (k : Nat) (name : Option String) (inner : Layout) (q : Place),
      fields[k]? = some (.nested name inner) ∧ inner.find? element = some q ∧
        p = q.within (i + k) := by
  induction fields generalizing i with
  | nil => cases h
  | cons g fields ih =>
    unfold search at h
    rcases Option.or_eq_some_iff.1 h with h | ⟨-, h⟩
    . obtain ⟨q, hq, rfl⟩ := Option.map_eq_some_iff.1 h
      cases g with
      | plain => cases hq
      | nested name inner => exact ⟨0, name, inner, q, rfl, hq, rfl⟩
    . obtain ⟨k, name, inner, q, hk, hq, hp⟩ := ih h
      refine ⟨k + 1, name, inner, q, hk, hq, ?_⟩
      rw [hp, Nat.add_right_comm, Nat.add_assoc]

theorem search_eq_none :
    search element i fields = none ↔
      ∀ name inner, .nested name inner ∈ fields → inner.find? element = none := by
  induction fields generalizing i with
  | nil => simp [search]
  | cons g fields ih =>
    unfold search
    cases g with
    | plain => simp [findIn, ih]
    | nested name inner =>
      simp only [findIn, Option.or_eq_none_iff, Option.map_eq_none_iff, ih, List.mem_cons,
        nested.injEq]
      constructor
      . rintro ⟨hinner, hrest⟩ _ _ (⟨rfl, rfl⟩ | hmem)
        . exact hinner
        . exact hrest _ _ hmem
      . intro h
        exact ⟨h _ _ (.inl ⟨rfl, rfl⟩), fun _ _ hmem => h _ _ (.inr hmem)⟩

end Field

namespace Layout

variable {l : Layout} {path : List Nat} {f : Field} {element : String} {p : Place}

theorem find?_eq (l : Layout) (element : String) :
    l.find? element =
      if l.hasNames then (Field.direct? element 0 l.fields).or (Field.search element 0 l.fields)
      else none := by
  cases l with
  | mk => rw [find?]; rfl

theorem find?_cases (h : l.find? element = some p) :
    l.hasNames ∧
      ((∃ (i : Nat) (f : Field), l.fields[i]? = some f ∧ f.name = some element ∧ p = ⟨[i], f.ty⟩) ∨
        (∀ f ∈ l.fields, f.name ≠ some element) ∧
          ∃ (i : Nat) (name : Option String) (inner : Layout) (q : Place),
            l.fields[i]? = some (.nested name inner) ∧ inner.find? element = some q ∧
              p = q.within i) := by
  rw [find?_eq] at h
  obtain ⟨hnames, h⟩ := Option.ite_none_right_eq_some.1 h
  refine ⟨hnames, ?_⟩
  rcases Option.or_eq_some_iff.1 h with h | ⟨hnone, h⟩
  . obtain ⟨i, f, hi, hname, hp⟩ := Field.direct?_eq_some h
    exact .inl ⟨i, f, hi, hname, by rwa [Nat.zero_add] at hp⟩
  . obtain ⟨i, name, inner, q, hi, hq, hp⟩ := Field.search_eq_some h
    exact .inr ⟨Field.direct?_eq_none.1 hnone, i, name, inner, q, hi, hq,
      by rwa [Nat.zero_add] at hp⟩

theorem find?_eq_none (hnames : l.hasNames) :
    l.find? element = none ↔ (∀ f ∈ l.fields, f.name ≠ some element) ∧
      ∀ name inner, .nested name inner ∈ l.fields → inner.find? element = none := by
  rw [find?_eq, if_pos hnames, Option.or_eq_none_iff, Field.direct?_eq_none, Field.search_eq_none]

theorem leads_of_find? (l : Layout) {p : Place} (h : l.find? element = some p) :
    ∃ f, l.Leads (·.hasNames) p.path f ∧ f.name = some element ∧ p.ty = f.ty := by
  obtain ⟨-, ⟨i, f, hi, hname, rfl⟩ | ⟨-, i, name, inner, q, hi, hq, rfl⟩⟩ := find?_cases h
  . exact ⟨f, .field hi, hname, rfl⟩
  . -- What the recursion goes into is smaller, and it is entered only if it has names.
    have hlt : sizeOf inner < sizeOf l := sizeOf_lt_of_nested (List.mem_of_getElem? hi)
    obtain ⟨f, hpath, hname, hty⟩ := leads_of_find? inner hq
    exact ⟨f, .inside hi (find?_cases hq).1 hpath, hname, hty⟩
termination_by sizeOf l

theorem Leads.find?_ne_none (h : l.Leads (·.hasNames) path f) (hnames : l.hasNames)
    (hname : f.name = some element) : l.find? element ≠ none := by
  induction h with
  | field hi =>
    intro hnone
    exact ((find?_eq_none hnames).1 hnone).1 _ (List.mem_of_getElem? hi) hname
  | inside hi hinner _ ih =>
    intro hnone
    exact ih hinner hname (((find?_eq_none hnames).1 hnone).2 _ _ (List.mem_of_getElem? hi))

theorem index_eq_ok_iff : l.index element = .ok path ↔ ∃ ty, l.find? element = some ⟨path, ty⟩ := by
  unfold index place
  split
  . cases l.find? element with
    | none => simp [Except.map]
    | some p =>
      constructor
      . rintro ⟨⟩
        exact ⟨p.ty, rfl⟩
      . rintro ⟨ty, ⟨⟩⟩
        rfl
  . next hnames => simp [find?_eq, hnames, Except.map]

theorem fieldType_of_find? (h : l.find? element = some p) : l.fieldType element = .ok p.ty := by
  unfold fieldType place
  rw [if_pos (find?_cases h).1, h]
  rfl

def Holds (through : Layout → Prop) (l : Layout) (element : String) : Prop :=
  ∃ path f, l.Leads through path f ∧ f.name = some element

theorem find?_ne_none_iff (hnames : l.hasNames) :
    l.find? element ≠ none ↔ l.Holds (·.hasNames) element := by
  constructor
  . intro h
    obtain ⟨p, hp⟩ := Option.ne_none_iff_exists'.1 h
    obtain ⟨f, hpath, hname, -⟩ := leads_of_find? l hp
    exact ⟨p.path, f, hpath, hname⟩
  . rintro ⟨path, f, hpath, hname⟩
    exact hpath.find?_ne_none hnames hname

/--
A name is found exactly if a field has it that is inside of layouts with names only. So the search
is complete for layouts that have names everywhere.
-/
theorem found_iff_holds (l : Layout) (element : String) (hnames : l.hasNames) :
    ((∃ path, l.index element = .ok path) ∧ l.contains element = .ok true ↔
      l.Holds (·.hasNames) element) ∧
    (¬ l.Holds (·.hasNames) element →
      l.index element = .error (.unknownElement element) ∧ l.contains element = .ok false) ∧
    (l.Everywhere (·.hasNames) →
      (l.Holds (·.hasNames) element ↔ l.Holds (fun _ => True) element)) := by
  refine ⟨?_, ?_, ?_⟩
  . rw [← find?_ne_none_iff hnames]
    constructor
    . rintro ⟨⟨path, hpath⟩, -⟩ hnone
      obtain ⟨ty, hty⟩ := index_eq_ok_iff.1 hpath
      rw [hnone] at hty
      cases hty
    . intro h
      obtain ⟨p, hp⟩ := Option.ne_none_iff_exists'.1 h
      refine ⟨⟨p.path, index_eq_ok_iff.2 ⟨p.ty, hp⟩⟩, ?_⟩
      rw [contains, if_pos hnames, hp]
      rfl
  . rw [← find?_ne_none_iff hnames, not_not]
    intro hnone
    rw [index, place, contains, if_pos hnames, if_pos hnames, hnone]
    exact ⟨rfl, rfl⟩
  . intro heverywhere
    constructor
    . rintro ⟨path, f, hpath, hname⟩
      exact ⟨path, f, hpath.mono fun _ _ => trivial, hname⟩
    . rintro ⟨path, f, hpath, hname⟩
      exact ⟨path, f, hpath.of_everywhere heverywhere, hname⟩

/--
A layout with a name that is not found, since the layout around it is in one without names.
-/
def sheltering : Layout :=
  .mk (some "outer")
    [.plain (some "a") .i32,
      .nested none (.mk none [.nested none (.mk none [.plain (some "x") .i32] false)] false)] false

theorem sheltered_name_not_found :
    sheltering.hasNames ∧ sheltering.Holds (fun _ => True) "x" ∧
      sheltering.index "x" = .error (.unknownElement "x") ∧
      sheltering.contains "x" = .ok false :=
  ⟨rfl, ⟨[1, 0, 0], _, .inside rfl trivial (.inside rfl trivial (.field rfl)), rfl⟩, rfl, rfl⟩

theorem sheltering_found_iff :
    sheltering.hasNames ∧
      ((∃ path, sheltering.index "a" = .ok path) ∧ sheltering.contains "a" = .ok true) ∧
      ¬ sheltering.Holds (·.hasNames) "x" := by
  refine ⟨rfl, (found_iff_holds sheltering "a" rfl).1.2 ⟨[0], _, .field rfl, rfl⟩, ?_⟩
  intro hholds
  have hcontains := ((found_iff_holds sheltering "x" rfl).1.2 hholds).2
  cases hcontains

end Layout

def Value.fieldNumber (i : Nat) : Value := .const (.int .i32 (.ofNat i))

theorem Value.ofInt_ofNat {i : Nat} (h : i < 2 ^ 31) : ofInt .i32 (.ofNat i) = fieldNumber i := by
  have hle : (i : Int) ≤ Int32.maxValue.toInt := by
    change (i : Int) ≤ 2147483647
    omega
  have hnormal : Word.normalize 32 (.ofNat i) = .ofNat i := by
    rw [← Int32.toInt64_ofNat' hle, Word.normalize_toInt64]
  exact congrArg (fun v => Value.const (.int .i32 v)) hnormal

namespace Request

variable {P : Layout → Prop} {l : Layout} {i : Nat} {path : List Nat} {f : Field}

theorem stepInto_fieldNumber (hi : l.fields[i]? = some f) (h : i < 2 ^ 31) :
    stepInto l.ty (.fieldNumber i) = .ok f.ty := by
  obtain ⟨packed, hty⟩ := l.ty_eq
  have hvalue : (Int64.ofNat i).toInt = i := Int64.toInt_ofNat_of_lt (by omega)
  have hfield : (l.fields.map Field.ty)[i]? = some f.ty := by rw [List.getElem?_map, hi]; rfl
  have hkind : ofKind "getelementptr" .integer (.fieldNumber i) = .ok () := rfl
  have hconstant : (Value.fieldNumber i).asConstant?.bind Constant.asInt? = some (.ofNat i) := rfl
  simp only [stepInto, hkind, hty, hconstant, hvalue, Int.natCast_nonneg, if_true,
    Int.toNat_natCast, hfield]
  rfl

theorem foldlM_stepInto (h : l.Leads P path f) (hpath : ∀ i ∈ path, i < 2 ^ 31) :
    (path.map .fieldNumber).foldlM stepInto l.ty = .ok f.ty := by
  induction h with
  | field hi =>
    rw [List.map_cons, List.foldlM_cons, stepInto_fieldNumber hi (by simpa using hpath)]
    rfl
  | inside hi _ _ ih =>
    obtain ⟨hlt, hrest⟩ := List.forall_mem_cons.1 hpath
    rw [List.map_cons, List.foldlM_cons, stepInto_fieldNumber hi hlt]
    exact ih hrest

end Request

def Library.Registers (lib : Library) (l : Layout) : Prop :=
  ∃ name, l.name = some name ∧ lib.layouts[name]? = some l

theorem Library.registers_defineStruct (lib : Library) {l : Layout} (h : l.name.isSome) :
    (defineStruct l lib).2.Registers l := by
  obtain ⟨name, hname⟩ := Option.isSome_iff_exists.1 h
  obtain ⟨packed, hty⟩ := l.ty_eq
  have hdefine : (defineStruct l lib).2 = (l.nested.foldl registerLayout lib).registerLayout l := by
    unfold defineStruct
    rw [hname, Option.isNone_some, if_neg Bool.false_ne_true]
    change (l.nested ++ [l]).foldl registerLayout lib = _
    rw [List.foldl_append]
    rfl
  refine ⟨name, hname, ?_⟩
  rw [hdefine, registerLayout, hty, hname]
  exact Std.ExtTreeMap.getElem?_insert_self

namespace Gen

variable {s : GenState} {l : Layout} {element : String} {path : List Nat}

theorem exec_fieldPath (hl : s.library.Registers l) (hpath : l.index element = .ok path) :
    exec (fieldPath (some l.ty) element) s = (.ok path, s) := by
  obtain ⟨name, hname, hlayout⟩ := hl
  obtain ⟨packed, hty⟩ := l.ty_eq
  rw [hty, hname, fieldPath, exec_bind_ok]
  refine ⟨s, s, rfl, ?_⟩
  rw [hlayout]
  dsimp only
  rw [hpath]
  rfl

theorem exec_indices (hl : s.library.Registers l) (hpath : l.index element = .ok path)
    (hsmall : ∀ i ∈ path, i < 2 ^ 31) :
    exec (indices (some l.ty) [.element (.int 0), .field element]) s =
      (.ok (.fieldNumber 0 :: path.map .fieldNumber), s) := by
  have hnumbers : path.map (fun i => Value.ofInt .i32 (.ofNat i)) = path.map .fieldNumber :=
    List.map_congr_left fun i hi => Value.ofInt_ofNat (hsmall i hi)
  rw [indices, exec_bind_ok]
  refine ⟨.fieldNumber 0, s, rfl, ?_⟩
  rw [innerIndices, exec_bind_ok]
  refine ⟨path.map .fieldNumber, s, ?_, rfl⟩
  rw [exec_bind_ok]
  refine ⟨path, s, exec_fieldPath hl hpath, ?_⟩
  rw [exec_bind_ok]
  refine ⟨[], s, rfl, ?_⟩
  rw [hnumbers, List.append_nil]
  rfl

theorem exec_elementAddress (hl : s.library.Registers l) (hpath : l.index element = .ok path)
    {f : Field} {P : Layout → Prop} (hleads : l.Leads P path f) (hsmall : ∀ i ∈ path, i < 2 ^ 31)
    (hopen : s.Open) {p : Operand} {v : Value} {module : Module}
    (hp : p.convert none s.library.module = (.ok v, module)) (hv : v.ty = .pointer l.ty) :
    exec (elementAddress p [.element (.int 0), .field element]) s =
      (.ok (.temp s.function.nextTemp (.pointer f.ty)),
        s.extend
          [.define s.function.nextTemp
            (.gep v (.fieldNumber 0 :: path.map .fieldNumber) (.pointer f.ty))]
          (s.function.nextTemp + 1) module) := by
  -- Only the pointer may intern a text. The layouts stay what they are.
  let t : GenState := { s with library := { s.library with module } }
  have hpointer : exec (pointer "gep" p) s = (.ok v, t) := by
    rw [pointer, exec_bind_ok]
    refine ⟨v, t, exec_convert.2 ⟨module, hp, rfl⟩, ?_⟩
    rw [hv]
    rfl
  have hindices : exec (indices v.ty.pointee? [.element (.int 0), .field element]) t =
      (.ok (.fieldNumber 0 :: path.map .fieldNumber), t) := by
    rw [hv]
    exact exec_indices hl hpath hsmall
  have hcheck : (Request.gep v (.fieldNumber 0 :: path.map .fieldNumber)).check t.function =
      .ok (.value (.gep v (.fieldNumber 0 :: path.map .fieldNumber) (.pointer f.ty))) := by
    have htype : Request.elementType v.ty (.fieldNumber 0 :: path.map .fieldNumber) = .ok f.ty := by
      rw [hv]
      change ((path.map .fieldNumber).foldlM Request.stepInto l.ty >>= _) = _
      rw [Request.foldlM_stepInto hleads hsmall]
      rfl
    rw [Request.check, htype]
    rfl
  rw [elementAddress, exec_bind_ok]
  refine ⟨v, t, hpointer, ?_⟩
  rw [exec_bind_ok]
  refine ⟨_, t, hindices, ?_⟩
  exact (exec_emitValue_of_check hcheck).2 ⟨⟨hopen.unfinished, hopen.writable⟩, rfl, rfl⟩

/--
A name addresses a field of that name, and one of the layout's own before any inside. Through the
types its path ends at the type of the field, and so does the address by name, which is a single
instruction with the path for its indices.
-/
theorem name_addresses_field (hl : s.library.Registers l)
    (hsmall : l.Everywhere (·.fields.length < 2 ^ 31)) (hpath : l.index element = .ok path) :
    ∃ f, l.Leads (fun _ => True) path f ∧ f.name = some element ∧
      ((∃ g ∈ l.fields, g.name = some element) → ∃ i, path = [i] ∧ l.fields[i]? = some f) ∧
      path.foldlM Ty.field? l.ty = some f.ty ∧ l.fieldType element = .ok f.ty ∧
      ∀ {p : Operand} {v : Value} {module : Module}, s.Open →
        p.convert none s.library.module = (.ok v, module) → v.ty = .pointer l.ty →
        exec (perform (.elementAddress p [.element (.int 0), .field element])) s =
          (.ok (.temp s.function.nextTemp (.pointer f.ty)),
            s.extend
              [.define s.function.nextTemp
                (.gep v (.fieldNumber 0 :: path.map .fieldNumber) (.pointer f.ty))]
              (s.function.nextTemp + 1) module) := by
  obtain ⟨ty, hfind⟩ := Layout.index_eq_ok_iff.1 hpath
  obtain ⟨f, hnamed, hname, rfl⟩ := Layout.leads_of_find? l hfind
  have hleads : l.Leads (fun _ => True) path f := hnamed.mono fun _ _ => trivial
  refine ⟨f, hleads, hname, ?_, hleads.foldlM_field?, Layout.fieldType_of_find? hfind, ?_⟩
  . rintro ⟨g, hg, hgname⟩
    obtain ⟨-, ⟨i, _, -, -, hplace⟩ | ⟨hnone, -⟩⟩ := Layout.find?_cases hfind
    . obtain rfl : path = [i] := congrArg Place.path hplace
      exact ⟨i, rfl, hleads.getElem?_fields⟩
    . exact absurd hgname (hnone g hg)
  . intro p v module hopen hp hv
    exact exec_elementAddress hl hpath hleads (hleads.lt_of_mem hsmall) hopen hp hv

def node : Layout :=
  .mk (some "node")
    [.nested none (.mk none [.plain (some "key") .i16, .plain (some "next") .i8] false),
      .plain none .i32, .plain (some "key") .i64] false

def nodeBody : GenState :=
  { byteBody with
    library := (Library.defineStruct node byteBody.library).2
    function := { byteBody.function with params := [.pointer node.ty] } }

def nodeAddress (path : List Nat) (ty : Ty) : Except ScriptError Value × GenState :=
  (.ok (.temp 1 (.pointer ty)),
    nodeBody.extend
      [.define 1 (.gep (.temp 0 (.pointer node.ty)) (.fieldNumber 0 :: path.map .fieldNumber)
        (.pointer ty))]
      2 nodeBody.library.module)

theorem node_fields_addressed :
    exec (perform (.elementAddress (.value (.temp 0 (.pointer node.ty)))
        [.element (.int 0), .field "key"])) nodeBody = nodeAddress [2] .i64 ∧
      exec (perform (.elementAddress (.value (.temp 0 (.pointer node.ty)))
        [.element (.int 0), .field "next"])) nodeBody = nodeAddress [0, 1] .i8 := by
  have hsmall : node.Everywhere (·.fields.length < 2 ^ 31) := by
    refine Layout.everywhere_of_nested (by decide) ?_
    intro name inner hinner
    obtain ⟨rfl, rfl⟩ : name = none ∧ inner = _ := by simpa [node, Layout.fields] using hinner
    exact Layout.everywhere_of_nested (by decide) (by simp [Layout.fields])
  have haddress {element : String} {path : List Nat} {ty : Ty}
      (hpath : node.index element = .ok path) (hty : node.fieldType element = .ok ty) :
      exec (perform (.elementAddress (.value (.temp 0 (.pointer node.ty)))
        [.element (.int 0), .field element])) nodeBody = nodeAddress path ty := by
    obtain ⟨f, -, -, -, -, hf, haddress⟩ := @name_addresses_field nodeBody node element path
      (Library.registers_defineStruct _ rfl) hsmall hpath
    obtain rfl : ty = f.ty := Except.ok.inj (hty.symm.trans hf)
    exact @haddress (.value (.temp 0 (.pointer node.ty))) _ _
      ⟨open_byteBody.unfinished, open_byteBody.writable⟩ rfl rfl
  exact ⟨haddress rfl rfl, haddress rfl rfl⟩

end Gen

end ScriptedIR
