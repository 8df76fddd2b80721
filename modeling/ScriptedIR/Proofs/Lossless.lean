import ScriptedIR.Json.Module

/-!
The JSON form of a module can be read back. Every reader undoes its writer as long as numbers fit:
those of blocks and temporaries and indices of members in 32 bits, sizes of arrays and vectors in
64. The form is a tree that holds float constants as they are. Nothing here is about its text, in
which an infinity or a NaN has no number to stand for it.
-/

namespace ScriptedIR

open Json Instruction

theorem read_tagged {read : Json → Option α} {tag : String} {p : Json} {r : Option α}
    (h : ∀ q, q = p → read (.obj [(tag, q)]) = r) : read (.obj [(tag, p)]) = r := h p rfl

namespace Json

section Members

variable {name key : String} {j : Json} {rest : List (String × Json)}

theorem unattach_get? (members : List (String × Json)) (key : String) :
    ((obj members).get? key).unattach = (lookup members key).unattach := Option.map_map ..

@[simp]
theorem unattach_get?_self : ((obj ((key, j) :: rest)).get? key).unattach = some j := by
  rw [unattach_get?, lookup, if_pos rfl]
  rfl

@[simp]
theorem unattach_get?_of_ne (h : name ≠ key) :
    ((obj ((name, j) :: rest)).get? key).unattach = ((obj rest).get? key).unattach := by
  rw [unattach_get?, unattach_get?, lookup, if_neg h]
  exact Option.map_map ..

theorem optional?_eq (p : Json) (key : String) (read : Json → Option α) :
    optional? p key read =
      match (p.get? key).unattach with
      | none | some .null => some none
      | some j => (read j).map some := by
  unfold optional? optional
  rcases p.get? key with _ | ⟨j, hj⟩
  . rfl
  . cases j <;> rfl

@[simp]
theorem optional?_of_ne (h : name ≠ key) (read : Json → Option α) :
    optional? (obj ((name, j) :: rest)) key read = optional? (obj rest) key read := by
  rw [optional?_eq, optional?_eq, unattach_get?_of_ne h]

theorem optional?_self {read : Json → Option α} {write : α → Json} {a : Option α}
    (hnull : read .null = none) (ha : ∀ x ∈ a, read (write x) = some x) :
    optional? (obj ((key, ofOption write a) :: rest)) key read = some a := by
  rw [optional?_eq, unattach_get?_self]
  cases a with
  | none => rfl
  | some x =>
    have hx := ha x rfl
    simp only [ofOption]
    cases hwrite : write x with
    | null =>
      rw [hwrite, hnull] at hx
      cases hx
    | _ =>
      rw [hwrite] at hx
      simp only [hx, Option.map_some]

end Members

section Lists

@[simp]
theorem unattach_items {items : List Json}
    (h : ∀ item : { item // item ∈ items }, sizeOf item.val < sizeOf (arr items)) :
    (items.attach.map fun item => (⟨item.val, h item⟩ : Within (arr items))).unattach = items :=
  List.map_map.trans (List.attach_map_subtype_val items)

theorem list?_arr (read : Json → Option α) (items : List Json) :
    list? read (arr items) = items.mapM read := by
  simp [list?, items?]

theorem mapM_of_forall {read : β → Option α} {write : α → β} {as : List α}
    (h : ∀ a ∈ as, read (write a) = some a) : (as.map write).mapM read = some as := by
  induction as with
  | nil => rfl
  | cons a as ih =>
    rw [List.forall_mem_cons] at h
    simp [h.1, ih h.2]

theorem list?_ofList {read : Json → Option α} {write : α → Json} {as : List α}
    (h : ∀ a ∈ as, read (write a) = some a) : list? read (ofList write as) = some as := by
  rw [ofList, list?_arr, mapM_of_forall h]

end Lists

theorem natBelow?_ofNat {bound n : Nat} (h : n < bound) : (ofNat n).natBelow? bound = some n := by
  simp [natBelow?, ofNat, h]

theorem size?_ofNat {n : Nat} (h : n < UInt64.size) : (ofNat n).size? = some n := natBelow?_ofNat h

@[simp]
theorem int64?_toInt (v : Int64) : (Json.int v.toInt).int64? = some v := by
  rw [int64?, if_pos ⟨Int64.minValue_le_toInt v, Int64.toInt_le v⟩, Int64.ofInt_toInt]

@[simp]
theorem str?_str (s : String) : (str s).str? = some s := rfl

@[simp]
theorem bool?_bool (b : Bool) : (Json.bool b).bool? = some b := rfl

@[simp]
theorem plainTag?_str (s : String) : (str s).plainTag? = some s := rfl

end Json

namespace Ty

mutual

def fits : Ty → Bool
  | .pointer t => fits t
  | .array n t => decide (n < UInt64.size) && fits t
  | .vector n t => decide (n < UInt64.size) && fits t
  | .struct _ fields _ => allFit fields
  | .function r ps _ => fits r && allFit ps
  | _ => true

def allFit : List Ty → Bool
  | [] => true
  | t :: ts => fits t && allFit ts

end

theorem ofJson?_plain (tag : String) : ofJson? (.str tag) = plain? tag := by
  rw [ofJson?]
  rfl

mutual

theorem ofJson?_toJson (t : Ty) (h : t.fits) : ofJson? t.toJson = some t := by
  cases t
  case void => exact ofJson?_plain _
  case label => exact ofJson?_plain _
  case int w => cases w <;> exact ofJson?_plain _
  case float p => cases p <;> exact ofJson?_plain _
  all_goals
    simp only [fits, Bool.and_eq_true, decide_eq_true_eq] at h
    rw [toJson]
    refine read_tagged fun q hq => ?_
    rw [ofJson?]
  case pointer t =>
    change (ofJson? q).bind _ = _
    subst hq
    simp [ofJson?_toJson t h]
  -- Proofs by reflexivity would make the kernel compare sizes with their bound in unary.
  case array n t =>
    change (q.get? "size").bind _ = _
    subst hq
    simp -implicitDefEqProofs [size?_ofNat h.1, ofJson?_toJson t h.2]
  case vector n t =>
    change (q.get? "size").bind _ = _
    subst hq
    simp -implicitDefEqProofs [size?_ofNat h.1, ofJson?_toJson t h.2]
  case struct name fields packed =>
    subst hq
    cases name <;>
      simp [tagged?, Json.optional, get?, lookup, ofOption, items?, mapM_toJsons fields h]
  case function r ps variadic =>
    change (q.get? "return_type").bind _ = _
    subst hq
    simp [items?, ofJson?_toJson r h.1, mapM_toJsons ps h.2]

theorem mapM_toJsons (ts : List Ty) (h : allFit ts) : (toJsons ts).mapM ofJson? = some ts := by
  cases ts with
  | nil => rfl
  | cons t ts =>
    simp only [allFit, Bool.and_eq_true] at h
    simp [toJsons, ofJson?_toJson t h.1, mapM_toJsons ts h.2]

end

end Ty

namespace Constant

mutual

def fits : Constant → Bool
  | .int ty _ => ty.fits
  | .float ty _ => ty.fits
  | .null ty => ty.fits
  | .undef ty => ty.fits
  | .array ty cs => ty.fits && allFit cs
  | .vector ty cs => ty.fits && allFit cs
  | .struct ty cs => ty.fits && allFit cs
  | .globalAddr _ ty => ty.fits
  | .functionAddr _ ty => ty.fits
  | .bitCast c ty => fits c && ty.fits

def allFit : List Constant → Bool
  | [] => true
  | c :: cs => fits c && allFit cs

end

mutual

theorem ofJson?_toJson (c : Constant) (h : c.fits) : ofJson? c.toJson = some c := by
  cases c
  all_goals
    simp only [fits, Bool.and_eq_true] at h
    rw [toJson]
    refine read_tagged fun q hq => ?_
    rw [ofJson?]
  case int ty v =>
    change (typeMember? q).bind _ = _
    subst hq
    simp -implicitDefEqProofs [typeMember?, Ty.ofJson?_toJson ty h]
  case float ty x =>
    change (typeMember? q).bind _ = _
    subst hq
    simp [typeMember?, Ty.ofJson?_toJson ty h, float?]
  case null ty =>
    change (Ty.ofJson? q).bind _ = _
    subst hq
    simp [Ty.ofJson?_toJson ty h]
  case undef ty =>
    change (Ty.ofJson? q).bind _ = _
    subst hq
    simp [Ty.ofJson?_toJson ty h]
  case array ty cs =>
    change (q.get? "elements").bind _ = _
    subst hq
    simp [typeMember?, items?, Ty.ofJson?_toJson ty h.1, mapM_toJsons cs h.2]
  case vector ty cs =>
    change (q.get? "elements").bind _ = _
    subst hq
    simp [typeMember?, items?, Ty.ofJson?_toJson ty h.1, mapM_toJsons cs h.2]
  case struct ty cs =>
    change (q.get? "fields").bind _ = _
    subst hq
    simp [typeMember?, items?, Ty.ofJson?_toJson ty h.1, mapM_toJsons cs h.2]
  case globalAddr name ty =>
    change (q.get? "name").bind _ = _
    subst hq
    simp [typeMember?, Ty.ofJson?_toJson ty h]
  case functionAddr name ty =>
    change (q.get? "name").bind _ = _
    subst hq
    simp [typeMember?, Ty.ofJson?_toJson ty h]
  case bitCast c ty =>
    change (q.get? "value").bind _ = _
    subst hq
    simp [typeMember?, ofJson?_toJson c h.1, Ty.ofJson?_toJson ty h.2]

theorem mapM_toJsons (cs : List Constant) (h : allFit cs) :
    (toJsons cs).mapM ofJson? = some cs := by
  cases cs with
  | nil => rfl
  | cons c cs =>
    simp only [allFit, Bool.and_eq_true] at h
    simp [toJsons, ofJson?_toJson c h.1, mapM_toJsons cs h.2]

end

end Constant

def indexFits (n : Nat) : Bool := decide (n < UInt32.size)

theorem index?_ofNat {n : Nat} (h : indexFits n) : (ofNat n).index? = some n :=
  natBelow?_ofNat (of_decide_eq_true h)

namespace Value

def fits : Value → Bool
  | temp id ty => indexFits id && ty.fits
  | const c => c.fits

theorem ofJson?_toJson {v : Value} (h : v.fits) : ofJson? v.toJson = some v := by
  cases v with
  | temp id ty =>
    simp only [fits, Bool.and_eq_true] at h
    simp -implicitDefEqProofs [toJson, ofJson?, tagged?, index?_ofNat h.1, Ty.ofJson?_toJson ty h.2]
  | const c => simp [toJson, ofJson?, tagged?, Constant.ofJson?_toJson c h]

end Value

@[simp]
theorem BinaryOp.ofName?_name (op : BinaryOp) : ofName? op.name = some op := by
  cases op <;> rfl

@[simp]
theorem IntPredicate.ofName?_name (p : IntPredicate) : ofName? p.name = some p := by
  cases p <;> decide

@[simp]
theorem FloatPredicate.ofName?_name (p : FloatPredicate) : ofName? p.name = some p := by
  cases p <;> decide

@[simp]
theorem CastOp.ofName?_name (op : CastOp) : ofName? op.name = some op := by
  cases op <;> rfl

section Parts

variable {key : String} {rest : List (String × Json)}

theorem list?_index {path : List Nat} (h : path.all indexFits) :
    list? Json.index? (.ofList .ofNat path) = some path :=
  list?_ofList fun i hi => index?_ofNat (List.all_eq_true.1 h i hi)

theorem list?_value {vs : List Value} (h : vs.all Value.fits) :
    list? Value.ofJson? (.ofList Value.toJson vs) = some vs :=
  list?_ofList fun v hv => Value.ofJson?_toJson (List.all_eq_true.1 h v hv)

theorem optional?_index {i : Option Nat} (h : i.all indexFits) :
    optional? (.obj ((key, ofOption .ofNat i) :: rest)) key Json.index? = some i :=
  optional?_self rfl fun _ hx => index?_ofNat ((Option.all_eq_true _ _).1 h _ hx)

theorem optional?_value {v : Option Value} (h : v.all Value.fits) :
    optional? (.obj ((key, ofOption Value.toJson v) :: rest)) key Value.ofJson? = some v :=
  optional?_self rfl fun _ hx => Value.ofJson?_toJson ((Option.all_eq_true _ _).1 h _ hx)

end Parts

namespace Rhs

def fits : Rhs → Bool
  | .binary _ lhs rhs ty => lhs.fits && rhs.fits && ty.fits
  | .icmp _ lhs rhs => lhs.fits && rhs.fits
  | .fcmp _ lhs rhs => lhs.fits && rhs.fits
  | .cast _ v target => v.fits && target.fits
  | .alloca ty count => ty.fits && count.all Value.fits
  | .malloc ty count => ty.fits && count.all Value.fits
  | .load ptr ty => ptr.fits && ty.fits
  | .gep ptr indices ty => ptr.fits && indices.all Value.fits && ty.fits
  | .extractValue aggregate path ty => aggregate.fits && path.all indexFits && ty.fits
  | .insertValue aggregate element path => aggregate.fits && element.fits && path.all indexFits
  | .extractElement vector index ty => vector.fits && index.fits && ty.fits
  | .insertElement vector element index => vector.fits && element.fits && index.fits
  | .shuffle lhs rhs mask ty => lhs.fits && rhs.fits && mask.all indexFits && ty.fits
  | .ptrDiff lhs rhs => lhs.fits && rhs.fits
  | .select condition ifTrue ifFalse => condition.fits && ifTrue.fits && ifFalse.fits

end Rhs

namespace Instruction

def fits : Instruction → Bool
  | define result rhs => indexFits result && rhs.fits
  | call result callee args ty =>
    result.all indexFits && callee.fits && args.all Value.fits && ty.fits
  | free ptr => ptr.fits
  | store v ptr => v.fits && ptr.fits
  | ret v => v.all Value.fits
  | branch target => indexFits target
  | branchIf condition ifTrue ifFalse => condition.fits && indexFits ifTrue && indexFits ifFalse
  | unreachable => true
  | comment _ => true

theorem ofJson?_of_notMem {tag : String}
    (h : tag ∉
      ["Call", "Free", "Store", "Return", "Branch", "BranchCond", "Unreachable", "Comment"])
    (p : Json) :
    ofJson? (.obj [(tag, p)]) = do
      return .define (← member? p "result" Json.index?) (← rhs? tag p) := by
  simp only [List.mem_cons, not_or] at h
  simp [ofJson?, tagged?, h]

theorem ofJson?_defineJson {result : Temp} (hresult : indexFits result) {rhs : Rhs}
    (h : rhs.fits) : ofJson? (defineJson result rhs) = some (.define result rhs) := by
  cases rhs <;> simp only [Rhs.fits, Bool.and_eq_true] at h
  all_goals
    rw [defineJson, defineJson.of, ofJson?_of_notMem (by decide)]
    simp -implicitDefEqProofs [rhs?, member?, index?_ofNat hresult, Value.ofJson?_toJson,
      Ty.ofJson?_toJson, list?_index, list?_value, optional?_value, h]

theorem ofJson?_toJson {i : Instruction} (h : i.fits) : ofJson? i.toJson = some i := by
  cases i <;> simp only [fits, Bool.and_eq_true] at h
  case define result rhs => exact ofJson?_defineJson h.1 h.2
  case ret v =>
    cases v with
    | none => rfl
    | some v =>
      have hv := Value.ofJson?_toJson h
      cases v <;> simp_all -implicitDefEqProofs [toJson, ofJson?, tagged?, Value.toJson, ofOption]
  all_goals
    simp -implicitDefEqProofs [toJson, ofJson?, tagged?, member?, index?_ofNat,
      Value.ofJson?_toJson, Ty.ofJson?_toJson, list?_value, optional?_index, h]

end Instruction

@[simp]
theorem Json.record?_obj (names : List String) (members : List (String × Json)) :
    record? names (.obj members) = some (.obj members) := rfl

@[simp]
theorem Linkage.ofJson?_toJson (l : Linkage) : ofJson? l.toJson = some l := by
  cases l <;> rfl

namespace Block

def fits (b : Block) : Bool := indexFits b.id && b.body.all Instruction.fits

theorem ofJson?_toJson {b : Block} (h : b.fits) : ofJson? b.toJson = some b := by
  simp only [fits, Bool.and_eq_true, List.all_eq_true] at h
  have hbody := list?_ofList fun i hi => Instruction.ofJson?_toJson (h.2 i hi)
  simp -implicitDefEqProofs [toJson, ofJson?, member?, index?_ofNat h.1, hbody]

end Block

namespace Function

def fits (f : Function) : Bool :=
  f.result.fits && f.params.all Ty.fits && f.blocks.all Block.fits && indexFits f.nextTemp &&
    indexFits f.nextBlock

theorem ofJson?_toJson {f : Function} (h : f.fits) : ofJson? f.toJson = some f := by
  simp only [fits, Bool.and_eq_true, List.all_eq_true] at h
  obtain ⟨⟨⟨⟨hresult, hparams⟩, hblocks⟩, htemp⟩, hblock⟩ := h
  have hparams := list?_ofList fun t ht => Ty.ofJson?_toJson t (hparams t ht)
  have hblocks := list?_ofList fun b hb => Block.ofJson?_toJson (hblocks b hb)
  simp -implicitDefEqProofs [toJson, ofJson?, member?, nextTemp?, Ty.ofJson?_toJson _ hresult,
    hparams, hblocks, index?_ofNat htemp, index?_ofNat hblock]

end Function

namespace Global

def fits (g : Global) : Bool := g.ty.fits && g.initializer.all Constant.fits

theorem ofJson?_toJson {g : Global} (h : g.fits) : ofJson? g.toJson = some g := by
  simp only [fits, Bool.and_eq_true, Option.all_eq_true] at h
  have hinit {rest : List (String × Json)} :
      optional? (.obj (("initializer", ofOption Constant.toJson g.initializer) :: rest))
        "initializer" Constant.ofJson? = some g.initializer := by
    refine optional?_self ?_ fun c hc => Constant.ofJson?_toJson c (h.2 c hc)
    rw [Constant.ofJson?]
    rfl
  simp [toJson, ofJson?, member?, Ty.ofJson?_toJson _ h.1, hinit]

end Global

namespace Names

theorem foldl_insert_toList (names : Names α) :
    names.toList.foldl (fun found (name, a) => found.insert name a) ∅ = names := by
  refine Eq.trans Std.ExtTreeMap.insertMany_list_eq_foldl.symm (Std.ExtTreeMap.ext_getElem? ?_)
  intro name
  cases h : names[name]? with
  | some a =>
    exact Std.ExtTreeMap.getElem?_insertMany_list_of_mem Std.ReflCmp.compare_self
      Std.ExtTreeMap.distinct_keys_toList (Std.ExtTreeMap.mem_toList_iff_getElem?_eq_some.2 h)
  | none =>
    rw [Std.ExtTreeMap.getElem?_insertMany_list_of_contains_eq_false]
    . simp
    . rw [Std.ExtTreeMap.map_fst_toList_eq_keys]
      simpa using h

theorem ofJson?_toJson {read : Json → Option α} {write : α → Json} {names : Names α}
    (h : ∀ entry ∈ names.toList, read (write entry.2) = some entry.2) :
    ofJson? read (names.toJson write) = some names := by
  have hentries : (names.toList.map fun entry => (entry.1, write entry.2)).mapM
      (fun entry : String × Json => (read entry.2).map (entry.1, ·)) = some names.toList :=
    mapM_of_forall fun entry he => by simp [h entry he]
  simp only [toJson, ofJson?, hentries, Option.bind_eq_bind, Option.bind_some, foldl_insert_toList]
  rfl

end Names

namespace Module

def fits (m : Module) : Bool :=
  m.functions.all Function.fits && m.globals.all Global.fits &&
    m.typeDefinitions.toList.all fun entry => entry.2.fits

/--
Nothing is lost in the JSON form of a module: not its counters, not its table of texts, and no part
of a type, a constant or an instruction.
-/
theorem json_lossless {m : Module} (h : m.fits) : ofJson? m.toJson = some m := by
  simp only [fits, Bool.and_eq_true, List.all_eq_true] at h
  obtain ⟨⟨hfunctions, hglobals⟩, htypes⟩ := h
  have hfunctions := list?_ofList fun f hf => Function.ofJson?_toJson (hfunctions f hf)
  have hglobals := list?_ofList fun g hg => Global.ofJson?_toJson (hglobals g hg)
  have htypes := Names.ofJson?_toJson fun entry he => Ty.ofJson?_toJson _ (htypes entry he)
  have hstrings : Names.ofJson? Json.str? (Names.toJson .str m.strings) = some m.strings :=
    Names.ofJson?_toJson fun _ _ => rfl
  simp [toJson, ofJson?, member?, hfunctions, hglobals, htypes, hstrings]

def crowded : Module where
  name := "m"
  functions := [
    { name := "puts", result := .i32, params := [.bytePointer], variadic := true },
    { name := "f", result := .void, params := [.i1], variadic := false, linkage := .hidden
      blocks := [
        ⟨4294967295, "entry", [
          .define 1 (.alloca .i32 none),
          .define 2 (.extractValue (.const (.undef (.struct none [.i8, .f64] true))) [1] .f64),
          .call none (.const (.functionAddr "puts" .bytePointer))
            [.const (.bitCast (.globalAddr "g" (.pointer (.array 2 .i8))) .bytePointer)] .i32,
          .branchIf (.temp 0 .i1) 4294967295 0]⟩,
        ⟨0, "", [.comment "\"", .ret none]⟩]
      nextTemp := 4294967295, nextBlock := 7 }]
  globals := [
    { name := "g", ty := .array 2 .i8, isConstant := true
      initializer := some (.array (.array 2 .i8) [.int .i8 (-1), .null .label]) },
    { name := "e", ty := .vector 18446744073709551615 .i64, initializer := none }]
  typeDefinitions :=
    (∅ : Names Ty).insert "node" (.struct (some "node") [.function .void [.i16] true] false)
  strings := ((∅ : Names String).insert "é" "m.str.0").insert "" "g"

theorem crowded_lossless : crowded.fits = true ∧ ofJson? crowded.toJson = some crowded := by
  have h : crowded.fits = true := by decide
  exact ⟨h, json_lossless h⟩

end Module

end ScriptedIR
