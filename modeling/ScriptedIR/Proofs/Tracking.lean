import ScriptedIR.Proofs.Fields

/-!
Types along element addresses. The generator follows the types that the indices of an element address
step into, since a field is named relative to the struct it is in, and the builder follows them again
to type the instruction. Both come to the same types, except in structs with more fields than there
are numbers of 32 bits, where the generator loses track. A name always means a field of the struct that
the indices before it lead to in the instruction.
-/

namespace ScriptedIR

namespace Ty

mutual

def numbersFields : Ty → Bool
  | .struct _ fields _ => fields.length ≤ UInt32.size && allNumberFields fields
  | .array _ t | .vector _ t => numbersFields t
  | _ => true

def allNumberFields : List Ty → Bool
  | [] => true
  | t :: ts => numbersFields t && allNumberFields ts

end

theorem allNumberFields_iff {ts : List Ty} : allNumberFields ts ↔ ∀ t ∈ ts, t.numbersFields := by
  induction ts with
  | nil => simp [allNumberFields]
  | cons t ts ih => simp [allNumberFields, ih]

theorem numbersFields_member? {t member : Ty} {v : Value} (ht : t.numbersFields)
    (h : t.member? v = some member) : member.numbersFields := by
  cases t with
  | struct name fields packed =>
    obtain ⟨i, -, hi⟩ := Option.bind_eq_some_iff.1 h
    rw [numbersFields, Bool.and_eq_true, allNumberFields_iff] at ht
    exact ht.2 member (List.mem_of_getElem? hi)
  | array n t =>
    cases h
    rwa [numbersFields] at ht
  | vector n t =>
    cases h
    rwa [numbersFields] at ht
  | _ => cases h

end Ty

namespace Constant

theorem asIndex?_eq_some_iff {c : Constant} {i : Nat} :
    c.asIndex? = some i ↔
      ∃ n, c.asInt? = some n ∧ 0 ≤ n.toInt ∧ n.toInt < UInt32.size ∧ n.toInt.toNat = i := by
  unfold asIndex?
  cases c.asInt? with
  | none => simp
  | some n =>
    simp only [Option.bind_eq_bind, Option.bind_some, Option.ite_none_right_eq_some,
      Option.some.injEq, exists_eq_left', and_assoc]

end Constant

namespace Request

variable {t member : Ty} {v : Value} {vs : List Value}

theorem ofKind_integer (hv : v.ty.kind = .integer) : ofKind "getelementptr" .integer v = .ok () :=
  if_pos hv

theorem stepInto_of_member? (hv : v.ty.kind = .integer) (h : t.member? v = some member) :
    stepInto t v = .ok member := by
  unfold stepInto
  rw [ofKind_integer hv]
  cases t with
  | struct name fields packed =>
    obtain ⟨i, hindex, hi⟩ := Option.bind_eq_some_iff.1 h
    obtain ⟨c, hc, hindex⟩ := Option.bind_eq_some_iff.1 hindex
    obtain ⟨n, hn, hnonneg, -, rfl⟩ := Constant.asIndex?_eq_some_iff.1 hindex
    have hi : fields[n.toInt.toNat]? = some member := hi
    simp only [hc, Option.bind_some, hn, hnonneg, if_true, hi]
    rfl
  | array n t =>
    cases h
    rfl
  | vector n t =>
    cases h
    rfl
  | _ => cases h

theorem member?_of_stepInto (ht : t.numbersFields) (h : stepInto t v = .ok member) :
    t.member? v = some member := by
  obtain ⟨-, -, h⟩ := bind_eq_ok_iff.1 h
  cases t with
  | struct name fields packed =>
    dsimp only at h
    split at h
    . cases h
    . next n hn =>
      obtain ⟨c, hc, hn⟩ := Option.bind_eq_some_iff.1 hn
      split at h
      . next field hfield =>
        cases h
        split at hfield
        . next hnonneg =>
          -- the field exists, so its number is below that of the fields
          have hlt := (List.getElem?_eq_some_iff.1 hfield).1
          rw [Ty.numbersFields, Bool.and_eq_true, decide_eq_true_eq] at ht
          have hindex : v.asIndex? = some n.toInt.toNat := by
            refine Option.bind_eq_some_iff.2 ⟨c, hc, Constant.asIndex?_eq_some_iff.2 ?_⟩
            exact ⟨n, hn, hnonneg, by omega, rfl⟩
          exact Option.bind_eq_some_iff.2 ⟨n.toInt.toNat, hindex, hfield⟩
        . cases hfield
      . cases h
  | array n t =>
    cases h
    rfl
  | vector n t =>
    cases h
    rfl
  | _ => cases h

def beyondNumbers : Value := .const (.int .i64 (.ofNat UInt32.size))

/--
Beyond 32 bits the two differ: the builder takes a number that the generator does not.
-/
theorem stepInto_beyondNumbers (name : Option String) {fields : List Ty} (packed : Bool)
    (h : fields[UInt32.size]? = some member) :
    stepInto (.struct name fields packed) beyondNumbers = .ok member ∧
      (Ty.struct name fields packed).member? beyondNumbers = none := by
  have hvalue : (Int64.ofNat UInt32.size).toInt = UInt32.size := rfl
  have hconstant : beyondNumbers.asConstant?.bind Constant.asInt? = some (.ofNat UInt32.size) := rfl
  refine ⟨?_, rfl⟩
  unfold stepInto
  rw [ofKind_integer rfl]
  simp only [hconstant, hvalue, Int.natCast_nonneg, if_true, Int.toNat_natCast, h]
  rfl

theorem elementType_cons (hv : v.ty.kind = .integer) (vs : List Value) :
    elementType (.pointer t) (v :: vs) = vs.foldlM stepInto t := by
  change (vs.foldlM stepInto t >>= _) = _
  rw [ofKind_integer hv]
  cases vs.foldlM stepInto t <;> rfl

end Request

namespace Gen

variable {s u : GenState} {t : Ty} {ty : Option Ty} {vs : List Value}

def track (ty : Option Ty) (vs : List Value) : Option Ty :=
  vs.foldl (fun ty v => ty.bind (·.member? v)) ty

theorem track_none (vs : List Value) : track none vs = none := by
  induction vs with
  | nil => rfl
  | cons v vs ih => exact ih

theorem foldlM_of_track {member : Ty} (hvs : ∀ v ∈ vs, v.ty.kind = .integer)
    (h : track (some t) vs = some member) : vs.foldlM Request.stepInto t = .ok member := by
  induction vs generalizing t with
  | nil =>
    cases h
    rfl
  | cons v vs ih =>
    obtain ⟨hv, hvs⟩ := List.forall_mem_cons.1 hvs
    have h : track (t.member? v) vs = some member := h
    cases hstep : t.member? v with
    | none =>
      rw [hstep, track_none] at h
      cases h
    | some inner =>
      rw [hstep] at h
      rw [List.foldlM_cons, Request.stepInto_of_member? hv hstep]
      exact ih hvs h

theorem track_of_foldlM {member : Ty} (ht : t.numbersFields)
    (h : vs.foldlM Request.stepInto t = .ok member) : track (some t) vs = some member := by
  induction vs generalizing t with
  | nil =>
    cases h
    rfl
  | cons v vs ih =>
    rw [List.foldlM_cons] at h
    obtain ⟨inner, hstep, h⟩ := bind_eq_ok_iff.1 h
    have hmember := Request.member?_of_stepInto ht hstep
    have hrest := ih (Ty.numbersFields_member? ht hmember) h
    rwa [← hmember] at hrest

/-
The values of indices
-/

theorem exec_convertKind_integer {o : Operand} {v : Value} :
    exec (convertKind .integer o) s = (.ok v, u) →
      u = s ∧ ((∀ f, o ≠ .function f) → v.ty.kind = .integer) := by
  intro h
  obtain ⟨m, hconvert, rfl⟩ := exec_convert.1 h
  have hcases := o.convert_cases (some (.kind .integer)) s.library.module
  rw [hconvert] at hcases
  cases hcases with
  | value haccepts =>
    refine ⟨rfl, fun _ => ?_⟩
    simpa [Hint.accepts, Kind.accepts, eq_comm] using haccepts
  | function f => exact ⟨rfl, fun hf => absurd rfl (hf f)⟩
  | integer => exact ⟨rfl, fun _ => rfl⟩
  | decimal haccepts | null haccepts | bytes haccepts | text haccepts => cases haccepts
  | list hkind => cases hkind

theorem exec_innerIndices_element {o : Operand} {rest : List (Index Operand)}
    (h : exec (innerIndices ty (.element o :: rest)) s = (.ok vs, u)) :
    ∃ v ws, vs = v :: ws ∧ exec (convertKind .integer o) s = (.ok v, s) ∧
      exec (innerIndices (track ty [v]) rest) s = (.ok ws, u) := by
  rw [innerIndices] at h
  obtain ⟨v, s₁, hv, hrest⟩ := exec_bind_ok.1 h
  obtain ⟨rfl, -⟩ := exec_convertKind_integer hv
  obtain ⟨ws, s₂, hws, hpure⟩ := exec_bind_ok.1 hrest
  cases hpure
  exact ⟨v, ws, rfl, hv, hws⟩

def pathValues (path : List Nat) : List Value :=
  path.map fun i => Value.ofInt .i32 (Int64.ofNat i)

theorem exec_fieldPath_ok {name : String} {path : List Nat}
    (h : exec (fieldPath ty name) s = (.ok path, u)) :
    u = s ∧ ∃ struct fields packed layout, ty = some (.struct (some struct) fields packed) ∧
      s.library.layouts[struct]? = some layout ∧ layout.index name = .ok path := by
  unfold fieldPath at h
  split at h
  . next struct fields packed =>
    obtain ⟨_, _, hget, h⟩ := exec_bind_ok.1 h
    cases hget
    split at h
    . next layout hlayout =>
      split at h
      . next path' hpath =>
        cases h
        exact ⟨rfl, struct, fields, packed, layout, rfl, hlayout, hpath⟩
      . cases h
    . cases h
  . cases h

theorem exec_innerIndices_field {name : String} {rest : List (Index Operand)}
    (h : exec (innerIndices ty (.field name :: rest)) s = (.ok vs, u)) :
    ∃ path ws, vs = pathValues path ++ ws ∧ exec (fieldPath ty name) s = (.ok path, s) ∧
      exec (innerIndices (track ty (pathValues path)) rest) s = (.ok ws, u) := by
  rw [innerIndices] at h
  obtain ⟨path, s₁, hpath, hrest⟩ := exec_bind_ok.1 h
  obtain ⟨rfl, -⟩ := exec_fieldPath_ok hpath
  obtain ⟨ws, s₂, hws, hpure⟩ := exec_bind_ok.1 hrest
  cases hpure
  exact ⟨path, ws, rfl, hpath, hws⟩

theorem kind_of_mem_pathValues {path : List Nat} : ∀ v ∈ pathValues path, v.ty.kind = .integer := by
  intro v hv
  obtain ⟨i, -, rfl⟩ := List.mem_map.1 hv
  rfl

theorem exec_innerIndices_integers {is : List (Index Operand)}
    (hfunctions : ∀ f, .element (.function f) ∉ is)
    (h : exec (innerIndices ty is) s = (.ok vs, u)) :
    u = s ∧ ∀ v ∈ vs, v.ty.kind = .integer := by
  induction is generalizing ty vs with
  | nil =>
    cases h
    exact ⟨rfl, by simp⟩
  | cons i is ih =>
    have hrest : ∀ f, .element (.function f) ∉ is := fun f hf => hfunctions f (.tail _ hf)
    cases i with
    | element o =>
      obtain ⟨v, ws, rfl, hv, hws⟩ := exec_innerIndices_element h
      obtain ⟨hstate, hintegers⟩ := ih hrest hws
      have ho : ∀ f, o ≠ .function f := by
        rintro f rfl
        exact hfunctions f List.mem_cons_self
      exact ⟨hstate, List.forall_mem_cons.2 ⟨(exec_convertKind_integer hv).2 ho, hintegers⟩⟩
    | field name =>
      obtain ⟨path, ws, rfl, -, hws⟩ := exec_innerIndices_field h
      obtain ⟨hstate, hintegers⟩ := ih hrest hws
      exact ⟨hstate, List.forall_mem_append.2 ⟨kind_of_mem_pathValues, hintegers⟩⟩

theorem exec_innerIndices_append {js ks : List (Index Operand)}
    (h : exec (innerIndices ty (js ++ ks)) s = (.ok vs, u)) :
    ∃ seen later, vs = seen ++ later ∧ exec (innerIndices ty js) s = (.ok seen, s) ∧
      exec (innerIndices (track ty seen) ks) s = (.ok later, u) := by
  induction js generalizing ty vs with
  | nil => exact ⟨[], vs, rfl, rfl, h⟩
  | cons i js ih =>
    cases i with
    | element o =>
      obtain ⟨v, ws, rfl, hv, hws⟩ := exec_innerIndices_element h
      obtain ⟨seen, later, rfl, hseen, hlater⟩ := ih hws
      refine ⟨v :: seen, later, rfl, ?_, hlater⟩
      rw [innerIndices, exec_bind_ok]
      refine ⟨v, s, hv, ?_⟩
      rw [exec_bind_ok]
      exact ⟨seen, s, hseen, rfl⟩
    | field name =>
      obtain ⟨path, ws, rfl, hpath, hws⟩ := exec_innerIndices_field h
      obtain ⟨seen, later, rfl, hseen, hlater⟩ := ih hws
      refine ⟨pathValues path ++ seen, later, by rw [List.append_assoc], ?_, ?_⟩
      . rw [innerIndices, exec_bind_ok]
        refine ⟨path, s, hpath, ?_⟩
        rw [exec_bind_ok]
        exact ⟨seen, s, hseen, rfl⟩
      . rwa [track, List.foldl_append]

theorem exec_indices_ok {is : List (Index Operand)}
    (h : exec (indices ty is) s = (.ok vs, u)) :
    (is = [] ∧ vs = []) ∨
      ∃ o rest v ws, is = .element o :: rest ∧ vs = v :: ws ∧
        exec (convertKind .integer o) s = (.ok v, s) ∧
        exec (innerIndices ty rest) s = (.ok ws, u) := by
  cases is with
  | nil =>
    cases h
    exact .inl ⟨rfl, rfl⟩
  | cons i rest =>
    cases i with
    | field name => cases h
    | element o =>
      rw [indices] at h
      obtain ⟨v, s₁, hv, hrest⟩ := exec_bind_ok.1 h
      obtain ⟨rfl, -⟩ := exec_convertKind_integer hv
      obtain ⟨ws, s₂, hws, hpure⟩ := exec_bind_ok.1 hrest
      cases hpure
      exact .inr ⟨o, rest, v, ws, rfl, rfl, hv, hws⟩

theorem exec_indices_integers {is : List (Index Operand)}
    (hfunctions : ∀ f, .element (.function f) ∉ is)
    (h : exec (indices ty is) s = (.ok vs, u)) : ∀ v ∈ vs, v.ty.kind = .integer := by
  obtain ⟨-, rfl⟩ | ⟨o, rest, v, ws, rfl, rfl, hv, hws⟩ := exec_indices_ok h
  . simp
  . have ho : ∀ f, o ≠ .function f := by
      rintro f rfl
      exact hfunctions f List.mem_cons_self
    have hrest : ∀ f, .element (.function f) ∉ rest := fun f hf => hfunctions f (.tail _ hf)
    exact List.forall_mem_cons.2
      ⟨(exec_convertKind_integer hv).2 ho, (exec_innerIndices_integers hrest hws).2⟩

/--
Behind each index the generator tracks a type only if the builder comes to this type, and the builder
comes to no other type unless a struct has fields whose numbers exceed 32 bits. How the generator goes
on depends on the type tracked, so a name is looked up in the struct that the builder comes to.
-/
theorem indices_track_elementType {is : List (Index Operand)}
    (hfunctions : ∀ f, .element (.function f) ∉ is)
    (h : exec (indices (some t) is) s = (.ok vs, u)) :
    (∀ seen, seen <+: vs → seen ≠ [] → ∀ member,
      (track (some t) seen.tail = some member →
        Request.elementType (.pointer t) seen = .ok member) ∧
      (t.numbersFields → Request.elementType (.pointer t) seen = .ok member →
        track (some t) seen.tail = some member)) ∧
    ∀ js ks, is = js ++ ks → js ≠ [] → ∃ seen later, vs = seen ++ later ∧
      exec (indices (some t) js) s = (.ok seen, s) ∧
      exec (innerIndices (track (some t) seen.tail) ks) s = (.ok later, s) ∧
      ∀ name rest, ks = .field name :: rest → ∃ struct fields packed layout path,
        Request.elementType (.pointer t) seen = .ok (.struct (some struct) fields packed) ∧
        s.library.layouts[struct]? = some layout ∧ layout.index name = .ok path ∧
        pathValues path <+: later := by
  have hintegers := exec_indices_integers hfunctions h
  have hagree : ∀ seen, seen <+: vs → seen ≠ [] → ∀ member,
      track (some t) seen.tail = some member →
        Request.elementType (.pointer t) seen = .ok member := by
    intro seen hseen hne member htrack
    obtain ⟨v, ws, rfl⟩ := List.exists_cons_of_ne_nil hne
    obtain ⟨hv, hws⟩ := List.forall_mem_cons.1 fun v hv => hintegers v (hseen.subset hv)
    rw [Request.elementType_cons hv]
    exact foldlM_of_track hws htrack
  refine ⟨fun seen hseen hne member => ⟨hagree seen hseen hne member, ?_⟩, ?_⟩
  . intro ht htype
    obtain ⟨v, ws, rfl⟩ := List.exists_cons_of_ne_nil hne
    rw [Request.elementType_cons (hintegers v (hseen.subset List.mem_cons_self))] at htype
    exact track_of_foldlM ht htype
  . rintro js ks rfl hne
    obtain ⟨i, js, rfl⟩ := List.exists_cons_of_ne_nil hne
    obtain ⟨⟨⟩, -⟩ | ⟨o, rest, v, ws, heq, rfl, hv, hws⟩ := exec_indices_ok h
    obtain ⟨rfl, rfl⟩ := List.cons.inj heq
    obtain ⟨rfl, -⟩ := exec_innerIndices_integers (fun f hf => hfunctions f (.tail _ hf)) hws
    obtain ⟨seen, later, rfl, hseen, hlater⟩ := exec_innerIndices_append hws
    refine ⟨v :: seen, later, rfl, ?_, hlater, ?_⟩
    . rw [indices, exec_bind_ok]
      refine ⟨v, _, hv, ?_⟩
      rw [exec_bind_ok]
      exact ⟨seen, _, hseen, rfl⟩
    . rintro name rest rfl
      obtain ⟨path, ws, rfl, hpath, -⟩ := exec_innerIndices_field hlater
      obtain ⟨-, struct, fields, packed, layout, htrack, hlayout, hindex⟩ :=
        exec_fieldPath_ok hpath
      refine ⟨struct, fields, packed, layout, path, ?_, hlayout, hindex, ?_⟩
      . exact hagree (v :: seen) (List.prefix_append _ _) (by simp) _ htrack
      . exact List.prefix_append _ _

def vast : Ty := .struct none (List.replicate (UInt32.size + 1) .i8) false

/--
The bound on fields cannot be dropped: the indices of the last field of `vast` are accepted, and the
builder comes to its type where the generator has lost track.
-/
theorem vast_untracked (s : GenState) :
    exec (indices (some vast) [.element (.int 0), .element (.value Request.beyondNumbers)]) s =
        (.ok [.fieldNumber 0, Request.beyondNumbers], s) ∧
      Request.elementType (.pointer vast) [.fieldNumber 0, Request.beyondNumbers] = .ok .i8 ∧
      track (some vast) [Request.beyondNumbers] = none := by
  have hlast : (List.replicate (UInt32.size + 1) Ty.i8)[UInt32.size]? = some .i8 :=
    List.getElem?_replicate_of_lt (Nat.lt_succ_self _)
  obtain ⟨hstep, htrack⟩ := Request.stepInto_beyondNumbers none false hlast
  refine ⟨rfl, ?_, htrack⟩
  rw [Request.elementType_cons rfl, List.foldlM_cons, vast, hstep]
  rfl

end Gen

end ScriptedIR
