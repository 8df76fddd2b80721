import Mathlib.Data.List.Forall2
import ScriptedIR.Proofs.Cells
import ScriptedIR.Proofs.Values

/-!
Members of aggregates, in memory and in values. Loads and stores follow the path of a pointer, and the
instructions on aggregates follow a list of numbers. All of them go the same way: what is loaded through
the address of a member is the member of what is loaded, and a store through that address is a store of
the whole with the member replaced.
-/

namespace ScriptedIR

namespace Datum

def get? : Datum → List Int → Option Datum
  | d, [] => some d
  | .aggregate members, i :: rest => (member? members i).bind (get? · rest)
  | _, _ :: _ => none

def put? : Datum → List Int → Datum → Option Datum
  | _, [], v => some v
  | .aggregate members, i :: rest, v =>
    ((member? members i).bind fun d => (put? d rest v).map (members.set i.toNat)).map .aggregate
  | _, _ :: _, _ => none

variable {d v : Datum} {row row' : List Datum} {i : Int}

theorem get?_append (d : Datum) (path rest : List Int) :
    d.get? (path ++ rest) = (d.get? path).bind (get? · rest) := by
  induction path generalizing d with
  | nil => rfl
  | cons i path ih =>
    cases d with
    | aggregate members =>
      rw [List.cons_append, get?, get?, Option.bind_assoc]
      simp only [ih]
    | _ => rfl

/--
Replacing a member of a member: the inner aggregate is read, changed and put back.
-/
theorem put?_append (d : Datum) (path rest : List Int) (v : Datum) :
    d.put? (path ++ rest) v =
      (d.get? path).bind fun part => (part.put? rest v).bind (d.put? path) := by
  induction path generalizing d with
  | nil => simp [get?, put?]
  | cons i path ih =>
    cases d with
    | aggregate members =>
      rw [List.cons_append, get?, put?]
      cases hi : member? members i with
      | none => rfl
      | some e => simp [put?, hi, ih, Option.map_bind, Function.comp_def]
    | _ => rfl

theorem follow_cons (rest : List Int) :
    follow row (i :: rest) = .ok d ↔ (member? row i).bind (get? · rest) = some d := by
  induction rest generalizing row i with
  | nil =>
    unfold follow
    cases member? row i <;> simp [get?]
  | cons j rest ih =>
    unfold follow
    cases member? row i with
    | none => simp
    | some a =>
      cases a with
      | aggregate members => exact ih
      | _ => simp [get?]

theorem replace_cons (rest : List Int) :
    replace row v (i :: rest) = .ok row' ↔
      (member? row i).bind (fun d => (d.put? rest v).map (row.set i.toNat)) = some row' := by
  induction rest generalizing row row' i with
  | nil =>
    unfold replace
    cases member? row i <;> simp [put?]
  | cons j rest ih =>
    unfold replace
    cases member? row i with
    | none => simp
    | some a =>
      cases a with
      | aggregate members =>
        simp only [Option.bind_some, put?, Option.map_map, Option.map_eq_some_iff, ← ih]
        cases replace members v (j :: rest) <;> simp
      | _ => simp [put?]

theorem follow_append (start rest : List Int) :
    follow row (i :: start ++ rest) = .ok d ↔
      ∃ whole, follow row (i :: start) = .ok whole ∧ whole.get? rest = some d := by
  simp only [List.cons_append, follow_cons, get?_append, ← Option.bind_assoc,
    Option.bind_eq_some_iff]

theorem replace_append (start rest : List Int) :
    replace row v (i :: start ++ rest) = .ok row' ↔
      ∃ whole new, follow row (i :: start) = .ok whole ∧ whole.put? rest v = some new ∧
        replace row new (i :: start) = .ok row' := by
  simp only [List.cons_append, follow_cons, replace_cons, put?_append]
  cases member? row i with
  | none => simp
  | some a =>
    simp only [Option.bind_some, Option.map_eq_some_iff, Option.bind_eq_some_iff]
    constructor
    . rintro ⟨b, ⟨whole, hwhole, new, hnew, hb⟩, hrow⟩
      exact ⟨whole, new, hwhole, hnew, b, hb, hrow⟩
    . rintro ⟨whole, new, hwhole, hnew, b, hb, hrow⟩
      exact ⟨b, ⟨whole, hwhole, new, hnew, hb⟩, hrow⟩

end Datum

theorem member?_ofNat (row : List α) (i : Nat) : member? row (Int.ofNat i) = row[i]? := by
  simp [member?]

theorem extractMember_eq_ok_iff {whole d : Datum} {path : List Nat} :
    extractMember whole path = .ok d ↔ whole.get? (path.map Int.ofNat) = some d := by
  induction path generalizing whole with
  | nil => simp [extractMember, Datum.get?]
  | cons i path ih =>
    unfold extractMember
    cases whole with
    | aggregate members =>
      rw [List.map_cons, Datum.get?, member?_ofNat]
      simp only [Datum.toAggregate, bind, Except.bind]
      cases members[i]? with
      | none => simp
      | some member => exact ih
    | _ => simp [Datum.toAggregate, Datum.get?, bind, Except.bind]

theorem insertMember_eq_ok_iff {whole v d : Datum} {path : List Nat} :
    insertMember v whole path = .ok d ↔ whole.put? (path.map Int.ofNat) v = some d := by
  induction path generalizing whole d with
  | nil => simp [insertMember, Datum.put?]
  | cons i path ih =>
    cases whole with
    | aggregate members =>
      rw [List.map_cons, Datum.put?, member?_ofNat, insertMember]
      cases members[i]? with
      | none => simp
      | some member =>
        simp only [Option.bind_some, Option.map_map, Option.map_eq_some_iff, ← ih]
        cases insertMember v member path <;> simp [bind, Except.bind, pure, Except.pure]
    | _ => simp [insertMember, Datum.put?]

namespace Pointer

def inside (p : Pointer) (path : List Nat) : Pointer :=
  match p with
  | null => null
  | memory alloc start => memory alloc (start ++ path.map Int.ofNat)

theorem inside_nil (p : Pointer) : p.inside [] = p := by
  cases p <;> simp [inside]

theorem inside_child (p : Pointer) (i : Nat) (path : List Nat) :
    (p.child (Int.ofNat i)).inside path = p.inside (i :: path) := by
  cases p <;> simp [inside, child]

theorem offset_zero (p : Pointer) : p.offset 0 = p := by
  have hshift (path : List Int) : shiftLast 0 path = path := by
    fun_induction shiftLast 0 path with
    | case1 => rfl
    | case2 => simp
    | case3 i j rest ih => rw [ih]
  cases p with
  | null => rfl
  | memory alloc path => rw [offset, hshift]

theorem move_zero (p : Pointer) : p.move 0 = .ok p := by
  unfold move
  split
  . rfl
  . next last _ =>
    have hmin := (Int64.ofInt last).minValue_le_toInt
    have hmax := (Int64.ofInt last).toInt_le
    simp only [Word.checked, Int64.toInt_zero, Int.add_zero, hmin, hmax, and_self, ↓reduceIte, bind,
      Except.bind, pure, Except.pure, p.offset_zero]

end Pointer

namespace Memory

variable {m m' : Memory} {p : Pointer} {path : List Nat} {d v : Datum}

theorem exists_store_of_load (h : m.load p = .ok d) (v : Datum) :
    ∃ m', m.store p v = (.ok (), m') := by
  rcases hstore : m.store p v with ⟨e | _, m'⟩
  . rw [(store_eq_error_iff.1 hstore).1] at h
    cases h
  . exact ⟨m', rfl⟩

variable (hp : ∀ alloc, p ≠ .memory alloc [])

include hp

theorem load_inside :
    m.load (p.inside path) = .ok d ↔
      ∃ whole, m.load p = .ok whole ∧ extractMember whole path = .ok d := by
  cases p with
  | null => simp [Pointer.inside, load, row]
  | memory alloc start =>
    cases start with
    | nil => exact absurd rfl (hp alloc)
    | cons i start =>
      simp only [Pointer.inside, load_eq_ok_iff, Datum.follow_append, extractMember_eq_ok_iff]
      constructor
      . rintro ⟨cells, hcells, whole, hwhole, hd⟩
        exact ⟨whole, ⟨cells, hcells, hwhole⟩, hd⟩
      . rintro ⟨whole, ⟨cells, hcells, hwhole⟩, hd⟩
        exact ⟨cells, hcells, whole, hwhole, hd⟩

theorem store_inside :
    m.store (p.inside path) v = (.ok (), m') ↔
      ∃ whole new, m.load p = .ok whole ∧ insertMember v whole path = .ok new ∧
        m.store p new = (.ok (), m') := by
  cases p with
  | null => simp [Pointer.inside, load, store, row]
  | memory alloc start =>
    cases start with
    | nil => exact absurd rfl (hp alloc)
    | cons i start =>
      simp only [Pointer.inside, load_eq_ok_iff, store_eq_ok_iff, Datum.replace_append,
        insertMember_eq_ok_iff]
      constructor
      . rintro ⟨cells, cells', hcells, ⟨whole, new, hwhole, hnew, hreplace⟩, rfl⟩
        exact ⟨whole, new, ⟨cells, hcells, hwhole⟩, hnew, cells, cells', hcells, hreplace, rfl⟩
      . rintro ⟨whole, new, ⟨cells, hcells, hwhole⟩, hnew, _, cells', hcells', hreplace, rfl⟩
        cases hcells.symm.trans hcells'
        exact ⟨cells, cells', hcells, ⟨whole, new, hwhole, hnew, hreplace⟩, rfl⟩

end Memory

namespace Frame

variable {env : Env} {frame : Frame} {indices : List Value} {path : List Nat} {p : Pointer}

def Numbers (env : Env) (frame : Frame) : List Value → List Nat → Prop :=
  List.Forall₂ fun v i => i < UInt32.size ∧ frame.value env v = .ok (.int (.ofNat i))

theorem foldlM_child (h : frame.Numbers env indices path) (p : Pointer) :
    indices.foldlM (fun p index => do
      return p.child (← (← frame.value env index).toInt).toInt) p = .ok (p.inside path) := by
  induction h generalizing p with
  | nil => exact congrArg Except.ok p.inside_nil.symm
  | @cons v i indices path hi _ ih =>
    obtain ⟨hlt, hv⟩ := hi
    have hword : (Int64.ofNat i).toInt = Int.ofNat i := by
      simp only [UInt32.size] at hlt
      exact Int64.toInt_ofNat_of_lt (by omega)
    rw [List.foldlM_cons, hv]
    change List.foldlM _ (p.child (Int64.ofNat i).toInt) indices = _
    rw [hword, ih, Pointer.inside_child]

theorem compute_gep {ptr zero : Value} (hptr : frame.value env ptr = .ok (.pointer p))
    (hzero : frame.value env zero = .ok (.int 0)) (h : frame.Numbers env indices path)
    (m : Memory) (ty : Ty) :
    frame.compute env m (.gep ptr (zero :: indices) ty) = .ok (.pointer (p.inside path), m) := by
  have haddress : frame.address env p (zero :: indices) = .ok (p.inside path) := by
    rw [address, hzero]
    change (do List.foldlM _ (← p.move 0) indices) = _
    rw [p.move_zero]
    exact foldlM_child h p
  rw [compute, hptr]
  change (do return (Datum.pointer (← frame.address env p (zero :: indices)), m)) = _
  rw [haddress]
  rfl

section Aggregates

variable {ptr aggregate element : Value} {m : Memory} {whole d e : Datum}

theorem compute_load (hptr : frame.value env ptr = .ok (.pointer p)) (ty : Ty) :
    frame.compute env m (.load ptr ty) = .ok (d, m) ↔ m.load p = .ok d := by
  rw [compute, hptr]
  change (do return (← m.load p, m)) = _ ↔ _
  cases m.load p <;> simp [bind, Except.bind, pure, Except.pure]

theorem compute_extractValue (hwhole : frame.value env aggregate = .ok whole) (ty : Ty) :
    frame.compute env m (.extractValue aggregate path ty) = .ok (d, m) ↔
      extractMember whole path = .ok d := by
  rw [compute, hwhole]
  change (do return (← extractMember whole path, m)) = _ ↔ _
  cases extractMember whole path <;> simp [bind, Except.bind, pure, Except.pure]

theorem compute_insertValue (hwhole : frame.value env aggregate = .ok whole)
    (he : frame.value env element = .ok e) :
    frame.compute env m (.insertValue aggregate element path) = .ok (d, m) ↔
      insertMember e whole path = .ok d := by
  rw [compute, hwhole, he]
  change (do return (← insertMember e whole path, m)) = _ ↔ _
  cases insertMember e whole path <;> simp [bind, Except.bind, pure, Except.pure]

end Aggregates

end Frame

namespace Env

variable {env : Env} {st : State} {id : Temp} {rhs : Rhs} {d : Datum}

def Assigns (env : Env) (st : State) (id : Temp) (rhs : Rhs) (d : Datum) : Prop :=
  env.step st (.define id rhs) = .running (st.assign id d)

theorem assigns_iff (hid : id < st.frame.temps.size) :
    env.Assigns st id rhs d ↔
      st.frame.compute env st.store.memory rhs = .ok (d, st.store.memory) := by
  refine ⟨fun h => ?_, step_define hid⟩
  unfold Assigns step at h
  dsimp only at h
  cases hcompute : st.frame.compute env st.store.memory rhs with
  | error e =>
    rw [hcompute] at h
    cases h
  | ok result =>
    obtain ⟨d', memory⟩ := result
    have hset : st.frame.set id d' = .ok (st.assign id d').frame := if_pos hid
    rw [hcompute] at h
    dsimp only at h
    rw [hset] at h
    simp only [proceed, bind, Except.bind, pure, Except.pure, Progress.running.injEq, State.assign,
      State.mk.injEq, Frame.mk.injEq, true_and, and_true] at h
    obtain ⟨htemps, hstore⟩ := h
    have hd : d' = d := by simpa [hid] using congrArg (·[id]?) htemps
    have hmemory : memory = st.store.memory := congrArg Store.memory hstore
    rw [hd, hmemory]

theorem value_assign_of_ne {v : Value} (hv : ∀ ty, v ≠ .temp id ty) (d : Datum) :
    (st.assign id d).frame.value env v = st.frame.value env v := by
  cases v with
  | const c => rfl
  | temp other ty =>
    have hne : id ≠ other := by
      rintro rfl
      exact hv ty rfl
    simp [State.assign, Frame.value, hne]

theorem step_store {v ptr : Value} {p : Pointer} (hv : st.frame.value env v = .ok d)
    (hptr : st.frame.value env ptr = .ok (.pointer p)) {st' : State} :
    env.step st (.store v ptr) = .running st' ↔
      ∃ memory, st.store.memory.store p d = (.ok (), memory) ∧
        st' = { st with store := { st.store with memory } } := by
  rw [step_store_eq, hv, hptr]
  simp only [Datum.toPointer, bind, Except.bind, pure, Except.pure, ← Memory.kept_eq_ok]
  cases Memory.kept (st.store.memory.store p d) <;> simp [proceed, eq_comm]

end Env

/--
Members are addressed in memory as they are in values. Through the address of a member, a load succeeds
exactly if the whole can be loaded and the member be extracted from it, and then gives the same. A store
succeeds exactly if the whole can be loaded and the member be replaced in it, and what was then stored
is found by a load of the whole.
-/
theorem Env.member_addresses_agree {env : Env} {st : State} {ptr zero : Value} {indices : List Value}
    {p : Pointer} {path : List Nat} {a b : Temp} (ha : a < st.frame.temps.size)
    (hb : b < st.frame.temps.size) (hptr : st.frame.value env ptr = .ok (.pointer p))
    (hp : ∀ alloc, p ≠ .memory alloc []) (hzero : st.frame.value env zero = .ok (.int 0))
    (hindices : st.frame.Numbers env indices path) (t u w : Ty) :
    ∃ q, env.Assigns st a (.gep ptr (zero :: indices) t) (.pointer q) ∧
      (∀ d, env.Assigns (st.assign a (.pointer q)) b (.load (.temp a t) u) d ↔
        ∃ whole, env.Assigns st a (.load ptr w) whole ∧
          env.Assigns (st.assign a whole) b (.extractValue (.temp a w) path u) d) ∧
      ∀ v d, st.frame.value env v = .ok d → (∀ ty, v ≠ .temp a ty) →
        ((∃ st', env.step (st.assign a (.pointer q)) (.store v (.temp a t)) = .running st') ↔
          ∃ whole new, env.Assigns st a (.load ptr w) whole ∧
            env.Assigns (st.assign a whole) b (.insertValue (.temp a w) v path) new) ∧
        ∀ st' whole new,
          env.step (st.assign a (.pointer q)) (.store v (.temp a t)) = .running st' →
          env.Assigns st a (.load ptr w) whole →
          env.Assigns (st.assign a whole) b (.insertValue (.temp a w) v path) new →
          st'.store.memory.load p = .ok new := by
  have hsize (d : Datum) : b < (st.assign a d).frame.temps.size := by
    simpa [State.assign] using hb
  refine ⟨p.inside path, (assigns_iff ha).2 (Frame.compute_gep hptr hzero hindices _ t), ?_, ?_⟩
  . intro d
    simp only [assigns_iff ha, assigns_iff (hsize _), Frame.compute_load hptr,
      Frame.compute_load (value_assign ha _ _), Frame.compute_extractValue (value_assign ha _ _)]
    exact Memory.load_inside hp
  . intro v d hv hne
    have hv' (x : Datum) : (st.assign a x).frame.value env v = .ok d :=
      (value_assign_of_ne hne x).trans hv
    simp only [assigns_iff ha, assigns_iff (hsize _), Frame.compute_load hptr,
      step_store (hv' _) (value_assign ha _ _),
      Frame.compute_insertValue (value_assign ha _ _) (hv' _)]
    constructor
    . constructor
      . rintro ⟨-, m, hstore, -⟩
        obtain ⟨whole, new, hload, hinsert, -⟩ := (Memory.store_inside hp).1 hstore
        exact ⟨whole, new, hload, hinsert⟩
      . rintro ⟨whole, new, hload, hinsert⟩
        obtain ⟨m, hstore⟩ := Memory.exists_store_of_load hload new
        exact ⟨_, m, (Memory.store_inside hp).2 ⟨whole, new, hload, hinsert, hstore⟩, rfl⟩
    . rintro st' whole new ⟨m, hstore, rfl⟩ hload hinsert
      obtain ⟨whole', new', hload', hinsert', hstore'⟩ := (Memory.store_inside hp).1 hstore
      cases hload.symm.trans hload'
      cases hinsert.symm.trans hinsert'
      exact Memory.load_store hstore'

def pairState : State := Memory.trayState (.memory 1 [0])

theorem Env.pair_addresses_agree :
    ∃ q st', byteEnv.Assigns pairState 0
        (.gep (.temp 0 (.pointer .i32)) [.ofInt .i32 0, .ofInt .i32 1] (.pointer .i32)) (.pointer q) ∧
      byteEnv.Assigns (pairState.assign 0 (.pointer q)) 0 (.load (.temp 0 (.pointer .i32)) .i32)
        (.int 2) ∧
      byteEnv.step (pairState.assign 0 (.pointer q))
        (.store (.ofInt .i32 7) (.temp 0 (.pointer .i32))) = .running st' ∧
      st'.store.memory.load (.memory 1 [0]) = .ok (.aggregate [.int 1, .int 7]) := by
  have hindices : pairState.frame.Numbers byteEnv [.ofInt .i32 1] [1] := .cons ⟨by decide, rfl⟩ .nil
  obtain ⟨q, hgep, hload, hstore⟩ := @member_addresses_agree byteEnv pairState
    (.temp 0 (.pointer .i32)) (.ofInt .i32 0) _ (.memory 1 [0]) _ 0 0 (by decide) (by decide) rfl
    (by rintro _ ⟨⟩) rfl hindices (.pointer .i32) .i32 (.struct none [.i32, .i32] false)
  obtain ⟨hsome, hfound⟩ := hstore (.ofInt .i32 7) (.int 7) rfl (by rintro _ ⟨⟩)
  obtain ⟨st', hst'⟩ := hsome.2 ⟨_, _, rfl, rfl⟩
  exact ⟨q, st', hgep, (hload _).2 ⟨_, rfl, rfl⟩, hst', hfound st' _ _ hst' rfl rfl⟩

end ScriptedIR
