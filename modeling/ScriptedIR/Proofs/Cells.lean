import ScriptedIR.Run.Machine

/-!
Laws of loads and stores. A store changes the cell at the end of its path and nothing beside it: it
succeeds where a load does, the load then gives what was stored, and cells that are reached through
another allocation or along a path that parts from this one hold what they held before.
-/

namespace ScriptedIR

section Rows

variable {row : List α} {i j : Int} {a b : α}

theorem member?_set_self (h : member? row i = some b) : member? (row.set i.toNat a) i = some a := by
  obtain ⟨hpos, hlt⟩ := lt_length_of_member? h
  have hlt : i.toNat < row.length := by omega
  simp [member?, hpos, hlt]

theorem member?_set_ne (h : member? row i = some b) (hne : i ≠ j) :
    member? (row.set i.toNat a) j = member? row j := by
  obtain ⟨hpos, -⟩ := lt_length_of_member? h
  unfold member?
  split
  . have hne : i.toNat ≠ j.toNat := by omega
    rw [List.getElem?_set_ne hne]
  . rfl

end Rows

namespace Datum

variable {row row' : List Datum} {d : Datum} {path other : List Int}

theorem follow_congr {i : Int} (h : member? row i = member? row' i) (rest : List Int) :
    follow row (i :: rest) = follow row' (i :: rest) := by
  cases rest <;> simp only [follow, h]

theorem replace_eq_error_iff {fault : PathFault} :
    replace row d path = .error fault ↔ follow row path = .error fault := by
  fun_induction follow row path with
  | case1 => simp [replace]
  | case2 row i hi => simp [replace, hi]
  | case3 row i d' hi => simp [replace, hi]
  | case4 row i j rest hi => simp [replace, hi]
  | case5 row i j rest members hi ih =>
    rw [← ih]
    simp only [replace, hi]
    cases replace members d (j :: rest) <;> simp
  | case6 row i j rest d' hscalar hi => simp [replace, hi]

theorem follow_replace (h : replace row d path = .ok row') : follow row' path = .ok d := by
  fun_induction replace row d path generalizing row' with
  | case1 | case2 | case4 | case6 | case7 => cases h
  | case3 row i d' hi =>
    cases h
    simp only [follow, member?_set_self hi]
  | case5 row i j rest members hi members' hmembers ih =>
    cases h
    simp only [follow, member?_set_self hi]
    exact ih hmembers

theorem follow_replace_apart (h : replace row d path = .ok row') (hpath : ¬ path <+: other)
    (hother : ¬ other <+: path) : follow row' other = follow row other := by
  fun_induction replace row d path generalizing row' other with
  | case1 | case2 | case4 | case6 | case7 => cases h
  | case3 row i d' hi =>
    cases h
    cases other with
    | nil => exact absurd List.nil_prefix hother
    | cons k other =>
      have hne : i ≠ k := by
        rintro rfl
        simp at hpath
      exact follow_congr (member?_set_ne hi hne) other
  | case5 row i j rest members hi members' hmembers ih =>
    cases h
    cases other with
    | nil => exact absurd List.nil_prefix hother
    | cons k other =>
      by_cases hne : i = k
      . -- the paths share their first step, so they part inside of the member
        subst hne
        rw [List.cons_prefix_cons] at hpath hother
        cases other with
        | nil => simp at hother
        | cons l other =>
          simp only [follow, member?_set_self hi, hi]
          exact ih hmembers (fun hprefix => hpath ⟨rfl, hprefix⟩) (fun hprefix => hother ⟨rfl, hprefix⟩)
      . exact follow_congr (member?_set_ne hi hne) other

end Datum

/--
Pointers into different allocations, or with paths that part somewhere on the way. A null pointer leads
into no allocation.
-/
def Pointer.Apart : Pointer → Pointer → Prop
  | .memory a path, .memory b other => a ≠ b ∨ ¬ path <+: other ∧ ¬ other <+: path
  | _, _ => True

namespace Memory

variable {m m' : Memory} {alloc : Nat} {path : List Int} {p q : Pointer} {d : Datum}

theorem load_eq_ok_iff :
    m.load (.memory alloc path) = .ok d ↔
      ∃ cells, m.allocations[alloc]? = some (some cells) ∧ Datum.follow cells path = .ok d := by
  simp only [load, row, Pointer.path]
  rcases m.allocations[alloc]? with _ | _ | cells
  . simp
  . simp
  . cases hfollow : Datum.follow cells path <;> simp [hfollow]

theorem store_eq_ok_iff :
    m.store (.memory alloc path) d = (.ok (), m') ↔
      ∃ cells cells', m.allocations[alloc]? = some (some cells) ∧
        Datum.replace cells d path = .ok cells' ∧
        m' = ⟨m.allocations.setIfInBounds alloc (some cells')⟩ := by
  simp only [store, row, Pointer.path, Pointer.alloc]
  rcases m.allocations[alloc]? with _ | _ | cells
  . simp
  . simp
  . cases hreplace : Datum.replace cells d path <;> simp [hreplace, eq_comm]

theorem store_eq_error_iff {e : RunError} :
    m.store p d = (.error e, m') ↔ m.load p = .error e ∧ m' = m := by
  unfold store load
  cases m.row p with
  | error e' => simp [eq_comm]
  | ok cells =>
    dsimp only
    cases hreplace : Datum.replace cells d p.path with
    | error fault => simp [Datum.replace_eq_error_iff.1 hreplace, eq_comm]
    | ok cells' =>
      cases hfollow : Datum.follow cells p.path with
      | error fault =>
        rw [Datum.replace_eq_error_iff.2 hfollow] at hreplace
        cases hreplace
      | ok d' => simp

theorem load_store (h : m.store p d = (.ok (), m')) : m'.load p = .ok d := by
  cases p with
  | null => cases h
  | memory alloc path =>
    obtain ⟨cells, cells', hcells, hreplace, rfl⟩ := store_eq_ok_iff.1 h
    have hlt : alloc < m.allocations.size := (Array.getElem?_eq_some_iff.1 hcells).1
    refine load_eq_ok_iff.2 ⟨cells', ?_, Datum.follow_replace hreplace⟩
    simp [hlt]

theorem load_store_apart (h : m.store p d = (.ok (), m')) (hapart : p.Apart q) :
    m'.load q = m.load q := by
  cases p with
  | null => cases h
  | memory a path =>
    cases q with
    | null => rfl
    | memory b other =>
      obtain ⟨cells, cells', hcells, hreplace, rfl⟩ := store_eq_ok_iff.1 h
      by_cases hab : a = b
      . subst hab
        have hlt : a < m.allocations.size := (Array.getElem?_eq_some_iff.1 hcells).1
        have hcells' : (m.allocations.setIfInBounds a (some cells'))[a]? = some (some cells') := by
          simp [hlt]
        have hpaths := hapart.resolve_left fun hne => hne rfl
        have hfollow := Datum.follow_replace_apart hreplace hpaths.1 hpaths.2
        simp only [load, row, Pointer.path, hcells, hcells', hfollow]
      . simp only [load, row, Pointer.path, Array.getElem?_setIfInBounds_ne hab]

/--
Loads and stores go together. A store succeeds exactly if a load does, and fails with the same error
otherwise, with the memory as it was, and the machine stops there. After a store the load gives what was
stored, and what is loaded through any pointer apart from this one is what it was before, be it a
datum or an error.
-/
theorem stores_lawful (m : Memory) (p : Pointer) (d : Datum) :
    ((∃ m', m.store p d = (.ok (), m')) ↔ ∃ old, m.load p = .ok old) ∧
    (∀ e m', m.store p d = (.error e, m') ↔ m.load p = .error e ∧ m' = m) ∧
    (∀ (env : Env) (st : State) (v ptr : Value) (e : RunError), st.store.memory = m →
      st.frame.value env v = .ok d → st.frame.value env ptr = .ok (.pointer p) →
      (m.store p d).1 = .error e → env.step st (.store v ptr) = .ended (.error e) st.store) ∧
    ∀ m', m.store p d = (.ok (), m') →
      m'.load p = .ok d ∧ ∀ q, p.Apart q → m'.load q = m.load q := by
  refine ⟨?_, fun e m' => store_eq_error_iff, ?_, fun m' h => ⟨load_store h, fun q => load_store_apart h⟩⟩
  . constructor
    . rintro ⟨m', h⟩
      cases hload : m.load p with
      | ok old => exact ⟨old, rfl⟩
      | error e =>
        rw [store_eq_error_iff.2 ⟨hload, rfl⟩] at h
        cases h
    . rintro ⟨old, h⟩
      rcases hstore : m.store p d with ⟨e | _, m'⟩
      . rw [(store_eq_error_iff.1 hstore).1] at h
        cases h
      . exact ⟨m', rfl⟩
  . rintro env st v ptr e rfl hv hptr hstore
    rw [Env.step_store_eq, hv, hptr]
    rcases hrun : st.store.memory.store p d with ⟨e' | _, m'⟩
    . rw [hrun] at hstore
      cases hstore
      simp only [Datum.toPointer, bind, Except.bind, hrun, Memory.kept, Env.proceed]
    . rw [hrun] at hstore
      cases hstore

def tray : Memory := ⟨#[none, some [.aggregate [.int 1, .int 2], .int 3]]⟩

def trayState (p : Pointer) : State :=
  { frame := .enter
      { name := "f", result := .void, params := [.pointer .i32], variadic := false } [.pointer p]
    callers := []
    store := { memory := tray } }

theorem tray_lawful :
    ∃ m', tray.store (.memory 1 [0, 1]) (.int 7) = (.ok (), m') ∧
      m'.load (.memory 1 [0, 1]) = .ok (.int 7) ∧ m'.load (.memory 1 [0, 0]) = .ok (.int 1) ∧
      m'.load (.memory 1 [1, 0]) = .error (.invalidPointer (.intoScalar (.memory 1 [1, 0]))) ∧
      m'.load (.memory 0 [0]) = .error (.invalidPointer (.freed (.memory 0 [0]))) ∧
      Env.step { module := { name := "m" } } (trayState (.memory 0 [0]))
          (.store (.const (.int .i32 7)) (.temp 0 (.pointer .i32))) =
        .ended (.error (.invalidPointer (.freed (.memory 0 [0])))) { memory := tray } := by
  obtain ⟨hsome, -, -, hlaws⟩ := stores_lawful tray (.memory 1 [0, 1]) (.int 7)
  obtain ⟨-, -, hstop, -⟩ := stores_lawful tray (.memory 0 [0]) (.int 7)
  obtain ⟨m', hstore⟩ := hsome.2 ⟨.int 2, rfl⟩
  obtain ⟨hload, hapart⟩ := hlaws m' hstore
  exact ⟨m', hstore, hload, hapart (.memory 1 [0, 0]) (.inr (by decide)),
    hapart (.memory 1 [1, 0]) (.inr (by decide)), hapart (.memory 0 [0]) (.inl (by decide)),
    hstop _ (trayState (.memory 0 [0])) _ _ _ rfl rfl rfl rfl⟩

end Memory

end ScriptedIR
