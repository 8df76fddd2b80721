import ScriptedIR.Proofs.Realization

/-!
Globals of a new machine. Each has an allocation of its own, the last one of a name is the one that
its name leads to, and that one holds its initial value when the machine is ready.
-/

namespace ScriptedIR

theorem Memory.load_store_of_ne {m m' : Memory} {p q : Pointer} {d : Datum}
    (h : m.store p d = (.ok (), m')) (hne : p.alloc ≠ q.alloc) : m'.load q = m.load q := by
  unfold store at h
  split at h
  . cases h
  . split at h
    . next cells _ =>
      cases h
      cases q with
      | null => rfl
      | memory alloc path =>
        have hrow : (m.allocations.setIfInBounds p.alloc (some cells))[alloc]? =
            m.allocations[alloc]? := Array.getElem?_setIfInBounds_ne hne
        simp only [load, row, hrow]
    . cases h

namespace Machine

def places (first : Nat) (globals : List Global) : List (String × Pointer) :=
  (globals.mapIdx fun i g => (g.name, .memory (first + i) [0])).reverse

theorem places_cons (first : Nat) (g : Global) (globals : List Global) :
    places first (g :: globals) = places (first + 1) globals ++ [(g.name, .memory first [0])] := by
  simp [places, List.mapIdx_cons, Nat.add_assoc, Nat.add_comm 1]

theorem placeGlobals_places (globals : List Global) (memory : Memory) :
    (placeGlobals globals memory).1 = places memory.allocations.size globals := by
  unfold placeGlobals
  -- The places found so far stay behind those to come.
  rw [← List.append_nil (places memory.allocations.size globals)]
  generalize ([] : List (String × Pointer)) = found
  induction globals generalizing memory found with
  | nil => rfl
  | cons g globals ih =>
    rw [List.foldl_cons, places_cons, List.append_assoc, List.singleton_append]
    refine (ih _ _).trans ?_
    simp

theorem lookup_places {g : Global} {back : List Global} (h : ∀ g' ∈ back, g'.name ≠ g.name)
    (first : Nat) (front : List Global) :
    (places first (front ++ g :: back)).lookup g.name =
      some (.memory (first + front.length) [0]) := by
  induction front generalizing first with
  | nil =>
    have hnone : (places (first + 1) back).lookup g.name = none := by
      rw [List.lookup_eq_none_iff]
      intro place hplace
      simp only [places, List.mem_reverse, List.mem_mapIdx] at hplace
      obtain ⟨i, hi, rfl⟩ := hplace
      simpa using Ne.symm (h back[i] (List.getElem_mem hi))
    rw [List.nil_append, places_cons, List.lookup_append, hnone]
    simp
  | cons g' front ih =>
    rw [List.cons_append, places_cons, List.lookup_append, ih]
    simp only [List.length_cons, Option.some_or]
    congr 2
    omega

theorem alloc_injective_of_lookup_places {first : Nat} {globals : List Global} {n n' : String}
    {p p' : Pointer} (h : (places first globals).lookup n = some p)
    (h' : (places first globals).lookup n' = some p') (hne : n ≠ n') : p.alloc ≠ p'.alloc := by
  have hmem {n : String} {p : Pointer} (h : (places first globals).lookup n = some p) :
      ∃ i, ∃ hi : i < globals.length, globals[i].name = n ∧ p.alloc = first + i := by
    obtain ⟨_, _, heq, -⟩ := List.lookup_eq_some_iff.1 h
    have hplace : (n, p) ∈ places first globals := by
      rw [heq]
      simp
    simp only [places, List.mem_reverse, List.mem_mapIdx, Prod.mk.injEq] at hplace
    obtain ⟨i, hi, hname, rfl⟩ := hplace
    exact ⟨i, hi, hname, rfl⟩
  obtain ⟨i, hi, hname, halloc⟩ := hmem h
  obtain ⟨j, hj, hname', halloc'⟩ := hmem h'
  intro heq
  have hij : i = j := by omega
  subst hij
  exact hne (hname.symm.trans hname')

section Initialized

variable {env : Env} {m m' : Memory} {g : Global} {p : Pointer}

theorem globalPointer_of_lookup {n : String} (h : env.globals.lookup n = some p) :
    env.globalPointer n = .ok p := by
  unfold Env.globalPointer
  rw [h]

theorem initialized_ok {c : Constant} (h : env.initialized m g = .ok m')
    (hc : g.initializer = some c) (hp : env.globals.lookup g.name = some p) :
    ∃ d, env.constant c = .ok d ∧ m.store p d = (.ok (), m') := by
  unfold Env.initialized at h
  simp only [hc, globalPointer_of_lookup hp, bind, Except.bind] at h
  split at h
  . cases h
  . next d hd => exact ⟨d, hd, Memory.kept_eq_ok.1 h⟩

theorem load_initialized (h : env.initialized m g = .ok m')
    (hne : ∀ q, env.globals.lookup g.name = some q → q.alloc ≠ p.alloc) :
    m'.load p = m.load p := by
  cases hc : g.initializer with
  | none =>
    simp only [Env.initialized, hc] at h
    cases h
    rfl
  | some c =>
    cases hq : env.globals.lookup g.name with
    | none =>
      simp only [Env.initialized, hc, Env.globalPointer, hq, bind, Except.bind] at h
      split at h <;> cases h
    | some q =>
      obtain ⟨d, -, hstore⟩ := initialized_ok h hc hq
      exact Memory.load_store_of_ne hstore (hne q hq)

theorem load_foldlM_initialized {globals : List Global}
    (h : globals.foldlM env.initialized m = .ok m')
    (hne : ∀ g ∈ globals, ∀ q, env.globals.lookup g.name = some q → q.alloc ≠ p.alloc) :
    m'.load p = m.load p := by
  induction globals generalizing m with
  | nil =>
    cases h
    rfl
  | cons g globals ih =>
    rw [List.forall_mem_cons] at hne
    rw [List.foldlM_cons] at h
    cases hg : env.initialized m g with
    | error e =>
      rw [hg] at h
      cases h
    | ok m'' =>
      rw [hg] at h
      rw [ih h hne.2, load_initialized hg hne.1]

end Initialized

/--
A new machine finds a global under its name, if it is the last one that has it, and there its
initial value.
-/
theorem create_initializes {module : Module} {limits : Limits} {machine : Machine}
    (h : create module limits = .ok machine) {front back : List Global} {g : Global}
    (hglobals : module.globals = front ++ g :: back) (hlast : ∀ g' ∈ back, g'.name ≠ g.name)
    {c : Constant} (hc : g.initializer = some c) :
    machine.env.globalPointer g.name = .ok (.memory front.length [0]) ∧
      ∃ d, machine.env.constant c = .ok d ∧
        machine.store.memory.load (.memory front.length [0]) = .ok d := by
  have hplaces : (placeGlobals module.globals {}).1 = places 0 (front ++ g :: back) := by
    rw [placeGlobals_places, hglobals]
    rfl
  have hp := lookup_places hlast 0 front
  rw [Nat.zero_add] at hp
  unfold create at h
  cases hplaced : placeGlobals module.globals {} with | mk globals memory
  rw [hplaced] at h hplaces
  simp only at hplaces
  subst hplaces
  simp only [hglobals, bind_eq_ok_iff] at h
  obtain ⟨memory', hinit, h⟩ := h
  cases h
  refine ⟨globalPointer_of_lookup hp, ?_⟩
  -- Up to the global nothing matters; behind it every name leads elsewhere.
  rw [List.foldlM_append] at hinit
  obtain ⟨before, -, hinit⟩ := bind_eq_ok_iff.1 hinit
  rw [List.foldlM_cons] at hinit
  obtain ⟨stored, hstored, hinit⟩ := bind_eq_ok_iff.1 hinit
  obtain ⟨d, hd, hstore⟩ := initialized_ok hstored hc hp
  refine ⟨d, hd, ?_⟩
  rw [load_foldlM_initialized hinit]
  . exact Memory.load_store hstore
  . intro g' hg' q hq
    exact alloc_injective_of_lookup_places hq hp (hlast g' hg')

end Machine

end ScriptedIR
