import ScriptedIR.Proofs.Cells

/-!
Lifetimes of allocations. An allocation is unborn until memory gives it out, then live, and dead once
it is freed. No other order is possible: nothing that memory is asked for brings a dead allocation back,
and only freeing ends the life of one.
-/

namespace ScriptedIR

namespace Memory

inductive Action where
  | allocate (ty : Ty) (count : Nat)
  | free (p : Pointer)
  | load (p : Pointer)
  | store (p : Pointer) (d : Datum)

def Action.target? : Action → Option Nat
  | .free (.memory a _) | .load (.memory a _) | .store (.memory a _) _ => some a
  | _ => none

inductive Answer where
  | place (p : Pointer)
  | datum (d : Datum)
  | done
  | failed (e : RunError)

def Answer.of : Except RunError Unit → Answer
  | .ok _ => done
  | .error e => failed e

def act (m : Memory) : Action → Answer × Memory
  | .allocate ty count => (.place (m.allocate ty count).1, (m.allocate ty count).2)
  | .free p => (.of (m.free p).1, (m.free p).2)
  | .load p =>
    match m.load p with
    | .ok d => (.datum d, m)
    | .error e => (.failed e, m)
  | .store p d => (.of (m.store p d).1, (m.store p d).2)

theorem act_of_failed {m m' : Memory} {x : Action} {e : RunError} (h : m.act x = (.failed e, m')) :
    m' = m := by
  cases x with
  | allocate => cases h
  | load p =>
    unfold act at h
    dsimp only at h
    split at h
    . cases h
    . cases h
      rfl
  | free p =>
    rcases hfree : m.free p with ⟨e' | _, m''⟩
    . simp only [act, hfree] at h
      cases h
      exact free_of_error hfree
    . simp only [act, hfree] at h
      cases h
  | store p d =>
    rcases hstore : m.store p d with ⟨e' | _, m''⟩
    . simp only [act, hstore] at h
      cases h
      exact store_of_error hstore
    . simp only [act, hstore] at h
      cases h

def actAll (m : Memory) : List Action → List Answer × Memory
  | [] => ([], m)
  | x :: xs => ((m.act x).1 :: ((m.act x).2.actAll xs).1, ((m.act x).2.actAll xs).2)

inductive Stage where
  | unborn
  | live
  | dead
deriving DecidableEq

def Stage.of : Option (Option (List Datum)) → Stage
  | none => unborn
  | some (some _) => live
  | some none => dead

def stage (m : Memory) (a : Nat) : Stage := .of m.allocations[a]?

variable {m m' : Memory} {a b : Nat} {path : List Int} {d : Datum}

theorem stage_unborn_iff : m.stage a = .unborn ↔ m.allocations.size ≤ a := by
  unfold stage
  rw [← Array.getElem?_eq_none_iff]
  rcases m.allocations[a]? with _ | _ | cells <;> simp [Stage.of]

theorem stage_live_iff : m.stage a = .live ↔ ∃ cells, m.allocations[a]? = some (some cells) := by
  unfold stage
  rcases m.allocations[a]? with _ | _ | cells <;> simp [Stage.of]

theorem isLive_iff : m.isLive a = true ↔ m.stage a = .live := by
  unfold isLive stage
  rcases m.allocations[a]? with _ | _ | cells <;> simp [Stage.of]

theorem getElem?_allocate (m : Memory) (ty : Ty) (count a : Nat) :
    (m.allocate ty count).2.allocations[a]? =
      if a = m.allocations.size then some (some (List.replicate count (Datum.zero ty)))
      else m.allocations[a]? :=
  Array.getElem?_push

theorem free_eq_ok_iff :
    m.free (.memory b path) = (.ok (), m') ↔
      m.stage b = .live ∧ m' = ⟨m.allocations.setIfInBounds b none⟩ := by
  unfold free stage
  dsimp only
  rcases m.allocations[b]? with _ | _ | cells
  . simp [Stage.of]
  . simp [Stage.of]
  . simp [Stage.of, eq_comm]

theorem stage_of_free_error {e : RunError} (h : m.free (.memory b path) = (.error e, m')) :
    m.stage b ≠ .live := by
  intro hlive
  rw [free_eq_ok_iff.2 ⟨hlive, rfl⟩] at h
  cases h

theorem of_store_eq_ok (h : m.store (.memory b path) d = (.ok (), m')) :
    m.stage b = .live ∧ ∃ cells, m' = ⟨m.allocations.setIfInBounds b (some cells)⟩ := by
  obtain ⟨cells, cells', hcells, -, rfl⟩ := store_eq_ok_iff.1 h
  exact ⟨stage_live_iff.2 ⟨cells, hcells⟩, cells', rfl⟩

theorem stage_set (h : m.stage b = .live) (cells : Option (List Datum)) (a : Nat) :
    stage ⟨m.allocations.setIfInBounds b cells⟩ a =
      if a = b then .of (some cells) else m.stage a := by
  obtain ⟨_, hb⟩ := stage_live_iff.1 h
  have hlt : b < m.allocations.size := (Array.getElem?_eq_some_iff.1 hb).1
  unfold stage
  split
  . next hab => simp [hab, hlt]
  . next hab => rw [Array.getElem?_setIfInBounds_ne (Ne.symm hab)]

theorem stage_act (m : Memory) (x : Action) (a : Nat) :
    (m.act x).2.stage a =
      match x with
      | .allocate _ _ => if a = m.allocations.size then .live else m.stage a
      | .free (.memory b _) => if a = b ∧ m.stage a = .live then .dead else m.stage a
      | _ => m.stage a := by
  cases x with
  | allocate ty count =>
    simp only [act, stage, getElem?_allocate]
    split <;> rfl
  | free p =>
    cases p with
    | null => rfl
    | memory b path =>
      simp only [act]
      rcases hfree : m.free (.memory b path) with ⟨e | _, m'⟩
      . have hdead : ¬ (a = b ∧ m.stage a = .live) := by
          rintro ⟨rfl, hlive⟩
          exact stage_of_free_error hfree hlive
        rw [if_neg hdead, free_of_error hfree]
      . obtain ⟨hlive, rfl⟩ := free_eq_ok_iff.1 hfree
        simp only [stage_set hlive]
        by_cases hab : a = b
        . simp [hab, hlive, Stage.of]
        . simp [hab]
  | load p =>
    simp only [act]
    cases m.load p <;> rfl
  | store p d =>
    simp only [act]
    rcases hstore : m.store p d with ⟨e | _, m'⟩
    . rw [store_of_error hstore]
    . cases p with
      | null => cases hstore
      | memory b path =>
        obtain ⟨hlive, cells, rfl⟩ := of_store_eq_ok hstore
        simp only [stage_set hlive]
        split
        . next hab => rw [hab, hlive, Stage.of]
        . rfl

theorem actAll_induction {I : Memory → Prop} (h : I m) (hstep : ∀ {m} x, I m → I (m.act x).2)
    (xs : List Action) : I (m.actAll xs).2 := by
  induction xs generalizing m with
  | nil => exact h
  | cons x xs ih => exact ih (hstep x h)

theorem stage_act_of_dead (h : m.stage a = .dead) (x : Action) : (m.act x).2.stage a = .dead := by
  rw [stage_act]
  split
  . split
    . next ha =>
      have hunborn : m.stage a = .unborn := stage_unborn_iff.2 (Nat.le_of_eq ha.symm)
      rw [h] at hunborn
      cases hunborn
    . exact h
  . simp [h]
  . exact h

theorem stage_actAll_of_dead (h : m.stage a = .dead) (xs : List Action) :
    (m.actAll xs).2.stage a = .dead :=
  actAll_induction (I := (stage · a = .dead)) h (fun x h => stage_act_of_dead h x) xs

theorem act_fails (h : m.stage a ≠ .live) {x : Action} (hx : x.target? = some a) :
    ∃ e, (m.act x).1 = .failed e := by
  have hrow (path : List Int) : ∃ e, m.row (.memory a path) = .error e := by
    unfold row
    dsimp only
    rcases ha : m.allocations[a]? with _ | _ | cells
    . exact ⟨_, rfl⟩
    . exact ⟨_, rfl⟩
    . exact absurd (stage_live_iff.2 ⟨cells, ha⟩) h
  unfold Action.target? at hx
  split at hx
  . cases hx
    next path =>
    simp only [act]
    rcases hfree : m.free (.memory a path) with ⟨e | _, m'⟩
    . exact ⟨e, rfl⟩
    . exact absurd (free_eq_ok_iff.1 hfree).1 h
  . cases hx
    next path =>
    obtain ⟨e, he⟩ := hrow path
    exact ⟨e, by simp [act, load, he]⟩
  . cases hx
    next path d =>
    obtain ⟨e, he⟩ := hrow path
    exact ⟨e, by simp [act, store, he, Answer.of]⟩
  . cases hx

theorem stage_act_of_born (h : m.stage a ≠ .unborn) (x : Action) :
    (m.act x).2.stage a ≠ .unborn := by
  rw [stage_act]
  split
  . split
    . simp
    . exact h
  . split
    . simp
    . exact h
  . exact h

theorem stage_actAll_of_born (h : m.stage a ≠ .unborn) (xs : List Action) :
    (m.actAll xs).2.stage a ≠ .unborn :=
  actAll_induction (I := (stage · a ≠ .unborn)) h (fun x h => stage_act_of_born h x) xs

theorem stage_of_place {x : Action} {p : Pointer} (h : (m.act x).1 = .place p) :
    (m.act x).2.stage p.alloc ≠ .unborn := by
  cases x with
  | allocate ty count =>
    cases h
    rw [stage_act]
    simp [allocate, Pointer.alloc]
  | free q =>
    simp only [act] at h
    cases hfree : (m.free q).1 <;> simp [hfree, Answer.of] at h
  | load q =>
    simp only [act] at h
    cases hload : m.load q <;> simp [hload] at h
  | store q d =>
    simp only [act] at h
    cases hstore : (m.store q d).1 <;> simp [hstore, Answer.of] at h

theorem stage_of_mem_places {xs : List Action} {p : Pointer} (h : .place p ∈ (m.actAll xs).1) :
    (m.actAll xs).2.stage p.alloc ≠ .unborn := by
  induction xs generalizing m with
  | nil => cases h
  | cons x xs ih =>
    rcases List.mem_cons.1 h with h | h
    . exact stage_actAll_of_born (stage_of_place h.symm) xs
    . exact ih h

theorem load_allocate_self (m : Memory) (ty : Ty) {count i : Nat} (h : i < count) :
    (m.allocate ty count).2.load (.memory m.allocations.size [i]) = .ok (.zero ty) := by
  have hrow : (m.allocate ty count).2.row (.memory m.allocations.size [i]) =
      .ok (List.replicate count (.zero ty)) := by
    simp [row, getElem?_allocate]
  simp [load, hrow, Pointer.path, Datum.follow, member?, h]

theorem free_done_iff (m : Memory) (a : Nat) (path : List Int) :
    (m.act (.free (.memory a path))).1 = .done ↔ m.stage a = .live := by
  simp only [act]
  rcases hfree : m.free (.memory a path) with ⟨e | _, m'⟩
  . simp [stage_of_free_error hfree, Answer.of]
  . simp [(free_eq_ok_iff.1 hfree).1, Answer.of]

theorem dies_iff_freed (h : m.stage a = .live) (x : Action) :
    (m.act x).2.stage a ≠ .live ↔ ∃ path, x = .free (.memory a path) := by
  rw [stage_act]
  split
  . split <;> simp [h]
  . next b path =>
    by_cases hab : a = b
    . simp [hab, hab ▸ h]
    . simp [hab, h, Ne.symm hab]
  . next _ hother =>
    rw [h]
    constructor
    . exact fun hne => absurd rfl hne
    . rintro ⟨path, rfl⟩
      exact absurd rfl (hother a path)

/--
Memory in any state is asked for one thing after the other, successfully or not. Then
- what fails changes nothing;
- an allocation that is freed stays dead: nothing that is done through a pointer into it succeeds,
  whatever else is done before;
- a live allocation can be freed, and it does not die otherwise;
- what is allocated next has a number that was not given out before. It is live and holds zeros, and
  all other allocations stay as they are.
-/
theorem actions_keep_lifetimes {start m : Memory} {before : List Action} {answers : List Answer}
    (h : start.actAll before = (answers, m)) :
    (∀ x e m', m.act x = (.failed e, m') → m' = m) ∧
    (∀ a path, (m.act (.free (.memory a path))).1 = .done →
      ∀ later x, x.target? = some a →
        ∃ e, (((m.act (.free (.memory a path))).2.actAll later).2.act x).1 = .failed e) ∧
    (∀ a, m.isLive a = true →
      (∀ path, (m.act (.free (.memory a path))).1 = .done) ∧
      ∀ x, (m.act x).2.isLive a = false ↔ ∃ path, x = .free (.memory a path)) ∧
    ∀ ty count, ∃ a m', m.act (.allocate ty count) = (.place (.memory a [0]), m') ∧
      (∀ p, .place p ∈ answers → p.alloc ≠ a) ∧ m'.isLive a = true ∧
      (∀ i : Nat, i < count → m'.load (.memory a [i]) = .ok (.zero ty)) ∧
      ∀ b, b ≠ a → m'.allocations[b]? = m.allocations[b]? := by
  refine ⟨fun x e m' => act_of_failed, ?_, ?_, ?_⟩
  . intro a path hdone later x hx
    have hlive := (free_done_iff m a path).1 hdone
    have hdead : (m.act (.free (.memory a path))).2.stage a = .dead := by
      rw [stage_act]
      simp [hlive]
    -- death is for good, whatever is done in between
    apply act_fails _ hx
    rw [stage_actAll_of_dead hdead later]
    decide
  . intro a hlive
    rw [isLive_iff] at hlive
    refine ⟨fun path => (free_done_iff m a path).2 hlive, fun x => ?_⟩
    rw [← dies_iff_freed hlive, Ne, ← isLive_iff, Bool.not_eq_true]
  . intro ty count
    refine ⟨m.allocations.size, (m.allocate ty count).2, rfl, ?_, ?_, ?_, ?_⟩
    . -- what was given out before is not unborn, and the next allocation is
      intro p hp hnew
      have hgiven : .place p ∈ (start.actAll before).1 := by rwa [h]
      have hborn := stage_of_mem_places hgiven
      rw [h] at hborn
      exact hborn (stage_unborn_iff.2 (Nat.le_of_eq hnew.symm))
    . rw [isLive_iff, stage_live_iff]
      exact ⟨_, (getElem?_allocate ..).trans (if_pos rfl)⟩
    . exact fun i hi => load_allocate_self m ty hi
    . exact fun b hb => (getElem?_allocate ..).trans (if_neg hb)

def busy : List Action :=
  [.allocate .i8 2, .allocate .i32 1, .free (.memory 0 [1]), .store (.memory 0 [0]) (.int 7),
    .store (.memory 9 [0]) (.int 7)]

theorem busy_keeps_lifetimes :
    ∃ answers m, ({} : Memory).actAll busy = (answers, m) ∧
      m.isLive 0 = false ∧ m.isLive 1 = true ∧
      (∀ x, (m.act x).2.isLive 1 = false ↔ ∃ path, x = .free (.memory 1 path)) ∧
      (∀ later path, ∃ e, (((m.act (.free (.memory 1 [0]))).2.actAll later).2.act
        (.load (.memory 1 path))).1 = .failed e) ∧
      ∃ m', m.act (.allocate .i16 3) = (.place (.memory 2 [0]), m') ∧
        m'.load (.memory 2 [2]) = .ok (.zero .i16) := by
  obtain ⟨-, hdead, hlive, hnew⟩ := actions_keep_lifetimes (rfl : ({} : Memory).actAll busy = _)
  obtain ⟨hfree, hdies⟩ := hlive 1 rfl
  obtain ⟨a, m', hplace, -, -, hzeros, -⟩ := hnew .i16 3
  refine ⟨_, _, rfl, rfl, rfl, hdies, ?_, m', ?_, ?_⟩
  . exact fun later path => hdead 1 [0] (hfree [0]) later (.load (.memory 1 path)) rfl
  . cases hplace
    rfl
  . cases hplace
    exact hzeros 2 (by decide)

end Memory

end ScriptedIR
