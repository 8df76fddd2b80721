import ScriptedIR.Proofs.Cells
import ScriptedIR.Proofs.Evaluation
import ScriptedIR.Proofs.Places

/-!
Structured code in the blocks of a function. The blocks realize code from a spot on if the machine does
there what evaluation of the code does: it comes to a spot where the evaluation goes on, it ends where
that stops, and as long as the evaluation runs out of fuel the machine does not end either.
-/

namespace ScriptedIR

namespace Env

variable {env : Env} {s t u : State} {k m n : Nat} {r r' : Except RunError Datum}
  {store store' : Store}

def Lasts (env : Env) (n : Nat) (s : State) : Prop := ∃ t, env.iterate n s = .running t

def Goes (env : Env) (n : Nat) (s t : State) : Prop := ∃ k, n ≤ k ∧ env.iterate k s = .running t

def Ends (env : Env) (s : State) (r : Except RunError Datum) (store : Store) : Prop :=
  ∃ n, env.iterate n s = .ended r store

theorem iterate_ended (h : env.iterate n s = .ended r store) (k : Nat) :
    env.iterate (n + k) s = .ended r store := by
  induction n generalizing s with
  | zero => cases h
  | succ n ih =>
    rw [Nat.succ_add]
    rw [iterate] at h ⊢
    cases hnext : env.next s with
    | ended r' store' =>
      rw [hnext] at h
      exact h
    | running t =>
      rw [hnext] at h
      exact ih h

theorem Lasts.mono (h : env.Lasts n s) (hm : m ≤ n) : env.Lasts m s := by
  obtain ⟨t, ht⟩ := h
  cases hs : env.iterate m s with
  | running u => exact ⟨u, hs⟩
  | ended r store =>
    have := iterate_ended hs (n - m)
    rw [Nat.add_sub_cancel' hm, ht] at this
    cases this

theorem Ends.not_lasts (h : env.Ends s r store) : ∃ n, ¬ env.Lasts n s := by
  obtain ⟨n, hn⟩ := h
  refine ⟨n, ?_⟩
  rintro ⟨t, ht⟩
  rw [hn] at ht
  cases ht

theorem Ends.unique (h : env.Ends s r store) (h' : env.Ends s r' store') :
    r = r' ∧ store = store' := by
  obtain ⟨n, hn⟩ := h
  obtain ⟨m, hm⟩ := h'
  have hn := iterate_ended hn m
  rw [Nat.add_comm, iterate_ended hm n] at hn
  cases hn
  exact ⟨rfl, rfl⟩

theorem Ends.of_next (h : env.next s = .ended r store) : env.Ends s r store :=
  ⟨1, by rw [iterate, h]⟩

namespace Goes

theorem refl (env : Env) (s : State) : env.Goes 0 s s := ⟨0, Nat.le_refl 0, rfl⟩

theorem of_next (h : env.next s = .running t) : env.Goes 1 s t :=
  ⟨1, Nat.le_refl 1, by rw [iterate_succ_of_running h, iterate]⟩

theorem mono (h : env.Goes n s t) (hm : m ≤ n) : env.Goes m s t := by
  obtain ⟨k, hk, hs⟩ := h
  exact ⟨k, Nat.le_trans hm hk, hs⟩

theorem trans (h : env.Goes n s t) (h' : env.Goes m t u) : env.Goes (n + m) s u := by
  obtain ⟨k, hk, hs⟩ := h
  obtain ⟨l, hl, ht⟩ := h'
  exact ⟨k + l, Nat.add_le_add hk hl, by rw [iterate_add hs, ht]⟩

theorem lasts (h : env.Goes n s t) (h' : env.Lasts m t) : env.Lasts (n + m) s := by
  obtain ⟨k, hk, hs⟩ := h
  obtain ⟨u, hu⟩ := h'
  have hlasts : env.Lasts (k + m) s := ⟨u, by rw [iterate_add hs, hu]⟩
  exact hlasts.mono (Nat.add_le_add_right hk m)

theorem ends (h : env.Goes n s t) (h' : env.Ends t r store) : env.Ends s r store := by
  obtain ⟨k, -, hs⟩ := h
  obtain ⟨m, hm⟩ := h'
  exact ⟨k + m, by rw [iterate_add hs, hm]⟩

end Goes

end Env

def Function.state (f : Function) (p : Spot) (frame : Frame) (store : Store) : State :=
  ⟨frame.place f p, [], store⟩

structure Goals where
  next : Spot → Prop
  leave : Spot → Prop := fun _ => False
  again : Spot → Prop := fun _ => False

/--
The machine does from a state on what an evaluation has come to. It takes at least `n` steps to the end
of the code, and goes on for `m` steps where the fuel was not enough.
-/
inductive Meets (env : Env) (f : Function) (n m : Nat) (G : Goals) (s : State) :
    Option Flow → Prop
  | lasts : env.Lasts m s → Meets env f n m G s none
  | next {p : Spot} {frame : Frame} {store : Store} : f.Suits frame → G.next p →
      env.Goes n s (f.state p frame store) → Meets env f n m G s (some (.next frame store))
  | leave {p : Spot} {frame : Frame} {store : Store} : f.Suits frame → G.leave p →
      env.Goes 1 s (f.state p frame store) → Meets env f n m G s (some (.leave frame store))
  | again {p : Spot} {frame : Frame} {store : Store} : f.Suits frame → G.again p →
      env.Goes 1 s (f.state p frame store) → Meets env f n m G s (some (.again frame store))
  | stop {r : Except RunError Datum} {store : Store} : env.Ends s r store →
      Meets env f n m G s (some (.stop r store))

/--
Code is realized from a spot on.
-/
def Realizes (env : Env) (f : Function) (p : Spot) (code : List Code) (n : Nat) (G : Goals) : Prop :=
  ∀ fuel frame store, f.Suits frame →
    Meets env f n fuel G (f.state p frame store) (Code.runAll env fuel code frame store)

namespace Meets

variable {env : Env} {f : Function} {j k l m n : Nat} {G G' : Goals} {s t : State}
  {flow : Option Flow}

theorem weaken (h : Meets env f n m G s flow) (hn : j ≤ n) (hm : k ≤ m) :
    Meets env f j k G s flow := by
  cases h with
  | lasts h => exact .lasts (h.mono hm)
  | next hsuits hp h => exact .next hsuits hp (h.mono hn)
  | leave hsuits hp h => exact .leave hsuits hp h
  | again hsuits hp h => exact .again hsuits hp h
  | stop h => exact .stop h

theorem mono (h : Meets env f n m G s flow) (hnext : ∀ p, G.next p → G'.next p)
    (hleave : ∀ p, G.leave p → G'.leave p) (hagain : ∀ p, G.again p → G'.again p) :
    Meets env f n m G' s flow := by
  cases h with
  | lasts h => exact .lasts h
  | next hsuits hp h => exact .next hsuits (hnext _ hp) h
  | leave hsuits hp h => exact .leave hsuits (hleave _ hp) h
  | again hsuits hp h => exact .again hsuits (hagain _ hp) h
  | stop h => exact .stop h

theorem after (h : Meets env f n m G t flow) (hs : env.Goes k s t) :
    Meets env f (k + n) (k + m) G s flow := by
  cases h with
  | lasts h => exact .lasts (hs.lasts h)
  | next hsuits hp h => exact .next hsuits hp (hs.trans h)
  | leave hsuits hp h => exact .leave hsuits hp ((hs.trans h).mono (Nat.le_add_left 1 k))
  | again hsuits hp h => exact .again hsuits hp ((hs.trans h).mono (Nat.le_add_left 1 k))
  | stop h => exact .stop (hs.ends h)

theorem andThen {N : Spot → Prop} {rest : Frame → Store → Option Flow}
    (h : Meets env f n m ⟨N, G.leave, G.again⟩ s flow)
    (hrest : ∀ {p frame store}, f.Suits frame → N p →
      Meets env f j l G (f.state p frame store) (rest frame store))
    (hm : k ≤ m) (hl : k ≤ n + l) : Meets env f (n + j) k G s (Flow.andThen flow rest) := by
  cases h with
  | lasts h => exact .lasts (h.mono hm)
  | next hsuits hp h => exact ((hrest hsuits hp).after h).weaken (Nat.le_refl _) hl
  | leave hsuits hp h => exact .leave hsuits hp h
  | again hsuits hp h => exact .again hsuits hp h
  | stop h => exact .stop h

theorem outside {L : Spot → Prop} (h : Meets env f n m ⟨G.next, G.next, G.again⟩ s flow) :
    Meets env f 0 m ⟨G.next, L, G.again⟩ s (flow.map Flow.outside) := by
  cases h with
  | lasts h => exact .lasts h
  | next hsuits hp h => exact .next hsuits hp (h.mono (Nat.zero_le n))
  | leave hsuits hp h => exact .next hsuits hp (h.mono (Nat.zero_le 1))
  | again hsuits hp h => exact .again hsuits hp h
  | stop h => exact .stop h

theorem towardsStep (h : Meets env f n m ⟨G.next, G.leave, G.next⟩ s flow) (hn : n ≤ 1) :
    Meets env f n m G s (flow.map Flow.towardsStep) := by
  cases h with
  | lasts h => exact .lasts h
  | next hsuits hp h => exact .next hsuits hp h
  | leave hsuits hp h => exact .leave hsuits hp h
  | again hsuits hp h => exact .next hsuits hp (h.mono hn)
  | stop h => exact .stop h

end Meets

theorem Code.runAll_append (env : Env) (fuel : Nat) (c d : List Code) (frame : Frame)
    (store : Store) :
    runAll env fuel (c ++ d) frame store =
      Flow.andThen (runAll env fuel c frame store) (runAll env fuel d) := by
  induction c generalizing frame store with
  | nil => rfl
  | cons a c ih =>
    rw [List.cons_append, runAll, runAll]
    cases a.run env fuel frame store with
    | none => rfl
    | some flow =>
      cases flow with
      | next frame store => exact ih frame store
      | leave | again | stop => rfl

theorem Code.runAll_singleton (env : Env) (fuel : Nat) (a : Code) (frame : Frame) (store : Store) :
    runAll env fuel [a] frame store = a.run env fuel frame store := by
  rw [runAll]
  cases a.run env fuel frame store with
  | none => rfl
  | some flow => cases flow <;> rfl

theorem Code.runAll_stored {env : Env} {fuel : Nat} {v slot : Value} {frame : Frame}
    {code code' : List Code}
    (h : ∀ store, frame.answer env store (.value v) = frame.answer env store (.held slot) →
      runAll env fuel code frame store = runAll env fuel code' frame store) (store : Store) :
    runAll env fuel (.plain (.store v slot) :: code) frame store =
      runAll env fuel (.plain (.store v slot) :: code') frame store := by
  rw [runAll, runAll, run]
  unfold Env.perform
  simp only [Env.step_store_eq]
  cases hv : frame.value env v with
  | error e => rfl
  | ok d =>
    cases hq : frame.value env slot with
    | error e => rfl
    | ok q =>
      cases hp : q.toPointer with
      | error e => simp [hp, bind, Except.bind, Env.proceed, Flow.andThen]
      | ok p =>
        cases hm : Memory.kept (store.memory.store p d) with
        | error e => simp [hp, hm, bind, Except.bind, Env.proceed, Flow.andThen]
        | ok memory =>
          -- only where the store succeeds does anything run behind it
          simp only [hp, hm, bind, Except.bind, pure, Except.pure, Env.proceed]
          rw [Env.untilBack_nil]
          apply h
          simp [Frame.answer, hv, hq, hp, bind, Except.bind, Memory.load_store (Memory.kept_eq_ok.1 hm)]

theorem Frame.value_set (env : Env) {frame t : Frame} {id : Temp} {d : Datum}
    (h : frame.set id d = .ok t) (ty : Ty) : t.value env (.temp id ty) = .ok d := by
  unfold Frame.set at h
  split at h
  . next hid =>
    cases h
    simp [Frame.value, hid]
  . cases h

theorem Code.runAll_fetch (env : Env) (fuel : Nat) (result : Temp) (slot : Value) (ty : Ty)
    (frame : Frame) (store : Store) :
    runAll env fuel [.fetch result slot] frame store =
      runAll env fuel [.plain (.define result (.load slot ty))] frame store := by
  rw [runAll_singleton, runAll_singleton, run, run]
  unfold Env.perform Frame.fetch
  simp only [Env.step, Frame.compute]
  cases hq : frame.value env slot with
  | error e => rfl
  | ok q =>
    cases hp : q.toPointer with
    | error e => simp [hp, bind, Except.bind]
    | ok p =>
      cases hd : store.memory.load p with
      | error e => simp [hp, hd, bind, Except.bind]
      | ok d =>
        cases hset : frame.set result d with
        | error e => simp [hp, hd, hset, bind, Except.bind, pure, Except.pure, Env.proceed]
        | ok frame' =>
          simp only [hp, hd, hset, bind, Except.bind, pure, Except.pure, Env.proceed]
          rw [Env.untilBack_nil]

theorem Code.runAll_keep (env : Env) (fuel : Nat) (slot : Temp) (v : Value) (frame : Frame)
    (store : Store) :
    runAll env fuel [.keep slot v] frame store =
      runAll env fuel [.plain (.define slot (.alloca v.ty none)),
        .plain (.store v (.temp slot (.pointer v.ty)))] frame store := by
  rw [runAll_singleton, run, runAll, run]
  unfold Env.perform Frame.keep
  simp only [Env.step, Frame.compute, Frame.count, bind, Except.bind, pure, Except.pure]
  generalize store.memory.allocate v.ty 1 = allocated
  obtain ⟨p, memory⟩ := allocated
  cases hset : frame.set slot (.pointer p) with
  | error e => rfl
  | ok frame' =>
    have hslot := Frame.value_set env hset (.pointer v.ty)
    simp only [Env.proceed]
    rw [Env.untilBack_nil, Flow.andThen, runAll_singleton, run]
    unfold Env.perform
    simp only [Env.step_store_eq, hslot, Datum.toPointer, bind, Except.bind, pure, Except.pure]
    cases frame'.value env v with
    | error e => rfl
    | ok d =>
      dsimp only
      cases Memory.kept (memory.store p d) with
      | error e => rfl
      | ok memory' =>
        simp only [Env.proceed]
        rw [Env.untilBack_nil]

section Rules

variable {env : Env} {f : Function} {p q : Spot} {code code' : List Code} {k m n n' : Nat}
  {G G' : Goals} {b id id' : BlockId} {rest : List Instruction} {i : Instruction}

def Leads (env : Env) (f : Function) (n : Nat) (p q : Spot) : Prop :=
  ∀ frame store, env.Goes n (f.state p frame store) (f.state q frame store)

theorem Leads.refl (env : Env) (f : Function) (p : Spot) : Leads env f 0 p p :=
  fun _ _ => .refl env _

theorem next_state (frame : Frame) (store : Store) :
    env.next (f.state ⟨b, i :: rest⟩ frame store) = env.step (f.state ⟨b, rest⟩ frame store) i := rfl

theorem leads_branch : Leads env f 1 ⟨b, .branch id :: rest⟩ (f.start id) := by
  intro frame store
  apply Env.Goes.of_next
  rw [next_state, Function.state, Function.state, ← Frame.jump_place (p := ⟨b, rest⟩)]
  rfl

section Branches

variable {frame : Frame} {condition : Value}

theorem next_branchIf (hsuits : f.Suits frame) {holds : Bool}
    (h : frame.holds env condition = .ok holds) (store : Store) :
    env.next (f.state ⟨b, .branchIf condition id id' :: rest⟩ frame store) =
      .running (f.state (f.start (if holds then id else id')) frame store) := by
  rw [next_state, Function.state, Function.state, ← Frame.jump_place (p := ⟨b, rest⟩)]
  unfold Frame.holds at h
  simp only [Env.step, Frame.value_place hsuits]
  cases hv : frame.value env condition with
  | error e =>
    rw [hv] at h
    cases h
  | ok d =>
    rw [hv] at h
    cases hc : d.toInt with
    | error e => simp [hc, bind, Except.bind] at h
    | ok c =>
      simp only [hc, bind, Except.bind, pure, Except.pure, Except.ok.injEq] at h
      simp only [hc, bind, Except.bind, pure, Except.pure, Env.proceed, ← h, decide_eq_true_eq]

theorem next_branchIf_error (hsuits : f.Suits frame) {e : RunError}
    (h : frame.holds env condition = .error e) (store : Store) :
    env.next (f.state ⟨b, .branchIf condition id id' :: rest⟩ frame store) =
      .ended (.error e) store := by
  rw [next_state, Function.state]
  unfold Frame.holds at h
  simp only [Env.step, Frame.value_place hsuits]
  cases hv : frame.value env condition with
  | error e =>
    rw [hv] at h
    cases h
    rfl
  | ok d =>
    rw [hv] at h
    cases hc : d.toInt with
    | error e =>
      simp only [hc, bind, Except.bind] at h ⊢
      cases h
      rfl
    | ok c => simp [hc, bind, Except.bind, pure, Except.pure] at h

end Branches

theorem untilBack_meets {L A : Spot → Prop} {s t : State} (h : s.Mirrors f p t) (fuel : Nat) :
    Meets env f 0 fuel ⟨(· = p), L, A⟩ t (env.untilBack fuel s) := by
  induction fuel generalizing s t with
  | zero =>
    cases h with
    | back hsuits => exact .next hsuits rfl (.refl env _)
    | waiting hsuits =>
      rw [Env.untilBack_zero (by simp)]
      exact .lasts ⟨_, rfl⟩
  | succ fuel ih =>
    cases h with
    | back hsuits => exact .next hsuits rfl (.refl env _)
    | @waiting top frame callers result store hsuits =>
      have hnext : Progress.Mirrors f p (env.next ⟨top, callers ++ [⟨frame, result⟩], store⟩)
          (env.next ⟨top, callers ++ [⟨frame.place f p, result⟩], store⟩) :=
        Env.next_mirrors hsuits top callers result store
      rw [Env.untilBack_succ (by simp)]
      generalize env.next _ = progress at hnext ⊢
      generalize ht : env.next _ = progress' at hnext
      cases hnext with
      | running h =>
        have hlater := (ih h).after (.of_next ht)
        exact hlater.weaken (Nat.zero_le _) (Nat.le_of_eq (Nat.add_comm fuel 1))
      | ended => exact .stop (.of_next ht)

theorem perform_meets {frame : Frame} (hsuits : f.Suits frame) (hi : i.isTerminator = false)
    {L A : Spot → Prop} (fuel : Nat) (store : Store) :
    Meets env f 1 fuel ⟨(· = ⟨b, rest⟩), L, A⟩ (f.state ⟨b, i :: rest⟩ frame store)
      (env.perform fuel i frame store) := by
  have hstep : Progress.Mirrors f ⟨b, rest⟩ (env.step ⟨frame, [], store⟩ i)
      (env.next (f.state ⟨b, i :: rest⟩ frame store)) := by
    rw [next_state]
    exact Env.step_place hsuits hi store
  unfold Env.perform
  generalize env.step _ i = progress at hstep ⊢
  generalize ht : env.next _ = progress' at hstep
  cases hstep with
  | running h =>
    exact ((untilBack_meets h fuel).after (.of_next ht)).weaken (Nat.le_refl _)
      (Nat.le_add_left fuel 1)
  | ended => exact .stop (.of_next ht)

namespace Realizes

theorem nil {L A : Spot → Prop} (env : Env) (f : Function) (p : Spot) :
    Realizes env f p [] 0 ⟨(· = p), L, A⟩ :=
  fun _ _ _ hsuits => .next hsuits rfl (.refl env _)

theorem weaken (h : Realizes env f p code n G) (hn : n' ≤ n) : Realizes env f p code n' G :=
  fun fuel frame store hsuits => (h fuel frame store hsuits).weaken hn (Nat.le_refl fuel)

theorem mono (h : Realizes env f p code n G) (hnext : ∀ p, G.next p → G'.next p)
    (hleave : ∀ p, G.leave p → G'.leave p) (hagain : ∀ p, G.again p → G'.again p) :
    Realizes env f p code n G' :=
  fun fuel frame store hsuits => (h fuel frame store hsuits).mono hnext hleave hagain

theorem after (h : Realizes env f q code n G) (hp : Leads env f k p q) :
    Realizes env f p code (k + n) G :=
  fun fuel frame store hsuits =>
    ((h fuel frame store hsuits).after (hp frame store)).weaken (Nat.le_refl _)
      (Nat.le_add_left fuel k)

theorem append {N : Spot → Prop} (h : Realizes env f p code n ⟨N, G.leave, G.again⟩)
    (h' : ∀ {q}, N q → Realizes env f q code' m G) (hk : k ≤ n + m) :
    Realizes env f p (code ++ code') k G := by
  intro fuel frame store hsuits
  rw [Code.runAll_append]
  refine Meets.weaken ?_ hk (Nat.le_refl fuel)
  exact (h fuel frame store hsuits).andThen
    (fun hsuits hq => h' hq fuel _ _ hsuits) (Nat.le_refl fuel) (Nat.le_add_left fuel n)

theorem leading {N L A : Spot → Prop} (h : Realizes env f p code n ⟨N, L, A⟩)
    (hq : ∀ {p}, N p → Leads env f k p q) : Realizes env f p code (n + k) ⟨(· = q), L, A⟩ := by
  rw [← List.append_nil code]
  exact append (G := ⟨(· = q), L, A⟩) h (fun hp => (nil env f q).after (hq hp)) (Nat.le_refl _)

theorem congr (h : Realizes env f p code n G)
    (heq : ∀ fuel frame store,
      Code.runAll env fuel code' frame store = Code.runAll env fuel code frame store) :
    Realizes env f p code' n G := by
  intro fuel frame store hsuits
  rw [heq]
  exact h fuel frame store hsuits

theorem plain {L A : Spot → Prop} (hi : i.isTerminator = false) :
    Realizes env f ⟨b, i :: rest⟩ [.plain i] 1 ⟨(· = ⟨b, rest⟩), L, A⟩ := by
  intro fuel frame store hsuits
  rw [Code.runAll_singleton, Code.run]
  exact perform_meets hsuits hi fuel store

theorem plains {L A : Spot → Prop} {is : List Instruction} (his : ∀ i ∈ is, i.isTerminator = false) :
    Realizes env f ⟨b, is ++ rest⟩ (is.map .plain) 0 ⟨(· = ⟨b, rest⟩), L, A⟩ := by
  induction is with
  | nil => exact nil env f _
  | cons i is ih =>
    rw [List.forall_mem_cons] at his
    have hfirst : Realizes env f ⟨b, i :: (is ++ rest)⟩ [.plain i] 0 ⟨(· = ⟨b, is ++ rest⟩), L, A⟩ :=
      (plain his.1).weaken (Nat.zero_le 1)
    refine append (G := ⟨(· = ⟨b, rest⟩), L, A⟩) (m := 0) hfirst ?_ (Nat.zero_le _)
    rintro _ rfl
    exact ih his.2

theorem unreachable : Realizes env f ⟨b, .unreachable :: rest⟩ [.plain .unreachable] n G := by
  intro fuel frame store hsuits
  rw [Code.runAll_singleton, Code.run]
  apply Meets.stop
  rw [hsuits.name]
  exact .of_next rfl

theorem ret_void : Realizes env f ⟨b, .ret none :: rest⟩ [.ret .void] n G :=
  fun _ _ _ _ => .stop (.of_next rfl)

theorem ret_value (v : Value) :
    Realizes env f ⟨b, .ret (some v) :: rest⟩ [.ret (.value v)] n G := by
  intro fuel frame store hsuits
  rw [Code.runAll_singleton, Code.run]
  apply Meets.stop
  apply Env.Ends.of_next
  rw [next_state]
  simp only [Function.state, Env.step, Frame.value_place hsuits, Frame.answer]
  cases frame.value env v <;> rfl

theorem ret_held {slot : Value} {ty ty' : Ty} {result : Temp} (hresult : result < f.nextTemp) :
    Realizes env f ⟨b, [.define result (.load slot ty), .ret (some (.temp result ty'))]⟩
      [.ret (.held slot)] n G := by
  intro fuel frame store hsuits
  rw [Code.runAll_singleton, Code.run]
  apply Meets.stop
  have hload : (frame.place f ⟨b, [.ret (some (.temp result ty'))]⟩).compute env store.memory
      (.load slot ty) = (frame.answer env store (.held slot)).map fun d => (d, store.memory) := by
    rw [Frame.compute_place hsuits]
    simp only [Frame.compute, Frame.answer]
    cases frame.value env slot with
    | error e => rfl
    | ok q =>
      cases hp : q.toPointer with
      | error e => simp [hp, bind, Except.bind, Except.map]
      | ok p =>
        cases hm : store.memory.load p with
        | error e => simp [hp, hm, bind, Except.bind, Except.map]
        | ok d => simp [hp, hm, bind, Except.bind, Except.map, pure, Except.pure]
  cases hanswer : frame.answer env store (.held slot) with
  | error e =>
    apply Env.Ends.of_next
    rw [next_state]
    simp only [Function.state, Env.step, hload, hanswer]
    rfl
  | ok d =>
    have hsize : result < frame.temps.size := Nat.lt_of_lt_of_le hresult hsuits.temps
    have hnext : env.next (f.state ⟨b, [.define result (.load slot ty),
        .ret (some (.temp result ty'))]⟩ frame store) =
        .running (f.state ⟨b, [.ret (some (.temp result ty'))]⟩
          { frame with temps := frame.temps.setIfInBounds result (some d) } store) := by
      have hset : frame.set result d =
          .ok { frame with temps := frame.temps.setIfInBounds result (some d) } := by
        rw [Frame.set, if_pos hsize]
      rw [next_state]
      simp only [Function.state, Env.step, hload, hanswer, Except.map, Frame.set_place, hset]
      rfl
    refine (Env.Goes.of_next hnext).ends (.of_next ?_)
    rw [next_state]
    simp [Function.state, Env.step, Frame.value, Frame.place, hsize, Env.leave]

theorem leave {N A : Spot → Prop} (hp : Leads env f 1 p q) :
    Realizes env f p [.leave] n ⟨N, (· = q), A⟩ :=
  fun _ frame store hsuits => .leave hsuits rfl (hp frame store)

theorem again {N L : Spot → Prop} (hp : Leads env f 1 p q) :
    Realizes env f p [.again] n ⟨N, L, (· = q)⟩ :=
  fun _ frame store hsuits => .again hsuits rfl (hp frame store)

theorem cond {condition : Value} (htrue : Realizes env f (f.start id) code n G)
    (hfalse : Realizes env f (f.start id') code' n G) :
    Realizes env f ⟨b, .branchIf condition id id' :: rest⟩ [.cond condition code code'] (1 + n) G := by
  intro fuel frame store hsuits
  rw [Code.runAll_singleton, Code.run]
  have hlater {holds : Bool} {flow : Option Flow} (hc : frame.holds env condition = .ok holds)
      (h : Meets env f n fuel G (f.state (f.start (if holds then id else id')) frame store) flow) :
      Meets env f (1 + n) fuel G
        (f.state ⟨b, .branchIf condition id id' :: rest⟩ frame store) flow :=
    (h.after (.of_next (next_branchIf hsuits hc store))).weaken (Nat.le_refl _)
      (Nat.le_add_left fuel 1)
  cases hc : frame.holds env condition with
  | error e => exact .stop (.of_next (next_branchIf_error hsuits hc store))
  | ok holds =>
    cases holds with
    | true => exact hlater hc (htrue fuel frame store hsuits)
    | false => exact hlater hc (hfalse fuel frame store hsuits)

theorem guard {A : Spot → Prop} {condition : Value} :
    Realizes env f ⟨b, .branchIf condition id id' :: rest⟩ [.cond condition [] [.leave]] 1
      ⟨(· = f.start id), (· = f.start id'), A⟩ := by
  intro fuel frame store hsuits
  rw [Code.runAll_singleton, Code.run]
  cases hc : frame.holds env condition with
  | error e => exact .stop (.of_next (next_branchIf_error hsuits hc store))
  | ok holds =>
    cases holds with
    | true => exact .next hsuits rfl (.of_next (next_branchIf hsuits hc store))
    | false => exact .leave hsuits rfl (.of_next (next_branchIf hsuits hc store))

section Loop

variable {head inc out : Spot} {turn step : List Code} {N L A : Spot → Prop} {fuel : Nat}

theorem steps_meets (hstep : Realizes env f inc step n ⟨N, L, (· = inc)⟩) (hk : k ≤ fuel)
    {frame : Frame} (hsuits : f.Suits frame) (store : Store) :
    Meets env f n k ⟨N, L, A⟩ (f.state inc frame store)
      (Flow.steps (Code.runAll env fuel step) k frame store) := by
  -- going on with the step takes the machine one step back to its start, as the fuel goes down
  induction k generalizing frame store with
  | zero => exact .lasts ⟨_, rfl⟩
  | succ k ih =>
    have h := hstep fuel frame store hsuits
    rw [Flow.steps]
    generalize Code.runAll env fuel step frame store = flow at h ⊢
    cases h with
    | lasts h => exact .lasts (h.mono hk)
    | next hsuits hp h => exact .next hsuits hp h
    | leave hsuits hp h => exact .leave hsuits hp h
    | stop h => exact .stop h
    | @again p _ _ hsuits hp h =>
      obtain rfl : p = inc := hp
      exact ((ih (Nat.le_of_succ_le hk) hsuits _).after h).weaken (Nat.le_add_left n 1)
        (Nat.le_of_eq (Nat.add_comm k 1))

theorem turns_meets (hturn : Realizes env f head turn n ⟨(· = inc), (· = out), (· = inc)⟩)
    (hstep : Realizes env f inc step n' ⟨(· = head), (· = out), (· = inc)⟩) (hle : n ≤ 1)
    (hpos : 1 ≤ n + n') (hk : k ≤ fuel) {frame : Frame} (hsuits : f.Suits frame) (store : Store) :
    Meets env f 0 k ⟨(· = out), (· = out), A⟩ (f.state head frame store)
      (Flow.turns (Code.runAll env fuel turn) (Flow.steps (Code.runAll env fuel step) fuel) k
        frame store) := by
  induction k generalizing frame store with
  | zero => exact .lasts ⟨_, rfl⟩
  | succ k ih =>
    -- a round takes at least one step, so that the rounds outlast the fuel if they do not end
    have hfirst := (hturn fuel frame store hsuits).towardsStep (G := ⟨(· = inc), (· = out), A⟩) hle
    refine Meets.weaken (n := n + (n' + 0)) (m := k + 1) ?_ (Nat.zero_le _) (Nat.le_refl _)
    refine hfirst.andThen (l := k + 1 - n) ?_ hk (by omega)
    rintro _ frame store hsuits rfl
    refine Meets.andThen (N := (· = head)) (steps_meets hstep (Nat.le_refl fuel) hsuits store) ?_
      (l := k) (by omega) (by omega)
    rintro _ frame store hsuits rfl
    exact ih (Nat.le_of_succ_le hk) hsuits store

theorem loop (hturn : Realizes env f head turn n ⟨(· = inc), (· = out), (· = inc)⟩)
    (hstep : Realizes env f inc step n' ⟨(· = head), (· = out), (· = inc)⟩) (hle : n ≤ 1)
    (hpos : 1 ≤ n + n') : Realizes env f head [.loop turn step] 0 ⟨(· = out), L, A⟩ := by
  intro fuel frame store hsuits
  rw [Code.runAll_singleton, Code.run]
  exact (turns_meets hturn hstep hle hpos (Nat.le_refl fuel) hsuits store).outside
    (G := ⟨(· = out), L, A⟩)

end Loop

end Realizes

end Rules

end ScriptedIR
