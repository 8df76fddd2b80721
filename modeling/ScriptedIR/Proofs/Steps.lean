import ScriptedIR.Proofs.Faults

/-!
Runs step by step. `Env.next` is one step of the machine, `Env.iterate` a number of them, and
`Moves` says everything that a step can do to the frames of a state. Invariants of runs are shown
for `Moves` and carried over whole runs by `Reaches.invariant`.
-/

namespace ScriptedIR

def RunError.isOfRun : RunError → Bool
  | missingTerminator .. | stepLimit _ => true
  | _ => false

def RunError.isOfInstruction : RunError → Bool
  | unreachable _ => true
  | e => e.isOfData

/--
What a step does to the frames: it stays in its block, enters a function, goes back to a caller, or
jumps to another block.
-/
inductive Moves (env : Env) (s : State) (i : Instruction) : State → Prop where
  | stay (temps : Array (Option Datum)) (store : Store) (plain : i.isTerminator = false)
      (size : temps.size = s.frame.temps.size) :
      Moves env s i { s with frame := { s.frame with temps }, store }
  | enter (name : String) (f : Function) (args : List Datum) (result : Option Temp)
      (plain : i.isTerminator = false) (found : env.module.function? name = some f)
      (defined : f.isDeclaration = false) (room : s.callers.length + 1 < env.limits.depth) :
      Moves env s i
        { s with frame := .enter f args, callers := ⟨s.frame, result⟩ :: s.callers }
  | back (caller : Caller) (callers : List Caller) (temps : Array (Option Datum))
      (waiting : s.callers = caller :: callers) (size : temps.size = caller.frame.temps.size) :
      Moves env s i { s with frame := { caller.frame with temps }, callers }
  | jump (target : BlockId) (leads : target ∈ i.successors) :
      Moves env s i { s with frame := s.frame.jump target }

theorem Frame.set_ok {frame t : Frame} {id : Temp} {d : Datum} (h : frame.set id d = .ok t) :
    ∃ temps, t = { frame with temps } ∧ temps.size = frame.temps.size := by
  unfold set at h
  split at h
  . cases h
    exact ⟨_, rfl, by simp⟩
  . cases h

namespace Env

theorem resume_running {frame : Frame} {result : Option Temp} {d : Datum} {callers : List Caller}
    {store : Store} {t : State} (h : resume frame result d callers store = .running t) :
    ∃ temps, t = ⟨{ frame with temps }, callers, store⟩ ∧ temps.size = frame.temps.size := by
  unfold resume at h
  split at h
  . cases h
    exact ⟨frame.temps, rfl, rfl⟩
  . split at h
    . next hset =>
      cases h
      obtain ⟨temps, rfl, hsize⟩ := Frame.set_ok hset
      exact ⟨temps, rfl, hsize⟩
    . cases h

theorem resume_ended {frame : Frame} {result : Option Temp} {d : Datum} {callers : List Caller}
    {store store' : Store} {r : Except RunError Datum}
    (h : resume frame result d callers store = .ended r store') : ∃ e, r = .error e ∧ e.isOfData := by
  unfold resume at h
  split at h
  . cases h
  . split at h
    . cases h
    . next e hset =>
      cases h
      exact ⟨e, rfl, Frame.set_dataFaults _ _ _ e hset⟩

inductive Dispatches (env : Env) (hosts : List (String × α)) (depth : Nat) (name : String)
    (args : List Datum) : Dispatch α → Prop
  | refused (e : RunError) (data : e.isOfData = false) (run : e.isOfRun = false)
      (whole : ∀ cause, e ≠ .breakdown cause) : Dispatches env hosts depth name args (.refused e)
  | host (host : α) (found : hosts.lookup name = some host) :
      Dispatches env hosts depth name args (.host host)
  | broken (f : Function) (found : env.module.function? name = some f)
      (defined : f.isDeclaration = false) (few : f.nextTemp < f.params.length) :
      Dispatches env hosts depth name args (.broken (.slots f.nextTemp))
  | frame (f : Function) (found : env.module.function? name = some f)
      (defined : f.isDeclaration = false) (room : depth < env.limits.depth) :
      Dispatches env hosts depth name args (.frame (.enter f args))

theorem dispatches (env : Env) (hosts : List (String × α)) (depth : Nat) (name : String)
    (args : List Datum) :
    Dispatches env hosts depth name args (env.dispatchTo hosts depth name args) := by
  have refuse {e : RunError} (hdata : e.isOfData = false) (hrun : e.isOfRun = false)
      (hwhole : ∀ cause, e ≠ .breakdown cause) : Dispatches env hosts depth name args (.refused e) :=
    .refused e hdata hrun hwhole
  unfold dispatchTo
  split
  . exact refuse rfl rfl (by simp)
  . next f hf =>
    dsimp only
    by_cases hfits :
      if f.variadic then f.params.length ≤ args.length else args.length = f.params.length
    . rw [if_neg (not_not_intro hfits)]
      split
      . split
        . next host hlookup => exact .host host hlookup
        . exact refuse rfl rfl (by simp)
      . next hdefined =>
        split
        . exact refuse rfl rfl (by simp)
        . next hroom =>
          split
          . next hfew => exact .broken f hf (by simpa using hdefined) hfew
          . exact .frame f hf (by simpa using hdefined) (by omega)
    . rw [if_pos hfits]
      exact refuse rfl rfl (by simp)

theorem dispatch_frame {env : Env} {depth : Nat} {name : String} {args : List Datum} {frame : Frame}
    (h : env.dispatch depth name args = .frame frame) :
    ∃ f, env.module.function? name = some f ∧ f.isDeclaration = false ∧ depth < env.limits.depth ∧
      frame = .enter f args := by
  have hcase := env.dispatches env.hosts depth name args
  rw [show env.dispatchTo env.hosts depth name args = _ from h] at hcase
  cases hcase with
  | frame f found defined room => exact ⟨f, found, defined, room, rfl⟩

theorem dispatch_refused {env : Env} {depth : Nat} {name : String} {args : List Datum} {e : RunError}
    (h : env.dispatch depth name args = .refused e) : e.isOfRun = false := by
  have hcase := env.dispatches env.hosts depth name args
  rw [show env.dispatchTo env.hosts depth name args = _ from h] at hcase
  cases hcase with
  | refused e data run whole => exact run

theorem dispatch_host {env : Env} {depth : Nat} {name : String} {args : List Datum}
    {host : HostFunction} (h : env.dispatch depth name args = .host host) :
    env.hosts.lookup name = some host := by
  have hcase := env.dispatches env.hosts depth name args
  rw [show env.dispatchTo env.hosts depth name args = _ from h] at hcase
  cases hcase with
  | host host found => exact found

theorem invoke_running {env : Env} {s t : State} {result : Option Temp} {callee : Value}
    {args : List Value} {ty : Ty} (h : env.invoke s result callee args = .running t) :
    Moves env s (.call result callee args ty) t := by
  unfold invoke at h
  dsimp only at h
  split at h
  . cases h
  . split at h
    . cases h
    . split at h
      . obtain ⟨temps, rfl, hsize⟩ := resume_running h
        exact .stay temps _ rfl hsize
      . cases h
    . cases h
    . next hdispatch =>
      cases h
      obtain ⟨f, hf, hdefined, hroom, rfl⟩ := dispatch_frame hdispatch
      exact .enter _ f _ result rfl hf hdefined hroom

theorem leave_running {env : Env} {s t : State} {i : Instruction} {d : Datum}
    (h : leave s d = .running t) : Moves env s i t := by
  unfold leave at h
  split at h
  . cases h
  . next caller callers hcallers =>
    obtain ⟨temps, rfl, hsize⟩ := resume_running h
    exact .back caller callers temps hcallers hsize

theorem proceed_running {store : Store} {x : Except RunError State} {t : State}
    (h : proceed store x = .running t) : x = .ok t := by
  cases x with
  | ok s =>
    cases h
    rfl
  | error e => cases h

theorem operate_running {s t : State}
    {operation : Except RunError (Memory → Except RunError Unit × Memory)}
    (h : operate s operation = .running t) :
    ∃ memory, t = { s with store := { s.store with memory } } := by
  unfold operate at h
  split at h
  . cases h
  . split at h
    . cases h
      exact ⟨_, rfl⟩
    . cases h

theorem step_running {env : Env} {s t : State} {i : Instruction} (h : env.step s i = .running t) :
    Moves env s i t := by
  obtain ⟨frame, callers, store⟩ := s
  cases i with
  | define id rhs =>
    simp only [step] at h
    split at h
    . cases h
    . next d memory _ =>
      have h := proceed_running h
      cases hset : frame.set id d with
      | error e => simp [hset, bind, Except.bind] at h
      | ok frame' =>
        rw [hset] at h
        cases h
        obtain ⟨temps, rfl, hsize⟩ := Frame.set_ok hset
        exact .stay temps { store with memory } rfl hsize
  | call result callee args ty => exact invoke_running h
  | free | store =>
    obtain ⟨memory, rfl⟩ := operate_running h
    exact .stay frame.temps { store with memory } rfl rfl
  | ret v =>
    cases v with
    | none => exact leave_running h
    | some v =>
      simp only [step] at h
      split at h
      . exact leave_running h
      . cases h
  | branch target =>
    cases h
    exact .jump target (by simp [Instruction.successors])
  | branchIf condition ifTrue ifFalse =>
    have h := proceed_running h
    cases hv : frame.value env condition with
    | error e => simp [hv, bind, Except.bind] at h
    | ok d =>
      cases hc : d.toInt with
      | error e => simp [hv, hc, bind, Except.bind] at h
      | ok c =>
        simp only [hv, hc, bind, Except.bind, pure, Except.pure, Except.ok.injEq] at h
        subst h
        refine .jump _ ?_
        simp only [Instruction.successors]
        split <;> simp
  | unreachable => cases h
  | comment text =>
    cases h
    exact .stay frame.temps store rfl rfl

def HostFault (env : Env) (e : RunError) : Prop :=
  ∃ name host store args, env.hosts.lookup name = some host ∧ (host store args).1 = .error e

theorem isOfRun_of_isOfData {e : RunError} (h : e.isOfData) : e.isOfRun = false := by
  cases e <;> simp_all [RunError.isOfData, RunError.isOfRun]

theorem isOfInstruction_of_isOfData {e : RunError} (h : e.isOfData) : e.isOfInstruction := by
  unfold RunError.isOfInstruction
  split
  . rfl
  . exact h

theorem isOfRun_of_isOfInstruction {e : RunError} (h : e.isOfInstruction) : e.isOfRun = false := by
  cases e <;> simp_all [RunError.isOfInstruction, RunError.isOfData, RunError.isOfRun]

theorem proceed_error {store store' : Store} {x : Except RunError State} {e : RunError}
    (hx : DataFaults x) (h : proceed store x = .ended (.error e) store') : e.isOfData := by
  cases x with
  | ok s => cases h
  | error e' =>
    cases h
    exact hx e rfl

theorem leave_error {s : State} {d : Datum} {e : RunError} {store : Store}
    (h : leave s d = .ended (.error e) store) : e.isOfData := by
  unfold leave at h
  split at h
  . cases h
  . obtain ⟨e', he, hdata⟩ := resume_ended h
    cases he
    exact hdata

theorem invoke_error {env : Env} {s : State} {result : Option Temp} {callee : Value}
    {args : List Value} {e : RunError} {store : Store}
    (h : env.invoke s result callee args = .ended (.error e) store) :
    e.isOfRun = false ∨ env.HostFault e := by
  unfold invoke at h
  dsimp only at h
  split at h
  . next e' htarget =>
    cases h
    left
    apply isOfRun_of_isOfData
    refine DataFaults.bind (s.frame.value_dataFaults env callee) ?_ e htarget
    intro d
    split
    . apply (DataFaults.mapM (s.frame.value_dataFaults env) args).bind
      intro ds
      apply DataFaults.ok
    . apply DataFaults.error rfl
  . split at h
    . next hdispatch =>
      cases h
      exact .inl (dispatch_refused hdispatch)
    . next host hdispatch =>
      split at h
      . obtain ⟨e', he, hdata⟩ := resume_ended h
        cases he
        exact .inl (isOfRun_of_isOfData hdata)
      . next hcall =>
        cases h
        exact .inr ⟨_, host, _, _, dispatch_host hdispatch, congrArg Prod.fst hcall⟩
    . cases h
      exact .inl rfl
    . cases h

theorem step_error_of_plain {env : Env} {s : State} {i : Instruction} {e : RunError} {store : Store}
    (hplain : ∀ result callee args ty, i ≠ .call result callee args ty)
    (h : env.step s i = .ended (.error e) store) : e.isOfInstruction := by
  obtain ⟨frame, callers, store'⟩ := s
  cases i with
  | call result callee args ty => exact absurd rfl (hplain result callee args ty)
  | define id rhs =>
    apply isOfInstruction_of_isOfData
    simp only [step] at h
    split at h
    . next e' hcompute =>
      cases h
      exact frame.compute_dataFaults env _ rhs e hcompute
    . apply proceed_error _ h
      exact (frame.set_dataFaults id _).bind fun t => .ok _
  | free ptr =>
    apply isOfInstruction_of_isOfData
    rw [step_free_eq] at h
    apply proceed_error _ h
    exact Frame.dataFaults_of_pointer ptr fun p => (store'.memory.free_dataFaults p).bind fun m => .ok _
  | store v ptr =>
    apply isOfInstruction_of_isOfData
    rw [step_store_eq] at h
    apply proceed_error _ h
    exact Frame.dataFaults_of_value v fun d => Frame.dataFaults_of_pointer ptr fun p =>
      (store'.memory.store_dataFaults p d).bind fun m => .ok _
  | ret v =>
    apply isOfInstruction_of_isOfData
    cases v with
    | none => exact leave_error h
    | some v =>
      simp only [step] at h
      split at h
      . exact leave_error h
      . next e' hv =>
        cases h
        exact frame.value_dataFaults env v e hv
  | branch target => cases h
  | branchIf condition ifTrue ifFalse =>
    apply isOfInstruction_of_isOfData
    apply proceed_error _ h
    exact Frame.dataFaults_of_int condition fun c => .ok _
  | unreachable =>
    cases h
    rfl
  | comment text => cases h

theorem step_error {env : Env} {s : State} {i : Instruction} {e : RunError} {store : Store}
    (h : env.step s i = .ended (.error e) store) : e.isOfRun = false ∨ env.HostFault e := by
  by_cases hcall : ∃ result callee args ty, i = .call result callee args ty
  . obtain ⟨result, callee, args, ty, rfl⟩ := hcall
    exact invoke_error h
  . left
    apply isOfRun_of_isOfInstruction
    exact step_error_of_plain (fun result callee args ty hi => hcall ⟨result, callee, args, ty, hi⟩) h

def next (env : Env) (s : State) : Progress :=
  match s.frame.rest with
  | [] => .ended (.error (.missingTerminator s.frame.function.name s.frame.block)) s.store
  | i :: rest => env.step { s with frame := { s.frame with rest } } i

def iterate (env : Env) : Nat → State → Progress
  | 0, s => .running s
  | n + 1, s =>
    match env.next s with
    | .running t => env.iterate n t
    | .ended result store => .ended result store

theorem next_of_cons {env : Env} {s : State} {i : Instruction} {rest : List Instruction}
    (h : s.frame.rest = i :: rest) :
    env.next s = env.step { s with frame := { s.frame with rest } } i := by
  unfold next
  rw [h]

theorem iterate_succ_of_running {env : Env} {s t : State} (h : env.next s = .running t) (n : Nat) :
    env.iterate (n + 1) s = env.iterate n t := by
  rw [iterate, h]

theorem iterate_add {env : Env} {m : Nat} {s t : State} (h : env.iterate m s = .running t)
    (n : Nat) : env.iterate (m + n) s = env.iterate n t := by
  induction m generalizing s with
  | zero =>
    cases h
    rw [Nat.zero_add]
  | succ m ih =>
    rw [iterate] at h
    split at h
    . next u hnext =>
      rw [Nat.succ_add]
      rw [iterate_succ_of_running hnext]
      exact ih h
    . cases h

def Reaches (env : Env) (s t : State) : Prop := ∃ n, env.iterate n s = .running t

namespace Reaches

theorem invariant {env : Env} {P : State → Prop}
    (hstep : ∀ s t, P s → env.next s = .running t → P t) {s t : State} (hs : P s)
    (h : env.Reaches s t) : P t := by
  obtain ⟨n, hn⟩ := h
  induction n generalizing s with
  | zero =>
    cases hn
    exact hs
  | succ n ih =>
    rw [iterate] at hn
    split at hn
    . next u hnext => exact ih (hstep s u hs hnext) hn
    . cases hn

end Reaches

theorem runFor_nil {env : Env} {s : State} (h : s.frame.rest = []) (fuel steps : Nat) :
    env.runFor fuel steps s =
      ⟨.error (.missingTerminator s.frame.function.name s.frame.block), s.store, steps⟩ := by
  obtain ⟨⟨function, temps, block, rest⟩, callers, store⟩ := s
  cases h
  cases fuel <;> rfl

theorem runFor_zero {env : Env} {s : State} (h : s.frame.rest ≠ []) (steps : Nat) :
    env.runFor 0 steps s = ⟨.error (.stepLimit env.limits.steps), s.store, steps + 1⟩ := by
  obtain ⟨⟨function, temps, block, rest⟩, callers, store⟩ := s
  cases rest with
  | nil => simp at h
  | cons i rest => rfl

theorem runFor_succ {env : Env} {s : State} (h : s.frame.rest ≠ []) (fuel steps : Nat) :
    env.runFor (fuel + 1) steps s =
      match env.next s with
      | .running t => env.runFor fuel (steps + 1) t
      | .ended result store => ⟨result, store, steps + 1⟩ := by
  obtain ⟨⟨function, temps, block, rest⟩, callers, store⟩ := s
  cases rest with
  | nil => simp at h
  | cons i rest => rfl

theorem rest_ne_nil_of_next {env : Env} {s t : State} (h : env.next s = .running t) :
    s.frame.rest ≠ [] := by
  intro hrest
  rw [next, hrest] at h
  cases h

theorem runFor_cases (env : Env) (fuel steps : Nat) (s : State) :
    (∃ t, env.iterate fuel s = .running t ∧ t.frame.rest ≠ [] ∧
      env.runFor fuel steps s =
        ⟨.error (.stepLimit env.limits.steps), t.store, steps + fuel + 1⟩) ∨
    (∃ n t, n ≤ fuel ∧ env.iterate n s = .running t ∧ t.frame.rest = [] ∧
      env.runFor fuel steps s =
        ⟨.error (.missingTerminator t.frame.function.name t.frame.block), t.store, steps + n⟩) ∨
    (∃ n t result store, n < fuel ∧ env.iterate n s = .running t ∧ t.frame.rest ≠ [] ∧
      env.next t = .ended result store ∧
      env.runFor fuel steps s = ⟨result, store, steps + n + 1⟩) := by
  -- a block without further instructions ends the run at once, also where no fuel is left
  induction fuel generalizing s steps with
  | zero =>
    by_cases hrest : s.frame.rest = []
    . exact .inr (.inl ⟨0, s, Nat.le_refl 0, rfl, hrest, runFor_nil hrest 0 steps⟩)
    . exact .inl ⟨s, rfl, hrest, runFor_zero hrest steps⟩
  | succ fuel ih =>
    by_cases hrest : s.frame.rest = []
    . refine .inr (.inl ⟨0, s, Nat.zero_le _, rfl, hrest, ?_⟩)
      exact runFor_nil hrest (fuel + 1) steps
    . rw [runFor_succ hrest]
      cases hnext : env.next s with
      | ended result store =>
        exact .inr (.inr ⟨0, s, result, store, Nat.succ_pos fuel, rfl, hrest, hnext, rfl⟩)
      | running u =>
        dsimp only
        have hsucc (n : Nat) : env.iterate (n + 1) s = env.iterate n u :=
          iterate_succ_of_running hnext n
        rcases ih (steps + 1) u with ⟨t, ht, hr, hrun⟩ | ⟨n, t, hn, ht, hr, hrun⟩ |
          ⟨n, t, result, store, hn, ht, hr, hend, hrun⟩
        . refine .inl ⟨t, by rw [hsucc, ht], hr, ?_⟩
          rw [hrun]
          congr 1
          omega
        . refine .inr (.inl ⟨n + 1, t, by omega, by rw [hsucc, ht], hr, ?_⟩)
          rw [hrun]
          congr 1
          omega
        . refine .inr (.inr ⟨n + 1, t, result, store, by omega, by rw [hsucc, ht], hr, hend, ?_⟩)
          rw [hrun]
          congr 1
          omega

end Env

end ScriptedIR
