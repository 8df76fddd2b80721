import ScriptedIR.Proofs.Verified

/-!
Calls by recursion. `Env.call` runs a function with the steps and the depth of calls in counters of
its own, and calls itself for the functions that are called inside. It takes no fuel: every
instruction uses up a step, so the steps that are left get fewer. Main statements: it gives what
`Env.run` gives and counts steps up to one past the limit. It leaves the depth as it was, unless the
machine breaks down, which it can only do where a frame is at work.
-/

namespace ScriptedIR

structure Meter where
  store : Store
  steps : Nat
  depth : Nat

abbrev Ending (steps : Nat) := { r : Except RunError Datum × Meter // steps ≤ r.2.steps }

def broke : Except RunError Datum → Bool
  | .error (.breakdown _) => true
  | _ => false

namespace Frame

def callTarget (env : Env) (frame : Frame) (callee : Value) (args : List Value) :
    Except RunError (String × List Datum) := do
  match ← frame.value env callee with
  | .function name => return (name, ← args.mapM (frame.value env))
  | d => .error (.typeError (.notCallable d))

def receive (frame : Frame) (result : Option Temp) (d : Datum) : Except RunError Frame :=
  match result with
  | none => .ok frame
  | some id => frame.set id d

end Frame

def RunError.isOfAccounts : RunError → Bool
  | stepLimit _ | breakdown (.slots _) => true
  | _ => false

inductive Turn where
  | ended (result : Except RunError Datum) (m : Meter)
  | goes (m : Meter) (frame : Frame)
  | calls (m : Meter) (name : String) (args : List Datum) (frame : Frame) (result : Option Temp)

namespace Env

def turn (env : Env) (m : Meter) (frame : Frame) : Turn :=
  match frame.rest with
  | [] => .ended (.error (.missingTerminator frame.function.name frame.block)) m
  | i :: rest =>
    let begun := { m with steps := m.steps + 1 }
    if env.limits.steps < m.steps + 1 then .ended (.error (.stepLimit env.limits.steps)) begun
    else
      let frame := { frame with rest }
      match i with
      | .call result callee args _ =>
        match frame.callTarget env callee args with
        | .error e => .ended (.error e) begun
        | .ok (name, args) => .calls begun name args frame result
      | i =>
        match env.step ⟨frame, [], m.store⟩ i with
        | .ended result store => .ended result { begun with store }
        | .running s => .goes { begun with store := s.store } s.frame

section Turn

variable {env : Env} {m : Meter} {frame : Frame} {i : Instruction} {rest : List Instruction}

theorem turn_nil (h : frame.rest = []) :
    env.turn m frame = .ended (.error (.missingTerminator frame.function.name frame.block)) m := by
  unfold turn
  rw [h]

theorem turn_limit (h : frame.rest ≠ []) (hlimit : env.limits.steps < m.steps + 1) :
    env.turn m frame =
      .ended (.error (.stepLimit env.limits.steps)) { m with steps := m.steps + 1 } := by
  obtain ⟨i, rest, hrest⟩ := List.exists_cons_of_ne_nil h
  unfold turn
  simp only [hrest]
  rw [if_pos hlimit]

theorem turn_call {result : Option Temp} {callee : Value} {args : List Value} {ty : Ty}
    (h : frame.rest = .call result callee args ty :: rest) (hlimit : ¬env.limits.steps < m.steps + 1) :
    env.turn m frame =
      match Frame.callTarget env { frame with rest } callee args with
      | .error e => .ended (.error e) { m with steps := m.steps + 1 }
      | .ok (name, args) =>
        .calls { m with steps := m.steps + 1 } name args { frame with rest } result := by
  unfold turn
  simp only [h]
  rw [if_neg hlimit]

theorem turn_plain (h : frame.rest = i :: rest) (hlimit : ¬env.limits.steps < m.steps + 1)
    (hplain : ∀ result callee args ty, i ≠ .call result callee args ty) :
    env.turn m frame =
      match env.step ⟨{ frame with rest }, [], m.store⟩ i with
      | .ended result store => .ended result ⟨store, m.steps + 1, m.depth⟩
      | .running s => .goes ⟨s.store, m.steps + 1, m.depth⟩ s.frame := by
  unfold turn
  simp only [h]
  rw [if_neg hlimit]

inductive Turns (env : Env) (m : Meter) (frame : Frame) : Turn → Prop
  | nil (rest : frame.rest = []) :
      Turns env m frame
        (.ended (.error (.missingTerminator frame.function.name frame.block)) m)
  | limit (rest : frame.rest ≠ []) (beyond : env.limits.steps < m.steps + 1) :
      Turns env m frame
        (.ended (.error (.stepLimit env.limits.steps)) { m with steps := m.steps + 1 })
  | ended (result : Except RunError Datum) (store : Store) (left : m.steps + 1 ≤ env.limits.steps)
      (fault : ∀ e, result = .error e → e.isOfInstruction) :
      Turns env m frame (.ended result ⟨store, m.steps + 1, m.depth⟩)
  | goes (store : Store) (frame' : Frame) (left : m.steps + 1 ≤ env.limits.steps) :
      Turns env m frame (.goes ⟨store, m.steps + 1, m.depth⟩ frame')
  | calls (name : String) (args : List Datum) (frame' : Frame) (result : Option Temp)
      (left : m.steps + 1 ≤ env.limits.steps) :
      Turns env m frame (.calls { m with steps := m.steps + 1 } name args frame' result)

theorem callTarget_dataFaults (frame : Frame) (callee : Value) (args : List Value) :
    DataFaults (frame.callTarget env callee args) := by
  apply (frame.value_dataFaults env callee).bind
  intro d
  split
  . apply (DataFaults.mapM (frame.value_dataFaults env) args).bind
    intro ds
    apply DataFaults.ok
  . apply DataFaults.error rfl

theorem turns (env : Env) (m : Meter) (frame : Frame) : Turns env m frame (env.turn m frame) := by
  by_cases hnil : frame.rest = []
  . rw [turn_nil hnil]
    exact .nil hnil
  . by_cases hlimit : env.limits.steps < m.steps + 1
    . rw [turn_limit hnil hlimit]
      exact .limit hnil hlimit
    . obtain ⟨i, rest, hrest⟩ := List.exists_cons_of_ne_nil hnil
      have hleft : m.steps + 1 ≤ env.limits.steps := by omega
      by_cases hcall : ∃ result callee args ty, i = .call result callee args ty
      . obtain ⟨result, callee, args, ty, rfl⟩ := hcall
        rw [turn_call hrest hlimit]
        split
        . next e htarget =>
          refine .ended (.error e) m.store hleft ?_
          rintro e' ⟨⟩
          exact isOfInstruction_of_isOfData (callTarget_dataFaults _ callee args e htarget)
        . exact .calls _ _ _ _ hleft
      . have hplain : ∀ result callee args ty, i ≠ .call result callee args ty := by
          intro result callee args ty heq
          exact hcall ⟨result, callee, args, ty, heq⟩
        rw [turn_plain hrest hlimit hplain]
        split
        . next result store hstep =>
          refine .ended result store hleft ?_
          rintro e rfl
          exact step_error_of_plain hplain hstep
        . exact .goes _ _ hleft

theorem turn_ended_steps {result : Except RunError Datum} {after : Meter}
    (h : env.turn m frame = .ended result after) : m.steps ≤ after.steps := by
  have hturns := env.turns m frame
  rw [h] at hturns
  cases hturns <;> simp

theorem turn_goes_steps {after : Meter} {frame' : Frame} (h : env.turn m frame = .goes after frame') :
    after.steps = m.steps + 1 ∧ m.steps + 1 ≤ env.limits.steps := by
  have hturns := env.turns m frame
  rw [h] at hturns
  cases hturns with
  | goes store frame' left => exact ⟨rfl, left⟩

theorem turn_calls_steps {begun : Meter} {name : String} {args : List Datum} {frame' : Frame}
    {result : Option Temp} (h : env.turn m frame = .calls begun name args frame' result) :
    begun = { m with steps := m.steps + 1 } ∧ m.steps + 1 ≤ env.limits.steps := by
  have hturns := env.turns m frame
  rw [h] at hturns
  cases hturns with
  | calls name args frame' result left => exact ⟨rfl, left⟩

end Turn

mutual

def execute (env : Env) (m : Meter) (frame : Frame) : Ending m.steps :=
  match h : env.turn m frame with
  | .ended result after => ⟨(result, after), turn_ended_steps h⟩
  | .goes after frame =>
    have hsteps := turn_goes_steps h
    ⟨(env.execute after frame).val,
      Nat.le_trans (by omega) (env.execute after frame).property⟩
  | .calls begun name args frame result =>
    have hbegun := turn_calls_steps h
    have hsteps : begun.steps = m.steps + 1 := by rw [hbegun.1]
    match env.call begun name args with
    | ⟨(.error e, after), hle⟩ => ⟨(.error e, after), Nat.le_trans (by omega) hle⟩
    | ⟨(.ok d, after), hle⟩ =>
      match frame.receive result d with
      | .error e => ⟨(.error e, after), Nat.le_trans (by omega) hle⟩
      | .ok frame =>
        have : begun.steps ≤ after.steps := hle
        ⟨(env.execute after frame).val,
          Nat.le_trans (by omega) (env.execute after frame).property⟩
termination_by (env.limits.steps + 1 - m.steps, 0)

/--
Calls a function by name. A frame that could not be set up counts as one at work.
-/
def call (env : Env) (m : Meter) (name : String) (args : List Datum) : Ending m.steps :=
  match env.dispatch m.depth name args with
  | .refused e => ⟨(.error e, m), Nat.le_refl _⟩
  | .host f =>
    let (result, store) := f m.store args
    ⟨(result, { m with store }), Nat.le_refl _⟩
  | .broken cause => ⟨(.error (.breakdown cause), { m with depth := m.depth + 1 }), Nat.le_refl _⟩
  | .frame frame =>
    match env.execute { m with depth := m.depth + 1 } frame with
    | ⟨(result, after), hle⟩ =>
      ⟨(result, if broke result then after else { after with depth := after.depth - 1 }), by
        split <;> exact hle⟩
termination_by (env.limits.steps + 1 - m.steps, 1)

end

variable {env : Env}

theorem execute_val (m : Meter) (frame : Frame) :
    (env.execute m frame).val =
      match env.turn m frame with
      | .ended result after => (result, after)
      | .goes after frame => (env.execute after frame).val
      | .calls begun name args frame result =>
        match (env.call begun name args).val with
        | (.error e, after) => (.error e, after)
        | (.ok d, after) =>
          match frame.receive result d with
          | .error e => (.error e, after)
          | .ok frame => (env.execute after frame).val := by
  rw [execute]
  split
  . next hturn => simp only [hturn]
  . next hturn => simp only [hturn]
  . next begun name args frame result hturn =>
    simp only [hturn]
    generalize env.call begun name args = ending
    obtain ⟨⟨e | d, after⟩, hle⟩ := ending
    . rfl
    . dsimp only
      cases frame.receive result d <;> rfl

theorem call_val (m : Meter) (name : String) (args : List Datum) :
    (env.call m name args).val =
      match env.dispatch m.depth name args with
      | .refused e => (.error e, m)
      | .host f => ((f m.store args).1, { m with store := (f m.store args).2 })
      | .broken cause => (.error (.breakdown cause), { m with depth := m.depth + 1 })
      | .frame frame =>
        let ending := (env.execute { m with depth := m.depth + 1 } frame).val
        (ending.1, if broke ending.1 then ending.2 else { ending.2 with depth := ending.2.depth - 1 }) := by
  rw [call]
  generalize env.dispatch _ _ _ = d
  cases d <;> rfl

theorem isOfAccounts_of_isOfInstruction {e : RunError} (h : e.isOfInstruction) :
    e.isOfAccounts = false := by
  unfold RunError.isOfAccounts
  split
  . cases h
  . cases h
  . rfl

def Lacks (env : Env) (count : Nat) : Prop :=
  ∃ f ∈ env.module.functions, f.isDeclaration = false ∧ f.nextTemp = count ∧ count < f.params.length

/--
The accounts at the end of a call. The depth is that of its start, or more if the machine broke down.
One step past the limit has been counted exactly if the limit ended the call, and slots were missing
only if some function lacks them.
-/
structure Settled (env : Env) (depth : Nat) (r : Except RunError Datum × Meter) : Prop where
  deep : depth ≤ r.2.depth
  depth : broke r.1 = false → r.2.depth = depth
  steps : r.2.steps ≤ env.limits.steps + 1
  spent : r.2.steps = env.limits.steps + 1 → r.1 = .error (.stepLimit env.limits.steps)
  limited : ∀ n, r.1 = .error (.stepLimit n) →
    r.2.steps = env.limits.steps + 1 ∨ env.HostFault (.stepLimit n)
  slots : ∀ count, r.1 = .error (.breakdown (.slots count)) →
    env.Lacks count ∨ env.HostFault (.breakdown (.slots count))

namespace Settled

theorem within {depth : Nat} {d : Datum} {m : Meter} (h : env.Settled depth (.ok d, m)) :
    m.steps ≤ env.limits.steps := by
  have hle := h.steps
  have hspent := h.spent
  dsimp only at hle hspent
  by_cases heq : m.steps = env.limits.steps + 1
  . have := hspent heq
    cases this
  . omega

theorem of_le {r : Except RunError Datum} {m : Meter} (hle : m.steps ≤ env.limits.steps)
    (h : ∀ e, r = .error e → e.isOfAccounts = false ∨ env.HostFault e) :
    env.Settled m.depth (r, m) := by
  refine ⟨Nat.le_refl _, fun _ => rfl, Nat.le_succ_of_le hle, ?_, ?_, ?_⟩
  . intro heq
    dsimp only at heq
    omega
  . intro n hn
    cases h _ hn with
    | inl h => cases h
    | inr h => exact .inr h
  . intro count hcount
    cases h _ hcount with
    | inl h => cases h
    | inr h => exact .inr h

theorem leave {depth : Nat} {r : Except RunError Datum × Meter} (h : env.Settled (depth + 1) r) :
    env.Settled depth (r.1, if broke r.1 then r.2 else { r.2 with depth := r.2.depth - 1 }) := by
  have hdeep := h.deep
  cases hbroke : broke r.1 with
  | true =>
    refine ⟨Nat.le_of_succ_le hdeep, ?_, h.steps, h.spent, h.limited, h.slots⟩
    intro hwhole
    rw [hbroke] at hwhole
    cases hwhole
  | false =>
    have hdepth := h.depth hbroke
    refine ⟨?_, fun _ => ?_, h.steps, h.spent, h.limited, h.slots⟩
    . simp [hdepth]
    . simp [hdepth]

end Settled

theorem call_settled {m : Meter} (hle : m.steps ≤ env.limits.steps)
    (h : ∀ frame, env.Settled (m.depth + 1)
      (env.execute { m with depth := m.depth + 1 } frame).val)
    (name : String) (args : List Datum) : env.Settled m.depth (env.call m name args).val := by
  rw [call_val]
  have hcase := env.dispatches env.hosts m.depth name args
  unfold dispatch
  generalize env.dispatchTo env.hosts m.depth name args = d at hcase ⊢
  cases hcase with
  | refused e data run whole =>
    apply Settled.of_le hle
    rintro e' ⟨⟩
    left
    cases e with
    | stepLimit n => cases run
    | breakdown cause => exact absurd rfl (whole cause)
    | _ => rfl
  | host host found =>
    apply Settled.of_le (m := ⟨(host m.store args).2, m.steps, m.depth⟩) hle
    intro e he
    exact .inr ⟨name, host, m.store, args, found, he⟩
  | broken f found defined few =>
    refine ⟨Nat.le_succ _, ?_, Nat.le_succ_of_le hle, ?_, ?_, ?_⟩
    . rintro ⟨⟩
    . intro heq
      dsimp only at heq
      omega
    . rintro n ⟨⟩
    . rintro count ⟨⟩
      exact .inl ⟨f, List.mem_of_find?_eq_some found, defined, rfl, few⟩
  | frame f found defined room => exact (h (.enter f args)).leave

theorem call_broke {m : Meter}
    (h : ∀ frame, env.Settled (m.depth + 1)
      (env.execute { m with depth := m.depth + 1 } frame).val)
    {name : String} {args : List Datum} {cause : Breakdown}
    (hbroke : (env.call m name args).val.1 = .error (.breakdown cause)) :
    m.depth < (env.call m name args).val.2.depth ∨ env.HostFault (.breakdown cause) := by
  rw [call_val] at hbroke ⊢
  have hcase := env.dispatches env.hosts m.depth name args
  unfold dispatch at hbroke ⊢
  generalize env.dispatchTo env.hosts m.depth name args = d at hcase hbroke ⊢
  cases hcase with
  | refused e data run whole =>
    cases hbroke
    exact absurd rfl (whole cause)
  | host host found => exact .inr ⟨name, host, m.store, args, found, hbroke⟩
  | broken f found defined few => exact .inl (Nat.lt_succ_self _)
  | frame f found defined room =>
    left
    dsimp only at hbroke ⊢
    rw [hbroke]
    exact (h (.enter f args)).deep

theorem receive_dataFaults (frame : Frame) (result : Option Temp) (d : Datum) :
    DataFaults (frame.receive result d) := by
  unfold Frame.receive
  split
  . apply DataFaults.ok
  . apply Frame.set_dataFaults

-- The induction is on the steps that are left: what is called inside starts with fewer of them, and
-- so does what comes behind the call.
theorem execute_settled (m : Meter) (frame : Frame) (hle : m.steps ≤ env.limits.steps) :
    env.Settled m.depth (env.execute m frame).val := by
  induction hleft : env.limits.steps - m.steps using Nat.strongRecOn generalizing m frame with
  | ind left ih =>
  have later (m' : Meter) (frame' : Frame) (hlt : m.steps < m'.steps)
      (hle' : m'.steps ≤ env.limits.steps) : env.Settled m'.depth (env.execute m' frame').val :=
    ih (env.limits.steps - m'.steps) (by omega) m' frame' hle' rfl
  rw [execute_val]
  have hturns := env.turns m frame
  generalize env.turn m frame = turn at hturns ⊢
  cases hturns with
  | nil rest =>
    apply Settled.of_le hle
    rintro e ⟨⟩
    exact .inl rfl
  | limit rest beyond =>
    refine ⟨Nat.le_refl _, fun _ => rfl, by dsimp only; omega, fun _ => rfl, ?_, ?_⟩
    . intro n _
      left
      dsimp only
      omega
    . rintro count ⟨⟩
  | ended result store left fault =>
    apply Settled.of_le (m := ⟨store, m.steps + 1, m.depth⟩) left
    intro e he
    exact .inl (isOfAccounts_of_isOfInstruction (fault e he))
  | goes store frame' left => exact later ⟨store, m.steps + 1, m.depth⟩ frame' (Nat.lt_succ_self _) left
  | calls name args frame' result left =>
    have hsettled : env.Settled m.depth (env.call { m with steps := m.steps + 1 } name args).val :=
      call_settled (m := { m with steps := m.steps + 1 }) left
        (fun frame => later ⟨m.store, m.steps + 1, m.depth + 1⟩ frame (Nat.lt_succ_self _) left)
        name args
    have hlt := (env.call { m with steps := m.steps + 1 } name args).property
    dsimp only
    split
    . next e after hafter =>
      rw [hafter] at hsettled
      exact hsettled
    . next d after hafter =>
      rw [hafter] at hsettled hlt
      have hdepth : after.depth = m.depth := hsettled.depth rfl
      split
      . next e hreceive =>
        rw [← hdepth]
        apply Settled.of_le hsettled.within
        rintro e' ⟨⟩
        left
        apply isOfAccounts_of_isOfInstruction
        exact isOfInstruction_of_isOfData (receive_dataFaults _ result d e hreceive)
      . next frame'' _ =>
        rw [← hdepth]
        exact later after frame'' hlt hsettled.within

def handOver (env : Env) (callers : List Caller) (r : Except RunError Datum × Meter) : Outcome :=
  match r.1, callers with
  | .error e, _ => ⟨.error e, r.2.store, r.2.steps⟩
  | .ok d, [] => ⟨.ok d, r.2.store, r.2.steps⟩
  | .ok d, caller :: callers =>
    match resume caller.frame caller.result d callers r.2.store with
    | .running s => env.runFor (env.limits.steps - r.2.steps) r.2.steps s
    | .ended result store => ⟨result, store, r.2.steps⟩

theorem handOver_congr {callers : List Caller} {r : Except RunError Datum} {m m' : Meter}
    (hstore : m'.store = m.store) (hsteps : m'.steps = m.steps) :
    env.handOver callers (r, m') = env.handOver callers (r, m) := by
  unfold handOver
  simp only [hstore, hsteps]

theorem resume_eq_receive (frame : Frame) (result : Option Temp) (d : Datum)
    (callers : List Caller) (store : Store) :
    resume frame result d callers store =
      match frame.receive result d with
      | .ok frame => .running ⟨frame, callers, store⟩
      | .error e => .ended (.error e) store := by
  cases result with
  | none => rfl
  | some id =>
    unfold resume Frame.receive
    cases hset : frame.set id d <;> simp only [hset]

theorem step_call (s : State) (result : Option Temp) (callee : Value) (args : List Value)
    (ty : Ty) :
    env.step s (.call result callee args ty) =
      match s.frame.callTarget env callee args with
      | .error e => .ended (.error e) s.store
      | .ok (name, args) =>
        match env.dispatch (s.callers.length + 1) name args with
        | .refused e => .ended (.error e) s.store
        | .host f =>
          match f s.store args with
          | (.ok d, store) => resume s.frame result d s.callers store
          | (.error e, store) => .ended (.error e) store
        | .broken cause => .ended (.error (.breakdown cause)) s.store
        | .frame callee =>
          .running { s with frame := callee, callers := ⟨s.frame, result⟩ :: s.callers } := rfl

theorem operate_callers (frame : Frame) (callers : List Caller) (store : Store)
    (operation : Except RunError (Memory → Except RunError Unit × Memory)) :
    operate ⟨frame, callers, store⟩ operation =
      match operate ⟨frame, [], store⟩ operation with
      | .running s => .running { s with callers }
      | .ended (.ok d) store => leave ⟨frame, callers, store⟩ d
      | .ended (.error e) store => .ended (.error e) store := by
  unfold operate
  cases operation with
  | error e => rfl
  | ok f =>
    dsimp only
    rcases f store.memory with ⟨e | _, memory⟩
    . rfl
    . rfl

theorem step_of_plain {i : Instruction}
    (hplain : ∀ result callee args ty, i ≠ .call result callee args ty)
    (frame : Frame) (callers : List Caller) (store : Store) :
    env.step ⟨frame, callers, store⟩ i =
      match env.step ⟨frame, [], store⟩ i with
      | .running s => .running { s with callers }
      | .ended (.ok d) store => leave ⟨frame, callers, store⟩ d
      | .ended (.error e) store => .ended (.error e) store := by
  have onProceed {x : Except RunError State} (y : Except RunError State)
      (hxy : y = x.map ({ · with callers })) :
      proceed store y =
        match proceed store x with
        | .running s => .running { s with callers }
        | .ended (.ok d) store => leave ⟨frame, callers, store⟩ d
        | .ended (.error e) store => .ended (.error e) store := by
    subst hxy
    cases x <;> rfl
  cases i with
  | call result callee args ty => exact absurd rfl (hplain result callee args ty)
  | define id rhs =>
    simp only [step]
    cases frame.compute env store.memory rhs with
    | error e => rfl
    | ok computed =>
      obtain ⟨d, memory⟩ := computed
      dsimp only
      cases frame.set id d <;> rfl
  | free | store => exact operate_callers frame callers store _
  | ret v =>
    cases v with
    | none => rfl
    | some v =>
      simp only [step]
      cases frame.value env v <;> rfl
  | branch target => rfl
  | branchIf condition ifTrue ifFalse =>
    apply onProceed
    cases frame.value env condition with
    | error e => rfl
    | ok d =>
      cases hc : d.toInt with
      | error e => simp [hc, bind, Except.bind, Except.map]
      | ok c => simp [hc, bind, Except.bind, Except.map, pure, Except.pure]
  | unreachable => rfl
  | comment text => rfl

def dispatched (env : Env) (callers : List Caller) (begun : Meter) (name : String) (args : List Datum) :
    Outcome :=
  match env.dispatch callers.length name args with
  | .refused e => ⟨.error e, begun.store, begun.steps⟩
  | .host f =>
    env.handOver callers ((f begun.store args).1, { begun with store := (f begun.store args).2 })
  | .broken cause => ⟨.error (.breakdown cause), begun.store, begun.steps⟩
  | .frame callee =>
    env.runFor (env.limits.steps - begun.steps) begun.steps ⟨callee, callers, begun.store⟩

theorem runFor_turn (m : Meter) (frame : Frame) (callers : List Caller)
    (hle : m.steps ≤ env.limits.steps) :
    env.runFor (env.limits.steps - m.steps) m.steps ⟨frame, callers, m.store⟩ =
      match env.turn m frame with
      | .ended result after => env.handOver callers (result, after)
      | .goes after frame =>
        env.runFor (env.limits.steps - after.steps) after.steps ⟨frame, callers, after.store⟩
      | .calls begun name args frame result =>
        env.dispatched (⟨frame, result⟩ :: callers) begun name args := by
  by_cases hnil : frame.rest = []
  . rw [turn_nil hnil]
    exact runFor_nil hnil _ _
  . by_cases hlimit : env.limits.steps < m.steps + 1
    . rw [turn_limit hnil hlimit, show env.limits.steps - m.steps = 0 by omega]
      exact runFor_zero hnil _
    . obtain ⟨i, rest, hrest⟩ := List.exists_cons_of_ne_nil hnil
      rw [show env.limits.steps - m.steps = env.limits.steps - (m.steps + 1) + 1 by omega,
        runFor_succ hnil, next_of_cons hrest]
      by_cases hcall : ∃ result callee args ty, i = .call result callee args ty
      . obtain ⟨result, callee, args, ty, rfl⟩ := hcall
        rw [turn_call hrest hlimit, step_call]
        dsimp only
        cases Frame.callTarget env { frame with rest } callee args with
        | error e => rfl
        | ok target =>
          obtain ⟨name, args⟩ := target
          dsimp only
          unfold dispatched
          rw [List.length_cons]
          cases env.dispatch (callers.length + 1) name args with
          | refused e => rfl
          | broken cause => rfl
          | frame callee => rfl
          | host f =>
            dsimp only
            obtain ⟨r, store⟩ := f m.store args
            cases r <;> rfl
      . have hplain : ∀ result callee args ty, i ≠ .call result callee args ty := by
          intro result callee args ty heq
          exact hcall ⟨result, callee, args, ty, heq⟩
        rw [turn_plain hrest hlimit hplain, step_of_plain hplain]
        cases env.step ⟨{ frame with rest }, [], m.store⟩ i with
        | running s => rfl
        | ended r store =>
          cases r with
          | error e => rfl
          | ok d => cases callers <;> rfl

section HandOver

variable {m : Meter} (later : ∀ (m' : Meter) (frame : Frame) (callers : List Caller),
  m.steps < m'.steps → m'.depth = callers.length + 1 → m'.steps ≤ env.limits.steps →
  env.runFor (env.limits.steps - m'.steps) m'.steps ⟨frame, callers, m'.store⟩ =
    env.handOver callers (env.execute m' frame).val)

include later

theorem dispatched_eq_handOver {callers : List Caller} (name : String) (args : List Datum)
    (hdepth : m.depth = callers.length) (hleft : m.steps + 1 ≤ env.limits.steps) :
    env.dispatched callers { m with steps := m.steps + 1 } name args =
      env.handOver callers (env.call { m with steps := m.steps + 1 } name args).val := by
  rw [call_val]
  unfold dispatched
  rw [← hdepth]
  dsimp only
  cases env.dispatch m.depth name args with
  | refused e => rfl
  | host f => rfl
  | broken cause => rfl
  | frame callee =>
    dsimp only
    have hinner := later ⟨m.store, m.steps + 1, m.depth + 1⟩ callee callers (Nat.lt_succ_self _)
      (by rw [hdepth]) hleft
    dsimp only at hinner
    rw [hinner]
    symm
    apply handOver_congr
    . split <;> rfl
    . split <;> rfl

theorem handOver_cons {frame : Frame} {result : Option Temp} {callers : List Caller}
    {r : Except RunError Datum} {after : Meter} (hdepth : m.depth = callers.length + 1)
    (hlt : m.steps < after.steps) (hsettled : env.Settled m.depth (r, after)) :
    env.handOver (⟨frame, result⟩ :: callers) (r, after) =
      env.handOver callers (match (r, after) with
        | (.error e, after) => (.error e, after)
        | (.ok d, after) =>
          match frame.receive result d with
          | .error e => (.error e, after)
          | .ok frame => (env.execute after frame).val) := by
  cases r with
  | error e => rfl
  | ok d =>
    unfold handOver
    dsimp only
    rw [resume_eq_receive]
    cases frame.receive result d with
    | error e => rfl
    | ok frame' =>
      exact later after frame' callers hlt ((hsettled.depth rfl).trans hdepth) hsettled.within

end HandOver

theorem runFor_eq_handOver (m : Meter) (frame : Frame) (callers : List Caller)
    (hdepth : m.depth = callers.length + 1) (hle : m.steps ≤ env.limits.steps) :
    env.runFor (env.limits.steps - m.steps) m.steps ⟨frame, callers, m.store⟩ =
      env.handOver callers (env.execute m frame).val := by
  induction hleft : env.limits.steps - m.steps using Nat.strongRecOn generalizing m frame callers with
  | ind left ih =>
  have later (m' : Meter) (frame' : Frame) (callers' : List Caller) (hlt : m.steps < m'.steps)
      (hdepth' : m'.depth = callers'.length + 1) (hle' : m'.steps ≤ env.limits.steps) :
      env.runFor (env.limits.steps - m'.steps) m'.steps ⟨frame', callers', m'.store⟩ =
        env.handOver callers' (env.execute m' frame').val :=
    ih (env.limits.steps - m'.steps) (by omega) m' frame' callers' hdepth' hle' rfl
  rw [← hleft, runFor_turn m frame callers hle, execute_val]
  have hturns := env.turns m frame
  generalize env.turn m frame = turn at hturns ⊢
  cases hturns with
  | nil rest => rfl
  | limit rest beyond => rfl
  | ended result store left fault => rfl
  | goes store frame' left =>
    exact later ⟨store, m.steps + 1, m.depth⟩ frame' callers (Nat.lt_succ_self _) hdepth left
  | calls name args frame' result left =>
    have hsettled : env.Settled m.depth (env.call { m with steps := m.steps + 1 } name args).val :=
      call_settled (m := { m with steps := m.steps + 1 }) left
        (fun frame => execute_settled ⟨m.store, m.steps + 1, m.depth + 1⟩ frame left) name args
    have hlt := (env.call { m with steps := m.steps + 1 } name args).property
    dsimp only
    rw [dispatched_eq_handOver later name args (by rw [hdepth, List.length_cons]) left]
    generalize (env.call { m with steps := m.steps + 1 } name args).val = ending at hsettled hlt ⊢
    exact handOver_cons later hdepth hlt hsettled

theorem run_eq_call (store : Store) (name : String) (args : List Datum) :
    env.run store name args =
      let r := (env.call ⟨store, 0, 0⟩ name args).val
      ⟨r.1, r.2.store, r.2.steps⟩ := by
  unfold run
  rw [call_val]
  dsimp only
  cases env.dispatch 0 name args with
  | refused e => rfl
  | host f => rfl
  | broken cause => rfl
  | frame frame =>
    have h : env.runFor _ _ _ = _ :=
      runFor_eq_handOver ⟨store, 0, 1⟩ frame [] rfl (Nat.zero_le _)
    dsimp only at h ⊢
    rw [Nat.sub_zero] at h
    rw [h]
    generalize (env.execute ⟨store, 0, 0 + 1⟩ frame).val = ending
    obtain ⟨r, after⟩ := ending
    cases r with
    | ok d => rfl
    | error e => split <;> rfl

theorem next_depth {s t : State} (hs : s.callers.length + 1 ≤ env.limits.depth)
    (h : env.next s = .running t) : t.callers.length + 1 ≤ env.limits.depth := by
  obtain ⟨i, rest, hrest⟩ := List.exists_cons_of_ne_nil (rest_ne_nil_of_next h)
  rw [next_of_cons hrest] at h
  cases step_running h with
  | stay temps store plain size => exact hs
  | enter name f args result plain found defined room => exact room
  | back caller callers temps waiting size =>
    rw [show s.callers = caller :: callers from waiting, List.length_cons] at hs
    dsimp only
    omega
  | jump target leads => exact hs

theorem reaches_depth {name : String} {args : List Datum} {frame : Frame} {store : Store} {s : State}
    (hcall : env.dispatch 0 name args = .frame frame) (h : env.Reaches ⟨frame, [], store⟩ s) :
    s.callers.length + 1 ≤ env.limits.depth := by
  apply h.invariant fun s t => next_depth
  obtain ⟨f, -, -, hroom, -⟩ := dispatch_frame hcall
  exact hroom

/--
The accounts of a run by recursion, from any depth. It counts at most one step past the limit, and
that one exactly if the limit ends it. It gives the depth back however it ends, with a value or with an
error, unless the machine breaks down: then the frames that were at work still count, at least one of
them, as long as no host function broke down. For want of slots it does so only in a module with a
function that takes more arguments than it has slots. From depth zero this is the run of the machine,
which never has more functions at work than the depth allows.
-/
theorem call_keeps_accounts (env : Env) (m : Meter) (name : String) (args : List Datum)
    (hhosts : ∀ symbol host store data n, env.hosts.lookup symbol = some host →
      (host store data).1 ≠ .error (.stepLimit n))
    (hwhole : ∀ symbol host store data cause, env.hosts.lookup symbol = some host →
      (host store data).1 ≠ .error (.breakdown cause)) :
    let r := (env.call { m with steps := 0 } name args).val
    ((∀ cause, r.1 ≠ .error (.breakdown cause)) → r.2.depth = m.depth) ∧
      (∀ cause, r.1 = .error (.breakdown cause) → m.depth < r.2.depth) ∧
      (∀ count, r.1 = .error (.breakdown (.slots count)) → ∃ f ∈ env.module.functions,
        f.isDeclaration = false ∧ f.nextTemp = count ∧ count < f.params.length) ∧
      r.2.steps ≤ env.limits.steps + 1 ∧
      (r.2.steps = env.limits.steps + 1 ↔ ∃ n, r.1 = .error (.stepLimit n)) ∧
      (m.depth = 0 →
        env.run m.store name args = ⟨r.1, r.2.store, r.2.steps⟩ ∧
        ∀ frame s, env.dispatch 0 name args = .frame frame →
          env.Reaches ⟨frame, [], m.store⟩ s → s.callers.length + 1 ≤ env.limits.depth) := by
  intro r
  have hinside (frame : Frame) : env.Settled (m.depth + 1)
      (env.execute ⟨m.store, 0, m.depth + 1⟩ frame).val :=
    execute_settled ⟨m.store, 0, m.depth + 1⟩ frame (Nat.zero_le _)
  have hsettled : env.Settled m.depth r :=
    call_settled (m := ⟨m.store, 0, m.depth⟩) (Nat.zero_le _) hinside name args
  have hwhole' (cause : Breakdown) : ¬env.HostFault (.breakdown cause) := by
    rintro ⟨symbol, host, store, data, hlookup, herror⟩
    exact hwhole symbol host store data cause hlookup herror
  refine ⟨?_, ?_, ?_, hsettled.steps, ⟨?_, ?_⟩, ?_⟩
  . intro h
    apply hsettled.depth
    unfold broke
    split
    . next cause hcause => exact absurd hcause (h cause)
    . rfl
  . intro cause hcause
    exact (call_broke (m := ⟨m.store, 0, m.depth⟩) hinside hcause).resolve_right (hwhole' cause)
  . intro count hcount
    exact (hsettled.slots count hcount).resolve_right (hwhole' _)
  . intro h
    exact ⟨_, hsettled.spent h⟩
  . rintro ⟨n, hn⟩
    cases hsettled.limited n hn with
    | inl h => exact h
    | inr h =>
      obtain ⟨symbol, host, store, data, hlookup, herror⟩ := h
      exact absurd herror (hhosts symbol host store data n hlookup)
  . intro hdepth
    obtain ⟨store, steps, depth⟩ := m
    cases hdepth
    exact ⟨run_eq_call store name args, fun frame s => reaches_depth⟩

def cramped : Function where
  name := "cramped"
  result := .void
  params := [.i32]
  variadic := false
  blocks := [⟨0, "entry", [.ret none]⟩]
  nextTemp := 0
  nextBlock := 1

def narrow : Env where
  module := { name := "m", functions := [countdown, cramped] }
  limits := { steps := 9, depth := 1 }
  hosts := []

theorem narrow_keeps_accounts :
    let r := (narrow.call ⟨{}, 0, 0⟩ "countdown" [.int 3]).val
    let r' := (narrow.call ⟨{}, 0, 0⟩ "cramped" [.int 3]).val
    r.1 = .error (.stackOverflow 1) ∧ r.2.depth = 0 ∧ r.2.steps ≤ 10 ∧
      r'.1 = .error (.breakdown (.slots 0)) ∧ 0 < r'.2.depth ∧
      ∃ f ∈ narrow.module.functions,
        f.isDeclaration = false ∧ f.nextTemp = 0 ∧ 0 < f.params.length := by
  intro r r'
  have hresult : r.1 = .error (.stackOverflow 1) :=
    (congrArg Outcome.result (run_eq_call {} "countdown" [.int 3])).symm
  have hresult' : r'.1 = .error (.breakdown (.slots 0)) :=
    (congrArg Outcome.result (run_eq_call {} "cramped" [.int 3])).symm
  have hnone {host : HostFunction} {symbol : String} (h : narrow.hosts.lookup symbol = some host) :
      False := by
    cases h
  obtain ⟨hdepth, -, -, hsteps, -⟩ := call_keeps_accounts narrow ⟨{}, 0, 0⟩ "countdown" [.int 3]
    (fun _ _ _ _ _ h => (hnone h).elim) fun _ _ _ _ _ h => (hnone h).elim
  obtain ⟨-, hbroke, hslots, -⟩ := call_keeps_accounts narrow ⟨{}, 0, 0⟩ "cramped" [.int 3]
    (fun _ _ _ _ _ h => (hnone h).elim) fun _ _ _ _ _ h => (hnone h).elim
  refine ⟨hresult, hdepth ?_, hsteps, hresult', hbroke _ hresult', hslots 0 hresult'⟩
  intro cause hcause
  cases hresult.symm.trans hcause

/--
A machine that broke down in verified code has less depth to go on with: what could be called before
is refused afterwards.
-/
theorem cramped_leaves_depth :
    narrow.module.verify = .ok () ∧
      (narrow.call ⟨{}, 0, 0⟩ "countdown" [.int 0]).val.1 = .ok (.int 0) ∧
      ∃ m, (narrow.call ⟨{}, 0, 0⟩ "cramped" [.int 3]).val = (.error (.breakdown (.slots 0)), m) ∧
        m.depth = 1 ∧ (narrow.call m "countdown" [.int 0]).val.1 = .error (.stackOverflow 1) := by
  refine ⟨rfl, ?_, _, call_val _ _ _, rfl, ?_⟩
  . exact (congrArg Outcome.result (run_eq_call {} "countdown" [.int 0])).symm
  . rw [call_val]
    rfl

end Env

end ScriptedIR
